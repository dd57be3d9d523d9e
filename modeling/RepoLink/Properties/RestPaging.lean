import RepoLink.Github.Rest
import RepoLink.Library.Paging
import RepoLink.Library.Under

/-!
A list call of the REST client either ends with the whole remote list that it models or fails.
-/

namespace RepoLink

open Effects Program Paging

/-- The remote lists, for as long as they do not change. -/
structure RemoteLists where
  issues : IssueRoute → List Octocrab.Issue
  comments : (owner repo : String) → (number : Nat) → List Octocrab.Comment

def RemoteLists.Pages (lists : RemoteLists) : (request : RestRequest) → request.Response → Prop
  | .getIssue .., _ => True
  | .getIssues route perPage pageNumber, items =>
    items = page perPage (pageNumber - 1) (lists.issues route)
  | .listComments owner repo number perPage pageNumber, items =>
    items = page perPage (pageNumber - 1) (lists.comments owner repo number)

def RemoteLists.Answers (lists : RemoteLists) (request : restSignature.Op)
    (answer : restSignature.Answer request) : Prop :=
  ∀ response, answer = .ok response → lists.Pages request response

namespace RestClient

variable {lists : RemoteLists} {α β : Type}

/-- Whatever result there is satisfies `post`, as long as the answers are pages of the lists. -/
abbrev Ends (lists : RemoteLists) (post : α → Prop) (program : RestProgram α) : Prop :=
  program.Under lists.Answers (fun _ => True) post

theorem ends_ofExcept (result : Except PortError α) :
    Ends lists (fun value => result = .ok value) (ofExcept result) :=
  .of (every_ofExcept result) (yields_ofExcept result)

theorem ends_perform (op : RestRequest) :
    Ends lists (fun answer => lists.Answers op answer) (perform (S := restSignature) op) :=
  ⟨trivial, fun _ given => given⟩

theorem ends_mapped {post : α → Prop} {answer : Except Octocrab.Error α}
    (given : ∀ value, answer = .ok value → post value) :
    Ends lists post (ofExcept (answer.mapError mapErr)) := by
  cases answer with
  | ok value => exact given value rfl
  | error error => trivial

theorem ends_request (op : RestRequest) : Ends lists (lists.Pages op) (request op) :=
  (ends_perform op).bind fun _ => ends_mapped

theorem ends_discoverMoveTarget (canonicalRepo remoteId : String) :
    Ends lists (fun _ => True) (discoverMoveTarget canonicalRepo remoteId) := by
  refine (ends_ofExcept (splitOwnerRepo canonicalRepo)).bind fun address _ => ?_
  refine (ends_ofExcept (parseIssueNumber remoteId)).bind fun number _ => ?_
  exact (ends_request _).bind fun _ _ => trivial

theorem ends_ensureNotMoved (canonicalRepo remoteId : String) :
    Ends lists (fun _ => True) (ensureNotMoved canonicalRepo remoteId) := by
  refine (ends_discoverMoveTarget canonicalRepo remoteId).bind fun target _ => ?_
  cases target with
  | none => trivial
  | some moved => trivial

theorem ends_detectMoveOrMap {post : α → Prop} (canonicalRepo remoteId : String)
    {answer : Except Octocrab.Error α} (given : ∀ value, answer = .ok value → post value) :
    Ends lists post (detectMoveOrMap canonicalRepo remoteId answer) := by
  unfold detectMoveOrMap
  split
  · exact given _ rfl
  · refine (ends_discoverMoveTarget canonicalRepo remoteId).bind fun target _ => ?_
    cases target with
    | none => trivial
    | some moved => trivial
  · trivial

def Collected (convert : List α → List β) (list : List α) (walked : List β × Bool) : Prop :=
  if walked.2 then walked.1 = convert (list.take (maxPages * perPage)) else walked.1 = convert list

theorem ends_pageThrough {ask : Nat → RestProgram (List α)} {convert : List α → List β}
    {list : List α} (additive : ∀ front back, convert (front ++ back) = convert front ++ convert back)
    (asked : ∀ index, Ends lists (fun batch => batch = page perPage index list) (ask (index + 1))) :
    ∀ left index out, left + index = maxPages → 0 < left →
      out = convert (list.take (index * perPage)) →
      Ends lists (Collected convert list) (pageThrough ask convert left (index + 1) out) := by
  intro left
  induction left with
  | zero => exact fun _ _ _ more => absurd more (Nat.lt_irrefl 0)
  | succ left ih =>
      intro index out cap _ front
      refine (asked index).bind fun batch same => ?_
      have grown : out ++ convert batch = convert (list.take ((index + 1) * perPage)) := by
        rw [front, same, ← additive, take_page]
      dsimp only
      split
      · rename_i short
        -- a page that is not full is the last one
        have last : batch.length < perPage := by
          have bound := page_length perPage index list
          rw [← same] at bound
          omega
        change out ++ convert batch = convert list
        rw [grown, take_of_short (same ▸ last)]
      · split
        · rename_i full atCap
          change out ++ convert batch = convert (list.take (maxPages * perPage))
          rw [grown, atCap]
        · rename_i full below
          exact ih (index + 1) _ (by omega) (by omega) grown

theorem ends_walk {ask : Nat → RestProgram (List α)} {convert : List α → List β} {list : List α}
    (additive : ∀ front back, convert (front ++ back) = convert front ++ convert back)
    (empty : convert [] = [])
    (asked : ∀ index, Ends lists (fun batch => batch = page perPage index list) (ask (index + 1))) :
    Ends lists (Collected convert list) (pageThrough ask convert maxPages 1 []) := by
  refine ends_pageThrough additive asked maxPages 0 [] rfl (by decide) ?_
  rw [Nat.zero_mul, List.take_zero, empty]

theorem whole_of_probe {list : List α} (empty : page 1 (maxPages * perPage) list = []) :
    list.take (maxPages * perPage) = list := by
  have nothing := congrArg List.length empty
  rw [page_length, List.length_nil] at nothing
  exact List.take_of_length_le (by omega)

theorem ends_fetchPaged {canonicalRepo remoteId refusal : String}
    {ask : (owner repo : String) → (number perPage page : Nat) →
      RestProgram (Except Octocrab.Error (List α))}
    {convert : List α → List β} (list : String → String → Nat → List α)
    (additive : ∀ front back, convert (front ++ back) = convert front ++ convert back)
    (empty : convert [] = [])
    (asked : ∀ owner repo number size index, Ends lists (fun answer => ∀ batch, answer = .ok batch →
      batch = page size index (list owner repo number)) (ask owner repo number size (index + 1))) :
    Ends lists (fun found => ∃ owner repo number, splitOwnerRepo canonicalRepo = .ok (owner, repo) ∧
        parseIssueNumber remoteId = .ok number ∧ found = convert (list owner repo number))
      (fetchPaged canonicalRepo remoteId refusal ask convert) := by
  refine (ends_ensureNotMoved canonicalRepo remoteId).bind fun _ _ => ?_
  refine (ends_ofExcept (splitOwnerRepo canonicalRepo)).bind ?_
  rintro ⟨owner, repo⟩ split
  refine (ends_ofExcept (parseIssueNumber remoteId)).bind fun number parsed => ?_
  have pages : ∀ index, Ends lists
      (fun batch => batch = page perPage index (list owner repo number))
      ((ask owner repo number perPage (index + 1)).bind
        (detectMoveOrMap canonicalRepo remoteId)) := fun index =>
    (asked owner repo number perPage index).bind fun _ => ends_detectMoveOrMap canonicalRepo remoteId
  refine (ends_walk additive empty pages).bind ?_
  rintro ⟨out, capPageFull⟩ collected
  dsimp only
  split
  · rename_i full
    have capped : out = convert ((list owner repo number).take (maxPages * perPage)) :=
      (if_pos full).mp collected
    refine Under.bind ((asked owner repo number 1 (maxPages * perPage)).bind
      fun _ => ends_mapped) fun probe probed => ?_
    split
    · trivial
    · rename_i none
      have nothing : probe = [] := by simpa using none
      refine ⟨owner, repo, number, split, parsed, ?_⟩
      rw [capped, whole_of_probe (probed ▸ nothing)]
  · rename_i short
    exact ⟨owner, repo, number, split, parsed, (if_neg short).mp collected⟩

theorem ends_listIssues (isoSeconds : Timestamp → String) (canonicalRepo : String)
    (since : Timestamp) :
    Ends lists (fun snapshots => ∃ owner repo, splitOwnerRepo canonicalRepo = .ok (owner, repo) ∧
        snapshots = ((lists.issues (.issues owner repo (isoSeconds since))).filter
          fun issue => !issue.isPullRequest).map mapIssue)
      (listIssues isoSeconds canonicalRepo since) := by
  refine (ends_ofExcept (splitOwnerRepo canonicalRepo)).bind ?_
  rintro ⟨owner, repo⟩ split
  refine (ends_walk ?_ rfl fun index => ends_request _).bind ?_
  · intro front back
    rw [List.filter_append, List.map_append]
  · rintro ⟨snapshots, capPageFull⟩ collected
    dsimp only
    split
    · trivial
    · rename_i short
      exact ⟨owner, repo, split, (if_neg short).mp collected⟩

theorem ends_related {route : String → String → Nat → IssueRoute} (refusal canonicalRepo : String)
    (remoteId : String) :
    Ends lists (fun children => ∃ owner repo number,
        splitOwnerRepo canonicalRepo = .ok (owner, repo) ∧ parseIssueNumber remoteId = .ok number ∧
        children = (lists.issues (route owner repo number)).map (toChildIssue canonicalRepo))
      ((fetchPaged canonicalRepo remoteId refusal (fun owner repo number perPage page =>
        perform (S := restSignature) (.getIssues (route owner repo number) perPage page)) id).bind
        fun issues => .done (issues.map (toChildIssue canonicalRepo))) := by
  have listed := @ends_fetchPaged lists _ _ canonicalRepo remoteId refusal
    (fun owner repo number perPage page =>
      perform (S := restSignature) (.getIssues (route owner repo number) perPage page)) id
    (fun owner repo number => lists.issues (route owner repo number)) (fun _ _ => rfl) rfl
    fun owner repo number size index => ends_perform (.getIssues (route owner repo number) size _)
  refine listed.bind ?_
  rintro issues ⟨owner, repo, number, split, parsed, rfl⟩
  exact ⟨owner, repo, number, split, parsed, rfl⟩

theorem ends_fetchComments (canonicalRepo remoteId : String) :
    Ends lists (fun comments => ∃ owner repo number,
        splitOwnerRepo canonicalRepo = .ok (owner, repo) ∧ parseIssueNumber remoteId = .ok number ∧
        comments = (lists.comments owner repo number).map mapComment)
      (fetchComments canonicalRepo remoteId) :=
  ends_fetchPaged lists.comments (fun _ _ => List.map_append) rfl
    fun owner repo number size _ => ends_perform (.listComments owner repo number size _)

end RestClient

open RestClient

/-- Every list call that does not fail returns the whole of its remote list, in order. -/
theorem restLists_whole {σ : Type} (lists : RemoteLists) (meaning : Semantics restSignature σ)
    (paged : ∀ request before answer after, meaning request before answer after →
      lists.Answers request answer)
    (isoSeconds : Timestamp → String) (canonicalRepo remoteId : String) (since : Timestamp)
    (before after : σ) :
    (∀ snapshots, (listIssues isoSeconds canonicalRepo since).Runs meaning before (.ok snapshots)
        after → ∃ owner repo, splitOwnerRepo canonicalRepo = .ok (owner, repo) ∧
      snapshots = ((lists.issues (.issues owner repo (isoSeconds since))).filter
        fun issue => !issue.isPullRequest).map mapIssue) ∧
    (∀ children, (fetchSubIssues canonicalRepo remoteId).Runs meaning before (.ok children) after →
      ∃ owner repo number, splitOwnerRepo canonicalRepo = .ok (owner, repo) ∧
        parseIssueNumber remoteId = .ok number ∧
        children = (lists.issues (.subIssues owner repo number)).map
          (toChildIssue canonicalRepo)) ∧
    (∀ blockers, (fetchBlockedBy canonicalRepo remoteId).Runs meaning before (.ok blockers) after →
      ∃ owner repo number, splitOwnerRepo canonicalRepo = .ok (owner, repo) ∧
        parseIssueNumber remoteId = .ok number ∧
        blockers = (lists.issues (.blockedBy owner repo number)).map
          (toChildIssue canonicalRepo)) ∧
    ∀ comments, (fetchComments canonicalRepo remoteId).Runs meaning before (.ok comments) after →
      ∃ owner repo number, splitOwnerRepo canonicalRepo = .ok (owner, repo) ∧
        parseIssueNumber remoteId = .ok number ∧
        comments = (lists.comments owner repo number).map mapComment :=
  ⟨fun _ ran => (ends_listIssues isoSeconds canonicalRepo since).runs paged ran,
    fun _ ran => (ends_related _ canonicalRepo remoteId).runs paged ran,
    fun _ ran => (ends_related _ canonicalRepo remoteId).runs paged ran,
    fun _ ran => (ends_fetchComments canonicalRepo remoteId).runs paged ran⟩

def numberedIssue (number : Nat) : Octocrab.Issue where
  number
  nodeId := "I_1"
  title := "a"
  body := none
  closed := false
  updatedAt := .epoch
  assignees := []
  labels := []
  repositoryUrl := "https://api.github.com/repos/o/r"
  isPullRequest := number % 2 = 0

def longLists : RemoteLists where
  issues
    | .issues .. => (List.range 150).map numberedIssue
    | .subIssues .. => (List.range 100).map numberedIssue
    | .blockedBy .. => [numberedIssue 3]
  comments _ _ _ := (List.range 101).map fun id =>
    { id, author := "alice", body := some "b", createdAt := .epoch }

def longServer : Handler restSignature Unit
  | .getIssue .., _ => (.ok (numberedIssue 1), ())
  | .getIssues route perPage number, _ =>
    (.ok (page perPage (number - 1) (longLists.issues route)), ())
  | .listComments owner repo number perPage pageNumber, _ =>
    (.ok (page perPage (pageNumber - 1) (longLists.comments owner repo number)), ())

theorem longServer_answers (request : restSignature.Op) (before : Unit)
    (answer : restSignature.Answer request) (_ : Unit)
    (answered : answer = (longServer request before).1) : longLists.Answers request answer := by
  subst answered
  intro response same
  cases request with
  | getIssue owner repo number => trivial
  | getIssues route perPage number =>
      cases same
      rfl
  | listComments owner repo number perPage pageNumber =>
      cases same
      rfl

def longAnswers : Semantics restSignature Unit := fun request before answer _ =>
  answer = (longServer request before).1

theorem runs_longServer {α : Type} {program : RestProgram α} {value : α}
    (ended : (program.exec longServer ()).1 = .ok value) :
    program.Runs longAnswers () (.ok value) () := by
  have carried := @exec_runs restSignature Unit PortError α Unit longAnswers longServer id
    (fun _ _ => rfl) program ()
  rwa [ended] at carried

theorem restLists_whole_longLists :
    ∃ snapshots children blockers comments,
      (listIssues (fun _ => "1970-01-01T00:00:00Z") "github.com/o/r" .epoch).Runs longAnswers ()
        (.ok snapshots) () ∧
      (fetchSubIssues "github.com/o/r" "1").Runs longAnswers () (.ok children) () ∧
      (fetchBlockedBy "github.com/o/r" "1").Runs longAnswers () (.ok blockers) () ∧
      (fetchComments "github.com/o/r" "1").Runs longAnswers () (.ok comments) () ∧
      (snapshots.length, children.length, blockers.length, comments.length) = (75, 100, 1, 101) ∧
      (∃ owner repo, splitOwnerRepo "github.com/o/r" = .ok (owner, repo) ∧
        snapshots = ((longLists.issues (.issues owner repo "1970-01-01T00:00:00Z")).filter
          fun issue => !issue.isPullRequest).map mapIssue) ∧
      ∃ owner repo number, splitOwnerRepo "github.com/o/r" = .ok (owner, repo) ∧
        parseIssueNumber "1" = .ok number ∧
        comments = (longLists.comments owner repo number).map mapComment := by
  obtain ⟨snapshots, listed, many⟩ : ∃ snapshots,
      ((listIssues (fun _ => "1970-01-01T00:00:00Z") "github.com/o/r" .epoch).exec longServer
        ()).1 = .ok snapshots ∧ snapshots.length = 75 := ⟨_, rfl, rfl⟩
  obtain ⟨children, related, full⟩ : ∃ children,
      ((fetchSubIssues "github.com/o/r" "1").exec longServer ()).1 = .ok children ∧
        children.length = 100 := ⟨_, rfl, rfl⟩
  obtain ⟨blockers, blocking, one⟩ : ∃ blockers,
      ((fetchBlockedBy "github.com/o/r" "1").exec longServer ()).1 = .ok blockers ∧
        blockers.length = 1 := ⟨_, rfl, rfl⟩
  obtain ⟨comments, commented, more⟩ : ∃ comments,
      ((fetchComments "github.com/o/r" "1").exec longServer ()).1 = .ok comments ∧
        comments.length = 101 := ⟨_, rfl, rfl⟩
  have whole := restLists_whole longLists longAnswers longServer_answers
    (fun _ => "1970-01-01T00:00:00Z") "github.com/o/r" "1" .epoch () ()
  refine ⟨snapshots, children, blockers, comments, runs_longServer listed, runs_longServer related,
    runs_longServer blocking, runs_longServer commented, ?_, ?_, ?_⟩
  · rw [many, full, one, more]
  · exact whole.1 _ (runs_longServer listed)
  · exact whole.2.2.2 _ (runs_longServer commented)

end RepoLink
