import Mathlib.Data.Fintype.EquivFin
import RepoLink.Cli.ImportCalls

/-!
Cascade import. The walk meets every issue once, by the first path that leads to it; an issue that
it first meets at the depth cap is not followed any more, not even when it is met again nearer to
the root. Every issue within the cap is imported exactly when nothing is lost that way.
-/

namespace RepoLink

open Effects Program KeyedTable TaskTable Walks TaskService

namespace SyncImport

abbrev anyHash : Database → String → Prop := fun _ _ => True

def Mirrors (target : Target) (database : Database) (number : String) (id : TaskId) : Prop :=
  ∃ record, database.record id = some record ∧
    Database.mirrors target.filingOriginId provider number record = true

structure Placed (answers : Provider) (target : Target) (root : String) (database : Database)
    (number : String) : Prop where
  once : ∃! id, Mirrors target database number id
  child : number ≠ root → ∀ id, Mirrors target database number id →
    ∃ parent, Near (kids answers target.canonical) maxDepth root parent ∧
      number ∈ kids answers target.canonical parent ∧
      ∃ parentId, Mirrors target database parent parentId ∧
        ⟨.childOf, parentId⟩ ∈ database.relationsOf id

def Unchanged (before after : Database) : Prop :=
  (∀ id, (after.record id).isSome = (before.record id).isSome) ∧
    ∀ id relation, relation ∈ after.relationsOf id ↔ relation ∈ before.relationsOf id

/-- With enough fuel every import that does not run out of hashes ends well: every issue that is
near is in its place, and the same import again changes nothing. -/
def CascadeExact (answers : Provider) (target : Target) (url root : String) (start : Database) :
    Prop :=
  ∃ enough, ∀ fuel, enough ≤ fuel → ∀ result after,
    (syncImport fuel target.workspaceId url true).Runs (unfailingPorts answers anyHash) start
      result after → result ≠ .error (.service hashesExhausted) →
    (∃ reports, result = .ok (some reports)) ∧
      (∀ number, Near (kids answers target.canonical) maxDepth root number →
        Placed answers target root after number) ∧
      ∀ again later, (syncImport fuel target.workspaceId url true).Runs
        (unfailingPorts answers anyHash) after again later →
        (∃ reports, again = .ok (some reports)) ∧ Unchanged after later

variable {answers : Provider} {draws : Database → String → Prop} {fails : ImportError → Database → Prop}
  {target : Target} {url root : String} {issues : List String} {start database after : Database}
  {ids : String → TaskId} {met stack final : List (Visit String)} {fuel : Nat}

theorem childEntries_below {ids' : String → TaskId} (visit : Visit String) :
    childEntries target (ids' visit.node) visit.depth
        (childrenOf answers (entryOf target ids visit)) =
      (below (kids answers target.canonical) maxDepth visit).map (entryOf target ids') := by
  unfold childEntries childrenOf below
  change ((if visit.depth < maxDepth then _ else _ : List RemoteChildIssue).filter _).map _ = _
  split
  · unfold kids
    rw [List.map_map, List.map_map]
    rfl
  · rfl

theorem entries_congr {ids' : String → TaskId}
    (descent : Descent (kids answers target.canonical) maxDepth root stack met)
    (agree : ∀ other ∈ nodesOf met, ids' other = ids other) :
    stack.map (entryOf target ids) = stack.map (entryOf target ids') := by
  refine List.map_congr_left fun visit onStack => ?_
  have parent : visit.parent.map ids = visit.parent.map ids' := by
    rcases (descent.origin visit (List.mem_append_right _ onStack)).led with rfl |
      ⟨earlier, earlierMem, given, _⟩
    · rfl
    · rw [given, Option.map_some, Option.map_some,
        agree earlier.node (mem_nodesOf.mpr ⟨earlier, earlierMem, rfl⟩)]
  rw [entryOf, entryOf, parent]

/-- The run rule: the loop walks as the descent does, and what every round keeps holds at the
end. -/
theorem ensures_importLoop {holds : (String → TaskId) → List (Visit String) → Database → Prop}
    (round : ∀ ids visit stack met database,
      Descent (kids answers target.canonical) maxDepth root (visit :: stack) met →
      visit.node ∉ nodesOf met → visit :: met <:+ final → holds ids met database →
      (visitNode target true (entryOf target ids visit)).Ensures (unfailingPorts answers draws)
        fails (fun result after => result.2.2 = childrenOf answers (entryOf target ids visit) ∧
          ∃ ids', (∀ other ∈ nodesOf met, ids' other = ids other) ∧ result.1 = ids' visit.node ∧
            holds ids' (visit :: met) after) database) :
    ∀ {fuel : Nat} {stack met : List (Visit String)} {ids : String → TaskId}
      {database : Database} (reports : List Report),
      descend (kids answers target.canonical) maxDepth fuel stack met = some final →
      Descent (kids answers target.canonical) maxDepth root stack met → holds ids met database →
      (importLoop target true fuel (stack.map (entryOf target ids)) (nodesOf met) reports).Ensures
        (unfailingPorts answers draws) fails
        (fun out after => (∃ reports, out = some reports) ∧ ∃ ids', holds ids' final after)
        database := by
  intro fuel
  induction fuel with
  | zero =>
      intro stack met ids database reports ended
      cases ended
  | succ fuel ih =>
      intro stack met ids database reports ended descent held
      cases stack with
      | nil =>
          cases ended
          exact ⟨⟨reports, rfl⟩, ids, held⟩
      | cons visit stack =>
          rw [List.map_cons, importLoop]
          change Ensures _ _ _ (if visit.node ∈ nodesOf met then _ else _) database
          rw [descend] at ended
          split at ended
          · rename_i seen
            rw [if_pos seen]
            exact ih reports ended (descent.skip seen) held
          · rename_i new
            rw [if_neg new]
            have suffix := descend_suffix ended
            refine Ensures.bind (round ids visit stack met database descent new suffix held) ?_
            rintro ⟨_, report, _⟩ after ⟨rfl, ids', agree, rfl, heldAfter⟩
            have later := ih (reports ++ report :: skippedChildren target
              (childrenOf answers (entryOf target ids visit))) ended (descent.follow new) heldAfter
            have kept := (List.cons_eq_cons.mp (entries_congr descent agree)).2
            rw [List.map_append, List.map_reverse,
              ← @childEntries_below answers target ids ids' visit, ← kept] at later
            exact later

theorem ensures_syncImport (parsed : parseIssueUrl url = some (target.canonical, root))
    (attached : Attached target database) {post : Option (List Report) → Database → Prop}
    (loop : (importLoop target true fuel [⟨target.canonical, root, none, 0⟩] [] []).Ensures
      (unfailingPorts answers draws) fails post database) :
    (syncImport fuel target.workspaceId url true).Ensures (unfailingPorts answers draws) fails post
      database := by
  obtain ⟨view, found, named⟩ := attached.bound
  have bound : Gives answers draws fails
      (query (.findByCanonicalUrl target.workspaceId target.canonical) :
        Action (Option RepoBindingView)) database (some view) := by
    rw [← found]
    exact gives_query fun _ => rfl
  unfold syncImport
  rw [parsed]
  refine Gives.bind bound ?_
  change (importLoop (targetOf target.workspaceId target.canonical view) true fuel _ _ _).Ensures
    _ _ _ _
  rw [named]
  exact loop

section Runs

variable (graph : RemoteGraph answers target.canonical root issues)
  (ready : Ready target issues start) (parsed : parseIssueUrl url = some (target.canonical, root))
  (ended : descend (kids answers target.canonical) maxDepth fuel [rootVisit root] [] = some final)

include graph ready parsed ended

theorem ensures_firstImport
    (clash : ∀ database (task : Task) hash, draws database hash →
      database.tasks.hashTaken { task with hash } = true → fails (.service hashesExhausted) database) :
    (syncImport fuel target.workspaceId url true).Ensures (unfailingPorts answers draws) fails
      (fun out after => (∃ reports, out = some reports) ∧
        ∃ ids, Filed target issues start ids final after) start := by
  refine ensures_syncImport parsed ready.attached ?_
  have rounds := @ensures_importLoop answers draws fails target root final
    (fun ids met database => Filed target issues start ids met database)
    fun ids visit stack met database descent new _ filed =>
      ensures_visitNew graph ready (clash database) descent new filed
  exact rounds [] ended .start (Filed.nothing fun _ => ⟨0⟩)

theorem ensures_secondImport (filed : Filed target issues start ids final database) :
    (syncImport fuel target.workspaceId url true).Ensures (unfailingPorts answers draws) fails
      (fun out after => (∃ reports, out = some reports) ∧
        Filed target issues start ids final after) database := by
  refine ensures_syncImport parsed (ready.attached.kept filed.config) ?_
  have ranked : Ranked final := (Descent.ended ended .start).ranked
  have rounds := @ensures_importLoop answers draws fails target root final
    (fun ids' _ database => ids' = ids ∧ Filed target issues start ids final database)
    fun ids' visit stack met database _ _ suffix held => ?_
  · refine (rounds [] ended .start ⟨rfl, filed⟩).mono ?_
    rintro out after ⟨reported, _, _, filedAfter⟩
    exact ⟨reported, filedAfter⟩
  · obtain ⟨rfl, held⟩ := held
    refine (ensures_visitAgain graph ready ranked held (suffix.subset List.mem_cons_self)).mono ?_
    rintro result after ⟨children, named, filedAfter⟩
    exact ⟨children, ids', fun _ _ => rfl, named, rfl, filedAfter⟩

end Runs

theorem Filed.mirrors_iff (filed : Filed target issues start ids met database)
    (ready : Ready target issues start) {number : String} (wanted : number ∈ issues) {id : TaskId} :
    Mirrors target database number id ↔ number ∈ nodesOf met ∧ id = ids number := by
  constructor
  · rintro ⟨record, found, mirrors⟩
    exact filed.identified ready wanted found (.inl mirrors)
  · rintro ⟨member, rfl⟩
    obtain ⟨record, found, mirror⟩ := filed.mirrored number member
    exact ⟨record, found, (mirrors_standing mirror.standing number).mpr rfl⟩

theorem Filed.placed (filed : Filed target issues start ids final database)
    (ready : Ready target issues start)
    (descent : Descent (kids answers target.canonical) maxDepth root [] final) {number : String}
    (member : number ∈ nodesOf final) : Placed answers target root database number := by
  have wanted := filed.within number member
  refine ⟨⟨ids number, (filed.mirrors_iff ready wanted).mpr ⟨member, rfl⟩, ?_⟩, ?_⟩
  · intro id mirrors
    exact ((filed.mirrors_iff ready wanted).mp mirrors).2
  intro notRoot id mirrors
  obtain ⟨_, rfl⟩ := (filed.mirrors_iff ready wanted).mp mirrors
  obtain ⟨visit, visited, rfl⟩ := mem_nodesOf.mp member
  rcases (descent.origin visit (List.mem_append_left _ visited)).led with rfl |
    ⟨parent, parentMem, given, above, _, listed⟩
  · exact (notRoot rfl).elim
  · have parentNode := mem_nodesOf.mpr ⟨parent, parentMem, rfl⟩
    have path := (descent.origin parent (List.mem_append_left _ parentMem)).path
    refine ⟨parent.node, ⟨parent.depth, Nat.le_of_lt above, path⟩, listed, ids parent.node,
      (filed.mirrors_iff ready (filed.within _ parentNode)).mpr ⟨parentNode, rfl⟩, ?_⟩
    exact (filed.edges visit.node member _).mpr
      ⟨visit, visited, parent.node, given, .inl ⟨rfl, rfl⟩⟩

theorem Filed.unchanged (filed : Filed target issues start ids met database)
    (filedAfter : Filed target issues start ids met after) : Unchanged database after := by
  refine ⟨fun id => ?_, fun id relation => ?_⟩
  · by_cases imported : ∃ number ∈ nodesOf met, ids number = id
    · obtain ⟨number, member, rfl⟩ := imported
      rw [filed.stored member, filedAfter.stored member]
    · have elsewhere : ∀ number ∈ nodesOf met, ids number ≠ id :=
        fun number member same => imported ⟨number, member, same⟩
      rw [filed.kept id elsewhere, filedAfter.kept id elsewhere]
  · by_cases imported : ∃ number ∈ nodesOf met, ids number = id
    · obtain ⟨number, member, rfl⟩ := imported
      rw [filed.edges number member relation, filedAfter.edges number member relation]
    · have elsewhere : ∀ number ∈ nodesOf met, ids number ≠ id :=
        fun number member same => imported ⟨number, member, same⟩
      rw [Database.relationsOf, Database.relationsOf, filed.kept id elsewhere,
        filedAfter.kept id elsewhere]

def unusedHash (database : Database) (hash : String) : Prop :=
  ∀ record ∈ database.tasks.rows, record.row.hash ≠ hash

theorem unusedHash_exists (database : Database) : ∃ hash, unusedHash database hash := by
  obtain ⟨hash, unused⟩ := Infinite.exists_notMem_finset
    (database.tasks.rows.map fun record => record.row.hash).toFinset
  refine ⟨hash, fun record member same => unused ?_⟩
  exact List.mem_toFinset.mpr (List.mem_map.mpr ⟨record, member, same⟩)

theorem descent_ends (graph : RemoteGraph answers target.canonical root issues) :
    ∃ fuel final, descend (kids answers target.canonical) maxDepth fuel [rootVisit root] [] =
      some final := by
  refine ⟨_, descend_ends graph.closed _ [rootVisit root] [] ?_ (Nat.lt_succ_self _)⟩
  intro visit member
  rw [List.mem_singleton.mp member]
  exact graph.rooted

theorem cascadeExact_of_capSound (graph : RemoteGraph answers target.canonical root issues)
    (ready : Ready target issues start) (parsed : parseIssueUrl url = some (target.canonical, root))
    (sound : CapSound (kids answers target.canonical) maxDepth root) :
    CascadeExact answers target url root start := by
  obtain ⟨enough, final, endedFirst⟩ := descent_ends graph
  refine ⟨enough, fun fuel more result after ran unexhausted => ?_⟩
  have ended := descend_more more endedFirst
  have complete : Descent (kids answers target.canonical) maxDepth root [] final :=
    .ended ended .start
  have first := @ensures_firstImport answers anyHash
    (fun error _ => error = .service hashesExhausted) target url root issues start final fuel graph
    ready parsed ended fun _ _ _ _ _ => rfl
  obtain ⟨held, failed⟩ := ensures_iff.mp first result after ran
  cases result with
  | error error => exact (unexhausted (congrArg Except.error (failed error rfl))).elim
  | ok out =>
      obtain ⟨⟨reports, rfl⟩, ids, filed⟩ := held out rfl
      refine ⟨⟨reports, rfl⟩, fun number near => ?_, fun again later ranAgain => ?_⟩
      · exact filed.placed ready complete ((covers_iff_capSound ended).mpr sound number near)
      · have second := @ensures_secondImport answers anyHash (fun _ _ => False) target url root issues
          start after ids final fuel graph ready parsed ended filed
        obtain ⟨heldAgain, failedAgain⟩ := ensures_iff.mp second again later ranAgain
        cases again with
        | error error => exact (failedAgain error rfl).elim
        | ok out =>
            obtain ⟨⟨reports, rfl⟩, filedAfter⟩ := heldAgain out rfl
            exact ⟨⟨reports, rfl⟩, filed.unchanged filedAfter⟩

theorem capSound_of_cascadeExact (graph : RemoteGraph answers target.canonical root issues)
    (ready : Ready target issues start) (parsed : parseIssueUrl url = some (target.canonical, root))
    (exact : CascadeExact answers target url root start) :
    CapSound (kids answers target.canonical) maxDepth root := by
  obtain ⟨least, final, endedFirst⟩ := descent_ends graph
  obtain ⟨enough, exact⟩ := exact
  have ended := descend_more (Nat.le_max_left least enough) endedFirst
  have first := @ensures_firstImport answers unusedHash (fun _ _ => False) target url root issues
    start final _ graph ready parsed ended ?_
  · obtain ⟨out, after, ran, ⟨reports, rfl⟩, ids, filed⟩ :=
      first.exists_ok (unfailingPorts_total unusedHash_exists)
    have anyway : ∀ op before answer after,
        unfailingPorts answers unusedHash op before answer after →
          unfailingPorts answers anyHash op before answer after :=
      fun _ _ _ _ => unfailingPorts_mono fun _ _ _ => trivial
    have unexhausted : (Except.ok (some reports) : Except ImportError (Option (List Report))) ≠
        .error (.service hashesExhausted) := by
      intro same
      cases same
    have placed := (exact _ (Nat.le_max_right least enough) _ _ (ran.mono anyway) unexhausted).2.1
    refine (covers_iff_capSound ended).mp fun number near => ?_
    obtain ⟨id, mirrors, _⟩ := (placed number near).once
    obtain ⟨_, _, path⟩ := near
    have wanted : number ∈ issues := path.inside graph.rooted graph.closed
    exact ((filed.mirrors_iff ready wanted).mp mirrors).1
  · intro database task hash unused taken
    simp only [hashTaken, Bool.and_eq_true, List.any_eq_true, decide_eq_true_eq] at taken
    obtain ⟨_, record, member, _, same⟩ := taken
    exact unused record member same

/-- Cascade import is exact and repeatable if and only if no issue that is near is lost at the
cap: every sub-issue of an issue that the depth-first order cuts off there, though a shorter path
leads to it, is listed by an issue that is not cut off too. -/
theorem cascadeExact_iff (graph : RemoteGraph answers target.canonical root issues)
    (ready : Ready target issues start)
    (parsed : parseIssueUrl url = some (target.canonical, root)) :
    CascadeExact answers target url root start ↔
      CapSound (kids answers target.canonical) maxDepth root :=
  ⟨capSound_of_cascadeExact graph ready parsed, cascadeExact_of_capSound graph ready parsed⟩

section Samples

def acmeOne : Target := ⟨⟨1⟩, "github.com/acme/one", ⟨21⟩, ⟨11⟩⟩

def issueNumbered (number : String) : RemoteTaskSnapshot :=
  ⟨number, none, "t", "", false, .epoch, [], []⟩

def listingProvider (listing : List (String × List (String × String))) : Provider
  | .fetchRemote _ number => .ok (issueNumbered number)
  | .fetchSubIssues _ number =>
    .ok (((listing.lookup number).getD []).map fun far => ⟨far.1, issueNumbered far.2⟩)
  | op => obligingProvider op

theorem listingProvider_graph {listing : List (String × List (String × String))}
    (rooted : root ∈ issues)
    (closed : ∀ number ∈ issues, ∀ far ∈ kids (listingProvider listing) acmeOne.canonical number,
      far ∈ issues) : RemoteGraph (listingProvider listing) acmeOne.canonical root issues where
  rooted
  fetched number _ := ⟨issueNumbered number, rfl, (by decide : isBlank "t" = false)⟩
  listed _ _ := ⟨_, rfl⟩
  closed

theorem twoRepos_ready (issues : List String) : Ready acmeOne issues twoRepos where
  attached := ⟨⟨_, rfl⟩, _, rfl, rfl⟩
  untracked _ _ found := by cases found
  resolved _ _ related := by cases related

def diamondListing : List (String × List (String × String)) :=
  [("1", [("github.com/acme/one", "2"), ("github.com/acme/one", "3")]),
    ("2", [("github.com/acme/one", "4")]),
    ("3", [("github.com/acme/two", "9"), ("github.com/acme/one", "4")]),
    ("4", [("github.com/acme/one", "1")])]

def diamondKids : String → List String := kids (listingProvider diamondListing) acmeOne.canonical

theorem cascadeExact_diamond : CascadeExact (listingProvider diamondListing) acmeOne
    "https://github.com/acme/one/issues/1" "1" twoRepos := by
  have graph : RemoteGraph (listingProvider diamondListing) acmeOne.canonical "1"
      ["1", "2", "3", "4"] := listingProvider_graph (by decide) (by decide)
  have ended : descend diamondKids maxDepth 10 [rootVisit "1"] [] =
      some ((descend diamondKids maxDepth 10 [rootVisit "1"] []).getD []) := by decide
  exact (cascadeExact_iff graph (twoRepos_ready _) (by decide)).mpr
    (capSound_of_shallow ended (by decide))

def chainListing : List (String × List (String × String)) :=
  ("1", [("github.com/acme/one", "26"), ("github.com/acme/one", "2")]) ::
    (List.range' 2 25).map fun number =>
      (toString number, [("github.com/acme/one", toString (number + 1))])

def chainKids : String → List String := kids (listingProvider chainListing) acmeOne.canonical

set_option maxRecDepth 4000 in
theorem chain_loses : ¬CapSound chainKids maxDepth "1" := by
  intro sound
  have ended : descend chainKids maxDepth 60 [rootVisit "1"] [] =
      some ((descend chainKids maxDepth 60 [rootVisit "1"] []).getD []) := by decide
  have lost := sound 60 _ ended ⟨"26", some "25", 25⟩ (by decide) rfl
    ⟨1, by decide, .step .start (by decide)⟩ "27" (by decide)
  revert lost
  decide

set_option maxRecDepth 4000 in
/-- Issue 27 is two steps away from the root, and is not imported. -/
theorem deepSubIssue_lost : ¬CascadeExact (listingProvider chainListing) acmeOne
    "https://github.com/acme/one/issues/1" "1" twoRepos := by
  have graph : RemoteGraph (listingProvider chainListing) acmeOne.canonical "1"
      ((List.range' 1 27).map toString) := listingProvider_graph (by decide) (by decide)
  exact fun exact =>
    chain_loses (capSound_of_cascadeExact graph (twoRepos_ready _) (by decide) exact)

end Samples

end SyncImport

end RepoLink
