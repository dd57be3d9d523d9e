import RepoLink.Github.Graphql

/-!
A poll of a board asks for a bounded number of pages, and what it reports as complete holds the
modelled items of every page.
-/

namespace RepoLink

open Effects Program KeyedTable List

structure BoardPage where
  nodes : List ItemNode
  endCursor : Option String
deriving DecidableEq, Repr

/-- There is a first page, if only an empty one. -/
structure PagedBoard where
  pages : List BoardPage
  nonempty : pages ≠ []

namespace PagedBoard

variable (board : PagedBoard)

/-- The page that `after` asks for: the first, or the one that follows its cursor. -/
inductive Follows : (after : Option String) → (index : Nat) → Prop where
  | start : Follows none 0
  | next {index : Nat} {page : BoardPage} {cursor : String} (shown : board.pages[index]? = some page)
      (ends : page.endCursor = some cursor) : Follows (some cursor) (index + 1)

def connection (index : Nat) (page : BoardPage) : ItemsConn where
  pageInfo := { hasNextPage := index + 1 < board.pages.length, endCursor := page.endCursor }
  nodes := page.nodes

def nodes : List ItemNode := board.pages.flatMap BoardPage.nodes

end PagedBoard

/-- A request may fail or find no project; else it gets the page that follows its cursor. -/
def ServesPages
    (boards : (projectId : String) → (query : Option String) → (first : Nat) → PagedBoard)
    (request : PollItems) (answer : Except Octocrab.Error PollData) : Prop :=
  let board := boards request.projectId request.query request.first
  ∀ data items index page, answer = .ok data → data.node = some items →
    board.Follows request.after index → board.pages[index]? = some page →
    items = board.connection index page

namespace ItemNode

/-- Issues and draft issues are modelled; a pull request on the board is not. -/
def modelled (node : ItemNode) : Bool :=
  node.content.any fun content => content.typename == "Issue" || content.typename == "DraftIssue"

def fieldOption (fieldId : String) (node : ItemNode) : Option String :=
  (node.fieldValues.reverse.find? fun value =>
    value.fieldId = some fieldId ∧ value.optionId.isSome).bind FieldValueNode.optionId

end ItemNode

namespace GraphqlClient

variable (formats : TextFormats) (statusFieldId : String)

/-- The item that the adapter makes of a node. -/
structure Shows (node : ItemNode) (item : RemoteProjectItem) : Prop where
  mapped : mapPollItem formats statusFieldId node = .ok (some item)
  id : item.itemNodeId = node.id
  status : item.statusOptionId = node.fieldOption statusFieldId

variable {formats statusFieldId}

theorem find?_singleSelect (fieldId : String) : ∀ values : List FieldValueNode,
    ((values.filterMap singleSelect).find? fun entry => entry.1 = fieldId).map Prod.snd =
      (values.find? fun value => value.fieldId = some fieldId ∧ value.optionId.isSome).bind
        FieldValueNode.optionId := by
  intro values
  induction values with
  | nil => rfl
  | cons value rest ih =>
      obtain ⟨optionId, field⟩ := value
      cases field with
      | none =>
          rw [filterMap_cons_none rfl, find?_cons_of_neg (by simp), ih]
      | some field =>
          cases optionId with
          | none => rw [filterMap_cons_none rfl, find?_cons_of_neg (by simp), ih]
          | some optionId =>
              have selected : singleSelect ⟨some optionId, some field⟩ = some (field, optionId) := rfl
              rw [filterMap_cons_some selected]
              by_cases same : field = fieldId
              · rw [find?_cons_of_pos (by simpa using same), find?_cons_of_pos (by simpa using same)]
                rfl
              · rw [find?_cons_of_neg (by simpa using same), find?_cons_of_neg (by simpa using same),
                  ih]

theorem fieldOption_eq (node : ItemNode) :
    (Dict.collect (node.fieldValues.filterMap singleSelect)).get? statusFieldId =
      node.fieldOption statusFieldId := by
  rw [Dict.get?_collect, ← filterMap_reverse, find?_singleSelect]
  rfl

theorem mapPollItem_ok {node : ItemNode} {mapped : Option RemoteProjectItem}
    (read : mapPollItem formats statusFieldId node = .ok mapped) :
    (mapped = none ∧ node.modelled = false) ∨
      ∃ item, mapped = some item ∧ node.modelled = true ∧ Shows formats statusFieldId node item := by
  have given := read
  unfold mapPollItem at read
  cases parsed : parseTs formats node.updatedAt with
  | error error =>
      rw [parsed] at read
      cases read
  | ok updatedAt =>
      rw [parsed] at read
      dsimp only [Bind.bind, Except.bind] at read
      split at read
      · rename_i absent
        cases read
        exact .inl ⟨rfl, by rw [ItemNode.modelled, absent]; rfl⟩
      · rename_i content shown
        rw [ItemNode.modelled, shown, Option.any_some]
        split at read
        · rename_i issue
          cases read
          exact .inr ⟨_, rfl, by simp [issue], given, rfl, fieldOption_eq node⟩
        · split at read
          · rename_i draft
            cases read
            exact .inr ⟨_, rfl, by simp [draft], given, rfl, fieldOption_eq node⟩
          · rename_i noIssue noDraft
            cases read
            exact .inl ⟨rfl, by simp [noIssue, noDraft]⟩

theorem mapPollItems_ok {nodes : List ItemNode} : ∀ {out all : List RemoteProjectItem},
    mapPollItems formats statusFieldId nodes out = .ok all → ∃ added, all = out ++ added ∧
      Forall₂ (Shows formats statusFieldId) (nodes.filter ItemNode.modelled) added := by
  induction nodes with
  | nil =>
      intro out all read
      cases read
      exact ⟨[], (append_nil out).symm, .nil⟩
  | cons node rest ih =>
      intro out all read
      unfold mapPollItems at read
      cases first : mapPollItem formats statusFieldId node with
      | error error =>
          rw [first] at read
          cases read
      | ok mapped =>
          rw [first] at read
          rcases mapPollItem_ok first with ⟨rfl, skipped⟩ | ⟨item, rfl, modelled, shows⟩
          · obtain ⟨added, rfl, shown⟩ := ih read
            exact ⟨added, rfl, by rwa [filter_cons_of_neg (by simp [skipped])]⟩
          · obtain ⟨added, rfl, shown⟩ := ih read
            refine ⟨item :: added, append_assoc out [item] added, ?_⟩
            rw [filter_cons_of_pos modelled]
            exact .cons shows shown

theorem shows_next {board : PagedBoard} {index : Nat} {asked : BoardPage}
    {out added : List RemoteProjectItem} (askedAt : board.pages[index]? = some asked)
    (shown : Forall₂ (Shows formats statusFieldId)
      (((board.pages.take index).flatMap BoardPage.nodes).filter ItemNode.modelled) out)
    (addedShown : Forall₂ (Shows formats statusFieldId) (asked.nodes.filter ItemNode.modelled)
      added) :
    Forall₂ (Shows formats statusFieldId)
      (((board.pages.take (index + 1)).flatMap BoardPage.nodes).filter ItemNode.modelled)
      (out ++ added) := by
  rw [take_add_one, askedAt, flatMap_append, filter_append]
  refine rel_append shown ?_
  rw [Option.toList_some, flatMap_singleton]
  exact addedShown

section Walk

variable {σ : Type} {meaning : Semantics graphqlSignature σ} {requests : σ → Nat}
variable {boards : (projectId : String) → (query : Option String) → (first : Nat) → PagedBoard}

/-- The nodes before page `index` are shown, and `after` asks for that page. -/
theorem runs_pollPages (served : ∀ request before answer later,
      meaning request before answer later → ServesPages boards request answer)
    (counted : ∀ request before answer later,
      meaning request before answer later → requests later = requests before + 1)
    {projectNodeId query : String} {result : Except PortError PollPage} {later : σ} :
    ∀ {left index : Nat} {after : Option String} {out : List RemoteProjectItem} {before : σ},
      let board := boards projectNodeId (queryArg query) pollPageSize
      board.Follows after index → index < board.pages.length →
      Forall₂ (Shows formats statusFieldId)
        (((board.pages.take index).flatMap BoardPage.nodes).filter ItemNode.modelled) out →
      (pollPages formats projectNodeId statusFieldId query left after out).Runs meaning before result
        later →
      requests later ≤ requests before + left ∧
        ∀ page, result = .ok page → page.truncated = false →
          Forall₂ (Shows formats statusFieldId) (board.nodes.filter ItemNode.modelled)
            page.items := by
  intro left
  induction left with
  | zero =>
      intro index after out before board follows more shown ran
      obtain ⟨rfl, rfl⟩ := ran
      refine ⟨Nat.le_refl _, fun page same complete => ?_⟩
      cases same
      cases complete
  | succ left ih =>
      intro index after out before board follows more shown ran
      obtain ⟨answer, middle, answered, ran⟩ := ran
      have counts := counted _ _ _ _ answered
      have stops {error : PortError} {state : σ} (failed : result = .error error ∧ state = middle) :
          requests state ≤ requests before + (left + 1) ∧
            ∀ page, result = .ok page → page.truncated = false →
              Forall₂ (Shows formats statusFieldId) (board.nodes.filter ItemNode.modelled)
                page.items := by
        obtain ⟨rfl, rfl⟩ := failed
        exact ⟨by omega, fun _ same => by cases same⟩
      cases answer with
      | error error => exact stops ran
      | ok data =>
          obtain ⟨node⟩ := data
          cases node with
          | none => exact stops ran
          | some items =>
              obtain ⟨asked, askedAt⟩ : ∃ asked, board.pages[index]? = some asked :=
                ⟨_, getElem?_eq_getElem more⟩
              have served : items = board.connection index asked :=
                served _ _ _ _ answered ⟨some items⟩ items index asked rfl rfl follows askedAt
              subst served
              change ((ofExcept (mapPollItems formats statusFieldId asked.nodes out)).bind _).Runs
                meaning middle result later at ran
              cases read : mapPollItems formats statusFieldId asked.nodes out with
              | error error =>
                  rw [read] at ran
                  exact stops ran
              | ok all =>
                  rw [read] at ran
                  obtain ⟨added, rfl, addedShown⟩ := mapPollItems_ok read
                  have grown := shows_next askedAt shown addedShown
                  change (if (board.connection index asked).pageInfo.hasNextPage = true then _
                    else _ : GraphqlProgram PollPage).Runs meaning middle result later at ran
                  split at ran
                  · rename_i goesOn
                    have inside : index + 1 < board.pages.length := of_decide_eq_true goesOn
                    split at ran
                    · obtain ⟨rfl, rfl⟩ := ran
                      refine ⟨by omega, fun page same complete => ?_⟩
                      cases same
                      cases complete
                    · rename_i cursor ends
                      obtain ⟨bound, complete⟩ := ih (.next askedAt ends) inside grown ran
                      exact ⟨by omega, complete⟩
                  · rename_i ends
                    have last : board.pages.length ≤ index + 1 :=
                      Nat.le_of_not_lt (of_decide_eq_false (Bool.eq_false_iff.mpr ends))
                    obtain ⟨rfl, rfl⟩ := ran
                    refine ⟨by omega, fun page same _ => ?_⟩
                    cases same
                    rw [take_of_length_le last] at grown
                    exact grown

end Walk

end GraphqlClient

open GraphqlClient

/-- A poll asks for at most 20 pages. If it says that nothing is left out, then its items are those
of the modelled nodes of the board, page by page. -/
theorem pollProjectItems_complete {σ : Type} (formats : TextFormats)
    (boards : (projectId : String) → (query : Option String) → (first : Nat) → PagedBoard)
    (meaning : Semantics graphqlSignature σ) (requests : σ → Nat)
    (served : ∀ request before answer after,
      meaning request before answer after → ServesPages boards request answer)
    (counted : ∀ request before answer after,
      meaning request before answer after → requests after = requests before + 1)
    (projectNodeId statusFieldId query : String) (before after : σ)
    (result : Except PortError PollPage)
    (ran : (pollProjectItems formats projectNodeId statusFieldId query).Runs meaning before result
      after) :
    requests after ≤ requests before + maxPollPages ∧
      ∀ page, result = .ok page → page.truncated = false →
        Forall₂ (Shows formats statusFieldId)
          ((boards projectNodeId (queryArg query) pollPageSize).nodes.filter ItemNode.modelled)
          page.items := by
  have first := length_pos_of_ne_nil (boards projectNodeId (queryArg query) pollPageSize).nonempty
  exact runs_pollPages served counted .start first .nil ran

def cardOf (id typename : String) (fieldValues : List FieldValueNode) : ItemNode where
  id
  updatedAt := "2026-01-01T00:00:00Z"
  fieldValues
  content := some {
    typename
    id := none
    number := none
    title := some "a"
    body := none
    state := none
    repository := none }

def twoPages : PagedBoard where
  pages := [
    { nodes := [cardOf "PVTI_1" "Issue" [⟨some "O_done", some "F_status"⟩, ⟨none, none⟩],
        cardOf "PVTI_2" "PullRequest" []]
      endCursor := some "next" },
    { nodes := [cardOf "PVTI_3" "DraftIssue" []]
      endCursor := none }]
  nonempty := List.cons_ne_nil _ _

def indexAfter : Option String → Nat
  | none => 0
  | some _ => 1

def twoPagesServer : Handler graphqlSignature Nat := fun request count =>
  let index := indexAfter request.after
  (.ok ⟨twoPages.pages[index]?.map (twoPages.connection index)⟩, count + 1)

theorem twoPagesServer_serves (request : PollItems) (count : Nat) :
    ServesPages (fun _ _ _ => twoPages) request (twoPagesServer request count).1 := by
  intro data items index page same shown follows pageAt
  have bound : index < 2 := (List.getElem?_eq_some_iff.mp pageAt).1
  have asked : index = indexAfter request.after := by
    generalize request.after = cursor at follows ⊢
    cases follows with
    | start => rfl
    | next _ _ =>
        change _ = 1
        omega
  cases same
  change twoPages.pages[indexAfter request.after]?.map _ = some items at shown
  rw [← asked] at shown
  obtain ⟨other, otherAt, rfl⟩ := Option.map_eq_some_iff.mp shown
  rw [Option.some.inj (otherAt.symm.trans pageAt)]

def twoPagesAnswers : Semantics graphqlSignature Nat := fun request before answer after =>
  answer = (twoPagesServer request before).1 ∧ after = before + 1

theorem pollProjectItems_complete_twoPages :
    ∃ (page : PollPage) (requests : Nat),
      (pollProjectItems ⟨fun _ => .ok .epoch, id⟩ "PVT_1" "F_status" "is:open").Runs
        twoPagesAnswers 0 (.ok page) requests ∧
      page.truncated = false ∧ page.items.length = 2 ∧ requests ≤ 0 + maxPollPages ∧
      Forall₂ (Shows ⟨fun _ => .ok .epoch, id⟩ "F_status")
        (twoPages.nodes.filter ItemNode.modelled) page.items := by
  let formats : TextFormats := ⟨fun _ => .ok .epoch, id⟩
  let poll := pollProjectItems formats "PVT_1" "F_status" "is:open"
  have ran := @exec_runs graphqlSignature Nat PortError PollPage Nat twoPagesAnswers twoPagesServer
    id (fun _ _ => ⟨rfl, rfl⟩) poll 0
  obtain ⟨items, ended, two⟩ : ∃ items, (poll.exec twoPagesServer 0).1 = .ok ⟨items, false⟩ ∧
      items.length = 2 := ⟨_, rfl, rfl⟩
  rw [ended] at ran
  have complete := pollProjectItems_complete formats (fun _ _ _ => twoPages) twoPagesAnswers id
    (fun request before answer _ answered => answered.1 ▸ twoPagesServer_serves request before)
    (fun _ _ _ _ answered => answered.2) "PVT_1" "F_status" "is:open" 0 _ _ ran
  exact ⟨⟨items, false⟩, _, ran, rfl, two, complete.1, complete.2 _ rfl rfl⟩

end RepoLink
