import RepoLink.RepoBindings.Handles

/-!
Handle resolution. Each stage prefers active workspaces on its own, so an archived binding found
by prefix shadows an active one that has the handle as its name or alias.
-/

namespace RepoLink

open KeyedTable

namespace RepoRegistry

def Bound (registry : RepoRegistry) (view : BindingView) : Prop :=
  view.instanceRow ∈ registry.instances.rows ∧ registry.view view.instanceRow = some view

def InWorkspace (registry : RepoRegistry) (statuses : WorkspaceStatus → Bool)
    (view : BindingView) : Prop :=
  ∃ workspace ∈ registry.workspaces.rows, workspace.id = view.instanceRow.workspaceId ∧
    statuses workspace.status = true

abbrev InActive (registry : RepoRegistry) (view : BindingView) : Prop :=
  registry.InWorkspace WorkspaceStatus.isActive view

abbrev InArchived (registry : RepoRegistry) (view : BindingView) : Prop :=
  registry.InWorkspace (· = .archived) view

abbrev InDeleted (registry : RepoRegistry) (view : BindingView) : Prop :=
  registry.InWorkspace (· = .deleted) view

variable {registry : RepoRegistry} {view : BindingView}

theorem InWorkspace.agree {left right : WorkspaceStatus → Bool}
    (inLeft : registry.InWorkspace left view) (inRight : registry.InWorkspace right view) :
    ∃ status, left status = true ∧ right status = true := by
  obtain ⟨workspace, member, workspaceId, holds⟩ := inLeft
  obtain ⟨other, otherMember, otherId, otherHolds⟩ := inRight
  have same := Table.row_unique member otherMember (workspaceId.trans otherId.symm)
  exact ⟨workspace.status, holds, same ▸ otherHolds⟩

theorem not_archived_of_active (active : registry.InActive view) : ¬registry.InArchived view := by
  intro archived
  obtain ⟨status, isActive, isArchived⟩ := active.agree archived
  rw [of_decide_eq_true isArchived] at isActive
  cases isActive

theorem not_deleted_of_active (active : registry.InActive view) : ¬registry.InDeleted view := by
  intro deleted
  obtain ⟨status, isActive, isDeleted⟩ := active.agree deleted
  rw [of_decide_eq_true isDeleted] at isActive
  cases isActive

theorem not_deleted_of_archived (archived : registry.InArchived view) :
    ¬registry.InDeleted view := by
  intro deleted
  obtain ⟨status, isArchived, isDeleted⟩ := archived.agree deleted
  cases (of_decide_eq_true isArchived).symm.trans (of_decide_eq_true isDeleted)

theorem mem_listByWorkspace {id : WorkspaceId} :
    view ∈ registry.listByWorkspace id ↔
      registry.Bound view ∧ view.instanceRow.workspaceId = id := by
  simp only [listByWorkspace, List.mem_filterMap, List.mem_filter, decide_eq_true_eq]
  constructor
  · rintro ⟨row, ⟨member, workspaceId⟩, joined⟩
    obtain ⟨origin, _, rfl⟩ := Option.map_eq_some_iff.mp joined
    exact ⟨⟨member, joined⟩, workspaceId⟩
  · rintro ⟨⟨member, joined⟩, workspaceId⟩
    exact ⟨view.instanceRow, ⟨member, workspaceId⟩, joined⟩

theorem Bound.origin_mem (bound : registry.Bound view) :
    view.origin ∈ registry.origins.table.rows := by
  obtain ⟨origin, found, same⟩ := Option.map_eq_some_iff.mp bound.2
  rw [← same]
  exact Table.find_mem found

end RepoRegistry

namespace RepoBindingService

open RepoRegistry

variable {registry : RepoRegistry} {query : String}

theorem mem_matchesIn {statuses : WorkspaceStatus → Bool} {accepts : BindingView → Bool}
    {view : BindingView} :
    view ∈ matchesIn registry statuses accepts ↔
      registry.Bound view ∧ registry.InWorkspace statuses view ∧ accepts view = true := by
  simp only [matchesIn, List.mem_flatMap, List.mem_filter, mem_listByWorkspace, InWorkspace]
  constructor
  · rintro ⟨workspace, ⟨member, status⟩, ⟨bound, workspaceId⟩, accepted⟩
    exact ⟨bound, ⟨workspace, member, workspaceId.symm, status⟩, accepted⟩
  · rintro ⟨bound, ⟨workspace, member, workspaceId, status⟩, accepted⟩
    exact ⟨workspace, ⟨member, status⟩, ⟨bound, workspaceId.symm⟩, accepted⟩

def prefixedBy (query : String) (view : BindingView) : Bool :=
  query ≠ "" && view.origin.originPrefix = query

theorem candidatesFor_congr {left right : BindingView → Bool}
    (same : ∀ view, registry.Bound view → left view = right view) :
    candidatesFor registry left = candidatesFor registry right := by
  have agree : ∀ statuses, matchesIn registry statuses left = matchesIn registry statuses right := by
    intro statuses
    unfold matchesIn
    refine List.flatMap_congr fun workspace _ => List.filter_congr fun view listed => ?_
    exact same view (mem_listByWorkspace.mp listed).1
  unfold candidatesFor activeMatches archivedMatches
  rw [agree, agree]

theorem resolveMatching_congr {left right : BindingView → Bool}
    (same : candidatesFor registry left = candidatesFor registry right) :
    resolveMatching query registry left = resolveMatching query registry right := by
  unfold resolveMatching
  rw [same]

theorem resolveMatching_ok {accepts : BindingView → Bool} {view : BindingView} :
    resolveMatching query registry accepts = .ok view ↔
      candidatesFor registry accepts = [view] := by
  unfold resolveMatching
  rcases candidatesFor registry accepts with _ | ⟨first, _ | ⟨second, rest⟩⟩ <;> simp

theorem resolveMatching_notFound {accepts : BindingView → Bool} {missing : String} :
    resolveMatching query registry accepts = .error (.bindingNotFound missing) ↔
      missing = query ∧ candidatesFor registry accepts = [] := by
  unfold resolveMatching
  rcases candidatesFor registry accepts with _ | ⟨first, _ | ⟨second, rest⟩⟩ <;> simp [eq_comm]

def stageOf (registry : RepoRegistry) (query : String) : BindingView → Bool :=
  if candidatesFor registry (prefixedBy query) = [] then namedBy query else prefixedBy query

theorem prefixedBy_found {origin : OriginRow}
    (found : registry.findOriginByPrefix query = some origin) {view : BindingView}
    (bound : registry.Bound view) :
    decide (view.origin.id = origin.id) = prefixedBy query view := by
  unfold findOriginByPrefix at found
  split at found
  · cases found
  rename_i isSet
  have member := List.mem_of_find?_eq_some found
  have own := List.find?_some found
  have ownPrefix : origin.originPrefix = query := of_decide_eq_true own
  rw [Bool.eq_iff_iff, decide_eq_true_eq, prefixedBy, Bool.and_eq_true, decide_eq_true_eq,
    decide_eq_true_eq]
  constructor
  · intro sameId
    have same := Table.row_unique bound.origin_mem member sameId
    exact ⟨isSet, same ▸ ownPrefix⟩
  · rintro ⟨_, samePrefix⟩
    rw [registry.origins.prefixes view.origin bound.origin_mem origin member
      (samePrefix.trans ownPrefix.symm) (samePrefix ▸ isSet)]

theorem prefixedBy_absent (absent : registry.findOriginByPrefix query = none) {view : BindingView}
    (bound : registry.Bound view) : prefixedBy query view = false := by
  rw [Bool.eq_false_iff]
  intro matched
  obtain ⟨isSet, samePrefix⟩ := Bool.and_eq_true_iff.mp matched
  unfold findOriginByPrefix at absent
  rw [if_neg (of_decide_eq_true isSet)] at absent
  exact List.find?_eq_none.mp absent view.origin bound.origin_mem samePrefix

theorem resolveByHandle_stage :
    resolveByHandle query registry = resolveMatching query registry (stageOf registry query) := by
  unfold resolveByHandle stageOf
  cases found : registry.findOriginByPrefix query with
  | none =>
      have none : candidatesFor registry (prefixedBy query) = [] := by
        have empty : ∀ statuses, matchesIn registry statuses (prefixedBy query) = [] := by
          intro statuses
          refine List.eq_nil_iff_forall_not_mem.mpr fun view member => ?_
          obtain ⟨bound, _, matched⟩ := mem_matchesIn.mp member
          rw [prefixedBy_absent found bound] at matched
          cases matched
        unfold candidatesFor activeMatches archivedMatches
        rw [empty, empty]
      rw [if_pos none]
      rfl
  | some origin =>
      have same : candidatesFor registry (fun view => view.origin.id = origin.id) =
          candidatesFor registry (prefixedBy query) :=
        candidatesFor_congr fun view bound => prefixedBy_found found bound
      dsimp only
      rw [resolveMatching_congr same]
      split
      · rename_i missing notFound
        rw [if_pos (resolveMatching_notFound.mp notFound).2]
        rfl
      · rename_i found
        rw [if_neg fun empty => found query (resolveMatching_notFound.mpr ⟨rfl, empty⟩)]

theorem candidatesFor_single {accepts : BindingView → Bool} {view : BindingView} :
    candidatesFor registry accepts = [view] ↔
      activeMatches registry accepts = [view] ∨
        activeMatches registry accepts = [] ∧ archivedMatches registry accepts = [view] := by
  unfold candidatesFor
  cases activeMatches registry accepts <;> simp

/-- What resolving a handle should come to. -/
structure ResolvesWell (registry : RepoRegistry) (query : String) : Prop where
  undeleted : ∀ view, resolveByHandle query registry = .ok view → ¬registry.InDeleted view
  activeFirst : (∃ other, registry.Bound other ∧ registry.InActive other ∧
      (prefixedBy query other = true ∨ namedBy query other = true)) →
    ∀ view, resolveByHandle query registry = .ok view → ¬registry.InArchived view
  single : ∀ view, resolveByHandle query registry = .ok view → ∀ other, registry.Bound other →
    stageOf registry query other = true →
    (registry.InActive view ∧ registry.InActive other ∨
      registry.InArchived view ∧ registry.InArchived other) → other = view

/-- The origin that owns the prefix has one binding, in an archived workspace, and a binding in an
active workspace has the handle as its name or alias. -/
def Shadowed (registry : RepoRegistry) (query : String) : Prop :=
  activeMatches registry (prefixedBy query) = [] ∧
    (∃ view, archivedMatches registry (prefixedBy query) = [view]) ∧
    activeMatches registry (namedBy query) ≠ []

theorem resolveByHandle_ok {view : BindingView} (resolved : resolveByHandle query registry = .ok view) :
    (activeMatches registry (stageOf registry query) = [view] ∧ registry.InActive view) ∨
      (activeMatches registry (stageOf registry query) = [] ∧
        archivedMatches registry (stageOf registry query) = [view] ∧ registry.InArchived view) := by
  rw [resolveByHandle_stage, resolveMatching_ok, candidatesFor_single] at resolved
  rcases resolved with active | ⟨empty, archived⟩
  · exact .inl ⟨active, (mem_matchesIn.mp (active ▸ List.mem_singleton_self view)).2.1⟩
  · exact .inr ⟨empty, archived, (mem_matchesIn.mp (archived ▸ List.mem_singleton_self view)).2.1⟩

theorem candidatesFor_active {accepts : BindingView → Bool} {view : BindingView}
    (member : view ∈ activeMatches registry accepts) : candidatesFor registry accepts ≠ [] := by
  unfold candidatesFor
  cases found : activeMatches registry accepts with
  | nil =>
      rw [found] at member
      exact (List.not_mem_nil member).elim
  | cons first rest => exact List.cons_ne_nil first rest

theorem not_archived_of_match (clear : ¬Shadowed registry query) {other view : BindingView}
    (bound : registry.Bound other) (active : registry.InActive other)
    (matched : prefixedBy query other = true ∨ namedBy query other = true)
    (resolved : resolveByHandle query registry = .ok view) : ¬registry.InArchived view := by
  intro archived
  rcases resolveByHandle_ok resolved with ⟨_, isActive⟩ | ⟨empty, single, _⟩
  · exact not_archived_of_active isActive archived
  · have absent : ∀ accepts, activeMatches registry accepts = [] → accepts other ≠ true := by
      intro accepts none accepted
      have member : other ∈ activeMatches registry accepts :=
        mem_matchesIn.mpr ⟨bound, active, accepted⟩
      rw [none] at member
      exact List.not_mem_nil member
    unfold stageOf at empty single
    by_cases unprefixed : candidatesFor registry (prefixedBy query) = []
    · rw [if_pos unprefixed] at empty
      rcases matched with byPrefix | byName
      · exact candidatesFor_active (mem_matchesIn.mpr ⟨bound, active, byPrefix⟩) unprefixed
      · exact absent _ empty byName
    · rw [if_neg unprefixed] at empty single
      rcases matched with byPrefix | byName
      · exact absent _ empty byPrefix
      · refine clear ⟨empty, ⟨view, single⟩, fun none => absent _ none byName⟩

/-- Resolution is as documented exactly if no archived prefix shadows an active name. -/
theorem resolveByHandle_well_iff (registry : RepoRegistry) (query : String) :
    ResolvesWell registry query ↔ ¬Shadowed registry query := by
  constructor
  · rintro well ⟨noneActive, ⟨view, archived⟩, named⟩
    have single : candidatesFor registry (prefixedBy query) = [view] :=
      candidatesFor_single.mpr (.inr ⟨noneActive, archived⟩)
    have resolved : resolveByHandle query registry = .ok view := by
      have filled : candidatesFor registry (prefixedBy query) ≠ [] := by
        rw [single]
        exact List.cons_ne_nil view []
      rw [resolveByHandle_stage, stageOf, if_neg filled, resolveMatching_ok]
      exact single
    obtain ⟨other, member⟩ := List.exists_mem_of_ne_nil _ named
    obtain ⟨bound, active, byName⟩ := mem_matchesIn.mp member
    exact well.activeFirst ⟨other, bound, active, .inr byName⟩ view resolved
      (mem_matchesIn.mp (archived ▸ List.mem_singleton_self view)).2.1
  · intro clear
    refine ⟨fun view resolved => ?_, fun found view resolved => ?_,
      fun view resolved other bound matched level => ?_⟩
    · rcases resolveByHandle_ok resolved with ⟨_, active⟩ | ⟨_, _, archived⟩
      · exact not_deleted_of_active active
      · exact not_deleted_of_archived archived
    · obtain ⟨other, bound, active, matched⟩ := found
      exact not_archived_of_match clear bound active matched resolved
    · rcases resolveByHandle_ok resolved with ⟨single, isActive⟩ | ⟨_, single, isArchived⟩
      · rcases level with ⟨_, active⟩ | ⟨archived, _⟩
        · have member := mem_matchesIn.mpr ⟨bound, active, matched⟩
          exact List.mem_singleton.mp (single ▸ member)
        · exact (not_archived_of_active isActive archived).elim
      · rcases level with ⟨active, _⟩ | ⟨_, archived⟩
        · exact (not_archived_of_active active isArchived).elim
        · have member := mem_matchesIn.mpr ⟨bound, archived, matched⟩
          exact List.mem_singleton.mp (single ▸ member)

def shadowedRegistry : RepoRegistry where
  workspaces := ⟨[⟨⟨1⟩, .active, none, none, none, none⟩,
    ⟨⟨2⟩, .archived, none, none, none, none⟩], by decide⟩
  origins := ⟨⟨[⟨⟨⟨11⟩, "github.com/o/gateway", "gw"⟩, "", "gateway", [], ⟨0⟩, ⟨0⟩⟩,
    ⟨⟨⟨12⟩, "github.com/o/gw", "gwx"⟩, "", "gw", [], ⟨0⟩, ⟨0⟩⟩], by decide⟩, by decide, by decide⟩
  instances := ⟨[⟨⟨21⟩, ⟨2⟩, ⟨11⟩, "github.com/o/gateway"⟩,
    ⟨⟨22⟩, ⟨1⟩, ⟨12⟩, "github.com/o/gw"⟩], by decide⟩

/-- The handle resolves to the archived binding although an active one has it as its name. -/
theorem shadowedRegistry_archived :
    (∃ other, shadowedRegistry.Bound other ∧ shadowedRegistry.InActive other ∧
      namedBy "gw" other = true) ∧
    ∃ view, resolveByHandle "gw" shadowedRegistry = .ok view ∧
      shadowedRegistry.InArchived view := by
  constructor
  · exact ⟨⟨⟨⟨22⟩, ⟨1⟩, ⟨12⟩, "github.com/o/gw"⟩,
      ⟨⟨⟨12⟩, "github.com/o/gw", "gwx"⟩, "", "gw", [], ⟨0⟩, ⟨0⟩⟩⟩, ⟨by decide, by decide⟩,
      ⟨⟨⟨1⟩, .active, none, none, none, none⟩, by decide, rfl, rfl⟩, by decide⟩
  · exact ⟨⟨⟨⟨21⟩, ⟨2⟩, ⟨11⟩, "github.com/o/gateway"⟩,
      ⟨⟨⟨11⟩, "github.com/o/gateway", "gw"⟩, "", "gateway", [], ⟨0⟩, ⟨0⟩⟩⟩, by decide,
      ⟨⟨⟨2⟩, .archived, none, none, none, none⟩, by decide, rfl, rfl⟩⟩

end RepoBindingService

end RepoLink
