import Mathlib.Data.String.Basic
import RepoLink.Domain.Project
import RepoLink.Library.Grove
import RepoLink.Query.Blockers

/-!
The ready frontier of a workspace as a forest: `build_ready_tree` of `QueryService`.

The rows of `byId` and the ids of `readyIds` stand in the order in which their hash containers list
them. An index into a map that lacks the id panics in the source; here it makes no result. The keys
of the sorts have a default instead, which is never read: both maps know every id that is kept.
-/

namespace RepoLink

open KeyedTable Groves

/-- The order in which a hash set lists its members. -/
structure HashOrder (α : Type) where
  iterate : List α → List α
  perm : ∀ members, (iterate members).Perm members

def HashOrder.asListed {α : Type} : HashOrder α := ⟨id, fun _ => .refl _⟩

/-- A node of the forest without its children, with the enums in place of their names. -/
structure ReadyRow where
  taskId : TaskId
  title : String
  ready : Bool
  status : Option Lifecycle
  priority : Option Priority
  assignees : List String
  issueType : Option IssueType
  projectStatus : Option String
deriving DecidableEq, Repr

abbrev ReadyNode := Rose ReadyRow

def Priority.best (left right : Priority) : Priority :=
  if left.rank ≤ right.rank then left else right

namespace QueryService

/-- One relation of a task that may be a parent: the lowest id that claims a child gets it. -/
def claim (parent : Task) (index : Dict TaskId Task) (relation : TaskRelation) :
    Dict TaskId Task :=
  if relation.kind = .parentOf ∧ relation.other ≠ parent.id then
    match index.get? relation.other with
    | some existing =>
      if existing.id.value < parent.id.value then index else index.insert relation.other parent
    | none => index.insert relation.other parent
  else index

def reverseParentIndex (byId : TaskMap) : Dict TaskId Task :=
  byId.rows.foldl (fun index row => row.2.relations.foldl (claim row.2) index) Dict.empty

/-- The task's own `child_of` edge goes before what others claim. -/
def parentTask (task : Task) (byId : TaskMap) (reverse : Dict TaskId Task) : Option Task :=
  let childOf := task.relations.find? fun relation =>
    relation.kind = .childOf ∧ relation.other ≠ task.id
  (childOf.bind fun relation => byId.get? relation.other).or (reverse.get? task.id)

structure Kinship where
  parent : Dict TaskId (Option TaskId)
  children : Dict TaskId (List TaskId)

namespace Kinship

def start : Kinship := ⟨Dict.empty, Dict.empty⟩

def parentOf (kin : Kinship) (id : TaskId) : Option TaskId := (kin.parent.get? id).join

def childrenOf (kin : Kinship) (id : TaskId) : List TaskId := (kin.children.get? id).getD []

def record (pid : Task → Option TaskId) (kin : Kinship) (task : Task) : Kinship :=
  let parent := kin.parent.insert task.id (pid task)
  match pid task with
  | none => { kin with parent }
  | some p => ⟨parent, kin.children.insert p (kin.childrenOf p ++ [task.id])⟩

end Kinship

/-- The parent that a task of the workspace rolls up under, if that one is in the workspace too. -/
def parentWithin (wsTasks : List Task) (byId : TaskMap) (task : Task) : Option TaskId :=
  ((parentTask task byId (reverseParentIndex byId)).filter fun parent =>
    parent.id ∈ wsTasks.map Task.id).map Task.id

def kinship (wsTasks : List Task) (byId : TaskMap) : Kinship :=
  wsTasks.foldl (Kinship.record (parentWithin wsTasks byId)) .start

/-- The loop that keeps every ancestor of a ready task; it may run out of fuel. -/
def keepAncestors (kin : Kinship) : Nat → List TaskId → List TaskId → Option (List TaskId)
  | 0, _, _ => none
  | _ + 1, [], kept => some kept
  | fuel + 1, id :: stack, kept =>
    match kin.parentOf id with
    | none => keepAncestors kin fuel stack kept
    | some p =>
      if p ∈ kept then keepAncestors kin fuel stack kept
      else keepAncestors kin fuel (p :: stack) (p :: kept)

section Ranks

variable (readyIds : List TaskId) (idOf : Dict TaskId Task) (kin : Kinship)

def ownPriority (id : TaskId) : Option Priority :=
  if id ∈ readyIds then (idOf.get? id).map Task.priority else some .p3

/-- The best priority in the subtree, which the memo then holds. A provisional value goes there
before the descent. -/
def subtreePriority :
    Nat → TaskId → Dict TaskId Priority → Option (Priority × Dict TaskId Priority)
  | 0, _, _ => none
  | fuel + 1, id, memo =>
    match memo.get? id with
    | some known => some (known, memo)
    | none =>
      (ownPriority readyIds idOf id).bind fun own =>
        (thread (subtreePriority fuel) (kin.childrenOf id) (memo.insert id .p3)).map fun below =>
          let best := below.1.foldl Priority.best own
          (best, below.2.insert id best)

end Ranks

structure ReadyTreeCtx where
  idOf : Dict TaskId Task
  readyIds : List TaskId
  kin : Kinship
  kept : List TaskId
  rank : Dict TaskId Priority
  project : Option Project

namespace ReadyTreeCtx

def rankOf (ctx : ReadyTreeCtx) (id : TaskId) : Nat :=
  ((ctx.rank.get? id).map Priority.rank).getD 0

def titleOf (ctx : ReadyTreeCtx) (id : TaskId) : String :=
  ((ctx.idOf.get? id).map Task.title).getD ""

def branchBefore (ctx : ReadyTreeCtx) (left right : TaskId) : Bool :=
  ctx.rankOf left < ctx.rankOf right ||
    ctx.rankOf left = ctx.rankOf right && ctx.titleOf left ≤ ctx.titleOf right

end ReadyTreeCtx

def cachedProjectStatus (project : Option Project) (task : Task) : Option String :=
  project.bind fun project => task.projectStatusOptionId.bind project.optionNameFor

namespace ReadyTreeCtx

def row (ctx : ReadyTreeCtx) (id : TaskId) : Option ReadyRow :=
  (ctx.idOf.get? id).map fun task =>
    { taskId := task.id
      title := task.title
      ready := id ∈ ctx.readyIds
      status := if id ∈ ctx.readyIds then some task.lifecycle else none
      priority := if id ∈ ctx.readyIds then some task.priority else none
      assignees := if id ∈ ctx.readyIds then task.assignees else []
      issueType := if id ∈ ctx.readyIds then task.issueType else none
      projectStatus := if id ∈ ctx.readyIds then cachedProjectStatus ctx.project task else none }

def kids (ctx : ReadyTreeCtx) (id : TaskId) (visiting : List TaskId) : List TaskId :=
  ((ctx.kin.childrenOf id).filter fun child =>
    child ∈ ctx.kept ∧ child ∉ visiting).insertionSort (ctx.branchBefore · ·)

def node (ctx : ReadyTreeCtx) : Nat → TaskId → List TaskId → Option (ReadyNode × List TaskId) :=
  grow ctx.kids ctx.row

end ReadyTreeCtx

def rootsOf (kin : Kinship) (kept : List TaskId) : List TaskId :=
  kept.filter fun id => (kin.parentOf id).all fun p => p ∉ kept

def buildReadyTree (order : HashOrder TaskId) (wsTasks : List Task) (byId : TaskMap)
    (readyIds : List TaskId) (project : Option Project) : Option (List ReadyNode) :=
  let idOf := mapOf wsTasks
  let kin := kinship wsTasks byId
  -- no loop takes more turns than there are ready tasks to start from and tasks to come to
  let fuel := readyIds.length + wsTasks.length + 1
  (keepAncestors kin fuel readyIds.reverse readyIds).bind fun members =>
    let kept := order.iterate members
    (thread (subtreePriority readyIds idOf kin fuel) kept Dict.empty).bind fun ranked =>
      let ctx : ReadyTreeCtx := ⟨idOf, readyIds, kin, kept, ranked.2, project⟩
      let roots := (rootsOf kin kept).insertionSort (ctx.branchBefore · ·)
      (thread (ctx.node fuel) roots []).map Prod.fst

section Claims

variable {byId : TaskMap} {child : TaskId} {parent : Task}

def Claims (parent : Task) (relation : TaskRelation) (child : TaskId) : Prop :=
  relation.kind = .parentOf ∧ relation.other = child ∧ child ≠ parent.id

structure HoldsLowest (index : Dict TaskId Task) (seen : List (Task × TaskRelation)) : Prop where
  lowest : ∀ child holder, index.get? child = some holder →
    (∃ relation, (holder, relation) ∈ seen ∧ Claims holder relation child) ∧
      ∀ entry ∈ seen, Claims entry.1 entry.2 child → holder.id.value ≤ entry.1.id.value
  unclaimed : ∀ child, index.get? child = none → ∀ entry ∈ seen, ¬Claims entry.1 entry.2 child

/-- The lower of the two holds the child: whoever held it, or the one that claims it now. -/
theorem HoldsLowest.claim {index : Dict TaskId Task} {seen : List (Task × TaskRelation)}
    (holds : HoldsLowest index seen) (parent : Task) (relation : TaskRelation) :
    HoldsLowest (QueryService.claim parent index relation) ((parent, relation) :: seen) := by
  have kept : (∀ child, Claims parent relation child → ∃ holder,
      index.get? child = some holder ∧ holder.id.value ≤ parent.id.value) →
      HoldsLowest index ((parent, relation) :: seen) := by
    intro beaten
    constructor
    · intro child holder found
      obtain ⟨⟨other, member, claims⟩, least⟩ := holds.lowest child holder found
      refine ⟨⟨other, List.mem_cons_of_mem _ member, claims⟩, fun entry inSeen claimed => ?_⟩
      rcases List.mem_cons.mp inSeen with rfl | inSeen
      · obtain ⟨holder', found', le⟩ := beaten child claimed
        rw [found] at found'
        cases Option.some.inj found'
        exact le
      · exact least entry inSeen claimed
    · intro child found entry inSeen claimed
      rcases List.mem_cons.mp inSeen with rfl | inSeen
      · obtain ⟨holder, found', _⟩ := beaten child claimed
        rw [found] at found'
        cases found'
      · exact holds.unclaimed child found entry inSeen claimed
  have taken : Claims parent relation relation.other →
      (∀ holder, index.get? relation.other = some holder → parent.id.value ≤ holder.id.value) →
      HoldsLowest (index.insert relation.other parent) ((parent, relation) :: seen) := by
    intro claims lower
    constructor
    · intro child holder found
      rw [Dict.get?_insert] at found
      by_cases same : child = relation.other
      · subst same
        rw [if_pos rfl] at found
        cases Option.some.inj found
        refine ⟨⟨relation, List.mem_cons_self, claims⟩, fun entry inSeen claimed => ?_⟩
        rcases List.mem_cons.mp inSeen with rfl | inSeen
        · exact Nat.le_refl _
        · cases before : index.get? relation.other with
          | none => exact (holds.unclaimed _ before entry inSeen claimed).elim
          | some old =>
              exact Nat.le_trans (lower old before)
                ((holds.lowest _ old before).2 entry inSeen claimed)
      · rw [if_neg same] at found
        obtain ⟨⟨other, member, claimsChild⟩, least⟩ := holds.lowest child holder found
        refine ⟨⟨other, List.mem_cons_of_mem _ member, claimsChild⟩, fun entry inSeen claimed => ?_⟩
        rcases List.mem_cons.mp inSeen with rfl | inSeen
        · exact (same claimed.2.1.symm).elim
        · exact least entry inSeen claimed
    · intro child found entry inSeen claimed
      rw [Dict.get?_insert] at found
      split at found
      · cases found
      · rename_i other
        rcases List.mem_cons.mp inSeen with rfl | inSeen
        · exact other claimed.2.1.symm
        · exact holds.unclaimed child found entry inSeen claimed
  unfold QueryService.claim
  split
  · rename_i own
    have claims : Claims parent relation relation.other := ⟨own.1, rfl, own.2⟩
    cases before : index.get? relation.other with
    | none =>
        refine taken claims fun holder found => ?_
        rw [before] at found
        cases found
    | some existing =>
        dsimp only
        split
        · rename_i lower
          refine kept fun child claimed => ⟨existing, ?_, Nat.le_of_lt lower⟩
          rw [← claimed.2.1]
          exact before
        · rename_i higher
          refine taken claims fun holder found => ?_
          rw [before] at found
          cases Option.some.inj found
          omega
  · rename_i other
    refine kept fun child claimed => (other ⟨claimed.1, ?_⟩).elim
    rw [claimed.2.1]
    exact claimed.2.2

theorem HoldsLowest.foldl_claim (relations : List TaskRelation) :
    ∀ {index : Dict TaskId Task} {seen : List (Task × TaskRelation)}, HoldsLowest index seen →
      HoldsLowest (relations.foldl (QueryService.claim parent) index)
        ((relations.map fun relation => (parent, relation)).reverse ++ seen) := by
  induction relations with
  | nil => exact fun holds => holds
  | cons relation rest ih =>
      intro index seen holds
      rw [List.map_cons, List.reverse_cons, List.append_assoc]
      exact ih (holds.claim parent relation)

theorem HoldsLowest.foldl_rows (rows : List (TaskId × Task)) :
    ∀ {index : Dict TaskId Task} {seen : List (Task × TaskRelation)}, HoldsLowest index seen →
      ∃ more, HoldsLowest (rows.foldl (fun index row =>
          row.2.relations.foldl (QueryService.claim row.2) index) index) more ∧
        ∀ entry, entry ∈ more ↔
          entry ∈ seen ∨ ∃ row ∈ rows, row.2 = entry.1 ∧ entry.2 ∈ row.2.relations := by
  induction rows with
  | nil =>
      intro index seen holds
      exact ⟨seen, holds, fun entry => by simp⟩
  | cons row rest ih =>
      intro index seen holds
      obtain ⟨more, held, members⟩ := ih (@HoldsLowest.foldl_claim row.2 row.2.relations _ _ holds)
      refine ⟨more, held, fun entry => ?_⟩
      have ofRow : entry ∈ row.2.relations.map (fun relation => (row.2, relation)) ↔
          row.2 = entry.1 ∧ entry.2 ∈ row.2.relations := by
        rw [List.mem_map]
        constructor
        · rintro ⟨relation, member, rfl⟩
          exact ⟨rfl, member⟩
        · rintro ⟨same, member⟩
          exact ⟨entry.2, member, Prod.ext same rfl⟩
      rw [members, List.mem_append, List.mem_reverse, ofRow]
      simp only [List.mem_cons, or_and_right, exists_or, exists_eq_left]
      rw [or_right_comm, or_comm]

theorem reverseParentIndex_lowest (byId : TaskMap) (child : TaskId) :
    (∀ holder, (reverseParentIndex byId).get? child = some holder →
      (∃ row ∈ byId.rows, row.2 = holder ∧
        ∃ relation ∈ holder.relations, Claims holder relation child) ∧
      ∀ row ∈ byId.rows, ∀ relation ∈ row.2.relations, Claims row.2 relation child →
        holder.id.value ≤ row.2.id.value) ∧
    ((reverseParentIndex byId).get? child = none →
      ∀ row ∈ byId.rows, ∀ relation ∈ row.2.relations, ¬Claims row.2 relation child) := by
  have start : HoldsLowest Dict.empty [] :=
    ⟨fun _ _ found => (by cases found), fun _ _ _ member => (List.not_mem_nil member).elim⟩
  obtain ⟨seen, holds, members⟩ := start.foldl_rows byId.rows
  have listed : ∀ entry, entry ∈ seen ↔
      ∃ row ∈ byId.rows, row.2 = entry.1 ∧ entry.2 ∈ row.2.relations := fun entry =>
    (members entry).trans (or_iff_right List.not_mem_nil)
  constructor
  · intro holder found
    obtain ⟨⟨relation, member, claims⟩, least⟩ := holds.lowest child holder found
    obtain ⟨row, inRows, same, inRelations⟩ := (listed _).mp member
    have holderEq : row.2 = holder := same
    refine ⟨⟨row, inRows, holderEq, relation, holderEq ▸ inRelations, claims⟩, ?_⟩
    intro other inRows' relation' inRelations' claimed
    exact least (other.2, relation') ((listed _).mpr ⟨other, inRows', rfl, inRelations'⟩) claimed
  · intro unheld row inRows relation inRelations
    exact holds.unclaimed child unheld (row.2, relation)
      ((listed _).mpr ⟨row, inRows, rfl, inRelations⟩)

end Claims

section Kinship

variable {wsTasks : List Task} {byId : TaskMap} {pid : Task → Option TaskId}

theorem Kinship.parent_record (kin : Kinship) (task : Task) :
    (kin.record pid task).parent = kin.parent.insert task.id (pid task) := by
  unfold Kinship.record
  dsimp only
  split <;> rfl

theorem Kinship.parent_foldl (tasks : List Task) : ∀ kin : Kinship,
    (tasks.foldl (Kinship.record pid) kin).parent =
      (tasks.map fun task => (task.id, pid task)).foldl
        (fun dict entry => dict.insert entry.1 entry.2) kin.parent := by
  induction tasks with
  | nil => exact fun _ => rfl
  | cons task rest ih =>
      intro kin
      rw [List.foldl_cons, ih, Kinship.parent_record]
      rfl

theorem Kinship.childrenOf_record (kin : Kinship) (task : Task) (above : TaskId) :
    (kin.record pid task).childrenOf above =
      kin.childrenOf above ++ if pid task = some above then [task.id] else [] := by
  unfold Kinship.record
  cases found : pid task with
  | none =>
      rw [if_neg (Option.some_ne_none above).symm, List.append_nil]
      rfl
  | some p =>
      unfold Kinship.childrenOf
      dsimp only
      rw [Dict.get?_insert]
      by_cases same : above = p
      · subst same
        rw [if_pos rfl, if_pos rfl]
        rfl
      · rw [if_neg same, if_neg fun eq => same (Option.some.inj eq).symm, List.append_nil]

theorem Kinship.childrenOf_foldl (tasks : List Task) (above : TaskId) : ∀ kin : Kinship,
    (tasks.foldl (Kinship.record pid) kin).childrenOf above =
      kin.childrenOf above ++ (tasks.filter fun task => pid task = some above).map Task.id := by
  induction tasks with
  | nil => exact fun _ => (List.append_nil _).symm
  | cons task rest ih =>
      intro kin
      rw [List.foldl_cons, ih, Kinship.childrenOf_record, List.append_assoc]
      by_cases found : pid task = some above
      · rw [if_pos found, List.filter_cons_of_pos (by simp [found])]
        rfl
      · rw [if_neg found, List.filter_cons_of_neg (by simp [found])]
        rfl

theorem parentOf_kinship (distinct : (wsTasks.map Task.id).Nodup) {id above : TaskId} :
    (kinship wsTasks byId).parentOf id = some above ↔
      ∃ task ∈ wsTasks, task.id = id ∧ parentWithin wsTasks byId task = some above := by
  have keys : ((wsTasks.map fun task => (task.id, parentWithin wsTasks byId task)).map
      Prod.fst).Nodup := by
    rw [List.map_map]
    exact distinct
  rw [Kinship.parentOf, Option.join_eq_some_iff, kinship, Kinship.parent_foldl]
  change (Dict.collect _).get? id = some (some above) ↔ _
  rw [Dict.get?_collect_iff keys, List.mem_map]
  constructor
  · rintro ⟨task, member, same⟩
    obtain ⟨idEq, parentEq⟩ := Prod.mk.inj same
    exact ⟨task, member, idEq, parentEq⟩
  · rintro ⟨task, member, idEq, parentEq⟩
    exact ⟨task, member, Prod.ext idEq parentEq⟩

theorem childrenOf_kinship (above : TaskId) :
    (kinship wsTasks byId).childrenOf above =
      (wsTasks.filter fun task => parentWithin wsTasks byId task = some above).map Task.id :=
  Kinship.childrenOf_foldl wsTasks above .start

theorem mem_childrenOf_kinship (distinct : (wsTasks.map Task.id).Nodup) {id above : TaskId} :
    id ∈ (kinship wsTasks byId).childrenOf above ↔
      (kinship wsTasks byId).parentOf id = some above := by
  rw [childrenOf_kinship, parentOf_kinship distinct, List.mem_map]
  constructor
  · rintro ⟨task, picked, idEq⟩
    obtain ⟨member, found⟩ := List.mem_filter.mp picked
    exact ⟨task, member, idEq, of_decide_eq_true found⟩
  · rintro ⟨task, member, idEq, found⟩
    exact ⟨task, List.mem_filter.mpr ⟨member, decide_eq_true found⟩, idEq⟩

theorem childrenOf_kinship_nodup (distinct : (wsTasks.map Task.id).Nodup) (above : TaskId) :
    ((kinship wsTasks byId).childrenOf above).Nodup := by
  rw [childrenOf_kinship]
  exact (List.filter_sublist.map Task.id).nodup distinct

theorem parentOf_kinship_known (distinct : (wsTasks.map Task.id).Nodup) {id above : TaskId}
    (edge : (kinship wsTasks byId).parentOf id = some above) :
    id ∈ wsTasks.map Task.id ∧ above ∈ wsTasks.map Task.id := by
  obtain ⟨task, member, rfl, found⟩ := (parentOf_kinship distinct).mp edge
  refine ⟨List.mem_map_of_mem member, ?_⟩
  unfold parentWithin at found
  obtain ⟨parent, kept, rfl⟩ := Option.map_eq_some_iff.mp found
  exact of_decide_eq_true (Option.filter_eq_some_iff.mp kept).2

theorem get?_mapOf (distinct : (wsTasks.map Task.id).Nodup) {id : TaskId} {task : Task} :
    (mapOf wsTasks).get? id = some task ↔ task ∈ wsTasks ∧ task.id = id := by
  have keys : ((wsTasks.map fun task => (task.id, task)).map Prod.fst).Nodup := by
    rw [List.map_map]
    exact distinct
  rw [mapOf, Dict.get?_collect_iff keys, List.mem_map]
  constructor
  · rintro ⟨other, member, same⟩
    obtain ⟨idEq, rfl⟩ := Prod.mk.inj same
    exact ⟨member, idEq⟩
  · rintro ⟨member, idEq⟩
    exact ⟨task, member, Prod.ext idEq rfl⟩

end Kinship

section Ancestors

variable {kin : Kinship} {readyIds ids stack kept : List TaskId} {id above : TaskId}

/-- Where the loop stands: what is kept lies above a ready task, and a parent that is not kept yet
belongs to a task on the stack. -/
structure Climbing (kin : Kinship) (readyIds stack kept : List TaskId) : Prop where
  distinct : kept.Nodup
  ready : readyIds ⊆ kept
  above : ∀ id ∈ kept, ∃ first ∈ readyIds, Under kin.parentOf first id
  stacked : stack ⊆ kept
  climbs : ∀ id ∈ kept, id ∈ stack ∨ ∀ above, kin.parentOf id = some above → above ∈ kept

theorem Climbing.start (distinct : readyIds.Nodup) :
    Climbing kin readyIds readyIds.reverse readyIds where
  distinct := distinct
  ready := List.Subset.refl _
  above := fun id member => ⟨id, member, .refl⟩
  stacked := List.reverse_subset.mpr (List.Subset.refl _)
  climbs := fun _ member => .inl (List.mem_reverse.mpr member)

theorem Climbing.pop (climbing : Climbing kin readyIds (id :: stack) kept)
    (closed : ∀ above, kin.parentOf id = some above → above ∈ kept) :
    Climbing kin readyIds stack kept := by
  refine ⟨climbing.distinct, climbing.ready, climbing.above,
    fun other member => climbing.stacked (List.mem_cons_of_mem _ member), fun other member => ?_⟩
  rcases climbing.climbs other member with onStack | done
  · rcases List.mem_cons.mp onStack with rfl | onStack
    · exact .inr closed
    · exact .inl onStack
  · exact .inr done

theorem Climbing.push (climbing : Climbing kin readyIds (id :: stack) kept)
    (edge : kin.parentOf id = some above) (fresh : above ∉ kept) :
    Climbing kin readyIds (above :: stack) (above :: kept) := by
  have member := climbing.stacked List.mem_cons_self
  refine ⟨List.nodup_cons.mpr ⟨fresh, climbing.distinct⟩,
    fun other inReady => List.mem_cons_of_mem _ (climbing.ready inReady), fun other inKept => ?_,
    List.cons_subset_cons _ fun other inStack =>
      climbing.stacked (List.mem_cons_of_mem _ inStack), fun other inKept => ?_⟩
  · rcases List.mem_cons.mp inKept with rfl | inKept
    · obtain ⟨first, inReady, under⟩ := climbing.above id member
      exact ⟨first, inReady, under.climb edge⟩
    · exact climbing.above other inKept
  · rcases List.mem_cons.mp inKept with rfl | inKept
    · exact .inl List.mem_cons_self
    · rcases climbing.climbs other inKept with onStack | done
      · rcases List.mem_cons.mp onStack with rfl | onStack
        · refine .inr fun next edgeNext => ?_
          rw [edge] at edgeNext
          cases Option.some.inj edgeNext
          exact List.mem_cons_self
        · exact .inl (List.mem_cons_of_mem _ onStack)
      · exact .inr fun next edgeNext => List.mem_cons_of_mem _ (done next edgeNext)

/-- The loop ends: every turn takes a task off the stack or keeps one that was not kept. -/
theorem keepAncestors_ends (known : ∀ id above, kin.parentOf id = some above → above ∈ ids) :
    ∀ fuel stack kept, Climbing kin readyIds stack kept →
      stack.length + unvisited ids kept < fuel →
      ∃ members, keepAncestors kin fuel stack kept = some members ∧
        Climbing kin readyIds [] members := by
  intro fuel
  induction fuel with
  | zero => exact fun _ _ _ enough => absurd enough (Nat.not_lt_zero _)
  | succ fuel ih =>
      intro stack kept climbing enough
      cases stack with
      | nil => exact ⟨kept, rfl, climbing⟩
      | cons id stack =>
          rw [List.length_cons] at enough
          unfold keepAncestors
          cases edge : kin.parentOf id with
          | none =>
              have closed : ∀ above, kin.parentOf id = some above → above ∈ kept := by
                intro above found
                rw [edge] at found
                cases found
              exact ih stack kept (climbing.pop closed) (by omega)
          | some above =>
              dsimp only
              by_cases old : above ∈ kept
              · rw [if_pos old]
                have closed : ∀ other, kin.parentOf id = some other → other ∈ kept := by
                  intro other found
                  rw [edge] at found
                  cases Option.some.inj found
                  exact old
                exact ih stack kept (climbing.pop closed) (by omega)
              · rw [if_neg old]
                have fewer := unvisited_cons (known id above edge) old
                refine ih _ _ (climbing.push edge old) ?_
                rw [List.length_cons]
                omega

end Ancestors

end QueryService

end RepoLink
