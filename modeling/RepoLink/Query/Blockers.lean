import Mathlib.Data.List.Sort
import RepoLink.Domain.Task
import RepoLink.Library.Dict
import RepoLink.Library.Walk

/-!
Which tasks are ready: `select_ready` of `QueryService` and the walk over `blocked_by` behind it.
-/

namespace RepoLink

open KeyedTable Relation Walks

abbrev TaskMap := Dict TaskId Task

namespace QueryService

variable {byId : TaskMap}

def mapOf (tasks : List Task) : TaskMap := Dict.collect (tasks.map fun task => (task.id, task))

def blockersOf (byId : TaskMap) (current : TaskId) : List TaskId :=
  ((byId.get? current).map Task.blockedBy).getD []

def opensIn (byId : TaskMap) (current : TaskId) : Bool := (byId.get? current).any Task.isOpen

/-- The loop of `is_transitively_blocked`, which may run out of fuel. -/
def blockerWalk (byId : TaskMap) (fuel : Nat) (stack visited : List TaskId) : Option Bool :=
  walk (blockersOf byId) (opensIn byId) fuel stack visited

def isTransitivelyBlocked (taskId : TaskId) (byId : TaskMap) : Bool :=
  match byId.get? taskId with
  | none => false
  | some start =>
    -- every `blocked_by` edge of the map is pushed at most once, and the direct ones once more
    let fuel := start.blockedBy.length + (byId.rows.map fun row => row.2.blockedBy.length).sum + 1
    (blockerWalk byId fuel start.blockedBy.reverse []).getD false

def readyBefore (left right : Task) : Bool :=
  left.priority.rank < right.priority.rank ||
    left.priority = right.priority && left.updatedAt ≤ right.updatedAt

def isReady (byId : TaskMap) (task : Task) : Bool :=
  task.isOpen && task.sync ≠ .conflict && !isTransitivelyBlocked task.id byId

def selectReady (byId : TaskMap) (tasks : List Task) : List Task :=
  (tasks.filter (isReady byId)).insertionSort (readyBefore · ·)

theorem mem_blockersOf {current far : TaskId} :
    far ∈ blockersOf byId current ↔
      ∃ task, byId.get? current = some task ∧ far ∈ task.blockedBy := by
  unfold blockersOf
  cases byId.get? current <;> simp

theorem opensIn_iff {current : TaskId} :
    opensIn byId current = true ↔ ∃ task, byId.get? current = some task ∧ task.isOpen = true := by
  unfold opensIn
  cases byId.get? current <;> simp

/-- One `blocked_by` edge of a task of the map. -/
def BlockedBy (byId : TaskMap) : TaskId → TaskId → Prop := Leads (blockersOf byId)

theorem blockersOf_spends :
    Spends (blockersOf byId) (edgesLeft Prod.fst (fun row => row.2.blockedBy) byId.rows) := by
  refine edgesLeft_spends fun node known => ?_
  unfold blockersOf at known ⊢
  cases found : byId.get? node with
  | none =>
      rw [found] at known
      exact (known rfl).elim
  | some task => exact ⟨(node, task), Dict.mem_rows_iff.mpr found, rfl, rfl⟩

theorem edgesLeft_start :
    edgesLeft Prod.fst (fun row : TaskId × Task => row.2.blockedBy) byId.rows [] =
      (byId.rows.map fun row => row.2.blockedBy.length).sum := by
  unfold edgesLeft
  rw [List.filter_eq_self.mpr fun _ _ => decide_eq_true List.not_mem_nil]

theorem blockerWalk_ends {taskId : TaskId} {start : Task} (known : byId.get? taskId = some start)
    {fuel : Nat}
    (enough : start.blockedBy.length + (byId.rows.map fun row => row.2.blockedBy.length).sum < fuel) :
    ∃ found, blockerWalk byId fuel start.blockedBy.reverse [] = some found ∧
      (found = true ↔ ∃ blocker, TransGen (BlockedBy byId) taskId blocker ∧
        opensIn byId blocker = true) := by
  have behind : HitBehind (blockersOf byId) (opensIn byId) start.blockedBy.reverse ↔
      ∃ blocker, TransGen (BlockedBy byId) taskId blocker ∧ opensIn byId blocker = true := by
    have direct : ∀ node, node ∈ start.blockedBy.reverse ↔ BlockedBy byId taskId node := by
      intro node
      rw [List.mem_reverse, BlockedBy, Leads, mem_blockersOf, known]
      simp
    constructor
    · rintro ⟨node, member, blocker, path, opens⟩
      exact ⟨blocker, .head' ((direct node).mp member) path, opens⟩
    · rintro ⟨blocker, path, opens⟩
      obtain ⟨node, first, rest⟩ := TransGen.head'_iff.mp path
      exact ⟨node, (direct node).mpr first, blocker, rest, opens⟩
  rw [← behind]
  refine walk_spec blockersOf_spends fuel _ [] ?_ .start
  rw [edgesLeft_start, List.length_reverse]
  exact enough

theorem isTransitivelyBlocked_iff {taskId : TaskId} :
    isTransitivelyBlocked taskId byId = true ↔
      ∃ blocker, TransGen (BlockedBy byId) taskId blocker ∧ opensIn byId blocker = true := by
  cases known : byId.get? taskId with
  | some start =>
      obtain ⟨found, ended, exactly⟩ := blockerWalk_ends known (Nat.lt_succ_self _)
      rw [isTransitivelyBlocked, known]
      dsimp only
      rw [ended]
      exact exactly
  | none =>
      rw [isTransitivelyBlocked, known]
      refine iff_of_false Bool.false_ne_true ?_
      rintro ⟨blocker, path, _⟩
      obtain ⟨_, first, _⟩ := TransGen.head'_iff.mp path
      obtain ⟨start, stored, _⟩ := mem_blockersOf.mp first
      rw [known] at stored
      cases stored

end QueryService

end RepoLink
