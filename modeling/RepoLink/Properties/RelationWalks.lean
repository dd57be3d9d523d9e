import RepoLink.Query.Blockers
import RepoLink.TaskService.CycleGuard

/-!
The walks over the relation graph are exact: the cycle check of `add_relation` upstream, and the
transitive block check behind the ready frontier. Neither depends on the edges being acyclic,
reciprocal or even between known tasks.
-/

namespace RepoLink

open Effects Program KeyedTable Relation Walks

namespace TaskService

theorem runs_listTasks {database : Database} {tasks : List Task} {after : Database} :
    (query (.listTasks {}) : Action (List Task)).Runs portMeaning database (.ok tasks) after ↔
      tasks = database.listTasks {} ∧ after = database := by
  constructor
  · intro ran
    have same := runs_quiet (query_quiet (.listTasks {}) rfl) ran
    obtain ⟨instant, performed⟩ := runs_query ran
    exact ⟨(Except.ok.inj (congrArg Prod.fst performed)).symm, same⟩
  · rintro ⟨rfl, rfl⟩
    exact ⟨.ok (after.listTasks {}), after, .inl ⟨⟨0⟩, rfl⟩, rfl, rfl⟩

/-- `would_create_cycle` ends, changes nothing, and says `true` exactly if `y` leads upstream to
`x` over the edges of the family, read from both of their ends. -/
theorem wouldCreateCycle_exact (database : Database) (forward : RelationKind) (x y : TaskId) :
    ∃ cyclic : Bool,
      (∀ fuel,
        (upstreamEdges forward forward.inverse (database.listTasks {})).length + 2 ≤ fuel →
        upstreamWalk (upstreamEdges forward forward.inverse (database.listTasks {})) x fuel [y] []
          = some cyclic) ∧
      (∀ answer after,
        (wouldCreateCycle forward forward.inverse x y).Runs portMeaning database (.ok answer) after
          ↔ answer = cyclic ∧ after = database) ∧
      (cyclic = true ↔ TransGen (database.Upstream forward) y x) := by
  have edges : edgeRel (upstreamEdges forward forward.inverse (database.listTasks {})) =
      database.Upstream forward := funext fun _ => funext fun _ => propext mem_upstreamEdges
  have walks := @upstreamWalk_ends (upstreamEdges forward forward.inverse (database.listTasks {})) x y
  rw [edges] at walks
  refine ⟨reaches (upstreamEdges forward forward.inverse (database.listTasks {})) x
    ((upstreamEdges forward forward.inverse (database.listTasks {})).length + 2) [y] [],
    fun fuel enough => ?_, fun answer after => ?_, ?_⟩
  · obtain ⟨found, ended, exactly⟩ := walks enough
    rw [ended, Option.some_inj, Bool.eq_iff_iff, exactly, reaches_upstream, edges]
  · unfold wouldCreateCycle
    rw [bind_eq, runs_bind]
    constructor
    · rintro (⟨tasks, middle, listed, ended⟩ | ⟨_, _, failed⟩)
      · obtain ⟨rfl, rfl⟩ := runs_listTasks.mp listed
        exact ⟨Except.ok.inj ended.1, ended.2⟩
      · cases failed
    · rintro ⟨rfl, rfl⟩
      exact .inl ⟨_, after, runs_listTasks.mpr ⟨rfl, rfl⟩, rfl, rfl⟩
  · rw [reaches_upstream, edges]

end TaskService

namespace QueryService

/-- `is_transitively_blocked` ends, and says `true` exactly if an open task of the map can be
reached over `blocked_by` edges of tasks of the map. -/
theorem isTransitivelyBlocked_exact (byId : TaskMap) (taskId : TaskId) :
    (∀ start, byId.get? taskId = some start → ∀ fuel,
      start.blockedBy.length + (byId.rows.map fun row => row.2.blockedBy.length).sum < fuel →
      blockerWalk byId fuel start.blockedBy.reverse [] = some (isTransitivelyBlocked taskId byId)) ∧
    (isTransitivelyBlocked taskId byId = true ↔
      ∃ blocker, TransGen (BlockedBy byId) taskId blocker ∧
        ∃ task, byId.get? blocker = some task ∧ task.isOpen = true) := by
  constructor
  · intro start known fuel enough
    obtain ⟨found, ended, exactly⟩ := blockerWalk_ends known enough
    rw [ended, Option.some_inj, Bool.eq_iff_iff, exactly, isTransitivelyBlocked_iff]
  · simp only [isTransitivelyBlocked_iff, opensIn_iff]

end QueryService

end RepoLink
