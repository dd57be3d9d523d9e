import RepoLink.Domain.Project
import RepoLink.Properties.DisplayIds
import RepoLink.Sync.Enqueue
import RepoLink.Sync.Poller

/-!
Inbound priority is a fixpoint. Several priorities may share a board option, but each has one
option at most, so the priority that an option stands for projects back to it.
-/

namespace RepoLink

open Effects Program Relation

namespace Project

def MapsOnce (project : Project) : Prop :=
  (project.priorityMappings.map PriorityMapping.priority).Nodup

theorem mapsOnce_of_fromFields {id : ProjectId} {title : String} {fields : List ProjectField}
    {statusMappings : List StatusMapping} {priorityMappings : List PriorityMapping}
    {project : Project}
    (built : fromFields id title fields statusMappings priorityMappings = .ok project) :
    project.MapsOnce := by
  obtain ⟨rfl, valid⟩ := fromFields_checked built
  exact (validatePriorityMappings_ok_iff.mp valid).2

theorem resolvedPriorityOptionIdFor_inverse {project : Project} (once : project.MapsOnce)
    {optionId : String} {priority : Priority}
    (stands : project.priorityForOptionId optionId = some priority) :
    project.resolvedPriorityOptionIdFor priority = some optionId := by
  unfold priorityForOptionId at stands
  obtain ⟨mapping, found, rfl⟩ := Option.map_eq_some_iff.mp stands
  have member := List.mem_of_find?_eq_some found
  have own := List.find?_some found
  have optionEq : mapping.optionId = optionId := of_decide_eq_true own
  unfold resolvedPriorityOptionIdFor
  unfold MapsOnce at once
  rw [← optionEq]
  generalize project.priorityMappings = mappings at once member
  induction mappings with
  | nil => exact (List.not_mem_nil member).elim
  | cons first rest ih =>
      rw [List.map_cons, List.nodup_cons] at once
      rcases List.mem_cons.mp member with rfl | inRest
      · have own : decide (mapping.priority = mapping.priority) = true := decide_eq_true rfl
        rw [List.find?_cons, own]
        rfl
      · have different : first.priority ≠ mapping.priority :=
          fun same => once.1 (same ▸ List.mem_map_of_mem inRest)
        rw [List.find?_cons_of_neg (by simpa using different)]
        exact ih once.2 inRest

end Project

namespace ProjectPoller

variable {project : Project} {item : RemoteProjectItem} {task out : Task}
  {before after : Database} {finished : Bool}

def Owes (database : Database) (taskId : TaskId) : Prop :=
  ∃ entry ∈ database.outbox.listPending taskId, entry.mutation.kind = "set_project_priority"

def boardOption (project : Project) (item : RemoteProjectItem) : Option String := do
  let fieldId ← project.priorityFieldId
  item.singleSelectOptions.lookup fieldId

theorem polledPriority_eq (project : Project) (item : RemoteProjectItem) (task : Task) :
    polledPriority project item task = (boardOption project item).bind fun optionId =>
      if project.resolvedPriorityOptionIdFor task.priority = some optionId then none
      else project.priorityForOptionId optionId := by
  unfold polledPriority boardOption
  cases project.priorityFieldId <;> rfl

theorem runs_hasPendingPriorityPush {taskId : TaskId} {owes read : Bool}
    (ran : (hasPendingPriorityPush taskId).Runs portMeaning before (.ok (owes, read)) after) :
    after = before ∧ (owes = false → ¬Owes before taskId) ∧
      (owes = true → read = true → Owes before taskId) := by
  obtain ⟨answer, middle, performed, rest⟩ := ran
  rcases performed with ⟨instant, performed⟩ | ⟨message, rfl, rfl⟩
  · cases performed
    obtain ⟨result, rfl⟩ := rest
    cases result
    have listed : ((after.outbox.listPending taskId).any fun entry =>
        entry.mutation.kind = "set_project_priority") = true ↔ Owes after taskId := by
      simp [Owes]
    refine ⟨rfl, fun clear owing => ?_, fun found _ => listed.mp found⟩
    exact Bool.false_ne_true (clear.symm.trans (listed.mpr owing))
  · obtain ⟨result, rfl⟩ := rest
    cases result
    exact ⟨rfl, fun clear => (Bool.false_ne_true clear.symm).elim,
      fun _ read => (Bool.false_ne_true read).elim⟩

theorem runs_applyPriority {priority : Priority}
    (ran : (applyPriority task priority).Runs portMeaning before (.ok (out, finished)) after) :
    out = { task with priority } ∧ after = before.applyPolledPriority task.id priority ∧
        finished = true ∨
      out = task ∧ after = before ∧ finished = false := by
  obtain ⟨answer, middle, performed, rest⟩ := ran
  rcases performed with ⟨instant, performed⟩ | ⟨message, rfl, rfl⟩
  · cases performed
    obtain ⟨result, rfl⟩ := rest
    cases result
    exact .inl ⟨rfl, rfl, rfl⟩
  · obtain ⟨result, rfl⟩ := rest
    cases result
    exact .inr ⟨rfl, rfl, rfl⟩

theorem runs_reconcilePriority
    (ran : (reconcilePriority project item task).Runs portMeaning before (.ok (out, finished))
      after) :
    (out = task ∧ after = before ∧
        (finished = true → polledPriority project item task = none ∨ Owes before task.id)) ∨
      ∃ priority, polledPriority project item task = some priority ∧ ¬Owes before task.id ∧
        out = { task with priority } ∧ after = before.applyPolledPriority task.id priority := by
  unfold reconcilePriority at ran
  cases polled : polledPriority project item task with
  | none =>
      rw [polled] at ran
      obtain ⟨result, rfl⟩ := ran
      cases result
      exact .inl ⟨rfl, rfl, fun _ => .inl rfl⟩
  | some priority =>
      rw [polled] at ran
      obtain ⟨⟨owes, read⟩, middle, checked, ran⟩ := runs_bind_ok.mp ran
      obtain ⟨rfl, clear, owing⟩ := runs_hasPendingPriorityPush checked
      cases owes with
      | true =>
          obtain ⟨result, rfl⟩ := ran
          cases result
          exact .inl ⟨rfl, rfl, fun read => .inr (owing rfl read)⟩
      | false =>
          rcases runs_applyPriority ran with ⟨rfl, rfl, _⟩ | ⟨rfl, rfl, rfl⟩
          · exact .inr ⟨priority, rfl, clear rfl, rfl, rfl⟩
          · exact .inl ⟨rfl, rfl, fun ended => (Bool.false_ne_true ended).elim⟩

def Poll (project : Project) (item : RemoteProjectItem) (state next : Task × Database) : Prop :=
  ∃ finished, (reconcilePriority project item state.1).Runs portMeaning state.2
    (.ok (next.1, finished)) next.2

def Settled (project : Project) (item : RemoteProjectItem) (state : Task × Database) : Prop :=
  ∀ last, ReflTransGen (Poll project item) state last → last = state

theorem settled_of_still {state : Task × Database}
    (still : polledPriority project item state.1 = none ∨ Owes state.2 state.1.id) :
    Settled project item state := by
  intro last polls
  induction polls with
  | refl => rfl
  | tail _ poll same =>
      subst same
      obtain ⟨finished, ran⟩ := poll
      rcases runs_reconcilePriority ran with ⟨sameTask, sameStore, _⟩ | ⟨priority, polled, free, _⟩
      · exact Prod.ext sameTask sameStore
      · rcases still with none | owes
        · rw [none] at polled
          cases polled
        · exact (free owes).elim

theorem reloaded_priority {reloaded loaded : Task}
    (ran : (reconcilePriority project item task).Runs portMeaning before (.ok (out, finished))
      after)
    (stored : before.stored task.id = some loaded) (current : loaded.priority = task.priority)
    (again : after.stored task.id = some reloaded) :
    reloaded.id = out.id ∧ reloaded.priority = out.priority := by
  have sameId := Database.stored_id again
  rcases runs_reconcilePriority ran with ⟨rfl, rfl, _⟩ | ⟨priority, _, _, rfl, rfl⟩
  · cases stored.symm.trans again
    exact ⟨sameId, current⟩
  · refine ⟨sameId, ?_⟩
    obtain ⟨record, found, rfl⟩ := Option.map_eq_some_iff.mp again
    have written := (Database.record_updateRow task.id (fun row => { row with priority })
      (fun _ => rfl) before task.id).symm.trans found
    rw [if_pos rfl] at written
    obtain ⟨earlier, _, rfl⟩ := Option.map_eq_some_iff.mp written
    rfl

/-- A poll changes the task only if its option is not the board's and no push is owed; then the
task projects to the board's option, for the outbound direction too, and no further poll of the
item changes anything, from the task at hand or from its row as the store then holds it. A poll
that ran to its end is one after which nothing changes either. -/
theorem reconcilePriority_fixpoint {id : ProjectId} {title : String} {fields : List ProjectField}
    {statusMappings : List StatusMapping} {priorityMappings : List PriorityMapping}
    {project : Project}
    (built : Project.fromFields id title fields statusMappings priorityMappings = .ok project)
    (item : RemoteProjectItem) (task out : Task) (before after : Database) (finished : Bool)
    (ran : (reconcilePriority project item task).Runs portMeaning before (.ok (out, finished))
      after) :
    ((out, after) ≠ (task, before) → ∃ optionId,
      boardOption project item = some optionId ∧
      project.resolvedPriorityOptionIdFor task.priority ≠ some optionId ∧
      ¬Owes before task.id ∧
      project.resolvedPriorityOptionIdFor out.priority = some optionId ∧
      out = { task with priority := out.priority } ∧
      after = before.applyPolledPriority task.id out.priority ∧
      ∀ mutation, setProjectPriorityMutation project out = some mutation →
        ∃ itemId fieldId, mutation = .setProjectPriority project.id.value itemId fieldId optionId) ∧
    ((out, after) ≠ (task, before) ∨ finished = true →
      Settled project item (out, after) ∧
      ∀ loaded reloaded, before.stored task.id = some loaded → loaded.priority = task.priority →
        after.stored task.id = some reloaded → Settled project item (reloaded, after)) := by
  have once := Project.mapsOnce_of_fromFields built
  have everSettled (still : polledPriority project item out = none ∨ Owes after out.id) :
      Settled project item (out, after) ∧
      ∀ loaded reloaded, before.stored task.id = some loaded → loaded.priority = task.priority →
        after.stored task.id = some reloaded → Settled project item (reloaded, after) := by
    refine ⟨settled_of_still still, fun loaded reloaded stored current again => ?_⟩
    obtain ⟨sameId, same⟩ := reloaded_priority ran stored current again
    refine settled_of_still (still.imp (fun none => ?_) fun owes => sameId ▸ owes)
    rw [polledPriority_eq] at none ⊢
    rw [same]
    exact none
  rcases runs_reconcilePriority ran with ⟨rfl, rfl, still⟩ | ⟨priority, polled, free, rfl, rfl⟩
  · refine ⟨fun changed => (changed rfl).elim, fun ended => everSettled ?_⟩
    exact still (ended.resolve_left fun changed => changed rfl)
  · rw [polledPriority_eq] at polled
    obtain ⟨optionId, shown, stands⟩ := Option.bind_eq_some_iff.mp polled
    split at stands
    · cases stands
    rename_i differs
    have projects := Project.resolvedPriorityOptionIdFor_inverse once stands
    refine ⟨fun _ => ⟨optionId, shown, differs, free, projects, rfl, rfl, ?_⟩, fun _ => ?_⟩
    · intro mutation planned
      unfold setProjectPriorityMutation at planned
      obtain ⟨itemId, _, planned⟩ := Option.bind_eq_some_iff.mp planned
      obtain ⟨fieldId, _, planned⟩ := Option.bind_eq_some_iff.mp planned
      obtain ⟨sent, resolved, planned⟩ := Option.bind_eq_some_iff.mp planned
      cases projects.symm.trans resolved
      exact ⟨itemId, fieldId, (Option.some.inj planned).symm⟩
    · refine everSettled (.inl ?_)
      rw [polledPriority_eq, shown, Option.bind_some, if_pos projects]

def twoLevels : List FieldOption := [⟨"O_high", "High", 0⟩, ⟨"O_low", "Low", 1⟩]

def rankedFields : List ProjectField :=
  [⟨"F_status", "Status", .status, []⟩, ⟨"F_priority", "Priority", .priority, twoLevels⟩]

def rankedBoard : Project :=
  ⟨⟨"PVT_1"⟩, "board", rankedFields, [], Project.derivePriorityMappings twoLevels⟩

def highItem : RemoteProjectItem where
  itemNodeId := "PVTI_1"
  issueNodeId := some "I_1"
  canonicalRepo := some "github.com/o/r"
  number := some 1
  title := "t"
  body := ""
  closed := false
  statusOptionId := none
  singleSelectOptions := [("F_priority", "O_high")]
  updatedAt := ⟨1⟩

theorem reconcilePriority_fixpoint_ranked :
    ∃ task out later reloaded, boundTask.stored ⟨1⟩ = some task ∧ out.priority = .p0 ∧
      (reconcilePriority rankedBoard highItem task).Runs portMeaning boundTask (.ok (out, true))
        later ∧ Settled rankedBoard highItem (out, later) ∧
      later.stored ⟨1⟩ = some reloaded ∧ Settled rankedBoard highItem (reloaded, later) := by
  obtain ⟨task, stored, sameId, lower⟩ : ∃ task, boundTask.stored ⟨1⟩ = some task ∧
      task.id = ⟨1⟩ ∧ task.priority = .p3 := ⟨_, rfl, rfl, rfl⟩
  have built : Project.fromFields ⟨"PVT_1"⟩ "board" rankedFields []
      (Project.derivePriorityMappings twoLevels) = .ok rankedBoard := rfl
  have polled : polledPriority rankedBoard highItem task = some .p0 := by
    rw [polledPriority_eq, lower]
    rfl
  have ran : (reconcilePriority rankedBoard highItem task).Runs portMeaning boundTask
      (.ok ({ task with priority := .p0 }, true)) (boundTask.applyPolledPriority task.id .p0) := by
    unfold reconcilePriority
    rw [polled]
    have none : boundTask.outbox.listPending task.id = [] := by
      rw [sameId]
      rfl
    exact ⟨.ok [], boundTask, .inl ⟨⟨0⟩, by rw [← none]; rfl⟩, .ok (), _, .inl ⟨⟨0⟩, rfl⟩, rfl, rfl⟩
  obtain ⟨reloaded, again⟩ : ∃ reloaded,
      (boundTask.applyPolledPriority ⟨1⟩ .p0).stored ⟨1⟩ = some reloaded := ⟨_, rfl⟩
  obtain ⟨settled, settledAgain⟩ :=
    (reconcilePriority_fixpoint built highItem task _ _ _ true ran).2 (.inr rfl)
  refine ⟨task, { task with priority := .p0 }, _, reloaded, stored, rfl, ran, settled, ?_⟩
  rw [sameId] at settledAgain ⊢
  exact ⟨again, settledAgain task reloaded stored rfl again⟩

end ProjectPoller

end RepoLink
