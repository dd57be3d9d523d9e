import RepoLink.Sync.RailCalls
import RepoLink.TaskService.Edits

/-!
The type rails of an edit and of a rollback: both resolve the board of the task and queue for its
rail. What a mirror owes otherwise carries no type, nor does an edge.
-/

namespace RepoLink

open Effects Program

theorem setProjectStatusMutation_typeless {project : Project} {task : Task}
    {mutation : OutboxMutation} (planned : setProjectStatusMutation project task = some mutation) :
    mutation.isTypeRail = false := by
  obtain ⟨item, _, planned⟩ := Option.bind_eq_some_iff.mp planned
  obtain ⟨field, _, planned⟩ := Option.bind_eq_some_iff.mp planned
  obtain ⟨option, _, planned⟩ := Option.bind_eq_some_iff.mp planned
  cases planned
  rfl

theorem relationMutation_typeless {kind : RelationKind} {add : Bool} {this other : IssueCoords}
    {mutation : OutboxMutation} (planned : relationMutation kind add this other = some mutation) :
    mutation.isTypeRail = false := by
  cases kind <;> cases add <;> cases planned <;> rfl

theorem planMutations_typeless {task : Task} {project : Option Project}
    {filingCanonical : Option String} {contentChanged : Bool} :
    ∀ mutation ∈ planMutations task project filingCanonical contentChanged,
      mutation.isTypeRail = false := by
  have single : ∀ planned : OutboxMutation, planned.isTypeRail = false →
      ∀ mutation ∈ [planned], mutation.isTypeRail = false :=
    fun planned typeless mutation member => List.mem_singleton.mp member ▸ typeless
  have nothing : ∀ mutation ∈ ([] : List OutboxMutation), mutation.isTypeRail = false :=
    fun _ member => (List.not_mem_nil member).elim
  unfold planMutations
  split
  · exact nothing
  · refine List.forall_mem_append.mpr ⟨?_, ?_⟩
    · split
      · split
        · exact single _ rfl
        · exact nothing
      · split
        · exact single _ rfl
        · exact nothing
    · split
      · exact nothing
      · split
        · exact fun mutation member =>
            setProjectStatusMutation_typeless (Option.mem_toList.mp member)
        · split
          · exact single _ rfl
          · intro mutation member
            obtain ⟨nodeId, _, rfl⟩ := Option.map_eq_some_iff.mp (Option.mem_toList.mp member)
            rfl

theorem BoardPlan.Placed.edited {plan : BoardPlan} {before after : Task}
    (placed : plan.Placed before) (edited : before.Edited after) : plan.Placed after := by
  rw [BoardPlan.Placed, edited.id, edited.workspaceId]
  exact placed

namespace TaskService

variable {plan : BoardPlan}

theorem planMirrorMutations_typeless (now : Timestamp) (task : Task) (contentChanged : Bool) :
    (planMirrorMutations now task contentChanged).Yields fun planned =>
      ∀ mutation ∈ planned.1, mutation.isTypeRail = false := by
  unfold planMirrorMutations
  split
  · exact fun _ member => (List.not_mem_nil member).elim
  · refine (yields_any _).bind fun workspace _ => (yields_any _).bind fun project _ => ?_
    refine (yields_any _).bind fun filed _ => (yields_any _).bind fun canonical _ => ?_
    exact planMutations_typeless

theorem planUpdateMutations_typeless (now : Timestamp) (task : Task) (syncBefore : SyncState)
    (converted : Bool) : (planUpdateMutations now task syncBefore converted).Yields
      fun planned => ∀ mutation ∈ planned.1, mutation.isTypeRail = false := by
  unfold planUpdateMutations
  split
  · exact fun _ member => (List.not_mem_nil member).elim
  · split
    · refine (yields_any _).bind fun canonical _ => ?_
      refine List.forall_mem_append.mpr ⟨?_, fun _ member => List.mem_singleton.mp member ▸ rfl⟩
      split
      · exact fun _ member => List.mem_singleton.mp member ▸ rfl
      · exact fun _ member => (List.not_mem_nil member).elim
    · split
      · exact fun _ member => (List.not_mem_nil member).elim
      · exact planMirrorMutations_typeless now task true

theorem intoEntries_fits {taskId : TaskId} {mutations : List OutboxMutation}
    (fits : ∀ mutation ∈ mutations, mutation.FitsRail (plan.custom taskId)) :
    (intoEntries taskId mutations).Under plan.Tells plan.Calls fun entries =>
      ∀ entry ∈ entries, plan.Fits entry := by
  refine under_quiet (intoEntries_quiet taskId mutations) ?_
  refine (intoEntries_yields taskId mutations).mono ?_
  rintro entries ⟨owned, rfl⟩ entry member
  rw [BoardPlan.Fits, owned entry member]
  exact fits _ (List.mem_map_of_mem member)

theorem planWhen_fits {custom : Bool} {owed : Bool} {planned : Action (Option OutboxMutation)}
    (fits : planned.Under plan.Tells plan.Calls fun mutation =>
      ∀ planned ∈ mutation, planned.FitsRail custom) :
    (planWhen owed planned).Under plan.Tells plan.Calls fun mutation =>
      ∀ planned ∈ mutation, planned.FitsRail custom := by
  cases owed
  · exact nofun
  · exact fits

theorem planPriorityMutation_fits (task : Task) (custom : Bool) :
    (planPriorityMutation task).Under plan.Tells plan.Calls fun mutation =>
      ∀ planned ∈ mutation, planned.FitsRail custom := by
  refine under_quiet (planPriorityMutation_every plans_quiet task) ?_
  refine (yields_any _).bind fun project _ => ?_
  split
  · exact nofun
  · exact fun planned member => .ofOther (setProjectPriorityMutation_typeless member) custom

theorem planIssueTypeMutation_fits {task : Task} (placed : plan.Placed task) :
    (planIssueTypeMutation task).Under plan.Tells plan.Calls fun mutation =>
      ∀ planned ∈ mutation, planned.FitsRail (plan.custom task.id) := by
  refine (resolveProject_chosen placed).bind fun project chosen => ?_
  have owned : (filingRepoOwnerLogin task).Every PortOp.quiet :=
    every_bind (filingCanonicalFor_quiet task) fun _ => trivial
  refine (under_quiet owned (yields_any _)).bind fun owner _ => ?_
  exact under_quiet (resolveTypeProjection_every (fun _ reads => reads) ..)
    (resolveTypeProjection_fits owner task chosen)

theorem railEntries_fits (before : Task) {task : Task} (placed : plan.Placed task) :
    (railEntries before task).Under plan.Tells plan.Calls fun entries =>
      ∀ entry ∈ entries, plan.Fits entry := by
  refine (planWhen_fits (planPriorityMutation_fits task (plan.custom task.id))).bind
    fun priority priorityFits => ?_
  refine (intoEntries_fits fun mutation member =>
    priorityFits mutation (Option.mem_toList.mp member)).bind fun priorityEntries first => ?_
  refine (planWhen_fits (planIssueTypeMutation_fits placed)).bind fun type typeFits => ?_
  refine (intoEntries_fits fun mutation member =>
    typeFits mutation (Option.mem_toList.mp member)).bind fun typeEntries second => ?_
  exact List.forall_mem_append.mpr ⟨first, second⟩

theorem saveWithOutbox_fits {basis : Option Task} {task : Task} {source : SnapshotSource}
    {entries : List OutboxEntry} (placed : plan.Placed task)
    (fits : ∀ entry ∈ entries, plan.Fits entry) :
    (saveWithOutbox basis task source entries).Under plan.Tells plan.Calls fun _ => True :=
  under_saveAll (List.forall_mem_singleton.mpr placed) fits

theorem update_fits (cmd : UpdateTaskCmd) :
    (update cmd).Under plan.Tells plan.Calls fun _ => True := by
  refine (under_getTask cmd.taskId).bind ?_
  rintro before ⟨_, placed⟩
  refine (under_quiet (every_clock trivial) (yields_any _)).bind fun now _ => ?_
  refine (under_quiet (editTask_quiet now cmd before) (editTask_retouched now cmd before)).bind ?_
  rintro ⟨edited, filing⟩ editedOk
  refine (under_quiet (planUpdateMutations_quiet ..) ((planUpdateMutations_retouched now edited
    before.sync filing.isSome).both (planUpdateMutations_typeless ..))).bind ?_
  rintro ⟨mutations, planned⟩ ⟨plannedOk, typeless⟩
  have plannedAt : plan.Placed planned := placed.edited (editedOk.trans plannedOk).toEdited
  refine (intoEntries_fits fun mutation member => .ofOther (typeless mutation member) _).bind
    fun entries first => ?_
  refine (railEntries_fits before plannedAt).bind fun rails second => ?_
  exact (saveWithOutbox_fits plannedAt (List.forall_mem_append.mpr ⟨first, second⟩)).bind
    fun _ _ => trivial

theorem transitionMirror_fits (taskId : TaskId) (op : Timestamp → Task → Mutation)
    (edits : ∀ now task after, (op now task).attempt = .ok after → task.Retouched after) :
    (transitionMirror taskId op).Under plan.Tells plan.Calls fun _ => True := by
  refine (under_getTask taskId).bind ?_
  rintro before ⟨_, placed⟩
  refine (under_quiet (every_clock trivial) (yields_any _)).bind fun now _ => ?_
  refine (under_quiet (settled_quiet _) (settled_yields _)).bind fun after afterEq => ?_
  split
  · trivial
  · refine (under_quiet (planMirrorMutations_quiet ..) ((planMirrorMutations_retouched now after
      false).both (planMirrorMutations_typeless ..))).bind ?_
    rintro ⟨mutations, planned⟩ ⟨plannedOk, typeless⟩
    have plannedAt : plan.Placed planned :=
      placed.edited ((edits now before after afterEq).trans plannedOk).toEdited
    refine (intoEntries_fits fun mutation member => .ofOther (typeless mutation member) _).bind
      fun entries fits => ?_
    exact (saveWithOutbox_fits plannedAt fits).bind fun _ _ => trivial

section Relations

theorem planRelationWhen_fits (owed : Bool) (kind : RelationKind) (add : Bool) (task other : Task) :
    (planRelationWhen owed kind add task other).Under plan.Tells plan.Calls fun entries =>
      ∀ entry ∈ entries, plan.Fits entry := by
  have nothing : ∀ entry ∈ ([] : List OutboxEntry), plan.Fits entry :=
    fun _ member => (List.not_mem_nil member).elim
  have coords (task : Task) : (relationRemoteCoords task).Every PortOp.quiet := by
    unfold relationRemoteCoords
    split
    · trivial
    · exact every_bind (filingCanonicalFor_quiet task) fun _ => trivial
  cases owed with
  | false => exact nothing
  | true =>
      refine (under_quiet (coords task) (yields_any _)).bind fun this _ => ?_
      refine (under_quiet (coords other) (yields_any _)).bind fun related _ => ?_
      split
      · refine intoEntries_fits fun mutation member => ?_
        exact .ofOther (relationMutation_typeless (Option.mem_toList.mp member)) _
      · exact nothing

theorem addRelation_fits (taskId : TaskId) (kind : RelationKind) (otherId : TaskId) :
    (addRelation taskId kind otherId).Under plan.Tells plan.Calls fun _ => True := by
  refine (under_getTask taskId).bind ?_
  rintro task ⟨_, placed⟩
  refine (under_getTask otherId).bind ?_
  rintro other ⟨_, otherPlaced⟩
  split
  · trivial
  · refine (under_quiet (closesCycle_quiet ..) (yields_any _)).bind fun cyclic _ => ?_
    split
    · trivial
    · refine (under_quiet (every_clock trivial) (yields_any _)).bind fun now _ => ?_
      refine (planRelationWhen_fits ..).bind fun entries fits => ?_
      refine (under_saveAll ?_ fits).bind fun _ _ => trivial
      refine List.forall_mem_cons.mpr ⟨placed.edited (.addRelation now kind _ task), ?_⟩
      exact List.forall_mem_singleton.mpr
        (otherPlaced.edited (.addRelation now kind.inverse _ other))

theorem removeRelation_fits (taskId : TaskId) (kind : RelationKind) (otherId : TaskId) :
    (removeRelation taskId kind otherId).Under plan.Tells plan.Calls fun _ => True := by
  refine (under_getTask taskId).bind ?_
  rintro task ⟨_, placed⟩
  refine (under_getTask otherId).bind ?_
  rintro other ⟨_, otherPlaced⟩
  split
  · trivial
  · refine (under_quiet (every_clock trivial) (yields_any _)).bind fun now _ => ?_
    have first := placed.edited (.removeRelation now kind other.id task)
    have second := otherPlaced.edited (.removeRelation now kind.inverse task.id other)
    generalize task.removeRelation now kind other.id = stripped at first
    generalize other.removeRelation now kind.inverse task.id = reciprocal at second
    refine (planRelationWhen_fits ..).bind fun entries fits => ?_
    dsimp only
    have batch : ∀ write ∈ (if stripped.1 = true then
          [TaskWrite.mk (some task) stripped.2 .localEdit] else []) ++
        (if reciprocal.1 = true then
          [TaskWrite.mk (some other) reciprocal.2 .localEdit] else []), plan.Placed write.task := by
      refine List.forall_mem_append.mpr ⟨fun write member => ?_, fun write member => ?_⟩
      · exact List.mem_singleton.mp (List.mem_ite_nil_right.mp member).2 ▸ first
      · exact List.mem_singleton.mp (List.mem_ite_nil_right.mp member).2 ▸ second
    generalize (if stripped.1 = true then
        [TaskWrite.mk (some task) stripped.2 .localEdit] else []) ++
      (if reciprocal.1 = true then
        [TaskWrite.mk (some other) reciprocal.2 .localEdit] else []) = writes at batch
    split
    · trivial
    · exact (under_saveAll batch fits).bind fun _ _ => trivial

theorem loadFarEnds_fits (now : Timestamp) (taskId : TaskId) (removed : List TaskRelation) :
    ∀ others : List TaskId, (loadFarEnds now taskId removed others).Under plan.Tells plan.Calls
      fun loaded => ∀ write ∈ loaded.2, plan.Placed write.task := by
  intro others
  induction others with
  | nil => exact fun _ member => (List.not_mem_nil member).elim
  | cons otherId rest ih =>
      refine (under_getTask otherId).bind ?_
      rintro other ⟨_, placed⟩
      have stripped := placed.edited (stripReciprocals_edited now taskId removed other)
      refine (under_quiet (cachedRelationCoords_quiet _) (yields_any _)).bind fun coords _ => ?_
      refine ih.bind fun loaded each => List.forall_mem_append.mpr ⟨?_, each⟩
      intro write member
      exact List.mem_singleton.mp (List.mem_ite_nil_right.mp member).2 ▸ stripped

theorem clearRelations_fits (taskId : TaskId) :
    (clearRelations taskId).Under plan.Tells plan.Calls fun _ => True := by
  refine (under_getTask taskId).bind ?_
  rintro task ⟨_, placed⟩
  refine (under_quiet (every_clock trivial) (yields_any _)).bind fun now _ => ?_
  have clearedPlaced := placed.edited (.clearRelations now task)
  dsimp only
  split
  · trivial
  · refine (loadFarEnds_fits now task.id _ _).bind ?_
    rintro ⟨coordsByOther, writes⟩ each
    refine (under_quiet (cachedRelationCoords_quiet _) (yields_any _)).bind fun thisCoords _ => ?_
    refine (intoEntries_fits ?_).bind fun entries fits => ?_
    · intro mutation member
      obtain ⟨relation, _, planned⟩ := List.mem_filterMap.mp member
      obtain ⟨this, _, planned⟩ := Option.bind_eq_some_iff.mp planned
      obtain ⟨related, _, planned⟩ := Option.bind_eq_some_iff.mp planned
      split at planned
      · cases planned
      · exact .ofOther (relationMutation_typeless planned) _
    · refine (under_saveAll (List.forall_mem_cons.mpr ⟨clearedPlaced, each⟩) ?_).bind
        fun _ _ => trivial
      exact fits

end Relations

theorem Edit.fits {program : Action Task} (edit : Edit program) :
    program.Under plan.Tells plan.Calls fun _ => True := by
  cases edit with
  | update cmd => exact update_fits cmd
  | start id => exact transitionMirror_fits id _ start_retouches
  | complete id => exact transitionMirror_fits id _ (setLifecycle_retouches fun _ _ => rfl)
  | reopen id => exact transitionMirror_fits id _ (setLifecycle_retouches fun _ _ => rfl)
  | archive id => exact transitionMirror_fits id _ (setLifecycle_retouches fun _ _ => rfl)
  | addRelation id kind other => exact addRelation_fits id kind other
  | removeRelation id kind other => exact removeRelation_fits id kind other
  | clearRelations id => exact clearRelations_fits id

theorem stageForSync_fits (taskId : TaskId) :
    (stageForSync taskId).Under plan.Tells plan.Calls fun _ => True := by
  refine (under_getTask taskId).bind ?_
  rintro before ⟨_, placed⟩
  refine (under_quiet (every_clock trivial) (yields_any _)).bind fun now _ => ?_
  refine (under_quiet (settled_quiet _) (settled_yields _)).bind fun after afterEq => ?_
  have stagedAt : plan.Placed after := by
    unfold Task.stageForSync at afterEq
    split at afterEq
    · cases afterEq
      exact placed
    · cases afterEq
      exact placed
    · cases afterEq
  exact (saveWithOutbox_fits stagedAt fun _ member => (List.not_mem_nil member).elim).bind
    fun _ _ => trivial

theorem rollback_fits (taskId : TaskId) (toVersion : Nat) :
    (rollback taskId toVersion).Under plan.Tells plan.Calls fun _ => True := by
  refine (under_getTask taskId).bind ?_
  rintro before ⟨_, placed⟩
  refine (under_quiet (getSnapshot_quiet _ _) (yields_any _)).bind fun snapshot _ => ?_
  refine (under_quiet (every_clock trivial) (yields_any _)).bind fun now _ => ?_
  obtain ⟨sameId, sameWorkspace, _⟩ := restoreVersion_place now snapshot before
  have restoredAt : plan.Placed (restoreVersion now snapshot before) := by
    rw [BoardPlan.Placed, sameId, sameWorkspace]
    exact placed
  refine (railEntries_fits before restoredAt).bind fun rails fits => ?_
  exact (saveWithOutbox_fits restoredAt fits).bind fun _ _ => trivial

end TaskService

end RepoLink
