import RepoLink.Ports.Changes
import RepoLink.TaskService.Calls

/-!
The edits of a task: what an edit may change of the copy that it loaded, and that the one
transaction of an edit operation saves edited copies.
-/

namespace RepoLink

open Effects Program

inductive SyncState.EditsTo : SyncState → SyncState → Prop
  | stay (sync : SyncState) : EditsTo sync sync
  | dirtied : EditsTo .synced .dirtyLocal
  | reverted : EditsTo .dirtyLocal .synced
  | conflicted : EditsTo .dirtyRemote .conflict

theorem SyncState.EditsTo.trans {first second third : SyncState} (left : first.EditsTo second)
    (right : second.EditsTo third) : first.EditsTo third := by
  cases left <;> cases right <;> constructor

structure Task.Edited (before after : Task) : Prop where
  id : after.id = before.id
  workspaceId : after.workspaceId = before.workspaceId
  remote : after.remote = before.remote
  projectItemId : after.projectItemId = before.projectItemId
  syncedBaseline : after.syncedBaseline = before.syncedBaseline
  filing : before.filingRepoId.isSome → after.filingRepoId = before.filingRepoId
  sync : before.sync.EditsTo after.sync

namespace Task.Edited

theorem refl (task : Task) : task.Edited task :=
  ⟨rfl, rfl, rfl, rfl, rfl, fun _ => rfl, .stay task.sync⟩

theorem trans {first second third : Task} (left : first.Edited second)
    (right : second.Edited third) : first.Edited third where
  id := right.id.trans left.id
  workspaceId := right.workspaceId.trans left.workspaceId
  remote := right.remote.trans left.remote
  projectItemId := right.projectItemId.trans left.projectItemId
  syncedBaseline := right.syncedBaseline.trans left.syncedBaseline
  filing := fun recorded => by
    have kept := left.filing recorded
    exact (right.filing (kept ▸ recorded)).trans kept
  sync := left.sync.trans right.sync

theorem relating (task : Task) (relations : List TaskRelation) (updatedAt : Timestamp) :
    task.Edited { task with relations, updatedAt } :=
  ⟨rfl, rfl, rfl, rfl, rfl, fun _ => rfl, .stay task.sync⟩

theorem addRelation (now : Timestamp) (kind : RelationKind) (other : TaskId) (task : Task) :
    task.Edited (task.addRelation now kind other) := by
  unfold Task.addRelation
  split
  · exact .refl task
  · exact relating task _ _

theorem removeRelation (now : Timestamp) (kind : RelationKind) (other : TaskId) (task : Task) :
    task.Edited (task.removeRelation now kind other).2 := by
  unfold Task.removeRelation
  dsimp only
  split <;> exact relating task _ _

theorem clearRelations (now : Timestamp) (task : Task) :
    task.Edited (task.clearRelations now).2 := by
  unfold Task.clearRelations
  split
  · exact .refl task
  · exact relating task _ _

end Task.Edited

structure Task.Retouched (before after : Task) : Prop extends before.Edited after where
  relations : after.relations = before.relations

namespace Task.Retouched

theorem refl (task : Task) : task.Retouched task := ⟨.refl task, rfl⟩

theorem trans {first second third : Task} (left : first.Retouched second)
    (right : second.Retouched third) : first.Retouched third :=
  ⟨left.toEdited.trans right.toEdited, right.relations.trans left.relations⟩

theorem reconciled {before after : Task} (edited : before.Retouched after) :
    before.Retouched after.reconcileDirtyAgainstBaseline := by
  refine edited.trans ?_
  unfold reconcileDirtyAgainstBaseline
  split
  · exact .refl after
  · refine ⟨⟨rfl, rfl, rfl, rfl, rfl, fun _ => rfl, ?_⟩, rfl⟩
    dsimp only
    split
    · rename_i syncEq _
      exact syncEq ▸ .dirtied
    · rename_i syncEq _
      exact syncEq ▸ .reverted
    · rename_i syncEq _
      exact syncEq ▸ .conflicted
    · exact .stay _

theorem fields (task : Task) (title body : String) (lifecycle : Lifecycle) (priority : Priority)
    (issueType : Option IssueType) (pending : Bool) (assignees : List String)
    (repoId : Option RepoId) (updatedAt : Timestamp) :
    task.Retouched { task with
      title, body, lifecycle, priority, issueType, issueTypePending := pending, assignees
      repoId, updatedAt } :=
  ⟨⟨rfl, rfl, rfl, rfl, rfl, fun _ => rfl, .stay task.sync⟩, rfl⟩

theorem setBody (now : Timestamp) (body : String) (task : Task) :
    task.Retouched (task.setBody now body) := reconciled (fields task _ _ _ _ _ _ _ _ _)

theorem setAssignees (now : Timestamp) (assignees : List String) (task : Task) :
    task.Retouched (task.setAssignees now assignees) := reconciled (fields task _ _ _ _ _ _ _ _ _)

theorem setTitle {now : Timestamp} {title : String} {task titled : Task}
    (set : (task.setTitle now title).attempt = .ok titled) : task.Retouched titled := by
  unfold Task.setTitle at set
  split at set
  · cases set
  · cases set
    exact reconciled (fields task _ _ _ _ _ _ _ _ _)

theorem setPriority (now : Timestamp) (priority : Priority) (task : Task) :
    task.Retouched (task.setPriority now priority) := by
  unfold Task.setPriority
  split
  · exact fields task _ _ _ _ _ _ _ _ _
  · exact .refl task

theorem setIssueType (now : Timestamp) (issueType : Option IssueType) (task : Task) :
    task.Retouched (task.setIssueType now issueType) := by
  unfold Task.setIssueType
  split
  · exact fields task _ _ _ _ _ _ _ _ _
  · exact .refl task

theorem setLifecycle (now : Timestamp) (lifecycle : Lifecycle) (task : Task) :
    task.Retouched (task.setLifecycle now lifecycle) := by
  unfold Task.setLifecycle
  split
  · exact .refl task
  · exact reconciled (fields task _ _ _ _ _ _ _ _ _)

theorem setRepoId {now : Timestamp} {repoId : Option RepoId} {task moved : Task}
    (set : (task.setRepoId now repoId).attempt = .ok moved) : task.Retouched moved := by
  unfold Task.setRepoId at set
  split at set
  · cases set
    exact .refl task
  · split at set
    · cases set
    · cases set
      exact fields task _ _ _ _ _ _ _ _ _

theorem setFilingRepoId {now : Timestamp} {filing : Option RepoId} {task filed : Task}
    (set : (task.setFilingRepoId now filing).attempt = .ok filed) : task.Retouched filed := by
  unfold Task.setFilingRepoId at set
  split at set
  · cases set
    exact .refl task
  · split at set
    · cases set
    · rename_i unrecorded
      cases set
      exact ⟨⟨rfl, rfl, rfl, rfl, rfl, fun recorded => absurd recorded unrecorded, .stay _⟩, rfl⟩

theorem elim {α : Type} {before task : Task} {change : α → Task} (edited : before.Retouched task)
    (each : ∀ value, task.Retouched (change value)) (choice : Option α) :
    before.Retouched (choice.elim task change) := by
  cases choice with
  | none => exact edited
  | some value => exact edited.trans (each value)

theorem elim_ok {α ε : Type} {before task after : Task} {change : α → Except ε Task}
    {choice : Option α} (result : choice.elim (.ok task) change = .ok after)
    (edited : before.Retouched task)
    (each : ∀ value after, change value = .ok after → task.Retouched after) :
    before.Retouched after := by
  cases choice with
  | none =>
      cases result
      exact edited
  | some value => exact edited.trans (each value after result)

end Task.Retouched

namespace TaskService

theorem editFields_ok {now : Timestamp} {cmd : UpdateTaskCmd} {task edited : Task}
    (result : editFields now cmd task = .ok edited) : ∃ titled : Task,
      (cmd.title.elim (.ok task) fun title => (task.setTitle now title).attempt) = .ok titled ∧
      let described := cmd.body.elim titled fun body => titled.setBody now body
      let ranked := cmd.priority.elim described fun priority => described.setPriority now priority
      let assigned := cmd.assignees.elim ranked fun assignees => ranked.setAssignees now assignees
      (cmd.repoId.elim (.ok assigned) fun repoId =>
        (assigned.setRepoId now (some repoId)).attempt) = .ok edited := by
  unfold editFields at result
  cases titling : cmd.title.elim (.ok task) fun title => (task.setTitle now title).attempt with
  | error error =>
      rw [titling] at result
      cases result
  | ok titled =>
      rw [titling] at result
      exact ⟨titled, rfl, result⟩

theorem editFields_retouched {now : Timestamp} {cmd : UpdateTaskCmd} {task edited : Task}
    (result : editFields now cmd task = .ok edited) : task.Retouched edited := by
  obtain ⟨titled, titling, result⟩ := editFields_ok result
  have first := Task.Retouched.elim_ok titling (.refl task) fun _ _ => .setTitle
  refine .elim_ok result ?_ fun _ _ => .setRepoId
  refine .elim (.elim (.elim first ?_ _) ?_ _) ?_ _
  · exact fun body => .setBody now body _
  · exact fun priority => .setPriority now priority _
  · exact fun assignees => .setAssignees now assignees _

theorem overrideFiling_retouched (now : Timestamp) (handle : Option RepoId) (task : Task) :
    (overrideFiling now handle task).Yields task.Retouched := by
  unfold overrideFiling
  split
  · exact .refl task
  · refine (yields_any _).bind fun origin _ => (settled_yields _).mono fun _ => .setFilingRepoId

theorem recordFiling_retouched (now : Timestamp) (filing : Option RepoId) (task : Task) :
    (recordFiling now filing task).Yields task.Retouched := by
  unfold recordFiling
  split
  · exact (settled_yields _).mono fun _ => .setFilingRepoId
  · exact .refl task

theorem recordBoardFiling_retouched (now : Timestamp) (workspace : Workspace)
    (project : Option Project) (task : Task) :
    (recordBoardFiling now workspace project task).Yields task.Retouched := by
  unfold recordBoardFiling
  split
  · exact (yields_any _).bind fun logical _ => (settled_yields _).mono fun _ => .setFilingRepoId
  · exact .refl task

theorem editTask_retouched (now : Timestamp) (cmd : UpdateTaskCmd) (before : Task) :
    (editTask now cmd before).Yields fun edited => before.Retouched edited.1 := by
  refine (settled_yields _).bind fun edited editedEq => ?_
  refine (overrideFiling_retouched now cmd.filingRepoOverride edited).bind ?_
  intro filed filedOk
  have typed := Task.Retouched.elim ((editFields_retouched editedEq).trans filedOk)
    (fun name => Task.Retouched.setIssueType now (name.map IssueType.ofString) filed) cmd.issueType
  refine (yields_any _).bind fun filing _ => ?_
  exact (recordFiling_retouched now filing _).bind fun recorded recordedRetouched =>
    typed.trans recordedRetouched

theorem planMirrorMutations_retouched (now : Timestamp) (task : Task) (contentChanged : Bool) :
    (planMirrorMutations now task contentChanged).Yields fun planned => task.Retouched planned.2 := by
  unfold planMirrorMutations
  split
  · exact .refl task
  · refine (yields_any _).bind fun workspace _ => (yields_any _).bind fun project _ => ?_
    refine (recordBoardFiling_retouched now workspace project task).bind fun filed filedRetouched => ?_
    exact (yields_any _).bind fun _ _ => filedRetouched

theorem planUpdateMutations_retouched (now : Timestamp) (task : Task) (syncBefore : SyncState)
    (converted : Bool) : (planUpdateMutations now task syncBefore converted).Yields
      fun planned => task.Retouched planned.2 := by
  unfold planUpdateMutations
  split
  · exact .refl task
  · split
    · exact (yields_any _).bind fun _ _ => .refl task
    · split
      · exact .refl task
      · exact planMirrorMutations_retouched now task true

theorem intoEntries_yields (taskId : TaskId) : ∀ mutations : List OutboxMutation,
    (intoEntries taskId mutations).Yields fun entries =>
      (∀ entry ∈ entries, entry.taskId = taskId) ∧
        entries.map OutboxEntry.mutation = mutations := by
  intro mutations
  induction mutations with
  | nil => exact ⟨fun _ member => absurd member List.not_mem_nil, rfl⟩
  | cons mutation rest ih =>
      intro id now
      refine ih.bind ?_
      rintro entries ⟨owned, rfl⟩
      exact ⟨List.forall_mem_cons.mpr ⟨rfl, owned⟩, rfl⟩

theorem planWhen_yields {holds : OutboxMutation → Prop} {owed : Bool}
    {plan : Action (Option OutboxMutation)}
    (yields : plan.Yields fun mutation => ∀ planned ∈ mutation, holds planned) :
    (planWhen owed plan).Yields fun mutation => ∀ planned ∈ mutation, holds planned := by
  cases owed
  · exact nofun
  · exact yields

theorem planPriorityMutation_rail (task : Task) :
    (planPriorityMutation task).Yields fun mutation => ∀ planned ∈ mutation,
      planned.isFieldRail = true := by
  refine (yields_any _).bind fun project _ => ?_
  split
  · exact nofun
  · exact fun planned member => setProjectPriorityMutation_rail member

theorem planIssueTypeMutation_rail (task : Task) :
    (planIssueTypeMutation task).Yields fun mutation => ∀ planned ∈ mutation,
      planned.isFieldRail = true := by
  refine (yields_any _).bind fun project _ => (yields_any _).bind fun owner _ => ?_
  exact (resolveTypeProjection_rail project owner task).mono fun _ rail planned member =>
    OutboxMutation.isFieldRail_of_type (rail planned member)

theorem railEntries_yields (before task : Task) : (railEntries before task).Yields fun entries =>
    ∀ entry ∈ entries, entry.taskId = task.id ∧ entry.mutation.isFieldRail = true := by
  have rails : ∀ {mutation : Option OutboxMutation} {entries : List OutboxEntry},
      (∀ planned ∈ mutation, planned.isFieldRail = true) →
      (∀ entry ∈ entries, entry.taskId = task.id) ∧
        entries.map OutboxEntry.mutation = mutation.toList →
      ∀ entry ∈ entries, entry.taskId = task.id ∧ entry.mutation.isFieldRail = true := by
    rintro mutation entries rail ⟨owned, planned⟩ entry member
    refine ⟨owned entry member, rail _ (Option.mem_toList.mp ?_)⟩
    rw [← planned]
    exact List.mem_map_of_mem member
  refine (planWhen_yields (planPriorityMutation_rail task)).bind fun priority priorityRail => ?_
  refine (intoEntries_yields task.id _).bind fun priorityEntries priorityPlanned => ?_
  refine (planWhen_yields (planIssueTypeMutation_rail task)).bind fun type typeRail => ?_
  refine (intoEntries_yields task.id _).bind fun typeEntries typePlanned => ?_
  exact List.forall_mem_append.mpr ⟨rails priorityRail priorityPlanned, rails typeRail typePlanned⟩

def EditWrite (write : TaskWrite) : Prop :=
  write.source = .localEdit ∧ ∃ before, write.basis = some before ∧ before.Edited write.task

def EditCall : PortOp → Prop
  | .store (.saveAll writes _) => ∀ write ∈ writes, EditWrite write
  | op => op.quiet

/-- A call of a field edit: it looks, or it saves one row with the relations that were loaded. -/
def RetouchCall : PortOp → Prop
  | .store (.saveAll writes _) => ∃ before task,
      writes = [⟨some before, task, .localEdit⟩] ∧ before.Retouched task
  | op => op.quiet

theorem editWrite {before task : Task} (edited : before.Edited task) :
    EditWrite { basis := some before, task, source := .localEdit } := ⟨rfl, before, rfl, edited⟩

theorem RetouchCall.edits {op : PortOp} (retouches : RetouchCall op) : EditCall op := by
  cases op with
  | store op => cases op with
    | saveAll writes entries =>
        obtain ⟨before, task, rfl, retouched⟩ := retouches
        exact fun _ member => List.mem_singleton.mp member ▸ editWrite retouched.toEdited
    | _ => exact retouches
  | _ => trivial

theorem calmly {α : Type} {program : Action α} (quiet : program.Every PortOp.quiet) :
    program.Every RetouchCall := by
  refine quiet.mono fun op calm => ?_
  cases op with
  | store op => cases op <;> first
    | exact calm
    | cases calm
  | _ => trivial

theorem quietly {α : Type} {program : Action α} (quiet : program.Every PortOp.quiet) :
    program.Every EditCall := (calmly quiet).mono fun _ => RetouchCall.edits

theorem saveAll_edit {writes : List TaskWrite} (each : ∀ write ∈ writes, EditWrite write)
    (entries : List OutboxEntry) :
    (query (.saveAll writes entries) : Action Unit).Every EditCall :=
  @every_query _ _ EditCall (.saveAll writes entries) each

theorem saveWithOutbox_retouch {before task : Task} (retouched : before.Retouched task)
    (entries : List OutboxEntry) :
    (saveWithOutbox (some before) task .localEdit entries).Every RetouchCall :=
  @every_query _ _ RetouchCall (.saveAll _ entries) ⟨before, task, rfl, retouched⟩

theorem update_retouch (cmd : UpdateTaskCmd) : (update cmd).Every RetouchCall := by
  refine every_bind (calmly (getTask_quiet _)) fun before => ?_
  refine every_bind (calmly (every_clock trivial)) fun now => ?_
  refine (editTask_retouched now cmd before).every_bind (calmly (editTask_quiet now cmd before)) ?_
  rintro ⟨edited, filing⟩ editedOk
  refine (planUpdateMutations_retouched now edited before.sync filing.isSome).every_bind
    (calmly (planUpdateMutations_quiet ..)) ?_
  rintro ⟨mutations, planned⟩ plannedOk
  refine every_bind (calmly (intoEntries_quiet ..)) fun entries => ?_
  refine every_bind (calmly (railEntries_quiet ..)) fun rails => ?_
  exact every_bind (saveWithOutbox_retouch (editedOk.trans plannedOk) _) fun _ => trivial

theorem transitionMirror_retouch (taskId : TaskId) (op : Timestamp → Task → Mutation)
    (edits : ∀ now task after, (op now task).attempt = .ok after → task.Retouched after) :
    (transitionMirror taskId op).Every RetouchCall := by
  refine every_bind (calmly (getTask_quiet _)) fun before => ?_
  refine every_bind (calmly (every_clock trivial)) fun now => ?_
  refine (settled_yields _).every_bind (calmly (settled_quiet _)) fun after afterEq => ?_
  split
  · trivial
  · refine (planMirrorMutations_retouched now after false).every_bind
      (calmly (planMirrorMutations_quiet ..)) ?_
    rintro ⟨mutations, planned⟩ plannedOk
    refine every_bind (calmly (intoEntries_quiet ..)) fun entries => ?_
    exact every_bind (saveWithOutbox_retouch ((edits now before after afterEq).trans plannedOk) _)
      fun _ => trivial

theorem setLifecycle_retouches {lifecycle : Lifecycle} {op : Timestamp → Task → Mutation}
    (sets : ∀ now task, op now task = (.ok (), task.setLifecycle now lifecycle)) :
    ∀ now task after, (op now task).attempt = .ok after → task.Retouched after := by
  intro now task after result
  rw [sets] at result
  cases result
  exact .setLifecycle now lifecycle task

theorem start_retouches : ∀ (_ : Timestamp) (task after : Task),
    task.start.attempt = .ok after → task.Retouched after := by
  intro _ task after result
  unfold Task.start at result
  split at result
  · cases result
    exact .refl task
  · cases result

theorem closesCycle_quiet (kind : RelationKind) (subject other : TaskId) :
    (closesCycle kind subject other).Every PortOp.quiet := by
  unfold closesCycle
  split
  · trivial
  · exact every_bind (query_quiet (.listTasks {}) rfl) fun _ => trivial

theorem relationRemoteCoords_quiet (task : Task) :
    (relationRemoteCoords task).Every PortOp.quiet := by
  unfold relationRemoteCoords
  split
  · trivial
  · exact every_bind (filingCanonicalFor_quiet task) fun _ => trivial

theorem planRelationWhen_quiet (owed : Bool) (kind : RelationKind) (add : Bool)
    (task other : Task) : (planRelationWhen owed kind add task other).Every PortOp.quiet := by
  cases owed
  · trivial
  · refine every_bind (relationRemoteCoords_quiet task) fun thisCoords => ?_
    refine every_bind (relationRemoteCoords_quiet other) fun otherCoords => ?_
    split
    · exact intoEntries_quiet _ _
    · trivial

theorem addRelation_edit (taskId : TaskId) (kind : RelationKind) (otherId : TaskId) :
    (addRelation taskId kind otherId).Every EditCall := by
  refine every_bind (quietly (getTask_quiet _)) fun task => ?_
  refine every_bind (quietly (getTask_quiet _)) fun other => ?_
  split
  · trivial
  · refine every_bind (quietly (closesCycle_quiet ..)) fun cyclic => ?_
    split
    · trivial
    · refine every_bind (quietly (every_clock trivial)) fun now => ?_
      refine every_bind (quietly (planRelationWhen_quiet ..)) fun entries => ?_
      refine every_bind (saveAll_edit ?_ entries) fun _ => trivial
      refine List.forall_mem_cons.mpr ⟨editWrite (.addRelation now kind _ task), ?_⟩
      exact fun _ member => List.mem_singleton.mp member ▸
        editWrite (.addRelation now kind.inverse _ other)

theorem removeRelation_edit (taskId : TaskId) (kind : RelationKind) (otherId : TaskId) :
    (removeRelation taskId kind otherId).Every EditCall := by
  refine every_bind (quietly (getTask_quiet _)) fun task => ?_
  refine every_bind (quietly (getTask_quiet _)) fun other => ?_
  split
  · trivial
  · refine every_bind (quietly (every_clock trivial)) fun now => ?_
    have first := Task.Edited.removeRelation now kind other.id task
    have second := Task.Edited.removeRelation now kind.inverse task.id other
    generalize task.removeRelation now kind other.id = stripped at first
    generalize other.removeRelation now kind.inverse task.id = reciprocal at second
    refine every_bind (quietly (planRelationWhen_quiet ..)) fun entries => ?_
    dsimp only
    generalize batchEq : (if stripped.1 = true then
        [TaskWrite.mk (some task) stripped.2 .localEdit] else []) ++
      (if reciprocal.1 = true then
        [TaskWrite.mk (some other) reciprocal.2 .localEdit] else []) = batch
    split
    · trivial
    · refine every_bind (saveAll_edit ?_ entries) fun _ => trivial
      intro write member
      rw [← batchEq] at member
      rcases List.mem_append.mp member with inFirst | inSecond
      · split at inFirst
        · exact List.mem_singleton.mp inFirst ▸ editWrite first
        · cases inFirst
      · split at inSecond
        · exact List.mem_singleton.mp inSecond ▸ editWrite second
        · cases inSecond

theorem stripReciprocals_edited (now : Timestamp) (taskId : TaskId) (removed : List TaskRelation)
    (other : Task) : other.Edited (stripReciprocals now taskId removed other).2 := by
  unfold stripReciprocals
  refine List.foldlRecOn (removed.filter fun relation => relation.other = other.id) _
    (motive := fun state : Bool × Task => other.Edited state.2) ?_ ?_
  · exact .refl other
  intro state edited relation _
  exact edited.trans (.removeRelation now _ taskId state.2)

theorem loadFarEnds_quiet (now : Timestamp) (taskId : TaskId) (removed : List TaskRelation) :
    ∀ others : List TaskId, (loadFarEnds now taskId removed others).Every PortOp.quiet := by
  intro others
  induction others with
  | nil => trivial
  | cons other rest ih =>
      refine every_bind (getTask_quiet _) fun far => ?_
      refine every_bind (cachedRelationCoords_quiet _) fun coords => ?_
      exact every_bind ih fun _ => trivial

theorem loadFarEnds_edited (now : Timestamp) (taskId : TaskId) (removed : List TaskRelation) :
    ∀ others : List TaskId, (loadFarEnds now taskId removed others).Yields
      fun loaded => ∀ write ∈ loaded.2, EditWrite write := by
  intro others
  induction others with
  | nil => exact fun _ member => (List.not_mem_nil member).elim
  | cons other rest ih =>
      refine (yields_any _).bind fun far _ => (yields_any _).bind fun coords _ => ?_
      refine ih.bind ?_
      rintro ⟨coordsRest, writesRest⟩ each write member
      rcases List.mem_append.mp member with first | later
      · split at first
        · exact List.mem_singleton.mp first ▸
            editWrite (stripReciprocals_edited now taskId removed far)
        · cases first
      · exact each write later

theorem clearRelations_edit (taskId : TaskId) : (clearRelations taskId).Every EditCall := by
  refine every_bind (quietly (getTask_quiet _)) fun task => ?_
  refine every_bind (quietly (every_clock trivial)) fun now => ?_
  dsimp only
  split
  · trivial
  · refine (loadFarEnds_edited now task.id _ _).every_bind (quietly (loadFarEnds_quiet ..)) ?_
    rintro ⟨coords, writes⟩ each
    refine every_bind (quietly (cachedRelationCoords_quiet _)) fun thisCoords => ?_
    refine every_bind (quietly (intoEntries_quiet ..)) fun entries => ?_
    refine every_bind (saveAll_edit ?_ entries) fun _ => trivial
    exact List.forall_mem_cons.mpr ⟨editWrite (.clearRelations now task), each⟩

theorem restoreVersion_place (now : Timestamp) (snapshot : TaskSnapshot) (task : Task) :
    let restored := restoreVersion now snapshot task
    restored.id = task.id ∧ restored.workspaceId = task.workspaceId ∧
      restored.projectItemId = task.projectItemId := by
  unfold restoreVersion Task.reconcileDirtyAgainstBaseline Task.setIssueType Task.touch
  cases snapshot.issueTypeRecorded <;> dsimp only <;> split <;> simp <;> split <;> simp

inductive FieldEdit : Action Task → Prop
  | update (cmd : UpdateTaskCmd) : FieldEdit (update cmd)
  | start (id : TaskId) : FieldEdit (start id)
  | complete (id : TaskId) : FieldEdit (complete id)
  | reopen (id : TaskId) : FieldEdit (reopen id)
  | archive (id : TaskId) : FieldEdit (archive id)

theorem FieldEdit.calls {program : Action Task} (edit : FieldEdit program) :
    program.Every RetouchCall := by
  cases edit with
  | update cmd => exact update_retouch cmd
  | start id => exact transitionMirror_retouch id _ start_retouches
  | complete id => exact transitionMirror_retouch id _ (setLifecycle_retouches fun _ _ => rfl)
  | reopen id => exact transitionMirror_retouch id _ (setLifecycle_retouches fun _ _ => rfl)
  | archive id => exact transitionMirror_retouch id _ (setLifecycle_retouches fun _ _ => rfl)

inductive Edit : Action Task → Prop
  | update (cmd : UpdateTaskCmd) : Edit (update cmd)
  | start (id : TaskId) : Edit (start id)
  | complete (id : TaskId) : Edit (complete id)
  | reopen (id : TaskId) : Edit (reopen id)
  | archive (id : TaskId) : Edit (archive id)
  | addRelation (id : TaskId) (kind : RelationKind) (other : TaskId) :
      Edit (addRelation id kind other)
  | removeRelation (id : TaskId) (kind : RelationKind) (other : TaskId) :
      Edit (removeRelation id kind other)
  | clearRelations (id : TaskId) : Edit (clearRelations id)

theorem Edit.calls {program : Action Task} (edit : Edit program) : program.Every EditCall := by
  have retouching : FieldEdit program → program.Every EditCall :=
    fun fields => fields.calls.mono fun _ => RetouchCall.edits
  cases edit with
  | update cmd => exact retouching (.update cmd)
  | start id => exact retouching (.start id)
  | complete id => exact retouching (.complete id)
  | reopen id => exact retouching (.reopen id)
  | archive id => exact retouching (.archive id)
  | addRelation id kind other => exact addRelation_edit id kind other
  | removeRelation id kind other => exact removeRelation_edit id kind other
  | clearRelations id => exact clearRelations_edit id

end TaskService

end RepoLink
