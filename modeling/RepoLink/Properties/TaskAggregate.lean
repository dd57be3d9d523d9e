import RepoLink.Domain.Task

/-!
The public operations of the `Task` aggregate taken together: what every sequence of them
keeps of the sync state and the baseline, and which row of the documented transition table
each edit follows.
-/

namespace RepoLink

/-- One public operation with its arguments. -/
inductive TaskOp where
  | stageForSync
  | promoteToRemote (remote : RemoteRef)
  | confirmSynced (source : SnapshotSource)
  | confirmSyncedFields (source : SnapshotSource) (patch : MirrorPatch)
  | adoptAlignedState (source : SnapshotSource)
  | markDirtyLocal
  | markDirtyRemote
  | markConflicted
  | linkToRemote (repoId : RepoId) (remote : RemoteRef) (forceConflict : Bool)
  | setSyncedBaseline (baseline : TaskSnapshot)
  | reconcileDirtyAgainstBaseline
  | start
  | complete
  | archive
  | reopen
  | addRelation (kind : RelationKind) (other : TaskId)
  | removeRelation (kind : RelationKind) (other : TaskId)
  | clearRelations
  | setPriority (priority : Priority)
  | setIssueType (issueType : Option IssueType)
  | setIssueTypeDefault (issueType : IssueType)
  | setProjectStatusOptionId (optionId : Option String)
  | setRepoId (repoId : Option RepoId)
  | setFilingRepoId (filingRepoId : Option RepoId)
  | forceSetFilingRepoId (filingRepoId : Option RepoId)
  | setBody (body : String)
  | setTitle (title : String)
  | setAssignees (assignees : List String)
deriving DecidableEq, Repr

namespace TaskOp

def apply (now : Timestamp) (task : Task) : TaskOp → Mutation
  | .stageForSync => task.stageForSync now
  | .promoteToRemote remote => task.promoteToRemote now remote
  | .confirmSynced source => task.confirmSynced now source
  | .confirmSyncedFields source patch => task.confirmSyncedFields now source patch
  | .adoptAlignedState source => task.adoptAlignedState now source
  | .markDirtyLocal => task.markDirtyLocal now
  | .markDirtyRemote => task.markDirtyRemote now
  | .markConflicted => task.markConflicted now
  | .linkToRemote repoId remote forceConflict =>
    (.ok (), task.linkToRemote now repoId remote forceConflict)
  | .setSyncedBaseline baseline => (.ok (), task.setSyncedBaseline baseline)
  | .reconcileDirtyAgainstBaseline => (.ok (), task.reconcileDirtyAgainstBaseline)
  | .start => task.start
  | .complete => task.complete now
  | .archive => task.archive now
  | .reopen => task.reopen now
  | .addRelation kind other => (.ok (), task.addRelation now kind other)
  | .removeRelation kind other => (.ok (), (task.removeRelation now kind other).2)
  | .clearRelations => (.ok (), (task.clearRelations now).2)
  | .setPriority priority => (.ok (), task.setPriority now priority)
  | .setIssueType issueType => (.ok (), task.setIssueType now issueType)
  | .setIssueTypeDefault issueType => (.ok (), task.setIssueTypeDefault now issueType)
  | .setProjectStatusOptionId optionId => (.ok (), (task.setProjectStatusOptionId optionId).2)
  | .setRepoId repoId => task.setRepoId now repoId
  | .setFilingRepoId filingRepoId => task.setFilingRepoId now filingRepoId
  | .forceSetFilingRepoId filingRepoId => (.ok (), task.forceSetFilingRepoId now filingRepoId)
  | .setBody body => (.ok (), task.setBody now body)
  | .setTitle title => task.setTitle now title
  | .setAssignees assignees => (.ok (), task.setAssignees now assignees)

def edits : TaskOp → Bool
  | .start | .complete | .archive | .reopen | .setBody _ | .setTitle _ | .setAssignees _ => true
  | _ => false

def repeatsLifecycle (task : Task) : TaskOp → Bool
  | .start => task.isOpen
  | .complete => task.lifecycle = .completed
  | .archive => task.lifecycle = .notPlanned
  | .reopen => task.lifecycle = .reopened
  | _ => false

end TaskOp

def Mutation.Checked (task : Task) (mutation : Mutation) : Prop :=
  ∀ error, mutation.1 = .error error → mutation.2 = task

theorem Mutation.Checked.refused {task : Task} (error : DomainError) :
    Mutation.Checked task (.error error, task) := fun _ _ => rfl

theorem Mutation.Checked.accepted {task : Task} (after : Task) :
    Mutation.Checked task (.ok (), after) := fun _ failed => nomatch failed

/-- The tasks that finitely many public operations reach, each at its own clock reading. -/
inductive Task.Reachable : Task → Prop where
  | drafted {now id workspaceId repoId title task}
      (created : Task.newDraft now id workspaceId repoId title = .ok task) : Reachable task
  | imported {now id workspaceId repoId remote title body assignees closed task}
      (created : Task.importMirror now id workspaceId repoId remote title body assignees closed
        = .ok task) : Reachable task
  | applied {task} (reached : Reachable task) (now : Timestamp) (op : TaskOp) :
      Reachable (op.apply now task).2

def transitionTable : SyncState → Bool → Option SyncState
  | .synced, true => some .dirtyLocal
  | .synced, false => some .synced
  | .dirtyLocal, false => some .synced
  | .dirtyLocal, true => some .dirtyLocal
  | .dirtyRemote, true => some .conflict
  | .dirtyRemote, false => none
  | .conflict, _ => some .conflict
  | .staged, _ => some .staged
  | .localOnly, _ => some .localOnly

/-- The state the table gives an edit from `before` to `after`; without a baseline, and where
the table has no row, nothing moves. -/
def Task.tabledSync (before after : Task) : SyncState :=
  match before.syncedBaseline with
  | none => before.sync
  | some _ => (transitionTable before.sync (!after.diffAgainstBaseline.isEmpty)).getD before.sync

structure Task.Aggregate (task : Task) : Prop where
  dirty : task.sync = .dirtyLocal ∨ task.sync = .dirtyRemote → task.syncedBaseline.isSome
  synced : task.sync = .synced →
    task.syncedBaseline.isSome ∧ task.diffAgainstBaseline.isEmpty = true

namespace Task

theorem diffAgainstBaseline_isEmpty {task : Task} {baseline : TaskSnapshot}
    (held : task.syncedBaseline = some baseline) :
    task.diffAgainstBaseline.isEmpty = !task.differsFromBaseline baseline := by
  simp only [diffAgainstBaseline, held, MirrorPatch.isEmpty, differsFromBaseline, mirroredFields,
    List.any_cons, List.any_nil, Bool.or_false, Bool.not_or, apply_ite Option.isNone,
    Option.isNone_some, Option.isNone_none]
  cases MirrorField.title.differs task baseline <;> cases MirrorField.body.differs task baseline <;>
    cases MirrorField.status.differs task baseline <;>
    cases MirrorField.assignees.differs task baseline <;> rfl

theorem differsFromBaseline_snapshotView (now : Timestamp) (source : SnapshotSource) (task : Task) :
    ({ task with syncedBaseline := some (task.snapshotView now source) }).differsFromBaseline
      (task.snapshotView now source) = false := by
  simp [differsFromBaseline, mirroredFields, MirrorField.differs, snapshotView,
    assigneesEqual_self]

theorem aggregate_realigned (now : Timestamp) (source : SnapshotSource) (task : Task) :
    ({ task with syncedBaseline := some (task.snapshotView now source) }).Aggregate where
  dirty _ := rfl
  synced _ := by
    refine ⟨rfl, ?_⟩
    rw [diffAgainstBaseline_isEmpty rfl, differsFromBaseline_snapshotView]
    rfl

theorem aggregate_of_ne_synced {task : Task} (other : task.sync ≠ .synced)
    (held : task.sync = .dirtyLocal ∨ task.sync = .dirtyRemote → task.syncedBaseline.isSome) :
    task.Aggregate where
  dirty := held
  synced aligned := absurd aligned other

/-- Operations beside the mirrored content. -/
structure SameMirror (before after : Task) : Prop where
  title : after.title = before.title
  body : after.body = before.body
  lifecycle : after.lifecycle = before.lifecycle
  assignees : after.assignees = before.assignees
  sync : after.sync = before.sync
  syncedBaseline : after.syncedBaseline = before.syncedBaseline

theorem SameMirror.diff {before after : Task} (same : before.SameMirror after) :
    after.diffAgainstBaseline = before.diffAgainstBaseline := by
  simp only [diffAgainstBaseline, MirrorField.differs, same.syncedBaseline, same.title, same.body,
    same.lifecycle, same.assignees]
  rfl

theorem Aggregate.same {before after : Task} (invariant : before.Aggregate)
    (same : before.SameMirror after) : after.Aggregate where
  dirty := by
    rw [same.sync, same.syncedBaseline]
    exact invariant.dirty
  synced := by
    rw [same.sync, same.syncedBaseline, same.diff]
    exact invariant.synced

theorem reconcile_syncedBaseline (task : Task) :
    task.reconcileDirtyAgainstBaseline.syncedBaseline = task.syncedBaseline := by
  unfold reconcileDirtyAgainstBaseline
  split <;> rfl

theorem reconcile_diff (task : Task) :
    task.reconcileDirtyAgainstBaseline.diffAgainstBaseline = task.diffAgainstBaseline := by
  unfold reconcileDirtyAgainstBaseline
  split <;> rfl

theorem reconcile_sync {task : Task} {baseline : TaskSnapshot}
    (held : task.syncedBaseline = some baseline) :
    task.reconcileDirtyAgainstBaseline.sync =
      (transitionTable task.sync (!task.diffAgainstBaseline.isEmpty)).getD task.sync := by
  rw [diffAgainstBaseline_isEmpty held, Bool.not_not]
  simp only [reconcileDirtyAgainstBaseline, held]
  cases task.sync <;> cases task.differsFromBaseline baseline <;> rfl

theorem reconcile_aggregate {task : Task}
    (held : task.sync = .synced ∨ task.sync = .dirtyLocal ∨ task.sync = .dirtyRemote →
      task.syncedBaseline.isSome) :
    task.reconcileDirtyAgainstBaseline.Aggregate := by
  cases found : task.syncedBaseline with
  | none =>
      have same : task.reconcileDirtyAgainstBaseline = task := by
        simp only [reconcileDirtyAgainstBaseline, found]
      rw [found] at held
      rw [same]
      exact ⟨fun dirty => absurd (held (.inr dirty)) (by simp),
        fun synced => absurd (held (.inl synced)) (by simp)⟩
  | some baseline =>
      have moved := reconcile_sync found
      refine ⟨fun _ => by rw [reconcile_syncedBaseline, found]; rfl, fun synced => ?_⟩
      refine ⟨by rw [reconcile_syncedBaseline, found]; rfl, ?_⟩
      rw [reconcile_diff]
      rw [synced] at moved
      -- only an empty diff moves a task to `Synced` or leaves it there
      cases differing : task.diffAgainstBaseline.isEmpty with
      | true => rfl
      | false =>
          rw [differing] at moved
          cases before : task.sync <;> rw [before] at moved <;> cases moved

theorem Aggregate.held {task : Task} (invariant : task.Aggregate)
    (claims : task.sync = .synced ∨ task.sync = .dirtyLocal ∨ task.sync = .dirtyRemote) :
    task.syncedBaseline.isSome := by
  rcases claims with synced | dirty
  · exact (invariant.synced synced).1
  · exact invariant.dirty dirty

theorem linkToRemote_unforced (now : Timestamp) (repoId : RepoId) (remote : RemoteRef)
    (task : Task) : task.SameMirror (task.linkToRemote now repoId remote false) :=
  ⟨rfl, rfl, rfl, rfl, rfl, rfl⟩

theorem addRelation_same (now : Timestamp) (kind : RelationKind) (other : TaskId) (task : Task) :
    task.SameMirror (task.addRelation now kind other) := by
  unfold addRelation
  split <;> exact ⟨rfl, rfl, rfl, rfl, rfl, rfl⟩

theorem removeRelation_same (now : Timestamp) (kind : RelationKind) (other : TaskId)
    (task : Task) : task.SameMirror (task.removeRelation now kind other).2 := by
  unfold removeRelation
  dsimp only
  split <;> exact ⟨rfl, rfl, rfl, rfl, rfl, rfl⟩

theorem clearRelations_same (now : Timestamp) (task : Task) :
    task.SameMirror (task.clearRelations now).2 := by
  unfold clearRelations
  split <;> exact ⟨rfl, rfl, rfl, rfl, rfl, rfl⟩

theorem setPriority_same (now : Timestamp) (priority : Priority) (task : Task) :
    task.SameMirror (task.setPriority now priority) := by
  unfold setPriority
  split <;> exact ⟨rfl, rfl, rfl, rfl, rfl, rfl⟩

theorem setIssueType_same (now : Timestamp) (issueType : Option IssueType) (task : Task) :
    task.SameMirror (task.setIssueType now issueType) := by
  unfold setIssueType
  split <;> exact ⟨rfl, rfl, rfl, rfl, rfl, rfl⟩

theorem setIssueTypeDefault_same (now : Timestamp) (issueType : IssueType) (task : Task) :
    task.SameMirror (task.setIssueTypeDefault now issueType) := by
  unfold setIssueTypeDefault
  split <;> exact ⟨rfl, rfl, rfl, rfl, rfl, rfl⟩

theorem setProjectStatusOptionId_same (optionId : Option String) (task : Task) :
    task.SameMirror (task.setProjectStatusOptionId optionId).2 := by
  unfold setProjectStatusOptionId
  split <;> exact ⟨rfl, rfl, rfl, rfl, rfl, rfl⟩

theorem setRepoId_same (now : Timestamp) (repoId : Option RepoId) (task : Task) :
    task.SameMirror (task.setRepoId now repoId).2 := by
  unfold setRepoId
  split
  · exact ⟨rfl, rfl, rfl, rfl, rfl, rfl⟩
  · split <;> exact ⟨rfl, rfl, rfl, rfl, rfl, rfl⟩

theorem setFilingRepoId_same (now : Timestamp) (filingRepoId : Option RepoId) (task : Task) :
    task.SameMirror (task.setFilingRepoId now filingRepoId).2 := by
  unfold setFilingRepoId
  split
  · exact ⟨rfl, rfl, rfl, rfl, rfl, rfl⟩
  · split <;> exact ⟨rfl, rfl, rfl, rfl, rfl, rfl⟩

theorem forceSetFilingRepoId_same (now : Timestamp) (filingRepoId : Option RepoId)
    (task : Task) : task.SameMirror (task.forceSetFilingRepoId now filingRepoId) := by
  unfold forceSetFilingRepoId
  split <;> exact ⟨rfl, rfl, rfl, rfl, rfl, rfl⟩

theorem stageForSync_aggregate (now : Timestamp) {task : Task} (invariant : task.Aggregate) :
    (task.stageForSync now).2.Aggregate := by
  unfold stageForSync
  split
  · exact aggregate_of_ne_synced nofun nofun
  · exact aggregate_of_ne_synced nofun nofun
  · exact invariant

theorem promoteToRemote_aggregate (now : Timestamp) (remote : RemoteRef) {task : Task}
    (invariant : task.Aggregate) : (task.promoteToRemote now remote).2.Aggregate := by
  unfold promoteToRemote
  split
  · exact invariant
  · exact aggregate_realigned now .promote _

theorem confirmSynced_aggregate (now : Timestamp) (source : SnapshotSource) {task : Task}
    (invariant : task.Aggregate) : (task.confirmSynced now source).2.Aggregate := by
  unfold confirmSynced
  split
  · exact invariant
  · split
    · exact aggregate_realigned now source _
    · exact aggregate_realigned now source _
    · exact aggregate_realigned now source _
    · exact invariant

theorem confirmSyncedFields_aggregate (now : Timestamp) (source : SnapshotSource)
    (patch : MirrorPatch) {task : Task} (invariant : task.Aggregate) :
    (task.confirmSyncedFields now source patch).2.Aggregate := by
  unfold confirmSyncedFields
  split
  · exact invariant
  · split
    · exact invariant
    · split
      · exact invariant
      · dsimp only
        exact reconcile_aggregate fun _ => rfl

theorem adoptAlignedState_aggregate (now : Timestamp) (source : SnapshotSource) {task : Task}
    (invariant : task.Aggregate) : (task.adoptAlignedState now source).2.Aggregate := by
  unfold adoptAlignedState
  split
  · exact invariant
  · split
    · exact aggregate_realigned now source _
    · exact aggregate_realigned now source _
    · exact aggregate_realigned now source _
    · exact aggregate_realigned now source _
    · exact invariant

theorem markDirtyLocal_aggregate (now : Timestamp) {task : Task} (invariant : task.Aggregate) :
    (task.markDirtyLocal now).2.Aggregate := by
  unfold markDirtyLocal
  split
  next synced => exact aggregate_of_ne_synced nofun fun _ => (invariant.synced synced).1
  next => exact invariant

theorem markDirtyRemote_aggregate (now : Timestamp) {task : Task} (invariant : task.Aggregate) :
    (task.markDirtyRemote now).2.Aggregate := by
  unfold markDirtyRemote
  split
  next synced => exact aggregate_of_ne_synced nofun fun _ => (invariant.synced synced).1
  next => exact invariant

theorem markConflicted_aggregate (now : Timestamp) {task : Task} (invariant : task.Aggregate) :
    (task.markConflicted now).2.Aggregate := by
  unfold markConflicted
  split
  · exact aggregate_of_ne_synced nofun nofun
  · exact aggregate_of_ne_synced nofun nofun
  · exact aggregate_of_ne_synced nofun nofun
  · exact invariant

theorem linkToRemote_aggregate (now : Timestamp) (repoId : RepoId) (remote : RemoteRef)
    (forceConflict : Bool) {task : Task} (invariant : task.Aggregate) :
    (task.linkToRemote now repoId remote forceConflict).Aggregate := by
  cases forceConflict with
  | false => exact invariant.same (linkToRemote_unforced now repoId remote task)
  | true => exact aggregate_of_ne_synced nofun nofun

theorem setLifecycle_aggregate (now : Timestamp) (lifecycle : Lifecycle) {task : Task}
    (invariant : task.Aggregate) : (task.setLifecycle now lifecycle).Aggregate := by
  unfold setLifecycle
  split
  · exact invariant
  · exact reconcile_aggregate invariant.held

theorem reconcile_tabled {task edited : Task} (sync : edited.sync = task.sync)
    (baseline : edited.syncedBaseline = task.syncedBaseline) :
    edited.reconcileDirtyAgainstBaseline.sync =
      task.tabledSync edited.reconcileDirtyAgainstBaseline := by
  rw [tabledSync, ← sync, ← baseline, reconcile_diff]
  cases held : edited.syncedBaseline with
  | none => simp only [reconcileDirtyAgainstBaseline, held]
  | some baseline => exact reconcile_sync held

theorem setLifecycle_tabled (now : Timestamp) {lifecycle : Lifecycle} {task : Task}
    (fresh : task.lifecycle ≠ lifecycle) :
    (task.setLifecycle now lifecycle).sync =
      task.tabledSync (task.setLifecycle now lifecycle) := by
  rw [setLifecycle, if_neg fresh]
  exact reconcile_tabled rfl rfl

theorem start_eq (task : Task) : task.start.2 = task := by
  unfold start
  split <;> rfl

theorem setTitle_aggregate (now : Timestamp) (title : String) {task : Task}
    (invariant : task.Aggregate) : (task.setTitle now title).2.Aggregate := by
  unfold setTitle
  split
  · exact invariant
  · exact reconcile_aggregate invariant.held

end Task

namespace TaskOp

theorem apply_aggregate (now : Timestamp) (op : TaskOp) {task : Task}
    (invariant : task.Aggregate) : (op.apply now task).2.Aggregate := by
  cases op with
  | stageForSync => exact Task.stageForSync_aggregate now invariant
  | promoteToRemote remote => exact Task.promoteToRemote_aggregate now remote invariant
  | confirmSynced source => exact Task.confirmSynced_aggregate now source invariant
  | confirmSyncedFields source patch =>
      exact Task.confirmSyncedFields_aggregate now source patch invariant
  | adoptAlignedState source => exact Task.adoptAlignedState_aggregate now source invariant
  | markDirtyLocal => exact Task.markDirtyLocal_aggregate now invariant
  | markDirtyRemote => exact Task.markDirtyRemote_aggregate now invariant
  | markConflicted => exact Task.markConflicted_aggregate now invariant
  | linkToRemote repoId remote forceConflict =>
      exact Task.linkToRemote_aggregate now repoId remote forceConflict invariant
  | setSyncedBaseline baseline =>
      dsimp only [apply, Task.setSyncedBaseline]
      exact Task.reconcile_aggregate fun _ => rfl
  | reconcileDirtyAgainstBaseline => exact Task.reconcile_aggregate invariant.held
  | start =>
      rw [apply, Task.start_eq]
      exact invariant
  | complete => exact Task.setLifecycle_aggregate now .completed invariant
  | archive => exact Task.setLifecycle_aggregate now .notPlanned invariant
  | reopen => exact Task.setLifecycle_aggregate now .reopened invariant
  | addRelation kind other => exact invariant.same (task.addRelation_same now kind other)
  | removeRelation kind other => exact invariant.same (task.removeRelation_same now kind other)
  | clearRelations => exact invariant.same (task.clearRelations_same now)
  | setPriority priority => exact invariant.same (task.setPriority_same now priority)
  | setIssueType issueType => exact invariant.same (task.setIssueType_same now issueType)
  | setIssueTypeDefault issueType =>
      exact invariant.same (task.setIssueTypeDefault_same now issueType)
  | setProjectStatusOptionId optionId =>
      exact invariant.same (task.setProjectStatusOptionId_same optionId)
  | setRepoId repoId => exact invariant.same (task.setRepoId_same now repoId)
  | setFilingRepoId filingRepoId =>
      exact invariant.same (task.setFilingRepoId_same now filingRepoId)
  | forceSetFilingRepoId filingRepoId =>
      exact invariant.same (task.forceSetFilingRepoId_same now filingRepoId)
  | setBody body => exact Task.reconcile_aggregate invariant.held
  | setTitle title => exact Task.setTitle_aggregate now title invariant
  | setAssignees assignees => exact Task.reconcile_aggregate invariant.held

/-- Every operation checks before it writes. -/
theorem apply_checked (now : Timestamp) (op : TaskOp) (task : Task) :
    Mutation.Checked task (op.apply now task) := by
  cases op with
  | stageForSync =>
      rw [apply, Task.stageForSync]
      split <;> first | exact .refused _ | exact .accepted _
  | promoteToRemote remote =>
      rw [apply, Task.promoteToRemote]
      split <;> first | exact .refused _ | exact .accepted _
  | confirmSynced source =>
      rw [apply, Task.confirmSynced]
      split
      · exact .refused _
      · split <;> first | exact .refused _ | exact .accepted _
  | confirmSyncedFields source patch =>
      rw [apply, Task.confirmSyncedFields]
      split
      · exact .refused _
      · split
        · exact .refused _
        · split <;> first | exact .refused _ | exact .accepted _
  | adoptAlignedState source =>
      rw [apply, Task.adoptAlignedState]
      split
      · exact .refused _
      · split <;> first | exact .refused _ | exact .accepted _
  | markDirtyLocal =>
      rw [apply, Task.markDirtyLocal]
      split <;> first | exact .refused _ | exact .accepted _
  | markDirtyRemote =>
      rw [apply, Task.markDirtyRemote]
      split <;> first | exact .refused _ | exact .accepted _
  | markConflicted =>
      rw [apply, Task.markConflicted]
      split <;> first | exact .refused _ | exact .accepted _
  | start =>
      rw [apply, Task.start]
      split <;> first | exact .refused _ | exact .accepted _
  | setRepoId repoId =>
      rw [apply, Task.setRepoId]
      split
      · exact .accepted _
      · split <;> first | exact .refused _ | exact .accepted _
  | setFilingRepoId filingRepoId =>
      rw [apply, Task.setFilingRepoId]
      split
      · exact .accepted _
      · split <;> first | exact .refused _ | exact .accepted _
  | setTitle title =>
      rw [apply, Task.setTitle]
      split <;> first | exact .refused _ | exact .accepted _
  | _ => exact .accepted _

theorem apply_repeated (now : Timestamp) {op : TaskOp} {task : Task}
    (repeated : op.repeatsLifecycle task = true) : op.apply now task = (.ok (), task) := by
  cases op with
  | start => simpa only [apply, Task.start, repeatsLifecycle, if_pos] using if_pos repeated
  | complete =>
      have already : task.lifecycle = .completed := of_decide_eq_true repeated
      rw [apply, Task.complete, Task.setLifecycle, if_pos already]
  | archive =>
      have already : task.lifecycle = .notPlanned := of_decide_eq_true repeated
      rw [apply, Task.archive, Task.setLifecycle, if_pos already]
  | reopen =>
      have already : task.lifecycle = .reopened := of_decide_eq_true repeated
      rw [apply, Task.reopen, Task.setLifecycle, if_pos already]
  | _ => cases repeated

theorem apply_tabled (now : Timestamp) {op : TaskOp} {task : Task} (edit : op.edits = true)
    (fresh : op.repeatsLifecycle task = false) (done : (op.apply now task).1 = .ok ()) :
    (op.apply now task).2.sync = task.tabledSync (op.apply now task).2 := by
  cases op with
  | start =>
      have closed : ¬task.isOpen = true := ne_true_of_eq_false fresh
      rw [apply, Task.start, if_neg closed] at done
      cases done
  | complete => exact Task.setLifecycle_tabled now (of_decide_eq_false fresh)
  | archive => exact Task.setLifecycle_tabled now (of_decide_eq_false fresh)
  | reopen => exact Task.setLifecycle_tabled now (of_decide_eq_false fresh)
  | setBody body => exact Task.reconcile_tabled rfl rfl
  | setTitle title =>
      rw [apply, Task.setTitle] at done ⊢
      split at done
      next => cases done
      next named =>
        rw [if_neg named]
        exact Task.reconcile_tabled rfl rfl
  | setAssignees assignees => exact Task.reconcile_tabled rfl rfl
  | _ => cases edit

end TaskOp

namespace Task

theorem newDraft_aggregate {now : Timestamp} {id : TaskId} {workspaceId : WorkspaceId}
    {repoId : Option RepoId} {title : String} {task : Task}
    (created : newDraft now id workspaceId repoId title = .ok task) : task.Aggregate := by
  rw [newDraft] at created
  split at created
  · cases created
  · cases created
    exact aggregate_of_ne_synced nofun nofun

theorem importMirror_aggregate {now : Timestamp} {id : TaskId} {workspaceId : WorkspaceId}
    {repoId : Option RepoId} {remote : RemoteRef} {title body : String}
    {assignees : List String} {closed : Bool} {task : Task}
    (created : importMirror now id workspaceId repoId remote title body assignees closed
      = .ok task) : task.Aggregate := by
  rw [importMirror] at created
  split at created
  · cases created
  · cases created
    exact aggregate_realigned now .pull _

theorem Reachable.aggregate {task : Task} (reached : task.Reachable) : task.Aggregate := by
  induction reached with
  | drafted created => exact newDraft_aggregate created
  | imported created => exact importMirror_aggregate created
  | applied _ now op invariant => exact op.apply_aggregate now invariant

end Task

/-- The aggregate over every sequence of public operations: the baseline invariant at every
reached task, the documented table for every content or lifecycle edit that is not a repeated
lifecycle verb (which writes nothing), and no partial failure. -/
theorem reachable_task_invariant (task : Task) (reached : task.Reachable) :
    task.Aggregate ∧
    ∀ now (op : TaskOp),
      (op.edits = true → (op.apply now task).1 = .ok () →
        if op.repeatsLifecycle task = true then (op.apply now task).2 = task
        else (op.apply now task).2.sync = task.tabledSync (op.apply now task).2) ∧
      ∀ error, (op.apply now task).1 = .error error → (op.apply now task).2 = task := by
  refine ⟨reached.aggregate, fun now op => ⟨fun edit done => ?_, op.apply_checked now task⟩⟩
  split
  next repeated => rw [TaskOp.apply_repeated now repeated]
  next fresh => exact op.apply_tabled now edit (eq_false_of_ne_true fresh) done

def markedMirror : Task :=
  { id := ⟨1⟩, workspaceId := ⟨1⟩, repoId := none, filingRepoId := none, title := "title", body := ""
    lifecycle := .completed, sync := .dirtyLocal, priority := .p3, issueType := none
    issueTypePending := false, assignees := [], remote := some ⟨"github", "o/r#1", none⟩
    relations := [], comments := [], projectItemId := none, projectStatusOptionId := none
    syncedAt := none, hash := "", createdAt := ⟨1⟩, updatedAt := ⟨2⟩
    syncedBaseline := some
      { taskId := ⟨1⟩, version := 0, title := "title", body := "", lifecycle := .completed
        syncState := .synced, priority := .p3, issueType := none, issueTypeRecorded := true
        assignees := [], remote := some ⟨"github", "o/r#1", none⟩, repoId := none
        repoIdRecorded := true, filingRepoId := none, source := .pull, capturedAt := ⟨1⟩ } }

theorem importedMirror_created :
    Task.importMirror ⟨1⟩ ⟨1⟩ ⟨1⟩ none ⟨"github", "o/r#1", none⟩ "title" "" [] true =
      .ok { markedMirror with sync := .synced, updatedAt := ⟨1⟩ } := by
  decide

theorem markedMirror_reached : markedMirror.Reachable :=
  .applied (.imported importedMirror_created) ⟨2⟩ .markDirtyLocal

/-- Completing it again stays `DirtyLocal`, where the table moves an edit that does not
differ from the baseline to `Synced`. -/
theorem repeated_complete_stays_dirty :
    markedMirror.Reachable ∧ TaskOp.complete.edits = true ∧
    (TaskOp.complete.apply ⟨3⟩ markedMirror).1 = .ok () ∧
    (TaskOp.complete.apply ⟨3⟩ markedMirror).2.sync = .dirtyLocal ∧
    markedMirror.tabledSync (TaskOp.complete.apply ⟨3⟩ markedMirror).2 = .synced :=
  ⟨markedMirror_reached, rfl, rfl, rfl, by decide⟩

theorem reachable_task_invariant_marked : markedMirror.Aggregate :=
  (reachable_task_invariant markedMirror markedMirror_reached).1

end RepoLink
