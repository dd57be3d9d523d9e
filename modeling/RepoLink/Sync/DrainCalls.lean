import RepoLink.Ports.Entries
import RepoLink.Sync.Drainer
import RepoLink.Sync.Planning

/-!
The whole rows that a drain saves: a confirmed update, a board item or a converted issue written
back, a surfaced conflict. Everything else that a drain does is a read, a targeted statement or
an outbox statement.
-/

namespace RepoLink

open Effects Program

def Saves (row : TaskWrite → Prop) : PortOp → Prop
  | .store op => ∀ write ∈ op.writes, row write
  | _ => True

theorem Saves.ofQuiet {row : TaskWrite → Prop} {op : PortOp} (quiet : op.quiet) :
    Saves row op := by
  cases op with
  | store op =>
      intro write member
      rw [(StoreOp.reads_only quiet).1] at member
      cases member
  | _ => trivial

theorem saves_quietly {row : TaskWrite → Prop} {ε α : Type} {program : Service ε α}
    (quiet : program.Every PortOp.quiet) : program.Every (Saves row) :=
  quiet.mono fun _ => Saves.ofQuiet

theorem saves_nothing {row : TaskWrite → Prop} {op : StoreOp} (writeless : op.writes = []) :
    Saves row (.store op) := by
  intro write member
  rw [writeless] at member
  cases member

theorem saves_query {row : TaskWrite → Prop} {ε : Type} [OfPortError ε] (op : StoreOp)
    (writeless : op.writes = []) : (query op : Service ε op.Answer).Every (Saves row) :=
  @every_query ε _ (Saves row) op (saves_nothing writeless)

theorem Task.confirmSyncedFields_frame {now : Timestamp} {source : SnapshotSource}
    {patch : MirrorPatch} {task after : Task}
    (confirms : (task.confirmSyncedFields now source patch).attempt = .ok after) :
    ∃ syncedBaseline sync updatedAt, after = { task with syncedBaseline, sync, updatedAt } := by
  unfold confirmSyncedFields at confirms
  split at confirms
  · cases confirms
  · split at confirms
    · cases confirms
    · split at confirms
      · cases confirms
      · cases confirms
        exact ⟨_, _, _, rfl⟩

theorem Task.confirmSyncedFields_settles {now : Timestamp} {source : SnapshotSource}
    {patch : MirrorPatch} {task after : Task}
    (confirms : (task.confirmSyncedFields now source patch).attempt = .ok after) :
    after.sync ≠ .conflict := by
  unfold confirmSyncedFields at confirms
  split at confirms
  · cases confirms
  · split at confirms
    · cases confirms
    · split at confirms
      · cases confirms
      · cases confirms
        unfold reconcileDirtyAgainstBaseline
        dsimp only [touch]
        split <;> simp_all

theorem Task.markConflicted_frame {now : Timestamp} {task after : Task}
    (marks : (task.markConflicted now).attempt = .ok after) :
    ∃ sync updatedAt, after = { task with sync, updatedAt } := by
  unfold markConflicted at marks
  split at marks <;> cases marks <;> exact ⟨_, _, rfl⟩

def OutboxMutation.spawns : OutboxMutation → Bool
  | .addItem .. | .createDraftIssue .. | .convertDraftToIssue .. => true
  | _ => false

theorem OutboxMutation.isFieldRail_spawns {mutation : OutboxMutation}
    (rail : mutation.isFieldRail = true) : mutation.spawns = false := by
  cases mutation <;> first | rfl | cases rail

theorem OutboxMutation.isTypeRail_spawns {mutation : OutboxMutation}
    (rail : mutation.isTypeRail = true) : mutation.spawns = false :=
  isFieldRail_spawns (isFieldRail_of_type rail)

/-- The issue that an `UpdateRemote` entry is addressed to. -/
def OutboxMutation.target : OutboxMutation → Option IssueCoords
  | .updateRemote canonicalRepo remoteId .. => some (canonicalRepo, remoteId)
  | _ => none

def ProviderOp.updates : ProviderOp → Bool
  | .updateRemote _ => true
  | _ => false

theorem buildUpdateFromPatch_target {patch : MirrorPatch} {canonicalRepo remoteId : String}
    {request : RemoteTaskUpdate}
    (built : buildUpdateFromPatch patch canonicalRepo remoteId = some request) :
    request.canonicalRepo = canonicalRepo ∧ request.remoteId = remoteId := by
  unfold buildUpdateFromPatch at built
  split at built
  · cases built
  · split at built
    cases built
    exact ⟨rfl, rfl⟩

namespace OutboxDrainer

inductive DrainWrite : TaskWrite → Prop
  | confirmed {now : Timestamp} {task after : Task} (admitted : confirmable task.sync = true)
      (confirms : (task.confirmSyncedFields now .push task.diffAgainstBaseline).attempt =
        .ok after) : DrainWrite ⟨some task, after, .push⟩
  | attached (task : Task) (itemId : String) :
      DrainWrite ⟨some task, { task with projectItemId := some itemId }, .localEdit⟩
  | converted (task : Task) (remote : RemoteRef) :
      DrainWrite ⟨some task, { task with remote := some remote }, .localEdit⟩
  | surfaced {now : Timestamp} {task after : Task}
      (marks : (task.markConflicted now).attempt = .ok after) :
      DrainWrite ⟨some task, after, .localEdit⟩

/-- A row that applying an entry saves: the sync state becomes a conflict only afterwards. -/
def Applied (write : TaskWrite) : Prop :=
  DrainWrite write ∧ (write.task.sync = .conflict → ∃ basis, write.basis = some basis ∧
    basis.sync = .conflict)

structure Enqueues (allowed : PortOp → Prop) : Prop where
  reads : ∀ op : StoreOp, op.reads = true → allowed (.store op)
  now : allowed .now
  entryId : allowed .freshEntryId
  enqueue : ∀ entry, entry.mutation.spawns = false → allowed (.store (.enqueue entry))

section Planners

variable {allowed : PortOp → Prop}

theorem resolveProjectTolerant_every
    (reads : ∀ op : StoreOp, op.reads = true → allowed (.store op)) (task : Task) :
    (resolveProjectTolerant task).Every allowed := by
  refine every_bind (every_lookup (reads _ rfl)) fun workspace => ?_
  split
  · trivial
  · split
    · trivial
    · exact every_lookup (reads _ rfl)

theorem workspaceStillTargetsProject_every
    (reads : ∀ op : StoreOp, op.reads = true → allowed (.store op)) (taskId : TaskId)
    (projectNodeId : String) : (workspaceStillTargetsProject taskId projectNodeId).Every allowed := by
  refine every_bind (every_query (reads _ rfl)) fun task => ?_
  refine every_bind (every_query (reads (.getWorkspace _) rfl)) fun workspace => ?_
  split
  · trivial
  · exact every_bind (every_query (reads (.getProject _) rfl)) fun _ => trivial

theorem filingOwnerLogin_every
    (reads : ∀ op : StoreOp, op.reads = true → allowed (.store op)) (task : Task) :
    (filingOwnerLogin task).Every allowed := by
  have locates : ∀ op : StoreOp, op.locates = true → allowed (.store op) :=
    fun op found => reads op (StoreOp.reads_of_locates found)
  refine every_bind (workspaceFilingDefault_every locates _) fun workspaceDefault => ?_
  refine every_bind (logicalOriginFor_every locates task) fun logical => ?_
  split
  · trivial
  · exact every_bind (every_lookup (reads _ rfl)) fun _ => trivial

theorem planPendingIssueType_every
    (reads : ∀ op : StoreOp, op.reads = true → allowed (.store op)) (task : Task) :
    (planPendingIssueType task).Every allowed := by
  refine every_bind (every_attempt ?_) fun _ => trivial
  refine every_bind (resolveProjectTolerant_every reads task) fun project => ?_
  dsimp only
  split
  · refine every_bind (filingOwnerLogin_every reads task) fun owner => ?_
    exact resolveTypeProjection_every reads project owner task
  · exact resolveTypeProjection_every reads project none task

theorem planPendingIssueType_rail (task : Task) : (planPendingIssueType task).Yields
    fun mutation => ∀ planned ∈ mutation, planned.isTypeRail = true := by
  have planned : Yields (fun mutation => ∀ planned ∈ mutation, planned.isTypeRail = true)
      (do
        let project ← resolveProjectTolerant task
        let owner ← if task.issueType.isSome then filingOwnerLogin task else pure none
        resolveTypeProjection project owner task : Service SyncError (Option OutboxMutation)) :=
    (yields_any _).bind fun project _ => by
      dsimp only
      split
      · exact (yields_any _).bind fun owner _ => resolveTypeProjection_rail project owner task
      · exact resolveTypeProjection_rail project none task
  refine planned.attempt.bind fun result rail => ?_
  cases result with
  | ok mutation => exact rail mutation rfl
  | error error => exact nofun

theorem newEntry_yields (taskId : TaskId) (mutation : OutboxMutation) :
    (newEntry taskId mutation : Action OutboxEntry).Yields fun entry => entry.mutation = mutation :=
  fun _ _ => rfl

theorem enqueueMutation_every (enqueues : Enqueues allowed) (taskId : TaskId)
    {mutation : OutboxMutation} (leaf : mutation.spawns = false) :
    (enqueueMutation taskId mutation).Every allowed := by
  refine (newEntry_yields taskId mutation).every_bind ?_ fun entry same =>
    every_query (enqueues.enqueue entry (same ▸ leaf))
  exact every_bind (every_callPort enqueues.entryId) fun id =>
    every_bind (every_clock enqueues.now) fun _ => trivial

theorem setProjectPriorityMutation_spawns {project : Project} {task : Task}
    {mutation : OutboxMutation}
    (planned : setProjectPriorityMutation project task = some mutation) :
    mutation.spawns = false :=
  OutboxMutation.isFieldRail_spawns (setProjectPriorityMutation_rail planned)

theorem mem_statusFollowUps {project : Project} {itemId : String} {task : Task}
    {mutation : OutboxMutation} (member : mutation ∈ statusFollowUps project itemId task) :
    (∃ field option, mutation = .setProjectStatus project.id.value itemId field option) ∨
      setProjectPriorityMutation project task = some mutation ∨
      setProjectTypeMutation project task = some mutation := by
  unfold statusFollowUps at member
  rcases List.mem_append.mp member with earlier | type
  · rcases List.mem_append.mp earlier with status | priority
    · have planned := Option.mem_toList.mp status
      obtain ⟨field, _, planned⟩ := Option.bind_eq_some_iff.mp planned
      obtain ⟨option, _, planned⟩ := Option.bind_eq_some_iff.mp planned
      exact .inl ⟨field, option, (Option.some.inj planned).symm⟩
    · exact .inr (.inl (Option.mem_toList.mp priority))
  · exact .inr (.inr (Option.mem_toList.mp type))

theorem statusFollowUps_spawns {project : Project} {itemId : String} {task : Task}
    {mutation : OutboxMutation} (member : mutation ∈ statusFollowUps project itemId task) :
    mutation.spawns = false := by
  rcases mem_statusFollowUps member with ⟨field, option, rfl⟩ | priority | type
  · rfl
  · exact setProjectPriorityMutation_spawns priority
  · exact OutboxMutation.isTypeRail_spawns (setProjectTypeMutation_rail type)

theorem enqueueStatusFollowUp_every (enqueues : Enqueues allowed) (taskId : TaskId)
    (projectNodeId itemId : String) :
    (enqueueStatusFollowUp taskId projectNodeId itemId).Every allowed := by
  refine every_bind (every_query (enqueues.reads _ rfl)) fun task => ?_
  refine every_bind (every_query (enqueues.reads (.getWorkspace _) rfl)) fun workspace => ?_
  split
  · trivial
  · refine every_bind (every_query (enqueues.reads (.getProject _) rfl)) fun project => ?_
    split
    · trivial
    · exact every_foldEach_mem (fun _ mutation member =>
        enqueueMutation_every enqueues taskId (statusFollowUps_spawns member)) ()

theorem enqueueIssueTypeFollowUp_every (enqueues : Enqueues allowed) (taskId : TaskId)
    (filingCanonical : String) :
    (enqueueIssueTypeFollowUp taskId filingCanonical).Every allowed := by
  refine every_bind (every_query (enqueues.reads _ rfl)) fun task => ?_
  split
  · trivial
  · refine every_bind (resolveProjectTolerant_every enqueues.reads task) fun project => ?_
    refine (resolveTypeProjection_rail ..).every_bind
      (resolveTypeProjection_every enqueues.reads ..) fun mutation rail => ?_
    split
    · trivial
    · exact enqueueMutation_every enqueues taskId (OutboxMutation.isTypeRail_spawns (rail _ rfl))

theorem sweepTask_every (enqueues : Enqueues allowed) (task : Task) :
    (sweepTask () task).Every allowed := by
  unfold sweepTask
  split
  · trivial
  · refine (planPendingIssueType_rail task).every_bind
      (planPendingIssueType_every enqueues.reads task) fun mutation rail => ?_
    split
    · trivial
    · exact enqueueMutation_every enqueues task.id (OutboxMutation.isTypeRail_spawns (rail _ rfl))

theorem enqueuePendingIssueTypes_every (enqueues : Enqueues allowed) :
    enqueuePendingIssueTypes.Every allowed :=
  every_bind (every_query (enqueues.reads _ rfl)) fun pending =>
    every_foldEach (fun _ task => sweepTask_every enqueues task) pending ()

end Planners

section Arms

variable {allowed : PortOp → Prop}

/-- What applying an entry calls, the update of an issue and the end of a type's intent apart. -/
structure Handles (allowed : PortOp → Prop) : Prop where
  loads : ∀ id, allowed (.store (.getTask id))
  asks : ∀ request, request.updates = false → allowed (.provider request)
  now : allowed .now
  saves : ∀ write, Applied write → allowed (.store (.saveAll [write] []))

structure Works (allowed : PortOp → Prop) : Prop extends Handles allowed where
  clears : ∀ id expected, allowed (.store (.clearIssueTypePending id expected))

/-- What resolving an entry calls. -/
structure Resolves (allowed : PortOp → Prop) : Prop where
  loads : ∀ id, allowed (.store (.getTask id))
  now : allowed .now
  surfaces : ∀ (now : Timestamp) (task after : Task), (task.markConflicted now).attempt = .ok after →
    allowed (.store (.saveAll [⟨some task, after, .localEdit⟩] []))
  stamps : ∀ id instant source, allowed (.store (.cacheSyncedAt id instant source))
  books : ∀ op : StoreOp, op.resolves.isSome = true → allowed (.store op)

theorem saveTask_every (handles : Handles allowed) {basis task : Task} {source : SnapshotSource}
    (write : Applied ⟨some basis, task, source⟩) : (saveTask basis task source).Every allowed :=
  every_query (handles.saves _ write)

theorem sendUpdate_every {update : Option RemoteTaskUpdate}
    (sends : ∀ request, update = some request → allowed (.provider (.updateRemote request))) :
    (sendUpdate update).Every allowed := by
  unfold sendUpdate
  split
  · trivial
  · refine every_bind (every_callPort (sends _ rfl)) fun answer => ?_
    split
    · trivial
    · split <;> trivial

theorem applyUpdateRemote_every (handles : Handles allowed) (taskId : TaskId)
    {canonicalRepo remoteId : String}
    (updates : ∀ request : RemoteTaskUpdate, request.canonicalRepo = canonicalRepo →
      request.remoteId = remoteId → allowed (.provider (.updateRemote request))) :
    (applyUpdateRemote taskId canonicalRepo remoteId).Every allowed := by
  refine every_bind (every_query (handles.loads taskId)) fun task => ?_
  split
  · trivial
  · rename_i admitted
    refine every_bind (sendUpdate_every fun request built => ?_) fun early => ?_
    · obtain ⟨canonicalEq, remoteEq⟩ := buildUpdateFromPatch_target built
      exact updates request canonicalEq remoteEq
    split
    · trivial
    · refine every_bind (every_clock handles.now) fun now => ?_
      cases confirms : (task.confirmSyncedFields now .push task.diffAgainstBaseline).attempt with
      | error error => trivial
      | ok confirmed =>
          have admits : confirmable task.sync = true := by simpa using admitted
          have write : Applied ⟨some task, confirmed, .push⟩ :=
            ⟨.confirmed admits confirms, fun flipped =>
              (Task.confirmSyncedFields_settles confirms flipped).elim⟩
          have stamps : ((saveTask task confirmed .push).bind
              fun _ => .done ApplyDisposition.stamped).Every allowed :=
            every_bind (saveTask_every handles write) fun _ => trivial
          exact stamps

theorem writeBackProjectItem_every (handles : Handles allowed) (taskId : TaskId) (itemId : String) :
    (writeBackProjectItem taskId itemId).Every allowed := by
  refine every_bind (every_query (handles.loads taskId)) fun task => ?_
  split
  · exact saveTask_every handles ⟨.attached task itemId, fun flipped => ⟨task, rfl, flipped⟩⟩
  · trivial

theorem writeBackConvertedIssue_every (handles : Handles allowed) (taskId : TaskId) (nodeId : String)
    (number : Nat) : (writeBackConvertedIssue taskId nodeId number).Every allowed :=
  every_bind (every_query (handles.loads taskId)) fun task =>
    saveTask_every handles ⟨.converted task _, fun flipped => ⟨task, rfl, flipped⟩⟩

theorem applyAddItem_every (handles : Handles allowed) (enqueues : Enqueues allowed) (taskId : TaskId)
    (projectNodeId issueNodeId : String) :
    (applyAddItem taskId projectNodeId issueNodeId).Every allowed := by
  refine every_bind (every_callPort (handles.asks _ rfl)) fun answer => ?_
  split
  · trivial
  · dsimp only
    split
    · trivial
    · refine every_bind (workspaceStillTargetsProject_every enqueues.reads ..) fun targets => ?_
      split
      · refine every_bind (writeBackProjectItem_every handles ..) fun _ => ?_
        exact every_bind (enqueueStatusFollowUp_every enqueues ..) fun _ => trivial
      · trivial

theorem applyCreateDraftIssue_every (handles : Handles allowed) (enqueues : Enqueues allowed)
    (taskId : TaskId) (projectNodeId title body : String) :
    (applyCreateDraftIssue taskId projectNodeId title body).Every allowed := by
  refine every_bind (every_query (handles.loads taskId)) fun task => ?_
  split
  · exact every_bind (enqueueStatusFollowUp_every enqueues ..) fun _ => trivial
  · refine every_bind (every_callPort (handles.asks _ rfl)) fun answer => ?_
    split
    · trivial
    · dsimp only
      split
      · trivial
      · refine every_bind (writeBackProjectItem_every handles ..) fun _ => ?_
        exact every_bind (enqueueStatusFollowUp_every enqueues ..) fun _ => trivial

theorem stampedOrRetry_every {request : ProviderOp} (asks : allowed (.provider request)) :
    (stampedOrRetry request).Every allowed := by
  refine every_bind (every_callPort asks) fun answer => ?_
  split <;> trivial

theorem applyUpdateDraftIssue_every (handles : Handles allowed) (taskId : TaskId)
    (itemNodeId : String) : (applyUpdateDraftIssue taskId itemNodeId).Every allowed := by
  refine every_bind (every_query (handles.loads taskId)) fun task => ?_
  refine every_bind (every_callPort (handles.asks _ rfl)) fun answer => ?_
  split <;> trivial

theorem applyConvertDraftToIssue_every (handles : Handles allowed) (enqueues : Enqueues allowed)
    (taskId : TaskId) (itemNodeId repoNodeId : String) :
    (applyConvertDraftToIssue taskId itemNodeId repoNodeId).Every allowed := by
  refine every_bind (every_query (handles.loads taskId)) fun task => ?_
  split
  · exact every_bind (enqueueIssueTypeFollowUp_every enqueues ..) fun _ => trivial
  · refine every_bind (every_callPort (handles.asks _ rfl)) fun answer => ?_
    split
    · trivial
    · split
      split
      · trivial
      · refine every_bind (writeBackConvertedIssue_every handles ..) fun _ => ?_
        exact every_bind (enqueueIssueTypeFollowUp_every enqueues ..) fun _ => trivial

theorem applySetProjectStatus_every {projectNodeId itemNodeId statusFieldId optionId : String}
    (asks : allowed (.provider
      (.setSingleSelectOption projectNodeId itemNodeId statusFieldId (some optionId)))) :
    (applySetProjectStatus projectNodeId itemNodeId statusFieldId optionId).Every allowed := by
  refine every_bind (every_callPort asks) fun answer => ?_
  split <;> trivial

theorem applyTypeRail_every {taskId : TaskId} {request : ProviderOp}
    {localIssueType : Option String} {recorded : Bool} (asks : allowed (.provider request))
    (clears : ∀ expected, allowed (.store (.clearIssueTypePending taskId expected))) :
    (applyTypeRail taskId request localIssueType recorded).Every allowed := by
  refine every_bind (every_callPort asks) fun answer => ?_
  split
  · trivial
  · split
    · exact every_bind (every_query (clears _)) fun _ => trivial
    · trivial

theorem apply_every_of (handles : Handles allowed) (enqueues : Enqueues allowed)
    (entry : OutboxEntry)
    (updates : ∀ request : RemoteTaskUpdate,
      entry.mutation.target = some (request.canonicalRepo, request.remoteId) →
        allowed (.provider (.updateRemote request)))
    (clears : entry.mutation.isTypeRail = true → ∀ expected,
      allowed (.store (.clearIssueTypePending entry.taskId expected))) :
    (apply entry).Every allowed := by
  unfold apply
  split
  · rename_i same
    refine applyUpdateRemote_every handles _ fun request canonicalEq remoteEq => updates request ?_
    rw [same, canonicalEq, remoteEq]
    rfl
  · exact applyAddItem_every handles enqueues ..
  · exact applyCreateDraftIssue_every handles enqueues ..
  · exact applyUpdateDraftIssue_every handles ..
  · exact applyConvertDraftToIssue_every handles enqueues ..
  · exact applySetProjectStatus_every (handles.asks _ rfl)
  · exact stampedOrRetry_every (handles.asks _ rfl)
  · rename_i same
    exact applyTypeRail_every (handles.asks _ rfl) (clears (by rw [same]; rfl))
  · rename_i same
    exact applyTypeRail_every (handles.asks _ rfl) (clears (by rw [same]; rfl))
  all_goals exact stampedOrRetry_every (handles.asks _ rfl)

theorem apply_every (works : Works allowed) (enqueues : Enqueues allowed) (entry : OutboxEntry)
    (updates : ∀ request : RemoteTaskUpdate,
      entry.mutation.target = some (request.canonicalRepo, request.remoteId) →
        allowed (.provider (.updateRemote request))) :
    (apply entry).Every allowed :=
  apply_every_of works.toHandles enqueues entry updates fun _ => works.clears _

theorem surfaceConflict_every (resolves : Resolves allowed) (taskId : TaskId) :
    (surfaceConflict taskId).Every allowed := by
  refine every_bind (every_callPort (resolves.loads taskId)) fun answer => ?_
  split
  · trivial
  · refine every_bind (every_clock resolves.now) fun now => ?_
    split
    · trivial
    · rename_i marks
      exact every_query (resolves.surfaces now _ _ marks)

theorem reschedule_every (resolves : Resolves allowed) (backoff : BackoffSchedule)
    (entry : OutboxEntry) (error : SyncError) :
    (reschedule backoff entry error).Every allowed := by
  by_cases below : entry.attempts + 1 < backoff.maxAttempts
  · simp only [reschedule, below, ↓reduceIte]
    exact every_bind (every_clock resolves.now) fun _ => every_query (resolves.books _ rfl)
  · simp only [reschedule, below, ↓reduceIte]
    exact every_query (resolves.books (.markFailed ..) rfl)

theorem resolve_every (resolves : Resolves allowed) (backoff : BackoffSchedule)
    (entry : OutboxEntry) (outcome : Except SyncError ApplyDisposition) :
    (resolve backoff entry outcome).Every allowed := by
  unfold resolve
  split
  · refine every_bind (every_clock resolves.now) fun now => ?_
    refine every_bind (every_query (resolves.stamps ..)) fun _ => ?_
    exact every_query (resolves.books (.markSucceeded _) rfl)
  · exact every_bind (surfaceConflict_every resolves _) fun _ =>
      every_query (resolves.books (.markFailed ..) rfl)
  · exact reschedule_every resolves ..
  · exact reschedule_every resolves ..

theorem drainLoop_every (works : Works allowed) (enqueues : Enqueues allowed)
    (resolves : Resolves allowed) (claims : ∀ now, allowed (.store (.claimNextEligible now)))
    (updates : ∀ request, allowed (.provider (.updateRemote request)))
    (backoff : BackoffSchedule) : ∀ rounds, (drainLoop backoff rounds).Every allowed := by
  intro rounds
  induction rounds with
  | zero => trivial
  | succ rounds ih =>
      refine every_bind (every_clock works.now) fun now => ?_
      refine every_bind (every_query (claims now)) fun claimed => ?_
      split
      · trivial
      · refine every_bind (every_attempt (apply_every works enqueues _ fun request _ =>
        updates request)) fun outcome => ?_
        exact every_bind (resolve_every resolves ..) fun _ => ih

theorem drainOnce_every (works : Works allowed) (enqueues : Enqueues allowed)
    (resolves : Resolves allowed) (claims : ∀ now, allowed (.store (.claimNextEligible now)))
    (updates : ∀ request, allowed (.provider (.updateRemote request)))
    (backoff : BackoffSchedule) (rounds : Nat) : (drainOnce backoff rounds).Every allowed :=
  every_bind (enqueuePendingIssueTypes_every enqueues) fun _ =>
    drainLoop_every works enqueues resolves claims updates backoff rounds

end Arms

theorem drainOnce_drain (backoff : BackoffSchedule) (rounds : Nat) :
    (drainOnce backoff rounds).Every (Saves DrainWrite) := by
  have saves : ∀ write, DrainWrite write →
      Saves DrainWrite (.store (.saveAll [write] [])) := fun write drains other member =>
    List.mem_singleton.mp member ▸ drains
  have works : Works (Saves DrainWrite) :=
    ⟨⟨fun _ => saves_nothing rfl, fun _ _ => trivial, trivial,
      fun write applied => saves write applied.1⟩, fun _ _ => saves_nothing rfl⟩
  have enqueues : Enqueues (Saves DrainWrite) :=
    ⟨fun op reads => @Saves.ofQuiet _ (.store op) reads, trivial, trivial,
      fun _ _ => saves_nothing rfl⟩
  have resolves : Resolves (Saves DrainWrite) := by
    refine ⟨fun _ => saves_nothing rfl, trivial, fun _ _ _ marks => saves _ (.surfaced marks),
      fun _ _ _ => saves_nothing rfl, fun op resolves => ?_⟩
    cases op <;> first | exact saves_nothing rfl | cases resolves
  exact drainOnce_every works enqueues resolves (fun _ => saves_nothing rfl) (fun _ => trivial)
    backoff rounds

end OutboxDrainer

end RepoLink
