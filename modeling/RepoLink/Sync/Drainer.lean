import RepoLink.Sync.Enqueue

/-!
`OutboxDrainer`: claim the eligible entries one after the other, apply each to the remote, and
resolve it as succeeded, rescheduled or dead-lettered.
-/

namespace RepoLink

open Effects

inductive ApplyDisposition where
  | stamped
  | retry (error : SyncError)
  | conflict (kind : ConflictKind)
deriving DecidableEq, Repr

structure BackoffSchedule where
  delays : List Nat
  maxAttempts : Nat
deriving DecidableEq, Repr

namespace BackoffSchedule

def standard : BackoffSchedule :=
  ⟨[5000000000, 30000000000, 120000000000, 600000000000], 5⟩

def delayFor (attemptsMade : Nat) (schedule : BackoffSchedule) : Nat :=
  schedule.delays.getD (min (attemptsMade - 1) (schedule.delays.length - 1)) 0

end BackoffSchedule

def SyncError.message : SyncError → String
  | .port error => error.message
  | .domain error => error.message
  | .noRepo => "task is not bound to a repo"
  | .noRemote => "task has no remote reference; promote it first"
  | .ambiguousPromoteTarget repo count issues =>
    "cannot promote: " ++ repo ++ " already has " ++ toString count ++
      " untracked issues matching this task (" ++ issues ++ "); attach the right one with " ++
      "`rl task link` or edit the task so it no longer matches"
  | .archived => "task is archived; unarchive before syncing"

namespace OutboxDrainer

abbrev Action := Service SyncError

def loadTask (id : TaskId) : Action Task := query (.getTask id)

def saveTask (basis task : Task) (source : SnapshotSource) : Action Unit :=
  query (.saveAll [{ basis := some basis, task, source }] [])

def enqueueMutation (taskId : TaskId) (mutation : OutboxMutation) : Action Unit := do
  let entry ← newEntry taskId mutation
  query (.enqueue entry)

def resolveProjectTolerant (task : Task) : Action (Option Project) := do
  match ← lookup (.getWorkspace task.workspaceId) with
  | none => return none
  | some workspace =>
    match workspace.projectId with
    | none => return none
    | some projectId => lookup (.getProject projectId)

def filingOwnerLogin (task : Task) : Action (Option String) := do
  let workspaceDefault ← workspaceFilingDefault task.workspaceId
  let logical ← logicalOriginFor task
  match resolveFilingRepo (task.filingRepoId.map RepoId.toOrigin) workspaceDefault logical with
  | none => return none
  | some originId =>
    let origin ← lookup (.getOrigin originId)
    return origin.bind fun origin => parseGithubOwner origin.canonicalUrl

/-- One task of the sweep; a failure is logged and retried on the next pass. -/
def planPendingIssueType (task : Task) : Action (Option OutboxMutation) := do
  let planned : Service SyncError (Option OutboxMutation) := do
    let project ← resolveProjectTolerant task
    let owner ← if task.issueType.isSome then filingOwnerLogin task else pure none
    resolveTypeProjection project owner task
  return (← planned.attempt : Except SyncError (Option OutboxMutation)).toOption.join

def sweepTask (_ : Unit) (task : Task) : Action Unit := do
  if !task.isMirror then return ()
  else
    match ← planPendingIssueType task with
    | none => return ()
    | some mutation => enqueueMutation task.id mutation

def enqueuePendingIssueTypes : Action Unit := do
  let pending ← query (.listTasks { issueTypePending := true })
  Program.foldEach sweepTask pending ()

/-- The states whose `UpdateRemote` is sent and confirmed. -/
def confirmable (sync : SyncState) : Bool :=
  sync = .staged || sync = .dirtyLocal || sync = .dirtyRemote

def assigneesConfirmed (sent : Option (List String)) (snap : RemoteTaskSnapshot) : Bool :=
  match sent with
  | none => true
  | some sent => snap.assignees = sent || (sent.isEmpty && snap.assignees.isEmpty)

def sendUpdate (update : Option RemoteTaskUpdate) : Action (Option ApplyDisposition) :=
  match update with
  | none => return none
  | some update => do
    match ← tryRemote (.updateRemote update) with
    | .error error => return some (.retry (.port error))
    | .ok snap =>
      if assigneesConfirmed update.assignees snap then return none
      else return some (.conflict .assigneeMismatch)

def applyUpdateRemote (taskId : TaskId) (canonicalRepo remoteId : String) :
    Action ApplyDisposition := do
  let task ← loadTask taskId
  if !confirmable task.sync then return .stamped
  else
    let patch := task.diffAgainstBaseline
    match ← sendUpdate (buildUpdateFromPatch patch canonicalRepo remoteId) with
    | some disposition => return disposition
    | none =>
      let now ← clock
      let confirmed ← settled (task.confirmSyncedFields now .push patch).attempt
      saveTask task confirmed .push
      return .stamped

def writeBackProjectItem (taskId : TaskId) (itemId : String) : Action Unit := do
  let task ← loadTask taskId
  if task.projectItemId ≠ some itemId then
    saveTask task { task with projectItemId := some itemId } .localEdit
  else return ()

def writeBackConvertedIssue (taskId : TaskId) (issueNodeId : String) (issueNumber : Nat) :
    Action Unit := do
  let task ← loadTask taskId
  let provider := task.remote.elim "github" fun remote => remote.provider
  saveTask task
    { task with remote := some ⟨provider, toString issueNumber, some issueNodeId⟩ } .localEdit

def workspaceStillTargetsProject (taskId : TaskId) (projectNodeId : String) : Action Bool := do
  let task ← loadTask taskId
  let workspace ← query (.getWorkspace task.workspaceId)
  match workspace.projectId with
  | none => return false
  | some projectId =>
    let project ← query (.getProject projectId)
    return project.id.value = projectNodeId

def statusFollowUps (project : Project) (itemId : String) (task : Task) : List OutboxMutation :=
  let status : Option OutboxMutation := do
    let statusFieldId ← project.statusFieldId
    let optionId ← boardOptionForLifecycle project task.isOpen
    return .setProjectStatus project.id.value itemId statusFieldId optionId
  status.toList ++ (setProjectPriorityMutation project task).toList ++
    (setProjectTypeMutation project task).toList

def enqueueStatusFollowUp (taskId : TaskId) (projectNodeId itemId : String) : Action Unit := do
  let task ← loadTask taskId
  let workspace ← query (.getWorkspace task.workspaceId)
  match workspace.projectId with
  | none => return ()
  | some projectId =>
    let project ← query (.getProject projectId)
    if project.id.value ≠ projectNodeId then return ()
    else
      Program.foldEach (fun _ mutation => enqueueMutation taskId mutation)
        (statusFollowUps project itemId task) ()

def enqueueIssueTypeFollowUp (taskId : TaskId) (filingCanonical : String) : Action Unit := do
  let task ← loadTask taskId
  if task.issueType.isNone then return ()
  else
    let project ← resolveProjectTolerant task
    match ← resolveTypeProjection project (parseGithubOwner filingCanonical) task with
    | none => return ()
    | some mutation => enqueueMutation taskId mutation

def applyAddItem (taskId : TaskId) (projectNodeId issueNodeId : String) :
    Action ApplyDisposition := do
  match ← tryRemote (.addItem projectNodeId issueNodeId) with
  | .error error => return .retry (.port error)
  | .ok itemId =>
    let itemId : String := itemId
    if itemId = "" then return .conflict .targetRemapped
    else
      if ← workspaceStillTargetsProject taskId projectNodeId then
        writeBackProjectItem taskId itemId
        enqueueStatusFollowUp taskId projectNodeId itemId
        return .stamped
      else return .stamped

def applyCreateDraftIssue (taskId : TaskId) (projectNodeId title body : String) :
    Action ApplyDisposition := do
  let task ← loadTask taskId
  match task.projectItemId with
  | some existing =>
    enqueueStatusFollowUp taskId projectNodeId existing
    return .stamped
  | none =>
    match ← tryRemote (.createDraftIssue projectNodeId title body) with
    | .error error => return .retry (.port error)
    | .ok minted =>
      let minted : String := minted
      if minted = "" then return .conflict .targetRemapped
      else
        writeBackProjectItem taskId minted
        enqueueStatusFollowUp taskId projectNodeId minted
        return .stamped

def applyUpdateDraftIssue (taskId : TaskId) (itemNodeId : String) : Action ApplyDisposition := do
  let task ← loadTask taskId
  match ← tryRemote (.updateDraftIssue itemNodeId (some task.title) (some task.body)) with
  | .error error => return .retry (.port error)
  | .ok _ => return .stamped

def applyConvertDraftToIssue (taskId : TaskId) (itemNodeId repoNodeId : String) :
    Action ApplyDisposition := do
  let task ← loadTask taskId
  if (task.remote.bind (·.nodeId)).isSome then
    enqueueIssueTypeFollowUp taskId repoNodeId
    return .stamped
  else
    match ← tryRemote (.convertDraftToIssue itemNodeId repoNodeId) with
    | .error error => return .retry (.port error)
    | .ok converted =>
      let (issueNodeId, issueNumber) : String × Nat := converted
      if !"I_".toList.isPrefixOf issueNodeId.toList || issueNumber = 0 then
        return .conflict .targetRemapped
      else
        writeBackConvertedIssue taskId issueNodeId issueNumber
        enqueueIssueTypeFollowUp taskId repoNodeId
        return .stamped

def applySetProjectStatus (projectNodeId itemNodeId statusFieldId optionId : String) :
    Action ApplyDisposition := do
  match ← tryRemote (.setSingleSelectOption projectNodeId itemNodeId statusFieldId
      (some optionId)) with
  | .error error => return .retry (.port error)
  | .ok none =>
    return .retry (.port (.backend "set_project_status read back no applied option"))
  | .ok (some applied) =>
    return if applied = optionId then .stamped else .conflict .projectStatusMismatch

def stampedOrRetry (op : ProviderOp) : Action ApplyDisposition := do
  match ← tryRemote op with
  | .error error => return .retry (.port error)
  | .ok _ => return .stamped

def applyTypeRail (taskId : TaskId) (op : ProviderOp) (localIssueType : Option String)
    (recorded : Bool) : Action ApplyDisposition := do
  match ← tryRemote op with
  | .error error => return .retry (.port error)
  | .ok _ =>
    if recorded then
      let _ ← query (.clearIssueTypePending taskId (localIssueType.map IssueType.ofString))
      return .stamped
    else return .stamped

def apply (entry : OutboxEntry) : Action ApplyDisposition :=
  match entry.mutation with
  | .updateRemote canonicalRepo remoteId _ _ _ =>
    applyUpdateRemote entry.taskId canonicalRepo remoteId
  | .addItem projectNodeId issueNodeId => applyAddItem entry.taskId projectNodeId issueNodeId
  | .createDraftIssue projectNodeId title body =>
    applyCreateDraftIssue entry.taskId projectNodeId title body
  | .updateDraftIssue itemNodeId _ _ => applyUpdateDraftIssue entry.taskId itemNodeId
  | .convertDraftToIssue itemNodeId repoNodeId =>
    applyConvertDraftToIssue entry.taskId itemNodeId repoNodeId
  | .setProjectStatus projectNodeId itemNodeId statusFieldId optionId =>
    applySetProjectStatus projectNodeId itemNodeId statusFieldId optionId
  | .setProjectPriority projectNodeId itemNodeId priorityFieldId optionId =>
    stampedOrRetry (.setSingleSelectOption projectNodeId itemNodeId priorityFieldId
      (some optionId))
  | .setProjectType projectNodeId itemNodeId typeFieldId optionId localIssueType recorded =>
    applyTypeRail entry.taskId
      (.setSingleSelectOption projectNodeId itemNodeId typeFieldId optionId) localIssueType recorded
  | .setIssueType issueNodeId issueTypeId localIssueType recorded =>
    applyTypeRail entry.taskId (.setIssueType issueNodeId issueTypeId) localIssueType recorded
  | .addSubIssue parentCanonical parentRemoteId childCanonical childRemoteId =>
    stampedOrRetry (.addSubIssue parentCanonical parentRemoteId childCanonical childRemoteId)
  | .removeSubIssue parentCanonical parentRemoteId childCanonical childRemoteId =>
    stampedOrRetry (.removeSubIssue parentCanonical parentRemoteId childCanonical childRemoteId)
  | .addBlockedBy blockedCanonical blockedRemoteId blockerCanonical blockerRemoteId =>
    stampedOrRetry
      (.addBlockedBy blockedCanonical blockedRemoteId blockerCanonical blockerRemoteId)
  | .removeBlockedBy blockedCanonical blockedRemoteId blockerCanonical blockerRemoteId =>
    stampedOrRetry
      (.removeBlockedBy blockedCanonical blockedRemoteId blockerCanonical blockerRemoteId)

/-- The task flipped to `Conflict`, best effort; only the save itself may abort the pass. -/
def surfaceConflict (taskId : TaskId) : Action Unit := do
  match ← tryQuery (.getTask taskId) with
  | .error _ => return ()
  | .ok task =>
    let now ← clock
    match (task.markConflicted now).attempt with
    | .error _ => return ()
    | .ok conflicted => saveTask task conflicted .localEdit

def reschedule (backoff : BackoffSchedule) (entry : OutboxEntry) (error : SyncError) :
    Action Unit :=
  let attemptsAfter := entry.attempts + 1
  if attemptsAfter < backoff.maxAttempts then do
    let failedAt ← clock
    query (.recordRetry entry.id error.message
      ⟨failedAt.nanos + backoff.delayFor attemptsAfter⟩)
  else query (.markFailed entry.id error.message)

def resolve (backoff : BackoffSchedule) (entry : OutboxEntry)
    (outcome : Except SyncError ApplyDisposition) : Action Unit :=
  match outcome with
  | .ok .stamped => do
    let now ← clock
    query (.cacheSyncedAt entry.taskId now .push)
    query (.markSucceeded entry.id)
  | .ok (.conflict kind) => do
    surfaceConflict entry.taskId
    query (.markFailed entry.id ("conflict: " ++ kind.debug))
  | .ok (.retry error) => reschedule backoff entry error
  | .error error => reschedule backoff entry error

/-- The claim loop of one pass, cut off after `rounds` claims. -/
def drainLoop (backoff : BackoffSchedule) : Nat → Action Unit
  | 0 => return ()
  | rounds + 1 => do
    let now ← clock
    match ← query (.claimNextEligible now) with
    | none => return ()
    | some entry =>
      let outcome ← (apply entry).attempt
      resolve backoff entry outcome
      drainLoop backoff rounds

def drainOnce (backoff : BackoffSchedule) (rounds : Nat) : Action Unit := do
  enqueuePendingIssueTypes
  drainLoop backoff rounds

end OutboxDrainer

end RepoLink
