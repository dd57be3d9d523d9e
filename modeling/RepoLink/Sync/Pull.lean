import RepoLink.Sync.Service

/-!
`SyncService::pull`: the drift decision over the mirrored content, the adoption of the remote
and the inbound reconcile of relations.
-/

namespace RepoLink

open Effects

inductive SyncNotice where
  | relationReconciled (taskId : TaskId) (kind : RelationKind) (added : Bool) (other : TaskId)
  | relationTargetUntracked (taskId : TaskId) (kind : RelationKind)
      (canonicalRepo remoteId : String)
deriving DecidableEq, Repr

structure SyncSummary where
  taskId : TaskId
  previousState : SyncState
  newState : SyncState
  decision : SyncDecision
  remote : Option (String × String)
  note : Option String
  messages : List SyncNotice
deriving DecidableEq, Repr

def summaryWithNoteAndMessages (task : Task) (prev : SyncState) (decision : SyncDecision)
    (note : Option String) (messages : List SyncNotice) : SyncSummary where
  taskId := task.id
  previousState := prev
  newState := task.sync
  decision := decision
  remote := task.remote.map fun current => (current.provider, current.remoteId)
  note := note
  messages := messages

inductive RefreshOutcome where
  | stamped
  | notIssueBacked
deriving DecidableEq, Repr

/-- A cached neighbor: the copy that was loaded and the copy with its reciprocal edges. -/
structure Neighbor where
  loaded : Task
  current : Task
deriving DecidableEq, Repr

structure Reconciliation where
  task : Task
  neighbors : List Neighbor
  notices : List SyncNotice
  changed : Bool
deriving DecidableEq, Repr

namespace Reconciliation

def neighbor (id : TaskId) (state : Reconciliation) : Option Neighbor :=
  state.neighbors.find? fun neighbor => neighbor.loaded.id = id

def forget (id : TaskId) (state : Reconciliation) : Reconciliation :=
  { state with neighbors := state.neighbors.filter fun neighbor => neighbor.loaded.id ≠ id }

def updateNeighbor (id : TaskId) (change : Task → Task) (state : Reconciliation) :
    Reconciliation :=
  { state with neighbors := state.neighbors.map fun neighbor =>
      if neighbor.loaded.id = id then { neighbor with current := change neighbor.current }
      else neighbor }

def related (state : Reconciliation) (kind : RelationKind) : List TaskId :=
  (state.task.relations.filter fun relation => relation.kind = kind).map (·.other)

def writes (basis : Task) (state : Reconciliation) : List TaskWrite :=
  { basis := some basis, task := state.task, source := .pull } ::
    state.neighbors.map fun neighbor =>
      { basis := some neighbor.loaded, task := neighbor.current, source := .pull }

end Reconciliation

namespace SyncService

def loadNeighbor (id : TaskId) (state : Reconciliation) : Action (Neighbor × Reconciliation) :=
  match state.neighbor id with
  | some neighbor => return (neighbor, state)
  | none => do
    let task ← loadTask id
    return (⟨task, task⟩, { state with neighbors := state.neighbors ++ [⟨task, task⟩] })

/-- The local mirror of a remote issue: its repo must be attached and the issue imported. -/
def findMirror (workspaceId : WorkspaceId) (item : RemoteChildIssue) : Action (Option Task) := do
  match ← query (.findByCanonicalUrl workspaceId item.canonicalRepo) with
  | none => return none
  | some binding =>
    query (.findByRemote binding.instanceRow.originId "github" item.snapshot.remoteId)

def mapRemoteToLocal (workspaceId : WorkspaceId) :
    List RemoteChildIssue → Action (List TaskId × List RemoteChildIssue)
  | [] => return ([], [])
  | item :: rest => do
    let mirror ← findMirror workspaceId item
    let (ids, untracked) ← mapRemoteToLocal workspaceId rest
    match mirror with
    | some task => return (task.id :: ids, untracked)
    | none => return (ids, item :: untracked)

def addEdge (kind inverse : RelationKind) (current : List TaskId) (state : Reconciliation)
    (other : TaskId) : Action Reconciliation := do
  if other = state.task.id ∨ other ∈ current then return state
  else
    let (_, loaded) ← loadNeighbor other state
    let now ← clock
    let mirrored := loaded.updateNeighbor other fun task =>
      task.addRelation now inverse state.task.id
    return { mirrored with
      task := mirrored.task.addRelation now kind other
      notices := mirrored.notices ++ [.relationReconciled state.task.id kind true other]
      changed := true }

def removeEdge (kind inverse : RelationKind) (desired : List TaskId) (state : Reconciliation)
    (other : TaskId) : Action Reconciliation := do
  if other = state.task.id ∨ other ∈ desired then return state
  else
    let (neighbor, loaded) ← loadNeighbor other state
    if neighbor.current.remote.isNone then return loaded.forget other
    else
      let now ← clock
      let mirrored := loaded.updateNeighbor other fun task =>
        (task.removeRelation now inverse state.task.id).2
      return { mirrored with
        task := (mirrored.task.removeRelation now kind other).2
        notices := mirrored.notices ++ [.relationReconciled state.task.id kind false other]
        changed := true }

def reconcileFamily (kind inverse : RelationKind) (desired : List TaskId)
    (state : Reconciliation) : Action Reconciliation := do
  let current := state.related kind
  let added ← Program.foldEach (addEdge kind inverse current) desired state
  Program.foldEach (removeEdge kind inverse desired) current added

def reconcileParent (parents : List RemoteChildIssue) (state : Reconciliation) :
    Action Reconciliation := do
  if parents.isEmpty then return state
  else
    let (mapped, untracked) ← mapRemoteToLocal state.task.workspaceId parents
    let desired := mapped.filter fun id => id ≠ state.task.id
    let notices := untracked.map fun item => SyncNotice.relationTargetUntracked state.task.id
      .childOf item.canonicalRepo item.snapshot.remoteId
    let noticed := { state with notices := state.notices ++ notices }
    if desired.isEmpty then return noticed
    else reconcileFamily .childOf .parentOf desired noticed

def gatherInbound (task : Task) (filingCanonical remoteId : String) : Action Reconciliation := do
  let subs ← remote (.fetchSubIssues filingCanonical remoteId)
  let blockers ← remote (.fetchBlockedBy filingCanonical remoteId)
  let parents ← remote (.fetchParent filingCanonical remoteId)
  let (desiredChildren, _) ← mapRemoteToLocal task.workspaceId subs
  let (desiredBlockers, _) ← mapRemoteToLocal task.workspaceId blockers
  let children ← reconcileFamily .parentOf .childOf desiredChildren ⟨task, [], [], false⟩
  let blocked ← reconcileFamily .blockedBy .blocks desiredBlockers children
  reconcileParent parents blocked

def reconcileRelationsInbound (basis task : Task) (filingCanonical remoteId : String) :
    Action Reconciliation := do
  let reconciled ← gatherInbound task filingCanonical remoteId
  if reconciled.changed then
    query (.saveAll (reconciled.writes basis) [])
    return reconciled
  else return reconciled

def nodeIdBackfill (current : RemoteRef) (snap : RemoteTaskSnapshot) : Option String :=
  if current.nodeId.isNone then snap.nodeId else none

def withNodeId (nodeId : Option String) (task : Task) : Task :=
  match nodeId, task.remote with
  | some nodeId, some current =>
    { task with remote := some { current with nodeId := some nodeId } }
  | _, _ => task

def pullDecision (forceAcceptRemote : Bool) (task : Task) (snap : RemoteTaskSnapshot) :
    SyncDecision :=
  let remoteChanged := match task.syncedBaseline with
    | some baseline => !remoteMirrorsBaseline snap baseline
    | none => true
  match task.sync.decide remoteChanged with
  | .pushLocal =>
    if forceAcceptRemote && task.sync = .dirtyLocal then .pullRemote else .pushLocal
  | other => other

/-- `PullRemote`: keep the local state as the undo target, then adopt the remote content. -/
def adoptRemote (basis task : Task) (snap : RemoteTaskSnapshot) : Action Task := do
  saveTask basis task .prePull []
  let now ← clock
  let adopted ← settled ((copyInboundMirrorFromSnap snap task).adoptAlignedState now .pull).attempt
  saveTask basis adopted .pull []
  return adopted

def settlePull (basis task : Task) (snap : RemoteTaskSnapshot) : SyncDecision → Action Task
  | .pullRemote => adoptRemote basis task snap
  | .noop | .pushLocal => return task

def backfillNodeId (taskId : TaskId) : Option String → Action Unit
  | some nodeId => query (.cacheRemoteNodeId taskId nodeId)
  | none => return ()

/-- What a pull makes of the fetched issue, up to the relations: the drift decision, the
comments and the node id. -/
def pullSnapshot (forceAcceptRemote : Bool) (before : Task) (filingCanonical : String)
    (current : RemoteRef) (snap : RemoteTaskSnapshot) : Action Task := do
  let observedAt ← clock
  query (.cacheSyncedAt before.id observedAt .pull)
  let backfill := nodeIdBackfill current snap
  let filled := withNodeId backfill before
  let pulled ← settlePull before filled snap (pullDecision forceAcceptRemote filled snap)
  let comments ← remote (.fetchComments filingCanonical current.remoteId)
  query (.replaceComments before.id comments)
  backfillNodeId before.id backfill
  return pulled

def pullNote (task : Task) (snap : RemoteTaskSnapshot) : SyncDecision → Option String
  | .pullRemote =>
    let superseded := supersededInboundFields snap task
    if (task.sync = .dirtyLocal || task.sync = .conflict) && !superseded.isEmpty then
      some ("github superseded local changes to " ++ ", ".intercalate superseded ++
        "; recover them with `rl task rollback`")
    else none
  | .noop | .pushLocal => none

/-- What `pull_inner` knows when it builds its summary. -/
structure PullOutcome where
  prev : SyncState
  decision : SyncDecision
  note : Option String
  reconciled : Reconciliation

def pullOutcome (taskId : TaskId) (forceAcceptRemote : Bool) : Action PullOutcome := do
  let before ← loadTask taskId
  ensureNotArchived before
  let filingCanonical ← requiredFilingCanonical before
  match before.remote with
  | none => .fail .noRemote
  | some current =>
    let snap ← remote (.fetchRemote filingCanonical current.remoteId)
    let pulled ← pullSnapshot forceAcceptRemote before filingCanonical current snap
    let filled := withNodeId (nodeIdBackfill current snap) before
    let decision := pullDecision forceAcceptRemote filled snap
    let reconciled ← reconcileRelationsInbound before pulled filingCanonical current.remoteId
    return ⟨before.sync, decision, pullNote filled snap decision, reconciled⟩

def pullInnerSummary (taskId : TaskId) (forceAcceptRemote : Bool) : Action SyncSummary := do
  let outcome ← pullOutcome taskId forceAcceptRemote
  return summaryWithNoteAndMessages outcome.reconciled.task outcome.prev outcome.decision
    outcome.note outcome.reconciled.notices

def pullInner (taskId : TaskId) (forceAcceptRemote : Bool) : Action (Task × List SyncNotice) := do
  let outcome ← pullOutcome taskId forceAcceptRemote
  return (outcome.reconciled.task, outcome.reconciled.notices)

theorem pullInner_eq (taskId : TaskId) (forceAcceptRemote : Bool) :
    pullInner taskId forceAcceptRemote = do
      let before ← loadTask taskId
      ensureNotArchived before
      let filingCanonical ← requiredFilingCanonical before
      match before.remote with
      | none => .fail .noRemote
      | some current =>
        let snap ← remote (.fetchRemote filingCanonical current.remoteId)
        let pulled ← pullSnapshot forceAcceptRemote before filingCanonical current snap
        let reconciled ← reconcileRelationsInbound before pulled filingCanonical current.remoteId
        return (reconciled.task, reconciled.notices) := by
  simp only [pullInner, pullOutcome, Program.bind_eq, Program.bind_assoc]
  congr 1
  funext before
  congr 1
  funext _
  congr 1
  funext filingCanonical
  cases before.remote with
  | none => rfl
  | some current => simp only [Program.bind_assoc, Program.pure_eq, Program.done_bind]

def pull (taskId : TaskId) : Action (Task × List SyncNotice) := pullInner taskId false

/-- `task show --refresh`: observe the remote for its freshness; the content is discarded. -/
def refresh (taskId : TaskId) : Action RefreshOutcome := do
  let task ← loadTask taskId
  match task.remote with
  | none => return .notIssueBacked
  | some current =>
    let filingCanonical ← requiredFilingCanonical task
    let _ ← remote (.fetchRemote filingCanonical current.remoteId)
    let now ← clock
    query (.cacheSyncedAt taskId now .refresh)
    return .stamped

end SyncService

end RepoLink
