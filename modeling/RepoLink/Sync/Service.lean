import RepoLink.Sync.Enqueue

/-!
`SyncService` of `application-sync`: promotion, link, transfer and push of the backing issue. A push
sends the snapshot as one patch; each pending comment is then posted and marked on its own.
-/

namespace RepoLink

open Effects

namespace SyncService

abbrev Action := Service SyncError

def loadTask (id : TaskId) : Action Task := query (.getTask id)

def saveTask (basis task : Task) (source : SnapshotSource) (entries : List OutboxEntry) :
    Action Unit :=
  query (.saveAll [{ basis := some basis, task, source }] entries)

def requiredFilingCanonical (task : Task) : Action String := do
  match ← filingCanonicalFor task with
  | none => .fail .noRepo
  | some canonical => return canonical

def logicalCanonicalFor (task : Task) : Action String :=
  match task.repoId with
  | none => .fail .noRepo
  | some repoId => do
    let view ← query (.getBinding repoId)
    return view.instanceRow.canonicalUrl

def promoteOrphanWindow : Int := 24 * 60 * 60 * 1000000000

def correlates (task : Task) (snap : RemoteTaskSnapshot) : Bool :=
  snap.title = task.title && snap.body = task.body

/-- The issue a crashed promote already created: same title and body, and tracked by no task. -/
def findPromotedOrphan (task : Task) (filingCanonical : String)
    (filingOrigin : Option RepoOriginId) : Action (Option RemoteTaskSnapshot) :=
  match filingOrigin with
  | none => return none
  | some origin => do
    let now ← clock
    let listed ← remote (.listChangedSince filingCanonical ⟨now.nanos - promoteOrphanWindow⟩)
    let candidates := listed.filter (correlates task)
    if candidates.isEmpty then return none
    else
      let tracked ← query (.trackedRemoteIds origin (providerLabel filingCanonical)
        (candidates.map (·.remoteId)))
      match candidates.filter fun snap => !tracked.contains snap.remoteId with
      | [] => return none
      | [orphan] => return some orphan
      | untracked => .fail (.ambiguousPromoteTarget filingCanonical untracked.length
          (", ".intercalate (untracked.map fun snap => "#" ++ snap.remoteId)))

def relationBackfillEntries (task : Task) (thisCoords : IssueCoords) :
    List TaskRelation → Action (List OutboxEntry)
  | [] => return []
  | relation :: rest => do
    let neighbor ← loadTask relation.other
    let mutation := (← cachedRelationCoords neighbor).bind fun neighborCoords =>
      relationMutation relation.kind true thisCoords neighborCoords
    let entry ← match mutation with
      | none => pure []
      | some mutation => do
        let entry ← newEntry task.id mutation
        pure [entry]
    let entries ← relationBackfillEntries task thisCoords rest
    return entry ++ entries

/-- The workspace default stamped at first filing, unless it can never reach the remote. -/
def stampDefaultType (now : Timestamp) (workspace : Workspace) (project : Option Project)
    (filingCanonical : String) (task : Task) : Action (Task × List OutboxEntry) := do
  let derived :=
    if task.issueType.isNone then
      deriveDefaultIssueType task workspace.defaultIssueType workspace.defaultSubIssueType
    else none
  let stamped := derived.elim task fun issueType => task.setIssueTypeDefault now issueType
  let mutation ←
    if stamped.issueType.isSome then
      resolveTypeProjection project (parseGithubOwner filingCanonical) stamped
    else pure none
  match mutation with
  | some mutation => do
    let entry ← newEntry task.id mutation
    return (stamped, [entry])
  | none =>
    if derived.isSome && (project.bind (·.typeField)).isNone then
      return ({ stamped with issueType := none }, [])
    else return (stamped, [])

def stageForPromote (now : Timestamp) (before : Task) (filing : Option RepoOriginId) :
    Except DomainError Task := do
  let staged ← if before.sync = .localOnly then (before.stageForSync now).attempt else .ok before
  (staged.setFilingRepoId now (filing.map RepoOriginId.toRepoId)).attempt

def promote (taskId : TaskId) : Action Task := do
  let before ← loadTask taskId
  ensureNotArchived before
  if before.sync ≠ .localOnly ∧ before.sync ≠ .staged then
    .fail (.domain (.invalidTransition ("cannot promote from sync=" ++ before.sync.debug)))
  else
    let now ← clock
    let workspace ← query (.getWorkspace before.workspaceId)
    let recorded := before.filingRepoId.map RepoId.toOrigin
    let logical ← logicalOriginFor before
    let filing := resolveFilingRepo recorded (workspace.filingRepoId.map RepoId.toOrigin) logical
    let staged ← settled (stageForPromote now before filing)
    let filingCanonical ← requiredFilingCanonical staged
    let mayHaveRun : Bool := before.sync = .staged
    if !mayHaveRun || filing ≠ recorded then saveTask before staged .localEdit [] else pure ()
    let adopted ←
      if mayHaveRun then findPromotedOrphan staged filingCanonical filing else pure none
    let snap ← match adopted with
      | some snap => pure snap
      | none => remote (.createRemote
          { canonicalRepo := filingCanonical, title := staged.title, body := staged.body
            assignees := staged.assignees, labels := [] })
    let promotedAt ← clock
    let promoted ← settled (staged.promoteToRemote promotedAt
      ⟨providerLabel filingCanonical, snap.remoteId, snap.nodeId⟩).attempt
    let relations ← relationBackfillEntries promoted (filingCanonical, snap.remoteId)
      promoted.relations
    let project ← projectForWorkspace workspace
    let (typed, typeEntries) ← stampDefaultType promotedAt workspace project filingCanonical promoted
    saveTask before typed .promote (relations ++ typeEntries)
    return typed

/-- Re-wire a task to another remote; `relink` verifies the redirect and adopts the content. -/
def link (taskId : TaskId) (newCanonical newRemoteId : String) (relink : Bool) : Action Task := do
  let task ← loadTask taskId
  let alreadyPointing := task.remote.any fun remote =>
    remote.provider = "github" ∧ remote.remoteId = newRemoteId
  let samePlace ←
    if alreadyPointing then do
      let canonical ← (logicalCanonicalFor task).attempt
      pure (decide (canonical.toOption = some newCanonical))
    else pure false
  if samePlace then return task
  else
    match ← query (.findByCanonicalUrl task.workspaceId newCanonical) with
    | none => .fail (.domain (.validation ("repo " ++ newCanonical ++
        " is not attached to this workspace; run `rl repo attach <url>` first")))
    | some binding =>
      if relink then
        if task.sync ≠ .synced then
          .fail (.domain (.validation ("--relink is only safe for synced tasks (current: " ++
            task.sync.debug ++ "); finish syncing first or use bare `task link`")))
        else
          match task.remote with
          | none => .fail .noRemote
          | some currentRemote =>
            let currentCanonical ← logicalCanonicalFor task
            match ← remote (.discoverMoveTarget currentCanonical currentRemote.remoteId) with
            | none => .fail (.domain (.validation ("--relink requires the current remote " ++
                currentCanonical ++ "#" ++ currentRemote.remoteId ++ " to redirect; it does not")))
            | some target =>
              if target ≠ (newCanonical, newRemoteId) then
                .fail (.domain (.validation ("--relink target " ++ newCanonical ++ "#" ++
                  newRemoteId ++ " does not match GitHub's redirect target " ++ target.1 ++ "#" ++
                  target.2)))
              else
                let snap ← remote (.fetchRemote newCanonical newRemoteId)
                let now ← clock
                let linked := (copyInboundMirrorFromSnap snap task).linkToRemote now
                  binding.instanceRow.id ⟨"github", newRemoteId, snap.nodeId⟩ false
                let newComments ← remote (.fetchComments newCanonical newRemoteId)
                saveTask task linked .link []
                query (.replaceComments taskId newComments)
                return linked
      else
        match ← tryRemote (.fetchRemote newCanonical newRemoteId) with
        | .ok _ | .error (.issueMoved ..) =>
          let now ← clock
          let linked := task.linkToRemote now binding.instanceRow.id
            ⟨"github", newRemoteId, none⟩ true
          saveTask task linked .link []
          query (.replaceComments taskId [])
          return linked
        | .error error => .fail (.port error)

def transferNodeId (currentFiling : String) (current : RemoteRef) : Action String :=
  match current.nodeId with
  | some nodeId => return nodeId
  | none => do
    let snap ← remote (.fetchRemote currentFiling current.remoteId)
    match snap.nodeId with
    | some nodeId => return nodeId
    | none => .fail (.port (.backend ("issue " ++ currentFiling ++ "#" ++ current.remoteId ++
        " has no GraphQL node id, so it cannot be transferred")))

def transfer (taskId : TaskId) (dstCanonical : String) : Action Task := do
  let task ← loadTask taskId
  ensureNotArchived task
  match task.remote with
  | none => .fail .noRemote
  | some current =>
    if task.sync ≠ .synced then
      .fail (.domain (.validation ("transfer needs a synced task (current: " ++ task.sync.debug ++
        "); push or reconcile it first")))
    else
      match ← query (.findByCanonicalUrl task.workspaceId dstCanonical) with
      | none => .fail (.domain (.validation ("repo " ++ dstCanonical ++
          " is not attached to this workspace; run `rl repo attach <url>` first")))
      | some binding =>
        let currentFiling ← requiredFilingCanonical task
        if currentFiling = dstCanonical then return task
        else
          let pending ← query (.listPending taskId)
          if !pending.isEmpty then
            .fail (.domain (.validation ("task still owes " ++ toString pending.length ++
              " outbox mutation(s) addressed to its current issue (" ++
              ", ".intercalate (pending.map fun entry => entry.mutation.kind) ++
              "); let the daemon drain them before transferring")))
          else
            match ← remote (.discoverMoveTarget currentFiling current.remoteId) with
            | some (toCanonical, toRemoteId) =>
              .fail (.domain (.validation ("issue " ++ currentFiling ++ "#" ++ current.remoteId ++
                " has already moved to " ++ toCanonical ++ "#" ++ toRemoteId ++
                "; reconcile with `rl task link --relink` before transferring again")))
            | none =>
              let issueNodeId ← transferNodeId currentFiling current
              let (newNodeId, newNumber) ← remote (.transferIssue issueNodeId dstCanonical)
              let now ← clock
              let moved := { ({ task with
                  remote := some ⟨current.provider, toString newNumber, some newNodeId⟩
                }).forceSetFilingRepoId now (some binding.origin.id.toRepoId) with
                  projectItemId := none }
              let workspace ← query (.getWorkspace moved.workspaceId)
              let project ← projectForWorkspace workspace
              let entries ← match project with
                | none => pure []
                | some project => do
                  let entry ← newEntry moved.id (.addItem project.id.value newNodeId)
                  pure [entry]
              saveTask task moved .link entries
              return moved

def patchToPush (forcedLocalWins : Bool) (task : Task) : MirrorPatch :=
  if forcedLocalWins then task.fullMirrorPatch else task.diffAgainstBaseline

def sendPatch : Option RemoteTaskUpdate → Action Unit
  | none => return ()
  | some update => do
    let _ ← remote (.updateRemote update)
    return ()

def pushSnapshot (task : Task) (patch : MirrorPatch) (filingCanonical : String)
    (current : RemoteRef) : Action Task := do
  sendPatch (buildUpdateFromPatch patch filingCanonical current.remoteId)
  let now ← clock
  let confirmed ← settled (task.confirmSyncedFields now .push patch).attempt
  saveTask task confirmed .push []
  return confirmed

def drainComment (taskId : TaskId) (filingCanonical : String) (current : RemoteRef) (_ : Unit)
    (comment : TaskComment) : Action Unit :=
  match comment.localId with
  | none => return ()
  | some localId => do
    let pushed ← remote (.createComment filingCanonical current.remoteId comment.body)
    query (.markCommentsPushed taskId [localId] [pushed])

def pendingComments (task : Task) : List TaskComment :=
  task.comments.filter fun comment => comment.remoteId.isNone

def drainComments (taskId : TaskId) (filingCanonical : String) (current : RemoteRef)
    (task : Task) : Action Unit :=
  Program.foldEach (drainComment taskId filingCanonical current) (pendingComments task) ()

def pushInner (taskId : TaskId) (forceAcceptLocal : Bool) : Action (Task × SyncDecision) := do
  let task ← loadTask taskId
  let filingCanonical ← requiredFilingCanonical task
  match task.remote with
  | none => .fail .noRemote
  | some current =>
    let forcedLocalWins := forceAcceptLocal && task.sync = .conflict
    let snapshotDirty := task.sync = .dirtyLocal || task.sync = .staged || forcedLocalWins
    if !snapshotDirty && (pendingComments task).isEmpty then
      .fail (.domain (.invalidTransition
        ("cannot push from sync=" ++ task.sync.debug ++ " with no pending comments")))
    else if snapshotDirty then
      let pushed ← pushSnapshot task (patchToPush forcedLocalWins task) filingCanonical current
      drainComments taskId filingCanonical current task
      return (pushed, .pushLocal)
    else
      drainComments taskId filingCanonical current task
      return (task, .noop)

def pushAcceptLocal (taskId : TaskId) : Action (Task × SyncDecision) := pushInner taskId true

end SyncService

end RepoLink
