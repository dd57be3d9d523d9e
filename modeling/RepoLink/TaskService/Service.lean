import RepoLink.Sync.Enqueue

/-!
`TaskService` of `application-task`: creation, edits, lifecycle verbs, relations, rollback and
the doctor's re-point. A task is addressed by its id; the rendering of the returned DTO, which
only reads after the commit, is left out.
-/

namespace RepoLink

inductive ServiceError where
  | port (error : PortError)
  | domain (error : DomainError)
  | selfRelation
  | relationCycle (kind : RelationKind) (subject other : TaskId)
  | badId (message : String)
  | prefixMismatch (inputPrefix actualPrefix hash : String)
deriving DecidableEq, Repr

instance : OfPortError ServiceError := ⟨.port⟩
instance : OfDomainError ServiceError := ⟨.domain⟩

structure CreateTaskCmd where
  workspaceId : WorkspaceId
  repoId : Option RepoId := none
  title : String
  body : Option String := none
  priority : Option Priority := none
  filingRepoOverride : Option RepoId := none
deriving DecidableEq, Repr

structure ImportMirrorCmd where
  workspaceId : WorkspaceId
  repoId : Option RepoId
  provider : String
  remoteId : String
  title : String
  body : String
  assignees : List String
  closed : Bool
deriving DecidableEq, Repr

/-- `issueType`: the outer `none` leaves the type, `some none` clears it. -/
structure UpdateTaskCmd where
  taskId : TaskId
  title : Option String := none
  body : Option String := none
  priority : Option Priority := none
  assignees : Option (List String) := none
  repoId : Option RepoId := none
  filingRepoOverride : Option RepoId := none
  issueType : Option (Option String) := none
deriving DecidableEq, Repr

namespace TaskService

abbrev Action := Service ServiceError

def resolveTask (id : TaskId) : Action Task := query (.getTask id)

def saveWithOutbox (basis : Option Task) (task : Task) (source : SnapshotSource)
    (entries : List OutboxEntry) : Action Unit :=
  query (.saveAll [{ basis, task, source }] entries)

def intoEntries (taskId : TaskId) : List OutboxMutation → Action (List OutboxEntry)
  | [] => return []
  | mutation :: rest => do
    let entry ← newEntry taskId mutation
    let entries ← intoEntries taskId rest
    return entry :: entries

/-- The hash lengths that `save_with_minted_hash` tries: eight attempts at each of 3 to 8. -/
def mintLengths : List Nat := (List.range' 3 6).flatMap (List.replicate 8)

def saveWithMintedHash (task : Task) (source : SnapshotSource) : List Nat → Action Task
  | [] => .fail (.port (.backend "could not mint unique task hash at any length up to 8"))
  | length :: rest => do
    let hash ← callPort (.freshHash length)
    let minted := { task with hash := hash }
    match ← tryQuery (.saveAll [{ basis := none, task := minted, source }] []) with
    | .ok _ => return minted
    | .error (.conflict (some "tasks.hash") _) => saveWithMintedHash task source rest
    | .error error => .fail (.port error)

def originOfHandle (handle : RepoId) : Action RepoId := do
  let view ← query (.getBinding handle)
  return view.instanceRow.originId.toRepoId

def overrideFiling (now : Timestamp) (handle : Option RepoId) (task : Task) : Action Task :=
  match handle with
  | none => return task
  | some handle => do
    let origin ← originOfHandle handle
    settled (task.setFilingRepoId now (some origin)).attempt

def adoptOrigin (now : Timestamp) (repoId : Option RepoId) (task : Task) : Action Task :=
  match repoId with
  | none => return task
  | some repoId => do
    let origin ← originOfHandle repoId
    return task.forceSetFilingRepoId now (some origin)

def create (cmd : CreateTaskCmd) : Action Task := do
  let id ← callPort .freshTaskId
  let now ← clock
  let draft ← settled (Task.newDraft now id cmd.workspaceId cmd.repoId cmd.title)
  let described := cmd.body.elim draft fun body => draft.setBody now body
  let ranked := cmd.priority.elim described fun priority => described.setPriority now priority
  let filed ← overrideFiling now cmd.filingRepoOverride ranked
  saveWithMintedHash filed .created mintLengths

def importMirror (cmd : ImportMirrorCmd) : Action Task := do
  let id ← callPort .freshTaskId
  let now ← clock
  let mirror ← settled (Task.importMirror now id cmd.workspaceId cmd.repoId
    ⟨cmd.provider, cmd.remoteId, none⟩ cmd.title cmd.body cmd.assignees cmd.closed)
  let filed ← adoptOrigin now cmd.repoId mirror
  saveWithMintedHash filed .pull mintLengths

/-- A comment goes into the comment store alone: no version is written and nothing gets dirty. -/
def addComment (taskId : TaskId) (body author : String) : Action Task := do
  if isBlank body then
    .fail (.domain (.validation "comment body must not be empty"))
  else
    let task ← resolveTask taskId
    let now ← clock
    query (.addPendingComment task.id author body now)
    resolveTask task.id

/-- The edits of `update` up to the repo, in the order of the source. -/
def editFields (now : Timestamp) (cmd : UpdateTaskCmd) (task : Task) :
    Except DomainError Task := do
  let titled ← cmd.title.elim (.ok task) fun title => (task.setTitle now title).attempt
  let described := cmd.body.elim titled fun body => titled.setBody now body
  let ranked := cmd.priority.elim described fun priority => described.setPriority now priority
  let assigned := cmd.assignees.elim ranked fun assignees => ranked.setAssignees now assignees
  cmd.repoId.elim (.ok assigned) fun repoId => (assigned.setRepoId now (some repoId)).attempt

def boundOriginOf (task : Task) : Action (Option RepoOriginId) :=
  match task.repoId with
  | none => return none
  | some repoId => do
    let view ← query (.getBinding repoId)
    return some view.instanceRow.originId

def planPriorityMutation (task : Task) : Action (Option OutboxMutation) := do
  match ← resolveProject task with
  | none => return none
  | some project => return setProjectPriorityMutation project task

def filingRepoOwnerLogin (task : Task) : Action (Option String) := do
  let canonical ← filingCanonicalFor task
  return canonical.bind parseGithubOwner

def planIssueTypeMutation (task : Task) : Action (Option OutboxMutation) := do
  let project ← resolveProject task
  let owner ← filingRepoOwnerLogin task
  resolveTypeProjection project owner task

def recordBoardFiling (now : Timestamp) (workspace : Workspace) (project : Option Project)
    (task : Task) : Action Task :=
  if project.isSome && task.projectItemId.isNone && task.filingRepoId.isNone then do
    let logical ← boundOriginOf task
    let filing := resolveFilingRepo none (workspace.filingRepoId.map RepoId.toOrigin) logical
    settled (task.setFilingRepoId now (filing.map RepoOriginId.toRepoId)).attempt
  else return task

def planMirrorMutations (now : Timestamp) (task : Task) (contentChanged : Bool) :
    Action (List OutboxMutation × Task) := do
  if !task.isMirror then return ([], task)
  else
    let workspace ← query (.getWorkspace task.workspaceId)
    let project ← projectForWorkspace workspace
    let filed ← recordBoardFiling now workspace project task
    let filingCanonical ← filingCanonicalFor filed
    return (planMutations filed project filingCanonical contentChanged, filed)

def planUpdateMutations (now : Timestamp) (task : Task) (syncBefore : SyncState)
    (convertedOrphanDraft : Bool) : Action (List OutboxMutation × Task) := do
  if !task.isMirror then return ([], task)
  else if convertedOrphanDraft then
    let itemNodeId := task.projectItemId.getD ""
    let content : List OutboxMutation :=
      if task.sync ≠ syncBefore then
        [.updateDraftIssue itemNodeId (some task.title) (some task.body)]
      else []
    let filingCanonical ← filingCanonicalFor task
    return (content ++ [.convertDraftToIssue itemNodeId (filingCanonical.getD "")], task)
  else if task.sync = syncBefore then return ([], task)
  else planMirrorMutations now task true

def planWhen (owed : Bool) (plan : Action (Option OutboxMutation)) :
    Action (Option OutboxMutation) :=
  if owed then plan else return none

def railEntries (before task : Task) : Action (List OutboxEntry) := do
  let priorityMutation ←
    planWhen (task.priority ≠ before.priority && task.isMirror) (planPriorityMutation task)
  let priorityEntries ← intoEntries task.id priorityMutation.toList
  let typeMutation ←
    planWhen (task.issueType ≠ before.issueType && task.isMirror) (planIssueTypeMutation task)
  let typeEntries ← intoEntries task.id typeMutation.toList
  return priorityEntries ++ typeEntries

def firstFiling (before task : Task) : Action (Option RepoId) := do
  let wasOrphanDraft := isDraftBacked before && before.repoId.isNone
  if wasOrphanDraft && before.filingRepoId.isNone then
    let workspace ← query (.getWorkspace task.workspaceId)
    let logical ← boundOriginOf task
    return (resolveFilingRepo (task.filingRepoId.map RepoId.toOrigin)
      (workspace.filingRepoId.map RepoId.toOrigin) logical).map RepoOriginId.toRepoId
  else return none

def recordFiling (now : Timestamp) (filing : Option RepoId) (task : Task) : Action Task :=
  if filing.isSome then settled (task.setFilingRepoId now filing).attempt else return task

/-- The edited task before any planning: fields, filing override, issue type, first filing. -/
def editTask (now : Timestamp) (cmd : UpdateTaskCmd) (before : Task) :
    Action (Task × Option RepoId) := do
  let edited ← settled (editFields now cmd before)
  let filed ← overrideFiling now cmd.filingRepoOverride edited
  let typed := cmd.issueType.elim filed fun name =>
    filed.setIssueType now (name.map IssueType.ofString)
  let resolvedFiling ← firstFiling before typed
  let recorded ← recordFiling now resolvedFiling typed
  return (recorded, resolvedFiling)

def update (cmd : UpdateTaskCmd) : Action Task := do
  let before ← resolveTask cmd.taskId
  let now ← clock
  let (edited, resolvedFiling) ← editTask now cmd before
  let (mutations, planned) ← planUpdateMutations now edited before.sync resolvedFiling.isSome
  let entries ← intoEntries planned.id mutations
  let rails ← railEntries before planned
  saveWithOutbox before planned .localEdit (entries ++ rails)
  return planned

def originOfTarget (target : Option RepoId) : Action (Option RepoId) :=
  match target with
  | none => return none
  | some handle => do
    let origin ← originOfHandle handle
    return some origin

def repointFilingRepo (taskId : TaskId) (target : Option RepoId) : Action Task := do
  let origin ← originOfTarget target
  let resolved ← resolveTask taskId
  let before ← resolveTask resolved.id
  let now ← clock
  let repointed := before.forceSetFilingRepoId now origin
  saveWithOutbox before repointed .filingRepoRepair []
  return repointed

def transition (taskId : TaskId) (op : Timestamp → Task → Mutation) : Action Task := do
  let before ← resolveTask taskId
  let now ← clock
  let after ← settled (op now before).attempt
  saveWithOutbox before after .localEdit []
  return after

def stageForSync (taskId : TaskId) : Action Task := transition taskId Task.stageForSync

/-- A lifecycle verb: a transition that leaves `updated_at` alone saves and plans nothing. -/
def transitionMirror (taskId : TaskId) (op : Timestamp → Task → Mutation) : Action Task := do
  let before ← resolveTask taskId
  let now ← clock
  let after ← settled (op now before).attempt
  if after.updatedAt = before.updatedAt then return after
  else
    let (mutations, planned) ← planMirrorMutations now after false
    let entries ← intoEntries planned.id mutations
    saveWithOutbox before planned .localEdit entries
    return planned

def start (taskId : TaskId) : Action Task := transitionMirror taskId fun _ => Task.start
def complete (taskId : TaskId) : Action Task := transitionMirror taskId Task.complete
def reopen (taskId : TaskId) : Action Task := transitionMirror taskId Task.reopen
def archive (taskId : TaskId) : Action Task := transitionMirror taskId Task.archive

def restoreVersion (now : Timestamp) (snapshot : TaskSnapshot) (task : Task) : Task :=
  let content : Task := { task with
    title := snapshot.title
    body := snapshot.body
    lifecycle := snapshot.lifecycle
    sync := snapshot.syncState
    priority := snapshot.priority }
  let typed :=
    if snapshot.issueTypeRecorded then content.setIssueType now snapshot.issueType else content
  ({ typed with
    assignees := snapshot.assignees
    remote := snapshot.remote
    repoId := if snapshot.repoIdRecorded then snapshot.repoId else typed.repoId
  }).reconcileDirtyAgainstBaseline

def rollback (taskId : TaskId) (toVersion : Nat) : Action Task := do
  let before ← resolveTask taskId
  let snapshot ← query (.getSnapshot before.id toVersion)
  let now ← clock
  let restored := restoreVersion now snapshot before
  let rails ← railEntries before restored
  saveWithOutbox before restored .rollback rails
  return restored

end TaskService

end RepoLink
