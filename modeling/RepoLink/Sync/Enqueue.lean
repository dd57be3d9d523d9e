import RepoLink.Sync.Mirror

/-!
The outbox planners that every service shares: which mutations a mirror task owes, and which of
the two rails carries its issue type.
-/

namespace RepoLink

/-- A `(filing_canonical, remote_id)` pair. -/
abbrev IssueCoords := String × String

def relationMutation (kind : RelationKind) (add : Bool) (this other : IssueCoords) :
    Option OutboxMutation :=
  let mutation (addressed related : IssueCoords) (isSub : Bool) : OutboxMutation :=
    match isSub, add with
    | true, true => .addSubIssue addressed.1 addressed.2 related.1 related.2
    | true, false => .removeSubIssue addressed.1 addressed.2 related.1 related.2
    | false, true => .addBlockedBy addressed.1 addressed.2 related.1 related.2
    | false, false => .removeBlockedBy addressed.1 addressed.2 related.1 related.2
  match kind with
  | .parentOf => some (mutation this other true)
  | .childOf => some (mutation other this true)
  | .blockedBy => some (mutation this other false)
  | .blocks => some (mutation other this false)
  | .relatedTo | .duplicates => none

def isDraftBacked (task : Task) : Bool := task.remote.isNone && task.projectItemId.isSome

def setProjectStatusMutation (project : Project) (task : Task) : Option OutboxMutation := do
  let itemNodeId ← task.projectItemId
  let statusFieldId ← project.statusFieldId
  let optionId ← boardOptionForLifecycle project task.isOpen
  return .setProjectStatus project.id.value itemNodeId statusFieldId optionId

def setProjectPriorityMutation (project : Project) (task : Task) : Option OutboxMutation := do
  let itemNodeId ← task.projectItemId
  let priorityFieldId ← project.priorityFieldId
  let optionId ← project.resolvedPriorityOptionIdFor task.priority
  return .setProjectPriority project.id.value itemNodeId priorityFieldId optionId

def setProjectTypeMutation (project : Project) (task : Task) : Option OutboxMutation := do
  let itemNodeId ← task.projectItemId
  let typeFieldId ← project.typeFieldId
  let localIssueType := task.issueType.map IssueType.display
  match task.issueType with
  | none => return .setProjectType project.id.value itemNodeId typeFieldId none localIssueType true
  | some issueType =>
    let optionId ← project.resolvedTypeOptionIdFor issueType
    return .setProjectType project.id.value itemNodeId typeFieldId (some optionId) localIssueType
      true

def deriveDefaultIssueType (task : Task) (standaloneDefault subIssueDefault : Option String) :
    Option IssueType :=
  let isSubIssue := task.relations.any fun relation => relation.kind = .childOf
  (if isSubIssue then subIssueDefault else standaloneDefault).map IssueType.ofString

/-- `Unmapped` and `NoNode` both leave nothing to enqueue. -/
def setIssueTypeMutation (registry : OrgIssueTypeRegistry) (task : Task) :
    Option OutboxMutation := do
  let remote ← task.remote
  let issueNodeId ← remote.nodeId
  match task.issueType with
  | none => return .setIssueType issueNodeId none none true
  | some issueType =>
    let name := issueType.display
    let registered ← registry.types.find? fun candidate => eqIgnoreAsciiCase candidate.name name
    return .setIssueType issueNodeId (some registered.issueTypeId) (some name) true

def splitOnSlash (text : List Char) : List (List Char) :=
  text.foldr
    (fun char parts => match parts with
      | [] => [[char]]
      | part :: rest => if char = '/' then [] :: part :: rest else (char :: part) :: rest)
    [[]]

def parseGithubOwner (canonical : String) : Option String :=
  let host := "github.com/".toList
  if host.isPrefixOf canonical.toList then
    match splitOnSlash (canonical.toList.drop host.length) with
    | [owner, repo] => if owner.isEmpty || repo.isEmpty then none else some (String.ofList owner)
    | _ => none
  else none

def planMutations (task : Task) (project : Option Project) (filingCanonical : Option String)
    (contentChanged : Bool) : List OutboxMutation :=
  if !task.isMirror then []
  else
    let content : List OutboxMutation :=
      if task.isIssueBacked then
        match task.remote, filingCanonical with
        | some remote, some canonical =>
          [.updateRemote canonical remote.remoteId (some task.title) (some task.body) none]
        | _, _ => []
      else if isDraftBacked task && contentChanged then
        [.updateDraftIssue (task.projectItemId.getD "") (some task.title) (some task.body)]
      else []
    let board : List OutboxMutation :=
      match project with
      | none => []
      | some project =>
        match task.projectItemId with
        | some _ => (setProjectStatusMutation project task).toList
        | none =>
          match task.remote with
          | none => [.createDraftIssue project.id.value task.title task.body]
          | some remote =>
            (remote.nodeId.map fun nodeId => .addItem project.id.value nodeId).toList
    content ++ board

section Lookups

variable {ε : Type} [OfPortError ε]

def projectForWorkspace (workspace : Workspace) : Service ε (Option Project) :=
  match workspace.projectId with
  | none => return none
  | some projectId => return some (← query (.getProject projectId))

def resolveProject (task : Task) : Service ε (Option Project) := do
  let workspace ← query (.getWorkspace task.workspaceId)
  projectForWorkspace workspace

def resolveIssueTypeProjection (filingOwnerLogin : Option String) (task : Task) :
    Service ε (Option OutboxMutation) :=
  match task.issueType with
  | none => return (task.remote.bind (·.nodeId)).map fun issueNodeId =>
      .setIssueType issueNodeId none none true
  | some _ =>
    match filingOwnerLogin with
    | none => return none
    | some owner => do
      let registry ← query (.getOrgIssueTypes owner)
      if !registry.isAvailable then return none
      else return setIssueTypeMutation registry task

def resolveTypeProjection (project : Option Project) (filingOwnerLogin : Option String)
    (task : Task) : Service ε (Option OutboxMutation) :=
  match project with
  | none => resolveIssueTypeProjection filingOwnerLogin task
  | some project =>
    if !project.hasAmbiguousTypeField && project.typeFieldId.isSome then
      return setProjectTypeMutation project task
    else resolveIssueTypeProjection filingOwnerLogin task

/-- The origin of a task's logical repo; `NotFound` (a detached instance) is tolerated. -/
def logicalOriginFor (task : Task) : Service ε (Option RepoOriginId) :=
  match task.repoId with
  | none => return none
  | some repoId => do
    let view ← lookup (.getBinding repoId)
    return view.map fun view => view.instanceRow.originId

def workspaceFilingDefault (workspaceId : WorkspaceId) : Service ε (Option RepoOriginId) := do
  let workspace ← lookup (.getWorkspace workspaceId)
  return (workspace.bind (·.filingRepoId)).map RepoId.toOrigin

/-- `filing_canonical_for` of both services: recorded filing repo, workspace default, logical
repo. A chain without inputs is `none`; `SyncService` turns that into `NoRepo`. -/
def filingCanonicalFor (task : Task) : Service ε (Option String) := do
  let workspaceDefault ← workspaceFilingDefault task.workspaceId
  let logical ← logicalOriginFor task
  match resolveFilingRepo (task.filingRepoId.map RepoId.toOrigin) workspaceDefault logical with
  | none => return none
  | some originId =>
    let origin ← query (.getOrigin originId)
    return some origin.canonicalUrl

/-- `relation_remote_coords` over a workspace cache: a missing workspace has no coordinates. The
cache only saves repeated lookups. -/
def cachedRelationCoords (task : Task) : Service ε (Option IssueCoords) := do
  match ← lookup (.getWorkspace task.workspaceId) with
  | none => return none
  | some workspace =>
    match task.remote with
    | none => return none
    | some remote =>
      let logical ← logicalOriginFor task
      match resolveFilingRepo (task.filingRepoId.map RepoId.toOrigin)
          (workspace.filingRepoId.map RepoId.toOrigin) logical with
      | none => return none
      | some originId =>
        let origin ← query (.getOrigin originId)
        return some (origin.canonicalUrl, remote.remoteId)

end Lookups

end RepoLink
