import RepoLink.Query.ReadyTree
import RepoLink.Store.Database

/-!
The views of `QueryService` over the open work of a workspace: `blocked_tasks`, `assigned_to` and
`ready_view`. They only read, and each is evaluated on one state of the database. Rows hold the
enums in place of their names, and no workspace is shown with its name.
-/

namespace RepoLink

open KeyedTable

structure BlockedTaskRow where
  taskId : TaskId
  title : String
  priority : Priority
  blockedBy : List TaskId
deriving DecidableEq, Repr

structure AssignedTaskRow where
  taskId : TaskId
  title : String
  status : Lifecycle
  syncState : SyncState
  priority : Priority
  blocked : Bool
  remoteId : Option String
  issueType : Option IssueType
  projectStatus : Option String
deriving DecidableEq, Repr

/-- The tree is `none` where building it would panic. -/
structure ReadyWorkspace where
  workspaceId : WorkspaceId
  tree : Option (List ReadyNode)

/-- The orders of the hash containers of `ready_view`. -/
structure ViewOrder where
  tasks : HashOrder Task
  ids : HashOrder TaskId

namespace QueryService

def tasksForGlobalRelationGraph (database : Database) : List Task := database.listTasks {}

def paginate {α : Type} (rows : List α) (filter : TaskFilter) : List α :=
  let rest := rows.drop (filter.offset.getD 0)
  match filter.limit with
  | none => rest
  | some limit => rest.take limit

def blockedRow (openIds : List TaskId) (task : Task) : Option BlockedTaskRow :=
  let blockers := task.blockedBy.filter (· ∈ openIds)
  if blockers = [] then none
  else some
    { taskId := task.id
      title := task.title
      priority := task.priority
      blockedBy := blockers }

def blockedTasks (workspaceId : WorkspaceId) (filter : TaskFilter) (database : Database) :
    List BlockedTaskRow :=
  let all := tasksForGlobalRelationGraph database
  let openIds := (all.filter Task.isOpen).map Task.id
  let rows := database.listTasks
    { filter with
      workspaceId := some workspaceId, isOpen := some true, limit := none, offset := none }
  paginate (rows.filterMap (blockedRow openIds)) filter

def resolveWorkspaceProject (id : WorkspaceId) (database : Database) :
    Except PortError (Option Project) := do
  let workspace ← database.getWorkspace id
  match workspace.projectId with
  | none => return none
  | some projectId => return some (← database.getProject projectId)

def assignedRow (byId : TaskMap) (project : Option Project) (task : Task) : AssignedTaskRow :=
  { taskId := task.id
    title := task.title
    status := task.lifecycle
    syncState := task.sync
    priority := task.priority
    blocked := task.blockedBy.any (opensIn byId)
    remoteId := task.remote.map RemoteRef.remoteId
    issueType := task.issueType
    projectStatus := cachedProjectStatus project task }

def assignedBefore (left right : AssignedTaskRow) : Bool :=
  (!left.blocked && right.blocked) ||
    (left.blocked = right.blocked && left.priority.rank ≤ right.priority.rank)

def assignedTo (workspaceId : WorkspaceId) (assignee : String) (filter : TaskFilter)
    (database : Database) : Except PortError (List AssignedTaskRow) := do
  let byId := mapOf (tasksForGlobalRelationGraph database)
  let tasks := database.listTasks
    { filter with
      workspaceId := some workspaceId, isOpen := some true, assignee := some assignee,
      limit := none, offset := none }
  let project ← resolveWorkspaceProject workspaceId database
  let rows := tasks.map (assignedRow byId project)
  -- the caller's own order stands as the store gave it
  let sorted := if filter.sort.isNone then rows.insertionSort (assignedBefore · ·) else rows
  return paginate sorted filter

def workspacesIn (scope : Option (List WorkspaceId)) (database : Database) :
    Except PortError (List Workspace) :=
  match scope with
  | some ids => ids.mapM fun id => database.getWorkspace id
  | none => .ok (database.workspaces.rows.filter fun workspace =>
      workspace.status ≠ .archived ∧ workspace.status ≠ .deleted)

/-- The candidates of one workspace, narrowed to the bindings of a repo unless there are none. -/
def workspaceTasks (candidates : List Task) (repoIds : List RepoId) (workspaceId : WorkspaceId) :
    List Task :=
  (candidates.filter fun task => task.workspaceId = workspaceId).filter fun task =>
    repoIds.isEmpty || task.repoId.any (· ∈ repoIds)

/-- The entry of one workspace; one with nothing ready is left out. -/
def readyWorkspace (order : ViewOrder) (byId : TaskMap) (candidates : List Task)
    (repoIds : List RepoId) (database : Database) (workspace : Workspace) :
    Except PortError (Option ReadyWorkspace) := do
  let wsTasks := workspaceTasks candidates repoIds workspace.id
  let readyIds := order.ids.iterate ((selectReady byId wsTasks).map Task.id)
  if readyIds.isEmpty then return none
  let project ← resolveWorkspaceProject workspace.id database
  return some ⟨workspace.id, buildReadyTree order.ids wsTasks byId readyIds project⟩

/-- The blockers are looked up among all tasks, also those that the filter leaves out. -/
def readyView (order : ViewOrder) (scope : Option (List WorkspaceId)) (repoIds : List RepoId)
    (filter : TaskFilter) (database : Database) : Except PortError (List ReadyWorkspace) := do
  let byId := mapOf (order.tasks.iterate (tasksForGlobalRelationGraph database))
  let candidates := database.listTasks
    { filter with workspaceId := none, limit := none, offset := none }
  let workspaces ← workspacesIn scope database
  let entries ← workspaces.mapM (readyWorkspace order byId candidates repoIds database)
  return entries.reduceOption

end QueryService

end RepoLink
