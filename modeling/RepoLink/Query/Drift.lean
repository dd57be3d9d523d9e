import RepoLink.Ports.Signature
import RepoLink.Query.Views

/-!
`QueryService::drift_report`: the tasks of a workspace that have drifted from the remote, with an
optional live read of the board that is written through to the cache. The workspace comes as a
parsed id, and rows hold the enums in place of their names.
-/

namespace RepoLink

open Effects Program KeyedTable

inductive QueryError where
  | port (error : PortError)
deriving DecidableEq, Repr

instance : OfPortError QueryError := ⟨.port⟩

/-- How board statuses are read; a provider is the answer of its `fetch_item_statuses`. -/
inductive LiveRead where
  | offline
  | unavailable (reason : String)
  | provider (fetchItemStatuses : List String → String → Except PortError ItemStatusPage)

inductive QueryNotice where
  | driftPartiallyLive (liveCount cachedCount : Nat)
  | driftLiveUnavailable (reason : String)
  | driftCacheNotRefreshed (reason : String)
deriving DecidableEq, Repr

structure DriftRow where
  taskId : TaskId
  title : String
  syncState : SyncState
  remoteId : Option String
  reasons : List String
  projectStatus : Option String
  projectStatusExpected : Option String
  lastRefreshedAt : Option Timestamp
deriving DecidableEq, Repr

structure DriftReport where
  rows : List DriftRow
  messages : List QueryNotice
deriving DecidableEq, Repr

abbrev LiveStatuses := Dict String (Option String)

namespace QueryService

def projectAxis (project : Option Project) (task : Task) (actualId : Option String) :
    Option String × Option String × Bool :=
  match project with
  | none => (none, none, false)
  | some project =>
    let expectedId := project.resolvedOptionIdFor task.isOpen
    let isDrift :=
      match actualId, expectedId with
      | some actual, some expected => actual ≠ expected
      | _, _ => false
    (actualId.bind project.optionNameFor, expectedId.bind project.optionNameFor, isDrift)

def actualStatus (live : LiveStatuses) (task : Task) : Option String :=
  (task.projectItemId.bind live.get?).getD task.projectStatusOptionId

def syncDrifts (task : Task) : Bool :=
  match task.sync with
  | .dirtyLocal | .dirtyRemote | .conflict => true
  | _ => false

def driftRow (project : Option Project) (live : LiveStatuses) (task : Task) (filingDrift : Bool) :
    Option DriftRow :=
  let (projectStatus, projectStatusExpected, projectDrift) :=
    projectAxis project task (actualStatus live task)
  if !syncDrifts task && !projectDrift && !filingDrift then none
  else some
    { taskId := task.id
      title := task.title
      syncState := task.sync
      remoteId := task.remote.map RemoteRef.remoteId
      reasons := (if syncDrifts task then ["sync"] else []) ++
        (if projectDrift then ["project_status"] else []) ++
        (if filingDrift then ["filing_repo"] else [])
      projectStatus
      projectStatusExpected
      lastRefreshedAt := task.syncedAt }

def filingDrifts (task : Task) : Service QueryError Bool :=
  match task.filingRepoId with
  | none => return false
  | some filingId => do
    let origin ← lookup (.getOrigin filingId.toOrigin)
    return origin.isNone

def driftRows (project : Option Project) (live : LiveStatuses) :
    List Task → List DriftRow → Service QueryError (List DriftRow) :=
  Program.foldEach fun rows task =>
    if task.lifecycle = .notPlanned then return rows
    else do
      let filingDrift ← filingDrifts task
      return rows ++ (driftRow project live task filingDrift).toList

def candidates (tasks : List Task) : List (Task × String) :=
  (tasks.filter fun task => task.lifecycle ≠ .notPlanned).filterMap fun task =>
    task.projectItemId.map fun item => (task, item)

def refreshCache (live : LiveStatuses) :
    List (Task × String) → Service QueryError (List QueryNotice)
  | [] => return []
  | (task, item) :: rest =>
    match live.get? item with
    | none => refreshCache live rest
    | some optionId =>
      if optionId = task.projectStatusOptionId then refreshCache live rest
      else do
        match ← tryQuery (.cacheProjectStatus task.id optionId) with
        | .ok _ => refreshCache live rest
        | .error error => return [.driftCacheNotRefreshed error.message]

/-- The statuses of the tasks on the board, with notices; whatever fails leaves the map empty. -/
def liveStatuses (read : LiveRead) (project : Option Project) (tasks : List Task) :
    Service QueryError (LiveStatuses × List QueryNotice) :=
  match read with
  | .offline => return (Dict.empty, [])
  | .unavailable reason => return (Dict.empty, [.driftLiveUnavailable reason])
  | .provider fetchItemStatuses =>
    match project.bind Project.statusFieldId with
    | none => return (Dict.empty, [])
    | some fieldId =>
      if (candidates tasks).isEmpty then return (Dict.empty, [])
      else
        let ids := (candidates tasks).map Prod.snd
        match fetchItemStatuses ids fieldId with
        | .error error => return (Dict.empty, [.driftLiveUnavailable error.message])
        | .ok page => do
          let liveCount := page.statuses.rows.length
          let cachedCount := ids.length - liveCount
          let partly := if 0 < cachedCount then [.driftPartiallyLive liveCount cachedCount] else []
          let notices ← refreshCache page.statuses (candidates tasks)
          return (page.statuses, partly ++ notices)

def resolveProject (id : WorkspaceId) : Service QueryError (Option Project) := do
  let workspace ← query (.getWorkspace id)
  match workspace.projectId with
  | none => return none
  | some projectId => do
    let project ← query (.getProject projectId)
    return some project

def driftReport (workspaceId : WorkspaceId) (read : LiveRead) : Service QueryError DriftReport := do
  let tasks ← query (.listTasks { workspaceId := some workspaceId })
  let project ← resolveProject workspaceId
  let (live, messages) ← liveStatuses read project tasks
  let rows ← driftRows project live tasks []
  return { rows, messages }

def drift (workspaceId : WorkspaceId) : Service QueryError (List DriftRow) := do
  let report ← driftReport workspaceId .offline
  return report.rows

end QueryService

end RepoLink
