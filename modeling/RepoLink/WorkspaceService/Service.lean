import RepoLink.Sync.Enqueue

/-!
`WorkspaceService` of `application-workspace`: attaching a workspace to a board and detaching it,
with the repositories that the CLI wires. A board is named by its node id. Beside it the doctor of
`RepoBindingService`: the tasks whose recorded filing repo is gone, listed or re-pointed.
-/

namespace RepoLink

inductive WorkspaceError where
  | port (error : PortError)
  | projectNotFound (spec : String)
  | projectReassignmentUnsupported (current requested : String)
deriving DecidableEq, Repr

instance : OfPortError WorkspaceError := ⟨.port⟩

namespace WorkspaceService

open Effects Program

abbrev Action := Service WorkspaceError

def resolveProject (spec : ProjectId) : Action ProjectId := do
  match ← tryQuery (.getProject spec) with
  | .ok _ => return spec
  | .error (.notFound _) => .fail (.projectNotFound spec.value)
  | .error error => .fail (.port error)

def resolveRequested (spec : Option ProjectId) : Action (Option ProjectId) :=
  match spec with
  | none => return none
  | some spec => return some (← resolveProject spec)

def rejectReassignment (current requested : Option ProjectId) : Action Unit :=
  match current, requested with
  | some current, some requested =>
    if current ≠ requested then
      .fail (.projectReassignmentUnsupported current.value requested.value)
    else return ()
  | _, _ => return ()

def scrubTask (_ : Unit) (task : Task) : Action Unit := do
  let _ ← query (.deletePendingAddItems task.id)
  if task.projectItemId.isSome then
    query (.saveAll [⟨some task, { task with projectItemId := none }, .localEdit⟩] [])
  else return ()

def scrubItems (workspaceId : WorkspaceId) : Action Unit := do
  let tasks ← query (.listTasks { workspaceId := some workspaceId })
  Program.foldEach scrubTask tasks ()

def scrubOnDetach (workspaceId : WorkspaceId) (resolved : Option ProjectId) : Action Unit :=
  if resolved.isNone then scrubItems workspaceId else return ()

/-- One open task of an attach: an issue that is not on the board and not on its way there. -/
def backfillTask (project : Project) (_ : Unit) (task : Task) : Action Unit :=
  if task.projectItemId.isSome then return ()
  else
    match task.remote.bind (·.nodeId) with
    | none => return ()
    | some nodeId => do
      let pending ← query (.listPending task.id)
      let alreadyQueued := pending.any fun entry =>
        match entry.mutation with
        | .addItem projectNodeId _ => projectNodeId = project.id.value
        | _ => false
      if alreadyQueued then return ()
      else
        let entry ← newEntry task.id (.addItem project.id.value nodeId)
        query (.enqueue entry)

def backfill (workspaceId : WorkspaceId) (projectId : ProjectId) : Action Unit := do
  let project ← query (.getProject projectId)
  let tasks ← query (.listTasks { workspaceId := some workspaceId, isOpen := some true })
  Program.foldEach (backfillTask project) tasks ()

/-- Attach a workspace to a board, or detach it: the items are scrubbed before the flip. -/
def setProject (workspaceId : WorkspaceId) (spec : Option ProjectId) : Action Workspace := do
  let workspace ← query (.getWorkspace workspaceId)
  let resolved ← resolveRequested spec
  rejectReassignment workspace.projectId resolved
  scrubOnDetach workspaceId resolved
  let updated := { workspace with projectId := resolved }
  query (.saveWorkspace updated)
  match resolved with
  | none => return updated
  | some projectId =>
    backfill workspaceId projectId
    return updated

end WorkspaceService

structure DoctorRow where
  taskId : TaskId
  title : String
  currentFilingRepoId : RepoOriginId
  targetRepoId : Option RepoOriginId
  repaired : Bool
deriving DecidableEq, Repr

structure DoctorSummary where
  affected : Nat
  repaired : Nat
  unresolved : Nat
  rows : List DoctorRow
deriving DecidableEq, Repr

def DoctorSummary.empty : DoctorSummary := ⟨0, 0, 0, []⟩

def DoctorSummary.report (row : DoctorRow) (summary : DoctorSummary) : DoctorSummary where
  affected := summary.affected + 1
  repaired := if row.repaired then summary.repaired + 1 else summary.repaired
  unresolved := if row.targetRepoId.isNone then summary.unresolved + 1 else summary.unresolved
  rows := summary.rows ++ [row]

namespace RepoBindingService

open Effects Program

abbrev Action := Service WorkspaceError

def resolveDoctorTarget (task : Task) : Action (Option RepoOriginId) := do
  let logical ← match task.repoId with
    | none => pure none
    | some repoId => lookup (.getBinding repoId)
  match logical with
  | some view => return some view.instanceRow.originId
  | none =>
    match task.remote with
    | none => return none
    | some remote =>
      query (.findByRemoteMapping task.workspaceId remote.provider remote.remoteId)

def doctorTarget (targetOverride : Option RepoId) (task : Task) : Action (Option RepoOriginId) :=
  match targetOverride with
  | some forced => return some forced.toOrigin
  | none => resolveDoctorTarget task

def repairTask (repair : Bool) (target : Option RepoOriginId) (taskId : TaskId) : Action Bool :=
  match repair, target with
  | true, some target => do
    let task ← query (.getTask taskId)
    let now ← clock
    let updated := task.forceSetFilingRepoId now (some target.toRepoId)
    query (.saveAll [⟨some task, updated, .filingRepoRepair⟩] [])
    return true
  | _, _ => return false

def doctorTask (repair : Bool) (targetOverride : Option RepoId) (summary : DoctorSummary)
    (task : Task) : Action DoctorSummary :=
  match task.filingRepoId with
  | none => return summary
  | some filingId => do
    match ← lookup (.getOrigin filingId.toOrigin) with
    | some _ => return summary
    | none =>
      let target ← doctorTarget targetOverride task
      let repaired ← repairTask repair target task.id
      return summary.report ⟨task.id, task.title, filingId.toOrigin, target, repaired⟩

def checkOverride (targetOverride : Option RepoId) : Action Unit :=
  match targetOverride with
  | none => return ()
  | some forced => do
    let _ ← query (.getOrigin forced.toOrigin)
    return ()

def doctor (workspaceId : WorkspaceId) (repair : Bool) (targetOverride : Option RepoId) :
    Action DoctorSummary := do
  let _ ← query (.getWorkspace workspaceId)
  checkOverride targetOverride
  let tasks ← query (.listTasks { workspaceId := some workspaceId })
  Program.foldEach (doctorTask repair targetOverride) tasks .empty

end RepoBindingService

end RepoLink
