import RepoLink.Sync.Mirror

/-!
`ProjectPoller`: enumerate the boards, reconcile the items that changed since each board's
watermark against a bounded working set of tasks, and stamp the tasks whose board was observed.

The working set is a list of pairs in place of a hash map; a later task of one item id replaces
an earlier one.
-/

namespace RepoLink

open Effects

structure PollReport where
  projectsPolled : Nat := 0
  itemsSeen : Nat := 0
  itemsMatched : Nat := 0
  itemsUnmatched : Nat := 0
  partialProjects : Nat := 0
  tasksRefreshed : Nat := 0
  contentDriftMarked : Nat := 0
deriving DecidableEq, Repr

/-- The in-process `since` of each project; a project without one is at the epoch. -/
abbrev Watermarks := List (ProjectId × Timestamp)

def Watermarks.watermark (project : ProjectId) (watermarks : Watermarks) : Timestamp :=
  (watermarks.lookup project).getD .epoch

def Watermarks.set (project : ProjectId) (instant : Timestamp) (watermarks : Watermarks) :
    Watermarks := (project, instant) :: watermarks

abbrev WorkingSet := List (String × Task)

def WorkingSet.insert (itemId : String) (task : Task) (tasks : WorkingSet) : WorkingSet :=
  tasks.filter (fun entry => entry.1 ≠ itemId) ++ [(itemId, task)]

/-- An item whose reconcile against a task ran to its end. -/
structure Reconciled where
  project : ProjectId
  item : RemoteProjectItem
  taskId : TaskId
deriving DecidableEq, Repr

/-- What one pass carries. Nothing reads `reconciled`: it tells which items the pass dealt with
and for which it only logged a failure. -/
structure PollPass where
  byItemId : WorkingSet
  report : PollReport
  watermarks : Watermarks
  completedProjects : List ProjectId
  reconciled : List Reconciled
deriving DecidableEq, Repr

namespace ProjectPoller

abbrev Action := Service SyncError

def pollQuery : String := ""

def pollLimit : Nat := 200

def indexByItem (tasks : List Task) : WorkingSet :=
  tasks.foldl
    (fun index task => match task.projectItemId with
      | some itemId => index.insert itemId task
      | none => index)
    []

def indexStaleCandidates : Action WorkingSet := do
  let now ← clock
  let tasks ← query (.listTasks
    { hasProjectItemId := true, pollableWorkspacesOnly := true, syncedAtLt := some now
      limit := some pollLimit })
  return indexByItem tasks

/-- The outcome of one write of a reconcile: the indexed task afterwards, and whether a failure
was logged. -/
abbrev Outcome := Task × Bool

/-- Content drift: a clean task whose content diverged becomes `DirtyRemote`. -/
def markDrift (item : RemoteProjectItem) (task full : Task) : Action (Outcome × Nat) :=
  match full.sync, full.syncedBaseline with
  | .synced, some baseline =>
    if inboundMirrorsBaseline item.title item.body baseline.assignees item.closed baseline then
      return ((task, true), 0)
    else do
      match ← tryQuery (.markRemoteDirty task.id) with
      | .ok _ => return (({ task with sync := .dirtyRemote }, true), 1)
      | .error _ => return ((task, false), 0)
  | _, _ => return ((task, true), 0)

def reconcileContent (item : RemoteProjectItem) (task : Task) : Action (Outcome × Nat) := do
  match ← tryQuery (.getTask task.id) with
  | .ok full => markDrift item task full
  | .error _ => return ((task, false), 0)

def hasPendingPriorityPush (taskId : TaskId) : Action (Bool × Bool) := do
  match ← tryQuery (.listPending taskId) with
  | .ok entries =>
    let entries : List OutboxEntry := entries
    return (entries.any fun entry => entry.mutation.kind = "set_project_priority", true)
  | .error _ => return (true, false)

/-- The board option that asks for another priority than the task's, with that priority. -/
def polledPriority (project : Project) (item : RemoteProjectItem) (task : Task) :
    Option Priority := do
  let fieldId ← project.priorityFieldId
  let optionId ← item.singleSelectOptions.lookup fieldId
  if project.resolvedPriorityOptionIdFor task.priority = some optionId then none
  else project.priorityForOptionId optionId

def applyPriority (task : Task) (priority : Priority) : Action Outcome := do
  match ← tryQuery (.applyPolledPriority task.id priority) with
  | .ok _ => return ({ task with priority }, true)
  | .error _ => return (task, false)

def reconcilePriority (project : Project) (item : RemoteProjectItem) (task : Task) :
    Action Outcome :=
  match polledPriority project item task with
  | none => return (task, true)
  | some priority => do
    let (owes, read) ← hasPendingPriorityPush task.id
    if owes then return (task, read) else applyPriority task priority

def reconcileStatus (item : RemoteProjectItem) (task : Task) : Action Outcome :=
  if task.projectStatusOptionId = item.statusOptionId then return (task, true)
  else do
    match ← tryQuery (.cacheProjectStatus task.id item.statusOptionId) with
    | .ok _ => return ({ task with projectStatusOptionId := item.statusOptionId }, true)
    | .error _ => return (task, false)

/-- An item without a task in the working set is logged and skipped. -/
def reconcileItem (project : Project) (pass : PollPass) (item : RemoteProjectItem) :
    Action PollPass :=
  match pass.byItemId.lookup item.itemNodeId with
  | none => return { pass with report :=
      { pass.report with itemsUnmatched := pass.report.itemsUnmatched + 1 } }
  | some task => do
    let ((drifted, driftDone), marked) ← reconcileContent item task
    let (ranked, priorityDone) ← reconcilePriority project item drifted
    let (settled, statusDone) ← reconcileStatus item ranked
    return { pass with
      byItemId := pass.byItemId.insert item.itemNodeId settled
      report := { pass.report with
        itemsMatched := pass.report.itemsMatched + 1
        contentDriftMarked := pass.report.contentDriftMarked + marked }
      reconciled := pass.reconciled ++
        if driftDone && priorityDone && statusDone then
          [Reconciled.mk project.id item task.id]
        else [] }

def changedSince (since : Timestamp) (items : List RemoteProjectItem) : List RemoteProjectItem :=
  items.filter fun item => since < item.updatedAt

def later (left right : Timestamp) : Timestamp := if left < right then right else left

/-- The newest `updated_at` of the page, and at least `since`. -/
def maxSeen (since : Timestamp) (items : List RemoteProjectItem) : Timestamp :=
  items.foldl (fun seen item => if seen < item.updatedAt then item.updatedAt else seen) since

def advance (project : ProjectId) (since : Timestamp) (page : PollPage) (pass : PollPass) :
    PollPass :=
  if page.truncated then
    { pass with report :=
        { pass.report with partialProjects := pass.report.partialProjects + 1 } }
  else
    let seen := maxSeen since page.items
    { pass with
      completedProjects := project :: pass.completedProjects
      watermarks :=
        if since < seen then pass.watermarks.set project (later since seen.minusOneSecond)
        else pass.watermarks }

def pollProject (pass : PollPass) (project : Project) : Action PollPass :=
  match project.statusFieldId with
  | none => return pass
  | some statusFieldId => do
    let polled := { pass with report :=
      { pass.report with projectsPolled := pass.report.projectsPolled + 1 } }
    let since := pass.watermarks.watermark project.id
    match ← tryRemote (.pollProjectItems project.id.value statusFieldId pollQuery) with
    | .error _ => return polled
    | .ok page =>
      let page : PollPage := page
      let seen := { polled with report :=
        { polled.report with itemsSeen := polled.report.itemsSeen + page.items.length } }
      let reconciled ← Program.foldEach (reconcileItem project) (changedSince since page.items) seen
      return advance project.id since page reconciled

/-- The first project of the workspace; a failed lookup counts as none. -/
def projectOfWorkspace (workspaceId : WorkspaceId) : Action (Option ProjectId) := do
  match ← tryQuery (.listProjectsByWorkspace workspaceId) with
  | .ok projects =>
    let projects : List Project := projects
    return projects.head?.map (·.id)
  | .error _ => return none

/-- Stamp a candidate whose board was completely observed; a failure is logged. -/
def stampFreshness (completed : List ProjectId) (refreshed : Nat) (task : Task) : Action Nat := do
  match ← projectOfWorkspace task.workspaceId with
  | none => return refreshed
  | some projectId =>
    if projectId ∈ completed then do
      let now ← clock
      match ← tryQuery (.cacheSyncedAt task.id now .polled) with
      | .ok _ => return refreshed + 1
      | .error _ => return refreshed
    else return refreshed

/-- One pass. The per-workspace memo of the source only saves repeated lookups. -/
def pollOnce (watermarks : Watermarks) : Action PollPass := do
  let projects ← query .listProjects
  let projects : List Project := projects
  if projects.isEmpty then return ⟨[], {}, watermarks, [], []⟩
  else
    let byItemId ← indexStaleCandidates
    let pass ← Program.foldEach pollProject projects ⟨byItemId, {}, watermarks, [], []⟩
    let refreshed ← Program.foldEach (stampFreshness pass.completedProjects)
      (pass.byItemId.map Prod.snd) 0
    return { pass with report := { pass.report with tasksRefreshed := refreshed } }

end ProjectPoller

end RepoLink
