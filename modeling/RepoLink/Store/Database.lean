import RepoLink.Store.OutboxTable
import RepoLink.Store.TaskTable

/-!
The SQLite database: tasks and outbox together with the configuration tables, and the
statements of `SqliteTaskRepository` over it. A transaction that fails leaves no trace.
-/

namespace RepoLink

open KeyedTable

/-- `repo_origins`, whose canonical URL is unique. -/
structure OriginTable where
  table : Table RepoOrigin.id
  urls : (table.rows.map RepoOrigin.canonicalUrl).Nodup

structure Database where
  tasks : TaskTable
  outbox : OutboxTable
  workspaces : Table Workspace.id
  projects : Table Project.id
  orgIssueTypes : List OrgIssueTypeRegistry
  origins : OriginTable
  instances : Table RepoInstance.id

/-- One task of a transaction. `basis` is the copy that the caller had loaded; no statement
reads it. -/
structure TaskWrite where
  basis : Option Task
  task : Task
  source : SnapshotSource
deriving DecidableEq, Repr

def Lifecycle.columnRank : Lifecycle → Nat
  | .completed => 0
  | .notPlanned => 1
  | .open => 2
  | .reopened => 3

def SyncState.columnRank : SyncState → Nat
  | .conflict => 0
  | .dirtyLocal => 1
  | .dirtyRemote => 2
  | .localOnly => 3
  | .staged => 4
  | .synced => 5

inductive TaskSortKey where
  | createdAt
  | updatedAt
  | priority
  | title
  | lifecycle
  | syncState
  | syncedAt
deriving DecidableEq, Repr

inductive SortDirection where
  | asc
  | desc
deriving DecidableEq, Repr

structure TaskSort where
  key : TaskSortKey
  direction : SortDirection := .asc
deriving DecidableEq, Repr

/-- `sort_column` and how SQLite compares it: a `NULL` stands before every value. -/
def TaskSortKey.precedes (left right : Task) : TaskSortKey → Bool
  | .createdAt => left.createdAt < right.createdAt
  | .updatedAt => left.updatedAt < right.updatedAt
  | .priority => left.priority.rank < right.priority.rank
  | .title => left.title < right.title
  | .lifecycle => left.lifecycle.columnRank < right.lifecycle.columnRank
  | .syncState => left.sync.columnRank < right.sync.columnRank
  | .syncedAt =>
    match left.syncedAt, right.syncedAt with
    | none, some _ => true
    | some before, some after => before < after
    | _, none => false

def TaskSort.precedes (sort : TaskSort) (left right : Task) : Bool :=
  match sort.direction with
  | .asc => sort.key.precedes left right
  | .desc => sort.key.precedes right left

structure TaskFilter where
  workspaceId : Option WorkspaceId := none
  repoId : Option RepoId := none
  isOpen : Option Bool := none
  syncState : Option SyncState := none
  issueTypePending : Bool := false
  hasProjectItemId : Bool := false
  pollableWorkspacesOnly : Bool := false
  syncedAtLt : Option Timestamp := none
  limit : Option Nat := none
  offset : Option Nat := none
  priorities : List Priority := []
  assignee : Option String := none
  issueType : Option String := none
  createdAfter : Option Timestamp := none
  createdBefore : Option Timestamp := none
  updatedAfter : Option Timestamp := none
  updatedBefore : Option Timestamp := none
  sort : Option TaskSort := none
deriving DecidableEq, Repr

namespace Database

def record (database : Database) (id : TaskId) : Option TaskRecord := database.tasks.find id

/-- The task as `get` would return it now. -/
def stored (database : Database) (id : TaskId) : Option Task :=
  (database.record id).map TaskRecord.load

def getTask (id : TaskId) (database : Database) : Except PortError Task :=
  match database.stored id with
  | none => .error (.notFound "task")
  | some task => .ok task

theorem getTask_ok {id : TaskId} {database : Database} {task : Task}
    (found : database.getTask id = .ok task) : database.stored id = some task := by
  unfold getTask at found
  split at found
  · cases found
  · rename_i stored storedEq
    cases found
    exact storedEq

theorem record_id {database : Database} {id : TaskId} {record : TaskRecord}
    (found : database.record id = some record) : record.id = id := Table.find_key found

theorem stored_id {database : Database} {id : TaskId} {task : Task}
    (found : database.stored id = some task) : task.id = id := by
  obtain ⟨record, recordFound, rfl⟩ := Option.map_eq_some_iff.mp found
  exact record_id recordFound

def findTask (wanted : TaskRecord → Bool) (database : Database) : Option Task :=
  (database.tasks.rows.find? wanted).map TaskRecord.load

def findByHash (hash : String) (database : Database) : Option Task :=
  if hash = "" then none else database.findTask fun record => record.row.hash = hash

def mirrors (filingRepoId : RepoOriginId) (provider remoteId : String) (record : TaskRecord) :
    Bool :=
  record.row.filingRepoId = some filingRepoId.toRepoId &&
    record.row.remote.any fun remote => remote.provider = provider ∧ remote.remoteId = remoteId

def findByRemote (filingRepoId : RepoOriginId) (provider remoteId : String)
    (database : Database) : Option Task :=
  database.findTask (mirrors filingRepoId provider remoteId)

def trackedRemoteIds (filingRepoId : RepoOriginId) (provider : String) (remoteIds : List String)
    (database : Database) : List String :=
  remoteIds.filter fun remoteId =>
    database.tasks.rows.any (mirrors filingRepoId provider remoteId)

def workspaceOf (database : Database) (record : TaskRecord) : Option Workspace :=
  database.workspaces.find record.row.workspaceId

def pollable (database : Database) (record : TaskRecord) : Bool :=
  (database.workspaceOf record).any fun workspace =>
    workspace.status = .active ∧ workspace.projectId.isSome

def inWindow (after before : Option Timestamp) (instant : Timestamp) : Bool :=
  (after.all fun bound => bound ≤ instant) && before.all fun bound => instant < bound

def matchesFilter (filter : TaskFilter) (database : Database) (record : TaskRecord) : Bool :=
  (!filter.pollableWorkspacesOnly || database.pollable record) &&
  (filter.workspaceId.all fun wanted => record.row.workspaceId = wanted) &&
  (filter.repoId.all fun wanted => record.row.repoId = some wanted) &&
  (filter.isOpen.all fun wanted => record.row.isOpen = wanted) &&
  (filter.syncState.all fun wanted => record.row.sync = wanted) &&
  (!filter.hasProjectItemId || record.row.projectItemId.isSome) &&
  (!filter.issueTypePending || record.row.issueTypePending) &&
  (filter.syncedAtLt.all fun instant =>
    record.row.syncedAt.all fun syncedAt => syncedAt < instant) &&
  (filter.priorities.isEmpty || record.row.priority ∈ filter.priorities) &&
  (filter.assignee.all fun wanted => wanted ∈ record.row.assignees) &&
  (filter.issueType.all fun wanted => record.row.issueType.any fun kind => kind.display = wanted) &&
  inWindow filter.createdAfter filter.createdBefore record.row.createdAt &&
  inWindow filter.updatedAfter filter.updatedBefore record.row.updatedAt

/-- `ORDER BY` the caller's column, else `synced_at` under the stale scan (`NULL` first), else by
creation; then by id. -/
def listedBefore (filter : TaskFilter) (left right : TaskRecord) : Bool :=
  let key (record : TaskRecord) : Option Int :=
    match filter.syncedAtLt with
    | none => some record.row.createdAt.nanos
    | some _ => record.row.syncedAt.map Timestamp.nanos
  match filter.sort with
  | some sort =>
    sort.precedes left.row right.row ||
      (!sort.precedes right.row left.row && left.id.value ≤ right.id.value)
  | none =>
    match key left, key right with
    | none, some _ => true
    | some _, none => false
    | none, none => left.id.value ≤ right.id.value
    | some before, some after =>
      before < after || (before = after && left.id.value ≤ right.id.value)

def asI64 (value : Nat) : Int := Int.bmod value (2 ^ 64)

/-- `LIMIT .. OFFSET ..`: a negative limit is none, and a negative offset is 0. -/
def limitRows {ρ : Type} (limit offset : Option Nat) (rows : List ρ) : List ρ :=
  let rest := rows.drop ((offset.map fun offset => (asI64 offset).toNat).getD 0)
  match limit with
  | none => rest
  | some limit => if asI64 limit < 0 then rest else rest.take (asI64 limit).toNat

theorem limitRows_sublist {ρ : Type} (limit offset : Option Nat) (rows : List ρ) :
    (limitRows limit offset rows).Sublist rows := by
  unfold limitRows
  dsimp only
  split
  · exact List.drop_sublist _ _
  · split
    · exact List.drop_sublist _ _
    · exact (List.take_sublist _ _).trans (List.drop_sublist _ _)

def listTasks (filter : TaskFilter) (database : Database) : List Task :=
  let rows := (database.tasks.rows.filter (database.matchesFilter filter)).insertionSort
    (listedBefore filter · ·)
  (limitRows filter.limit filter.offset rows).map TaskRecord.loadListed

theorem mem_listTasks {database : Database} {filter : TaskFilter} (whole : filter.limit = none)
    (first : filter.offset = none) {task : Task} :
    task ∈ database.listTasks filter ↔ ∃ record ∈ database.tasks.rows,
      database.matchesFilter filter record = true ∧ record.loadListed = task := by
  unfold listTasks limitRows
  dsimp only
  rw [whole, first, Option.map_none, Option.getD_none, List.drop_zero]
  simp only [List.mem_map, List.mem_insertionSort, List.mem_filter, and_assoc]

theorem listed_record {database : Database} {filter : TaskFilter} {task : Task}
    (listed : task ∈ database.listTasks filter) : ∃ record ∈ database.tasks.rows,
      database.matchesFilter filter record = true ∧ record.loadListed = task := by
  unfold listTasks at listed
  obtain ⟨record, member, rfl⟩ := List.mem_map.mp listed
  have sorted : record ∈ (database.tasks.rows.filter (database.matchesFilter filter)).insertionSort
      (listedBefore filter · ·) := (limitRows_sublist _ _ _).subset member
  obtain ⟨stored, matched⟩ := List.mem_filter.mp ((List.mem_insertionSort _).mp sorted)
  exact ⟨record, stored, matched, rfl⟩

theorem listTasks_distinct (filter : TaskFilter) (database : Database) :
    ((database.listTasks filter).map Task.id).Nodup := by
  have rows : (((database.tasks.rows.filter (database.matchesFilter filter)).insertionSort
      (listedBefore filter · ·)).map TaskRecord.id).Nodup := by
    rw [((List.perm_insertionSort _ _).map TaskRecord.id).nodup_iff]
    exact (List.filter_sublist.map TaskRecord.id).nodup database.tasks.distinct
  unfold listTasks
  dsimp only
  rw [List.map_map]
  exact ((limitRows_sublist _ _ _).map TaskRecord.id).nodup rows

def references (database : Database) (task : Task) : Bool :=
  (database.workspaces.find task.workspaceId).isSome &&
    task.repoId.all fun repoId => (database.instances.find repoId).isSome

def writeTasks (references : Task → Bool) (instant : Timestamp) :
    List TaskWrite → TaskTable → Except PortError TaskTable
  | [], tasks => .ok tasks
  | write :: rest, tasks => do
    let written ← tasks.writeTaskInTx references instant write.source write.task
    writeTasks references instant rest written

def insertEntries : List OutboxEntry → OutboxTable → Except PortError OutboxTable
  | [], outbox => .ok outbox
  | entry :: rest, outbox => do
    let inserted ← outbox.insertOutboxInTx entry
    insertEntries rest inserted

theorem writeTasks_cons_ok {references : Task → Bool} {instant : Timestamp} {write : TaskWrite}
    {rest : List TaskWrite} {before after : TaskTable}
    (written : writeTasks references instant (write :: rest) before = .ok after) :
    ∃ middle, before.writeTaskInTx references instant write.source write.task = .ok middle ∧
      writeTasks references instant rest middle = .ok after := by
  rw [writeTasks] at written
  cases first : before.writeTaskInTx references instant write.source write.task with
  | error error =>
      rw [first] at written
      cases written
  | ok middle =>
      rw [first] at written
      exact ⟨middle, rfl, written⟩

theorem insertEntries_cons_ok {entry : OutboxEntry} {rest : List OutboxEntry}
    {before after : OutboxTable} (inserted : insertEntries (entry :: rest) before = .ok after) :
    ∃ middle, before.insertOutboxInTx entry = .ok middle ∧
      insertEntries rest middle = .ok after := by
  rw [insertEntries] at inserted
  cases first : before.insertOutboxInTx entry with
  | error error =>
      rw [first] at inserted
      cases inserted
  | ok middle =>
      rw [first] at inserted
      exact ⟨middle, rfl, inserted⟩

/-- `save`, `save_many`, `save_with_outbox` and `save_many_with_outbox` in one. -/
def saveAll (instant : Timestamp) (writes : List TaskWrite) (entries : List OutboxEntry)
    (database : Database) : Except PortError Database := do
  let tasks ← writeTasks database.references instant writes database.tasks
  let outbox ← insertEntries entries database.outbox
  return { database with tasks, outbox }

theorem saveAll_ok {instant : Timestamp} {writes : List TaskWrite} {entries : List OutboxEntry}
    {before after : Database} (saved : before.saveAll instant writes entries = .ok after) :
    ∃ tasks outbox, writeTasks before.references instant writes before.tasks = .ok tasks ∧
      insertEntries entries before.outbox = .ok outbox ∧
      after = { before with tasks, outbox } := by
  simp only [saveAll] at saved
  cases written : writeTasks before.references instant writes before.tasks with
  | error error => rw [written] at saved; cases saved
  | ok tasks =>
      rw [written] at saved
      cases inserted : insertEntries entries before.outbox with
      | error error => simp [bind, Except.bind, inserted] at saved
      | ok outbox =>
          simp only [bind, Except.bind, inserted] at saved
          cases saved
          exact ⟨tasks, outbox, rfl, rfl, rfl⟩

theorem saveAll_single {instant : Timestamp} {write : TaskWrite} {entries : List OutboxEntry}
    {before after : Database} (saved : before.saveAll instant [write] entries = .ok after)
    (id : TaskId) : after.record id =
      if id = write.task.id then
        some (.write instant write.source write.task (before.record write.task.id))
      else before.record id := by
  obtain ⟨tasks, outbox, written, _, rfl⟩ := saveAll_ok saved
  obtain ⟨stored, first, written⟩ := writeTasks_cons_ok written
  cases written
  exact (TaskTable.writeTaskInTx_ok first).2 id

def updateRecord (id : TaskId) (change : TaskRecord → TaskRecord)
    (keeps : ∀ record, (change record).id = record.id) (database : Database) : Database :=
  { database with tasks :=
      database.tasks.modify id change fun record same => (keeps record).trans same }

theorem record_updateRecord (id : TaskId) (change : TaskRecord → TaskRecord)
    (keeps : ∀ record, (change record).id = record.id) (database : Database) (wanted : TaskId) :
    (database.updateRecord id change keeps).record wanted =
      if wanted = id then (database.record wanted).map change else database.record wanted :=
  Table.find_modify id change (fun record same => (keeps record).trans same) database.tasks wanted

def updateRow (id : TaskId) (change : Task → Task) (keeps : ∀ row, (change row).id = row.id)
    (database : Database) : Database :=
  database.updateRecord id (fun record => { record with row := change record.row })
    fun record => keeps record.row

theorem record_updateRow (id : TaskId) (change : Task → Task)
    (keeps : ∀ row, (change row).id = row.id) (database : Database) (wanted : TaskId) :
    (database.updateRow id change keeps).record wanted =
      if wanted = id then (database.record wanted).map fun record =>
        { record with row := change record.row }
      else database.record wanted :=
  record_updateRecord id _ _ database wanted

def cacheProjectStatus (id : TaskId) (optionId : Option String) (database : Database) : Database :=
  database.updateRow id (fun row => { row with projectStatusOptionId := optionId }) fun _ => rfl

def applyPolledPriority (id : TaskId) (priority : Priority) (database : Database) : Database :=
  database.updateRow id (fun row => { row with priority }) fun _ => rfl

def dirtiedRemotely (row : Task) : Task :=
  { row with sync := if row.sync = .synced then .dirtyRemote else row.sync }

def markRemoteDirty (id : TaskId) (database : Database) : Database :=
  database.updateRow id dirtiedRemotely fun _ => rfl

def cacheRemoteNodeId (id : TaskId) (nodeId : String) (database : Database) : Database :=
  database.updateRow id
    (fun row => { row with
      remote := row.remote.map fun remote => { remote with nodeId := some nodeId } })
    fun _ => rfl

def clearIssueTypePending (id : TaskId) (expected : Option IssueType) (database : Database) :
    Bool × Database :=
  ((database.record id).any fun record =>
      record.row.issueTypePending ∧ record.row.issueType = expected.map IssueType.stored,
    database.updateRow id
      (fun row => { row with issueTypePending :=
        row.issueTypePending && row.issueType ≠ expected.map IssueType.stored })
      fun _ => rfl)

def cacheSyncedAt (id : TaskId) (syncedAt : Timestamp) (database : Database) : Database :=
  database.updateRow id (fun row => { row with syncedAt := some syncedAt }) fun _ => rfl

/-- A transaction on the comments of one task; a row of no task violates the foreign key. -/
def changeComments (change : CommentTable → Except PortError CommentTable) (id : TaskId)
    (database : Database) : Except PortError Database :=
  match database.record id with
  | none => do
    let orphaned ← change .empty
    if orphaned.rows.isEmpty then return database else .error foreignKeyViolation
  | some record => do
    let comments ← change record.comments
    return database.updateRecord id (fun record => { record with comments }) fun _ => rfl

def getSnapshot (id : TaskId) (version : Nat) (database : Database) :
    Except PortError TaskSnapshot :=
  match (database.record id).bind fun record => record.snapshots.get version with
  | none => .error (.notFound "task version")
  | some snapshot => .ok snapshot

def getWorkspace (id : WorkspaceId) (database : Database) : Except PortError Workspace :=
  match database.workspaces.find id with
  | none => .error (.notFound "workspace")
  | some workspace => .ok workspace

def saveWorkspace (workspace : Workspace) (database : Database) : Database :=
  { database with workspaces :=
      database.workspaces.upsert workspace (fun _ => workspace) fun _ _ => rfl }

def getProject (id : ProjectId) (database : Database) : Except PortError Project :=
  match database.projects.find id with
  | none => .error (.notFound "project")
  | some project => .ok project

def listProjectsByWorkspace (id : WorkspaceId) (database : Database) : List Project :=
  (((database.workspaces.find id).bind (·.projectId)).bind database.projects.find).toList

def getOrgIssueTypes (ownerLogin : String) (database : Database) : OrgIssueTypeRegistry :=
  (database.orgIssueTypes.find? fun registry => registry.orgLogin = ownerLogin).getD
    ⟨ownerLogin, []⟩

def getOrigin (id : RepoOriginId) (database : Database) : Except PortError RepoOrigin :=
  match database.origins.table.find id with
  | none => .error (.notFound "repo origin")
  | some origin => .ok origin

def bindingView (database : Database) (instanceRow : RepoInstance) : Option RepoBindingView :=
  (database.origins.table.find instanceRow.originId).map fun origin => ⟨instanceRow, origin⟩

def getBinding (id : RepoId) (database : Database) : Except PortError RepoBindingView :=
  match (database.instances.find id).bind database.bindingView with
  | none => .error (.notFound "repo instance")
  | some view => .ok view

def findByCanonicalUrl (workspaceId : WorkspaceId) (canonicalUrl : String)
    (database : Database) : Option RepoBindingView :=
  (database.instances.rows.find? fun row =>
    row.workspaceId = workspaceId ∧ row.canonicalUrl = canonicalUrl).bind database.bindingView

/-- The one origin of this workspace that a mapping files the issue at; two are ambiguous. -/
def findByRemoteMapping (workspaceId : WorkspaceId) (provider remoteId : String)
    (database : Database) : Option RepoOriginId :=
  let filings := database.tasks.rows.filterMap fun record => record.mapping.bind fun mapping =>
    if mapping.provider = provider ∧ mapping.remoteId = remoteId then mapping.filingRepoId else none
  let joined := filings.flatMap fun filing => database.instances.rows.filter fun row =>
    row.originId = filing.toOrigin ∧ row.workspaceId = workspaceId
  match joined with
  | [row] => some row.originId
  | _ => none

end Database

end RepoLink
