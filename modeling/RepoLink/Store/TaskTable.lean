import Mathlib.Data.List.Sort
import RepoLink.Domain.Config
import RepoLink.Domain.Task
import RepoLink.Library.Table
import RepoLink.Store.CommentTable

/-!
The `tasks` table with the tables that hang off a task by `task_id`: snapshots, relations,
comments and the remote mapping. `TaskRecord.write` is the write set of `write_task_in_tx`.
-/

namespace RepoLink

open KeyedTable

/-- The `task_snapshots` rows of one task. The next version is one more than the largest. -/
structure SnapshotLog where
  newestFirst : List TaskSnapshot
  ordered : newestFirst.Pairwise fun newer older => older.version < newer.version
deriving DecidableEq

namespace SnapshotLog

def empty : SnapshotLog := ⟨[], .nil⟩

def nextVersion (log : SnapshotLog) : Nat :=
  match log.newestFirst with
  | [] => 1
  | newest :: _ => newest.version + 1

theorem version_lt_nextVersion {log : SnapshotLog} {snapshot : TaskSnapshot}
    (member : snapshot ∈ log.newestFirst) : snapshot.version < log.nextVersion := by
  obtain ⟨newestFirst, ordered⟩ := log
  cases newestFirst with
  | nil => cases member
  | cons newest older =>
      rcases List.mem_cons.mp member with rfl | inOlder
      · exact Nat.lt_succ_self _
      · exact Nat.lt_succ_of_lt ((List.pairwise_cons.mp ordered).1 snapshot inOlder)

def append (snapshot : TaskSnapshot) (log : SnapshotLog) : SnapshotLog where
  newestFirst := { snapshot with version := log.nextVersion } :: log.newestFirst
  ordered := List.pairwise_cons.mpr ⟨fun _ member => version_lt_nextVersion member, log.ordered⟩

def get (version : Nat) (log : SnapshotLog) : Option TaskSnapshot :=
  log.newestFirst.find? fun snapshot => snapshot.version = version

/-- `load_latest_baseline`: the newest version whose source makes it a baseline. -/
def latestBaseline (log : SnapshotLog) : Option TaskSnapshot :=
  log.newestFirst.find? TaskSnapshot.isBaseline

theorem latestBaseline_append (snapshot : TaskSnapshot) (log : SnapshotLog) :
    (log.append snapshot).latestBaseline =
      if snapshot.isBaseline then some { snapshot with version := log.nextVersion }
      else log.latestBaseline := by
  have same : ({ snapshot with version := log.nextVersion } : TaskSnapshot).isBaseline =
      snapshot.isBaseline := rfl
  simp only [latestBaseline, append, List.find?_cons, same]
  cases snapshot.isBaseline <;> simp

end SnapshotLog

def IssueType.stored (issueType : IssueType) : IssueType := .ofString issueType.display

theorem IssueType.stored_stored (issueType : IssueType) :
    issueType.stored.stored = issueType.stored := by
  cases known : IssueType.wellKnown issueType.display with
  | none =>
      have same : issueType.stored = .custom issueType.display := by
        rw [IssueType.stored, IssueType.ofString, known, Option.getD_none]
      rw [same, IssueType.stored, IssueType.display, ← IssueType.stored, same]
  | some found =>
      have same : issueType.stored = found := by
        rw [IssueType.stored, IssueType.ofString, known, Option.getD_some]
      rw [same]
      unfold IssueType.wellKnown at known
      split at known
      · cases known
        decide
      · split at known
        · cases known
          decide
        · split at known
          · cases known
            decide
          · cases known

def RelationKind.columnRank : RelationKind → Nat
  | .blockedBy => 0
  | .blocks => 1
  | .childOf => 2
  | .duplicates => 3
  | .parentOf => 4
  | .relatedTo => 5

def TaskRelation.loadsBefore (left right : TaskRelation) : Bool :=
  left.kind.columnRank < right.kind.columnRank ||
    (left.kind.columnRank = right.kind.columnRank && left.other.value ≤ right.other.value)

namespace TaskRelation

theorem loadsBefore_total (left right : TaskRelation) :
    left.loadsBefore right = true ∨ right.loadsBefore left = true := by
  simp only [loadsBefore, Bool.or_eq_true, Bool.and_eq_true, decide_eq_true_eq]
  omega

theorem loadsBefore_trans {first second third : TaskRelation}
    (left : first.loadsBefore second = true) (right : second.loadsBefore third = true) :
    first.loadsBefore third = true := by
  simp only [loadsBefore, Bool.or_eq_true, Bool.and_eq_true, decide_eq_true_eq] at left right ⊢
  omega

instance : Std.Total fun left right : TaskRelation => left.loadsBefore right = true :=
  ⟨loadsBefore_total⟩

instance : IsTrans TaskRelation fun left right => left.loadsBefore right = true :=
  ⟨fun _ _ _ => loadsBefore_trans⟩

end TaskRelation

/-- The `remote_mappings` row of a task. A missing filing repo is stored as the empty string. -/
structure RemoteMapping where
  filingRepoId : Option RepoId
  provider : String
  remoteId : String
deriving DecidableEq, Repr

structure TaskRecord where
  row : Task
  snapshots : SnapshotLog
  relations : List TaskRelation
  comments : CommentTable
  mapping : Option RemoteMapping
deriving DecidableEq

namespace TaskRecord

def id (record : TaskRecord) : TaskId := record.row.id

/-- The aggregate that `get` returns: the row with its relations, baseline and comments. The
issue type is parsed from its column. -/
def load (record : TaskRecord) : Task :=
  { record.row with
    issueType := record.row.issueType.map IssueType.stored
    relations := record.relations.insertionSort (TaskRelation.loadsBefore · ·)
    syncedBaseline := record.snapshots.latestBaseline
    comments := record.comments.load }

@[simp] theorem load_id (record : TaskRecord) : record.load.id = record.id := rfl

def loadListed (record : TaskRecord) : Task := { record.load with comments := [] }

def columns (task : Task) : Task :=
  { task with
    relations := [], comments := [], syncedBaseline := none
    issueType := task.issueType.map IssueType.stored }

/-- `ON CONFLICT(id) DO UPDATE`: the three columns that do not take the incoming value. -/
def mergeColumns (stored incoming : Task) : Task :=
  { columns incoming with
    syncedAt := stored.syncedAt
    createdAt := stored.createdAt
    issueTypePending :=
      if incoming.issueType.map IssueType.stored = stored.issueType then stored.issueTypePending
      else true }

/-- The snapshot row a save appends: no node id, both `_recorded` flags set. -/
def snapshotRow (instant : Timestamp) (source : SnapshotSource) (task : Task) : TaskSnapshot :=
  { task.snapshotView instant source with
    issueType := task.issueType.map IssueType.stored
    remote := task.remote.map fun remote => { remote with nodeId := none } }

def mappingOf (task : Task) : Option RemoteMapping :=
  task.remote.map fun remote =>
    { filingRepoId := task.filingRepoId, provider := remote.provider, remoteId := remote.remoteId }

def write (instant : Timestamp) (source : SnapshotSource) (task : Task)
    (stored : Option TaskRecord) : TaskRecord where
  row := match stored with
    | none => columns task
    | some record => mergeColumns record.row task
  snapshots := (stored.elim .empty (·.snapshots)).append (snapshotRow instant source task)
  relations := task.relations
  comments := stored.elim .empty (·.comments)
  mapping := mappingOf task

@[simp] theorem write_id (instant : Timestamp) (source : SnapshotSource) (task : Task)
    (stored : Option TaskRecord) : (write instant source task stored).id = task.id := by
  cases stored <;> rfl

@[simp] theorem write_row_columns (instant : Timestamp) (source : SnapshotSource) (task : Task)
    (stored : Option TaskRecord) :
    let row := (write instant source task stored).row
    row.sync = task.sync ∧ row.remote = task.remote ∧ row.filingRepoId = task.filingRepoId ∧
      row.repoId = task.repoId ∧ row.workspaceId = task.workspaceId ∧ row.title = task.title ∧
      row.body = task.body ∧ row.lifecycle = task.lifecycle ∧ row.assignees = task.assignees ∧
      row.priority = task.priority ∧ row.issueType = task.issueType.map IssueType.stored := by
  cases stored <;> simp [write, columns, mergeColumns]

theorem write_mappingOf (instant : Timestamp) (source : SnapshotSource) (task : Task)
    (stored : Option TaskRecord) :
    mappingOf (write instant source task stored).row =
      mappingOf task := by
  have columns := write_row_columns instant source task stored
  simp only [mappingOf, columns.2.1, columns.2.2.1]

theorem write_baseline {instant : Timestamp} {source : SnapshotSource} {task : Task}
    (aligned : (snapshotRow instant source task).isBaseline = true) (stored : Option TaskRecord) :
    (write instant source task stored).load.syncedBaseline = some { snapshotRow instant source task
      with version := (stored.elim SnapshotLog.empty (·.snapshots)).nextVersion } :=
  (SnapshotLog.latestBaseline_append _ _).trans (if_pos aligned)

theorem write_aligned {instant : Timestamp} {source : SnapshotSource} {task : Task}
    (aligned : (snapshotRow instant source task).isBaseline = true) (stored : Option TaskRecord) :
    (write instant source task stored).load.diffAgainstBaseline = .default := by
  unfold Task.diffAgainstBaseline
  rw [write_baseline aligned]
  cases stored <;> simp [MirrorField.differs, load, write, columns, mergeColumns, snapshotRow,
    Task.snapshotView, assigneesEqual_self, MirrorPatch.default]

end TaskRecord

abbrev TaskTable := Table TaskRecord.id

namespace TaskTable

/-- `idx_tasks_hash` leaves the empty hash out. -/
def hashTaken (task : Task) (tasks : TaskTable) : Bool :=
  task.hash ≠ "" && tasks.rows.any fun record =>
    record.id ≠ task.id && record.row.hash = task.hash

/-- Another task already holds the `(filing_repo_id, provider, remote_id)` key. -/
def mappingTaken (task : Task) (tasks : TaskTable) : Bool :=
  match TaskRecord.mappingOf task with
  | none => false
  | some mapping => tasks.rows.any fun record =>
      record.id ≠ task.id && record.mapping = some mapping

def relationsResolve (task : Task) (tasks : TaskTable) : Bool :=
  task.relations.all fun relation =>
    relation.other = task.id || (tasks.find relation.other).isSome

/-- `write_task_in_tx`, statement by statement, up to the constraint that fails first.
`references` says whether the workspace and the repo instance of a row exist. -/
def writeTaskInTx (references : Task → Bool) (instant : Timestamp) (source : SnapshotSource)
    (task : Task) (tasks : TaskTable) : Except PortError TaskTable :=
  if tasks.hashTaken task then .error (uniqueViolation "tasks.hash")
  else if !references task then .error foreignKeyViolation
  else if ¬task.relations.Nodup then .error (uniqueViolation
    "task_relations.task_id, task_relations.kind, task_relations.other_task_id")
  else if !tasks.relationsResolve task then .error foreignKeyViolation
  else if tasks.mappingTaken task then .error (uniqueViolation
    "remote_mappings.filing_repo_id, remote_mappings.provider, remote_mappings.remote_id")
  else .ok (tasks.upsert (TaskRecord.write instant source task none)
    (fun stored => TaskRecord.write instant source task (some stored))
    fun _ _ => (TaskRecord.write_id ..).trans (TaskRecord.write_id ..).symm)

theorem writeTaskInTx_upserts {references : Task → Bool} {instant : Timestamp}
    {source : SnapshotSource} {task : Task} {before after : TaskTable}
    (written : before.writeTaskInTx references instant source task = .ok after) :
    before.mappingTaken task = false ∧
      after = before.upsert (TaskRecord.write instant source task none)
        (fun stored => TaskRecord.write instant source task (some stored))
        fun _ _ => (TaskRecord.write_id ..).trans (TaskRecord.write_id ..).symm := by
  unfold writeTaskInTx at written
  split at written
  · cases written
  split at written
  · cases written
  split at written
  · cases written
  split at written
  · cases written
  split at written
  · cases written
  rename_i free
  cases written
  exact ⟨by simpa using free, rfl⟩

theorem writeTaskInTx_ok {references : Task → Bool} {instant : Timestamp}
    {source : SnapshotSource} {task : Task} {before after : TaskTable}
    (written : before.writeTaskInTx references instant source task = .ok after) :
    before.mappingTaken task = false ∧ ∀ wanted, after.find wanted =
      if wanted = task.id then some (.write instant source task (before.find task.id))
      else before.find wanted := by
  obtain ⟨free, rfl⟩ := writeTaskInTx_upserts written
  refine ⟨free, ?_⟩
  intro wanted
  rw [Table.find_upsert, TaskRecord.write_id]
  by_cases same : wanted = task.id
  · subst same
    cases before.find task.id <;> simp
  · simp [same]

end TaskTable

end RepoLink
