import RepoLink.Ports.Changes

/-!
Which writes a transaction accepts: a fresh record under a free hash and a free remote identity,
and a batch that rewrites stored records and leaves them the standing they have.
-/

namespace RepoLink

open KeyedTable

structure Standing where
  workspaceId : WorkspaceId
  repoId : Option RepoId
  filingRepoId : Option RepoId
  remote : Option RemoteRef
  hash : String
  mapping : Option RemoteMapping
deriving DecidableEq, Repr

def TaskRecord.standing (record : TaskRecord) : Standing :=
  ⟨record.row.workspaceId, record.row.repoId, record.row.filingRepoId, record.row.remote,
    record.row.hash, record.mapping⟩

def Task.standing (task : Task) : Standing :=
  ⟨task.workspaceId, task.repoId, task.filingRepoId, task.remote, task.hash,
    TaskRecord.mappingOf task⟩

@[simp] theorem TaskRecord.write_standing (instant : Timestamp) (source : SnapshotSource)
    (task : Task) (stored : Option TaskRecord) :
    (write instant source task stored).standing = task.standing := by
  cases stored <;> rfl

namespace TaskTable

variable {references : Task → Bool} {instant : Timestamp} {source : SnapshotSource} {task : Task}
  {tasks after : TaskTable}

theorem hashFree_iff : tasks.hashTaken task = false ↔ task.hash = "" ∨
    ∀ id record, tasks.find id = some record → record.row.hash = task.hash → id = task.id := by
  simp only [hashTaken, Bool.and_eq_false_iff, decide_eq_false_iff_not, not_not, ne_eq,
    List.any_eq_false, Bool.and_eq_true, decide_eq_true_eq, not_and]
  refine or_congr_right
    ⟨fun alone id record found same => ?_, fun alone record member other same => ?_⟩
  · by_contra other
    exact alone record (Table.find_mem found) (Table.find_key found ▸ other) same
  · exact other (alone record.id record (Table.find_of_mem member) same)

theorem keyFree_iff : tasks.mappingTaken task = false ↔
    ∀ mapping, TaskRecord.mappingOf task = some mapping →
      ∀ id record, tasks.find id = some record → record.mapping = some mapping → id = task.id := by
  unfold mappingTaken
  cases TaskRecord.mappingOf task with
  | none => exact iff_of_true rfl fun _ same => by cases same
  | some mapping =>
      simp only [Option.some.injEq, List.any_eq_false, Bool.and_eq_true, decide_eq_true_eq, not_and,
        ne_eq, forall_eq']
      refine ⟨fun alone id record found same => ?_, fun alone record member other same => ?_⟩
      · by_contra other
        exact alone record (Table.find_mem found) (Table.find_key found ▸ other) same
      · exact other (alone record.id record (Table.find_of_mem member) same)

theorem relationsResolve_iff : tasks.relationsResolve task = true ↔
    ∀ relation ∈ task.relations, relation.other = task.id ∨
      (tasks.find relation.other).isSome = true := by
  simp [relationsResolve, List.all_eq_true]

structure Admits (references : Task → Bool) (tasks : TaskTable) (task : Task) : Prop where
  references : references task = true
  distinct : task.relations.Nodup
  resolved : tasks.relationsResolve task = true
  keyFree : tasks.mappingTaken task = false

theorem Admits.written (admits : Admits references tasks task)
    (hashFree : tasks.hashTaken task = false) (instant : Timestamp) (source : SnapshotSource) :
    ∃ after, tasks.writeTaskInTx references instant source task = .ok after := by
  unfold writeTaskInTx
  simp [hashFree, admits.references, admits.distinct, admits.resolved, admits.keyFree]

def SameStanding (before after : TaskTable) : Prop :=
  ∀ id, (after.find id).map TaskRecord.standing = (before.find id).map TaskRecord.standing

theorem SameStanding.find (same : SameStanding tasks after) {id : TaskId} {record : TaskRecord}
    (found : after.find id = some record) :
    ∃ old, tasks.find id = some old ∧ old.standing = record.standing := by
  have kept := same id
  rw [found] at kept
  exact Option.map_eq_some_iff.mp kept.symm

structure Rewrites (references : Task → Bool) (tasks : TaskTable) (task : Task) : Prop where
  stored : (tasks.find task.id).map TaskRecord.standing = some task.standing
  hashFree : tasks.hashTaken task = false
  admits : Admits references tasks task

theorem SameStanding.rewrites (same : SameStanding tasks after)
    (rewrites : Rewrites references tasks task) : Rewrites references after task := by
  refine ⟨(same task.id).trans rewrites.stored, ?_, rewrites.admits.references,
    rewrites.admits.distinct, ?_, ?_⟩
  · refine hashFree_iff.mpr ((hashFree_iff.mp rewrites.hashFree).imp_right ?_)
    intro alone id record found hash
    obtain ⟨old, oldFound, oldStanding⟩ := same.find found
    exact alone id old oldFound ((congrArg Standing.hash oldStanding).trans hash)
  · refine relationsResolve_iff.mpr fun relation member => ?_
    refine (relationsResolve_iff.mp rewrites.admits.resolved relation member).imp_right ?_
    intro resolved
    rw [← Option.isSome_map, same relation.other, Option.isSome_map]
    exact resolved
  · refine keyFree_iff.mpr fun mapping mapped id record found holds => ?_
    obtain ⟨old, oldFound, oldStanding⟩ := same.find found
    exact keyFree_iff.mp rewrites.admits.keyFree mapping mapped id old oldFound
      ((congrArg Standing.mapping oldStanding).trans holds)

theorem Rewrites.keepsStanding (rewrites : Rewrites references tasks task)
    (written : tasks.writeTaskInTx references instant source task = .ok after) :
    SameStanding tasks after := by
  intro id
  rw [(writeTaskInTx_ok written).2 id]
  split
  · rename_i same
    rw [same, rewrites.stored, Option.map_some, TaskRecord.write_standing]
  · rfl

end TaskTable

namespace Database

open TaskTable

theorem writeTasks_rewrites {references : Task → Bool} (instant : Timestamp) :
    ∀ {writes : List TaskWrite} {tasks : TaskTable},
      (∀ write ∈ writes, Rewrites references tasks write.task) →
      ∃ after, writeTasks references instant writes tasks = .ok after ∧
        SameStanding tasks after := by
  intro writes
  induction writes with
  | nil => exact fun _ => ⟨_, rfl, fun _ => rfl⟩
  | cons write rest ih =>
      intro tasks rewrites
      have first := rewrites write List.mem_cons_self
      obtain ⟨middle, written⟩ := first.admits.written first.hashFree instant write.source
      have same := first.keepsStanding written
      obtain ⟨after, rewritten, later⟩ :=
        ih fun other member => same.rewrites (rewrites other (List.mem_cons_of_mem _ member))
      refine ⟨after, ?_, fun id => (later id).trans (same id)⟩
      rw [writeTasks, written]
      exact rewritten

def Enqueues (database : Database) (entries : List OutboxEntry) : Prop :=
  ∃ outbox, insertEntries entries database.outbox = .ok outbox

theorem enqueues_nil (database : Database) : database.Enqueues [] := ⟨_, rfl⟩

theorem enqueues_single {database : Database} {entry : OutboxEntry}
    (fresh : entry.id ∉ database.outbox.rows.map OutboxRow.id) : database.Enqueues [entry] := by
  unfold Enqueues insertEntries OutboxTable.insertOutboxInTx
  split
  · exact ⟨_, rfl⟩
  · rw [OutboxTable.insertRow, dif_neg fresh]
    exact ⟨_, rfl⟩

def SameConfig (before after : Database) : Prop :=
  after.workspaces = before.workspaces ∧ after.instances = before.instances ∧
    after.origins = before.origins

theorem SameConfig.trans {first second third : Database} (left : SameConfig first second)
    (right : SameConfig second third) : SameConfig first third :=
  ⟨right.1.trans left.1, right.2.1.trans left.2.1, right.2.2.trans left.2.2⟩

theorem saveAll_of_written {instant : Timestamp} {writes : List TaskWrite}
    {entries : List OutboxEntry} {database : Database} {tasks : TaskTable}
    (written : writeTasks database.references instant writes database.tasks = .ok tasks)
    (enqueued : database.Enqueues entries) :
    ∃ after, database.saveAll instant writes entries = .ok after ∧ SameConfig database after ∧
      after.tasks = tasks := by
  obtain ⟨outbox, enqueued⟩ := enqueued
  refine ⟨{ database with tasks, outbox }, ?_, ⟨rfl, rfl, rfl⟩, rfl⟩
  rw [saveAll, written]
  change (insertEntries entries database.outbox).bind _ = _
  rw [enqueued]
  rfl

end Database

end RepoLink
