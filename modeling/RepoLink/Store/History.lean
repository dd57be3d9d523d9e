import RepoLink.Ports.Changes

/-!
The history of a database: the task tables that its transactions went through. A version is
recorded exactly when a row takes its values, so what the versions of a task record is what the
task has been.
-/

namespace RepoLink

open Effects Program KeyedTable

/-- `(filing_repo_id, remote_id)` of a remote-backed row. -/
abbrev IssuePair := Option RepoId × String

def Task.issuePair (task : Task) : Option IssuePair :=
  task.remote.map fun remote => (task.filingRepoId, remote.remoteId)

def TaskSnapshot.issuePair (snapshot : TaskSnapshot) : Option IssuePair :=
  snapshot.remote.map fun remote => (snapshot.filingRepoId, remote.remoteId)

def Database.writeMoments (references : Task → Bool) (instant : Timestamp) :
    List TaskWrite → TaskTable → List TaskTable
  | [], _ => []
  | write :: rest, tasks =>
    match tasks.writeTaskInTx references instant write.source write.task with
    | .ok written => Database.writeMoments references instant rest written ++ [written]
    | .error _ => []

def StoreOp.moments (op : StoreOp) (instant : Timestamp) (before after : Database) :
    List TaskTable :=
  match op with
  | .saveAll writes _ => Database.writeMoments before.references instant writes before.tasks
  | _ => [after.tasks]

/-- Any sequence of repository calls from a database without tasks, newest moment first. -/
inductive History : List TaskTable → Database → Prop
  | start {database : Database} (fresh : database.tasks = .empty) : History [.empty] database
  | step {past : List TaskTable} {before after : Database} (history : History past before)
      (op : StoreOp) (instant : Timestamp) (answer : op.Answer)
      (performed : op.perform instant before = (.ok answer, after)) :
      History (op.moments instant before after ++ past) after

def HadTogether (past : List TaskTable) (id : TaskId) (pair : IssuePair) : Prop :=
  ∃ tasks ∈ past, ∃ record, tasks.find id = some record ∧ record.row.issuePair = some pair

def TaskRecord.recorded (record : TaskRecord) (pair : IssuePair) : Prop :=
  ∃ snapshot ∈ record.snapshots.newestFirst, snapshot.issuePair = some pair

/-- The versions of the present table tell what its tasks have been: nothing is missing from
them and nothing in them is made up. -/
structure Faithful (past : List TaskTable) (tasks : TaskTable) : Prop where
  present : tasks ∈ past
  complete : ∀ id pair, HadTogether past id pair →
    ∃ record, tasks.find id = some record ∧ record.recorded pair
  sound : ∀ id record pair, tasks.find id = some record → record.recorded pair →
    HadTogether past id pair

theorem hadTogether_cons {past : List TaskTable} {tasks : TaskTable} {id : TaskId}
    {pair : IssuePair} : HadTogether (tasks :: past) id pair ↔
      (∃ record, tasks.find id = some record ∧ record.row.issuePair = some pair) ∨
        HadTogether past id pair := by
  simp [HadTogether]

theorem TaskRecord.write_issuePair (instant : Timestamp) (source : SnapshotSource) (task : Task)
    (stored : Option TaskRecord) :
    (TaskRecord.write instant source task stored).row.issuePair = task.issuePair := by
  have columns := TaskRecord.write_row_columns instant source task stored
  simp only [Task.issuePair, columns.2.1, columns.2.2.1]

theorem TaskRecord.write_recorded (instant : Timestamp) (source : SnapshotSource) (task : Task)
    (stored : Option TaskRecord) (pair : IssuePair) :
    (TaskRecord.write instant source task stored).recorded pair ↔
      task.issuePair = some pair ∨ ∃ record, stored = some record ∧ record.recorded pair := by
  have fresh : (TaskRecord.snapshotRow instant source task).issuePair = task.issuePair := by
    cases remoteEq : task.remote <;>
      simp [TaskRecord.snapshotRow, TaskSnapshot.issuePair, Task.issuePair, Task.snapshotView,
        remoteEq]
  have same : ∀ version, ({ TaskRecord.snapshotRow instant source task with version } :
      TaskSnapshot).issuePair = task.issuePair := fun _ => fresh
  cases stored <;>
    simp [TaskRecord.recorded, TaskRecord.write, SnapshotLog.append, SnapshotLog.empty, same]

/-- One write set: the written row's pair is recorded, every other record stays. -/
theorem Faithful.write {past : List TaskTable} {before after : TaskTable}
    {references : Task → Bool} {instant : Timestamp} {source : SnapshotSource} {task : Task}
    (faithful : Faithful past before)
    (written : before.writeTaskInTx references instant source task = .ok after) :
    Faithful (after :: past) after := by
  have found := (TaskTable.writeTaskInTx_ok written).2
  refine ⟨List.mem_cons_self, ?_, ?_⟩
  · intro id pair had
    rcases hadTogether_cons.mp had with ⟨record, foundRecord, pairEq⟩ | earlier
    · rw [found id] at foundRecord
      split at foundRecord
      · rename_i same
        cases foundRecord
        refine ⟨_, by rw [found id, if_pos same], ?_⟩
        rw [TaskRecord.write_issuePair] at pairEq
        exact (TaskRecord.write_recorded ..).mpr (.inl pairEq)
      · rename_i different
        obtain ⟨stored, storedFound, recorded⟩ := faithful.complete id pair
          ⟨before, faithful.present, record, foundRecord, pairEq⟩
        exact ⟨stored, by rw [found id, if_neg different, storedFound], recorded⟩
    · obtain ⟨stored, storedFound, recorded⟩ := faithful.complete id pair earlier
      by_cases same : id = task.id
      · subst same
        refine ⟨_, by rw [found, if_pos rfl], ?_⟩
        exact (TaskRecord.write_recorded ..).mpr (.inr ⟨stored, storedFound, recorded⟩)
      · exact ⟨stored, by rw [found id, if_neg same, storedFound], recorded⟩
  · intro id record pair foundRecord recorded
    have foundAfter := foundRecord
    rw [found id] at foundRecord
    split at foundRecord
    · rename_i same
      cases foundRecord
      rcases (TaskRecord.write_recorded ..).mp recorded with fresh | ⟨stored, storedFound, old⟩
      · refine hadTogether_cons.mpr (.inl ⟨_, foundAfter, ?_⟩)
        rw [TaskRecord.write_issuePair]
        exact fresh
      · refine hadTogether_cons.mpr (.inr (faithful.sound id stored pair ?_ old))
        rw [same]
        exact storedFound
    · exact hadTogether_cons.mpr (.inr (faithful.sound id record pair foundRecord recorded))

theorem Faithful.writeMoments {references : Task → Bool} {instant : Timestamp} :
    ∀ (writes : List TaskWrite) {past : List TaskTable} {before after : TaskTable},
      Faithful past before → Database.writeTasks references instant writes before = .ok after →
      Faithful (Database.writeMoments references instant writes before ++ past) after := by
  intro writes
  induction writes with
  | nil =>
      intro past before after faithful written
      cases written
      exact faithful
  | cons write rest ih =>
      intro past before after faithful written
      obtain ⟨middle, first, written⟩ := Database.writeTasks_cons_ok written
      have moved := ih (faithful.write first) written
      simp only [Database.writeMoments, first]
      rw [List.append_assoc]
      exact moved

theorem Faithful.update {past : List TaskTable} {before after : TaskTable}
    (faithful : Faithful past before)
    (kept : ∀ id, (after.find id).map (fun record => (record.row.issuePair, record.snapshots)) =
      (before.find id).map fun record => (record.row.issuePair, record.snapshots)) :
    Faithful (after :: past) after := by
  have back : ∀ id record, after.find id = some record → ∃ stored, before.find id = some stored ∧
      stored.row.issuePair = record.row.issuePair ∧ stored.snapshots = record.snapshots := by
    intro id record found
    have same := kept id
    rw [found, Option.map_some] at same
    obtain ⟨stored, storedFound, both⟩ := Option.map_eq_some_iff.mp same.symm
    exact ⟨stored, storedFound, (Prod.mk.inj both).1, (Prod.mk.inj both).2⟩
  refine ⟨List.mem_cons_self, ?_, ?_⟩
  · intro id pair had
    have earlier : HadTogether past id pair := by
      rcases hadTogether_cons.mp had with ⟨record, found, pairEq⟩ | earlier
      · obtain ⟨stored, storedFound, samePair, _⟩ := back id record found
        exact ⟨before, faithful.present, stored, storedFound, samePair.trans pairEq⟩
      · exact earlier
    obtain ⟨stored, storedFound, recorded⟩ := faithful.complete id pair earlier
    have same := kept id
    rw [storedFound, Option.map_some] at same
    obtain ⟨record, found, both⟩ := Option.map_eq_some_iff.mp same
    refine ⟨record, found, ?_⟩
    rw [TaskRecord.recorded, (Prod.mk.inj both).2]
    exact recorded
  · intro id record pair found recorded
    obtain ⟨stored, storedFound, _, sameSnapshots⟩ := back id record found
    refine hadTogether_cons.mpr (.inr (faithful.sound id stored pair storedFound ?_))
    rw [TaskRecord.recorded, sameSnapshots]
    exact recorded

theorem Task.issuePair_eq (task : Task) : task.issuePair =
    (TaskRecord.mappingOf task).map fun mapping => (mapping.filingRepoId, mapping.remoteId) := by
  cases remoteEq : task.remote <;> simp [Task.issuePair, TaskRecord.mappingOf, remoteEq]

theorem Faithful.retouch {past : List TaskTable} {before after : Database} {op : StoreOp}
    (faithful : Faithful past before.tasks)
    (retouched : ∀ id, after.record id =
      if op.target = some id then (before.record id).map op.retouch else before.record id) :
    Faithful (after.tasks :: past) after.tasks := by
  refine faithful.update ?_
  intro id
  have kept := retouched id
  unfold Database.record at kept
  rw [kept]
  split
  · cases before.tasks.find id with
    | none => rfl
    | some record =>
        have keeps := op.retouch_keeps record
        simp only [Option.map_some, Task.issuePair_eq, keeps.1, keeps.2.2.2.1]
  · rfl

theorem Faithful.perform {past : List TaskTable} {before after : Database} {op : StoreOp}
    {instant : Timestamp} {answer : op.Answer} (faithful : Faithful past before.tasks)
    (performed : op.perform instant before = (.ok answer, after)) :
    Faithful (op.moments instant before after ++ past) after.tasks := by
  cases op with
  | saveAll writes entries =>
      obtain ⟨tasks, outbox, written, _, rfl⟩ :=
        Database.saveAll_ok (StoreOp.perform_saveAll_ok performed)
      exact faithful.writeMoments writes written
  | _ =>
      rcases StoreOp.perform_record performed with ⟨_, _, saving, _⟩ | retouched
      · cases saving
      · exact faithful.retouch retouched

theorem History.faithful {past : List TaskTable} {database : Database}
    (history : History past database) : Faithful past database.tasks := by
  induction history with
  | @start database fresh =>
      rw [fresh]
      refine ⟨List.mem_singleton_self _, ?_, ?_⟩
      · intro id pair had
        obtain ⟨tasks, member, record, found, _⟩ := had
        rw [List.mem_singleton.mp member] at found
        cases found
      · intro id record pair found
        cases found
  | step _ op instant answer performed ih => exact ih.perform performed

theorem History.hadTogether_iff {past : List TaskTable} {database : Database}
    (history : History past database) {id : TaskId} {record : TaskRecord}
    (found : database.record id = some record) (pair : IssuePair) :
    HadTogether past id pair ↔ record.recorded pair := by
  constructor
  · intro had
    obtain ⟨stored, storedFound, recorded⟩ := history.faithful.complete id pair had
    rw [Database.record, storedFound] at found
    cases found
    exact recorded
  · exact history.faithful.sound id record pair found

/-- A program that runs alone extends the history. -/
theorem History.runs {ε α : Type} {program : Service ε α} {past : List TaskTable}
    {before after : Database} {result : Except ε α} (history : History past before)
    (ran : program.Runs portMeaning before result after) :
    ∃ more, History (more ++ past) after := by
  induction program generalizing past before with
  | done value =>
      obtain ⟨_, rfl⟩ := ran
      exact ⟨[], history⟩
  | fail error =>
      obtain ⟨_, rfl⟩ := ran
      exact ⟨[], history⟩
  | call op next ih =>
      obtain ⟨answer, middle, answered, rest⟩ := ran
      cases op with
      | store op =>
          rcases answered with ⟨instant, performed⟩ | ⟨message, rfl, rfl⟩
          · cases answer with
            | ok value =>
                obtain ⟨more, later⟩ := ih _ (history.step op instant value performed) rest
                exact ⟨more ++ op.moments instant before middle, by
                  rw [List.append_assoc]
                  exact later⟩
            | error error =>
                have unchanged : middle = before := StoreOp.perform_error performed
                subst unchanged
                exact ih _ history rest
          · exact ih _ history rest
      | freshTaskId =>
          obtain ⟨_, rfl⟩ := answered
          exact ih _ history rest
      | now =>
          cases answered
          exact ih _ history rest
      | freshEntryId =>
          cases answered
          exact ih _ history rest
      | freshHash length =>
          cases answered
          exact ih _ history rest
      | provider op =>
          cases answered
          exact ih _ history rest

end RepoLink
