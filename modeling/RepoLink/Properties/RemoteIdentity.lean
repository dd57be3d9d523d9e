import RepoLink.Ports.Changes
import RepoLink.Ports.Handler
import RepoLink.Sync.Address
import RepoLink.Sync.Service
import RepoLink.TaskService.Service

/-!
The identity of the backing issue. Writes are deduplicated by the recorded filing repo, reads
resolve the filing chain; the two agree on tasks whose filing repo is recorded.
-/

namespace RepoLink

open Effects Program KeyedTable

/-- Stores reached from one without tasks by repository calls that `admits` lets through. -/
inductive Reached (admits : StoreOp → Timestamp → Database → Prop) : Database → Prop
  | start {database : Database} (fresh : database.tasks = .empty) : Reached admits database
  | step {before after : Database} (reached : Reached admits before) (op : StoreOp)
      (instant : Timestamp) (answer : Except PortError op.Answer)
      (admitted : admits op instant before)
      (performed : op.perform instant before = (answer, after)) : Reached admits after

def Resolves (database : Database) (task : Task) (issue : IssueCoords) : Prop :=
  (filingCanonicalFor task : Service SyncError (Option String)).Runs portMeaning database
      (.ok (some issue.1)) database ∧
    task.remote.map RemoteRef.remoteId = some issue.2

def SameIssue (database : Database) (left right : Task) : Prop :=
  ∃ issue, Resolves database left issue ∧ Resolves database right issue

def RemoteMapping.filed (origins : OriginTable) (mapping : RemoteMapping) : Prop :=
  ∃ id ∈ mapping.filingRepoId, (origins.table.find id.toOrigin).isSome

instance (origins : OriginTable) (mapping : RemoteMapping) : Decidable (mapping.filed origins) :=
  inferInstanceAs (Decidable (∃ id ∈ mapping.filingRepoId, _))

def RemoteMapping.toldApart (origins : OriginTable) (left right : RemoteMapping) : Prop :=
  left.remoteId = right.remoteId →
    left.provider = right.provider ∧ left.filed origins ∧ right.filed origins

instance (origins : OriginTable) (left right : RemoteMapping) :
    Decidable (left.toldApart origins right) := inferInstanceAs (Decidable (_ → _))

def FiledApart (origins : OriginTable) (task : Task) (tasks : TaskTable) : Prop :=
  ∀ record ∈ tasks.rows, record.id ≠ task.id → ∀ own ∈ TaskRecord.mappingOf task,
    ∀ other ∈ TaskRecord.mappingOf record.row, own.toldApart origins other

instance (origins : OriginTable) (task : Task) (tasks : TaskTable) :
    Decidable (FiledApart origins task tasks) :=
  inferInstanceAs (Decidable (∀ record ∈ tasks.rows, _))

def writesFiledApart (origins : OriginTable) (references : Task → Bool) (instant : Timestamp) :
    List TaskWrite → TaskTable → Prop
  | [], _ => True
  | write :: rest, tasks => FiledApart origins write.task tasks ∧
      ∀ written ∈ (tasks.writeTaskInTx references instant write.source write.task).toOption,
        writesFiledApart origins references instant rest written

instance writesFiledApart.decidable (origins : OriginTable) (references : Task → Bool)
    (instant : Timestamp) : ∀ (writes : List TaskWrite) (tasks : TaskTable),
      Decidable (writesFiledApart origins references instant writes tasks)
  | [], _ => .isTrue trivial
  | write :: rest, tasks =>
    have := writesFiledApart.decidable origins references instant rest
    inferInstanceAs (Decidable (FiledApart origins write.task tasks ∧ ∀ written ∈ _, _))

def StoreOp.filesApart (op : StoreOp) (instant : Timestamp) (database : Database) : Prop :=
  writesFiledApart database.origins database.references instant op.writes database.tasks

instance (op : StoreOp) (instant : Timestamp) (database : Database) :
    Decidable (op.filesApart instant database) :=
  writesFiledApart.decidable database.origins database.references instant op.writes database.tasks

structure Identified (origins : OriginTable) (tasks : TaskTable) : Prop where
  mirrored : ∀ record ∈ tasks.rows, record.mapping = TaskRecord.mappingOf record.row
  unique : ∀ left ∈ tasks.rows, ∀ right ∈ tasks.rows, left.id ≠ right.id → ∀ mapping,
    left.mapping = some mapping → right.mapping ≠ some mapping
  apart : ∀ record ∈ tasks.rows, FiledApart origins record.row tasks

theorem RemoteMapping.toldApart.symm {origins : OriginTable} {left right : RemoteMapping}
    (apart : left.toldApart origins right) : right.toldApart origins left := by
  intro same
  obtain ⟨provider, leftFiled, rightFiled⟩ := apart same.symm
  exact ⟨provider.symm, rightFiled, leftFiled⟩

theorem Identified.empty (origins : OriginTable) : Identified origins .empty := by
  have none : ∀ record, record ∉ (Table.empty : TaskTable).rows := fun _ => List.not_mem_nil
  exact ⟨fun record member => (none record member).elim,
    fun left member => (none left member).elim, fun record member => (none record member).elim⟩

section Writes

variable {references : Task → Bool} {instant : Timestamp} {source : SnapshotSource} {task : Task}
  {before after : TaskTable} {origins : OriginTable}

theorem TaskTable.mem_written
    (written : before.writeTaskInTx references instant source task = .ok after)
    {record : TaskRecord} (member : record ∈ after.rows) :
    record = .write instant source task (before.find task.id) ∨
      record ∈ before.rows ∧ record.id ≠ task.id := by
  have found := Table.find_of_mem member
  rw [(TaskTable.writeTaskInTx_ok written).2] at found
  split at found
  · exact .inl (Option.some.inj found).symm
  · rename_i different
    exact .inr ⟨Table.find_mem found, different⟩

theorem TaskTable.mappingTaken_eq_false (free : before.mappingTaken task = false)
    {record : TaskRecord} (member : record ∈ before.rows) (different : record.id ≠ task.id)
    {mapping : RemoteMapping} (own : TaskRecord.mappingOf task = some mapping) :
    record.mapping ≠ some mapping := by
  simp only [TaskTable.mappingTaken, own, List.any_eq_false] at free
  simpa [different] using free record member

theorem Identified.write (identified : Identified origins before)
    (apart : FiledApart origins task before)
    (written : before.writeTaskInTx references instant source task = .ok after) :
    Identified origins after := by
  have free := (TaskTable.writeTaskInTx_ok written).1
  have mappingEq : ∀ stored, (TaskRecord.write instant source task stored).mapping =
      TaskRecord.mappingOf task := fun _ => rfl
  refine ⟨?_, ?_, ?_⟩
  · intro record member
    rcases TaskTable.mem_written written member with rfl | ⟨old, _⟩
    · rw [mappingEq, TaskRecord.write_mappingOf]
    · exact identified.mirrored record old
  · intro left leftMember right rightMember different mapping leftEq rightEq
    rcases TaskTable.mem_written written leftMember with rfl | ⟨leftOld, leftOther⟩ <;>
      rcases TaskTable.mem_written written rightMember with rfl | ⟨rightOld, rightOther⟩
    · exact different rfl
    · exact TaskTable.mappingTaken_eq_false free rightOld rightOther leftEq rightEq
    · exact TaskTable.mappingTaken_eq_false free leftOld leftOther rightEq leftEq
    · exact identified.unique left leftOld right rightOld different mapping leftEq rightEq
  · intro record member other otherMember different own ownEq mapping otherEq
    rcases TaskTable.mem_written written member with rfl | ⟨old, oldOther⟩ <;>
      rcases TaskTable.mem_written written otherMember with rfl | ⟨otherOld, otherOther⟩
    · exact absurd rfl different
    · rw [TaskRecord.write_mappingOf] at ownEq
      exact apart other otherOld otherOther own ownEq mapping otherEq
    · rw [TaskRecord.write_mappingOf] at otherEq
      exact (apart record old oldOther mapping otherEq own ownEq).symm
    · exact identified.apart record old other otherOld different own ownEq mapping otherEq

theorem Identified.writeTasks :
    ∀ {writes : List TaskWrite} {before after : TaskTable}, Identified origins before →
      writesFiledApart origins references instant writes before →
      Database.writeTasks references instant writes before = .ok after →
      Identified origins after := by
  intro writes
  induction writes with
  | nil =>
      intro before after identified _ written
      cases written
      exact identified
  | cons write rest ih =>
      intro before after identified apart written
      obtain ⟨middle, first, written⟩ := Database.writeTasks_cons_ok written
      exact ih (identified.write apart.1 first) (apart.2 middle (by rw [first]; rfl)) written

end Writes

theorem Identified.retouch {origins : OriginTable} {before after : Database} {op : StoreOp}
    (identified : Identified origins before.tasks)
    (retouched : ∀ id, after.record id =
      if op.target = some id then (before.record id).map op.retouch else before.record id) :
    Identified origins after.tasks := by
  have back : ∀ record ∈ after.tasks.rows, ∃ stored ∈ before.tasks.rows,
      stored.id = record.id ∧ record.mapping = stored.mapping ∧
        TaskRecord.mappingOf record.row = TaskRecord.mappingOf stored.row := by
    intro record member
    have found := retouched record.id
    rw [Database.record, Table.find_of_mem member] at found
    split at found
    · obtain ⟨stored, storedFound, rfl⟩ := Option.map_eq_some_iff.mp found.symm
      have keeps := op.retouch_keeps stored
      exact ⟨stored, Table.find_mem storedFound, Table.find_key storedFound, keeps.2.1,
        keeps.2.2.2.1⟩
    · exact ⟨record, Table.find_mem found.symm, rfl, rfl, rfl⟩
  refine ⟨?_, ?_, ?_⟩
  · intro record member
    obtain ⟨stored, storedMember, _, mappingEq, rowEq⟩ := back record member
    rw [mappingEq, rowEq, identified.mirrored stored storedMember]
  · intro left leftMember right rightMember different mapping leftEq rightEq
    obtain ⟨leftStored, leftOld, leftId, leftMapping, _⟩ := back left leftMember
    obtain ⟨rightStored, rightOld, rightId, rightMapping, _⟩ := back right rightMember
    rw [leftMapping] at leftEq
    rw [rightMapping] at rightEq
    rw [← leftId, ← rightId] at different
    exact identified.unique leftStored leftOld rightStored rightOld different mapping leftEq rightEq
  · intro record member other otherMember different own ownEq mapping otherEq
    obtain ⟨stored, old, idEq, _, rowEq⟩ := back record member
    obtain ⟨otherStored, otherOld, otherId, _, otherRow⟩ := back other otherMember
    rw [rowEq] at ownEq
    rw [otherRow] at otherEq
    have apartIds : otherStored.id ≠ stored.row.id := by
      rw [otherId]
      exact fun same => different (same.trans idEq)
    exact identified.apart stored old otherStored otherOld apartIds own ownEq mapping otherEq

theorem Reached.identified {database : Database} (reached : Reached StoreOp.filesApart database) :
    Identified database.origins database.tasks := by
  induction reached with
  | start fresh =>
      rw [fresh]
      exact .empty _
  | @step before after _ op instant answer admitted performed ih =>
      rw [(StoreOp.perform_config performed).1]
      rcases StoreOp.perform_record performed with ⟨writes, entries, rfl, saved⟩ | retouched
      · obtain ⟨tasks, outbox, written, _, rfl⟩ := Database.saveAll_ok saved
        exact ih.writeTasks admitted written
      · exact ih.retouch retouched

theorem resolves_iff_address {database : Database} {task : Task} {issue : IssueCoords} :
    Resolves database task issue ↔ database.address task = some issue := by
  obtain ⟨canonical, remoteId⟩ := issue
  rw [Database.address_eq_some, Resolves, runs_filingCanonicalFor]
  simp

theorem SameIssue.symm {database : Database} {left right : Task}
    (same : SameIssue database left right) : SameIssue database right left := by
  obtain ⟨issue, leftResolves, rightResolves⟩ := same
  exact ⟨issue, rightResolves, leftResolves⟩

theorem SameIssue.mappingOf {database : Database} {left right : Task}
    (same : SameIssue database left right) :
    ∃ mapping, TaskRecord.mappingOf left = some mapping := by
  obtain ⟨issue, ⟨_, remoteEq⟩, _⟩ := same
  obtain ⟨remote, found, _⟩ := Option.map_eq_some_iff.mp remoteEq
  exact ⟨_, Option.map_eq_some_iff.mpr ⟨remote, found, rfl⟩⟩

theorem sameIssue_iff_mappingOf {database : Database} {left right : Task}
    {own other : RemoteMapping} (ownEq : TaskRecord.mappingOf left = some own)
    (otherEq : TaskRecord.mappingOf right = some other)
    (apart : own.toldApart database.origins other) :
    SameIssue database left right ↔ own = other := by
  obtain ⟨leftRemote, leftEq, rfl⟩ := Option.map_eq_some_iff.mp ownEq
  obtain ⟨rightRemote, rightEq, rfl⟩ := Option.map_eq_some_iff.mp otherEq
  simp only [SameIssue, resolves_iff_address]
  constructor
  · rintro ⟨⟨canonical, remoteId⟩, leftAddress, rightAddress⟩
    obtain ⟨leftCanonical, leftId⟩ := Database.address_eq_some.mp leftAddress
    obtain ⟨rightCanonical, rightId⟩ := Database.address_eq_some.mp rightAddress
    simp only [leftEq, rightEq, Option.map_some, Option.some.injEq] at leftId rightId
    have sameId : leftRemote.remoteId = rightRemote.remoteId := leftId.trans rightId.symm
    obtain ⟨sameProvider, ⟨leftRepo, leftFiled, _⟩, ⟨rightRepo, rightFiled, _⟩⟩ := apart sameId
    rw [Database.filingCanonical_recorded leftFiled] at leftCanonical
    rw [Database.filingCanonical_recorded rightFiled] at rightCanonical
    obtain ⟨leftOrigin, leftFound, leftUrl⟩ := Option.map_eq_some_iff.mp leftCanonical
    obtain ⟨rightOrigin, rightFound, rightUrl⟩ := Option.map_eq_some_iff.mp rightCanonical
    have sameOrigin : leftOrigin = rightOrigin :=
      List.inj_on_of_nodup_map database.origins.urls (Table.find_mem leftFound)
        (Table.find_mem rightFound) (leftUrl.trans rightUrl.symm)
    have sameKey : leftRepo.toOrigin = rightRepo.toOrigin := by
      rw [← Table.find_key leftFound, ← Table.find_key rightFound, sameOrigin]
    have sameRepo : leftRepo = rightRepo := by simpa using congrArg RepoOriginId.toRepoId sameKey
    have sameFiling : left.filingRepoId = right.filingRepoId :=
      leftFiled.trans ((congrArg some sameRepo).trans rightFiled.symm)
    exact RemoteMapping.mk.injEq .. ▸ ⟨sameFiling, sameProvider, sameId⟩
  · intro same
    simp only [RemoteMapping.mk.injEq] at same
    obtain ⟨sameFiling, _, sameId⟩ := same
    obtain ⟨_, ⟨leftRepo, leftFiled, known⟩, _⟩ := apart sameId
    dsimp only at leftFiled
    obtain ⟨origin, found⟩ := Option.isSome_iff_exists.mp known
    refine ⟨(origin.canonicalUrl, leftRemote.remoteId), ?_, ?_⟩ <;>
      rw [Database.address_eq_some]
    · rw [Database.filingCanonical_recorded leftFiled, found, leftEq]
      exact ⟨rfl, rfl⟩
    · rw [Database.filingCanonical_recorded (sameFiling.symm.trans leftFiled), found, rightEq,
        Option.map_some, sameId]
      exact ⟨rfl, rfl⟩

def mappingViolation : PortError := uniqueViolation
  "remote_mappings.filing_repo_id, remote_mappings.provider, remote_mappings.remote_id"

theorem TaskTable.mappingTaken_of_violation {references : Task → Bool} {instant : Timestamp}
    {source : SnapshotSource} {task : Task} {tasks : TaskTable}
    (rejected : tasks.writeTaskInTx references instant source task = .error mappingViolation) :
    ∃ record ∈ tasks.rows, record.id ≠ task.id ∧ ∃ mapping,
      TaskRecord.mappingOf task = some mapping ∧ record.mapping = some mapping := by
  have taken : tasks.mappingTaken task = true := by
    unfold writeTaskInTx at rejected
    split at rejected
    · exact absurd (Except.error.inj rejected) (by decide)
    split at rejected
    · cases rejected
    split at rejected
    · exact absurd (Except.error.inj rejected) (by decide)
    split at rejected
    · cases rejected
    split at rejected
    · assumption
    · cases rejected
  unfold mappingTaken at taken
  split at taken
  · cases taken
  · rename_i mapping own
    obtain ⟨record, member, both⟩ := List.any_eq_true.mp taken
    simp only [ne_eq, decide_not, Bool.and_eq_true, Bool.not_eq_eq_eq_not, Bool.not_true,
      decide_eq_false_iff_not, decide_eq_true_eq] at both
    exact ⟨record, member, both.1, mapping, own, both.2⟩

theorem Database.writeTasks_violation {references : Task → Bool} {instant : Timestamp} :
    ∀ {writes : List TaskWrite} {tasks : TaskTable},
      writeTasks references instant writes tasks = .error mappingViolation →
      ∃ earlier write rest middle, writes = earlier ++ write :: rest ∧
        writeTasks references instant earlier tasks = .ok middle ∧
        middle.writeTaskInTx references instant write.source write.task =
          .error mappingViolation := by
  intro writes
  induction writes with
  | nil =>
      intro tasks rejected
      cases rejected
  | cons write rest ih =>
      intro tasks rejected
      rw [writeTasks] at rejected
      cases first : tasks.writeTaskInTx references instant write.source write.task with
      | error error =>
          rw [first] at rejected
          cases rejected
          exact ⟨[], write, rest, tasks, rfl, rfl, first⟩
      | ok middle =>
          rw [first] at rejected
          obtain ⟨earlier, failing, later, last, rfl, written, failed⟩ := ih rejected
          refine ⟨write :: earlier, failing, later, last, rfl, ?_, failed⟩
          rw [writeTasks, first]
          exact written

theorem Database.insertEntries_error {entries : List OutboxEntry} {error : PortError} :
    ∀ {outbox : OutboxTable}, insertEntries entries outbox = .error error →
      error = uniqueViolation "outbox_entries.id" := by
  induction entries with
  | nil =>
      intro outbox failed
      cases failed
  | cons entry rest ih =>
      intro outbox failed
      rw [insertEntries] at failed
      cases first : outbox.insertOutboxInTx entry with
      | ok inserted =>
          rw [first] at failed
          exact ih failed
      | error other =>
          rw [first] at failed
          cases failed
          unfold OutboxTable.insertOutboxInTx OutboxTable.insertRow at first
          split at first
          · cases first
          · split at first
            · exact (Except.error.inj first).symm
            · cases first

theorem Database.saveAll_violation {instant : Timestamp} {writes : List TaskWrite}
    {entries : List OutboxEntry} {database : Database}
    (rejected : database.saveAll instant writes entries = .error mappingViolation) :
    ∃ earlier write rest tasks, writes = earlier ++ write :: rest ∧
      writeTasks database.references instant earlier database.tasks = .ok tasks ∧
      tasks.writeTaskInTx database.references instant write.source write.task =
        .error mappingViolation := by
  unfold saveAll at rejected
  cases written : writeTasks database.references instant writes database.tasks with
  | error error =>
      rw [written] at rejected
      cases rejected
      exact writeTasks_violation written
  | ok tasks =>
      rw [written] at rejected
      cases inserted : insertEntries entries database.outbox with
      | error error =>
          rw [inserted] at rejected
          cases rejected
          exact absurd (insertEntries_error inserted) (by decide)
      | ok outbox =>
          rw [inserted] at rejected
          cases rejected

theorem writesFiledApart_split {origins : OriginTable} {references : Task → Bool}
    {instant : Timestamp} {write : TaskWrite} {rest : List TaskWrite} :
    ∀ {earlier : List TaskWrite} {before tasks : TaskTable},
      writesFiledApart origins references instant (earlier ++ write :: rest) before →
      Database.writeTasks references instant earlier before = .ok tasks →
      writesFiledApart origins references instant earlier before ∧
        FiledApart origins write.task tasks := by
  intro earlier
  induction earlier with
  | nil =>
      intro before tasks apart written
      cases written
      exact ⟨trivial, apart.1⟩
  | cons first more ih =>
      intro before tasks apart written
      obtain ⟨middle, firstWritten, written⟩ := Database.writeTasks_cons_ok written
      obtain ⟨inner, last⟩ := ih (apart.2 middle (by rw [firstWritten]; rfl)) written
      refine ⟨⟨apart.1, ?_⟩, last⟩
      rw [firstWritten]
      rintro _ ⟨⟩
      exact inner

def DistinctIssues (database : Database) : Prop :=
  ∀ left right leftTask rightTask, database.stored left = some leftTask →
    database.stored right = some rightTask → left ≠ right →
    ¬SameIssue database leftTask rightTask

/-- (b) The mapping key rejects a write only for another task of the same issue. -/
def RejectsOnlyDuplicates (database : Database) (writes : List TaskWrite)
    (entries : List OutboxEntry) (instant : Timestamp) : Prop :=
  database.saveAll instant writes entries = .error mappingViolation →
    ∃ earlier write rest tasks, writes = earlier ++ write :: rest ∧
      Database.writeTasks database.references instant earlier database.tasks = .ok tasks ∧
      ∃ record ∈ tasks.rows, record.id ≠ write.task.id ∧
        SameIssue database record.load write.task

theorem remote_identity_of_filedApart {database : Database}
    (reached : Reached StoreOp.filesApart database) :
    DistinctIssues database ∧ ∀ writes entries instant,
      (StoreOp.saveAll writes entries).filesApart instant database →
      RejectsOnlyDuplicates database writes entries instant := by
  have identified := reached.identified
  constructor
  · intro left right leftTask rightTask leftStored rightStored different same
    obtain ⟨leftRecord, leftFound, rfl⟩ := Option.map_eq_some_iff.mp leftStored
    obtain ⟨rightRecord, rightFound, rfl⟩ := Option.map_eq_some_iff.mp rightStored
    have leftMember := Table.find_mem leftFound
    have rightMember := Table.find_mem rightFound
    have apartIds : leftRecord.id ≠ rightRecord.id := by
      rw [Table.find_key leftFound, Table.find_key rightFound]
      exact different
    obtain ⟨own, ownEq⟩ := same.mappingOf
    obtain ⟨other, otherEq⟩ := same.symm.mappingOf
    have apart := identified.apart leftRecord leftMember rightRecord rightMember apartIds.symm
      own ownEq other otherEq
    have sameKey : own = other := (sameIssue_iff_mappingOf ownEq otherEq apart).mp same
    refine identified.unique leftRecord leftMember rightRecord rightMember apartIds own ?_ ?_
    · rw [identified.mirrored leftRecord leftMember]
      exact ownEq
    · rw [identified.mirrored rightRecord rightMember, sameKey]
      exact otherEq
  · intro writes entries instant admitted rejected
    obtain ⟨earlier, write, rest, tasks, rfl, written, failed⟩ :=
      Database.saveAll_violation rejected
    obtain ⟨inner, apart⟩ := writesFiledApart_split admitted written
    obtain ⟨record, member, different, mapping, own, other⟩ :=
      TaskTable.mappingTaken_of_violation failed
    refine ⟨earlier, write, rest, tasks, rfl, written, record, member, different, ?_⟩
    rw [(identified.writeTasks inner written).mirrored record member] at other
    refine (sameIssue_iff_mappingOf other own ?_).mpr rfl
    exact (apart record member different mapping own mapping other).symm

def admittedRun {ε α : Type} (admits : StoreOp → Timestamp → Database → Prop)
    (provider : Provider) (now : Timestamp) : Service ε α → Scene → Prop
  | .done _, _ | .fail _, _ => True
  | .call op next, scene =>
    (match op with
      | .store op => admits op now scene.database
      | _ => True) ∧
    admittedRun admits provider now (next (portHandler provider now op scene).1)
      (portHandler provider now op scene).2

instance admittedRun.decidable {ε α : Type} {admits : StoreOp → Timestamp → Database → Prop}
    [∀ op instant database, Decidable (admits op instant database)] (provider : Provider)
    (now : Timestamp) : ∀ (program : Service ε α) (scene : Scene),
      Decidable (admittedRun admits provider now program scene)
  | .done _, _ | .fail _, _ => .isTrue trivial
  | .call op next, scene =>
    have : Decidable (admittedRun admits provider now
        (next (portHandler provider now op scene).1) (portHandler provider now op scene).2) :=
      admittedRun.decidable provider now _ _
    match op with
    | .store op => inferInstanceAs (Decidable (admits op now scene.database ∧ _))
    | .now | .freshTaskId | .freshEntryId | .freshHash _ | .provider _ =>
      inferInstanceAs (Decidable (True ∧ _))

abbrev anyCall : StoreOp → Timestamp → Database → Prop := fun _ _ _ => True

theorem admittedRun_any {ε α : Type} {provider : Provider} {now : Timestamp}
    {program : Service ε α} {scene : Scene} :
    admittedRun anyCall provider now program scene := by
  induction program generalizing scene with
  | done value => trivial
  | fail error => trivial
  | call op next ih => exact ⟨by cases op <;> trivial, ih _⟩

theorem Reached.exec {ε α : Type} {admits : StoreOp → Timestamp → Database → Prop}
    {provider : Provider} {now : Timestamp} {program : Service ε α} {scene : Scene}
    (reached : Reached admits scene.database)
    (admitted : admittedRun admits provider now program scene) :
    Reached admits (program.exec (portHandler provider now) scene).2.database := by
  induction program generalizing scene with
  | done value => exact reached
  | fail error => exact reached
  | call op next ih =>
      refine ih _ ?_ admitted.2
      cases op with
      | store op => exact reached.step op now _ admitted.1 rfl
      | _ => exact reached

theorem Reached.after {ε α : Type} {admits : StoreOp → Timestamp → Database → Prop}
    {provider : Provider} {now : Timestamp} {program : Service ε α} {database : Database}
    (reached : Reached admits database)
    (admitted : admittedRun admits provider now program ⟨database, 0⟩) :
    Reached admits (after provider now program database) :=
  Reached.exec reached admitted

def browsingProvider : Provider
  | .fetchRemote _ remoteId => .ok ⟨remoteId, none, "t", "", false, .epoch, [], []⟩
  | .fetchComments .. => .ok []
  | op => obligingProvider op

abbrev ran {ε α : Type} (program : Service ε α) (database : Database) : Database :=
  after browsingProvider .epoch program database

def createdIn (repo : RepoId) (title : String) (database : Database) : Database :=
  ran (TaskService.create { workspaceId := ⟨1⟩, repoId := some repo, title }) database

def linkedTwice : Database :=
  ran (SyncService.link ⟨2⟩ "github.com/acme/one" "7" false)
    (createdIn ⟨21⟩ "b" (ran (SyncService.promote ⟨1⟩) (createdIn ⟨21⟩ "a" twoRepos)))

def linkedOnce : Database :=
  createdIn ⟨21⟩ "b" (ran (SyncService.link ⟨1⟩ "github.com/acme/one" "7" false)
    (createdIn ⟨21⟩ "a" twoRepos))

def linkWrite (task : Task) : TaskWrite :=
  ⟨some task, task.linkToRemote .epoch ⟨22⟩ ⟨"github", "7", none⟩ true, .link⟩

theorem linkedTwice_not_distinct : ¬DistinctIssues linkedTwice := by
  intro distinct
  obtain ⟨first, firstStored, firstIssue⟩ : ∃ task, linkedTwice.stored ⟨1⟩ = some task ∧
      linkedTwice.address task = some ("github.com/acme/one", "7") := ⟨_, rfl, by decide⟩
  obtain ⟨second, secondStored, secondIssue⟩ : ∃ task, linkedTwice.stored ⟨2⟩ = some task ∧
      linkedTwice.address task = some ("github.com/acme/one", "7") := ⟨_, rfl, by decide⟩
  exact distinct ⟨1⟩ ⟨2⟩ first second firstStored secondStored (by decide)
    ⟨_, resolves_iff_address.mpr firstIssue, resolves_iff_address.mpr secondIssue⟩

theorem linkedOnce_rejects : ∃ task, linkedOnce.stored ⟨2⟩ = some task ∧
    ¬RejectsOnlyDuplicates linkedOnce [linkWrite task] [] .epoch := by
  refine ⟨_, rfl, ?_⟩
  intro onlyDuplicates
  obtain ⟨earlier, write, rest, tasks, split, written, record, member, different, same⟩ :=
    onlyDuplicates rfl
  obtain ⟨rfl, rfl, rfl⟩ : earlier = [] ∧ write = _ ∧ rest = [] := by
    cases earlier with
    | nil =>
        cases split
        exact ⟨rfl, rfl, rfl⟩
    | cons _ more => simp at split
  cases written
  obtain ⟨issue, stored, linked⟩ := same
  rw [resolves_iff_address] at stored linked
  have apart : ∀ record ∈ linkedOnce.tasks.rows, record.id ≠ ⟨2⟩ →
      linkedOnce.address record.load = some ("github.com/acme/one", "7") := by decide
  rw [apart record member different] at stored
  cases stored
  exact absurd linked (by decide)

theorem linkedTwice_reached : Reached anyCall linkedTwice := by
  have promoted : Reached anyCall (ran (SyncService.promote ⟨1⟩) (createdIn ⟨21⟩ "a" twoRepos)) :=
    ((Reached.start rfl).after admittedRun_any).after admittedRun_any
  exact (promoted.after admittedRun_any).after admittedRun_any

theorem linkedOnce_reached : Reached anyCall linkedOnce := by
  have linked : Reached anyCall (ran (SyncService.link ⟨1⟩ "github.com/acme/one" "7" false)
      (createdIn ⟨21⟩ "a" twoRepos)) :=
    ((Reached.start rfl).after admittedRun_any).after admittedRun_any
  exact linked.after admittedRun_any

theorem remote_identity_not_exact :
    (Reached anyCall linkedTwice ∧ ¬DistinctIssues linkedTwice) ∧
      Reached anyCall linkedOnce ∧ ∃ task, linkedOnce.stored ⟨2⟩ = some task ∧
        ¬RejectsOnlyDuplicates linkedOnce [linkWrite task] [] .epoch :=
  ⟨⟨linkedTwice_reached, linkedTwice_not_distinct⟩, linkedOnce_reached, linkedOnce_rejects⟩

def importedTwice : Database :=
  let mirror (repo : RepoId) : ImportMirrorCmd :=
    ⟨⟨1⟩, some repo, "github", "7", "t", "", [], false⟩
  ran (TaskService.importMirror (mirror ⟨22⟩)) (ran (TaskService.importMirror (mirror ⟨21⟩)) twoRepos)

theorem remote_identity_of_filedApart_importedTwice :
    DistinctIssues importedTwice ∧ ∀ writes entries instant,
      (StoreOp.saveAll writes entries).filesApart instant importedTwice →
      RejectsOnlyDuplicates importedTwice writes entries instant :=
  remote_identity_of_filedApart
    (((Reached.start rfl).after (by decide)).after (by decide))

end RepoLink
