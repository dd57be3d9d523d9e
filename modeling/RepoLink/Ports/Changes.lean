import RepoLink.Ports.Calls

/-!
What each repository call does to the stored tasks, said once: a transaction writes whole rows,
a targeted statement retouches the record it names, and nothing else reaches them.
-/

namespace RepoLink

open KeyedTable

def StoreOp.target : StoreOp → Option TaskId
  | .cacheProjectStatus id _ | .applyPolledPriority id _ | .markRemoteDirty id
  | .cacheRemoteNodeId id _ | .clearIssueTypePending id _ | .cacheSyncedAt id _ _
  | .replaceComments id _ | .addPendingComment id .. | .markCommentsPushed id .. => some id
  | _ => none

def StoreOp.retouch (op : StoreOp) (record : TaskRecord) : TaskRecord :=
  match op with
  | .cacheProjectStatus _ optionId =>
    { record with row := { record.row with projectStatusOptionId := optionId } }
  | .applyPolledPriority _ priority => { record with row := { record.row with priority } }
  | .markRemoteDirty _ => { record with row := Database.dirtiedRemotely record.row }
  | .cacheRemoteNodeId _ nodeId =>
    { record with row := { record.row with
        remote := record.row.remote.map fun remote => { remote with nodeId := some nodeId } } }
  | .clearIssueTypePending _ expected =>
    { record with row := { record.row with issueTypePending :=
        record.row.issueTypePending && record.row.issueType ≠ expected.map IssueType.stored } }
  | .cacheSyncedAt _ syncedAt _ =>
    { record with row := { record.row with syncedAt := some syncedAt } }
  | .replaceComments _ fetched =>
    { record with comments := record.comments.attempted (CommentTable.replaceComments fetched) }
  | .addPendingComment _ author body createdAt =>
    { record with
      comments := record.comments.attempted (CommentTable.addPendingComment author body createdAt) }
  | .markCommentsPushed _ drainedLocalIds pushed =>
    { record with
      comments := record.comments.attempted
        (CommentTable.markCommentsPushed drainedLocalIds pushed) }
  | _ => record

def StoreOp.writes : StoreOp → List TaskWrite
  | .saveAll writes _ => writes
  | _ => []

theorem StoreOp.reads_only {op : StoreOp} (reads : op.reads = true) :
    op.writes = [] ∧ op.target = none := by
  cases op <;> first
    | exact ⟨rfl, rfl⟩
    | cases reads

theorem StoreOp.retouch_keeps (op : StoreOp) (record : TaskRecord) :
    (op.retouch record).snapshots = record.snapshots ∧
      (op.retouch record).mapping = record.mapping ∧
      (op.retouch record).relations = record.relations ∧
      TaskRecord.mappingOf (op.retouch record).row = TaskRecord.mappingOf record.row ∧
      (op.retouch record).row.title = record.row.title ∧
      (op.retouch record).row.body = record.row.body ∧
      (op.retouch record).row.lifecycle = record.row.lifecycle ∧
      (op.retouch record).row.assignees = record.row.assignees := by
  cases op with
  | cacheRemoteNodeId id nodeId =>
      cases remoteEq : record.row.remote <;> simp [retouch, TaskRecord.mappingOf, remoteEq]
  | _ => simp [retouch, TaskRecord.mappingOf, Database.dirtiedRemotely]

namespace Database

def afterWrites (instant : Timestamp) (id : TaskId) :
    List TaskWrite → Option TaskRecord → Option TaskRecord
  | [], stored => stored
  | write :: rest, stored =>
    afterWrites instant id rest
      (if id = write.task.id then some (.write instant write.source write.task stored) else stored)

theorem writeTasks_find {references : Task → Bool} {instant : Timestamp} {id : TaskId} :
    ∀ {writes : List TaskWrite} {before after : TaskTable},
      writeTasks references instant writes before = .ok after →
      after.find id = afterWrites instant id writes (before.find id) := by
  intro writes
  induction writes with
  | nil =>
      intro before after written
      cases written
      rfl
  | cons write rest ih =>
      intro before after written
      obtain ⟨middle, first, written⟩ := writeTasks_cons_ok written
      rw [ih written, (TaskTable.writeTaskInTx_ok first).2 id, afterWrites]
      split
      · rename_i same
        rw [same]
      · rfl

theorem afterWrites_absent {instant : Timestamp} {id : TaskId} :
    ∀ {writes : List TaskWrite} {stored : Option TaskRecord},
      (∀ write ∈ writes, write.task.id ≠ id) → afterWrites instant id writes stored = stored := by
  intro writes
  induction writes with
  | nil => intro stored _; rfl
  | cons write rest ih =>
      intro stored absent
      rw [afterWrites, if_neg fun same => absent write List.mem_cons_self same.symm]
      exact ih fun other member => absent other (List.mem_cons_of_mem _ member)

theorem afterWrites_present {instant : Timestamp} {id : TaskId}
    {holds : Option TaskRecord → Prop} :
    ∀ {writes : List TaskWrite} {stored : Option TaskRecord},
      (∃ write ∈ writes, write.task.id = id) →
      (∀ write ∈ writes, write.task.id = id → ∀ earlier,
        holds (some (.write instant write.source write.task earlier))) →
      holds (afterWrites instant id writes stored) := by
  intro writes
  induction writes with
  | nil => rintro stored ⟨_, member, _⟩; cases member
  | cons write rest ih =>
      intro stored present each
      have later := fun other member => each other (List.mem_cons_of_mem write member)
      rw [afterWrites]
      by_cases more : ∃ other ∈ rest, other.task.id = id
      · exact ih more later
      · rw [afterWrites_absent fun other member same => more ⟨other, member, same⟩]
        obtain ⟨other, member, same⟩ := present
        rcases List.mem_cons.mp member with rfl | member
        · rw [if_pos same.symm]
          exact each other List.mem_cons_self same stored
        · exact (more ⟨other, member, same⟩).elim

theorem afterWrites_induct {instant : Timestamp} {id : TaskId}
    {holds : Option TaskRecord → Prop} {writes : List TaskWrite} {stored : Option TaskRecord}
    (first : holds stored)
    (each : ∀ write ∈ writes, id = write.task.id → ∀ earlier, holds earlier →
      holds (some (.write instant write.source write.task earlier))) :
    holds (afterWrites instant id writes stored) := by
  induction writes generalizing stored with
  | nil => exact first
  | cons write rest ih =>
      refine ih ?_ fun other member => each other (List.mem_cons_of_mem _ member)
      split
      · rename_i same
        exact each write List.mem_cons_self same stored first
      · exact first

end Database

theorem Database.saveAll_record {instant : Timestamp} {writes : List TaskWrite}
    {entries : List OutboxEntry} {before after : Database}
    (saved : before.saveAll instant writes entries = .ok after) (id : TaskId) :
    after.record id = afterWrites instant id writes (before.record id) := by
  obtain ⟨tasks, outbox, written, _, rfl⟩ := saveAll_ok saved
  exact writeTasks_find written

@[simp] theorem StoreOp.retouch_id (op : StoreOp) (record : TaskRecord) :
    (op.retouch record).id = record.id := by
  cases op <;> rfl

/-- A transaction on the comments of a task touches nothing else. -/
theorem StoreOp.changing_database (change : CommentTable → Except PortError CommentTable)
    (id : TaskId) (before : Database) : (StoreOp.changing change id before).2 =
      before.updateRecord id
        (fun record => { record with comments := record.comments.attempted change })
        fun _ => rfl := by
  have unchanged : (∀ record, before.record id = some record →
      record.comments.attempted change = record.comments) →
      before = before.updateRecord id
        (fun record => { record with comments := record.comments.attempted change })
        fun _ => rfl := by
    intro same
    have rows : ∀ record, before.tasks.find id = some record →
        { record with comments := record.comments.attempted change } = record :=
      fun record found => by rw [same record found]
    exact (congrArg (fun tasks => { before with tasks }) (Table.modify_unchanged rows)).symm
  unfold changing Database.changeComments
  cases found : before.record id with
  | none =>
      have nothing : ∀ record, before.record id = some record →
          record.comments.attempted change = record.comments :=
        fun record other => nomatch found.symm.trans other
      dsimp only [bind, Except.bind]
      cases change .empty with
      | error error => exact unchanged nothing
      | ok orphaned =>
          dsimp only
          split <;> exact unchanged nothing
  | some record =>
      dsimp only [bind, Except.bind]
      cases changed : change record.comments with
      | error error =>
          refine unchanged fun other otherFound => ?_
          cases found.symm.trans otherFound
          simp [CommentTable.attempted, changed]
      | ok comments =>
          have rows : ∀ other, before.tasks.find id = some other →
              ({ other with comments } : TaskRecord) =
                { other with comments := other.comments.attempted change } := by
            intro other otherFound
            cases found.symm.trans otherFound
            simp [CommentTable.attempted, changed]
          exact congrArg (fun tasks => { before with tasks }) (Table.modify_congr rows)

def StoreOp.commentChange :
    StoreOp → Option (TaskId × (CommentTable → Except PortError CommentTable))
  | .replaceComments id fetched => some (id, CommentTable.replaceComments fetched)
  | .addPendingComment id author body createdAt =>
    some (id, CommentTable.addPendingComment author body createdAt)
  | .markCommentsPushed id drainedLocalIds pushed =>
    some (id, CommentTable.markCommentsPushed drainedLocalIds pushed)
  | _ => none

theorem StoreOp.perform_commentChange {op : StoreOp} {instant : Timestamp} {before after : Database}
    {answer : Except PortError op.Answer} {id : TaskId}
    {change : CommentTable → Except PortError CommentTable}
    (changes : op.commentChange = some (id, change))
    (performed : op.perform instant before = (answer, after)) :
    after = before.updateRecord id
      (fun record => { record with comments := record.comments.attempted change })
      fun _ => rfl := by
  have ended := congrArg Prod.snd performed
  cases op with
  | replaceComments | addPendingComment | markCommentsPushed =>
      cases changes
      exact ended.symm.trans (changing_database _ _ before)
  | _ => cases changes

theorem StoreOp.perform_tasks {op : StoreOp} {instant : Timestamp} {before after : Database}
    {answer : Except PortError op.Answer} (performed : op.perform instant before = (answer, after)) :
    (∃ writes entries, op = .saveAll writes entries ∧
        before.saveAll instant writes entries = .ok after) ∨
      after.tasks = before.tasks.mapRows
        (fun record => if op.target = some record.id then op.retouch record else record)
        (fun record => by split <;> simp) := by
  have untouched : op.target = none → before.tasks = before.tasks.mapRows
      (fun record => if op.target = some record.id then op.retouch record else record)
      (fun record => by split <;> simp) := by
    intro none
    refine Table.ext ?_
    simp [Table.mapRows, none]
  rcases comments : op.commentChange with _ | transaction
  swap
  · right
    rw [perform_commentChange comments performed]
    refine Table.ext (List.map_congr_left fun record _ => ?_)
    cases op with
    | replaceComments id _ | addPendingComment id _ _ _ | markCommentsPushed id _ _ =>
        cases comments
        simp only [target, Option.some.injEq, @eq_comm _ id]
        rfl
    | _ => cases comments
  cases answer with
  | error error =>
      right
      rw [perform_error performed]
      -- a targeted statement cannot fail, and no other operation has a target
      refine untouched ?_
      cases op <;> first
        | rfl
        | cases performed
        | cases comments
  | ok value =>
      cases op with
      | saveAll writes entries => exact .inl ⟨writes, entries, rfl, perform_saveAll_ok performed⟩
      | enqueue entry =>
          obtain ⟨outbox, _, rfl⟩ := perform_enqueue_ok performed
          exact .inr (untouched rfl)
      | enqueueIfAbsent entry =>
          obtain ⟨outbox, _, rfl⟩ := perform_enqueueIfAbsent_ok performed
          exact .inr (untouched rfl)
      | cacheProjectStatus id _ | applyPolledPriority id _ | markRemoteDirty id
      | cacheRemoteNodeId id _ | clearIssueTypePending id _ | cacheSyncedAt id _ _ =>
          cases performed
          refine .inr (Table.ext (List.map_congr_left fun record _ => ?_))
          simp only [target, Option.some.injEq, @eq_comm _ id]
          rfl
      | replaceComments | addPendingComment | markCommentsPushed => cases comments
      | _ =>
          have same := congrArg Prod.snd performed
          dsimp only at same
          subst same
          exact .inr (untouched rfl)

theorem StoreOp.perform_record {op : StoreOp} {instant : Timestamp} {before after : Database}
    {answer : Except PortError op.Answer} (performed : op.perform instant before = (answer, after)) :
    (∃ writes entries, op = .saveAll writes entries ∧
        before.saveAll instant writes entries = .ok after) ∨
      ∀ id, after.record id =
        if op.target = some id then (before.record id).map op.retouch else before.record id := by
  refine (perform_tasks performed).imp_right fun tasksEq id => ?_
  unfold Database.record
  rw [tasksEq, Table.find_mapRows]
  cases found : before.tasks.find id with
  | none => simp
  | some record =>
      rw [Option.map_some, Table.find_key found]
      split <;> rfl

theorem StoreOp.perform_settings {op : StoreOp} {instant : Timestamp} {before after : Database}
    {answer : Except PortError op.Answer} (performed : op.perform instant before = (answer, after)) :
    after.origins = before.origins ∧ after.instances = before.instances ∧
      after.projects = before.projects := by
  cases answer with
  | error error =>
      rw [StoreOp.perform_error performed]
      exact ⟨rfl, rfl, rfl⟩
  | ok value =>
      cases op with
      | saveAll writes entries =>
          obtain ⟨_, _, _, _, rfl⟩ := Database.saveAll_ok (perform_saveAll_ok performed)
          exact ⟨rfl, rfl, rfl⟩
      | enqueue entry =>
          obtain ⟨_, _, rfl⟩ := perform_enqueue_ok performed
          exact ⟨rfl, rfl, rfl⟩
      | enqueueIfAbsent entry =>
          obtain ⟨_, _, rfl⟩ := perform_enqueueIfAbsent_ok performed
          exact ⟨rfl, rfl, rfl⟩
      | replaceComments | addPendingComment | markCommentsPushed =>
          rw [perform_commentChange rfl performed]
          exact ⟨rfl, rfl, rfl⟩
      | _ =>
          have same := congrArg Prod.snd performed
          dsimp only at same
          subst same
          exact ⟨rfl, rfl, rfl⟩

theorem StoreOp.perform_config {op : StoreOp} {instant : Timestamp} {before after : Database}
    {answer : Except PortError op.Answer} (performed : op.perform instant before = (answer, after)) :
    after.origins = before.origins ∧ after.instances = before.instances :=
  ⟨(perform_settings performed).1, (perform_settings performed).2.1⟩

theorem StoreOp.perform_workspaces {op : StoreOp} {instant : Timestamp} {before after : Database}
    {answer : Except PortError op.Answer} (performed : op.perform instant before = (answer, after))
    (other : ∀ workspace, op ≠ .saveWorkspace workspace) : after.workspaces = before.workspaces := by
  cases answer with
  | error error => rw [StoreOp.perform_error performed]
  | ok value =>
      cases op with
      | saveWorkspace workspace => exact (other workspace rfl).elim
      | saveAll writes entries =>
          obtain ⟨_, _, _, _, rfl⟩ := Database.saveAll_ok (perform_saveAll_ok performed)
          rfl
      | enqueue entry =>
          obtain ⟨_, _, rfl⟩ := perform_enqueue_ok performed
          rfl
      | enqueueIfAbsent entry =>
          obtain ⟨_, _, rfl⟩ := perform_enqueueIfAbsent_ok performed
          rfl
      | replaceComments | addPendingComment | markCommentsPushed =>
          rw [perform_commentChange rfl performed]
          rfl
      | _ =>
          have same := congrArg Prod.snd performed
          dsimp only at same
          subst same
          rfl

namespace TaskTable

def identities (tasks : TaskTable) : List (TaskId × Option RemoteMapping) :=
  tasks.rows.map fun record => (record.id, TaskRecord.mappingOf record.row)

theorem mem_identities {tasks : TaskTable} {id : TaskId} {record : TaskRecord}
    (found : tasks.find id = some record) :
    (id, TaskRecord.mappingOf record.row) ∈ tasks.identities :=
  List.mem_map.mpr ⟨record, Table.find_mem found, by rw [Table.find_key found]⟩

theorem identities_modify {id : TaskId} {change : TaskRecord → TaskRecord}
    {keeps : ∀ record, record.id = id → (change record).id = id} {tasks : TaskTable}
    (same : ∀ record, tasks.find id = some record →
      TaskRecord.mappingOf (change record).row = TaskRecord.mappingOf record.row) :
    TaskTable.identities (tasks.modify id change keeps) = tasks.identities := by
  unfold identities Table.modify Table.mapRows
  rw [List.map_map]
  refine List.map_congr_left fun record member => ?_
  simp only [Function.comp_apply]
  split
  · rename_i sameId
    rw [keeps record sameId, same record (sameId ▸ Table.find_of_mem member), sameId]
  · rfl

theorem identities_write {references : Task → Bool} {instant : Timestamp}
    {source : SnapshotSource} {task : Task} {before after : TaskTable} {record : TaskRecord}
    (written : before.writeTaskInTx references instant source task = .ok after)
    (stored : before.find task.id = some record)
    (kept : TaskRecord.mappingOf task = TaskRecord.mappingOf record.row) :
    after.identities = before.identities := by
  obtain ⟨_, rfl⟩ := writeTaskInTx_upserts written
  have member : (TaskRecord.write instant source task none).id ∈ before.rows.map TaskRecord.id := by
    rw [TaskRecord.write_id]
    exact List.mem_map.mpr ⟨record, Table.find_mem stored, Table.find_key stored⟩
  unfold Table.upsert
  rw [dif_pos member]
  refine identities_modify fun other found => ?_
  rw [TaskRecord.write_id, stored] at found
  cases found
  rw [TaskRecord.write_mappingOf, kept]

end TaskTable

theorem StoreOp.perform_identities {op : StoreOp} {instant : Timestamp} {before after : Database}
    {answer : Except PortError op.Answer} (performed : op.perform instant before = (answer, after))
    (writeless : op.writes = []) : after.tasks.identities = before.tasks.identities := by
  rcases perform_tasks performed with ⟨writes, entries, rfl, saved⟩ | tasksEq
  · obtain ⟨_, _, written, _, rfl⟩ := Database.saveAll_ok saved
    have none : writes = [] := writeless
    subst none
    cases written
    rfl
  · rw [tasksEq, TaskTable.identities, TaskTable.identities, Table.mapRows, List.map_map]
    refine List.map_congr_left fun record _ => ?_
    simp only [Function.comp_apply]
    split
    · rw [retouch_id, (op.retouch_keeps record).2.2.2.1]
    · rfl

theorem Database.findByRemote_id (filingRepoId : RepoOriginId) (provider remoteId : String)
    (database : Database) :
    (database.findByRemote filingRepoId provider remoteId).map Task.id =
      (database.tasks.identities.find? fun identity =>
        identity.2 = some ⟨some filingRepoId.toRepoId, provider, remoteId⟩).map Prod.fst := by
  have same : (fun record : TaskRecord => decide (TaskRecord.mappingOf record.row =
      some ⟨some filingRepoId.toRepoId, provider, remoteId⟩)) =
      mirrors filingRepoId provider remoteId := by
    funext record
    cases remoteEq : record.row.remote <;>
      simp [mirrors, TaskRecord.mappingOf, remoteEq]
  rw [findByRemote, findTask, TaskTable.identities, List.find?_map, Option.map_map, Option.map_map]
  have composed : ((fun identity : TaskId × Option RemoteMapping =>
      decide (identity.2 = some ⟨some filingRepoId.toRepoId, provider, remoteId⟩)) ∘
      fun record : TaskRecord => (record.id, TaskRecord.mappingOf record.row)) =
      mirrors filingRepoId provider remoteId := same
  rw [composed]
  rfl

end RepoLink
