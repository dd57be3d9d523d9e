import RepoLink.Ports.Handler
import RepoLink.Store.History
import RepoLink.Sync.Service
import RepoLink.TaskService.Calls
import RepoLink.WorkspaceService.Service

/-!
Re-pointing the filing repo of a task. The version that it saves is a baseline by design, so of
what is reloaded the filing repo, the touch and the baseline are new, and no edit is pending.
-/

namespace RepoLink

open Effects Program KeyedTable

structure Task.Repointed (task reloaded : Task) : Prop where
  frame : reloaded = { task with
    filingRepoId := reloaded.filingRepoId
    updatedAt := reloaded.updatedAt
    syncedBaseline := reloaded.syncedBaseline }
  rebaselined : reloaded.syncedBaseline.any (·.source = .filingRepoRepair) = true
  settled : reloaded.diffAgainstBaseline = .default

def Database.Repoints (before after : Database) (id : TaskId) : Prop :=
  ∃ task reloaded, before.stored id = some task ∧ after.stored id = some reloaded ∧
    task.Repointed reloaded

def DoctorSummary.healed (id : TaskId) (summary : DoctorSummary) : Bool :=
  summary.rows.any fun row => row.taskId = id && row.repaired

def Database.TypesStored (database : Database) : Prop :=
  ∀ id record, database.record id = some record →
    record.row.issueType.map IssueType.stored = record.row.issueType

theorem StoreOp.retouch_issueType (op : StoreOp) (record : TaskRecord) :
    (op.retouch record).row.issueType = record.row.issueType := by
  cases op <;> rfl

theorem TaskRecord.write_typesStored (instant : Timestamp) (source : SnapshotSource) (task : Task)
    (stored : Option TaskRecord) :
    let row := (write instant source task stored).row
    row.issueType.map IssueType.stored = row.issueType := by
  obtain ⟨_, _, _, _, _, _, _, _, _, _, issueType⟩ := write_row_columns instant source task stored
  dsimp only
  rw [issueType]
  cases task.issueType <;> simp [IssueType.stored_stored]

theorem Database.TypesStored.saveAll {instant : Timestamp} {writes : List TaskWrite}
    {entries : List OutboxEntry} {before after : Database} (typed : before.TypesStored)
    (saved : before.saveAll instant writes entries = .ok after) : after.TypesStored := by
  intro id record found
  rw [Database.saveAll_record saved] at found
  let holds (stored : Option TaskRecord) : Prop := ∀ record, stored = some record →
    record.row.issueType.map IssueType.stored = record.row.issueType
  have rewritten : holds (Database.afterWrites instant id writes (before.record id)) := by
    refine Database.afterWrites_induct (typed id) fun write _ _ earlier _ record same => ?_
    cases same
    exact TaskRecord.write_typesStored ..
  exact rewritten record found

theorem Database.TypesStored.perform {op : StoreOp} {instant : Timestamp} {before after : Database}
    {answer : Except PortError op.Answer} (typed : before.TypesStored)
    (performed : op.perform instant before = (answer, after)) : after.TypesStored := by
  rcases StoreOp.perform_record performed with ⟨_, _, _, saved⟩ | retouched
  · exact typed.saveAll saved
  · intro id record found
    rw [retouched id] at found
    split at found
    · obtain ⟨stored, storedFound, rfl⟩ := Option.map_eq_some_iff.mp found
      rw [StoreOp.retouch_issueType]
      exact typed id stored storedFound
    · exact typed id record found

theorem History.typesStored {past : List TaskTable} {database : Database}
    (history : History past database) : database.TypesStored := by
  induction history with
  | start fresh =>
      intro id record found
      rw [Database.record, fresh] at found
      cases found
  | step _ op instant answer performed ih => exact ih.perform performed

theorem Task.Repointed.trans {first second third : Task} (left : first.Repointed second)
    (right : second.Repointed third) : first.Repointed third where
  frame := by
    rw [right.frame, left.frame]
  rebaselined := right.rebaselined
  settled := right.settled

theorem forceSetFilingRepoId_eq (now : Timestamp) (filing : Option RepoId) (task : Task) :
    ∃ filingRepoId updatedAt,
      task.forceSetFilingRepoId now filing = { task with filingRepoId, updatedAt } := by
  unfold Task.forceSetFilingRepoId
  split
  · exact ⟨_, _, rfl⟩
  · exact ⟨_, _, rfl⟩

theorem TaskRecord.load_write_repointed {record : TaskRecord}
    (typed : record.row.issueType.map IssueType.stored = record.row.issueType)
    (instant now : Timestamp) (filing : Option RepoId) :
    record.load.Repointed (write instant .filingRepoRepair
      (record.load.forceSetFilingRepoId now filing) (some record)).load := by
  obtain ⟨filingRepoId, updatedAt, repointed⟩ := forceSetFilingRepoId_eq now filing record.load
  have aligned : (snapshotRow instant .filingRepoRepair
    (record.load.forceSetFilingRepoId now filing)).isBaseline = true := rfl
  refine ⟨?_, ?_, write_aligned aligned _⟩
  · rw [repointed]
    simp only [load, write, columns, mergeColumns, typed, if_true]
    rw [List.Pairwise.insertionSort_eq (List.pairwise_insertionSort _ _)]
    rfl
  · rw [write_baseline aligned]
    rfl

structure Database.RepointsOnly (before after : Database) (id : TaskId) : Prop where
  typed : after.TypesStored
  repoints : before.Repoints after id
  others : ∀ other, other ≠ id → after.record other = before.record other

theorem saveAll_repoints {instant now : Timestamp} {filing : Option RepoId} {task : Task}
    {id : TaskId} {before after : Database} (typed : before.TypesStored)
    (stored : before.stored id = some task)
    (saved : before.saveAll instant [⟨some task, task.forceSetFilingRepoId now filing,
      .filingRepoRepair⟩] [] = .ok after) : before.RepointsOnly after id := by
  obtain ⟨record, found, rfl⟩ := Option.map_eq_some_iff.mp stored
  obtain ⟨_, _, repointed⟩ := forceSetFilingRepoId_eq now filing record.load
  have idEq : (record.load.forceSetFilingRepoId now filing).id = id := by
    rw [repointed]
    exact Database.record_id found
  have written := Database.saveAll_single saved
  dsimp only at written
  rw [idEq, found] at written
  refine ⟨typed.saveAll saved, ⟨record.load, _, stored, ?_, TaskRecord.load_write_repointed
    (typed id record found) instant now filing⟩,
    fun other different => (written other).trans (if_neg different)⟩
  rw [Database.stored, written id, if_pos rfl]
  rfl

theorem runs_repointFilingRepo {id : TaskId} {target : Option RepoId} {before after : Database}
    {repointed : Task} (typed : before.TypesStored)
    (ran : (TaskService.repointFilingRepo id target).Runs portMeaning before (.ok repointed) after) :
    before.RepointsOnly after id := by
  obtain ⟨filing, _, ran⟩ := runs_quiet_bind (TaskService.originOfTarget_quiet target) ran
  obtain ⟨resolved, ranResolve, ran⟩ := runs_quiet_bind (getTask_quiet id) ran
  have sameId : resolved.id = id := Database.stored_id (runs_getTask ranResolve)
  rw [sameId] at ran
  obtain ⟨task, ranLoad, ran⟩ := runs_quiet_bind (getTask_quiet id) ran
  obtain ⟨now, _, ran⟩ := runs_quiet_bind (every_clock trivial) ran
  obtain ⟨_, saved, ranSave, rest⟩ := runs_bind_ok.mp ran
  obtain ⟨_, rfl⟩ := rest
  obtain ⟨instant, savedEq⟩ := runs_saveAll ranSave
  exact saveAll_repoints typed (runs_getTask ranLoad) savedEq

section Doctor

open RepoBindingService

theorem doctorTarget_quiet (targetOverride : Option RepoId) (task : Task) :
    (doctorTarget targetOverride task).Every PortOp.quiet := by
  cases targetOverride with
  | some forced => trivial
  | none =>
      have mapped : ∀ remote : RemoteRef, (query (.findByRemoteMapping task.workspaceId
          remote.provider remote.remoteId) : RepoBindingService.Action _).Every PortOp.quiet :=
        fun remote => @every_query _ _ _ (.findByRemoteMapping ..) rfl
      change (resolveDoctorTarget task).Every _
      unfold resolveDoctorTarget
      dsimp only
      split
      · rw [pure_eq, bind_eq, done_bind]
        dsimp only
        split
        · trivial
        · exact mapped _
      · refine every_bind (@every_lookup _ _ _ (.getBinding _) rfl) fun logical => ?_
        split
        · trivial
        · split
          · trivial
          · exact mapped _

theorem runs_repairTask {target : Option RepoOriginId} {id : TaskId} {before after : Database}
    {repaired : Bool} (typed : before.TypesStored)
    (ran : (repairTask true target id).Runs portMeaning before (.ok repaired) after) :
    if repaired then before.RepointsOnly after id else after = before := by
  cases target with
  | none =>
      obtain ⟨repairedEq, rfl⟩ := ran
      cases repairedEq
      exact rfl
  | some target =>
      obtain ⟨task, ranLoad, ran⟩ := runs_quiet_bind (getTask_quiet id) ran
      obtain ⟨now, _, ran⟩ := runs_quiet_bind (every_clock trivial) ran
      obtain ⟨_, saved, ranSave, rest⟩ := runs_bind_ok.mp ran
      obtain ⟨repairedEq, rfl⟩ := rest
      cases repairedEq
      obtain ⟨instant, savedEq⟩ := runs_saveAll ranSave
      exact saveAll_repoints typed (runs_getTask ranLoad) savedEq

structure DoctorSummary.Tells (before : Database) (summary : DoctorSummary) (after : Database) :
    Prop where
  typed : after.TypesStored
  told : ∀ id, if summary.healed id then before.Repoints after id
    else after.record id = before.record id

theorem DoctorSummary.healed_report (summary : DoctorSummary) (row : DoctorRow) (id : TaskId) :
    (summary.report row).healed id = (summary.healed id || (row.taskId = id && row.repaired)) := by
  simp [healed, report]

theorem Tells.repair {before middle after : Database} {summary : DoctorSummary} {row : DoctorRow}
    (tells : summary.Tells before middle)
    (repaired : if row.repaired then middle.RepointsOnly after row.taskId else after = middle) :
    (summary.report row).Tells before after := by
  cases healed : row.repaired with
  | false =>
      rw [healed] at repaired
      have same : after = middle := repaired
      subst same
      refine ⟨tells.typed, fun id => ?_⟩
      rw [DoctorSummary.healed_report, healed, Bool.and_false, Bool.or_false]
      exact tells.told id
  | true =>
      rw [healed] at repaired
      obtain ⟨typed, repoints, others⟩ : middle.RepointsOnly after row.taskId := repaired
      refine ⟨typed, fun id => ?_⟩
      have earlier := tells.told id
      rw [DoctorSummary.healed_report, healed, Bool.and_true]
      by_cases named : row.taskId = id
      · subst named
        rw [decide_eq_true rfl, Bool.or_true, if_pos rfl]
        obtain ⟨task, reloaded, stored, reload, repointed⟩ := repoints
        split at earlier
        · obtain ⟨first, second, firstStored, secondStored, before⟩ := earlier
          cases stored.symm.trans secondStored
          exact ⟨first, reloaded, firstStored, reload, before.trans repointed⟩
        · refine ⟨task, reloaded, ?_, reload, repointed⟩
          rw [← stored, Database.stored, Database.stored, earlier]
      · rw [decide_eq_false named, Bool.or_false]
        have same := others id (fun eq => named eq.symm)
        simp only [Database.Repoints, Database.stored, same] at earlier ⊢
        exact earlier

theorem runs_doctorTask {targetOverride : Option RepoId} {task : Task}
    {before middle after : Database} {summary next : DoctorSummary}
    (tells : summary.Tells before middle)
    (ran : (doctorTask true targetOverride summary task).Runs portMeaning middle (.ok next) after) :
    next.Tells before after := by
  unfold doctorTask at ran
  cases filed : task.filingRepoId with
  | none =>
      rw [filed] at ran
      obtain ⟨nextEq, rfl⟩ := ran
      cases nextEq
      exact tells
  | some filing =>
      rw [filed] at ran
      obtain ⟨origin, _, ran⟩ :=
        runs_quiet_bind (@every_lookup _ _ _ (.getOrigin filing.toOrigin) rfl) ran
      cases origin with
      | some origin =>
          obtain ⟨nextEq, rfl⟩ := ran
          cases nextEq
          exact tells
      | none =>
          obtain ⟨target, _, ran⟩ := runs_quiet_bind (doctorTarget_quiet targetOverride task) ran
          obtain ⟨repaired, last, ranRepair, rest⟩ := runs_bind_ok.mp ran
          obtain ⟨nextEq, rfl⟩ := rest
          cases nextEq
          exact Tells.repair tells (runs_repairTask tells.typed ranRepair)

theorem runs_doctor {workspaceId : WorkspaceId} {targetOverride : Option RepoId}
    {before after : Database} {summary : DoctorSummary} (typed : before.TypesStored)
    (ran : (doctor workspaceId true targetOverride).Runs portMeaning before (.ok summary) after) :
    summary.Tells before after := by
  obtain ⟨_, _, ran⟩ := runs_quiet_bind (@every_query _ _ _ (.getWorkspace workspaceId) rfl) ran
  have checked : (checkOverride targetOverride).Every PortOp.quiet := by
    cases targetOverride with
    | none => trivial
    | some forced => exact every_bind (@every_query _ _ _ (.getOrigin _) rfl) fun _ => trivial
  obtain ⟨_, _, ran⟩ := runs_quiet_bind checked ran
  obtain ⟨tasks, _, ran⟩ := runs_quiet_bind (@every_query _ _ _ (.listTasks _) rfl) ran
  exact @runs_foldEach _ _ _ _ _ portMeaning _
    (fun (_ : List Task) summary after => summary.Tells before after) tasks
    (fun _ _ _ _ _ _ _ tells round => runs_doctorTask tells round) _ [] _ _ _ _
    (List.Subset.refl _) ⟨typed, fun _ => rfl⟩ ran

end Doctor

/-- Both repairs touch the filing repo and the clock reading, and make the content the baseline:
nothing else of a task is changed, and no other task is. -/
theorem filing_repair_rebaselines {past : List TaskTable} {before : Database}
    (history : History past before) :
    (∀ id target repointed after,
      (TaskService.repointFilingRepo id target).Runs portMeaning before (.ok repointed) after →
      before.Repoints after id ∧ ∀ other, other ≠ id → after.stored other = before.stored other) ∧
    ∀ workspaceId targetOverride summary after,
      (RepoBindingService.doctor workspaceId true targetOverride).Runs portMeaning before
        (.ok summary) after →
      ∀ id, if summary.healed id then before.Repoints after id
        else after.stored id = before.stored id := by
  constructor
  · intro id target repointed after ran
    obtain ⟨_, repoints, others⟩ := runs_repointFilingRepo history.typesStored ran
    exact ⟨repoints, fun other different => congrArg _ (others other different)⟩
  · intro workspaceId targetOverride summary after ran id
    have told := (runs_doctor history.typesStored ran).told id
    split at told
    · rename_i healed
      rw [if_pos healed]
      exact told
    · rename_i unhealed
      rw [if_neg unhealed, Database.stored, told]
      rfl

def retitledMirror : Database :=
  let created := after obligingProvider .epoch
    (TaskService.create { workspaceId := ⟨1⟩, repoId := some ⟨21⟩, title := "t" }) twoRepos
  let promoted := after obligingProvider .epoch (SyncService.promote ⟨1⟩) created
  after obligingProvider ⟨1⟩ (TaskService.update { taskId := ⟨1⟩, title := some "u" }) promoted

theorem retitledMirror_history : ∃ past, History past retitledMirror := by
  obtain ⟨_, created⟩ := (History.start rfl).runs (runs_after obligingProvider .epoch
    (TaskService.create { workspaceId := ⟨1⟩, repoId := some ⟨21⟩, title := "t" }) twoRepos)
  obtain ⟨_, promoted⟩ := created.runs (runs_after obligingProvider .epoch _ _)
  obtain ⟨_, retitled⟩ := promoted.runs (runs_after obligingProvider ⟨1⟩ _ _)
  exact ⟨_, retitled⟩

abbrev repairedMirror : Database :=
  after obligingProvider ⟨2⟩ (TaskService.repointFilingRepo ⟨1⟩ (some ⟨22⟩)) retitledMirror

theorem repairedMirror_ran : ∃ repointed,
    (TaskService.repointFilingRepo ⟨1⟩ (some ⟨22⟩)).Runs portMeaning retitledMirror (.ok repointed)
      repairedMirror :=
  runs_of_ok (show (ending obligingProvider ⟨2⟩
    (TaskService.repointFilingRepo ⟨1⟩ (some ⟨22⟩)) retitledMirror).1.isOk = true by decide)

/-- The pending title is the baseline after the re-point. -/
theorem repoint_drops_pending_title :
    ∃ past repointed task reloaded, History past retitledMirror ∧
      (TaskService.repointFilingRepo ⟨1⟩ (some ⟨22⟩)).Runs portMeaning retitledMirror
        (.ok repointed) repairedMirror ∧
      retitledMirror.stored ⟨1⟩ = some task ∧ repairedMirror.stored ⟨1⟩ = some reloaded ∧
      reloaded.syncedBaseline ≠ task.syncedBaseline ∧
      reloaded.diffAgainstBaseline ≠ task.diffAgainstBaseline := by
  obtain ⟨past, history⟩ := retitledMirror_history
  obtain ⟨repointed, ran⟩ := repairedMirror_ran
  exact ⟨past, repointed, _, _, history, ran, rfl, rfl, by decide, by decide⟩

theorem filing_repair_rebaselines_retitled : retitledMirror.Repoints repairedMirror ⟨1⟩ := by
  obtain ⟨past, history⟩ := retitledMirror_history
  obtain ⟨repointed, ran⟩ := repairedMirror_ran
  exact ((filing_repair_rebaselines history).1 ⟨1⟩ (some ⟨22⟩) repointed repairedMirror ran).1

end RepoLink
