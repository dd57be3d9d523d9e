import RepoLink.Ports.Handler
import RepoLink.Store.History
import RepoLink.Sync.Service
import RepoLink.TaskService.Calls

/-!
Rollback and the identity of the backing issue. A rollback restores the remote of the version
and keeps the live filing repo; the pair is one that the task has had exactly when the filing
repo did not move away from that remote in between.
-/

namespace RepoLink

open Effects Program

theorem Task.reconcileDirtyAgainstBaseline_only_sync (task : Task) :
    ∃ sync, task.reconcileDirtyAgainstBaseline = { task with sync } := by
  unfold Task.reconcileDirtyAgainstBaseline
  split
  · exact ⟨task.sync, rfl⟩
  · exact ⟨_, rfl⟩

namespace TaskService

@[simp] theorem restoreVersion_remote (now : Timestamp) (snapshot : TaskSnapshot) (task : Task) :
    (restoreVersion now snapshot task).remote = snapshot.remote := by
  unfold restoreVersion
  obtain ⟨sync, reconciled⟩ := Task.reconcileDirtyAgainstBaseline_only_sync _
  rw [reconciled]

@[simp] theorem setIssueType_filingRepoId (now : Timestamp) (issueType : Option IssueType)
    (task : Task) : (task.setIssueType now issueType).filingRepoId = task.filingRepoId := by
  unfold Task.setIssueType Task.touch
  split <;> rfl

@[simp] theorem setIssueType_id (now : Timestamp) (issueType : Option IssueType)
    (task : Task) : (task.setIssueType now issueType).id = task.id := by
  unfold Task.setIssueType Task.touch
  split <;> rfl

@[simp] theorem restoreVersion_filingRepoId (now : Timestamp) (snapshot : TaskSnapshot)
    (task : Task) : (restoreVersion now snapshot task).filingRepoId = task.filingRepoId := by
  unfold restoreVersion
  obtain ⟨sync, reconciled⟩ := Task.reconcileDirtyAgainstBaseline_only_sync _
  rw [reconciled]
  cases snapshot.issueTypeRecorded <;> simp

@[simp] theorem restoreVersion_id (now : Timestamp) (snapshot : TaskSnapshot) (task : Task) :
    (restoreVersion now snapshot task).id = task.id := by
  unfold restoreVersion
  obtain ⟨sync, reconciled⟩ := Task.reconcileDirtyAgainstBaseline_only_sync _
  rw [reconciled]
  cases snapshot.issueTypeRecorded <;> simp

theorem rollback_runs {id : TaskId} {version : Nat} {before after : Database} {task : Task}
    (ran : (rollback id version).Runs portMeaning before (.ok task) after) :
    ∃ record snapshot now instant entries,
      before.record id = some record ∧ record.snapshots.get version = some snapshot ∧
      before.saveAll instant
        [{ basis := some record.load, task := restoreVersion now snapshot record.load
           source := .rollback }] entries = .ok after := by
  obtain ⟨loaded, ranLoad, ran⟩ := runs_quiet_bind (getTask_quiet id) ran
  obtain ⟨record, found, rfl⟩ := Option.map_eq_some_iff.mp (runs_getTask ranLoad)
  obtain ⟨snapshot, ranSnapshot, ran⟩ := runs_quiet_bind (getSnapshot_quiet _ version) ran
  obtain ⟨now, _, ran⟩ := runs_quiet_bind (every_clock trivial) ran
  obtain ⟨rails, _, ran⟩ := runs_quiet_bind (railEntries_quiet _ _) ran
  obtain ⟨_, saved, ranSave, rest⟩ := runs_bind_ok.mp ran
  obtain ⟨_, rfl⟩ := rest
  obtain ⟨instant, savedEq⟩ := runs_saveAll ranSave
  have idEq : record.load.id = id := Database.record_id found
  obtain ⟨stored, storedFound, versionFound⟩ := runs_getSnapshot ranSnapshot
  rw [idEq, found] at storedFound
  cases storedFound
  exact ⟨record, snapshot, now, instant, rails, found, versionFound, savedEq⟩

end TaskService

/-- After a rollback of `id` the task, if remote-backed, has a pair that it had before. -/
def RollbackCoherent (past : List TaskTable) (id : TaskId) (after : Database) : Prop :=
  ∀ record pair, after.record id = some record → record.row.issuePair = some pair →
    HadTogether past id pair

/-- The live filing repo goes with the version's remote: the version has none, or it or another
version recorded that remote together with the live filing repo. -/
def FilingKept (record : TaskRecord) (version : TaskSnapshot) : Prop :=
  version.remote = none ∨ ∃ recorded ∈ record.snapshots.newestFirst,
    recorded.filingRepoId = record.row.filingRepoId ∧
      recorded.remote.map RemoteRef.remoteId = version.remote.map RemoteRef.remoteId

def transferred : Database :=
  let created := after obligingProvider .epoch
    (TaskService.create { workspaceId := ⟨1⟩, repoId := some ⟨21⟩, title := "t" }) twoRepos
  let promoted := after obligingProvider .epoch (SyncService.promote ⟨1⟩) created
  after obligingProvider .epoch (SyncService.transfer ⟨1⟩ "github.com/acme/two") promoted

theorem transferred_history : ∃ past, History past transferred := by
  obtain ⟨_, created⟩ := (History.start rfl).runs (runs_after obligingProvider .epoch
    (TaskService.create { workspaceId := ⟨1⟩, repoId := some ⟨21⟩, title := "t" }) twoRepos)
  obtain ⟨_, promoted⟩ := created.runs (runs_after obligingProvider .epoch _ _)
  obtain ⟨_, moved⟩ := promoted.runs (runs_after obligingProvider .epoch _ _)
  exact ⟨_, moved⟩

/-- Rolled back to the promoted version, the task names issue 7 of the second repo. -/
theorem rollback_after_transfer_not_coherent :
    ∃ past task, History past transferred ∧
      (TaskService.rollback ⟨1⟩ 3).Runs portMeaning transferred (.ok task)
        (after obligingProvider .epoch (TaskService.rollback ⟨1⟩ 3) transferred) ∧
      ¬RollbackCoherent past ⟨1⟩
        (after obligingProvider .epoch (TaskService.rollback ⟨1⟩ 3) transferred) := by
  obtain ⟨past, history⟩ := transferred_history
  obtain ⟨task, ran⟩ := runs_of_ok
    (show
    (ending obligingProvider .epoch (TaskService.rollback ⟨1⟩ 3) transferred).1.isOk = true by
      decide)
  refine ⟨past, task, history, ran, ?_⟩
  intro coherent
  obtain ⟨record, found, pairEq⟩ : ∃ record, (after obligingProvider .epoch
      (TaskService.rollback ⟨1⟩ 3) transferred).record ⟨1⟩ = some record ∧
      record.row.issuePair = some (some ⟨12⟩, "7") := ⟨_, rfl, by decide⟩
  obtain ⟨stored, storedFound, recorded⟩ :=
    history.faithful.complete _ _ (coherent record _ found pairEq)
  cases storedFound
  revert recorded
  unfold TaskRecord.recorded
  decide

theorem rollback_coherent_iff_filingKept {past : List TaskTable} {before after : Database}
    (history : History past before) {id : TaskId} {version : Nat} {task : Task}
    (ran : (TaskService.rollback id version).Runs portMeaning before (.ok task) after) :
    ∃ record target, before.record id = some record ∧
      record.snapshots.get version = some target ∧
      (RollbackCoherent past id after ↔ FilingKept record target) := by
  obtain ⟨record, target, now, instant, entries, found, targetFound, saved⟩ :=
    TaskService.rollback_runs ran
  refine ⟨record, target, found, targetFound, ?_⟩
  have idEq : record.load.id = id := Database.record_id found
  have stored := Database.saveAll_single saved id
  rw [if_pos (by simpa using idEq.symm)] at stored
  have pairEq : ∀ row, after.record id = some row → row.row.issuePair =
      target.remote.map fun remote => (record.row.filingRepoId, remote.remoteId) := by
    intro row rowFound
    rw [stored] at rowFound
    cases rowFound
    rw [TaskRecord.write_issuePair]
    simp [Task.issuePair, TaskRecord.load]
  constructor
  · intro coherent
    cases remoteEq : target.remote with
    | none => exact .inl remoteEq
    | some remote =>
        right
        have pairFound := pairEq _ stored
        rw [remoteEq, Option.map_some] at pairFound
        obtain ⟨recorded, member, recordedPair⟩ :=
          (history.hadTogether_iff found _).mp (coherent _ _ stored pairFound)
        obtain ⟨other, otherEq, both⟩ := Option.map_eq_some_iff.mp recordedPair
        refine ⟨recorded, member, (Prod.mk.inj both).1, ?_⟩
        rw [otherEq, remoteEq]
        exact congrArg some (Prod.mk.inj both).2
  · rintro kept row pair rowFound rowPair
    rw [pairEq row rowFound] at rowPair
    obtain ⟨remote, remoteEq, rfl⟩ := Option.map_eq_some_iff.mp rowPair
    rcases kept with missing | ⟨recorded, member, filingEq, remoteIds⟩
    · rw [missing] at remoteEq
      cases remoteEq
    · refine (history.hadTogether_iff found _).mpr ⟨recorded, member, ?_⟩
      rw [remoteEq, Option.map_some] at remoteIds
      obtain ⟨other, otherEq, otherId⟩ := Option.map_eq_some_iff.mp remoteIds
      simp [TaskSnapshot.issuePair, otherEq, otherId, filingEq]

theorem rollback_coherent_iff_filingKept_transferred :
    ∃ past record target, History past transferred ∧ transferred.record ⟨1⟩ = some record ∧
      record.snapshots.get 3 = some target ∧
      (RollbackCoherent past ⟨1⟩
        (after obligingProvider .epoch (TaskService.rollback ⟨1⟩ 3) transferred) ↔
        FilingKept record target) := by
  obtain ⟨past, history⟩ := transferred_history
  obtain ⟨task, ran⟩ := runs_of_ok
    (show
    (ending obligingProvider .epoch (TaskService.rollback ⟨1⟩ 3) transferred).1.isOk = true by
      decide)
  obtain ⟨record, target, rest⟩ := rollback_coherent_iff_filingKept history ran
  exact ⟨past, record, target, history, rest⟩

end RepoLink
