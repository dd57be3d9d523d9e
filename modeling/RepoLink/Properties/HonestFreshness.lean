import RepoLink.Properties.LostEdit
import RepoLink.Properties.RelationSymmetry
import RepoLink.Properties.RemoteDrift
import RepoLink.Sync.ObserveCalls

/-!
Freshness. Drains, pulls, refreshes and polls interleave call by call over one database; a stamp
of `synced_at` is backed by an answer of the provider, unless it is the stamp of a drained entry
that needed no network.
-/

namespace RepoLink

open Effects Program KeyedTable

abbrev Transcribed := Recorded Database PortCall

abbrev stampRules : Discipline ports Transcribed Nat :=
  recordingRules portCalls portMeaning (fun _ _ _ => True) HonestCall fun _ => True

/-- The programs that run, each with a fresh transcript. -/
inductive StampStarts : Transcribed → Proc ports Empty Nat → Prop
  | drain {world : Transcribed} {pid : Nat} (fresh : world.notes pid = [])
      (backoff : BackoffSchedule) (rounds : Nat) :
      StampStarts world ⟨pid, (OutboxDrainer.drainOnce backoff rounds).detached⟩
  | pull {world : Transcribed} {pid : Nat} (fresh : world.notes pid = []) (id : TaskId)
      (forceAcceptRemote : Bool) :
      StampStarts world ⟨pid, (SyncService.pullInner id forceAcceptRemote).detached⟩
  | refresh {world : Transcribed} {pid : Nat} (fresh : world.notes pid = []) (id : TaskId) :
      StampStarts world ⟨pid, (SyncService.refresh id).detached⟩
  | poll {world : Transcribed} {pid : Nat} (fresh : world.notes pid = [])
      (watermarks : Watermarks) :
      StampStarts world ⟨pid, (ProjectPoller.pollOnce watermarks).detached⟩

theorem stampStarts_recalls {world : Transcribed} {proc : Proc ports Empty Nat}
    (begins : StampStarts world proc) :
    proc.program.Recalls portCalls HonestCall (fun _ _ => True) (world.notes proc.kind) := by
  cases begins with
  | drain fresh backoff rounds =>
      exact (OutboxDrainer.drainOnce_recalls_stamps backoff rounds _).detached
  | pull fresh id force => exact (SyncService.pullInner_recalls_stamps id force _).detached
  | refresh fresh id => exact (SyncService.refresh_recalls id _).detached
  | poll fresh watermarks => exact (ProjectPoller.pollOnce_recalls watermarks _).detached

/-- Only a stamp of the task itself changes its stored `synced_at`. -/
theorem syncedAt_stamped {op : PortOp} {before after : Database} {answer : op.Answer}
    (performed : portMeaning op before answer after) {id : TaskId} {task later : Task}
    (found : before.stored id = some task) (foundLater : after.stored id = some later)
    (changed : later.syncedAt ≠ task.syncedAt) :
    ∃ instant source, op = .store (.cacheSyncedAt id instant source) := by
  have untouched : after ≠ before := by
    rintro rfl
    cases found.symm.trans foundLater
    exact changed rfl
  cases op with
  | store op =>
      rcases performed with ⟨instant, performed⟩ | ⟨_, _, same⟩
      · obtain ⟨record, recordEq, rfl⟩ := Option.map_eq_some_iff.mp found
        obtain ⟨last, lastEq, rfl⟩ := Option.map_eq_some_iff.mp foundLater
        rcases StoreOp.perform_record performed with ⟨writes, entries, rfl, saved⟩ | retouched
        · -- every write of a stored row keeps the column
          have kept : ∃ written, Database.afterWrites instant id writes (before.record id) =
              some written ∧ written.row.syncedAt = record.row.syncedAt := by
            have each : ∀ write ∈ writes, id = write.task.id → ∀ earlier : Option TaskRecord,
                (∃ written, earlier = some written ∧ written.row.syncedAt = record.row.syncedAt) →
                ∃ written, some (TaskRecord.write instant write.source write.task earlier) =
                  some written ∧ written.row.syncedAt = record.row.syncedAt := by
              rintro write _ _ _ ⟨earlier, rfl, same⟩
              exact ⟨_, rfl, same⟩
            exact Database.afterWrites_induct ⟨record, recordEq, rfl⟩ each
          obtain ⟨written, writtenEq, same⟩ := kept
          rw [← Database.saveAll_record saved, lastEq] at writtenEq
          cases writtenEq
          exact (changed same).elim
        · have lastIs := lastEq.symm.trans (retouched id)
          rw [recordEq] at lastIs
          split at lastIs
          · rename_i targets
            cases lastIs
            cases op with
            | cacheSyncedAt stamped instant source =>
                cases targets
                exact ⟨instant, source, rfl⟩
            | _ => exact (changed rfl).elim
          · cases lastIs
            exact (changed rfl).elim
      · exact (untouched same).elim
  | freshTaskId => exact (untouched performed.2).elim
  | now => exact (untouched performed).elim
  | freshEntryId => exact (untouched performed).elim
  | freshHash length => exact (untouched performed).elim
  | provider op => exact (untouched performed).elim

/-- In every run, a stamp is backed by an answer of the provider in its own step, exactly if it is
none of a drained entry, or the entry needed the network for the copy that its arm loaded. Nothing
else changes a stored `synced_at`. -/
theorem freshness_honest_iff {start : Database} {pool : Pool ports Transcribed Empty Nat}
    (run : Pool.Run stampRules apart StampStarts ⟨⟨start, fun _ => []⟩, []⟩ pool)
    {pid : Nat} {op : PortOp} {next : op.Answer → Program ports Empty Unit}
    (member : ⟨pid, .call op next⟩ ∈ pool.procs) :
    (∀ id instant source, op = .store (.cacheSyncedAt id instant source) →
      (Vouched (pool.shared.notes pid) id source ↔
        (source = .push → SentSinceClaim (pool.shared.notes pid)))) ∧
    ∀ answer after, portMeaning op pool.shared.state answer after →
      ∀ id task later, pool.shared.state.stored id = some task →
        after.stored id = some later → later.syncedAt ≠ task.syncedAt →
        ∃ instant source, op = .store (.cacheSyncedAt id instant source) := by
  have possible : ∀ op before answer after, portMeaning op before answer after →
      portCalls.possible op answer := fun _ _ _ _ => loads_possible
  have sound := recorded_run possible (fun _ _ _ _ _ _ _ _ _ => trivial)
    (fun _ _ => stampStarts_recalls) trivial run
  exact ⟨sound.owed member, fun _ _ performed _ _ _ => syncedAt_stamped performed⟩

def PortOp.requests : PortOp → Bool
  | .provider _ => true
  | _ => false

theorem sinceClaim_subset : ∀ {calls : List PortCall} {entry : OutboxEntry}
    {since : List PortCall}, sinceClaim calls = some (entry, since) → since ⊆ calls := by
  intro calls
  induction calls with
  | nil => exact fun claimed => nomatch claimed
  | cons first rest ih =>
      intro entry since claimed
      rw [sinceClaim] at claimed
      rcases Option.or_eq_some_iff.mp claimed with inRest | ⟨_, isFirst⟩
      · exact fun _ member => List.mem_cons_of_mem _ (ih inRest member)
      · obtain ⟨_, _, same⟩ := Option.map_eq_some_iff.mp isFirst
        cases same
        exact List.subset_cons_self first rest

theorem not_vouched_offline {calls : List PortCall} {id : TaskId}
    (offline : ∀ call ∈ calls, call.1.requests = false) : ¬Vouched calls id .push := by
  rintro (⟨claimed, _, op, answer, _, answered⟩ | _)
  exact nomatch offline _ (sinceClaim_subset claimed answered)

abbrev stampingDrain : Proc ports Empty Nat := ⟨0, (OutboxDrainer.drainOnce .standard 5).detached⟩

abbrev stampHandler (provider : Provider) : Handler ports (Scene × (Nat → List PortCall)) :=
  recordingHandler portCalls (portHandler provider ⟨1⟩) 0

def transcribed (state : Scene × (Nat → List PortCall)) : Transcribed := ⟨state.1.database, state.2⟩

theorem run_stampingDrain (provider : Provider) (start : Database) (count : Nat) :
    Pool.Run stampRules apart StampStarts ⟨⟨start, fun _ => []⟩, []⟩
      ⟨transcribed (stampingDrain.program.advance (stampHandler provider) count
          (⟨start, 0⟩, fun _ => [])).2,
        [⟨0, (stampingDrain.program.advance (stampHandler provider) count
          (⟨start, 0⟩, fun _ => [])).1⟩]⟩ := by
  have passes : ∀ (count : Nat) (program : Program ports Empty Unit)
      (state : Scene × (Nat → List PortCall)),
      program.passes (fun _ _ => true) (stampHandler provider) count state = true := by
    intro count
    induction count with
    | zero => exact fun _ _ => rfl
    | succ count ih =>
        intro program state
        cases program with
        | call op next => exact Bool.and_eq_true_iff.mpr ⟨rfl, ih _ _⟩
        | done value => rfl
        | fail error => rfl
  exact @Pool.run_started _ _ _ _ stampRules apart StampStarts _ (fun _ _ => true)
    (stampHandler provider) transcribed stampingDrain [] (⟨start, 0⟩, fun _ => []) count
    (fun op state _ => ⟨trivial, portHandler_sound provider ⟨1⟩ op state.1, rfl⟩)
    (.drain rfl .standard 5) (fun _ member => (List.not_mem_nil member).elim) (passes ..)

def idleDrain : Program ports Empty Unit × (Scene × (Nat → List PortCall)) :=
  stampingDrain.program.advance (stampHandler retitledProvider) 5 (⟨revertedEdit, 0⟩, fun _ => [])

/-- The edit was reverted, so its entry is applied without the provider, and stamps the task. -/
theorem idle_drain_stamps : ∃ pool, Pool.Run stampRules apart StampStarts
      ⟨⟨revertedEdit, fun _ => []⟩, []⟩ pool ∧
    ∃ next, ⟨0, .call (.store (.cacheSyncedAt ⟨1⟩ ⟨1⟩ .push)) next⟩ ∈ pool.procs ∧
      (∀ call ∈ pool.shared.notes 0, call.1.requests = false) ∧
      ¬Vouched (pool.shared.notes 0) ⟨1⟩ .push ∧
      (pool.shared.state.stored ⟨1⟩).map (·.syncedAt) ≠ some (some ⟨1⟩) := by
  have offline : ∀ call ∈ idleDrain.2.2 0, call.1.requests = false := by decide
  refine ⟨_, run_stampingDrain retitledProvider revertedEdit 5, _, List.mem_singleton_self _,
    offline, not_vouched_offline offline, by decide⟩

def sentDrain : Program ports Empty Unit × (Scene × (Nat → List PortCall)) :=
  stampingDrain.program.advance (stampHandler confirmingProvider) 8 (⟨retitledTask, 0⟩, fun _ => [])

theorem freshness_honest_iff_sent : Vouched (sentDrain.2.2 0) ⟨1⟩ .push := by
  have run := run_stampingDrain confirmingProvider retitledTask 8
  have sent : SentSinceClaim (sentDrain.2.2 0) := by decide
  exact ((freshness_honest_iff run (List.mem_singleton_self _)).1 ⟨1⟩ ⟨1⟩ .push rfl).mpr
    fun _ => sent

end RepoLink
