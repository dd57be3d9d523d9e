import RepoLink.Ports.Changes
import RepoLink.Store.OutboxFifo

/-!
What each repository call does to one outbox entry, said once: a claim and a requeue flip its
status, a resolution sets the status of the entry it names, and only a detach takes entries away.
-/

namespace RepoLink

open KeyedTable

def OutboxTable.entry (outbox : OutboxTable) (id : OutboxEntryId) : Option OutboxEntry :=
  (outbox.table.find id).map OutboxRow.entry

def Database.entry (database : Database) (id : OutboxEntryId) : Option OutboxEntry :=
  database.outbox.entry id

def StoreOp.resolves : StoreOp → Option (OutboxEntryId × OutboxStatus)
  | .markSucceeded id => some (id, .succeeded)
  | .markFailed id _ => some (id, .failed)
  | .recordRetry id _ _ => some (id, .pending)
  | _ => none

def PortOp.queued : PortOp → List OutboxEntry
  | .store (.enqueue entry) => [entry]
  | .store (.enqueueIfAbsent entry) => [entry]
  | .store (.saveAll _ entries) => entries
  | _ => []

namespace OutboxTable

theorem entry_id {outbox : OutboxTable} {id : OutboxEntryId} {entry : OutboxEntry}
    (found : outbox.entry id = some entry) : entry.id = id := by
  obtain ⟨row, rowFound, rfl⟩ := Option.map_eq_some_iff.mp found
  have keyEq : row.id = id := Table.find_key rowFound
  exact keyEq

theorem entry_of_row {outbox : OutboxTable} {row : OutboxRow} (member : row ∈ outbox.rows) :
    outbox.entry row.entry.id = some row.entry :=
  Option.map_eq_some_iff.mpr ⟨row, @Table.find_of_mem _ _ OutboxRow.id _ _ _ member, rfl⟩

theorem entry_mapEntries {change : OutboxEntry → OutboxEntry}
    {keeps : ∀ entry, (change entry).id = entry.id} (outbox : OutboxTable) (id : OutboxEntryId) :
    (outbox.mapEntries change keeps).entry id = (outbox.entry id).map change := by
  have mapped : (outbox.mapEntries change keeps).table.find id =
      (outbox.table.find id).map fun row => { row with entry := change row.entry } :=
    Table.find_mapRows _ (fun row => keeps row.entry) _ _
  unfold entry
  rw [mapped]
  cases outbox.table.find id <;> rfl

theorem entry_updateEntry {target : OutboxEntryId} {change : OutboxEntry → OutboxEntry}
    {keeps : ∀ entry, (change entry).id = entry.id} (outbox : OutboxTable) (id : OutboxEntryId) :
    (outbox.updateEntry target change keeps).entry id =
      if id = target then (outbox.entry id).map change else outbox.entry id := by
  unfold updateEntry
  rw [entry_mapEntries]
  cases found : outbox.entry id with
  | none => simp
  | some entry =>
      rw [Option.map_some, entry_id found]
      split <;> rfl

theorem entry_insertRow {entry : OutboxEntry} {outbox inserted : OutboxTable}
    (done : outbox.insertRow entry = .ok inserted) (id : OutboxEntryId) :
    inserted.entry id = if id = entry.id then some entry else outbox.entry id := by
  unfold insertRow at done
  split at done
  · cases done
  · rename_i fresh
    cases done
    have appended := Table.find_append (OutboxRow.mk outbox.nextRowid entry) outbox.table fresh id
    change _ = if id = entry.id then _ else _ at appended
    unfold OutboxTable.entry
    rw [appended]
    split <;> rfl

theorem entry_insertRow_kept {entry stored : OutboxEntry} {outbox inserted : OutboxTable}
    (done : outbox.insertRow entry = .ok inserted) {id : OutboxEntryId}
    (found : outbox.entry id = some stored) : inserted.entry id = some stored := by
  rw [entry_insertRow done, if_neg, found]
  rintro rfl
  obtain ⟨row, rowFound, rfl⟩ := Option.map_eq_some_iff.mp found
  unfold insertRow at done
  split at done
  · cases done
  · rename_i fresh
    exact fresh (List.mem_map.mpr ⟨row, Table.find_mem rowFound, Table.find_key rowFound⟩)

theorem entry_insertOutboxInTx_kept {entry stored : OutboxEntry} {outbox inserted : OutboxTable}
    (done : outbox.insertOutboxInTx entry = .ok inserted) {id : OutboxEntryId}
    (found : outbox.entry id = some stored) : inserted.entry id = some stored := by
  unfold insertOutboxInTx at done
  split at done
  · cases done
    exact found
  · exact entry_insertRow_kept done found

theorem entry_insertRow_source {entry next : OutboxEntry} {outbox inserted : OutboxTable}
    (done : outbox.insertRow entry = .ok inserted) {id : OutboxEntryId}
    (found : inserted.entry id = some next) : next = entry ∨ outbox.entry id = some next := by
  rw [entry_insertRow done] at found
  split at found
  · exact .inl (Option.some.inj found).symm
  · exact .inr found

theorem entry_insertOutboxInTx_source {entry next : OutboxEntry} {outbox inserted : OutboxTable}
    (done : outbox.insertOutboxInTx entry = .ok inserted) {id : OutboxEntryId}
    (found : inserted.entry id = some next) : next = entry ∨ outbox.entry id = some next := by
  unfold insertOutboxInTx at done
  split at done
  · cases done
    exact .inr found
  · exact entry_insertRow_source done found

theorem entry_deleteWhere_source {drop : OutboxEntry → Bool} {outbox : OutboxTable}
    {id : OutboxEntryId} {next : OutboxEntry}
    (found : (outbox.deleteWhere drop).entry id = some next) : outbox.entry id = some next := by
  obtain ⟨row, rowFound, rfl⟩ := Option.map_eq_some_iff.mp found
  have filtered : (outbox.deleteWhere drop).table.find id =
      (outbox.table.find id).filter fun row => !drop row.entry := Table.find_filter _ _ _
  rw [filtered, Option.filter_eq_some_iff] at rowFound
  exact Option.map_eq_some_iff.mpr ⟨row, rowFound.1, rfl⟩

theorem entry_markFailed {outbox : OutboxTable} {id : OutboxEntryId} {entry : OutboxEntry}
    (now : Timestamp) (error : String) (found : outbox.entry id = some entry) :
    ∃ next, (outbox.markFailed now id error).entry id = some next ∧ next.status = .failed := by
  unfold markFailed
  rw [entry_updateEntry, if_pos rfl, found]
  exact ⟨_, rfl, rfl⟩

theorem entry_claimed {outbox : OutboxTable} {now flipAt : Timestamp} {entry : OutboxEntry}
    (claim : (outbox.claimNextEligible now flipAt).1 = some entry) :
    (outbox.claimNextEligible now flipAt).2.entry entry.id = some entry ∧
      entry.status = .inflight := by
  unfold claimNextEligible at claim ⊢
  split at claim
  · cases claim
  · rename_i row eligible
    cases claim
    rw [entry_updateEntry, if_pos rfl, entry_of_row (nextEligible_some eligible).1]
    exact ⟨rfl, rfl⟩

end OutboxTable

theorem Database.entry_insertEntries_kept {stored : OutboxEntry} {id : OutboxEntryId} :
    ∀ {entries : List OutboxEntry} {outbox inserted : OutboxTable},
      Database.insertEntries entries outbox = .ok inserted → outbox.entry id = some stored →
      inserted.entry id = some stored := by
  intro entries
  induction entries with
  | nil =>
      intro outbox inserted done found
      cases done
      exact found
  | cons entry rest ih =>
      intro outbox inserted done found
      obtain ⟨middle, first, done⟩ := insertEntries_cons_ok done
      exact ih done (OutboxTable.entry_insertOutboxInTx_kept first found)

theorem Database.entry_insertEntries_source {next : OutboxEntry} {id : OutboxEntryId} :
    ∀ {entries : List OutboxEntry} {outbox inserted : OutboxTable},
      Database.insertEntries entries outbox = .ok inserted → inserted.entry id = some next →
      next ∈ entries ∨ outbox.entry id = some next := by
  intro entries
  induction entries with
  | nil =>
      intro outbox inserted done found
      cases done
      exact .inr found
  | cons entry rest ih =>
      intro outbox inserted done found
      obtain ⟨middle, first, done⟩ := insertEntries_cons_ok done
      rcases ih done found with later | earlier
      · exact .inl (List.mem_cons_of_mem _ later)
      · rcases OutboxTable.entry_insertOutboxInTx_source first earlier with rfl | stored
        · exact .inl List.mem_cons_self
        · exact .inr stored

inductive EntryStep (op : StoreOp) (entry next : OutboxEntry) : Prop
  | same (unchanged : next = entry)
  | claimed {now : Timestamp} (by_claim : op = .claimNextEligible now)
      (was : entry.status = .pending) (is : next.status = .inflight)
  | requeued (by_requeue : op = .requeueOrphanedInflight)
      (was : entry.status = .inflight) (is : next.status = .pending)
  | resolved (names : op.resolves = some (entry.id, next.status))

theorem StoreOp.perform_entry {op : StoreOp} {instant : Timestamp} {before after : Database}
    {answer : Except PortError op.Answer} (performed : op.perform instant before = (answer, after))
    (keeps : ∀ taskId, op ≠ .deletePendingAddItems taskId)
    {id : OutboxEntryId} {entry : OutboxEntry} (found : before.entry id = some entry) :
    ∃ next, after.entry id = some next ∧ next.taskId = entry.taskId ∧
      next.mutation = entry.mutation ∧ EntryStep op entry next := by
  have kept : ∀ {last : Database}, last.entry id = some entry → ∃ next, last.entry id = some next ∧
      next.taskId = entry.taskId ∧ next.mutation = entry.mutation ∧ EntryStep op entry next :=
    fun still => ⟨entry, still, rfl, rfl, .same rfl⟩
  cases answer with
  | error error =>
      rw [StoreOp.perform_error performed]
      exact kept found
  | ok value =>
      have idEq := OutboxTable.entry_id found
      have resolving : ∀ (target : OutboxEntryId) (change : OutboxEntry → OutboxEntry)
          (keeps : ∀ entry, (change entry).id = entry.id),
          (∀ entry, (change entry).taskId = entry.taskId ∧
            (change entry).mutation = entry.mutation ∧
            op.resolves = some (target, (change entry).status)) →
          after = StoreOp.overOutbox before (before.outbox.updateEntry target change keeps) →
          ∃ next, after.entry id = some next ∧ next.taskId = entry.taskId ∧
            next.mutation = entry.mutation ∧ EntryStep op entry next := by
        intro target change keeps shape afterEq
        have entryEq : (before.outbox.updateEntry target change keeps).entry id = _ :=
          OutboxTable.entry_updateEntry before.outbox id
        subst afterEq
        by_cases same : id = target
        · rw [if_pos same, show before.outbox.entry id = some entry from found] at entryEq
          refine ⟨change entry, entryEq, (shape entry).1, (shape entry).2.1, .resolved ?_⟩
          rw [(shape entry).2.2, idEq, same]
        · rw [if_neg same] at entryEq
          exact kept (entryEq.trans found)
      cases op with
      | saveAll writes entries =>
          obtain ⟨tasks, outbox, _, inserted, rfl⟩ :=
            Database.saveAll_ok (perform_saveAll_ok performed)
          exact kept (Database.entry_insertEntries_kept inserted found)
      | enqueue fresh =>
          obtain ⟨outbox, inserted, rfl⟩ := perform_enqueue_ok performed
          exact kept (OutboxTable.entry_insertOutboxInTx_kept inserted found)
      | enqueueIfAbsent fresh =>
          obtain ⟨outbox, inserted, rfl⟩ := perform_enqueueIfAbsent_ok performed
          unfold OutboxTable.enqueueIfAbsent at inserted
          split at inserted
          · cases inserted
            exact kept found
          · cases done : before.outbox.insertRow fresh with
            | error error => rw [done] at inserted; cases inserted
            | ok stored =>
                rw [done] at inserted
                cases inserted
                exact kept (OutboxTable.entry_insertRow_kept done found)
      | claimNextEligible now =>
          have afterEq := congrArg Prod.snd performed
          dsimp only [StoreOp.perform] at afterEq
          subst afterEq
          unfold OutboxTable.claimNextEligible
          split
          · exact kept found
          · rename_i row eligible
            unfold Database.entry StoreOp.overOutbox
            rw [OutboxTable.entry_updateEntry]
            split
            · rename_i same
              have rowFound := OutboxTable.entry_of_row (OutboxTable.nextEligible_some eligible).1
              have pending :=
                OutboxTable.eligible_pending (OutboxTable.nextEligible_some eligible).2
              rw [← same, show before.outbox.entry id = some entry from found] at rowFound
              cases rowFound
              rw [show before.outbox.entry id = some row.entry from found]
              exact ⟨_, rfl, rfl, rfl, .claimed rfl pending rfl⟩
            · exact ⟨entry, found, rfl, rfl, .same rfl⟩
      | markSucceeded target =>
          cases performed
          refine resolving target _ _ ?_ rfl
          exact fun _ => ⟨rfl, rfl, rfl⟩
      | markFailed target error =>
          cases performed
          refine resolving target _ _ ?_ rfl
          exact fun _ => ⟨rfl, rfl, rfl⟩
      | recordRetry target error nextAttemptAt =>
          cases performed
          refine resolving target _ _ ?_ rfl
          exact fun _ => ⟨rfl, rfl, rfl⟩
      | requeueOrphanedInflight =>
          have afterEq := congrArg Prod.snd performed
          dsimp only [StoreOp.perform] at afterEq
          subst afterEq
          change ∃ next, (before.outbox.requeueOrphanedInflight instant).2.entry id = _ ∧ _
          unfold OutboxTable.requeueOrphanedInflight
          rw [OutboxTable.entry_mapEntries, show before.outbox.entry id = some entry from found,
            Option.map_some]
          split
          · rename_i inflight
            exact ⟨_, rfl, rfl, rfl, .requeued rfl inflight rfl⟩
          · exact ⟨entry, rfl, rfl, rfl, .same rfl⟩
      | deletePendingAddItems taskId => exact (keeps taskId rfl).elim
      | replaceComments | addPendingComment | markCommentsPushed =>
          rw [StoreOp.perform_commentChange rfl performed]
          exact kept found
      | _ =>
          have same := congrArg Prod.snd performed
          dsimp only at same
          subst same
          exact kept found

/-- A call brings no entry in but the ones that it queues. -/
theorem StoreOp.perform_entry_new {op : StoreOp} {instant : Timestamp} {before after : Database}
    {answer : Except PortError op.Answer} (performed : op.perform instant before = (answer, after))
    {id : OutboxEntryId} {next : OutboxEntry} (fresh : before.entry id = none)
    (found : after.entry id = some next) : next ∈ (PortOp.store op).queued := by
  have unchanged : before.entry id ≠ some next := by rw [fresh]; nofun
  have mapped : ∀ (change : OutboxEntry → OutboxEntry)
      (keeps : ∀ entry, (change entry).id = entry.id),
      (before.outbox.mapEntries change keeps).entry id ≠ some next := by
    intro change keeps
    rw [OutboxTable.entry_mapEntries, show before.outbox.entry id = none from fresh]
    nofun
  cases answer with
  | error error =>
      rw [StoreOp.perform_error performed] at found
      exact absurd found unchanged
  | ok value =>
      cases op with
      | saveAll writes entries =>
          obtain ⟨tasks, outbox, _, inserted, rfl⟩ :=
            Database.saveAll_ok (perform_saveAll_ok performed)
          exact (Database.entry_insertEntries_source inserted found).resolve_right unchanged
      | enqueue entry =>
          obtain ⟨outbox, inserted, rfl⟩ := perform_enqueue_ok performed
          exact List.mem_singleton.mpr
            ((OutboxTable.entry_insertOutboxInTx_source inserted found).resolve_right unchanged)
      | enqueueIfAbsent entry =>
          obtain ⟨outbox, inserted, rfl⟩ := perform_enqueueIfAbsent_ok performed
          unfold OutboxTable.enqueueIfAbsent at inserted
          split at inserted
          · cases inserted
            exact absurd found unchanged
          · cases done : before.outbox.insertRow entry with
            | error error => rw [done] at inserted; cases inserted
            | ok stored =>
                rw [done] at inserted
                cases inserted
                exact List.mem_singleton.mpr
                  ((OutboxTable.entry_insertRow_source done found).resolve_right unchanged)
      | claimNextEligible now =>
          have afterEq := congrArg Prod.snd performed
          dsimp only [StoreOp.perform] at afterEq
          subst afterEq
          unfold OutboxTable.claimNextEligible at found
          split at found
          · exact absurd found unchanged
          · exact (mapped _ _ found).elim
      | markSucceeded | markFailed | recordRetry | requeueOrphanedInflight =>
          cases performed
          exact (mapped _ _ found).elim
      | deletePendingAddItems taskId =>
          cases performed
          exact absurd (OutboxTable.entry_deleteWhere_source found) unchanged
      | replaceComments | addPendingComment | markCommentsPushed =>
          rw [StoreOp.perform_commentChange rfl performed] at found
          exact absurd found unchanged
      | _ =>
          have same := congrArg Prod.snd performed
          dsimp only at same
          subst same
          exact absurd found unchanged

theorem StoreOp.perform_entry_source {op : StoreOp} {instant : Timestamp} {before after : Database}
    {answer : Except PortError op.Answer} (performed : op.perform instant before = (answer, after))
    {id : OutboxEntryId} {next : OutboxEntry} (found : after.entry id = some next) :
    next ∈ (PortOp.store op).queued ∨ ∃ entry, before.entry id = some entry ∧
      next.taskId = entry.taskId ∧ next.mutation = entry.mutation ∧ EntryStep op entry next := by
  by_cases deletes : ∃ taskId, op = .deletePendingAddItems taskId
  · obtain ⟨taskId, rfl⟩ := deletes
    cases performed
    exact .inr ⟨next, OutboxTable.entry_deleteWhere_source found, rfl, rfl, .same rfl⟩
  · cases stored : before.entry id with
    | none => exact .inl (perform_entry_new performed stored found)
    | some entry =>
        obtain ⟨kept, keptFound, moved⟩ :=
          perform_entry performed (fun taskId same => deletes ⟨taskId, same⟩) stored
        cases keptFound.symm.trans found
        exact .inr ⟨entry, rfl, moved⟩

end RepoLink
