import RepoLink.Library.Crash
import RepoLink.Ports.Entries
import RepoLink.Sync.StampCalls

/-!
The books of the two creations that a replay must not repeat. A run notes which entries created
something and which of these creations were lost: the run went on, or broke off, before a result
was recorded. Each call of a drain that runs alone keeps the books balanced.
-/

namespace RepoLink

open Effects Program KeyedTable

inductive Creation where
  | draft
  | converted
deriving DecidableEq, Repr

namespace Creation

def succeeds : Creation → (op : ProviderOp) → Except PortError op.Answer → Bool
  | .draft, .createDraftIssue .., .ok _ => true
  | .converted, .convertDraftToIssue .., .ok _ => true
  | _, _, _ => false

def shows (creation : Creation) (task : Task) : Bool :=
  match creation with
  | .draft => task.projectItemId.isSome
  | .converted => (task.remote.bind (·.nodeId)).isSome

/-- The call records what the entry created: written back to its task, or dead-lettered. -/
def records (creation : Creation) (entry : OutboxEntry) : (op : PortOp) → op.Answer → Bool
  | .store (.saveAll writes _), .ok _ =>
    writes.any fun write => write.task.id = entry.taskId && creation.shows write.task
  | .store (.markFailed id _), .ok _ => id = entry.id
  | _, _ => false

end Creation

/-- The entry claimed last, the one whose creation is not recorded yet, whether a store call failed
since, and all entries that created something or lost what they created. -/
structure Ledger where
  claimed : Option OutboxEntry
  owed : Option OutboxEntryId
  hindered : Bool
  created : List OutboxEntryId
  lost : List OutboxEntryId

namespace Ledger

def blank : Ledger := ⟨none, none, false, [], []⟩

def breakOff (ledger : Ledger) : Ledger :=
  { ledger with claimed := none, owed := none, lost := ledger.owed.toList ++ ledger.lost }

/-- Take up the next entry. Only a failed store call excuses a creation that is not recorded. -/
def turnTo (entry : OutboxEntry) (ledger : Ledger) : Ledger :=
  { ledger with
    claimed := some entry, owed := none
    lost := if ledger.hindered then ledger.owed.toList ++ ledger.lost else ledger.lost }

def create (ledger : Ledger) (entry : OutboxEntry) : Ledger :=
  { ledger with owed := some entry.id, hindered := false, created := entry.id :: ledger.created }

def hinder (ledger : Ledger) : Ledger := { ledger with hindered := true }

def record (ledger : Ledger) : Ledger := { ledger with owed := none }

def note (creation : Creation) (op : PortOp) (answer : op.Answer) (ledger : Ledger) : Ledger :=
  match op, answer with
  | .provider request, reply =>
    if creation.succeeds request reply then (ledger.claimed.map ledger.create).getD ledger
    else ledger
  | .store _, .error _ => ledger.hinder
  | op, answer =>
    match claimedBy ⟨op, answer⟩ with
    | some entry => ledger.turnTo entry
    | none =>
      if ledger.claimed.any fun entry => creation.records entry op answer then ledger.record
      else ledger

end Ledger

abbrev Chronicle := Database × Ledger

def chronicled (creation : Creation) : Semantics ports Chronicle := fun op before answer after =>
  portMeaning op before.1 answer after.1 ∧ after.2 = before.2.note creation op answer

/-- An entry that creates nothing any more: it is resolved for good, or the guard holds it back. -/
def Database.Settled (creation : Creation) (database : Database) (id : OutboxEntryId) : Prop :=
  ∃ entry, database.entry id = some entry ∧ (entry.status.isTerminal = true ∨
    ∃ task, database.stored entry.taskId = some task ∧ creation.shows task = true)

/-- An entry that can still create something has lost all its creations so far, or owes one. -/
structure Balanced (creation : Creation) (world : Chronicle) : Prop where
  bound : ∀ id, world.2.created.count id ≤ world.2.lost.count id + 1
  unsettled : ∀ id, ¬world.1.Settled creation id →
    world.2.created.count id = world.2.lost.count id + world.2.owed.toList.count id

def InHand (entry : OutboxEntry) (world : Chronicle) : Prop :=
  world.2.claimed = some entry ∧ (∀ id, world.2.owed = some id → id = entry.id) ∧
    ∃ stored, world.1.entry entry.id = some stored ∧ stored.taskId = entry.taskId ∧
      stored.status = .inflight

/-- The calls of a drain, each with what it owes to the books: a save keeps what the guard looks
for, and only an entry in hand is put back. -/
def PortOp.Careful (creation : Creation) (database : Database) : PortOp → Prop
  | .store (.saveAll writes _) => ∃ write, writes = [write] ∧
      ∀ task, database.stored write.task.id = some task → creation.shows task = true →
        creation.shows write.task = true
  | .store (.recordRetry id ..) => ∃ entry, database.entry id = some entry ∧
      entry.status = .inflight
  | .store (.deletePendingAddItems _) => False
  | _ => True

section Steps

variable {creation : Creation} {before after : Database} {op : PortOp} {answer : op.Answer}

theorem Creation.shows_load (creation : Creation) (record : TaskRecord) :
    creation.shows record.load = creation.shows record.row := by
  cases creation <;> rfl

theorem Creation.shows_write (creation : Creation) (instant : Timestamp) (source : SnapshotSource)
    (task : Task) (stored : Option TaskRecord) :
    creation.shows (TaskRecord.write instant source task stored).load = creation.shows task := by
  cases creation <;> cases stored <;> rfl

theorem Creation.shows_retouch (creation : Creation) (op : StoreOp) {record : TaskRecord}
    (shown : creation.shows record.load = true) :
    creation.shows (op.retouch record).load = true := by
  rw [creation.shows_load] at shown ⊢
  cases op with
  | cacheRemoteNodeId id nodeId =>
      cases creation with
      | draft => exact shown
      | converted =>
          change (record.row.remote.bind (·.nodeId)).isSome = true at shown
          change ((record.row.remote.map fun remote => { remote with nodeId := some nodeId }).bind
            (·.nodeId)).isSome = true
          cases remote : record.row.remote with
          | none => rw [remote] at shown; exact shown
          | some remote => rfl
  | markRemoteDirty id =>
      change creation.shows (Database.dirtiedRemotely record.row) = true
      unfold Database.dirtiedRemotely
      split <;> cases creation <;> exact shown
  | _ => cases creation <;> exact shown

theorem shows_kept (careful : op.Careful creation before)
    (performed : portMeaning op before answer after) {id : TaskId} {task : Task}
    (stored : before.stored id = some task) (shown : creation.shows task = true) :
    ∃ next, after.stored id = some next ∧ creation.shows next = true := by
  have unchanged : after = before → ∃ next, after.stored id = some next ∧
      creation.shows next = true := fun same => ⟨task, same ▸ stored, shown⟩
  cases op with
  | store op =>
      rcases performed with ⟨instant, performed⟩ | ⟨_, _, same⟩
      · obtain ⟨record, found, rfl⟩ := Option.map_eq_some_iff.mp stored
        rcases StoreOp.perform_record performed with ⟨writes, entries, rfl, saved⟩ | retouched
        · obtain ⟨write, rfl, keeps⟩ := careful
          have written := Database.saveAll_single saved id
          unfold Database.stored
          rw [written]
          split
          · rename_i same
            subst same
            exact ⟨_, rfl, (creation.shows_write ..).trans (keeps _ stored shown)⟩
          · rw [found]
            exact ⟨_, rfl, shown⟩
        · unfold Database.stored
          rw [retouched id, found]
          split
          · exact ⟨_, rfl, creation.shows_retouch op shown⟩
          · exact ⟨_, rfl, shown⟩
      · exact unchanged same
  | freshTaskId => exact unchanged performed.2
  | _ => exact unchanged performed

theorem entry_kept (careful : op.Careful creation before)
    (performed : portMeaning op before answer after) {id : OutboxEntryId} {entry : OutboxEntry} (found : before.entry id = some entry) :
    ∃ next, after.entry id = some next ∧ next.taskId = entry.taskId ∧
      (next = entry ∨ ∃ store, op = .store store ∧ EntryStep store entry next) := by
  have unchanged : after = before → ∃ next, after.entry id = some next ∧
      next.taskId = entry.taskId ∧
      (next = entry ∨ ∃ store, op = .store store ∧ EntryStep store entry next) :=
    fun same => ⟨entry, same ▸ found, rfl, .inl rfl⟩
  cases op with
  | store op =>
      rcases performed with ⟨instant, performed⟩ | ⟨_, _, same⟩
      · have keeps : ∀ taskId, op ≠ .deletePendingAddItems taskId := by
          rintro taskId rfl
          exact careful
        obtain ⟨next, still, sameTask, _, step⟩ := StoreOp.perform_entry performed keeps found
        exact ⟨next, still, sameTask, .inr ⟨op, rfl, step⟩⟩
      · exact unchanged same
  | freshTaskId => exact unchanged performed.2
  | _ => exact unchanged performed

theorem Database.Settled.kept (careful : op.Careful creation before)
    (performed : portMeaning op before answer after) {id : OutboxEntryId}
    (settled : before.Settled creation id) : after.Settled creation id := by
  obtain ⟨entry, found, ends⟩ := settled
  obtain ⟨next, still, sameTask, step⟩ := entry_kept careful performed found
  rcases ends with terminal | ⟨task, stored, shown⟩
  · refine ⟨next, still, .inl ?_⟩
    rcases step with rfl | ⟨store, rfl, step⟩
    · exact terminal
    · have notPending : entry.status ≠ .pending := fun pending => by
        rw [pending] at terminal; cases terminal
      have notInflight : entry.status ≠ .inflight := fun inflight => by
        rw [inflight] at terminal; cases terminal
      cases step with
      | same unchanged => exact unchanged ▸ terminal
      | claimed _ was _ => exact (notPending was).elim
      | requeued _ was _ => exact (notInflight was).elim
      | resolved names =>
          cases store with
          | markSucceeded target =>
              obtain ⟨_, statusEq⟩ := Prod.mk.inj (Option.some.inj names)
              rw [← statusEq]
              rfl
          | markFailed target error =>
              obtain ⟨_, statusEq⟩ := Prod.mk.inj (Option.some.inj names)
              rw [← statusEq]
              rfl
          | recordRetry target error nextAttemptAt =>
              obtain ⟨idEq, _⟩ := Prod.mk.inj (Option.some.inj names)
              obtain ⟨inHand, foundHand, inflight⟩ := careful
              rw [idEq, OutboxTable.entry_id found, found] at foundHand
              cases foundHand
              exact (notInflight inflight).elim
          | _ => cases names
  · obtain ⟨nextTask, nextStored, nextShown⟩ := shows_kept careful performed stored shown
    exact ⟨next, still, .inr ⟨nextTask, sameTask ▸ nextStored, nextShown⟩⟩

theorem Balanced.kept {ledger : Ledger} (careful : op.Careful creation before)
    (performed : portMeaning op before answer after)
    (balanced : Balanced creation (before, ledger)) : Balanced creation (after, ledger) where
  bound := balanced.bound
  unsettled id open_ := balanced.unsettled id fun settled => open_ (settled.kept careful performed)

theorem InHand.kept {entry : OutboxEntry} {ledger : Ledger} (careful : op.Careful creation before)
    (unresolved : ∀ store, op = .store store → store.resolves = none ∧
      store ≠ .requeueOrphanedInflight)
    (performed : portMeaning op before answer after) (inHand : InHand entry (before, ledger)) :
    InHand entry (after, ledger) := by
  obtain ⟨claimed, owes, stored, found, sameTask, inflight⟩ := inHand
  obtain ⟨next, still, nextTask, step⟩ := entry_kept careful performed found
  refine ⟨claimed, owes, next, still, nextTask.trans sameTask, ?_⟩
  rcases step with rfl | ⟨store, rfl, step⟩
  · exact inflight
  · obtain ⟨notResolved, notRequeue⟩ := unresolved store rfl
    cases step with
    | same unchanged => exact unchanged ▸ inflight
    | claimed _ was _ => rw [inflight] at was; cases was
    | requeued requeues _ _ => exact (notRequeue requeues).elim
    | resolved names => rw [notResolved] at names; cases names

end Steps

section Books

variable {creation : Creation} {database : Database} {ledger : Ledger}

theorem Balanced.blank : Balanced creation (database, .blank) where
  bound _ := Nat.zero_le _
  unsettled _ _ := rfl

theorem Balanced.hinder (balanced : Balanced creation (database, ledger)) :
    Balanced creation (database, ledger.hinder) := ⟨balanced.bound, balanced.unsettled⟩

theorem Balanced.breakOff (balanced : Balanced creation (database, ledger)) :
    Balanced creation (database, ledger.breakOff) where
  bound id := by
    have bound : ledger.created.count id ≤ ledger.lost.count id + 1 := balanced.bound id
    change ledger.created.count id ≤ (ledger.owed.toList ++ ledger.lost).count id + 1
    rw [List.count_append]
    omega
  unsettled id open_ := by
    have even : ledger.created.count id = ledger.lost.count id + ledger.owed.toList.count id :=
      balanced.unsettled id open_
    change ledger.created.count id = (ledger.owed.toList ++ ledger.lost).count id + 0
    rw [List.count_append]
    omega

def Ledger.Cleared (ledger : Ledger) : Prop := ledger.owed = none ∨ ledger.hindered = true

theorem Balanced.turnTo {entry : OutboxEntry} (balanced : Balanced creation (database, ledger))
    (cleared : ledger.Cleared) : Balanced creation (database, ledger.turnTo entry) := by
  have lostEq : (ledger.turnTo entry).lost = ledger.owed.toList ++ ledger.lost := by
    unfold Ledger.turnTo
    rcases cleared with none | hindered
    · simp [none]
    · simp [hindered]
  have broken := balanced.breakOff
  constructor
  · intro id
    rw [lostEq]
    exact broken.bound id
  · intro id open_
    rw [lostEq]
    exact broken.unsettled id open_

theorem Balanced.create {entry : OutboxEntry} (balanced : Balanced creation (database, ledger))
    (nothingOwed : ledger.owed = none) (open_ : ¬database.Settled creation entry.id) :
    Balanced creation (database, ledger.create entry) := by
  have even : ∀ id, ¬database.Settled creation id →
      ledger.created.count id = ledger.lost.count id := by
    intro id stillOpen
    have even := balanced.unsettled id stillOpen
    rw [nothingOwed] at even
    exact even
  constructor
  · intro id
    change (entry.id :: ledger.created).count id ≤ ledger.lost.count id + 1
    by_cases same : entry.id = id
    · subst same
      rw [List.count_cons_self, even _ open_]
    · rw [List.count_cons_of_ne same]
      exact balanced.bound id
  · intro id stillOpen
    change (entry.id :: ledger.created).count id = ledger.lost.count id + [entry.id].count id
    rw [List.count_cons, List.count_singleton, even id stillOpen]

theorem Balanced.record (balanced : Balanced creation (database, ledger))
    (settled : ∀ id, ledger.owed = some id → database.Settled creation id) :
    Balanced creation (database, ledger.record) where
  bound := balanced.bound
  unsettled id open_ := by
    have even := balanced.unsettled id open_
    have notOwed : ledger.owed.toList.count id = 0 := by
      refine List.count_eq_zero.mpr fun member => ?_
      exact open_ (settled id (Option.mem_toList.mp member))
    rw [notOwed] at even
    exact even

end Books

end RepoLink
