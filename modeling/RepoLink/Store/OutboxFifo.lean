import Mathlib.Data.List.Induction
import RepoLink.Store.OutboxTable

/-!
The queue discipline of the outbox: one inflight entry per task, per-task claim order, and no
blocking between tasks, over every sequence of statements that drainers and enqueuers issue.
-/

namespace RepoLink

open KeyedTable

namespace OutboxTable

def Serial (outbox : OutboxTable) : Prop :=
  ∀ left ∈ outbox.rows, ∀ right ∈ outbox.rows, left.entry.taskId = right.entry.taskId →
    left.entry.status = .inflight → right.entry.status = .inflight → left = right

def Idle (outbox : OutboxTable) (taskId : TaskId) : Prop :=
  ∀ row ∈ outbox.rows, row.entry.taskId = taskId → row.entry.status ≠ .inflight

instance (outbox : OutboxTable) : Decidable outbox.Serial :=
  inferInstanceAs (Decidable (∀ left ∈ outbox.rows, ∀ right ∈ outbox.rows, _))

instance (outbox : OutboxTable) (taskId : TaskId) : Decidable (outbox.Idle taskId) :=
  inferInstanceAs (Decidable (∀ row ∈ outbox.rows, _))

structure FirstPending (outbox : OutboxTable) (row : OutboxRow) : Prop where
  member : row ∈ outbox.rows
  pending : row.entry.status = .pending
  first : ∀ other ∈ outbox.rows, other.entry.taskId = row.entry.taskId →
    other.entry.status = .pending → precedes other row = false

@[simp] theorem rows_empty : empty.rows = [] := rfl

theorem row_unique {outbox : OutboxTable} {left right : OutboxRow} (leftMember : left ∈ outbox.rows)
    (rightMember : right ∈ outbox.rows) (idEq : left.entry.id = right.entry.id) : left = right :=
  Table.row_unique leftMember rightMember idEq

theorem mem_updateEntry {id : OutboxEntryId} {change : OutboxEntry → OutboxEntry}
    {keeps : ∀ entry, (change entry).id = entry.id} {outbox : OutboxTable} {row : OutboxRow}
    (member : row ∈ (outbox.updateEntry id change keeps).rows) :
    ∃ stored ∈ outbox.rows, row = { stored with
      entry := if stored.entry.id = id then change stored.entry else stored.entry } := by
  obtain ⟨stored, storedMember, rowEq⟩ := List.mem_map.mp member
  exact ⟨stored, storedMember, rowEq.symm⟩

theorem updateEntry_mem {id : OutboxEntryId} {change : OutboxEntry → OutboxEntry}
    {keeps : ∀ entry, (change entry).id = entry.id} {outbox : OutboxTable} {row : OutboxRow}
    (member : row ∈ outbox.rows) (target : row.entry.id = id) :
    { row with entry := change row.entry } ∈ (outbox.updateEntry id change keeps).rows :=
  List.mem_map.mpr ⟨row, member, by simp only [target, if_true]⟩

theorem insertRow_rows {entry : OutboxEntry} {outbox inserted : OutboxTable}
    (done : outbox.insertRow entry = .ok inserted) :
    inserted.rows = outbox.rows ++ [⟨outbox.nextRowid, entry⟩] := by
  unfold insertRow at done
  split at done
  · cases done
  · cases done
    rfl

theorem nextEligible_some {now : Timestamp} {outbox : OutboxTable} {row : OutboxRow}
    (found : outbox.nextEligible now = some row) :
    row ∈ outbox.rows ∧ eligible now outbox row = true := by
  exact List.mem_filter.mp (firstBy_mem found)

theorem eligible_pending {now : Timestamp} {outbox : OutboxTable} {row : OutboxRow}
    (ready : eligible now outbox row = true) : row.entry.status = .pending := by
  simp only [eligible, Bool.and_eq_true, decide_eq_true_eq] at ready
  exact ready.1.1

theorem eligible_sibling {now : Timestamp} {outbox : OutboxTable} {row sibling : OutboxRow}
    (ready : eligible now outbox row = true) (member : sibling ∈ outbox.rows)
    (sameTask : sibling.entry.taskId = row.entry.taskId) :
    sibling.entry.status ≠ .inflight ∧
      (sibling.entry.status = .pending → precedes sibling row = false) := by
  simp only [eligible, Bool.and_eq_true, Bool.not_eq_true', List.any_eq_false] at ready
  have free := ready.2 sibling member
  simp only [holdsBack, sameTask, decide_true, Bool.true_and, Bool.or_eq_true, Bool.and_eq_true,
    decide_eq_true_eq, not_or, not_and, Bool.not_eq_true] at free
  exact free

theorem firstPending_eligible {now : Timestamp} {outbox : OutboxTable} {row : OutboxRow}
    (head : FirstPending outbox row) (idle : Idle outbox row.entry.taskId)
    (ready : due now row.entry = true) : eligible now outbox row = true := by
  simp only [eligible, head.pending, ready, decide_true, Bool.and_true, Bool.true_and,
    Bool.not_eq_true', List.any_eq_false]
  intro sibling member held
  simp only [holdsBack, Bool.and_eq_true, Bool.or_eq_true, decide_eq_true_eq] at held
  obtain ⟨sameTask, active | ⟨pending, earlier⟩⟩ := held
  · exact idle sibling member sameTask active
  · rw [head.first sibling member sameTask pending] at earlier
    cases earlier

theorem nextEligible_isSome {now : Timestamp} {outbox : OutboxTable} {row : OutboxRow}
    (member : row ∈ outbox.rows) (ready : eligible now outbox row = true) :
    (outbox.nextEligible now).isSome = true := by
  have kept : row ∈ outbox.rows.filter (eligible now outbox) :=
    List.mem_filter.mpr ⟨member, ready⟩
  exact firstBy_isSome kept

theorem claimNextEligible_some {now flipAt : Timestamp} {outbox claimed : OutboxTable}
    {entry : OutboxEntry} (done : outbox.claimNextEligible now flipAt = (some entry, claimed)) :
    ∃ row, outbox.nextEligible now = some row ∧
      entry = { row.entry with status := .inflight, updatedAt := flipAt } ∧
      claimed = outbox.updateEntry row.entry.id
        (fun entry => { entry with status := .inflight, updatedAt := flipAt }) fun _ => rfl := by
  unfold claimNextEligible at done
  split at done
  · cases done
  · rename_i row found
    simp only [Prod.mk.injEq, Option.some.injEq] at done
    exact ⟨row, found, done.1.symm, done.2.symm⟩

theorem Serial.of_origin {before after : OutboxTable} (serial : Serial before)
    (origin : ∀ row ∈ after.rows, row.entry.status = .inflight → ∃ stored ∈ before.rows,
      stored.entry.status = .inflight ∧ stored.entry.id = row.entry.id ∧
        stored.entry.taskId = row.entry.taskId) : Serial after := by
  intro left leftMember right rightMember sameTask leftActive rightActive
  obtain ⟨leftStored, leftBefore, leftWas, leftId, leftTask⟩ := origin left leftMember leftActive
  obtain ⟨rightStored, rightBefore, rightWas, rightId, rightTask⟩ :=
    origin right rightMember rightActive
  have same : leftStored = rightStored :=
    serial leftStored leftBefore rightStored rightBefore
      (leftTask.trans (sameTask.trans rightTask.symm)) leftWas rightWas
  apply row_unique leftMember rightMember
  rw [← leftId, ← rightId, same]

theorem Serial.empty : Serial OutboxTable.empty := by
  intro left leftMember
  cases leftMember

theorem Serial.insertRow {entry : OutboxEntry} {outbox inserted : OutboxTable}
    (serial : Serial outbox) (pending : entry.status = .pending)
    (done : outbox.insertRow entry = .ok inserted) : Serial inserted := by
  apply serial.of_origin
  intro row member active
  rw [insertRow_rows done, List.mem_append, List.mem_singleton] at member
  rcases member with stored | rfl
  · exact ⟨row, stored, active, rfl, rfl⟩
  · rw [pending] at active
    cases active

theorem Serial.insertOutboxInTx {entry : OutboxEntry} {outbox inserted : OutboxTable}
    (serial : Serial outbox) (pending : entry.status = .pending)
    (done : outbox.insertOutboxInTx entry = .ok inserted) : Serial inserted := by
  unfold OutboxTable.insertOutboxInTx at done
  split at done
  · cases done
    exact serial
  · exact serial.insertRow pending done

theorem Serial.enqueueIfAbsent {entry : OutboxEntry} {outbox inserted : OutboxTable}
    {stored : Bool} (serial : Serial outbox) (pending : entry.status = .pending)
    (done : outbox.enqueueIfAbsent entry = .ok (stored, inserted)) : Serial inserted := by
  unfold OutboxTable.enqueueIfAbsent at done
  split at done
  · cases done
    exact serial
  · cases insertion : outbox.insertRow entry with
    | error error =>
        rw [insertion] at done
        cases done
    | ok result =>
        rw [insertion] at done
        cases done
        exact serial.insertRow pending insertion

theorem Serial.updateEntry {id : OutboxEntryId} {change : OutboxEntry → OutboxEntry}
    {keeps : ∀ entry, (change entry).id = entry.id} {outbox : OutboxTable}
    (serial : Serial outbox) (settled : ∀ entry, (change entry).status ≠ .inflight) :
    Serial (outbox.updateEntry id change keeps) := by
  apply serial.of_origin
  intro row member active
  obtain ⟨stored, storedMember, rfl⟩ := mem_updateEntry member
  by_cases target : stored.entry.id = id
  · simp only [target, if_true] at active
    exact absurd active (settled _)
  · simp only [target, if_false] at active ⊢
    exact ⟨stored, storedMember, active, rfl, rfl⟩

theorem Serial.requeueOrphanedInflight (now : Timestamp) {outbox : OutboxTable} :
    Serial (outbox.requeueOrphanedInflight now).2 := by
  intro left leftMember right rightMember sameTask leftActive
  obtain ⟨stored, storedMember, rfl⟩ := List.mem_map.mp leftMember
  dsimp only at leftActive
  split at leftActive
  · cases leftActive
  · rename_i settled
    exact absurd leftActive settled

theorem Serial.deleteWhere {drop : OutboxEntry → Bool} {outbox : OutboxTable}
    (serial : Serial outbox) : Serial (outbox.deleteWhere drop) := by
  intro left leftMember right rightMember
  exact serial left (List.mem_filter.mp leftMember).1 right (List.mem_filter.mp rightMember).1

theorem Serial.claimNextEligible (now flipAt : Timestamp) {outbox : OutboxTable}
    (serial : Serial outbox) : Serial (outbox.claimNextEligible now flipAt).2 := by
  unfold OutboxTable.claimNextEligible
  split
  · exact serial
  · rename_i claimed found
    obtain ⟨claimedMember, ready⟩ := nextEligible_some found
    have alone : ∀ stored ∈ outbox.rows, stored.entry.taskId = claimed.entry.taskId →
        stored.entry.status ≠ .inflight := fun stored member sameTask =>
      (eligible_sibling ready member sameTask).1
    intro left leftMember right rightMember sameTask leftActive rightActive
    obtain ⟨leftStored, leftBefore, rfl⟩ := mem_updateEntry leftMember
    obtain ⟨rightStored, rightBefore, rfl⟩ := mem_updateEntry rightMember
    by_cases leftClaimed : leftStored.entry.id = claimed.entry.id <;>
      by_cases rightClaimed : rightStored.entry.id = claimed.entry.id
    · have same : leftStored = rightStored :=
        row_unique leftBefore rightBefore (leftClaimed.trans rightClaimed.symm)
      rw [same]
    · have leftEq : leftStored = claimed := row_unique leftBefore claimedMember leftClaimed
      subst leftEq
      simp only [rightClaimed, if_true, if_false] at sameTask rightActive
      exact absurd rightActive (alone rightStored rightBefore sameTask.symm)
    · have rightEq : rightStored = claimed := row_unique rightBefore claimedMember rightClaimed
      subst rightEq
      simp only [leftClaimed, if_true, if_false] at sameTask leftActive
      exact absurd leftActive (alone leftStored leftBefore sameTask)
    · simp only [leftClaimed, rightClaimed, if_false] at sameTask leftActive rightActive ⊢
      rw [serial leftStored leftBefore rightStored rightBefore sameTask leftActive rightActive]

end OutboxTable

/-- What is enqueued is `Pending`, under any id and any timestamps. -/
abbrev PendingEntry := { entry : OutboxEntry // entry.status = .pending }

/-- One statement of any drainer, service or startup routine over the outbox. -/
inductive OutboxOp where
  | enqueue (entry : PendingEntry)
  | enqueueIfAbsent (entry : PendingEntry)
  | claimNextEligible (now flipAt : Timestamp)
  | markSucceeded (now : Timestamp) (id : OutboxEntryId)
  | markFailed (now : Timestamp) (id : OutboxEntryId) (error : String)
  | recordRetry (now : Timestamp) (id : OutboxEntryId) (error : String) (nextAttemptAt : Timestamp)
  | requeueOrphanedInflight (now : Timestamp)
  | deletePendingAddItems (taskId : TaskId)
  | deleteTask (taskId : TaskId)

namespace OutboxOp

def apply (outbox : OutboxTable) : OutboxOp → OutboxTable
  | .enqueue entry => (outbox.enqueue entry.1).toOption.getD outbox
  | .enqueueIfAbsent entry => ((outbox.enqueueIfAbsent entry.1).toOption.map Prod.snd).getD outbox
  | .claimNextEligible now flipAt => (outbox.claimNextEligible now flipAt).2
  | .markSucceeded now id => outbox.markSucceeded now id
  | .markFailed now id error => outbox.markFailed now id error
  | .recordRetry now id error nextAttemptAt => outbox.recordRetry now id error nextAttemptAt
  | .requeueOrphanedInflight now => (outbox.requeueOrphanedInflight now).2
  | .deletePendingAddItems taskId => (outbox.deletePendingAddItems taskId).2
  | .deleteTask taskId => outbox.deleteTask taskId

def run (ops : List OutboxOp) : OutboxTable := ops.foldl apply .empty

theorem apply_serial {outbox : OutboxTable} (serial : outbox.Serial) (op : OutboxOp) :
    (op.apply outbox).Serial := by
  cases op with
  | enqueue entry =>
      simp only [apply]
      cases done : outbox.enqueue entry.1 with
      | error _ => exact serial
      | ok inserted => exact serial.insertOutboxInTx entry.2 done
  | enqueueIfAbsent entry =>
      simp only [apply]
      cases done : outbox.enqueueIfAbsent entry.1 with
      | error _ => exact serial
      | ok result =>
          obtain ⟨stored, inserted⟩ := result
          exact serial.enqueueIfAbsent entry.2 done
  | claimNextEligible now flipAt => exact serial.claimNextEligible now flipAt
  | markSucceeded now id => exact serial.updateEntry fun _ settled => by cases settled
  | markFailed now id error => exact serial.updateEntry fun _ settled => by cases settled
  | recordRetry now id error nextAttemptAt =>
      exact serial.updateEntry fun _ settled => by cases settled
  | requeueOrphanedInflight now =>
      exact OutboxTable.Serial.requeueOrphanedInflight now
  | deletePendingAddItems taskId => exact serial.deleteWhere
  | deleteTask taskId => exact serial.deleteWhere

theorem run_serial (ops : List OutboxOp) : (run ops).Serial :=
  List.foldlRecOn ops apply OutboxTable.Serial.empty fun _ serial op _ => apply_serial serial op

end OutboxOp

/-- After any statements: one inflight entry per task, claims in `(enqueued_at, rowid)` order that
leave the row inflight in the table, and a due head of an idle task makes the claim return an
entry whatever the other tasks hold. -/
theorem outbox_run_fifo (ops : List OutboxOp) :
    (OutboxOp.run ops).Serial ∧
    (∀ now flipAt entry claimed,
      (OutboxOp.run ops).claimNextEligible now flipAt = (some entry, claimed) →
        ∃ row ∈ (OutboxOp.run ops).rows,
          entry = { row.entry with status := .inflight, updatedAt := flipAt } ∧
          { row with entry } ∈ claimed.rows ∧
          ∀ other ∈ (OutboxOp.run ops).rows, other.entry.taskId = entry.taskId →
            OutboxTable.precedes other row = true → other.entry.status.isTerminal = true) ∧
    (∀ now flipAt head, (OutboxOp.run ops).FirstPending head →
      (OutboxOp.run ops).Idle head.entry.taskId → OutboxTable.due now head.entry = true →
        ((OutboxOp.run ops).claimNextEligible now flipAt).1.isSome = true) := by
  refine ⟨OutboxOp.run_serial ops, ?_, ?_⟩
  · intro now flipAt entry claimed done
    obtain ⟨row, found, rfl, rfl⟩ := OutboxTable.claimNextEligible_some done
    obtain ⟨member, ready⟩ := OutboxTable.nextEligible_some found
    refine ⟨row, member, rfl, OutboxTable.updateEntry_mem member rfl, ?_⟩
    intro other otherMember sameTask earlier
    obtain ⟨active, queued⟩ := OutboxTable.eligible_sibling ready otherMember sameTask
    cases status : other.entry.status with
    | pending =>
        rw [queued status] at earlier
        cases earlier
    | inflight => exact absurd status active
    | succeeded => rfl
    | failed => rfl
  · intro now flipAt head first idle ready
    have eligible := OutboxTable.firstPending_eligible first idle ready
    have found := OutboxTable.nextEligible_isSome first.member eligible
    obtain ⟨row, foundEq⟩ := Option.isSome_iff_exists.mp found
    simp only [OutboxTable.claimNextEligible, foundEq, Option.isSome_some]

def backedOffHead : List OutboxOp :=
  let entry (id task : Nat) (enqueuedAt : Int) : PendingEntry :=
    ⟨OutboxEntry.new ⟨enqueuedAt⟩ ⟨id⟩ ⟨task⟩ (.addItem "PVT_1" "I_1"), rfl⟩
  [.enqueue (entry 1 1 10), .enqueue (entry 2 1 10), .claimNextEligible ⟨20⟩ ⟨20⟩,
    .recordRetry ⟨30⟩ ⟨1⟩ "network failure" ⟨900⟩, .enqueue (entry 3 2 40)]

theorem outbox_run_fifo_backedOffHead :
    ((OutboxOp.run backedOffHead).claimNextEligible ⟨50⟩ ⟨50⟩).1.isSome = true ∧
      ∀ entry claimed,
        (OutboxOp.run backedOffHead).claimNextEligible ⟨50⟩ ⟨50⟩ = (some entry, claimed) →
          entry.id = ⟨3⟩ := by
  refine ⟨(outbox_run_fifo backedOffHead).2.2 ⟨50⟩ ⟨50⟩
    ⟨3, OutboxEntry.new ⟨40⟩ ⟨3⟩ ⟨2⟩ (.addItem "PVT_1" "I_1")⟩
    ⟨by decide, by decide, by decide⟩ (by decide) (by decide), ?_⟩
  intro entry claimed done
  obtain ⟨row, found, rfl, _⟩ := OutboxTable.claimNextEligible_some done
  have third : ∀ row, (OutboxOp.run backedOffHead).nextEligible ⟨50⟩ = some row →
      row.entry.id = ⟨3⟩ := by decide
  exact third row found

end RepoLink
