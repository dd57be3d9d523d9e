import Mathlib.Data.List.Sort
import RepoLink.Domain.Outbox
import RepoLink.Library.Table

/-!
The `outbox_entries` table and the statements of `SqliteOutboxRepository` over it.

`rowid` is SQLite's implicit row number: one more than the largest stored number at insertion.
Both the primary key and the row numbers stay pairwise distinct, so the table carries both.
-/

namespace RepoLink

open KeyedTable

structure OutboxRow where
  rowid : Nat
  entry : OutboxEntry
deriving DecidableEq, Repr

def OutboxRow.id (row : OutboxRow) : OutboxEntryId := row.entry.id

structure OutboxTable where
  table : Table OutboxRow.id
  rowids : (table.rows.map OutboxRow.rowid).Nodup

namespace OutboxTable

def rows (outbox : OutboxTable) : List OutboxRow := outbox.table.rows

def empty : OutboxTable := ⟨.empty, List.nodup_nil⟩

def nextRowid (outbox : OutboxTable) : Nat :=
  (outbox.rows.map OutboxRow.rowid).foldr max 0 + 1

theorem rowid_lt_nextRowid {outbox : OutboxTable} {row : OutboxRow} (member : row ∈ outbox.rows) :
    row.rowid < outbox.nextRowid :=
  Nat.lt_succ_of_le (le_foldr_max _ _ (List.mem_map_of_mem member))

def mapEntries (change : OutboxEntry → OutboxEntry)
    (keeps : ∀ entry, (change entry).id = entry.id) (outbox : OutboxTable) : OutboxTable where
  table := outbox.table.mapRows (fun row => { row with entry := change row.entry })
    fun row => keeps row.entry
  rowids := by
    simp only [Table.mapRows, List.map_map]
    exact outbox.rowids

def updateEntry (id : OutboxEntryId) (change : OutboxEntry → OutboxEntry)
    (keeps : ∀ entry, (change entry).id = entry.id) (outbox : OutboxTable) : OutboxTable :=
  outbox.mapEntries (fun entry => if entry.id = id then change entry else entry) fun entry => by
    split
    · exact keeps entry
    · rfl

def deleteWhere (drop : OutboxEntry → Bool) (outbox : OutboxTable) : OutboxTable where
  table := outbox.table.filter fun row => !drop row.entry
  rowids := (List.Sublist.map _ List.filter_sublist).nodup outbox.rowids

theorem nextRowid_fresh (outbox : OutboxTable) (entry : OutboxEntry) :
    ((outbox.rows ++ [OutboxRow.mk outbox.nextRowid entry]).map OutboxRow.rowid).Nodup := by
  rw [List.map_append, List.map_singleton, List.nodup_append]
  refine ⟨outbox.rowids, List.nodup_singleton _, ?_⟩
  intro rowid member added addedEq same
  rw [List.mem_singleton] at addedEq
  obtain ⟨row, rowMember, rowidEq⟩ := List.mem_map.mp member
  have below : row.rowid < outbox.nextRowid := rowid_lt_nextRowid rowMember
  rw [rowidEq, same, addedEq] at below
  exact Nat.lt_irrefl _ below

/-- The `INSERT` itself: the primary key rejects an id that is already stored. -/
def insertRow (entry : OutboxEntry) (outbox : OutboxTable) : Except PortError OutboxTable :=
  if stored : entry.id ∈ outbox.rows.map OutboxRow.id then
    .error (.conflict (some "outbox_entries.id") "UNIQUE constraint failed: outbox_entries.id")
  else .ok
    { table := outbox.table.append ⟨outbox.nextRowid, entry⟩ stored
      rowids := outbox.nextRowid_fresh entry }

/-- The dedupe guard of `insert_outbox_in_tx`, which only the two Type rails have. -/
def suppressed (entry : OutboxEntry) (outbox : OutboxTable) : Bool :=
  (entry.mutation.kind == "set_issue_type" || entry.mutation.kind == "set_project_type") &&
    outbox.rows.any fun row =>
      row.entry.taskId = entry.taskId && row.entry.mutation.kind = entry.mutation.kind &&
        (row.entry.status = .pending || row.entry.status = .inflight ||
          (row.entry.status = .failed && row.entry.mutation = entry.mutation))

def insertOutboxInTx (entry : OutboxEntry) (outbox : OutboxTable) : Except PortError OutboxTable :=
  if outbox.suppressed entry then .ok outbox else outbox.insertRow entry

def enqueue (entry : OutboxEntry) (outbox : OutboxTable) : Except PortError OutboxTable :=
  outbox.insertOutboxInTx entry

/-- The guard of `enqueue_if_absent`: any row of the task that is not `Succeeded`. -/
def blocksReconcile (taskId : TaskId) (outbox : OutboxTable) : Bool :=
  outbox.rows.any fun row =>
    row.entry.taskId = taskId && (row.entry.status = .pending || row.entry.status = .inflight ||
      row.entry.status = .failed)

def enqueueIfAbsent (entry : OutboxEntry) (outbox : OutboxTable) :
    Except PortError (Bool × OutboxTable) :=
  if outbox.blocksReconcile entry.taskId then .ok (false, outbox)
  else (outbox.insertRow entry).map fun inserted => (true, inserted)

/-- The `(enqueued_at, rowid)` order of one task's rows. -/
def precedes (left right : OutboxRow) : Bool :=
  left.entry.enqueuedAt < right.entry.enqueuedAt ||
    (left.entry.enqueuedAt = right.entry.enqueuedAt && left.rowid < right.rowid)

def due (now : Timestamp) (entry : OutboxEntry) : Bool :=
  match entry.nextAttemptAt with
  | none => true
  | some instant => instant ≤ now

/-- The correlated subquery: `sibling` keeps `candidate` from being claimed. -/
def holdsBack (candidate sibling : OutboxRow) : Bool :=
  sibling.entry.taskId = candidate.entry.taskId &&
    (sibling.entry.status = .inflight ||
      (sibling.entry.status = .pending && precedes sibling candidate))

def eligible (now : Timestamp) (outbox : OutboxTable) (row : OutboxRow) : Bool :=
  row.entry.status = .pending && due now row.entry && !outbox.rows.any (holdsBack row)

def nextEligible (now : Timestamp) (outbox : OutboxTable) : Option OutboxRow :=
  firstBy precedes (outbox.rows.filter (eligible now outbox))

/-- The flip to `inflight` reads the clock a second time. -/
def claimNextEligible (now flipAt : Timestamp) (outbox : OutboxTable) :
    Option OutboxEntry × OutboxTable :=
  match outbox.nextEligible now with
  | none => (none, outbox)
  | some row =>
    (some { row.entry with status := .inflight, updatedAt := flipAt },
      outbox.updateEntry row.entry.id
        (fun entry => { entry with status := .inflight, updatedAt := flipAt }) fun _ => rfl)

def markSucceeded (now : Timestamp) (id : OutboxEntryId) (outbox : OutboxTable) : OutboxTable :=
  outbox.updateEntry id
    (fun entry => { entry with status := .succeeded, lastError := none, updatedAt := now })
    fun _ => rfl

def markFailed (now : Timestamp) (id : OutboxEntryId) (error : String) (outbox : OutboxTable) :
    OutboxTable :=
  outbox.updateEntry id
    (fun entry => { entry with
      status := .failed, lastError := some error, attempts := entry.attempts + 1
      updatedAt := now })
    fun _ => rfl

def recordRetry (now : Timestamp) (id : OutboxEntryId) (error : String)
    (nextAttemptAt : Timestamp) (outbox : OutboxTable) : OutboxTable :=
  outbox.updateEntry id
    (fun entry => { entry with
      status := .pending, lastError := some error, attempts := entry.attempts + 1
      nextAttemptAt := some nextAttemptAt, updatedAt := now })
    fun _ => rfl

def requeueOrphanedInflight (now : Timestamp) (outbox : OutboxTable) : Nat × OutboxTable :=
  ((outbox.rows.filter fun row => row.entry.status = .inflight).length,
    outbox.mapEntries
      (fun entry =>
        if entry.status = .inflight then
          { entry with status := .pending, nextAttemptAt := none, updatedAt := now }
        else entry)
      fun entry => by split <;> rfl)

def listPending (taskId : TaskId) (outbox : OutboxTable) : List OutboxEntry :=
  ((outbox.rows.filter fun row =>
    row.entry.taskId = taskId && row.entry.status = .pending).map OutboxRow.entry).insertionSort
      fun left right => left.enqueuedAt ≤ right.enqueuedAt

def deletePendingAddItems (taskId : TaskId) (outbox : OutboxTable) : Nat × OutboxTable :=
  let drop (entry : OutboxEntry) : Bool :=
    entry.taskId = taskId && entry.status = .pending && entry.mutation.kind = "add_item"
  ((outbox.rows.filter fun row => drop row.entry).length, outbox.deleteWhere drop)

def deleteTask (taskId : TaskId) (outbox : OutboxTable) : OutboxTable :=
  outbox.deleteWhere fun entry => entry.taskId = taskId

end OutboxTable

end RepoLink
