import RepoLink.Domain.Hash
import RepoLink.Library.Program
import RepoLink.RepoBindings.Naming
import RepoLink.RepoBindings.Origins

/-!
The passes of `migrate.rs` that `open_db` makes behind the migrations: rows from before names,
prefixes and hashes get one each. An empty text stands for one that is not set.
-/

namespace RepoLink

open KeyedTable Effects

namespace Backfill

/-- `sqlx::Error`, as far as `is_unique_violation` tells. -/
inductive SqlxError where
  | uniqueViolation
  | other (message : String)
deriving DecidableEq, Repr

structure HashRow where
  id : TaskId
  hash : String
deriving DecidableEq, Repr

structure HashBook where
  table : Table (fun row : HashRow => row.id)
  distinct : ∀ left ∈ table.rows, ∀ right ∈ table.rows,
    left.hash = right.hash → left.hash ≠ "" → left = right

structure LegacyStore where
  origins : OriginBook
  tasks : HashBook

/-- `UPDATE repo_origins SET .. WHERE id = ? AND .. = ''`. -/
def fillOrigin (id : RepoOriginId) (unset : OriginRow → Bool) (change : OriginRow → OriginRow)
    (book : OriginBook) : Except SqlxError OriginBook :=
  match book.table.find id with
  | none => .ok book
  | some row =>
    if unset row then (book.saveOrigin (change row)).mapError fun _ => .uniqueViolation else .ok book

def HashBook.Taken (id : TaskId) (hash : String) (book : HashBook) : Prop :=
  ∃ other ∈ book.table.rows, other.id ≠ id ∧ other.hash = hash ∧ hash ≠ ""

instance (id : TaskId) (hash : String) (book : HashBook) : Decidable (book.Taken id hash) :=
  inferInstanceAs (Decidable (∃ other ∈ book.table.rows, _))

def HashRow.filled (id : TaskId) (hash : String) (row : HashRow) : HashRow :=
  if row.id = id ∧ row.hash = "" then { row with hash } else row

theorem HashRow.filled_id (id : TaskId) (hash : String) (row : HashRow) :
    (row.filled id hash).id = row.id := by
  unfold filled
  split <;> rfl

theorem HashBook.filled_apart {book : HashBook} {id : TaskId} {hash : String}
    (free : ¬book.Taken id hash) {left right : HashRow} (inLeft : left ∈ book.table.rows)
    (inRight : right ∈ book.table.rows)
    (same : (left.filled id hash).hash = (right.filled id hash).hash)
    (set : (left.filled id hash).hash ≠ "") : left = right := by
  have taken : ∀ one ∈ book.table.rows, ∀ other ∈ book.table.rows, one.id = id ∧ one.hash = "" →
      ¬(other.id = id ∧ other.hash = "") → hash = other.hash → hash ≠ "" → False := by
    rintro one inOne other inOther ⟨isRow, unset⟩ notRow sameHash filled
    refine free ⟨other, inOther, fun sameId => notRow ⟨sameId, ?_⟩, sameHash.symm, filled⟩
    rw [← Table.row_unique inOne inOther (isRow.trans sameId.symm), unset]
  unfold HashRow.filled at same set
  split at same
  · rename_i leftRow
    rw [if_pos leftRow] at set
    split at same
    · rename_i rightRow
      exact Table.row_unique inLeft inRight (leftRow.1.trans rightRow.1.symm)
    · rename_i rightKept
      exact (taken left inLeft right inRight leftRow rightKept same set).elim
  · rename_i leftKept
    rw [if_neg leftKept] at set
    split at same
    · rename_i rightRow
      exact (taken right inRight left inLeft rightRow leftKept same.symm
        fun empty => set (same.trans empty)).elim
    · exact book.distinct left inLeft right inRight same set

/-- `UPDATE tasks SET hash = ? WHERE id = ? AND hash = ''`. -/
def fillHash (id : TaskId) (hash : String) (book : HashBook) : Except SqlxError HashBook :=
  if (book.table.find id).any (fun row => row.hash = "") = true then
    if taken : book.Taken id hash then .error .uniqueViolation
    else
      .ok {
        table := book.table.mapRows (HashRow.filled id hash) (HashRow.filled_id id hash)
        distinct := by
          intro left inLeft right inRight same set
          obtain ⟨one, inOne, rfl⟩ := List.mem_map.mp inLeft
          obtain ⟨other, inOther, rfl⟩ := List.mem_map.mp inRight
          rw [HashBook.filled_apart taken inOne inOther same set] }
  else .ok book

inductive BackfillQuery where
  | unnamedOrigins
  | setName (id : RepoOriginId) (name : String)
  | unprefixedOrigins
  | setPrefix (id : RepoOriginId) (text : String)
  | unhashedTasks
  | setHash (id : TaskId) (hash : String)

namespace BackfillQuery

abbrev Answer : BackfillQuery → Type
  | .unnamedOrigins => List (RepoOriginId × String)
  | .setName .. => Unit
  | .unprefixedOrigins => List (RepoOriginId × String)
  | .setPrefix .. => Unit
  | .unhashedTasks => List TaskId
  | .setHash .. => Unit

def updateName (id : RepoOriginId) (name : String) (book : OriginBook) :
    Except SqlxError OriginBook :=
  fillOrigin id (fun row => row.name = "") (fun row => { row with name }) book

def updatePrefix (id : RepoOriginId) (text : String) (book : OriginBook) :
    Except SqlxError OriginBook :=
  fillOrigin id (fun row => row.originPrefix = "") (fun row => { row with originPrefix := text }) book

def perform : (query : BackfillQuery) → LegacyStore → Except SqlxError query.Answer × LegacyStore
  | .unnamedOrigins, store =>
    (.ok ((store.origins.table.rows.filter fun row => row.name = "").map fun row =>
      (row.id, row.canonicalUrl)), store)
  | .setName id name, store =>
    match updateName id name store.origins with
    | .ok origins => (.ok (), { store with origins })
    | .error error => (.error error, store)
  | .unprefixedOrigins, store =>
    (.ok ((store.origins.table.rows.filter fun row => row.originPrefix = "").map fun row =>
      (row.id, row.name)), store)
  | .setPrefix id text, store =>
    match updatePrefix id text store.origins with
    | .ok origins => (.ok (), { store with origins })
    | .error error => (.error error, store)
  | .unhashedTasks, store =>
    (.ok ((store.tasks.table.rows.filter fun row => row.hash = "").map HashRow.id), store)
  | .setHash id hash, store =>
    match fillHash id hash store.tasks with
    | .ok tasks => (.ok (), { store with tasks })
    | .error error => (.error error, store)

end BackfillQuery

inductive BackfillOp where
  | ask (query : BackfillQuery)
  | randomHash (length : Nat)

abbrev BackfillOp.Answer : BackfillOp → Type
  | .ask query => Except SqlxError query.Answer
  | .randomHash _ => String

abbrev backfillPorts : Signature := ⟨BackfillOp, BackfillOp.Answer⟩

abbrev Backfilling (α : Type) := Program backfillPorts SqlxError α

def tryQuery (query : BackfillQuery) : Backfilling (Except SqlxError query.Answer) :=
  @Program.perform backfillPorts SqlxError (.ask query)

def required (query : BackfillQuery) : Backfilling query.Answer := do
  .ofExcept (← tryQuery query)

def quietMeaning : Semantics backfillPorts LegacyStore
  | .ask query, before, answer, after => (answer, after) = query.perform before
  | .randomHash length, before, text, after =>
    after = before ∧ ∃ uuids, randomLowercaseBase32 length uuids length = some text

def failingMeaning : Semantics backfillPorts LegacyStore
  | .ask query, before, answer, after => quietMeaning (.ask query) before answer after ∨
    (∃ message, answer = .error (.other message)) ∧ after = before
  | op, before, answer, after => quietMeaning op before answer after

def backfillEmptyRepoNames : Backfilling Unit := do
  let rows ← required .unnamedOrigins
  Program.foldEach (fun _ (row : RepoOriginId × String) =>
    required (.setName row.1 (deriveName row.2))) rows ()

def tryPrefix (id : RepoOriginId) (base : String) (suffix : Nat) (taken : Backfilling Unit) :
    Backfilling Unit := do
  let text := if suffix = 0 then base else RepoBindingService.candidate base suffix
  match ← tryQuery (.setPrefix id text) with
  | .ok _ => return ()
  | .error .uniqueViolation => taken
  | .error error => .fail error

def placePrefix (id : RepoOriginId) (base : String) : Nat → Backfilling Unit
  | 0 => tryPrefix id base RepoBindingService.safetyCap (.fail .uniqueViolation)
  | left + 1 =>
    tryPrefix id base (RepoBindingService.safetyCap - (left + 1)) (placePrefix id base left)

def backfillEmptyRepoPrefixes : Backfilling Unit := do
  let rows ← required .unprefixedOrigins
  Program.foldEach (fun _ (row : RepoOriginId × String) =>
    placePrefix row.1 (derivePrefix row.2) RepoBindingService.safetyCap) rows ()

def tryLength (id : TaskId) (length : Nat) : Nat → Backfilling Bool
  | 0 => return false
  | left + 1 => do
    let text : String ← @Program.perform backfillPorts SqlxError (.randomHash length)
    match ← tryQuery (.setHash id text) with
    | .ok _ => return true
    | .error .uniqueViolation => tryLength id length left
    | .error error => .fail error

def placeHash (id : TaskId) : List Nat → Backfilling Unit
  | [] => .fail .uniqueViolation
  | length :: longer => do
    if ← tryLength id length 8 then return () else placeHash id longer

def backfillEmptyTaskHashes : Backfilling Unit := do
  let ids ← required .unhashedTasks
  Program.foldEach (fun _ id =>
    placeHash id (List.range' minHashLen (maxHashLen + 1 - minHashLen))) ids ()

/-- The passes of `open_db`, in its order. -/
def openDb : Backfilling Unit := do
  backfillEmptyRepoNames
  backfillEmptyRepoPrefixes
  backfillEmptyTaskHashes

end Backfill

end RepoLink
