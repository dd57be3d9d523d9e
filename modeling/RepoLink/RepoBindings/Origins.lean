import RepoLink.Domain.Config
import RepoLink.Domain.Handles
import RepoLink.Library.Table

/-!
Repo origins as `RepoBindingService` keeps them: the rows of `repo_origins` with their unique
indexes, and the retry loop that breaks a prefix collision with a numeric suffix.
-/

namespace RepoLink

open KeyedTable

/-- A row of `repo_origins`. -/
structure OriginRow extends RepoOrigin where
  remoteUrl : String
  name : String
  aliases : List String
  createdAt : Timestamp
  updatedAt : Timestamp
deriving DecidableEq, Repr

def OriginRow.setPrefix (now : Timestamp) (newPrefix : String) (origin : OriginRow) :
    Except DomainError OriginRow :=
  if !isValidPrefix newPrefix then
    .error (.validation
      "prefix must match ^[a-z][a-z0-9]{1,19}$ (2-20 lowercase alnum, must start with a letter)")
  else if origin.originPrefix = newPrefix then .ok origin
  else .ok { origin with originPrefix := newPrefix, updatedAt := now }

/-- `repo_origins`: canonical URLs are unique, and so are prefixes that are set. -/
structure OriginBook where
  table : Table (fun row : OriginRow => row.id)
  urls : ∀ left ∈ table.rows, ∀ right ∈ table.rows,
    left.canonicalUrl = right.canonicalUrl → left = right
  prefixes : ∀ left ∈ table.rows, ∀ right ∈ table.rows,
    left.originPrefix = right.originPrefix → left.originPrefix ≠ "" → left = right

namespace OriginBook

def empty : OriginBook where
  table := Table.empty
  urls := fun _ member => (List.not_mem_nil member).elim
  prefixes := fun _ member => (List.not_mem_nil member).elim

def UrlTaken (origin : OriginRow) (book : OriginBook) : Prop :=
  ∃ other ∈ book.table.rows, other.id ≠ origin.id ∧ other.canonicalUrl = origin.canonicalUrl

def PrefixTaken (origin : OriginRow) (book : OriginBook) : Prop :=
  ∃ other ∈ book.table.rows, other.id ≠ origin.id ∧ other.originPrefix = origin.originPrefix ∧
    other.originPrefix ≠ ""

instance (origin : OriginRow) (book : OriginBook) : Decidable (book.UrlTaken origin) :=
  inferInstanceAs (Decidable (∃ other ∈ book.table.rows, _))

instance (origin : OriginRow) (book : OriginBook) : Decidable (book.PrefixTaken origin) :=
  inferInstanceAs (Decidable (∃ other ∈ book.table.rows, _))

/-- What `ON CONFLICT(id) DO UPDATE` keeps of the stored row. -/
def merged (origin stored : OriginRow) : OriginRow := { origin with createdAt := stored.createdAt }

theorem merged_id (origin stored : OriginRow) : (merged origin stored).id = origin.id := rfl

def upserted (origin : OriginRow) (book : OriginBook) : Table (fun row : OriginRow => row.id) :=
  book.table.upsert origin (merged origin) fun stored _ => merged_id origin stored

theorem mem_upserted {origin row : OriginRow} {book : OriginBook}
    (member : row ∈ (book.upserted origin).rows) :
    row ∈ book.table.rows ∧ row.id ≠ origin.id ∨
      row.id = origin.id ∧ row.canonicalUrl = origin.canonicalUrl ∧
        row.originPrefix = origin.originPrefix := by
  have found := Table.find_of_mem member
  unfold upserted at found
  rw [Table.find_upsert] at found
  split at found
  · rename_i same
    refine .inr ⟨same, ?_⟩
    cases stored : book.table.find row.id with
    | none =>
        rw [stored] at found
        cases Option.some.inj found
        exact ⟨rfl, rfl⟩
    | some old =>
        rw [stored] at found
        cases Option.some.inj found
        exact ⟨rfl, rfl⟩
  · rename_i other
    exact .inl ⟨Table.find_mem found, other⟩

theorem find_upserted (origin : OriginRow) (book : OriginBook) :
    ∃ row, (book.upserted origin).find origin.id = some row ∧
      row.originPrefix = origin.originPrefix := by
  unfold upserted
  rw [Table.find_upsert, if_pos rfl]
  cases book.table.find origin.id with
  | none => exact ⟨origin, rfl, rfl⟩
  | some stored => exact ⟨merged origin stored, rfl, rfl⟩

def saveOrigin (origin : OriginRow) (book : OriginBook) : Except PortError OriginBook :=
  if urlTaken : book.UrlTaken origin then
    .error (.conflict (some "repo_origins.canonical_url")
      "UNIQUE constraint failed: repo_origins.canonical_url")
  else if prefixTaken : book.PrefixTaken origin then
    .error (.conflict (some "repo_origins.prefix") "UNIQUE constraint failed: repo_origins.prefix")
  else
    .ok {
      table := book.upserted origin
      urls := by
        intro left inLeft right inRight same
        rcases mem_upserted inLeft with ⟨oldLeft, otherLeft⟩ | ⟨idLeft, urlLeft, _⟩
        · rcases mem_upserted inRight with ⟨oldRight, _⟩ | ⟨_, urlRight, _⟩
          · exact book.urls left oldLeft right oldRight same
          · exact (urlTaken ⟨left, oldLeft, otherLeft, same.trans urlRight⟩).elim
        · rcases mem_upserted inRight with ⟨oldRight, otherRight⟩ | ⟨idRight, _, _⟩
          · exact (urlTaken ⟨right, oldRight, otherRight, same.symm.trans urlLeft⟩).elim
          · exact Table.row_unique inLeft inRight (idLeft.trans idRight.symm)
      prefixes := by
        intro left inLeft right inRight same isSet
        rcases mem_upserted inLeft with ⟨oldLeft, otherLeft⟩ | ⟨idLeft, _, prefixLeft⟩
        · rcases mem_upserted inRight with ⟨oldRight, _⟩ | ⟨_, _, prefixRight⟩
          · exact book.prefixes left oldLeft right oldRight same isSet
          · exact (prefixTaken ⟨left, oldLeft, otherLeft, same.trans prefixRight, isSet⟩).elim
        · rcases mem_upserted inRight with ⟨oldRight, otherRight⟩ | ⟨idRight, _, _⟩
          · exact (prefixTaken
              ⟨right, oldRight, otherRight, same.symm.trans prefixLeft, same ▸ isSet⟩).elim
          · exact Table.row_unique inLeft inRight (idLeft.trans idRight.symm) }

end OriginBook

structure AmbiguousCandidate where
  id : RepoId
  workspaceId : WorkspaceId
  canonicalUrl : String
  name : String
deriving DecidableEq, Repr

inductive RepoBindingError where
  | port (error : PortError)
  | domain (error : DomainError)
  | bindingNotFound (query : String)
  | ambiguousHandle (query : String) (candidates : List AmbiguousCandidate)
deriving DecidableEq, Repr

def PortError.conflictTarget : PortError → Option String
  | .conflict target _ => target
  | _ => none

namespace RepoBindingService

def safetyCap : Nat := 1000000

def candidate (base : String) (suffix : Nat) : String :=
  let digits := Nat.toDigits 10 suffix
  String.ofList (base.toList.take (20 - digits.length) ++ digits)

/-- The loop of `save_with_unique_prefix`; `left` attempts stay under the cap. -/
def retryPrefix (now : Timestamp) (base : String) :
    Nat → OriginRow → OriginBook → Except RepoBindingError (OriginRow × OriginBook)
  | left, origin, book =>
    match book.saveOrigin origin with
    | .ok saved => .ok (origin, saved)
    | .error error =>
      if error.conflictTarget = some "repo_origins.prefix" then
        match left with
        | 0 =>
          .error (.port (.backend ("could not allocate unique repo prefix from base '" ++ base ++
            "' after 1000000 attempts")))
        | left + 1 =>
          match origin.setPrefix now (candidate base (safetyCap - left)) with
          | .error error => .error (.domain error)
          | .ok renamed => retryPrefix now base left renamed book
      else .error (.port error)

def saveWithUniquePrefix (now : Timestamp) (origin : OriginRow) (book : OriginBook) :
    Except RepoBindingError (OriginRow × OriginBook) :=
  retryPrefix now origin.originPrefix safetyCap origin book

end RepoBindingService

end RepoLink
