import RepoLink.Daemon.Tick
import RepoLink.RepoBindings.Naming
import RepoLink.RepoBindings.Origins
import RepoLink.Search.Text
import RepoLink.Store.CommentTable

/-!
The aggregates of `domain-repo` and their tables: what an origin lets its callers change, the
worktrees of an instance, and `repo_instances` with its unique index and its foreign keys.
-/

namespace RepoLink

open KeyedTable

namespace OriginRow

/-- `RepoOrigin::new`: the name and the prefix are derived. -/
def create (id : RepoOriginId) (now : Timestamp) (remoteUrl canonicalUrl : String) :
    Except DomainError OriginRow :=
  if isBlank remoteUrl then .error (.validation "remote_url is empty")
  else if isBlank canonicalUrl then .error (.validation "canonical_url is empty")
  else if isBlank (deriveName canonicalUrl) then
    .error (.validation "could not derive a non-empty name from canonical_url")
  else
    .ok {
      id, canonicalUrl, remoteUrl
      name := deriveName canonicalUrl
      aliases := []
      originPrefix := derivePrefix (deriveName canonicalUrl)
      createdAt := now
      updatedAt := now }

def setName (uuids : UuidFormat) (now : Timestamp) (newName : String) (origin : OriginRow) :
    Except DomainError OriginRow :=
  let trimmed := trim newName
  if trimmed = "" then .error (.validation "name is empty")
  else if (uuids.parse trimmed).isSome then
    .error (.validation
      "name may not be a UUID — that namespace is reserved for ID-based resolution")
  else if trimmed ∈ origin.aliases then
    .error (.validation "name would collide with an existing alias")
  else if origin.name = trimmed then .ok origin
  else .ok { origin with name := trimmed, updatedAt := now }

def addAlias (uuids : UuidFormat) (now : Timestamp) (text : String) (origin : OriginRow) :
    Except DomainError (Bool × OriginRow) :=
  let trimmed := trim text
  if trimmed = "" then .error (.validation "alias is empty")
  else if (uuids.parse trimmed).isSome then
    .error (.validation
      "alias may not be a UUID — that namespace is reserved for ID-based resolution")
  else if trimmed = origin.name then
    .error (.validation "alias would collide with the current name")
  else if trimmed ∈ origin.aliases then .ok (false, origin)
  else .ok (true, { origin with aliases := origin.aliases ++ [trimmed], updatedAt := now })

def removeAlias (now : Timestamp) (text : String) (origin : OriginRow) : Bool × OriginRow :=
  let kept := origin.aliases.filter (· ≠ text)
  if kept.length = origin.aliases.length then (false, { origin with aliases := kept })
  else (true, { origin with aliases := kept, updatedAt := now })

end OriginRow

/-- A worktree with what `repo attach` records of it. -/
structure LinkRow extends WorktreeLink where
  branch : Option String
  lastSeenAt : Timestamp
deriving DecidableEq, Repr

/-- A row of `repo_instances` with its rows of `worktree_links`. -/
structure InstanceRow extends RepoInstance where
  trackedBranch : Option String
  worktrees : Table fun link : LinkRow => link.path
  createdAt : Timestamp
  updatedAt : Timestamp
deriving DecidableEq, Repr

namespace InstanceRow

def create (id : RepoId) (now : Timestamp) (workspaceId : WorkspaceId) (originId : RepoOriginId)
    (canonicalUrl : String) (trackedBranch : Option String) : Except DomainError InstanceRow :=
  if isBlank canonicalUrl then .error (.validation "canonical_url is empty")
  else
    .ok {
      id, workspaceId, originId, canonicalUrl, trackedBranch
      worktrees := Table.empty
      createdAt := now
      updatedAt := now }

/-- The link takes the place of another one of its path. -/
def linkWorktree (now : Timestamp) (path : String) (branch : Option String)
    (row : InstanceRow) : InstanceRow :=
  let others := row.worktrees.filter fun link => link.path ≠ path
  { row with
    worktrees := others.append ⟨⟨path, .linked⟩, branch, now⟩ (by simp [others, Table.filter])
    updatedAt := now }

def unlinkWorktree (now : Timestamp) (path : String) (row : InstanceRow) :
    Except DomainError InstanceRow :=
  let kept := row.worktrees.filter fun link => link.path ≠ path
  if kept.rows.length = row.worktrees.rows.length then
    .error (.validation "worktree path not registered")
  else .ok { row with worktrees := kept, updatedAt := now }

def markPathMissing (now : Timestamp) (path : String) (row : InstanceRow) :
    Except DomainError InstanceRow :=
  match row.worktrees.find path with
  | none => .error (.validation "worktree path not registered")
  | some _ =>
    .ok { row with
      worktrees := row.worktrees.modify path
        (fun link => { link with status := .missingPath }) fun _ same => same
      updatedAt := now }

def pruneMissing (now : Timestamp) (row : InstanceRow) : Nat × InstanceRow :=
  let kept := row.worktrees.filter fun link => link.status ≠ .missingPath
  let pruned := row.worktrees.rows.length - kept.rows.length
  (pruned, if 0 < pruned then { row with worktrees := kept, updatedAt := now }
    else { row with worktrees := kept })

end InstanceRow

/-- `repo_instances`: a workspace holds a canonical URL once. -/
structure InstanceBook where
  table : Table fun row : InstanceRow => row.id
  members : ∀ left ∈ table.rows, ∀ right ∈ table.rows,
    left.workspaceId = right.workspaceId → left.canonicalUrl = right.canonicalUrl → left = right

namespace InstanceBook

def empty : InstanceBook where
  table := Table.empty
  members := fun _ member => (List.not_mem_nil member).elim

def MemberTaken (row : InstanceRow) (book : InstanceBook) : Prop :=
  ∃ other ∈ book.table.rows, other.id ≠ row.id ∧ other.workspaceId = row.workspaceId ∧
    other.canonicalUrl = row.canonicalUrl

instance (row : InstanceRow) (book : InstanceBook) : Decidable (book.MemberTaken row) :=
  inferInstanceAs (Decidable (∃ other ∈ book.table.rows, _))

/-- What `ON CONFLICT(id) DO UPDATE` keeps of the stored row. -/
def merged (row stored : InstanceRow) : InstanceRow := { row with createdAt := stored.createdAt }

theorem merged_id (row stored : InstanceRow) : (merged row stored).id = row.id := rfl

def upserted (row : InstanceRow) (book : InstanceBook) : Table fun row : InstanceRow => row.id :=
  book.table.upsert row (merged row) fun stored _ => merged_id row stored

theorem mem_upserted {row other : InstanceRow} {book : InstanceBook}
    (member : other ∈ (book.upserted row).rows) :
    other ∈ book.table.rows ∧ other.id ≠ row.id ∨
      other = row ∨ ∃ stored ∈ book.table.rows, other = merged row stored := by
  have found := Table.find_of_mem member
  unfold upserted at found
  rw [Table.find_upsert] at found
  split at found
  · rename_i same
    cases stored : book.table.find other.id with
    | none =>
        rw [stored] at found
        exact .inr (.inl (Option.some.inj found).symm)
    | some old =>
        rw [stored] at found
        exact .inr (.inr ⟨old, Table.find_mem stored, (Option.some.inj found).symm⟩)
  · rename_i differs
    exact .inl ⟨Table.find_mem found, differs⟩

theorem mem_upserted_columns {row other : InstanceRow} {book : InstanceBook}
    (member : other ∈ (book.upserted row).rows) :
    other ∈ book.table.rows ∧ other.id ≠ row.id ∨
      other.toRepoInstance = row.toRepoInstance := by
  rcases mem_upserted member with old | rfl | ⟨stored, _, rfl⟩
  · exact .inl old
  · exact .inr rfl
  · exact .inr rfl

def saveInstance (row : InstanceRow) (book : InstanceBook) : Except PortError InstanceBook :=
  if taken : book.MemberTaken row then
    .error (.conflict (some "repo_instances.workspace_id, repo_instances.canonical_url")
      ("UNIQUE constraint failed: " ++
        "repo_instances.workspace_id, repo_instances.canonical_url"))
  else
    .ok {
      table := book.upserted row
      members := by
        intro left inLeft right inRight sameWorkspace sameUrl
        rcases mem_upserted_columns inLeft with ⟨oldLeft, otherLeft⟩ | newLeft
        · rcases mem_upserted_columns inRight with ⟨oldRight, _⟩ | newRight
          · exact book.members left oldLeft right oldRight sameWorkspace sameUrl
          · rw [newRight] at sameWorkspace sameUrl
            exact (taken ⟨left, oldLeft, otherLeft, sameWorkspace, sameUrl⟩).elim
        · rcases mem_upserted_columns inRight with ⟨oldRight, otherRight⟩ | newRight
          · rw [newLeft] at sameWorkspace sameUrl
            exact (taken ⟨right, oldRight, otherRight, sameWorkspace.symm, sameUrl.symm⟩).elim
          · exact Table.row_unique inLeft inRight (by rw [newLeft, newRight]) }

/-- `DELETE FROM repo_instances WHERE id = ?`. -/
def delete (id : RepoId) (book : InstanceBook) : InstanceBook where
  table := book.table.filter fun row => row.id ≠ id
  members := by
    intro left inLeft right inRight
    exact book.members left (List.mem_filter.mp inLeft).1 right (List.mem_filter.mp inRight).1

end InstanceBook

/-- The tables of the repo bindings, each in the order of creation, and the identifiers that have
been given out, those of origins with the URL they are for. -/
structure BindingStore where
  workspaces : Table Workspace.id
  origins : OriginBook
  instances : InstanceBook
  originIds : List (RepoOriginId × String)
  instanceIds : List RepoId

structure BoundRepo where
  checkout : InstanceRow
  origin : OriginRow
deriving DecidableEq, Repr

namespace BindingStore

def originWith (canonicalUrl : String) (store : BindingStore) : Option OriginRow :=
  store.origins.table.rows.find? fun row => row.canonicalUrl = canonicalUrl

def originOfPrefix (text : String) (store : BindingStore) : Option OriginRow :=
  if text = "" then none
  else store.origins.table.rows.find? fun row => row.originPrefix = text

def view (store : BindingStore) (row : InstanceRow) : Option BoundRepo :=
  (store.origins.table.find row.originId).map fun origin => ⟨row, origin⟩

def bound (workspaceId : WorkspaceId) (canonicalUrl : String) (store : BindingStore) :
    Option BoundRepo :=
  (store.instances.table.rows.find? fun row =>
    row.workspaceId = workspaceId && row.canonicalUrl = canonicalUrl).bind store.view

def boundIn (workspaceId : WorkspaceId) (store : BindingStore) : List BoundRepo :=
  (store.instances.table.rows.filter fun row => row.workspaceId = workspaceId).filterMap store.view

/-- The transaction of `save_instance`, whose references are checked with it. -/
def saveInstance (row : InstanceRow) (store : BindingStore) : Except PortError BindingStore :=
  if store.workspaces.find row.workspaceId = none ∨ store.origins.table.find row.originId = none then
    .error foreignKeyViolation
  else (store.instances.saveInstance row).map fun instances => { store with instances }

def saveOrigin (origin : OriginRow) (store : BindingStore) : Except PortError BindingStore :=
  (store.origins.saveOrigin origin).map fun origins => { store with origins }

end BindingStore

end RepoLink
