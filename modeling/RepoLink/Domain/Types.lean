import Mathlib.Data.List.Basic

/-!
Identifiers, clock readings, enums and value types shared by every crate of the
tracker: `domain-core`, and the enums, relations and snapshots of `domain-task`.
-/

namespace RepoLink

structure TaskId where
  value : Nat
deriving DecidableEq, Repr

structure WorkspaceId where
  value : Nat
deriving DecidableEq, Repr

structure RepoId where
  value : Nat
deriving DecidableEq, Repr

/-- The other id space of repos: `filing_repo_id` holds origin ids in a `RepoId` field. -/
structure RepoOriginId where
  value : Nat
deriving DecidableEq, Repr

def RepoId.toOrigin (id : RepoId) : RepoOriginId := ⟨id.value⟩

def RepoOriginId.toRepoId (id : RepoOriginId) : RepoId := ⟨id.value⟩

@[simp] theorem RepoOriginId.toOrigin_toRepoId (id : RepoOriginId) : id.toRepoId.toOrigin = id := rfl

@[simp] theorem RepoId.toRepoId_toOrigin (id : RepoId) : id.toOrigin.toRepoId = id := rfl

structure ProjectId where
  value : String
deriving DecidableEq, Repr

structure OutboxEntryId where
  value : Nat
deriving DecidableEq, Repr

/-- A UTC instant, counted in nanoseconds from the Unix epoch. -/
structure Timestamp where
  nanos : Int
deriving DecidableEq, Repr

namespace Timestamp

instance : LE Timestamp := ⟨fun left right => left.nanos ≤ right.nanos⟩
instance : LT Timestamp := ⟨fun left right => left.nanos < right.nanos⟩
instance (left right : Timestamp) : Decidable (left ≤ right) :=
  inferInstanceAs (Decidable (left.nanos ≤ right.nanos))
instance (left right : Timestamp) : Decidable (left < right) :=
  inferInstanceAs (Decidable (left.nanos < right.nanos))

theorem le_def (left right : Timestamp) : left ≤ right ↔ left.nanos ≤ right.nanos := Iff.rfl
theorem lt_def (left right : Timestamp) : left < right ↔ left.nanos < right.nanos := Iff.rfl

def epoch : Timestamp := ⟨0⟩

def minusOneSecond (instant : Timestamp) : Timestamp := ⟨instant.nanos - 1000000000⟩

end Timestamp

inductive DomainError where
  | invalidTransition (message : String)
  | validation (message : String)
deriving DecidableEq, Repr

def DomainError.message : DomainError → String
  | .invalidTransition message => "invalid state transition: " ++ message
  | .validation message => "validation failed: " ++ message

inductive PortError where
  | notFound (message : String)
  | conflict (target : Option String) (message : String)
  | backend (message : String)
  | network (message : String)
  | issueMoved (fromCanonical fromRemoteId toCanonical toRemoteId : String)
deriving DecidableEq, Repr

def PortError.message : PortError → String
  | .notFound message => "not found: " ++ message
  | .conflict target message =>
    "conflict" ++ target.elim "" (fun target => " on " ++ target) ++ ": " ++ message
  | .backend message => "backend failure: " ++ message
  | .network message => "network failure: " ++ message
  | .issueMoved fromCanonical fromRemoteId toCanonical toRemoteId =>
    "remote issue " ++ fromCanonical ++ "#" ++ fromRemoteId ++ " moved to " ++ toCanonical ++ "#" ++
      toRemoteId

/-- Rust's `char::is_whitespace`: the Unicode `White_Space` property. -/
def isWhitespace (char : Char) : Bool :=
  let point := char.toNat
  (0x09 ≤ point && point ≤ 0x0D) || point == 0x20 || point == 0x85 || point == 0xA0 ||
    point == 0x1680 || (0x2000 ≤ point && point ≤ 0x200A) || point == 0x2028 ||
    point == 0x2029 || point == 0x202F || point == 0x205F || point == 0x3000

def isBlank (text : String) : Bool := text.toList.all isWhitespace

def eqIgnoreAsciiCase (left right : String) : Bool :=
  left.toList.map Char.toLower == right.toList.map Char.toLower

inductive Lifecycle where
  | open
  | reopened
  | completed
  | notPlanned
deriving DecidableEq, Repr

namespace Lifecycle

def isOpen : Lifecycle → Bool
  | .open | .reopened => true
  | .completed | .notPlanned => false

end Lifecycle

inductive SyncState where
  | localOnly
  | staged
  | synced
  | dirtyLocal
  | dirtyRemote
  | conflict
deriving DecidableEq, Repr

/-- The `{:?}` rendering that transition errors quote. -/
def SyncState.debug : SyncState → String
  | .localOnly => "LocalOnly"
  | .staged => "Staged"
  | .synced => "Synced"
  | .dirtyLocal => "DirtyLocal"
  | .dirtyRemote => "DirtyRemote"
  | .conflict => "Conflict"

inductive Priority where
  | p0
  | p1
  | p2
  | p3
deriving DecidableEq, Repr

/-- The derived order of the variants: `P0` comes first. -/
def Priority.rank : Priority → Nat
  | .p0 => 0
  | .p1 => 1
  | .p2 => 2
  | .p3 => 3

theorem Priority.rank_inj {left right : Priority} (same : left.rank = right.rank) : left = right := by
  cases left <;> cases right <;> first | rfl | cases same

inductive IssueType where
  | task
  | bug
  | feature
  | custom (name : String)
deriving DecidableEq, Repr

namespace IssueType

def display : IssueType → String
  | .task => "task"
  | .bug => "bug"
  | .feature => "feature"
  | .custom name => name

def wellKnown (text : String) : Option IssueType :=
  if eqIgnoreAsciiCase text "task" then some .task
  else if eqIgnoreAsciiCase text "bug" then some .bug
  else if eqIgnoreAsciiCase text "feature" then some .feature
  else none

def ofString (text : String) : IssueType := (wellKnown text).getD (.custom text)

end IssueType

inductive RelationKind where
  | blockedBy
  | blocks
  | duplicates
  | parentOf
  | childOf
  | relatedTo
deriving DecidableEq, Repr

def RelationKind.inverse : RelationKind → RelationKind
  | .blockedBy => .blocks
  | .blocks => .blockedBy
  | .parentOf => .childOf
  | .childOf => .parentOf
  | .relatedTo => .relatedTo
  | .duplicates => .duplicates

structure TaskRelation where
  kind : RelationKind
  other : TaskId
deriving DecidableEq, Repr

structure RemoteRef where
  provider : String
  remoteId : String
  nodeId : Option String
deriving DecidableEq, Repr

structure CommentId where
  value : Nat
deriving DecidableEq, Repr

structure TaskComment where
  localId : Option CommentId
  remoteId : Option String
  author : String
  body : String
  createdAt : Timestamp
deriving DecidableEq, Repr

structure RemoteComment where
  remoteId : String
  author : String
  body : String
  createdAt : Timestamp
deriving DecidableEq, Repr

inductive SnapshotSource where
  | created
  | localEdit
  | promote
  | push
  | prePull
  | pull
  | conflictResolve
  | rollback
  | link
  | filingRepoRepair
deriving DecidableEq, Repr

namespace SnapshotSource

def debug : SnapshotSource → String
  | .created => "Created"
  | .localEdit => "LocalEdit"
  | .promote => "Promote"
  | .push => "Push"
  | .prePull => "PrePull"
  | .pull => "Pull"
  | .conflictResolve => "ConflictResolve"
  | .rollback => "Rollback"
  | .link => "Link"
  | .filingRepoRepair => "FilingRepoRepair"

def isBaseline : SnapshotSource → Bool
  | .promote | .push | .pull | .conflictResolve | .link | .filingRepoRepair => true
  | .created | .localEdit | .prePull | .rollback => false

end SnapshotSource

structure TaskSnapshot where
  taskId : TaskId
  version : Nat
  title : String
  body : String
  lifecycle : Lifecycle
  syncState : SyncState
  priority : Priority
  issueType : Option IssueType
  issueTypeRecorded : Bool
  assignees : List String
  remote : Option RemoteRef
  repoId : Option RepoId
  repoIdRecorded : Bool
  filingRepoId : Option RepoId
  source : SnapshotSource
  capturedAt : Timestamp
deriving DecidableEq, Repr

/-- A bare link leaves the task in `Conflict`, so a `Link` version counts only when `Synced`. -/
def TaskSnapshot.isBaseline (snapshot : TaskSnapshot) : Bool :=
  if snapshot.source = .link then snapshot.syncState = .synced else snapshot.source.isBaseline

theorem RelationKind.inverse_inverse (kind : RelationKind) : kind.inverse.inverse = kind := by
  cases kind <;> rfl

end RepoLink
