import RepoLink.Domain.Types
import RepoLink.Library.Dict

/-!
What crosses the provider port: the requests sent to GitHub and the snapshots that come back.
-/

namespace RepoLink

open KeyedTable

inductive RemoteStateReason where
  | completed
  | notPlanned
  | duplicate
  | reopened
deriving DecidableEq, Repr

structure RemoteTaskCreate where
  canonicalRepo : String
  title : String
  body : String
  assignees : List String
  labels : List String
deriving DecidableEq, Repr

structure RemoteTaskUpdate where
  canonicalRepo : String
  remoteId : String
  title : Option String
  body : Option String
  closed : Option Bool
  stateReason : Option RemoteStateReason
  assignees : Option (List String)
deriving DecidableEq, Repr

structure RemoteTaskSnapshot where
  remoteId : String
  nodeId : Option String
  title : String
  body : String
  closed : Bool
  updatedAt : Timestamp
  assignees : List String
  labels : List String
deriving DecidableEq, Repr

structure RemoteChildIssue where
  canonicalRepo : String
  snapshot : RemoteTaskSnapshot
deriving DecidableEq, Repr

structure RemoteProjectItem where
  itemNodeId : String
  issueNodeId : Option String
  canonicalRepo : Option String
  number : Option Nat
  title : String
  body : String
  closed : Bool
  statusOptionId : Option String
  singleSelectOptions : List (String × String)
  updatedAt : Timestamp
deriving DecidableEq, Repr

structure PollPage where
  items : List RemoteProjectItem
  truncated : Bool
deriving DecidableEq, Repr

/-- An item that is listed with `none` has no status; one that is not listed could not be read. -/
structure ItemStatusPage where
  statuses : Dict String (Option String)
  truncated : Bool

/-- The call sites that may stamp `synced_at`; the tag itself is not stored. -/
inductive SyncedSource where
  | push
  | pull
  | refresh
  | polled
deriving DecidableEq, Repr

end RepoLink
