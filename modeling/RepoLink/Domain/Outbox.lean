import RepoLink.Domain.Task

/-!
Outbox entries and the sync policy of `domain-sync`: the queued mutations, their status walk,
the decision a pull makes, and the order in which a filing repo is resolved.
-/

namespace RepoLink

inductive OutboxMutation where
  | updateRemote (canonicalRepo remoteId : String) (title body : Option String)
      (closed : Option Bool)
  | addItem (projectNodeId issueNodeId : String)
  | createDraftIssue (projectNodeId title body : String)
  | updateDraftIssue (itemNodeId : String) (title body : Option String)
  | convertDraftToIssue (itemNodeId repoNodeId : String)
  | setProjectStatus (projectNodeId itemNodeId statusFieldId optionId : String)
  | setProjectPriority (projectNodeId itemNodeId priorityFieldId optionId : String)
  | setProjectType (projectNodeId itemNodeId typeFieldId : String) (optionId : Option String)
      (localIssueType : Option String) (localIssueTypeRecorded : Bool)
  | setIssueType (issueNodeId : String) (issueTypeId : Option String)
      (localIssueType : Option String) (localIssueTypeRecorded : Bool)
  | addSubIssue (parentCanonical parentRemoteId childCanonical childRemoteId : String)
  | removeSubIssue (parentCanonical parentRemoteId childCanonical childRemoteId : String)
  | addBlockedBy (blockedCanonical blockedRemoteId blockerCanonical blockerRemoteId : String)
  | removeBlockedBy (blockedCanonical blockedRemoteId blockerCanonical blockerRemoteId : String)
deriving DecidableEq, Repr

namespace OutboxMutation

def kind : OutboxMutation → String
  | .updateRemote .. => "update_remote"
  | .addItem .. => "add_item"
  | .createDraftIssue .. => "create_draft_issue"
  | .updateDraftIssue .. => "update_draft_issue"
  | .convertDraftToIssue .. => "convert_draft_to_issue"
  | .setProjectStatus .. => "set_project_status"
  | .setProjectPriority .. => "set_project_priority"
  | .setProjectType .. => "set_project_type"
  | .setIssueType .. => "set_issue_type"
  | .addSubIssue .. => "add_sub_issue"
  | .removeSubIssue .. => "remove_sub_issue"
  | .addBlockedBy .. => "add_blocked_by"
  | .removeBlockedBy .. => "remove_blocked_by"

end OutboxMutation

inductive OutboxStatus where
  | pending
  | inflight
  | succeeded
  | failed
deriving DecidableEq, Repr

namespace OutboxStatus

/-- `Succeeded` and `Failed` rows are never claimed again. -/
def isTerminal : OutboxStatus → Bool
  | .succeeded | .failed => true
  | .pending | .inflight => false

end OutboxStatus

structure OutboxEntry where
  id : OutboxEntryId
  taskId : TaskId
  mutation : OutboxMutation
  status : OutboxStatus
  attempts : Nat
  lastError : Option String
  nextAttemptAt : Option Timestamp
  enqueuedAt : Timestamp
  updatedAt : Timestamp
deriving DecidableEq, Repr

def OutboxEntry.new (now : Timestamp) (id : OutboxEntryId) (taskId : TaskId)
    (mutation : OutboxMutation) : OutboxEntry where
  id := id
  taskId := taskId
  mutation := mutation
  status := .pending
  attempts := 0
  lastError := none
  nextAttemptAt := none
  enqueuedAt := now
  updatedAt := now

@[simp] theorem OutboxEntry.new_status (now : Timestamp) (id : OutboxEntryId) (taskId : TaskId)
    (mutation : OutboxMutation) : (OutboxEntry.new now id taskId mutation).status = .pending := rfl

inductive SyncDecision where
  | noop
  | pushLocal
  | pullRemote
deriving DecidableEq, Repr

def SyncState.decide (sync : SyncState) (remoteDirty : Bool) : SyncDecision :=
  match sync, remoteDirty with
  | .localOnly, _ => .noop
  | .staged, _ => .pushLocal
  | .dirtyLocal, false => .pushLocal
  | .dirtyLocal, true => .pullRemote
  | .synced, false => .noop
  | .synced, true => .pullRemote
  | .dirtyRemote, _ => .pullRemote
  | .conflict, _ => .pullRemote

inductive ConflictKind where
  | assigneeMismatch
  | targetRemapped
  | projectStatusMismatch
deriving DecidableEq, Repr

def ConflictKind.debug : ConflictKind → String
  | .assigneeMismatch => "AssigneeMismatch"
  | .targetRemapped => "TargetRemapped"
  | .projectStatusMismatch => "ProjectStatusMismatch"

def resolveFilingRepo (explicit workspaceDefault logical : Option RepoOriginId) :
    Option RepoOriginId :=
  (explicit.or workspaceDefault).or logical

end RepoLink
