import RepoLink.Library.Program
import RepoLink.Ports.Remote
import RepoLink.Store.Database

/-!
The ports that the services call, as one signature: the clock and the id generators, the
repositories over the database, and the remote provider. A repository call performs its
statement or fails with a backend error and no effect; a provider call may answer anything.
-/

namespace RepoLink

open Effects

inductive StoreOp where
  | getTask (id : TaskId)
  | findByHash (hash : String)
  | findByRemote (filingRepoId : RepoOriginId) (provider remoteId : String)
  | trackedRemoteIds (filingRepoId : RepoOriginId) (provider : String) (remoteIds : List String)
  | listTasks (filter : TaskFilter)
  | saveAll (writes : List TaskWrite) (entries : List OutboxEntry)
  | cacheProjectStatus (id : TaskId) (optionId : Option String)
  | applyPolledPriority (id : TaskId) (priority : Priority)
  | markRemoteDirty (id : TaskId)
  | cacheRemoteNodeId (id : TaskId) (nodeId : String)
  | clearIssueTypePending (id : TaskId) (expected : Option IssueType)
  | cacheSyncedAt (id : TaskId) (syncedAt : Timestamp) (source : SyncedSource)
  | replaceComments (id : TaskId) (comments : List RemoteComment)
  | addPendingComment (id : TaskId) (author body : String) (createdAt : Timestamp)
  | markCommentsPushed (id : TaskId) (drainedLocalIds : List CommentId)
      (pushed : List RemoteComment)
  | getSnapshot (id : TaskId) (version : Nat)
  | getWorkspace (id : WorkspaceId)
  | saveWorkspace (workspace : Workspace)
  | getProject (id : ProjectId)
  | listProjects
  | listProjectsByWorkspace (id : WorkspaceId)
  | getOrgIssueTypes (ownerLogin : String)
  | getOrigin (id : RepoOriginId)
  | getBinding (id : RepoId)
  | findByCanonicalUrl (workspaceId : WorkspaceId) (canonicalUrl : String)
  | findByRemoteMapping (workspaceId : WorkspaceId) (provider remoteId : String)
  | enqueue (entry : OutboxEntry)
  | enqueueIfAbsent (entry : OutboxEntry)
  | claimNextEligible (now : Timestamp)
  | markSucceeded (id : OutboxEntryId)
  | markFailed (id : OutboxEntryId) (error : String)
  | recordRetry (id : OutboxEntryId) (error : String) (nextAttemptAt : Timestamp)
  | requeueOrphanedInflight
  | listPending (id : TaskId)
  | deletePendingAddItems (id : TaskId)

namespace StoreOp

def Answer : StoreOp → Type
  | .getTask _ => Task
  | .findByHash _ => Option Task
  | .findByRemote .. => Option Task
  | .trackedRemoteIds .. => List String
  | .listTasks _ => List Task
  | .saveAll .. => Unit
  | .cacheProjectStatus .. => Unit
  | .applyPolledPriority .. => Unit
  | .markRemoteDirty _ => Unit
  | .cacheRemoteNodeId .. => Unit
  | .clearIssueTypePending .. => Bool
  | .cacheSyncedAt .. => Unit
  | .replaceComments .. => Unit
  | .addPendingComment .. => Unit
  | .markCommentsPushed .. => Unit
  | .getSnapshot .. => TaskSnapshot
  | .getWorkspace _ => Workspace
  | .saveWorkspace _ => Unit
  | .getProject _ => Project
  | .listProjects => List Project
  | .listProjectsByWorkspace _ => List Project
  | .getOrgIssueTypes _ => OrgIssueTypeRegistry
  | .getOrigin _ => RepoOrigin
  | .getBinding _ => RepoBindingView
  | .findByCanonicalUrl .. => Option RepoBindingView
  | .findByRemoteMapping .. => Option RepoOriginId
  | .enqueue _ => Unit
  | .enqueueIfAbsent _ => Bool
  | .claimNextEligible _ => Option OutboxEntry
  | .markSucceeded _ => Unit
  | .markFailed .. => Unit
  | .recordRetry .. => Unit
  | .requeueOrphanedInflight => Nat
  | .listPending _ => List OutboxEntry
  | .deletePendingAddItems _ => Nat

def reading {α : Type} (read : Database → Except PortError α) (database : Database) :
    Except PortError α × Database := (read database, database)

def updating (update : Database → Database) (database : Database) :
    Except PortError Unit × Database := (.ok (), update database)

def committing {α : Type} (result : Except PortError (α × Database)) (database : Database) :
    Except PortError α × Database :=
  match result with
  | .ok (value, after) => (.ok value, after)
  | .error error => (.error error, database)

theorem committing_ok {α : Type} {result : Except PortError (α × Database)}
    {before after : Database} {value : α}
    (committed : committing result before = (.ok value, after)) : result = .ok (value, after) := by
  cases result with
  | ok pair =>
      cases committed
      rfl
  | error error => cases committed

def changing (change : CommentTable → Except PortError CommentTable) (id : TaskId)
    (database : Database) : Except PortError Unit × Database :=
  committing ((database.changeComments change id).map fun after => ((), after)) database

def overOutbox (database : Database) (outbox : OutboxTable) : Database := { database with outbox }

/-- The statement behind each repository call; `instant` is the clock it reads, if it reads one. -/
def perform (instant : Timestamp) :
    (op : StoreOp) → Database → Except PortError op.Answer × Database
  | .getTask id => reading (Database.getTask id)
  | .findByHash hash => reading fun database => .ok (database.findByHash hash)
  | .findByRemote filingRepoId provider remoteId =>
    reading fun database => .ok (database.findByRemote filingRepoId provider remoteId)
  | .trackedRemoteIds filingRepoId provider remoteIds =>
    reading fun database => .ok (database.trackedRemoteIds filingRepoId provider remoteIds)
  | .listTasks filter => reading fun database => .ok (database.listTasks filter)
  | .saveAll writes entries => fun database =>
    committing ((database.saveAll instant writes entries).map fun after => ((), after)) database
  | .cacheProjectStatus id optionId => updating (Database.cacheProjectStatus id optionId)
  | .applyPolledPriority id priority => updating (Database.applyPolledPriority id priority)
  | .markRemoteDirty id => updating (Database.markRemoteDirty id)
  | .cacheRemoteNodeId id nodeId => updating (Database.cacheRemoteNodeId id nodeId)
  | .clearIssueTypePending id expected => fun database =>
    let (cleared, after) := database.clearIssueTypePending id expected
    (.ok cleared, after)
  | .cacheSyncedAt id syncedAt _ => updating (Database.cacheSyncedAt id syncedAt)
  | .replaceComments id comments => changing (CommentTable.replaceComments comments) id
  | .addPendingComment id author body createdAt =>
    changing (CommentTable.addPendingComment author body createdAt) id
  | .markCommentsPushed id drainedLocalIds pushed =>
    changing (CommentTable.markCommentsPushed drainedLocalIds pushed) id
  | .getSnapshot id version => reading (Database.getSnapshot id version)
  | .getWorkspace id => reading (Database.getWorkspace id)
  | .saveWorkspace workspace => updating (Database.saveWorkspace workspace)
  | .getProject id => reading (Database.getProject id)
  | .listProjects => reading fun database => .ok database.projects.rows
  | .listProjectsByWorkspace id =>
    reading fun database => .ok (database.listProjectsByWorkspace id)
  | .getOrgIssueTypes ownerLogin =>
    reading fun database => .ok (database.getOrgIssueTypes ownerLogin)
  | .getOrigin id => reading (Database.getOrigin id)
  | .getBinding id => reading (Database.getBinding id)
  | .findByCanonicalUrl workspaceId canonicalUrl =>
    reading fun database => .ok (database.findByCanonicalUrl workspaceId canonicalUrl)
  | .findByRemoteMapping workspaceId provider remoteId =>
    reading fun database => .ok (database.findByRemoteMapping workspaceId provider remoteId)
  | .enqueue entry => fun database =>
    committing ((database.outbox.enqueue entry).map fun outbox => ((), overOutbox database outbox))
      database
  | .enqueueIfAbsent entry => fun database =>
    committing ((database.outbox.enqueueIfAbsent entry).map fun (inserted, outbox) =>
      (inserted, overOutbox database outbox)) database
  | .claimNextEligible now => fun database =>
    let (claimed, outbox) := database.outbox.claimNextEligible now instant
    (.ok claimed, overOutbox database outbox)
  | .markSucceeded id => updating fun database =>
    overOutbox database (database.outbox.markSucceeded instant id)
  | .markFailed id error => updating fun database =>
    overOutbox database (database.outbox.markFailed instant id error)
  | .recordRetry id error nextAttemptAt => updating fun database =>
    overOutbox database (database.outbox.recordRetry instant id error nextAttemptAt)
  | .requeueOrphanedInflight => fun database =>
    let (requeued, outbox) := database.outbox.requeueOrphanedInflight instant
    (.ok requeued, overOutbox database outbox)
  | .listPending id => reading fun database => .ok (database.outbox.listPending id)
  | .deletePendingAddItems id => fun database =>
    let (deleted, outbox) := database.outbox.deletePendingAddItems id
    (.ok deleted, overOutbox database outbox)

theorem perform_saveAll_ok {instant : Timestamp} {writes : List TaskWrite}
    {entries : List OutboxEntry} {before after : Database} {answer : Unit}
    (performed : (StoreOp.saveAll writes entries).perform instant before = (.ok answer, after)) :
    before.saveAll instant writes entries = .ok after := by
  have committed := committing_ok performed
  cases saved : before.saveAll instant writes entries with
  | error error => simp [saved, Except.map] at committed
  | ok stored =>
      rw [saved] at committed
      exact congrArg Except.ok (Prod.mk.inj (Except.ok.inj committed)).2

theorem perform_enqueue_ok {instant : Timestamp} {entry : OutboxEntry} {before after : Database}
    {answer : Unit}
    (performed : (StoreOp.enqueue entry).perform instant before = (.ok answer, after)) :
    ∃ outbox, before.outbox.enqueue entry = .ok outbox ∧ after = { before with outbox } := by
  have committed := committing_ok performed
  cases inserted : before.outbox.enqueue entry with
  | error error => simp [inserted, Except.map] at committed
  | ok outbox =>
      rw [inserted] at committed
      exact ⟨outbox, rfl, (Prod.mk.inj (Except.ok.inj committed)).2.symm⟩

theorem perform_enqueueIfAbsent_ok {instant : Timestamp} {entry : OutboxEntry}
    {before after : Database} {answer : Bool}
    (performed : (StoreOp.enqueueIfAbsent entry).perform instant before = (.ok answer, after)) :
    ∃ outbox, before.outbox.enqueueIfAbsent entry = .ok (answer, outbox) ∧
      after = { before with outbox } := by
  have committed := committing_ok performed
  cases inserted : before.outbox.enqueueIfAbsent entry with
  | error error => simp [inserted, Except.map] at committed
  | ok result =>
      rw [inserted] at committed
      obtain ⟨answerEq, afterEq⟩ := Prod.mk.inj (Except.ok.inj committed)
      subst answerEq
      exact ⟨result.2, rfl, afterEq.symm⟩

end StoreOp

inductive ProviderOp where
  | createRemote (request : RemoteTaskCreate)
  | updateRemote (request : RemoteTaskUpdate)
  | fetchRemote (canonicalRepo remoteId : String)
  | fetchSubIssues (canonicalRepo remoteId : String)
  | fetchBlockedBy (canonicalRepo remoteId : String)
  | fetchParent (canonicalRepo remoteId : String)
  | fetchComments (canonicalRepo remoteId : String)
  | createComment (canonicalRepo remoteId body : String)
  | discoverMoveTarget (canonicalRepo remoteId : String)
  | transferIssue (issueNodeId dstCanonicalRepo : String)
  | listChangedSince (canonicalRepo : String) (since : Timestamp)
  | addSubIssue (parentCanonical parentRemoteId childCanonical childRemoteId : String)
  | removeSubIssue (parentCanonical parentRemoteId childCanonical childRemoteId : String)
  | addBlockedBy (blockedCanonical blockedRemoteId blockerCanonical blockerRemoteId : String)
  | removeBlockedBy (blockedCanonical blockedRemoteId blockerCanonical blockerRemoteId : String)
  | addItem (projectNodeId issueNodeId : String)
  | createDraftIssue (projectNodeId title body : String)
  | updateDraftIssue (itemNodeId : String) (title body : Option String)
  | convertDraftToIssue (itemNodeId repoNodeId : String)
  | setSingleSelectOption (projectNodeId itemNodeId fieldId : String) (optionId : Option String)
  | setIssueType (issueNodeId : String) (issueTypeId : Option String)
  | pollProjectItems (projectNodeId statusFieldId query : String)

def ProviderOp.Answer : ProviderOp → Type
  | .createRemote _ => RemoteTaskSnapshot
  | .updateRemote _ => RemoteTaskSnapshot
  | .fetchRemote .. => RemoteTaskSnapshot
  | .fetchSubIssues .. => List RemoteChildIssue
  | .fetchBlockedBy .. => List RemoteChildIssue
  | .fetchParent .. => List RemoteChildIssue
  | .fetchComments .. => List RemoteComment
  | .createComment .. => RemoteComment
  | .discoverMoveTarget .. => Option (String × String)
  | .transferIssue .. => String × Nat
  | .listChangedSince .. => List RemoteTaskSnapshot
  | .addSubIssue .. => Unit
  | .removeSubIssue .. => Unit
  | .addBlockedBy .. => Unit
  | .removeBlockedBy .. => Unit
  | .addItem .. => String
  | .createDraftIssue .. => String
  | .updateDraftIssue .. => Unit
  | .convertDraftToIssue .. => String × Nat
  | .setSingleSelectOption .. => Option String
  | .setIssueType .. => Unit
  | .pollProjectItems .. => PollPage

inductive PortOp where
  | now
  | freshTaskId
  | freshEntryId
  | freshHash (length : Nat)
  | store (op : StoreOp)
  | provider (op : ProviderOp)

def PortOp.Answer : PortOp → Type
  | .now => Timestamp
  | .freshTaskId => TaskId
  | .freshEntryId => OutboxEntryId
  | .freshHash _ => String
  | .store op => Except PortError op.Answer
  | .provider op => Except PortError op.Answer

abbrev ports : Signature := ⟨PortOp, PortOp.Answer⟩

/-- A repository call performs its statement, or fails with a backend error and no effect. -/
def StoreOp.Performs (op : StoreOp) (before : Database) (answer : Except PortError op.Answer)
    (after : Database) : Prop :=
  (∃ instant, op.perform instant before = (answer, after)) ∨
    ∃ message, answer = .error (.backend message) ∧ after = before

/-- The provider may answer anything, the clock may read anything, a task id is fresh. -/
def portMeaning : Semantics ports Database
  | .now, before, _, after => after = before
  | .freshTaskId, before, id, after => before.record id = none ∧ after = before
  | .freshEntryId, before, _, after => after = before
  | .freshHash _, before, _, after => after = before
  | .store op, before, answer, after => op.Performs before answer after
  | .provider _, before, _, after => after = before

abbrev Service (ε α : Type) := Program ports ε α

def callPort {ε : Type} (op : PortOp) : Service ε op.Answer := .call op .done

/-- `From<PortError>` of a service's error type. -/
class OfPortError (ε : Type) where
  ofPortError : PortError → ε

export OfPortError (ofPortError)

section Calls

variable {ε : Type} [OfPortError ε]

def required {α : Type} (result : Except PortError α) : Service ε α :=
  match result with
  | .ok value => .done value
  | .error error => .fail (ofPortError error)

def query (op : StoreOp) : Service ε op.Answer := do
  let result ← callPort (.store op)
  required result

def remote (op : ProviderOp) : Service ε op.Answer := do
  let result ← callPort (.provider op)
  required result

/-- A lookup whose `NotFound` means absence. -/
def lookup (op : StoreOp) : Service ε (Option op.Answer) := do
  match ← callPort (.store op) with
  | .ok value => return some value
  | .error (.notFound _) => return none
  | .error error => .fail (ofPortError error)

end Calls

def tryQuery {ε : Type} (op : StoreOp) : Service ε (Except PortError op.Answer) :=
  callPort (.store op)

def tryRemote {ε : Type} (op : ProviderOp) : Service ε (Except PortError op.Answer) :=
  callPort (.provider op)

def clock {ε : Type} : Service ε Timestamp := callPort .now

def newEntry {ε : Type} (taskId : TaskId) (mutation : OutboxMutation) : Service ε OutboxEntry := do
  let id ← callPort .freshEntryId
  let now ← clock
  return .new now id taskId mutation

end RepoLink
