import RepoLink.Domain.Config
import RepoLink.Domain.Task
import RepoLink.Ports.Signature

/-!
The helpers of `application-sync` that both directions share: how a lifecycle maps to the
remote state and back, which fields a pull compares and copies, what an outbound patch sends.
-/

namespace RepoLink

inductive SyncError where
  | port (error : PortError)
  | domain (error : DomainError)
  | noRepo
  | noRemote
  | ambiguousPromoteTarget (repo : String) (count : Nat) (issues : String)
  | archived
deriving DecidableEq, Repr

instance : OfPortError PortError := ⟨id⟩
instance : OfPortError SyncError := ⟨.port⟩

/-- `From<DomainError>` of a service's error type. -/
class OfDomainError (ε : Type) where
  ofDomainError : DomainError → ε

export OfDomainError (ofDomainError)

instance : OfDomainError SyncError := ⟨.domain⟩

def settled {ε α : Type} [OfDomainError ε] (result : Except DomainError α) : Service ε α :=
  match result with
  | .ok value => .done value
  | .error error => .fail (ofDomainError error)

def boardOptionForLifecycle (project : Project) (isOpen : Bool) : Option String :=
  project.resolvedOptionIdFor isOpen

def lifecycleToRemoteState : Lifecycle → Bool × Option RemoteStateReason
  | .completed => (true, some .completed)
  | .notPlanned => (true, some .notPlanned)
  | .reopened => (false, some .reopened)
  | .open => (false, none)

def remoteStateToLifecycle (remoteClosed : Bool) (current : Lifecycle) : Lifecycle :=
  match remoteClosed, current.isOpen with
  | true, false => current
  | false, true => current
  | true, true => .completed
  | false, false => .reopened

def inboundMirrorsBaseline (title body : String) (assignees : List String) (remoteClosed : Bool)
    (baseline : TaskSnapshot) : Bool :=
  title = baseline.title && body = baseline.body && assigneesEqual assignees baseline.assignees &&
    remoteClosed != baseline.lifecycle.isOpen

def remoteMirrorsBaseline (snap : RemoteTaskSnapshot) (baseline : TaskSnapshot) : Bool :=
  inboundMirrorsBaseline snap.title snap.body snap.assignees snap.closed baseline

def copyInboundMirrorFromSnap (snap : RemoteTaskSnapshot) (task : Task) : Task :=
  { task with
    title := snap.title
    body := snap.body
    assignees := snap.assignees
    lifecycle := remoteStateToLifecycle snap.closed task.lifecycle }

def supersededInboundFields (snap : RemoteTaskSnapshot) (task : Task) : List String :=
  (if task.title ≠ snap.title then ["title"] else []) ++
  (if task.body ≠ snap.body then ["body"] else []) ++
  (if task.lifecycle ≠ remoteStateToLifecycle snap.closed task.lifecycle then ["status"] else []) ++
  (if !assigneesEqual task.assignees snap.assignees then ["assignees"] else [])

def buildUpdateFromPatch (patch : MirrorPatch) (canonicalRepo remoteId : String) :
    Option RemoteTaskUpdate :=
  if patch.isEmpty then none
  else
    let (closed, stateReason) := match patch.status with
      | some status =>
        let (closed, reason) := lifecycleToRemoteState status
        (some closed, reason)
      | none => (none, none)
    some { canonicalRepo, remoteId, title := patch.title, body := patch.body, closed
           stateReason, assignees := patch.assignees }

def providerLabel (canonical : String) : String :=
  if "github.com/".toList.isPrefixOf canonical.toList then "github" else "remote"

def ensureNotArchived (task : Task) : Service SyncError Unit :=
  if task.lifecycle = .notPlanned then .fail .archived else .done ()

end RepoLink
