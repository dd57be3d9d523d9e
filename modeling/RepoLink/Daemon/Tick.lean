import RepoLink.Domain.Config
import RepoLink.Library.Program
import RepoLink.Library.Table

/-!
The worktree half of a daemon tick: the links of `domain-repo`, the mark-only reconcile of
`RepoBindingService`, and the grace counters that decide when a missing worktree is unlinked.

A path stands for the components `PathBuf` compares. The project poll and the heartbeat of a
tick touch neither links nor counters and are left out; an error keeps the port or domain error
whose text the source renders.
-/

namespace RepoLink

open KeyedTable Effects

inductive LinkStatus where
  | linked
  | stale
  | missingPath
  | detached
deriving DecidableEq, Repr

structure WorktreeLink where
  path : String
  status : LinkStatus
deriving DecidableEq, Repr

/-- A `RepoInstance` with the worktrees checked out for it. -/
structure RepoCheckout where
  id : RepoId
  workspaceId : WorkspaceId
  worktrees : Table WorktreeLink.path
deriving Repr

namespace RepoCheckout

def paths (checkout : RepoCheckout) : List String := checkout.worktrees.rows.map (·.path)

def unlinkWorktree (path : String) (checkout : RepoCheckout) : Except DomainError RepoCheckout :=
  let kept := checkout.worktrees.filter fun link => link.path ≠ path
  if kept.rows.length = checkout.worktrees.rows.length then
    .error (.validation "worktree path not registered")
  else .ok { checkout with worktrees := kept }

def markPathMissing (path : String) (checkout : RepoCheckout) : Except DomainError RepoCheckout :=
  match checkout.worktrees.find path with
  | none => .error (.validation "worktree path not registered")
  | some _ => .ok { checkout with
      worktrees := checkout.worktrees.modify path
        (fun link => { link with status := .missingPath }) fun _ same => same }

def pruneMissing (checkout : RepoCheckout) : Nat × RepoCheckout :=
  let kept := checkout.worktrees.filter fun link => link.status ≠ .missingPath
  (checkout.worktrees.rows.length - kept.rows.length, { checkout with worktrees := kept })

end RepoCheckout

/-- What a grace counter is kept for. -/
structure WorktreeKey where
  repoId : RepoId
  path : String
deriving DecidableEq, Repr

/-- Calls of a tick: the workspace and binding repositories, the filesystem probe and the
counters in daemon memory. `counted` of a probe only labels it: the counter that a probe of the
grace pass decides about, nothing for a probe of the reconcile. -/
inductive DaemonOp where
  | listWorkspaces
  | getWorkspace (id : WorkspaceId)
  | listByWorkspace (id : WorkspaceId)
  | getInstance (id : RepoId)
  | saveInstance (checkout : RepoCheckout)
  | pathExists (path : String) (counted : Option WorktreeKey)
  | bumpMiss (key : WorktreeKey)
  | dropMiss (key : WorktreeKey)
  | retainMisses (keys : List WorktreeKey)

abbrev DaemonOp.Answer : DaemonOp → Type
  | .listWorkspaces => Except PortError (List Workspace)
  | .getWorkspace _ => Except PortError Workspace
  | .listByWorkspace _ => Except PortError (List RepoCheckout)
  | .getInstance _ => Except PortError RepoCheckout
  | .saveInstance _ => Except PortError Unit
  | .pathExists .. => Except PortError Bool
  | .bumpMiss _ => Nat
  | .dropMiss _ => Unit
  | .retainMisses _ => Unit

abbrev daemonPorts : Signature := ⟨DaemonOp, DaemonOp.Answer⟩

abbrev DaemonProgram (ε α : Type) := Program daemonPorts ε α

def ask {ε : Type} (op : DaemonOp) : DaemonProgram ε op.Answer := @Program.perform daemonPorts ε op

inductive BindingError where
  | port (error : PortError)
  | domain (error : DomainError)
deriving DecidableEq, Repr

inductive DaemonError where
  | workspace (error : PortError)
  | binding (error : BindingError)
  | port (error : PortError)
deriving DecidableEq, Repr

structure ReconcileSummary where
  reposChecked : Nat := 0
  worktreesChecked : Nat := 0
  markedMissing : Nat := 0
  pruned : Nat := 0
deriving DecidableEq, Repr

namespace RepoBindingService

def requireBinding {α : Type} (answer : Except PortError α) : DaemonProgram BindingError α :=
  .ofExcept (answer.mapError .port)

def required {α : Type} (result : Except DomainError α) : DaemonProgram BindingError α :=
  .ofExcept (result.mapError .domain)

def probeLink (found : Nat × List String) (link : WorktreeLink) :
    DaemonProgram BindingError (Nat × List String) := do
  let present ← requireBinding (← ask (.pathExists link.path none))
  let alreadyMissing := link.status = .missingPath ∨ link.status = .detached
  return (found.1 + 1,
    if present = false ∧ ¬alreadyMissing then found.2 ++ [link.path] else found.2)

def markMissing (checkout : RepoCheckout) (path : String) :
    DaemonProgram BindingError RepoCheckout :=
  required (checkout.markPathMissing path)

def saveReconciled (changed : Bool) (checkout : RepoCheckout) :
    DaemonProgram BindingError Unit :=
  if changed then do
    requireBinding (← ask (.saveInstance checkout))
  else return ()

def reconcileInstance (prune : Bool) (summary : ReconcileSummary) (view : RepoCheckout) :
    DaemonProgram BindingError ReconcileSummary := do
  let probed ← Program.foldEach probeLink view.worktrees.rows (0, [])
  let marked ← Program.foldEach markMissing probed.2 view
  let pruned := if prune then marked.pruneMissing else (0, marked)
  saveReconciled (!probed.2.isEmpty || pruned.1 != 0) pruned.2
  return { reposChecked := summary.reposChecked + 1
           worktreesChecked := summary.worktreesChecked + probed.1
           markedMissing := summary.markedMissing + probed.2.length
           pruned := summary.pruned + pruned.1 }

def reconcileWorktrees (workspaceId : WorkspaceId) (prune : Bool) :
    DaemonProgram BindingError ReconcileSummary := do
  let _ ← requireBinding (← ask (.getWorkspace workspaceId))
  let views ← requireBinding (← ask (.listByWorkspace workspaceId))
  Program.foldEach (reconcileInstance prune) views {}

def list (workspaceId : WorkspaceId) : DaemonProgram BindingError (List RepoCheckout) := do
  let workspace ← requireBinding (← ask (.getWorkspace workspaceId))
  if workspace.status = .archived ∨ workspace.status = .deleted then return []
  else requireBinding (← ask (.listByWorkspace workspaceId))

def unlinkWorktree (key : WorktreeKey) : DaemonProgram BindingError Unit := do
  let checkout ← requireBinding (← ask (.getInstance key.repoId))
  let unlinked ← required (checkout.unlinkWorktree key.path)
  requireBinding (← ask (.saveInstance unlinked))

end RepoBindingService

structure TickReport where
  workspaces : Nat := 0
  reposChecked : Nat := 0
  worktreesChecked : Nat := 0
  markedMissing : Nat := 0
  pruned : Nat := 0
deriving DecidableEq, Repr

namespace Daemon

/-- The builder's settings: whether missing worktrees are pruned, and after how many ticks. -/
structure Settings where
  prune : Bool := false
  missingGraceTicks : Nat := 3
deriving DecidableEq, Repr

def Settings.withMissingGraceTicks (ticks : Nat) (settings : Settings) : Settings :=
  { settings with missingGraceTicks := max ticks 1 }

abbrev GracePass := Nat × List WorktreeKey

def missed (settings : Settings) (pass : GracePass) (key : WorktreeKey) :
    DaemonProgram DaemonError GracePass := do
  let count ← ask (.bumpMiss key)
  if settings.missingGraceTicks ≤ count then
    (RepoBindingService.unlinkWorktree key).mapError .binding
    ask (.dropMiss key)
    return (pass.1 + 1, pass.2.filter (· ≠ key))
  else return (pass.1, pass.2 ++ [key])

def graceLink (settings : Settings) (repoId : RepoId) (pass : GracePass) (link : WorktreeLink) :
    DaemonProgram DaemonError GracePass :=
  if link.status ≠ .missingPath then return pass
  else do
    let key : WorktreeKey := ⟨repoId, link.path⟩
    match ← ask (.pathExists link.path (some key)) with
    | .error error => .fail (.port error)
    | .ok true =>
      ask (.dropMiss key)
      return pass
    | .ok false => missed settings pass key

def graceBinding (settings : Settings) (pass : GracePass) (binding : RepoCheckout) :
    DaemonProgram DaemonError GracePass :=
  Program.foldEach (graceLink settings binding.id) binding.worktrees.rows pass

def applyGracePrune (settings : Settings) (workspaceId : WorkspaceId) :
    DaemonProgram DaemonError GracePass := do
  let bindings ← (RepoBindingService.list workspaceId).mapError .binding
  Program.foldEach (graceBinding settings) bindings (0, [])

def prunePass (settings : Settings) (workspaceId : WorkspaceId) :
    DaemonProgram DaemonError GracePass :=
  if settings.prune then applyGracePrune settings workspaceId else return (0, [])

def workspaceTick (settings : Settings) (tick : TickReport × List WorktreeKey)
    (workspace : Workspace) : DaemonProgram DaemonError (TickReport × List WorktreeKey) := do
  let summary ← (RepoBindingService.reconcileWorktrees workspace.id false).mapError .binding
  let pass ← prunePass settings workspace.id
  return ({ workspaces := tick.1.workspaces + 1
            reposChecked := tick.1.reposChecked + summary.reposChecked
            worktreesChecked := tick.1.worktreesChecked + summary.worktreesChecked
            markedMissing := tick.1.markedMissing + summary.markedMissing
            pruned := tick.1.pruned + pass.1 }, tick.2 ++ pass.2)

def collectGarbage (settings : Settings) (validKeys : List WorktreeKey) :
    DaemonProgram DaemonError Unit :=
  if settings.prune then ask (.retainMisses validKeys) else return ()

def tickOnce (settings : Settings) : DaemonProgram DaemonError TickReport := do
  match ← ask .listWorkspaces with
  | .error error => .fail (.workspace error)
  | .ok workspaces =>
    let (report, validKeys) ← Program.foldEach (workspaceTick settings) workspaces ({}, [])
    collectGarbage settings validKeys
    return report

end Daemon

end RepoLink
