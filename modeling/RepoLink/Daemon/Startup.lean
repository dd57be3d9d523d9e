import RepoLink.Sync.Mirror

/-!
What the daemon does to the outbox before its tasks run: entries that a crash left inflight are
made pending again, and dirty mirrors that nothing in the outbox speaks for get an entry.
-/

namespace RepoLink

open Effects

namespace Daemon

inductive StartupError where
  | port (error : PortError)
  | sync (error : PortError)
deriving DecidableEq, Repr

instance : OfPortError StartupError := ⟨.port⟩

def outboxCall (op : StoreOp) : Service StartupError op.Answer :=
  (query op : Service PortError op.Answer).mapError .sync

def requeueOrphanedInflight : Service StartupError Nat := outboxCall .requeueOrphanedInflight

/-- One round of the reconcile. A task that is no mirror of a repo, and one whose binding is not
found, is passed over. -/
def enqueueDirty (enqueued : Nat) (task : Task) : Service StartupError Nat :=
  match task.remote, task.repoId with
  | some remote, some repoId => do
    match ← tryQuery (.getBinding repoId) with
    | .error _ => return enqueued
    | .ok view =>
      let entry ← newEntry task.id
        (.updateRemote view.instanceRow.canonicalUrl remote.remoteId (some task.title)
          (some task.body) none)
      let inserted : Bool ← outboxCall (.enqueueIfAbsent entry)
      return if inserted then enqueued + 1 else enqueued
  | _, _ => return enqueued

def reconcileDirtyIntoOutbox : Service StartupError Nat := do
  let dirty ← query (.listTasks { syncState := some .dirtyLocal })
  Program.foldEach enqueueDirty dirty 0

/-- The start of `run_until`: a failure of either is logged. -/
def startup : Service StartupError Unit := do
  let _ ← (requeueOrphanedInflight.attempt : Service StartupError _)
  let _ ← (reconcileDirtyIntoOutbox.attempt : Service StartupError _)
  return ()

end Daemon

end RepoLink
