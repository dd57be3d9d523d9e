import RepoLink.Sync.DrainCalls
import RepoLink.Sync.Poller

/-!
A poll saves no whole row: everything it writes is a targeted statement.
-/

namespace RepoLink

open Effects Program

theorem saves_tryQuery {row : TaskWrite → Prop} {ε : Type} (op : StoreOp)
    (writeless : op.writes = []) :
    (tryQuery op : Service ε (Except PortError op.Answer)).Every (Saves row) := by
  refine every_callPort fun write member => ?_
  rw [writeless] at member
  cases member

namespace ProjectPoller

variable {row : TaskWrite → Prop}

theorem reconcileContent_saves (item : RemoteProjectItem) (task : Task) :
    (reconcileContent item task).Every (Saves row) := by
  refine every_bind (saves_tryQuery (.getTask task.id) rfl) fun answer => ?_
  split
  · unfold markDrift
    split
    · split
      · trivial
      · refine every_bind (saves_tryQuery (.markRemoteDirty task.id) rfl) fun marked => ?_
        split <;> trivial
    · trivial
  · trivial

theorem reconcilePriority_saves (project : Project) (item : RemoteProjectItem) (task : Task) :
    (reconcilePriority project item task).Every (Saves row) := by
  unfold reconcilePriority
  split
  · trivial
  · refine every_bind (every_bind (saves_tryQuery (.listPending task.id) rfl) fun answer => ?_) ?_
    · split <;> trivial
    · intro pending
      split
      split
      · trivial
      · refine every_bind (saves_tryQuery (.applyPolledPriority ..) rfl) fun applied => ?_
        split <;> trivial

theorem reconcileStatus_saves (item : RemoteProjectItem) (task : Task) :
    (reconcileStatus item task).Every (Saves row) := by
  unfold reconcileStatus
  split
  · trivial
  · refine every_bind (saves_tryQuery (.cacheProjectStatus ..) rfl) fun cached => ?_
    split <;> trivial

theorem reconcileItem_saves (project : Project) (pass : PollPass) (item : RemoteProjectItem) :
    (reconcileItem project pass item).Every (Saves row) := by
  unfold reconcileItem
  split
  · trivial
  · refine every_bind (reconcileContent_saves item _) ?_
    rintro ⟨⟨drifted, driftDone⟩, marked⟩
    refine every_bind (reconcilePriority_saves project item drifted) ?_
    rintro ⟨ranked, priorityDone⟩
    exact every_bind (reconcileStatus_saves item ranked) fun _ => trivial

theorem pollProject_saves (pass : PollPass) (project : Project) :
    (pollProject pass project).Every (Saves row) := by
  unfold pollProject
  split
  · trivial
  · refine every_bind (every_callPort trivial) fun answer => ?_
    split
    · trivial
    · exact every_bind (every_foldEach (reconcileItem_saves project) _ _) fun _ => trivial

theorem stampFreshness_saves (completed : List ProjectId) (refreshed : Nat) (task : Task) :
    (stampFreshness completed refreshed task).Every (Saves row) := by
  refine every_bind (every_bind (saves_tryQuery (.listProjectsByWorkspace _) rfl)
    fun answer => ?_) fun project => ?_
  · split <;> trivial
  · split
    · trivial
    · split
      · refine every_bind (every_clock trivial) fun now => ?_
        refine every_bind (saves_tryQuery (.cacheSyncedAt ..) rfl) fun stamped => ?_
        split <;> trivial
      · trivial

theorem pollOnce_saves (watermarks : Watermarks) : (pollOnce watermarks).Every (Saves row) := by
  refine every_bind (saves_query .listProjects rfl) fun projects => ?_
  dsimp only
  split
  · trivial
  · refine every_bind (every_bind (every_clock trivial) fun now => every_bind (saves_query (.listTasks _) rfl) fun _ => trivial) fun byItemId => ?_
    refine every_bind (every_foldEach pollProject_saves _ _) fun pass => ?_
    exact every_bind (every_foldEach (stampFreshness_saves _) _ _) fun _ => trivial

end ProjectPoller

end RepoLink
