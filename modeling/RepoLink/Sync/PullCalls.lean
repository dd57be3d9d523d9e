import RepoLink.Sync.DrainCalls
import RepoLink.Sync.Inbound

/-!
The whole rows that a pull saves, whatever its reads are answered: the undo target, the adopted
task, and copies whose relations were reconciled.
-/

namespace RepoLink

open Effects Program

namespace SyncService

/-- An inbound reconcile carries amended copies of what was loaded: only relations differ. -/
structure Amends (task : Task) (state : Reconciliation) : Prop where
  subject : state.task.SameBut task
  neighbors : ∀ neighbor ∈ state.neighbors, neighbor.current.SameBut neighbor.loaded

variable {task : Task} {state : Reconciliation}

theorem Amends.start (task : Task) : Amends task ⟨task, [], [], false⟩ :=
  ⟨.refl task, fun _ member => (List.not_mem_nil member).elim⟩

theorem Amends.touch (amends : Amends task state) (other : TaskId)
    {change changeTask : Task → Task}
    (kept : ∀ task, (change task).SameBut task)
    (keptTask : ∀ task, (changeTask task).SameBut task) (notices : List SyncNotice) :
    let mirrored := state.updateNeighbor other change
    Amends task { mirrored with task := changeTask mirrored.task, notices, changed := true } := by
  refine ⟨(keptTask _).trans amends.subject, ?_⟩
  intro neighbor member
  obtain ⟨before, beforeMember, rfl⟩ := List.mem_map.mp member
  have same := amends.neighbors before beforeMember
  split
  · exact (kept _).trans same
  · exact same

theorem Amends.forget (amends : Amends task state) (other : TaskId) :
    Amends task (state.forget other) :=
  ⟨amends.subject, fun neighbor member => amends.neighbors neighbor (List.mem_of_mem_filter member)⟩

theorem loadNeighbor_amends (amends : Amends task state) (id : TaskId) :
    (loadNeighbor id state).Yields fun loaded => Amends task loaded.2 := by
  unfold loadNeighbor
  split
  · exact amends
  · refine (yields_any _).bind fun fresh _ => ⟨amends.subject, ?_⟩
    intro neighbor member
    rcases List.mem_append.mp member with old | new
    · exact amends.neighbors neighbor old
    · rw [List.mem_singleton.mp new]
      exact .refl fresh

theorem addEdge_amends (amends : Amends task state) (kind inverse : RelationKind)
    (current : List TaskId) (other : TaskId) :
    (addEdge kind inverse current state other).Yields (Amends task) := by
  unfold addEdge
  split
  · exact amends
  · refine (loadNeighbor_amends amends other).bind ?_
    rintro ⟨_, loaded⟩ held
    refine (yields_any _).bind fun now _ => ?_
    exact held.touch other (fun far => far.addRelation_sameBut now inverse state.task.id)
      (fun subject => subject.addRelation_sameBut now kind other) _

theorem removeEdge_amends (amends : Amends task state) (kind inverse : RelationKind)
    (desired : List TaskId) (other : TaskId) :
    (removeEdge kind inverse desired state other).Yields (Amends task) := by
  unfold removeEdge
  split
  · exact amends
  · refine (loadNeighbor_amends amends other).bind ?_
    rintro ⟨neighbor, loaded⟩ held
    dsimp only
    split
    · exact held.forget other
    · refine (yields_any _).bind fun now _ => ?_
      exact held.touch other (fun far => far.removeRelation_sameBut now inverse state.task.id)
        (fun subject => subject.removeRelation_sameBut now kind other) _

theorem reconcileFamily_amends (amends : Amends task state) (kind inverse : RelationKind)
    (desired : List TaskId) :
    (reconcileFamily kind inverse desired state).Yields (Amends task) := by
  refine (yields_foldEach (fun next other _ held => addEdge_amends held kind inverse _ other)
    amends).bind fun added held => ?_
  exact yields_foldEach (fun next other _ later => removeEdge_amends later kind inverse _ other) held

theorem reconcileParent_amends (amends : Amends task state) (parents : List RemoteChildIssue) :
    (reconcileParent parents state).Yields (Amends task) := by
  unfold reconcileParent
  split
  · exact amends
  · refine (yields_any _).bind ?_
    rintro ⟨mapped, untracked⟩ _
    dsimp only
    have noticed : ∀ notices, Amends task { state with notices := notices } :=
      fun _ => ⟨amends.subject, amends.neighbors⟩
    split
    · exact noticed _
    · exact reconcileFamily_amends (noticed _) ..

theorem gatherInbound_amends (task : Task) (filingCanonical remoteId : String) :
    (gatherInbound task filingCanonical remoteId).Yields (Amends task) := by
  refine (yields_any _).bind fun subs _ => (yields_any _).bind fun blockers _ => ?_
  refine (yields_any _).bind fun parents _ => (yields_any _).bind ?_
  rintro ⟨children, _⟩ _
  refine (yields_any _).bind ?_
  rintro ⟨blockedBy, _⟩ _
  refine (reconcileFamily_amends (.start task) ..).bind fun _ first => ?_
  exact (reconcileFamily_amends first ..).bind fun _ second => reconcileParent_amends second parents

theorem withNodeId_sync (nodeId : Option String) (task : Task) :
    (withNodeId nodeId task).sync = task.sync := by
  unfold withNodeId
  split <;> rfl

theorem withNodeId_remoteId (nodeId : Option String) (task : Task) :
    (withNodeId nodeId task).remote.map RemoteRef.remoteId =
      task.remote.map RemoteRef.remoteId := by
  unfold withNodeId
  split
  · rename_i remoteEq
    rw [remoteEq]
    rfl
  · rfl

theorem saveTask_saves {row : TaskWrite → Prop} {basis task : Task} {source : SnapshotSource}
    (entries : List OutboxEntry) (write : row ⟨some basis, task, source⟩) :
    (saveTask basis task source entries).Every (Saves row) :=
  @every_query _ _ (Saves row) (.saveAll _ entries) fun _ member =>
    List.mem_singleton.mp member ▸ write

theorem backfillNodeId_saves {row : TaskWrite → Prop} (taskId : TaskId)
    (nodeId : Option String) : (backfillNodeId taskId nodeId).Every (Saves row) := by
  cases nodeId with
  | none => trivial
  | some nodeId => exact saves_query (.cacheRemoteNodeId taskId nodeId) rfl

end SyncService

end RepoLink
