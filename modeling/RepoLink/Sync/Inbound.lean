import RepoLink.Ports.Changes
import RepoLink.Ports.Handler
import RepoLink.Sync.Address
import RepoLink.Sync.Pull

/-!
The inbound reconcile of relations as a function of what the remote lists and what is stored:
which edges it changes, and that its one batch holds the pulled task and the far ends.
-/

namespace RepoLink

open Effects Program KeyedTable

namespace Database

def localMirror (database : Database) (workspaceId : WorkspaceId) (item : RemoteChildIssue) :
    Option TaskId :=
  (database.findByCanonicalUrl workspaceId item.canonicalRepo).bind fun binding =>
    (database.findByRemote binding.instanceRow.originId "github" item.snapshot.remoteId).map (·.id)

def localMirrors (database : Database) (workspaceId : WorkspaceId)
    (items : List RemoteChildIssue) : List TaskId :=
  items.filterMap (database.localMirror workspaceId)

def backed (database : Database) (id : TaskId) : Bool :=
  (database.stored id).any fun task => task.remote.isSome

end Database

def Task.related (kind : RelationKind) (task : Task) : List TaskId :=
  (task.relations.filter fun relation => relation.kind = kind).map (·.other)

def Database.edgeChanges (database : Database) (task : Task) (kind : RelationKind)
    (desired : List TaskId) : List TaskId :=
  (desired.filter fun other => other ≠ task.id ∧ other ∉ task.related kind) ++
    (task.related kind).filter fun other =>
      other ≠ task.id ∧ other ∉ desired ∧ database.backed other = true

def Database.inboundChanges (database : Database) (task : Task)
    (subs blockers parents : List RemoteChildIssue) : List TaskId :=
  let mirrors := database.localMirrors task.workspaceId
  let desiredParents := (mirrors parents).filter fun id => id ≠ task.id
  database.edgeChanges task .parentOf (mirrors subs) ++
    database.edgeChanges task .blockedBy (mirrors blockers) ++
    if desiredParents.isEmpty then [] else database.edgeChanges task .childOf desiredParents

/-- Equal but for relations and `updated_at`. -/
def Task.SameBut (left right : Task) : Prop :=
  ∃ relations updatedAt, left = { right with relations, updatedAt }

theorem Task.SameBut.refl (task : Task) : task.SameBut task := ⟨task.relations, task.updatedAt, rfl⟩

theorem Task.SameBut.trans {first second third : Task} (left : first.SameBut second)
    (right : second.SameBut third) : first.SameBut third := by
  obtain ⟨relations, updatedAt, rfl⟩ := left
  obtain ⟨_, _, rfl⟩ := right
  exact ⟨relations, updatedAt, rfl⟩

theorem Task.addRelation_sameBut (now : Timestamp) (kind : RelationKind) (other : TaskId)
    (task : Task) : (task.addRelation now kind other).SameBut task := by
  unfold addRelation touch
  split
  · exact .refl task
  · exact ⟨_, _, rfl⟩

theorem Task.removeRelation_sameBut (now : Timestamp) (kind : RelationKind) (other : TaskId)
    (task : Task) : (task.removeRelation now kind other).2.SameBut task := by
  unfold removeRelation touch
  dsimp only
  split <;> exact ⟨_, _, rfl⟩

theorem Task.related_addRelation {now : Timestamp} {kind other : RelationKind} {id : TaskId}
    {task : Task} (different : other ≠ kind) :
    (task.addRelation now kind id).related other = task.related other := by
  unfold addRelation touch related
  split
  · rfl
  · simp [List.filter_append, different.symm]

theorem Task.related_removeRelation {now : Timestamp} {kind other : RelationKind} {id : TaskId}
    {task : Task} (different : other ≠ kind) :
    (task.removeRelation now kind id).2.related other = task.related other := by
  have kept : (task.relations.filter fun relation =>
      decide ¬(relation.kind = kind ∧ relation.other = id)).filter
        (fun relation => decide (relation.kind = other)) =
      task.relations.filter fun relation => decide (relation.kind = other) := by
    rw [List.filter_filter]
    refine List.filter_congr ?_
    intro relation _
    by_cases same : relation.kind = other
    · simp [same, different]
    · simp [same]
  unfold removeRelation touch related
  dsimp only
  split <;> simp only [kept]

theorem ensureNotArchived_every {allowed : PortOp → Prop} (task : Task) :
    (ensureNotArchived task).Every allowed := by
  unfold ensureNotArchived
  split <;> trivial

theorem ensureNotArchived_quiet (task : Task) : (ensureNotArchived task).Every PortOp.quiet :=
  ensureNotArchived_every task

namespace SyncService

theorem findMirror_quiet (workspaceId : WorkspaceId) (item : RemoteChildIssue) :
    (findMirror workspaceId item).Every PortOp.quiet := by
  refine every_bind (every_query rfl) ?_
  intro binding
  split
  · trivial
  · exact every_query rfl

theorem mapRemoteToLocal_quiet (workspaceId : WorkspaceId) :
    ∀ items : List RemoteChildIssue, (mapRemoteToLocal workspaceId items).Every PortOp.quiet := by
  intro items
  induction items with
  | nil => trivial
  | cons item rest ih =>
      refine every_bind (findMirror_quiet workspaceId item) ?_
      intro mirror
      refine every_bind ih ?_
      intro mapped
      cases mirror <;> trivial

theorem runs_findMirror {workspaceId : WorkspaceId} {item : RemoteChildIssue}
    {database after : Database} {mirror : Option Task}
    (ran : (findMirror workspaceId item).Runs portMeaning database (.ok mirror) after) :
    mirror.map Task.id = database.localMirror workspaceId item := by
  obtain ⟨binding, ranBinding, rest⟩ := runs_quiet_bind
    (query_quiet (.findByCanonicalUrl workspaceId item.canonicalRepo) rfl) ran
  have bindingEq := ((runs_query_ok rfl).mp ranBinding).2
  have found : database.findByCanonicalUrl workspaceId item.canonicalRepo = binding :=
    Except.ok.inj bindingEq
  unfold Database.localMirror
  rw [found]
  cases binding with
  | none =>
      obtain ⟨mirrorEq, _⟩ := rest
      cases mirrorEq
      rfl
  | some binding =>
      have mirrorEq := ((runs_query_ok rfl).mp rest).2
      exact congrArg (Option.map Task.id) (Except.ok.inj mirrorEq).symm

theorem runs_mapRemoteToLocal {workspaceId : WorkspaceId} {database : Database} :
    ∀ {items : List RemoteChildIssue} {mapped : List TaskId × List RemoteChildIssue}
      {after : Database},
      (mapRemoteToLocal workspaceId items).Runs portMeaning database (.ok mapped) after →
      mapped.1 = database.localMirrors workspaceId items := by
  intro items
  induction items with
  | nil =>
      intro mapped after ran
      cases ran.1
      rfl
  | cons item rest ih =>
      intro mapped after ran
      obtain ⟨mirror, ranMirror, ran⟩ := runs_quiet_bind (findMirror_quiet workspaceId item) ran
      obtain ⟨inner, ranRest, ran⟩ := runs_quiet_bind (mapRemoteToLocal_quiet workspaceId rest) ran
      have first := runs_findMirror ranMirror
      have others := ih ranRest
      unfold Database.localMirrors at others ⊢
      rw [List.filterMap_cons, ← first]
      cases mirror with
      | none =>
          cases ran.1
          exact others
      | some task =>
          cases ran.1
          exact congrArg (List.cons task.id) others

/-- What the reconcile of `task` carries once the edges to the tasks in `far` have changed. -/
structure Follows (database : Database) (task : Task) (far : TaskId → Prop)
    (state : Reconciliation) : Prop where
  subject : state.task.SameBut task
  loaded : ∀ neighbor ∈ state.neighbors, database.stored neighbor.loaded.id = some neighbor.loaded ∧
    neighbor.loaded.remote.isSome ∧ neighbor.loaded.id ≠ task.id ∧
    neighbor.current.SameBut neighbor.loaded
  touched : ∀ id, (∃ neighbor ∈ state.neighbors, neighbor.loaded.id = id) ↔ far id
  changed : state.changed = true ↔ ∃ id, far id

theorem Follows.congr {database : Database} {task : Task} {far far' : TaskId → Prop}
    {state : Reconciliation} (follows : Follows database task far state)
    (same : ∀ id, far id ↔ far' id) : Follows database task far' state := by
  have farEq : far = far' := funext fun id => propext (same id)
  exact farEq ▸ follows

theorem Follows.id {database : Database} {task : Task} {far : TaskId → Prop}
    {state : Reconciliation} (follows : Follows database task far state) :
    state.task.id = task.id := by
  obtain ⟨relations, updatedAt, taskEq⟩ := follows.subject
  rw [taskEq]

theorem Follows.start (database : Database) (task : Task) :
    Follows database task (fun _ => False) ⟨task, [], [], false⟩ :=
  ⟨.refl task, fun _ member => (List.not_mem_nil member).elim, by simp, by simp⟩

theorem loadNeighbor_quiet (id : TaskId) (state : Reconciliation) :
    (loadNeighbor id state).Every PortOp.quiet := by
  unfold loadNeighbor
  split
  · trivial
  · exact every_bind (getTask_quiet id) fun _ => trivial

theorem runs_loadNeighbor {database after : Database} {id : TaskId} {state : Reconciliation}
    {result : Neighbor × Reconciliation}
    (ran : (loadNeighbor id state).Runs portMeaning database (.ok result) after) :
    (result.1 ∈ state.neighbors ∧ result.1.loaded.id = id ∧ result.2 = state) ∨
      (∀ neighbor ∈ state.neighbors, neighbor.loaded.id ≠ id) ∧ ∃ task,
        database.stored id = some task ∧ result.1 = ⟨task, task⟩ ∧
          result.2 = { state with neighbors := state.neighbors ++ [⟨task, task⟩] } := by
  unfold loadNeighbor at ran
  split at ran
  · rename_i neighbor found
    cases ran.1
    exact .inl ⟨List.mem_of_find?_eq_some found, by simpa using List.find?_some found, rfl⟩
  · rename_i missing
    obtain ⟨task, ranLoad, rest⟩ := runs_quiet_bind (getTask_quiet id) ran
    cases rest.1
    refine .inr ⟨?_, task, runs_getTask ranLoad, rfl, rfl⟩
    simpa [Reconciliation.neighbor, List.find?_eq_none] using missing

/-- One edge changed on both sides. -/
theorem Follows.touch {database : Database} {task : Task} {far : TaskId → Prop}
    {state : Reconciliation} {other : TaskId} {result : Neighbor × Reconciliation}
    (follows : Follows database task far state) (different : other ≠ task.id)
    (backed : result.1.loaded.remote.isSome)
    (loaded : (loadNeighbor other state).Runs portMeaning database (.ok result) database)
    {change changeTask : Task → Task} (kept : ∀ task, (change task).SameBut task)
    (keptTask : ∀ task, (changeTask task).SameBut task) (notices : List SyncNotice) :
    let mirrored := result.2.updateNeighbor other change
    Follows database task (fun id => far id ∨ id = other)
      { mirrored with task := changeTask mirrored.task, notices, changed := true } := by
  have cached : (∀ neighbor ∈ result.2.neighbors,
      database.stored neighbor.loaded.id = some neighbor.loaded ∧
      neighbor.loaded.remote.isSome ∧ neighbor.loaded.id ≠ task.id ∧
      neighbor.current.SameBut neighbor.loaded) ∧
      (∀ id, (∃ neighbor ∈ result.2.neighbors, neighbor.loaded.id = id) ↔ far id ∨ id = other) ∧
      result.2.task = state.task := by
    obtain ⟨neighbor, cache⟩ := result
    rcases runs_loadNeighbor loaded with ⟨member, idEq, rfl⟩ | ⟨_, fresh, stored, rfl, rfl⟩
    · refine ⟨follows.loaded, ?_, rfl⟩
      intro id
      rw [follows.touched id]
      refine ⟨.inl, ?_⟩
      rintro (already | rfl)
      · exact already
      · exact (follows.touched id).mp ⟨neighbor, member, idEq⟩
    · have idEq : fresh.id = other := Database.stored_id stored
      refine ⟨?_, ?_, rfl⟩
      · intro added member
        rcases List.mem_append.mp member with old | new
        · exact follows.loaded added old
        · rw [List.mem_singleton.mp new]
          exact ⟨idEq.symm ▸ stored, backed, idEq.symm ▸ different, .refl fresh⟩
      · intro id
        simp only [List.mem_append, List.mem_singleton, or_and_right, exists_or, exists_eq_left,
          follows.touched id, idEq]
        exact or_congr Iff.rfl eq_comm
  intro mirrored
  refine ⟨?_, ?_, ?_, ?_⟩
  · exact (keptTask _).trans (cached.2.2 ▸ follows.subject)
  · intro neighbor member
    obtain ⟨before, beforeMember, rfl⟩ := List.mem_map.mp member
    obtain ⟨stored, remote, apart, same⟩ := cached.1 before beforeMember
    split
    · exact ⟨stored, remote, apart, (kept _).trans same⟩
    · exact ⟨stored, remote, apart, same⟩
  · intro id
    rw [← cached.2.1 id]
    constructor
    · rintro ⟨neighbor, member, idEq⟩
      obtain ⟨before, beforeMember, rfl⟩ := List.mem_map.mp member
      refine ⟨before, beforeMember, ?_⟩
      split at idEq <;> exact idEq
    · rintro ⟨neighbor, member, idEq⟩
      refine ⟨_, List.mem_map_of_mem member, ?_⟩
      split <;> exact idEq
  · exact ⟨fun _ => ⟨other, .inr rfl⟩, fun _ => rfl⟩

def KeepsOtherKinds (kind : RelationKind) (start state : Reconciliation) : Prop :=
  ∀ other, other ≠ kind → state.task.related other = start.task.related other

theorem addEdge_quiet (kind inverse : RelationKind) (current : List TaskId)
    (state : Reconciliation) (other : TaskId) :
    (addEdge kind inverse current state other).Every PortOp.quiet := by
  unfold addEdge
  split
  · trivial
  · refine every_bind (loadNeighbor_quiet other state) ?_
    rintro ⟨_, loaded⟩
    exact every_bind (every_clock trivial) fun _ => trivial

theorem removeEdge_quiet (kind inverse : RelationKind) (desired : List TaskId)
    (state : Reconciliation) (other : TaskId) :
    (removeEdge kind inverse desired state other).Every PortOp.quiet := by
  unfold removeEdge
  split
  · trivial
  · refine every_bind (loadNeighbor_quiet other state) ?_
    rintro ⟨neighbor, loaded⟩
    dsimp only
    split
    · trivial
    · exact every_bind (every_clock trivial) fun _ => trivial

theorem loadNeighbor_task {database after : Database} {id : TaskId} {state : Reconciliation}
    {result : Neighbor × Reconciliation}
    (ran : (loadNeighbor id state).Runs portMeaning database (.ok result) after) :
    result.2.task = state.task := by
  rcases runs_loadNeighbor ran with ⟨_, _, same⟩ | ⟨_, _, _, _, same⟩ <;> rw [same]

theorem Follows.stored {database : Database} {task : Task} {far : TaskId → Prop}
    {state : Reconciliation} {other : TaskId} {result : Neighbor × Reconciliation}
    (follows : Follows database task far state)
    (ran : (loadNeighbor other state).Runs portMeaning database (.ok result) database) :
    database.stored other = some result.1.loaded ∧ result.1.current.SameBut result.1.loaded := by
  rcases runs_loadNeighbor ran with ⟨member, rfl, _⟩ | ⟨_, task, stored, same, _⟩
  · exact ⟨(follows.loaded _ member).1, (follows.loaded _ member).2.2.2⟩
  · rw [same]
    exact ⟨stored, .refl task⟩

theorem Follows.addEdge_cases {database after : Database} {task : Task} {far : TaskId → Prop}
    {state next : Reconciliation} {kind inverse : RelationKind} {current : List TaskId}
    {other : TaskId} (follows : Follows database task far state)
    (ran : (SyncService.addEdge kind inverse current state other).Runs portMeaning database
      (.ok next) after) :
    next = state ∧ ¬(other ≠ task.id ∧ other ∉ current) ∨
      ∃ (neighbor : Neighbor) (loaded : Reconciliation) (now : Timestamp),
        (loadNeighbor other state).Runs portMeaning database (.ok (neighbor, loaded)) database ∧
        (other ≠ task.id ∧ other ∉ current) ∧
        let mirrored := loaded.updateNeighbor other fun other => other.addRelation now inverse task.id
        next = { mirrored with
          task := mirrored.task.addRelation now kind other
          notices := mirrored.notices ++ [.relationReconciled task.id kind true other]
          changed := true } := by
  unfold SyncService.addEdge at ran
  rw [follows.id] at ran
  split at ran
  · rename_i skipped
    cases ran.1
    exact .inl ⟨rfl, fun owed => skipped.elim owed.1 owed.2⟩
  · rename_i owed
    rw [not_or] at owed
    obtain ⟨⟨neighbor, loaded⟩, ranLoad, ran⟩ := runs_quiet_bind (loadNeighbor_quiet other state) ran
    obtain ⟨now, _, ran⟩ := runs_quiet_bind (every_clock trivial) ran
    cases ran.1
    exact .inr ⟨neighbor, loaded, now, ranLoad, owed, rfl⟩

theorem Follows.addEdge {database after : Database} {task : Task} {far : TaskId → Prop}
    {state next : Reconciliation} {kind inverse : RelationKind} {current : List TaskId}
    {other : TaskId} (follows : Follows database task far state)
    (backed : ∀ stored, database.stored other = some stored → stored.remote.isSome)
    (ran : (SyncService.addEdge kind inverse current state other).Runs portMeaning database
      (.ok next) after) :
    Follows database task
        (fun id => far id ∨ (id = other ∧ id ≠ task.id ∧ id ∉ current)) next ∧
      KeepsOtherKinds kind state next ∧ after = database := by
  have unchanged := runs_quiet (addEdge_quiet ..) ran
  rcases follows.addEdge_cases ran with
    ⟨rfl, nothing⟩ | ⟨neighbor, loaded, now, ranLoad, owed, rfl⟩
  · refine ⟨follows.congr fun id => ⟨.inl, ?_⟩, fun _ _ => rfl, unchanged⟩
    rintro (already | ⟨rfl, owed⟩)
    · exact already
    · exact (nothing owed).elim
  · refine ⟨(follows.touch owed.1 (backed _ (follows.stored ranLoad).1) ranLoad
      (Task.addRelation_sameBut now inverse _) (Task.addRelation_sameBut now kind other)
      _).congr ?_, ?_, unchanged⟩
    · intro id
      refine or_congr Iff.rfl ⟨?_, And.left⟩
      rintro rfl
      exact ⟨rfl, owed⟩
    · intro family different
      rw [Task.related_addRelation different]
      exact congrArg (Task.related family) (loadNeighbor_task ranLoad)

theorem forget_loaded {database after : Database} {task : Task} {far : TaskId → Prop}
    {state : Reconciliation} {other : TaskId} {result : Neighbor × Reconciliation}
    (follows : Follows database task far state)
    (ran : (loadNeighbor other state).Runs portMeaning database (.ok result) after)
    (unbacked : result.1.current.remote.isNone = true) : result.2.forget other = state := by
  rcases runs_loadNeighbor ran with ⟨member, _, _⟩ | ⟨absent, fresh, stored, _, same⟩
  · obtain ⟨_, backed, _, relations, updatedAt, currentEq⟩ := follows.loaded _ member
    rw [currentEq] at unbacked
    simp only [Option.isNone_iff_eq_none] at unbacked
    simp [unbacked] at backed
  · have idEq : fresh.id = other := Database.stored_id stored
    rw [same]
    unfold Reconciliation.forget
    dsimp only
    have kept : (state.neighbors ++ [Neighbor.mk fresh fresh]).filter
        (fun neighbor => decide (neighbor.loaded.id ≠ other)) = state.neighbors := by
      rw [List.filter_append, List.filter_eq_self.mpr (by simpa using absent)]
      simp [idEq]
    rw [kept]

/-- The edge stays, or the far end has an issue and both ends drop it. -/
theorem Follows.removeEdge_cases {database after : Database} {task : Task} {far : TaskId → Prop}
    {state next : Reconciliation} {kind inverse : RelationKind} {desired : List TaskId}
    {other : TaskId} (follows : Follows database task far state)
    (ran : (SyncService.removeEdge kind inverse desired state other).Runs portMeaning database
      (.ok next) after) :
    next = state ∧ ¬(other ≠ task.id ∧ other ∉ desired ∧ database.backed other = true) ∨
      ∃ (neighbor : Neighbor) (loaded : Reconciliation) (now : Timestamp),
        (loadNeighbor other state).Runs portMeaning database (.ok (neighbor, loaded)) database ∧
        (other ≠ task.id ∧ other ∉ desired ∧ database.backed other = true) ∧
        let mirrored := loaded.updateNeighbor other fun other =>
          (other.removeRelation now inverse task.id).2
        next = { mirrored with
          task := (mirrored.task.removeRelation now kind other).2
          notices := mirrored.notices ++ [.relationReconciled task.id kind false other]
          changed := true } := by
  unfold SyncService.removeEdge at ran
  rw [follows.id] at ran
  split at ran
  · rename_i skipped
    cases ran.1
    exact .inl ⟨rfl, fun owed => skipped.elim owed.1 owed.2.1⟩
  · rename_i owed
    rw [not_or] at owed
    obtain ⟨⟨neighbor, loaded⟩, ranLoad, ran⟩ := runs_quiet_bind (loadNeighbor_quiet other state) ran
    obtain ⟨stored, relations, updatedAt, currentEq⟩ := follows.stored ranLoad
    have backedEq : database.backed other = neighbor.current.remote.isSome := by
      rw [Database.backed, stored, Option.any_some, currentEq]
    dsimp only at ran
    split at ran
    · rename_i unbacked
      cases ran.1
      refine .inl ⟨forget_loaded follows ranLoad unbacked, fun owed => ?_⟩
      rw [backedEq, Option.isNone_iff_eq_none.mp unbacked] at owed
      cases owed.2.2
    · rename_i backed
      rw [Bool.not_eq_true, Option.isNone_eq_false_iff] at backed
      obtain ⟨now, _, ran⟩ := runs_quiet_bind (every_clock trivial) ran
      cases ran.1
      exact .inr ⟨neighbor, loaded, now, ranLoad, ⟨owed.1, owed.2, backedEq.trans backed⟩, rfl⟩

theorem Follows.removeEdge {database after : Database} {task : Task} {far : TaskId → Prop}
    {state next : Reconciliation} {kind inverse : RelationKind} {desired : List TaskId}
    {other : TaskId} (follows : Follows database task far state)
    (ran : (SyncService.removeEdge kind inverse desired state other).Runs portMeaning database
      (.ok next) after) :
    Follows database task
        (fun id => far id ∨
          (id = other ∧ id ≠ task.id ∧ id ∉ desired ∧ database.backed id = true)) next ∧
      KeepsOtherKinds kind state next ∧ after = database := by
  have unchanged := runs_quiet (removeEdge_quiet ..) ran
  rcases follows.removeEdge_cases ran with
    ⟨rfl, nothing⟩ | ⟨neighbor, loaded, now, ranLoad, owed, rfl⟩
  · refine ⟨follows.congr fun id => ⟨.inl, ?_⟩, fun _ _ => rfl, unchanged⟩
    rintro (already | ⟨rfl, owed⟩)
    · exact already
    · exact (nothing owed).elim
  · have backed : neighbor.loaded.remote.isSome = true := by
      have held := owed.2.2
      rw [Database.backed, (follows.stored ranLoad).1, Option.any_some] at held
      exact held
    refine ⟨(follows.touch owed.1 backed ranLoad
      (Task.removeRelation_sameBut now inverse _) (Task.removeRelation_sameBut now kind other)
      _).congr ?_, ?_, unchanged⟩
    · intro id
      refine or_congr Iff.rfl ⟨?_, And.left⟩
      rintro rfl
      exact ⟨rfl, owed⟩
    · intro family different
      rw [Task.related_removeRelation different]
      exact congrArg (Task.related family) (loadNeighbor_task ranLoad)

theorem reconcileFamily_quiet (kind inverse : RelationKind) (desired : List TaskId)
    (state : Reconciliation) :
    (reconcileFamily kind inverse desired state).Every PortOp.quiet := by
  refine every_bind (every_foldEach (addEdge_quiet kind inverse _) desired state) ?_
  intro added
  exact every_foldEach (removeEdge_quiet kind inverse desired) _ added

theorem Follows.loop {database after : Database} {task : Task} {far : TaskId → Prop}
    {state next : Reconciliation} {kind : RelationKind} (wanted : TaskId → Bool)
    {items : List TaskId} {body : Reconciliation → TaskId → Action Reconciliation}
    (each : ∀ far state next after other, other ∈ items → Follows database task far state →
      (body state other).Runs portMeaning database (.ok next) after →
      Follows database task (fun id => far id ∨ (id = other ∧ wanted id = true)) next ∧
        KeepsOtherKinds kind state next ∧ after = database)
    (follows : Follows database task far state)
    (ran : (foldEach body items state).Runs portMeaning database (.ok next) after) :
    Follows database task (fun id => far id ∨ id ∈ items.filter wanted) next ∧
      KeepsOtherKinds kind state next := by
  have round : ∀ done item value next before after, item ∈ items →
      (Follows database task (fun id => far id ∨ id ∈ done.filter wanted) value ∧
        KeepsOtherKinds kind state value ∧ before = database) →
      (body value item).Runs portMeaning before (.ok next) after →
      Follows database task (fun id => far id ∨ id ∈ (done ++ [item]).filter wanted) next ∧
        KeepsOtherKinds kind state next ∧ after = database := by
    rintro done item value next before after member ⟨held, kept, rfl⟩ ran
    obtain ⟨moved, others, same⟩ := each _ value next after item member held ran
    refine ⟨moved.congr ?_, fun other different => (others other different).trans
      (kept other different), same⟩
    intro id
    rw [List.filter_append, List.mem_append, or_assoc]
    simp
  have start : Follows database task (fun id => far id ∨ id ∈ ([] : List TaskId).filter wanted)
      state ∧ KeepsOtherKinds kind state state ∧ database = database :=
    ⟨follows.congr (by simp), fun _ _ => rfl, rfl⟩
  have ended := runs_foldEach round (List.Subset.refl items) start ran
  rw [List.nil_append] at ended
  exact ⟨ended.1, ended.2.1⟩

theorem Follows.family {database after : Database} {task : Task} {far : TaskId → Prop}
    {state next : Reconciliation} {kind inverse : RelationKind} {desired : List TaskId}
    (follows : Follows database task far state)
    (related : state.task.related kind = task.related kind)
    (backed : ∀ other ∈ desired, ∀ stored, database.stored other = some stored →
      stored.remote.isSome)
    (ran : (reconcileFamily kind inverse desired state).Runs portMeaning database (.ok next)
      after) :
    Follows database task (fun id => far id ∨ id ∈ database.edgeChanges task kind desired) next ∧
      KeepsOtherKinds kind state next := by
  have currentEq : state.related kind = task.related kind := related
  unfold reconcileFamily at ran
  rw [currentEq] at ran
  obtain ⟨added, ranAdd, ranRemove⟩ := runs_quiet_bind
    (every_foldEach (addEdge_quiet kind inverse _) desired state) ran
  obtain ⟨adding, keptAdding⟩ := Follows.loop
    (fun id => id ≠ task.id ∧ id ∉ task.related kind)
    (fun far state next after other member follows ran => by
      obtain ⟨moved, rest⟩ := follows.addEdge (backed other member) ran
      exact ⟨moved.congr (by simp), rest⟩) follows ranAdd
  obtain ⟨removing, keptRemoving⟩ := Follows.loop
    (fun id => id ≠ task.id ∧ id ∉ desired ∧ database.backed id = true)
    (fun far state next after other member follows ran => by
      obtain ⟨moved, rest⟩ := follows.removeEdge ran
      exact ⟨moved.congr (by simp), rest⟩) adding ranRemove
  refine ⟨removing.congr ?_, fun other different => (keptRemoving other different).trans
    (keptAdding other different)⟩
  intro id
  rw [Database.edgeChanges, List.mem_append, or_assoc]

theorem localMirror_backed {database : Database} {workspaceId : WorkspaceId}
    {items : List RemoteChildIssue} {id : TaskId} {task : Task}
    (member : id ∈ database.localMirrors workspaceId items)
    (stored : database.stored id = some task) : task.remote.isSome := by
  obtain ⟨item, _, mirrored⟩ := List.mem_filterMap.mp member
  obtain ⟨binding, _, found⟩ := Option.bind_eq_some_iff.mp mirrored
  obtain ⟨mirror, mirrorFound, rfl⟩ := Option.map_eq_some_iff.mp found
  obtain ⟨record, recordFound, rfl⟩ := Option.map_eq_some_iff.mp mirrorFound
  have same : database.stored record.load.id = some record.load := by
    unfold Database.stored Database.record
    rw [TaskRecord.load_id, Table.find_of_mem (List.mem_of_find?_eq_some recordFound)]
    rfl
  rw [same] at stored
  cases stored
  have mirrors := List.find?_some recordFound
  unfold Database.mirrors at mirrors
  cases remoteEq : record.row.remote with
  | none => simp [remoteEq] at mirrors
  | some remote =>
      change record.row.remote.isSome = true
      rw [remoteEq]
      rfl

theorem reconcileParent_quiet (parents : List RemoteChildIssue) (state : Reconciliation) :
    (reconcileParent parents state).Every PortOp.quiet := by
  unfold reconcileParent
  split
  · trivial
  · refine every_bind (mapRemoteToLocal_quiet _ _) ?_
    rintro ⟨mapped, untracked⟩
    dsimp only
    split
    · trivial
    · exact reconcileFamily_quiet ..

theorem runs_reconcileParent {database after : Database} {state next : Reconciliation}
    {parents : List RemoteChildIssue}
    (ran : (reconcileParent parents state).Runs portMeaning database (.ok next) after) :
    let desired := (database.localMirrors state.task.workspaceId parents).filter fun id =>
      id ≠ state.task.id
    ∃ notices, desired.isEmpty = true ∧ next = { state with notices } ∨
      ¬desired.isEmpty = true ∧
        (reconcileFamily .childOf .parentOf desired { state with notices }).Runs portMeaning
          database (.ok next) after := by
  intro desired
  unfold reconcileParent at ran
  split at ran
  · rename_i empty
    cases ran.1
    have noParents : desired.isEmpty = true := by
      simp only [desired, List.isEmpty_iff.mp empty]
      rfl
    exact ⟨state.notices, .inl ⟨noParents, rfl⟩⟩
  · obtain ⟨⟨mapped, untracked⟩, ranMapped, ran⟩ :=
      runs_quiet_bind (mapRemoteToLocal_quiet _ _) ran
    obtain rfl : mapped = database.localMirrors state.task.workspaceId parents :=
      runs_mapRemoteToLocal ranMapped
    dsimp only at ran
    split at ran
    · rename_i empty
      cases ran.1
      exact ⟨_, .inl ⟨empty, rfl⟩⟩
    · rename_i wanted
      exact ⟨_, .inr ⟨wanted, ran⟩⟩

theorem Follows.parent {database after : Database} {task : Task} {far : TaskId → Prop}
    {state next : Reconciliation} {parents : List RemoteChildIssue}
    (follows : Follows database task far state)
    (related : state.task.related .childOf = task.related .childOf)
    (ran : (reconcileParent parents state).Runs portMeaning database (.ok next) after) :
    let desired := (database.localMirrors task.workspaceId parents).filter fun id => id ≠ task.id
    Follows database task (fun id => far id ∨
      id ∈ if desired.isEmpty then [] else database.edgeChanges task .childOf desired) next := by
  intro desired
  have workspaceEq : state.task.workspaceId = task.workspaceId := by
    obtain ⟨_, _, taskEq⟩ := follows.subject
    rw [taskEq]
  have noticed : ∀ notices, Follows database task far { state with notices } :=
    fun notices => ⟨follows.subject, follows.loaded, follows.touched, follows.changed⟩
  obtain ⟨notices, ⟨empty, rfl⟩ | ⟨wanted, ran⟩⟩ := runs_reconcileParent ran
  · rw [workspaceEq, follows.id] at empty
    refine (noticed notices).congr fun id => ?_
    rw [if_pos empty]
    exact ⟨.inl, fun either => either.elim (fun held => held) fun absent =>
      (List.not_mem_nil absent).elim⟩
  · rw [workspaceEq, follows.id] at wanted ran
    have backed : ∀ other ∈ desired, ∀ stored, database.stored other = some stored →
        stored.remote.isSome :=
      fun other member stored found => localMirror_backed (List.mem_of_mem_filter member) found
    refine ((noticed notices).family related backed ran).1.congr fun id => ?_
    rw [if_neg wanted]

theorem gatherInbound_quiet (task : Task) (filingCanonical remoteId : String) :
    (gatherInbound task filingCanonical remoteId).Every PortOp.quiet := by
  refine every_bind (every_remote trivial) fun subs => ?_
  refine every_bind (every_remote trivial) fun blockers => ?_
  refine every_bind (every_remote trivial) fun parents => ?_
  refine every_bind (mapRemoteToLocal_quiet _ _) fun children => ?_
  refine every_bind (mapRemoteToLocal_quiet _ _) fun blocked => ?_
  refine every_bind (reconcileFamily_quiet ..) fun _ => ?_
  exact every_bind (reconcileFamily_quiet ..) fun _ => reconcileParent_quiet ..

theorem runs_gatherInbound_steps {provider : Provider} {task : Task}
    {filingCanonical remoteId : String} {database after : Database} {state : Reconciliation}
    (ran : (gatherInbound task filingCanonical remoteId).Runs (portsOf provider) database
      (.ok state) after) :
    ∃ (subs blockers parents : List RemoteChildIssue) (children blocked : Reconciliation),
      provider (.fetchSubIssues filingCanonical remoteId) = .ok subs ∧
      provider (.fetchBlockedBy filingCanonical remoteId) = .ok blockers ∧
      provider (.fetchParent filingCanonical remoteId) = .ok parents ∧
      (reconcileFamily .parentOf .childOf (database.localMirrors task.workspaceId subs)
        ⟨task, [], [], false⟩).Runs portMeaning database (.ok children) database ∧
      (reconcileFamily .blockedBy .blocks (database.localMirrors task.workspaceId blockers)
        children).Runs portMeaning database (.ok blocked) database ∧
      (reconcileParent parents blocked).Runs portMeaning database (.ok state) after := by
  obtain ⟨subs, ranSubs, ran⟩ := runs_quiet_bind_portsOf_ok (every_remote trivial) ran
  obtain ⟨blockers, ranBlockers, ran⟩ := runs_quiet_bind_portsOf_ok (every_remote trivial) ran
  obtain ⟨parents, ranParents, ran⟩ := runs_quiet_bind_portsOf_ok (every_remote trivial) ran
  obtain ⟨⟨desiredChildren, _⟩, ranMirrors, ran⟩ :=
    runs_quiet_bind_portsOf_ok (mapRemoteToLocal_quiet _ _) ran
  obtain rfl : desiredChildren = database.localMirrors task.workspaceId subs :=
    runs_mapRemoteToLocal (runs_portsOf ranMirrors)
  obtain ⟨⟨desiredBlockers, _⟩, ranMirrors, ran⟩ :=
    runs_quiet_bind_portsOf_ok (mapRemoteToLocal_quiet _ _) ran
  obtain rfl : desiredBlockers = database.localMirrors task.workspaceId blockers :=
    runs_mapRemoteToLocal (runs_portsOf ranMirrors)
  obtain ⟨children, ranChildren, ran⟩ := runs_quiet_bind_portsOf_ok (reconcileFamily_quiet ..) ran
  obtain ⟨blocked, ranBlocked, ran⟩ := runs_quiet_bind_portsOf_ok (reconcileFamily_quiet ..) ran
  exact ⟨subs, blockers, parents, children, blocked, runs_remote ranSubs, runs_remote ranBlockers,
    runs_remote ranParents, runs_portsOf ranChildren, runs_portsOf ranBlocked, runs_portsOf ran⟩

theorem runs_gatherInbound {provider : Provider} {task : Task} {filingCanonical remoteId : String}
    {database after : Database} {state : Reconciliation}
    (ran : (gatherInbound task filingCanonical remoteId).Runs (portsOf provider) database
      (.ok state) after) :
    ∃ subs blockers parents : List RemoteChildIssue,
      provider (.fetchSubIssues filingCanonical remoteId) = .ok subs ∧
      provider (.fetchBlockedBy filingCanonical remoteId) = .ok blockers ∧
      provider (.fetchParent filingCanonical remoteId) = .ok parents ∧
      Follows database task
        (fun id => id ∈ database.inboundChanges task subs blockers parents) state := by
  obtain ⟨subs, blockers, parents, children, blocked, listedSubs, listedBlockers, listedParents,
    ranChildren, ranBlocked, ranParent⟩ := runs_gatherInbound_steps ran
  have start := Follows.start database task
  obtain ⟨afterChildren, keptChildren⟩ := start.family rfl
    (fun other member stored => localMirror_backed member) ranChildren
  obtain ⟨afterBlocking, keptBlocking⟩ := afterChildren.family (keptChildren .blockedBy nofun)
    (fun other member stored => localMirror_backed member) ranBlocked
  have ended := afterBlocking.parent
    ((keptBlocking .childOf nofun).trans (keptChildren .childOf nofun)) ranParent
  refine ⟨subs, blockers, parents, listedSubs, listedBlockers, listedParents,
    ended.congr fun id => ?_⟩
  simp only [Database.inboundChanges, List.mem_append, false_or]

theorem runs_reconcileRelationsInbound {provider : Provider} {basis task : Task}
    {filingCanonical remoteId : String} {database after : Database}
    {result : Except SyncError Reconciliation}
    (ran : (reconcileRelationsInbound basis task filingCanonical remoteId).Runs (portsOf provider)
      database result after) :
    ((∃ error, result = .error error) ∧ after = database) ∨
      ∃ state, ∃ subs blockers parents : List RemoteChildIssue, result = .ok state ∧
        provider (.fetchSubIssues filingCanonical remoteId) = .ok subs ∧
        provider (.fetchBlockedBy filingCanonical remoteId) = .ok blockers ∧
        provider (.fetchParent filingCanonical remoteId) = .ok parents ∧
        Follows database task
          (fun id => id ∈ database.inboundChanges task subs blockers parents) state ∧
        (state.changed = false ∧ after = database ∨ state.changed = true ∧
          ∃ instant, database.saveAll instant (state.writes basis) [] = .ok after) := by
  rcases runs_quiet_bind_portsOf (gatherInbound_quiet task filingCanonical remoteId) ran with
    ⟨state, gathered, ran⟩ | failed
  · obtain ⟨subs, blockers, parents, subsEq, blockersEq, parentsEq, follows⟩ :=
      runs_gatherInbound gathered
    split at ran
    · rename_i changed
      rcases runs_bind.mp ran with ⟨_, middle, saved, rest⟩ | ⟨error, failed, resultEq⟩
      · obtain ⟨resultEq, rfl⟩ := rest
        obtain ⟨instant, savedEq⟩ := runs_saveAll (runs_portsOf saved)
        exact .inr ⟨state, subs, blockers, parents, resultEq, subsEq, blockersEq, parentsEq,
          follows, .inr ⟨changed, instant, savedEq⟩⟩
      · exact .inl ⟨⟨error, resultEq⟩, runs_query_error (runs_portsOf failed)⟩
    · rename_i unchanged
      obtain ⟨resultEq, rfl⟩ := ran
      exact .inr ⟨state, subs, blockers, parents, resultEq, subsEq, blockersEq, parentsEq,
        follows, .inl ⟨by simpa using unchanged, rfl⟩⟩
  · exact .inl failed

end SyncService

end RepoLink
