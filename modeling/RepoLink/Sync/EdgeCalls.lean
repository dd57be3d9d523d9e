import RepoLink.Sync.PullCalls
import RepoLink.TaskService.EdgeCalls

/-!
The batches of drains and pulls. A drained row keeps the relations that were loaded; the inbound
reconcile of a pull changes each edge on the subject and on the neighbor that it carries, and
forgets a neighbor only while it is not backed by an issue.
-/

namespace RepoLink

open Effects Program

def TaskWrite.Carries (write : TaskWrite) : Prop :=
  ∃ before, write.basis = some before ∧ write.task.relations = before.relations

theorem TaskWrite.Carries.keeps {write : TaskWrite} (carries : write.Carries) :
    write.KeepsRelations := by
  obtain ⟨before, basisEq, same⟩ := carries
  intro relation changes
  exact changes (by rw [loaded, basisEq, Option.elim_some, same])

theorem PairedCall.ofCarries {op : PortOp} (saves : Saves TaskWrite.Carries op)
    (seen : List Task) : PairedCall seen op := by
  cases op with
  | store op => exact Paired.ofKept fun write member => (saves write member).keeps
  | _ => trivial

theorem Task.adoptAlignedState_relations {now : Timestamp} {source : SnapshotSource}
    {task after : Task} (adopts : (task.adoptAlignedState now source).attempt = .ok after) :
    after.relations = task.relations := by
  unfold adoptAlignedState at adopts
  split at adopts
  · cases adopts
  · split at adopts <;> cases adopts <;> rfl

theorem DrainWrite.carries {write : TaskWrite} (drains : OutboxDrainer.DrainWrite write) :
    write.Carries := by
  cases drains with
  | confirmed _ confirms =>
      obtain ⟨_, _, _, rfl⟩ := Task.confirmSyncedFields_frame confirms
      exact ⟨_, rfl, rfl⟩
  | attached task itemId => exact ⟨task, rfl, rfl⟩
  | converted task remote => exact ⟨task, rfl, rfl⟩
  | surfaced marks =>
      obtain ⟨_, _, rfl⟩ := Task.markConflicted_frame marks
      exact ⟨_, rfl, rfl⟩

theorem drainOnce_recalls (backoff : BackoffSchedule) (rounds : Nat) (seen : List Task) :
    (OutboxDrainer.drainOnce backoff rounds).Recalls loads PairedCall (fun _ _ => True) seen := by
  refine .ofEvery ?_ (OutboxDrainer.drainOnce_drain backoff rounds) (yields_any _) seen
  intro op saves seen
  refine PairedCall.ofCarries ?_ seen
  cases op with
  | store op => exact fun write member => DrainWrite.carries (saves write member)
  | _ => trivial

namespace SyncService

/-- The carried neighbors and the subject change in step, relative to the copies loaded. -/
structure Tracks (basis : Task) (seen : List Task) (state : Reconciliation) : Prop where
  id : state.task.id = basis.id
  carried : ∀ neighbor ∈ state.neighbors, neighbor.loaded ∈ seen ∧
    neighbor.current.id = neighbor.loaded.id ∧ neighbor.current.remote = neighbor.loaded.remote ∧
    neighbor.loaded.id ≠ basis.id
  distinct : (state.neighbors.map fun neighbor => neighbor.loaded.id).Nodup
  subject : ∀ relation, ¬(relation ∈ state.task.relations ↔ relation ∈ basis.relations) →
    (∃ neighbor ∈ state.neighbors, neighbor.loaded.id = relation.other ∧
        (relation.reverse basis.id ∈ neighbor.current.relations ↔
          relation ∈ state.task.relations) ∧
        (relation ∈ state.task.relations ∨ neighbor.loaded.remote.isSome)) ∨
      (relation ∈ state.task.relations ∧
        ∃ copy ∈ seen, copy.id = relation.other ∧ copy.remote = none)
  neighbors : ∀ neighbor ∈ state.neighbors, ∀ half,
    ¬(half ∈ neighbor.current.relations ↔ half ∈ neighbor.loaded.relations) →
      half.other = basis.id ∧ (half ∈ neighbor.current.relations ↔
        half.reverse neighbor.loaded.id ∈ state.task.relations)

variable {basis : Task} {seen more : List Task} {state : Reconciliation}

theorem Tracks.start (basis : Task) (seen : List Task) : Tracks basis seen ⟨basis, [], [], false⟩ :=
  ⟨rfl, fun _ member => (List.not_mem_nil member).elim, List.nodup_nil,
    fun _ changed => (changed Iff.rfl).elim, fun _ member => (List.not_mem_nil member).elim⟩

theorem Tracks.grow (tracks : Tracks basis seen state) (grown : seen ⊆ more) :
    Tracks basis more state where
  id := tracks.id
  carried := fun neighbor member => (tracks.carried neighbor member).imp_left fun known => grown known
  distinct := tracks.distinct
  subject := fun relation changed => (tracks.subject relation changed).imp_right fun forgotten =>
    forgotten.imp_right fun ⟨copy, known, rest⟩ => ⟨copy, grown known, rest⟩
  neighbors := tracks.neighbors

theorem Tracks.join (tracks : Tracks basis seen state) {fresh : Task} (known : fresh ∈ seen)
    (apart : fresh.id ≠ basis.id) (absent : state.neighbor fresh.id = none) :
    Tracks basis seen { state with neighbors := state.neighbors ++ [⟨fresh, fresh⟩] } := by
  have others : ∀ neighbor ∈ state.neighbors, neighbor.loaded.id ≠ fresh.id := by
    simpa [Reconciliation.neighbor, List.find?_eq_none] using absent
  refine ⟨tracks.id, ?_, ?_, ?_, ?_⟩
  · intro neighbor member
    rcases List.mem_append.mp member with old | new
    · exact tracks.carried neighbor old
    · rw [List.mem_singleton.mp new]
      exact ⟨known, rfl, rfl, apart⟩
  · rw [List.map_append, List.map_singleton, List.nodup_append]
    refine ⟨tracks.distinct, List.nodup_singleton _, ?_⟩
    rintro _ member _ same rfl
    obtain ⟨neighbor, inOld, rfl⟩ := List.mem_map.mp member
    exact others neighbor inOld (List.mem_singleton.mp same)
  · intro relation changed
    refine (tracks.subject relation changed).imp_left ?_
    rintro ⟨neighbor, member, rest⟩
    exact ⟨neighbor, List.mem_append_left _ member, rest⟩
  · intro neighbor member half changed
    rcases List.mem_append.mp member with old | new
    · exact tracks.neighbors neighbor old half changed
    · rw [List.mem_singleton.mp new] at changed
      exact (changed Iff.rfl).elim

theorem Tracks.forget (tracks : Tracks basis seen state) {neighbor : Neighbor}
    (member : neighbor ∈ state.neighbors) (unbacked : neighbor.loaded.remote = none) :
    Tracks basis seen (state.forget neighbor.loaded.id) := by
  have kept : ∀ other ∈ (state.forget neighbor.loaded.id).neighbors, other ∈ state.neighbors :=
    fun other inRest => List.mem_of_mem_filter inRest
  refine ⟨tracks.id, fun other inRest => tracks.carried other (kept other inRest), ?_, ?_,
    fun other inRest => tracks.neighbors other (kept other inRest)⟩
  · exact tracks.distinct.sublist (List.filter_sublist.map _)
  · intro relation changed
    rcases tracks.subject relation changed with ⟨other, inNeighbors, named, halves, backed⟩ | forgotten
    · by_cases same : other.loaded.id = neighbor.loaded.id
      · obtain rfl : other = neighbor :=
          List.inj_on_of_nodup_map tracks.distinct inNeighbors member same
        rw [unbacked] at backed
        have added := backed.resolve_right nofun
        exact .inr ⟨added, other.loaded, (tracks.carried other inNeighbors).1, named, unbacked⟩
      · exact .inl ⟨other, List.mem_filter.mpr ⟨inNeighbors, decide_eq_true same⟩, named, halves,
          backed⟩
    · exact .inr forgotten

structure Sets (kind : RelationKind) (other : TaskId) (present : Prop) (change : Task → Task) :
    Prop where
  id : ∀ task, (change task).id = task.id
  remote : ∀ task, (change task).remote = task.remote
  named : ∀ task, ⟨kind, other⟩ ∈ (change task).relations ↔ present
  others : ∀ task relation, relation ≠ ⟨kind, other⟩ →
    (relation ∈ (change task).relations ↔ relation ∈ task.relations)

theorem Sets.adding (now : Timestamp) (kind : RelationKind) (other : TaskId) :
    Sets kind other True fun task => task.addRelation now kind other where
  id := Task.addRelation_id now kind other
  remote := fun task => (Task.Edited.addRelation now kind other task).remote
  named := fun _ => iff_of_true (Task.mem_addRelation.mpr (.inr rfl)) trivial
  others := fun _ _ different => Task.mem_addRelation.trans (or_iff_left different)

theorem Sets.removing (now : Timestamp) (kind : RelationKind) (other : TaskId) :
    Sets kind other False fun task => (task.removeRelation now kind other).2 where
  id := Task.removeRelation_id now kind other
  remote := fun task => (Task.Edited.removeRelation now kind other task).remote
  named := fun _ => iff_of_false (fun member => (Task.mem_removeRelation.mp member).2 rfl) nofun
  others := fun _ _ different => Task.mem_removeRelation.trans (and_iff_left different)

theorem Sets.congr {kind : RelationKind} {other : TaskId} {present wanted : Prop}
    {change : Task → Task} (same : present ↔ wanted) (sets : Sets kind other present change) :
    Sets kind other wanted change :=
  ⟨sets.id, sets.remote, fun task => (sets.named task).trans same, sets.others⟩

/-- One edge is set on the subject and on a carried neighbor. -/
theorem Tracks.touch (tracks : Tracks basis seen state) {neighbor : Neighbor}
    (member : neighbor ∈ state.neighbors) {kind : RelationKind} {present : Prop}
    (backed : present ∨ neighbor.loaded.remote.isSome) {change changeTask : Task → Task}
    (far : Sets kind.inverse state.task.id present change)
    (near : Sets kind neighbor.loaded.id present changeTask) (notices : List SyncNotice) :
    let mirrored := state.updateNeighbor neighbor.loaded.id change
    Tracks basis seen
      { mirrored with task := changeTask mirrored.task, notices, changed := true } := by
  have each : ∀ other ∈ (state.updateNeighbor neighbor.loaded.id change).neighbors,
      ∃ old ∈ state.neighbors, other.loaded = old.loaded ∧
        (old = neighbor ∧ other.current = change old.current ∨
          old.loaded.id ≠ neighbor.loaded.id ∧ other.current = old.current) := by
    intro other inUpdated
    obtain ⟨old, inOld, rfl⟩ := List.mem_map.mp inUpdated
    refine ⟨old, inOld, ?_⟩
    split
    · rename_i same
      exact ⟨rfl, .inl ⟨List.inj_on_of_nodup_map tracks.distinct inOld member same, rfl⟩⟩
    · rename_i different
      exact ⟨rfl, .inr ⟨different, rfl⟩⟩
  refine ⟨(near.id _).trans tracks.id, ?_, ?_, ?_, ?_⟩
  · intro other inUpdated
    obtain ⟨old, inOld, loadedEq, ⟨_, currentEq⟩ | ⟨_, currentEq⟩⟩ := each other inUpdated
    · obtain ⟨known, id, remote, apart⟩ := tracks.carried old inOld
      rw [loadedEq, currentEq, far.id, far.remote]
      exact ⟨known, id, remote, apart⟩
    · rw [loadedEq, currentEq]
      exact tracks.carried old inOld
  · have same : (state.updateNeighbor neighbor.loaded.id change).neighbors.map
        (fun neighbor => neighbor.loaded.id) =
        state.neighbors.map fun neighbor => neighbor.loaded.id := by
      rw [Reconciliation.updateNeighbor, List.map_map]
      refine List.map_congr_left fun old _ => ?_
      simp only [Function.comp_apply]
      split <;> rfl
    rw [same]
    exact tracks.distinct
  · intro relation changed
    by_cases named : relation = ⟨kind, neighbor.loaded.id⟩
    · subst named
      refine .inl ⟨{ neighbor with current := change neighbor.current }, ?_, rfl, ?_, ?_⟩
      · exact List.mem_map.mpr ⟨neighbor, member, if_pos rfl⟩
      · rw [near.named]
        have reversed := far.named neighbor.current
        rw [tracks.id] at reversed
        exact reversed
      · rw [near.named]
        exact backed
    · rw [near.others _ _ named] at changed ⊢
      refine (tracks.subject relation changed).imp_left ?_
      rintro ⟨old, inOld, oldId, halves, oldBacked⟩
      refine ⟨_, List.mem_map_of_mem inOld, ?_, ?_, ?_⟩
      · split <;> exact oldId
      · split
        · rename_i same
          have different : relation.reverse basis.id ≠ ⟨kind.inverse, state.task.id⟩ := by
            intro equal
            refine named ?_
            rw [← TaskRelation.reverse_reverse basis.id relation, equal, ← oldId, same]
            simp [TaskRelation.reverse, RelationKind.inverse_inverse]
          rw [far.others _ _ different]
          exact halves
        · exact halves
      · split <;> exact oldBacked
  · intro other inUpdated half changed
    obtain ⟨old, inOld, loadedEq, ⟨rfl, currentEq⟩ | ⟨different, currentEq⟩⟩ := each other inUpdated
    · rw [loadedEq, currentEq] at changed ⊢
      by_cases named : half = ⟨kind.inverse, state.task.id⟩
      · subst named
        refine ⟨tracks.id, (far.named _).trans ?_⟩
        rw [TaskRelation.reverse, RelationKind.inverse_inverse]
        exact (near.named _).symm
      · rw [far.others _ _ named] at changed ⊢
        obtain ⟨subject, halves⟩ := tracks.neighbors old inOld half changed
        refine ⟨subject, halves.trans (near.others _ _ fun equal => named ?_).symm⟩
        rw [← TaskRelation.reverse_reverse old.loaded.id half, equal, subject, ← tracks.id]
        rfl
    · rw [loadedEq, currentEq] at changed ⊢
      obtain ⟨subject, halves⟩ := tracks.neighbors old inOld half changed
      refine ⟨subject, halves.trans (near.others _ _ fun equal => different ?_).symm⟩
      exact congrArg TaskRelation.other equal

theorem loadNeighbor_recalls (tracks : Tracks basis seen state) {id : TaskId}
    (apart : id ≠ basis.id) : (loadNeighbor id state).Recalls loads PairedCall
      (fun loaded later => Tracks basis later loaded.2 ∧ loaded.1 ∈ loaded.2.neighbors ∧
        loaded.1.loaded.id = id ∧ loaded.2.task = state.task) seen := by
  unfold loadNeighbor
  split
  · rename_i neighbor found
    exact ⟨tracks, List.mem_of_find?_eq_some found, by simpa using List.find?_some found, rfl⟩
  · rename_i absent
    refine (recalls_getTask id seen).bind ?_
    rintro fresh later grown ⟨known, rfl⟩
    refine ⟨(tracks.grow grown.subset).join known apart absent, ?_, rfl, rfl⟩
    exact List.mem_append_right _ (List.mem_singleton_self _)

theorem addEdge_recalls {kind inverse : RelationKind} (inverseEq : inverse = kind.inverse)
    (tracks : Tracks basis seen state) (current : List TaskId) (other : TaskId) :
    (addEdge kind inverse current state other).Recalls loads PairedCall
      (fun next later => Tracks basis later next) seen := by
  unfold addEdge
  split
  · exact tracks
  · rename_i needed
    rw [not_or, tracks.id] at needed
    refine (loadNeighbor_recalls tracks needed.1).bind ?_
    rintro ⟨neighbor, loaded⟩ later _ ⟨held, member, rfl, same⟩
    refine (recalls_quietly (every_clock trivial) (yields_any _) later).bind fun now last grown _ => ?_
    subst inverseEq
    rw [← same]
    exact (held.grow grown.subset).touch member (.inl trivial) (.adding now _ _) (.adding now _ _) _

theorem removeEdge_recalls {kind inverse : RelationKind} (inverseEq : inverse = kind.inverse)
    (tracks : Tracks basis seen state) (desired : List TaskId) (other : TaskId) :
    (removeEdge kind inverse desired state other).Recalls loads PairedCall
      (fun next later => Tracks basis later next) seen := by
  unfold removeEdge
  split
  · exact tracks
  · rename_i needed
    rw [not_or, tracks.id] at needed
    refine (loadNeighbor_recalls tracks needed.1).bind ?_
    rintro ⟨neighbor, loaded⟩ later _ ⟨held, member, rfl, same⟩
    have remoteEq := (held.carried neighbor member).2.2.1
    dsimp only at member remoteEq ⊢
    split
    · rename_i remoteless
      rw [remoteEq, Option.isNone_iff_eq_none] at remoteless
      exact held.forget member remoteless
    · rename_i backed
      rw [remoteEq] at backed
      refine (recalls_quietly (every_clock trivial) (yields_any _) later).bind
        fun now last grown _ => ?_
      subst inverseEq
      rw [← same]
      refine (held.grow grown.subset).touch member (.inr ?_) (.removing now _ _) (.removing now _ _) _
      exact Option.isSome_iff_ne_none.mpr fun absent => backed (absent ▸ rfl)

theorem reconcileFamily_recalls {kind inverse : RelationKind} (inverseEq : inverse = kind.inverse)
    (tracks : Tracks basis seen state) (desired : List TaskId) :
    (reconcileFamily kind inverse desired state).Recalls loads PairedCall
      (fun next later => Tracks basis later next) seen := by
  refine (Recalls.foldEach (fun next other later _ held =>
    addEdge_recalls inverseEq held _ other) tracks).bind fun added later _ held => ?_
  exact Recalls.foldEach (fun next other later _ held =>
    removeEdge_recalls inverseEq held desired other) held

theorem reconcileParent_recalls (tracks : Tracks basis seen state)
    (parents : List RemoteChildIssue) : (reconcileParent parents state).Recalls loads PairedCall
      (fun next later => Tracks basis later next) seen := by
  unfold reconcileParent
  split
  · exact tracks
  · refine (recalls_quietly (mapRemoteToLocal_quiet ..) (yields_any _) seen).bind ?_
    rintro ⟨mapped, untracked⟩ later grown _
    have held := tracks.grow grown.subset
    have noticed : ∀ notices, Tracks basis later { state with notices := notices } := fun _ =>
      ⟨held.id, held.carried, held.distinct, held.subject, held.neighbors⟩
    dsimp only
    split
    · exact noticed _
    · exact reconcileFamily_recalls rfl (noticed _) _

theorem gatherInbound_recalls (task : Task) (filingCanonical remoteId : String)
    (seen : List Task) : (gatherInbound task filingCanonical remoteId).Recalls loads PairedCall
      (fun state later => Tracks task later state) seen := by
  have asks : ∀ (op : ProviderOp) (seen : List Task), (remote op : Action op.Answer).Recalls loads
      PairedCall (fun _ _ => True) seen :=
    fun op seen => recalls_quietly (every_remote trivial) (yields_any _) seen
  refine (asks _ seen).bind fun subs first _ _ => ?_
  refine (asks _ first).bind fun blockers second _ _ => ?_
  refine (asks _ second).bind fun parents third _ _ => ?_
  refine (recalls_quietly (mapRemoteToLocal_quiet ..) (yields_any _) third).bind ?_
  rintro ⟨children, _⟩ fourth _ _
  refine (recalls_quietly (mapRemoteToLocal_quiet ..) (yields_any _) fourth).bind ?_
  rintro ⟨blockedBy, _⟩ fifth _ _
  refine (reconcileFamily_recalls rfl (.start task fifth) children).bind fun _ sixth _ held => ?_
  refine (reconcileFamily_recalls rfl held blockedBy).bind fun _ seventh _ later => ?_
  exact reconcileParent_recalls later parents

/-- The batch of a reconcile changes both ends of every edge that it changes. -/
theorem Tracks.paired (tracks : Tracks basis seen state) {loaded : Task}
    (same : basis.relations = loaded.relations) : Paired seen (state.writes loaded) := by
  have rows : ∀ far ∈ state.writes loaded, far = ⟨some loaded, state.task, .pull⟩ ∨
      ∃ neighbor ∈ state.neighbors, far = ⟨some neighbor.loaded, neighbor.current, .pull⟩ := by
    intro far member
    rcases List.mem_cons.mp member with rfl | inNeighbors
    · exact .inl rfl
    · obtain ⟨neighbor, inState, rfl⟩ := List.mem_map.mp inNeighbors
      exact .inr ⟨neighbor, inState, rfl⟩
  intro write member relation changes
  rcases rows write member with rfl | ⟨neighbor, inState, rfl⟩
  · have changed : ¬(relation ∈ state.task.relations ↔ relation ∈ basis.relations) := by
      rw [same]
      exact changes
    rcases tracks.subject relation changed with ⟨neighbor, inState, named, halves, _⟩ |
      ⟨added, copy, known, named, remoteless⟩
    · obtain ⟨_, currentId, _, apart⟩ := tracks.carried neighbor inState
      refine .both ?_ ⟨_, List.mem_cons_of_mem _ (List.mem_map_of_mem inState),
        currentId.trans named⟩
      intro far farMember farNamed
      rcases rows far farMember with rfl | ⟨other, otherInState, rfl⟩
      · exact (apart (named.trans (farNamed.symm.trans tracks.id))).elim
      · have otherId := (tracks.carried other otherInState).2.1
        obtain rfl : other = neighbor := List.inj_on_of_nodup_map tracks.distinct otherInState inState
          (otherId.symm.trans (farNamed.trans named.symm))
        rw [TaskWrite.Matches, tracks.id]
        exact halves
    · exact .unbacked rfl added known named remoteless
  · obtain ⟨subject, halves⟩ := tracks.neighbors neighbor inState relation changes
    obtain ⟨_, currentId, _, apart⟩ := tracks.carried neighbor inState
    refine .both ?_ ⟨_, List.mem_cons_self, tracks.id.trans subject.symm⟩
    intro far farMember farNamed
    rcases rows far farMember with rfl | ⟨other, otherInState, rfl⟩
    · rw [TaskWrite.Matches, currentId]
      exact halves.symm
    · obtain ⟨_, otherId, _, otherApart⟩ := tracks.carried other otherInState
      exact (otherApart (otherId.symm.trans (farNamed.trans subject))).elim

theorem withNodeId_kept (nodeId : Option String) (task : Task) :
    (withNodeId nodeId task).id = task.id ∧ (withNodeId nodeId task).relations = task.relations := by
  unfold withNodeId
  split <;> exact ⟨rfl, rfl⟩

theorem adoptRemote_carries {before task : Task} (snap : RemoteTaskSnapshot)
    (id : task.id = before.id) (same : task.relations = before.relations) :
    (adoptRemote before task snap).Every (Saves TaskWrite.Carries) ∧
      (adoptRemote before task snap).Yields fun adopted =>
        adopted.id = before.id ∧ adopted.relations = before.relations := by
  have adopts : ∀ {now adopted}, ((copyInboundMirrorFromSnap snap task).adoptAlignedState now
      .pull).attempt = .ok adopted → adopted.id = before.id ∧ adopted.relations = before.relations := by
    intro now adopted ok
    refine ⟨?_, (Task.adoptAlignedState_relations ok).trans same⟩
    unfold Task.adoptAlignedState at ok
    split at ok
    · cases ok
    · split at ok <;> cases ok <;> exact id
  constructor
  · refine every_bind (saveTask_saves [] ⟨before, rfl, same⟩) fun _ => ?_
    refine every_bind (every_clock trivial) fun now => ?_
    refine (settled_yields _).every_bind (saves_quietly (settled_quiet _)) fun adopted ok => ?_
    exact every_bind (saveTask_saves [] ⟨before, rfl, (adopts ok).2⟩) fun _ => trivial
  · refine (yields_any _).bind fun _ _ => (yields_any _).bind fun now _ => ?_
    refine (settled_yields _).bind fun adopted ok => (yields_any _).bind fun _ _ => ?_
    exact adopts ok

theorem pullSnapshot_carries (force : Bool) (before : Task) (filingCanonical : String)
    (current : RemoteRef) (snap : RemoteTaskSnapshot) :
    (pullSnapshot force before filingCanonical current snap).Every (Saves TaskWrite.Carries) ∧
      (pullSnapshot force before filingCanonical current snap).Yields fun pulled =>
        pulled.id = before.id ∧ pulled.relations = before.relations := by
  obtain ⟨id, same⟩ := withNodeId_kept (nodeIdBackfill current snap) before
  have settles : ∀ decision, (settlePull before (withNodeId (nodeIdBackfill current snap) before)
      snap decision).Every (Saves TaskWrite.Carries) ∧
      (settlePull before (withNodeId (nodeIdBackfill current snap) before) snap decision).Yields
        fun pulled => pulled.id = before.id ∧ pulled.relations = before.relations := by
    intro decision
    cases decision with
    | noop => exact ⟨trivial, id, same⟩
    | pushLocal => exact ⟨trivial, id, same⟩
    | pullRemote => exact adoptRemote_carries snap id same
  constructor
  · refine every_bind (every_clock trivial) fun observedAt => ?_
    refine every_bind (saves_query (.cacheSyncedAt ..) rfl) fun _ => ?_
    refine every_bind (settles _).1 fun pulled => ?_
    refine every_bind (every_remote trivial) fun comments => ?_
    refine every_bind (saves_query (.replaceComments ..) rfl) fun _ => ?_
    exact every_bind (backfillNodeId_saves ..) fun _ => trivial
  · refine (yields_any _).bind fun _ _ => (yields_any _).bind fun _ _ => ?_
    refine (settles _).2.bind fun pulled kept => ?_
    refine (yields_any _).bind fun _ _ => (yields_any _).bind fun _ _ => ?_
    exact (yields_any _).bind fun _ _ => kept

theorem reconcileRelationsInbound_recalls {loaded task : Task} (filingCanonical remoteId : String)
    (same : task.relations = loaded.relations) (seen : List Task) :
    (reconcileRelationsInbound loaded task filingCanonical remoteId).Recalls loads PairedCall
      (fun _ _ => True) seen := by
  refine (gatherInbound_recalls task filingCanonical remoteId seen).bind
    fun reconciled last _ tracks => ?_
  split
  · exact Recalls.bind (recalls_query (tracks.paired same)) fun _ _ _ _ => trivial
  · trivial

theorem pullInner_recalls (taskId : TaskId) (force : Bool) (seen : List Task) :
    (pullInner taskId force).Recalls loads PairedCall (fun _ _ => True) seen := by
  rw [pullInner_eq]
  refine (recalls_getTask taskId seen).bind fun before first _ _ => ?_
  refine (recalls_quietly (ensureNotArchived_quiet before) (yields_any _) first).bind
    fun _ second _ _ => ?_
  refine (recalls_quietly (requiredFilingCanonical_quiet before) (yields_any _) second).bind
    fun filingCanonical third _ _ => ?_
  split
  · trivial
  · rename_i current remoteEq
    refine (recalls_quietly (every_remote trivial) (yields_any _) third).bind
      fun snap fourth _ _ => ?_
    obtain ⟨saves, yields⟩ := pullSnapshot_carries force before filingCanonical current snap
    refine (Recalls.ofEvery (fun _ carries => PairedCall.ofCarries carries) saves yields
      fourth).bind fun pulled fifth _ kept => ?_
    exact (reconcileRelationsInbound_recalls filingCanonical current.remoteId kept.2 fifth).bind
      fun _ _ _ _ => trivial

end SyncService

end RepoLink
