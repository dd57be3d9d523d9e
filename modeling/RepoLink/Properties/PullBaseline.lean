import RepoLink.Store.Edges
import RepoLink.Sync.DrainCalls
import RepoLink.Sync.Inbound
import RepoLink.TaskService.Service

/-!
Pulls and the pending local edits. A pull saves the pulled task and the far ends of every edge
that it changes as aligned versions, so exactly their pending edits stop being pending.
-/

namespace RepoLink

open Effects Program KeyedTable SyncService

def Database.diff (database : Database) (id : TaskId) : Option MirrorPatch :=
  (database.stored id).map Task.diffAgainstBaseline

/-- What the provider answers makes the pull adopt the remote content of `task`. -/
def pullAdopts (provider : Provider) (forceAcceptRemote : Bool) (database : Database)
    (task : Task) : Bool :=
  match database.address task with
  | none => false
  | some (canonical, remoteId) =>
    match provider (.fetchRemote canonical remoteId) with
    | .ok snap => pullDecision forceAcceptRemote task snap = .pullRemote
    | .error _ => false

def pullRewires (provider : Provider) (database : Database) (task : Task) : List TaskId :=
  match database.address task with
  | none => []
  | some (canonical, remoteId) =>
    match provider (.fetchSubIssues canonical remoteId), provider (.fetchBlockedBy canonical remoteId),
      provider (.fetchParent canonical remoteId) with
    | .ok subs, .ok blockers, .ok parents => database.inboundChanges task subs blockers parents
    | _, _, _ => []

/-- No edge of the pulled task changes, or `other` is neither the task nor a far end. -/
def PullLeavesOut (provider : Provider) (database : Database) (task : Task) (other : TaskId) :
    Prop :=
  let rewired := pullRewires provider database task
  other ∉ rewired ∧ (other = task.id → rewired = [])

structure SameNeighborhood (subject : TaskId) (before after : Database) : Prop where
  others : ∀ id, id ≠ subject → after.record id = before.record id
  identities : after.tasks.identities = before.tasks.identities
  config : after.origins = before.origins ∧ after.instances = before.instances

theorem SameNeighborhood.refl (subject : TaskId) (database : Database) :
    SameNeighborhood subject database database := ⟨fun _ _ => rfl, rfl, rfl, rfl⟩

theorem SameNeighborhood.trans {subject : TaskId} {first second third : Database}
    (left : SameNeighborhood subject first second)
    (right : SameNeighborhood subject second third) : SameNeighborhood subject first third :=
  ⟨fun id different => (right.others id different).trans (left.others id different),
    right.identities.trans left.identities, right.config.1.trans left.config.1,
    right.config.2.trans left.config.2⟩

theorem localMirror_congr {subject : TaskId} {before after : Database}
    (same : SameNeighborhood subject before after) (workspaceId : WorkspaceId) :
    after.localMirror workspaceId = before.localMirror workspaceId := by
  funext item
  unfold Database.localMirror
  have byUrl : after.findByCanonicalUrl workspaceId item.canonicalRepo =
      before.findByCanonicalUrl workspaceId item.canonicalRepo := by
    unfold Database.findByCanonicalUrl Database.bindingView
    rw [same.config.1, same.config.2]
  simp only [byUrl, Database.findByRemote_id, same.identities]

theorem backed_eq_identities (database : Database) (id : TaskId) : database.backed id =
    database.tasks.identities.any fun identity => identity.1 = id && identity.2.isSome := by
  unfold Database.backed Database.stored Database.record
  rw [Bool.eq_iff_iff, List.any_eq_true]
  constructor
  · intro backed
    obtain ⟨task, found, remote⟩ := (Option.any_eq_true ..).mp backed
    obtain ⟨record, recordFound, rfl⟩ := Option.map_eq_some_iff.mp found
    refine ⟨_, TaskTable.mem_identities recordFound, ?_⟩
    have remoteSome : record.row.remote.isSome = true := remote
    simpa [TaskRecord.mappingOf] using remoteSome
  · rintro ⟨identity, member, matched⟩
    obtain ⟨record, recordMember, rfl⟩ := List.mem_map.mp member
    simp only [Bool.and_eq_true, decide_eq_true_eq, TaskRecord.mappingOf,
      Option.isSome_map] at matched
    rw [← matched.1, Table.find_of_mem recordMember]
    exact matched.2

theorem inboundChanges_congr {subject : TaskId} {before after : Database}
    (same : SameNeighborhood subject before after) {task pulled : Task}
    (idEq : pulled.id = task.id) (workspaceEq : pulled.workspaceId = task.workspaceId)
    (relationsEq : pulled.relations = task.relations)
    (subs blockers parents : List RemoteChildIssue) :
    after.inboundChanges pulled subs blockers parents =
      before.inboundChanges task subs blockers parents := by
  have backedEq : after.backed = before.backed := by
    funext id
    rw [backed_eq_identities, backed_eq_identities, same.identities]
  unfold Database.inboundChanges Database.edgeChanges Database.localMirrors Task.related
  rw [localMirror_congr same, backedEq, idEq, workspaceEq, relationsEq]

theorem Task.diffAgainstBaseline_congr {left right : Task} (title : left.title = right.title)
    (body : left.body = right.body) (lifecycle : left.lifecycle = right.lifecycle)
    (assignees : left.assignees = right.assignees)
    (baseline : left.syncedBaseline = right.syncedBaseline) :
    left.diffAgainstBaseline = right.diffAgainstBaseline := by
  unfold diffAgainstBaseline MirrorField.differs
  rw [baseline]
  split
  · rfl
  · rw [title, body, lifecycle, assignees]

theorem StoreOp.perform_diff {op : StoreOp} {instant : Timestamp} {before after : Database}
    {answer : Except PortError op.Answer} (performed : op.perform instant before = (answer, after))
    (writeless : op.writes = []) (id : TaskId) : after.diff id = before.diff id := by
  unfold Database.diff Database.stored
  rcases perform_record performed with ⟨writes, entries, rfl, saved⟩ | retouched
  · obtain ⟨_, _, written, _, rfl⟩ := Database.saveAll_ok saved
    have none : writes = [] := writeless
    subst none
    cases written
    rfl
  · rw [retouched id]
    split
    · cases before.record id with
      | none => rfl
      | some record =>
          obtain ⟨snapshots, _, _, _, title, body, lifecycle, assignees⟩ := op.retouch_keeps record
          exact congrArg some (Task.diffAgainstBaseline_congr title body lifecycle assignees
            (congrArg SnapshotLog.latestBaseline snapshots))
    · rfl

def PortOp.looksAfter (subject : TaskId) : PortOp → Prop
  | .store op => op.writes = [] ∧ ∀ id, op.target = some id → id = subject
  | _ => True

def PortOp.tends (subject : TaskId) (mapping : Option RemoteMapping) : PortOp → Prop
  | .store (.saveAll [write] []) =>
    write.task.id = subject ∧ TaskRecord.mappingOf write.task = mapping
  | op => op.looksAfter subject

theorem PortOp.looksAfter_of_quiet {op : PortOp} {subject : TaskId} (quiet : op.quiet) :
    op.looksAfter subject := by
  cases op with
  | store op =>
      obtain ⟨writeless, target⟩ := StoreOp.reads_only quiet
      exact ⟨writeless, by simp [target]⟩
  | _ => trivial

theorem PortOp.looksAfter_meaning {op : PortOp} {subject : TaskId} {before after : Database}
    {answer : op.Answer} (looks : op.looksAfter subject)
    (answered : portMeaning op before answer after) :
    SameNeighborhood subject before after ∧ ∀ id, after.diff id = before.diff id := by
  cases op with
  | store op =>
      obtain ⟨writeless, target⟩ := looks
      rcases answered with ⟨instant, performed⟩ | ⟨_, _, rfl⟩
      · refine ⟨⟨?_, StoreOp.perform_identities performed writeless,
          StoreOp.perform_config performed⟩, StoreOp.perform_diff performed writeless⟩
        intro id different
        rcases StoreOp.perform_record performed with ⟨writes, entries, rfl, saved⟩ | retouched
        · obtain ⟨_, _, written, _, rfl⟩ := Database.saveAll_ok saved
          have none : writes = [] := writeless
          subst none
          cases written
          rfl
        · rw [retouched id, if_neg fun same => different (target id same)]
      · exact ⟨.refl _ _, fun _ => rfl⟩
  | freshTaskId => exact answered.2 ▸ ⟨.refl _ _, fun _ => rfl⟩
  | now => exact answered ▸ ⟨.refl _ _, fun _ => rfl⟩
  | freshEntryId => exact answered ▸ ⟨.refl _ _, fun _ => rfl⟩
  | freshHash length => exact answered ▸ ⟨.refl _ _, fun _ => rfl⟩
  | provider op => exact answered ▸ ⟨.refl _ _, fun _ => rfl⟩

theorem PortOp.tends_of_looksAfter {op : PortOp} {subject : TaskId}
    {mapping : Option RemoteMapping} (looks : op.looksAfter subject) :
    op.tends subject mapping := by
  unfold tends
  split
  · cases looks.1
  · exact looks

theorem PortOp.tends_meaning {op : PortOp} {subject : TaskId} {mapping : Option RemoteMapping}
    {before after : Database} {answer : op.Answer} (tends : op.tends subject mapping)
    (answered : portMeaning op before answer after)
    (present : (subject, mapping) ∈ before.tasks.identities) :
    SameNeighborhood subject before after := by
  unfold PortOp.tends at tends
  split at tends
  · rename_i write
    obtain ⟨rfl, mappingEq⟩ := tends
    rcases answered with ⟨instant, performed⟩ | ⟨_, _, rfl⟩
    · cases answer with
      | error error => exact StoreOp.perform_error performed ▸ .refl _ _
      | ok _ =>
          have saved := StoreOp.perform_saveAll_ok performed
          obtain ⟨tasks, _, written, _, rfl⟩ := Database.saveAll_ok saved
          obtain ⟨record, member, same⟩ := List.mem_map.mp present
          obtain ⟨idEq, storedMapping⟩ := Prod.mk.inj same
          refine ⟨fun id different => ?_, ?_, rfl, rfl⟩
          · rw [Database.saveAll_single saved id, if_neg different]
          · obtain ⟨stored, first, written⟩ := Database.writeTasks_cons_ok written
            cases written
            exact TaskTable.identities_write first (idEq ▸ Table.find_of_mem member)
              (mappingEq.trans storedMapping.symm)
    · exact .refl _ _
  · exact (PortOp.looksAfter_meaning tends answered).1

structure Task.SamePlace (left right : Task) : Prop where
  id : left.id = right.id
  workspaceId : left.workspaceId = right.workspaceId
  relations : left.relations = right.relations
  mapping : TaskRecord.mappingOf left = TaskRecord.mappingOf right

theorem withNodeId_samePlace (nodeId : Option String) (task : Task) :
    (withNodeId nodeId task).SamePlace task := by
  unfold withNodeId
  split
  · rename_i remoteEq
    exact ⟨rfl, rfl, rfl, by simp [TaskRecord.mappingOf, remoteEq]⟩
  · exact ⟨rfl, rfl, rfl, rfl⟩

theorem adopted_samePlace {now : Timestamp} {snap : RemoteTaskSnapshot} {task adopted : Task}
    (adopts : ((copyInboundMirrorFromSnap snap task).adoptAlignedState now .pull).attempt =
      .ok adopted) : adopted.SamePlace task := by
  unfold Task.adoptAlignedState at adopts
  split at adopts
  · cases adopts
  · split at adopts
    all_goals cases adopts
    all_goals exact ⟨rfl, rfl, rfl, rfl⟩

theorem adoptRemote_yields (basis task : Task) (snap : RemoteTaskSnapshot) :
    (adoptRemote basis task snap).Yields fun pulled => pulled.SamePlace task := by
  refine (yields_any _).bind fun _ _ => (yields_any _).bind fun now _ => ?_
  refine (settled_yields _).bind fun adopted adopts => ?_
  exact (yields_any _).bind fun _ _ => adopted_samePlace adopts

theorem adoptRemote_tends (basis task : Task) (snap : RemoteTaskSnapshot) :
    (adoptRemote basis task snap).Every
      (PortOp.tends task.id (TaskRecord.mappingOf task)) := by
  refine every_bind (every_query ⟨rfl, rfl⟩) fun _ => every_bind (every_clock trivial) fun now => ?_
  refine (settled_yields _).every_bind ?_ fun adopted adopts => ?_
  · exact (settled_quiet _).mono fun _ quiet => PortOp.tends_of_looksAfter
      (PortOp.looksAfter_of_quiet quiet)
  · have place := adopted_samePlace adopts
    exact every_bind (every_query ⟨place.id, place.mapping⟩) fun _ => trivial

theorem Task.SamePlace.trans {first second third : Task} (left : first.SamePlace second)
    (right : second.SamePlace third) : first.SamePlace third :=
  ⟨left.id.trans right.id, left.workspaceId.trans right.workspaceId,
    left.relations.trans right.relations, left.mapping.trans right.mapping⟩

theorem settlePull_yields (basis task : Task) (snap : RemoteTaskSnapshot)
    (decision : SyncDecision) : (settlePull basis task snap decision).Yields fun pulled =>
      pulled.SamePlace task ∧ (decision ≠ .pullRemote → pulled = task) := by
  cases decision with
  | pullRemote =>
      exact (adoptRemote_yields basis task snap).mono fun pulled place =>
        ⟨place, fun other => (other rfl).elim⟩
  | noop => exact ⟨⟨rfl, rfl, rfl, rfl⟩, fun _ => rfl⟩
  | pushLocal => exact ⟨⟨rfl, rfl, rfl, rfl⟩, fun _ => rfl⟩

section Snapshot

variable (forceAcceptRemote : Bool) (before : Task) (filingCanonical : String)
  (current : RemoteRef) (snap : RemoteTaskSnapshot)

theorem pullDecision_withNodeId (nodeId : Option String) :
    pullDecision forceAcceptRemote (withNodeId nodeId before) snap =
      pullDecision forceAcceptRemote before snap := by
  unfold withNodeId
  split <;> rfl

theorem backfillNodeId_looksAfter (id : TaskId) (nodeId : Option String) :
    (backfillNodeId id nodeId).Every (PortOp.looksAfter id) := by
  cases nodeId with
  | none => trivial
  | some nodeId => exact every_query ⟨rfl, fun _ same => (Option.some.inj same).symm⟩

theorem pullSnapshot_every {allowed : PortOp → Prop}
    (looks : ∀ op, PortOp.looksAfter before.id op → allowed op)
    (settles : (settlePull before (withNodeId (nodeIdBackfill current snap) before) snap
      (pullDecision forceAcceptRemote before snap)).Every allowed) :
    (pullSnapshot forceAcceptRemote before filingCanonical current snap).Every allowed := by
  have target : ∀ id, some before.id = some id → id = before.id :=
    fun _ same => (Option.some.inj same).symm
  refine every_bind (every_clock (looks _ trivial)) fun observedAt => ?_
  refine every_bind (every_query (looks _ ⟨rfl, target⟩)) fun _ => ?_
  refine every_bind ((pullDecision_withNodeId ..).symm ▸ settles) fun pulled => ?_
  refine every_bind (every_remote (looks _ trivial)) fun comments => ?_
  refine every_bind (every_query (looks _ ⟨rfl, target⟩)) fun _ => ?_
  exact every_bind ((backfillNodeId_looksAfter before.id _).mono looks) fun _ => trivial

theorem pullSnapshot_tends :
    (pullSnapshot forceAcceptRemote before filingCanonical current snap).Every
      (PortOp.tends before.id (TaskRecord.mappingOf before)) := by
  refine pullSnapshot_every _ _ _ _ _ (fun _ => PortOp.tends_of_looksAfter) ?_
  have place := withNodeId_samePlace (nodeIdBackfill current snap) before
  cases pullDecision forceAcceptRemote before snap with
  | pullRemote => exact place.id ▸ place.mapping ▸ adoptRemote_tends before _ snap
  | noop => trivial
  | pushLocal => trivial

theorem pullSnapshot_looksAfter (unadopted : pullDecision forceAcceptRemote before snap ≠ .pullRemote) :
    (pullSnapshot forceAcceptRemote before filingCanonical current snap).Every
      (PortOp.looksAfter before.id) := by
  refine pullSnapshot_every _ _ _ _ _ (fun _ looks => looks) ?_
  cases decision : pullDecision forceAcceptRemote before snap with
  | pullRemote => exact absurd decision unadopted
  | noop => trivial
  | pushLocal => trivial

theorem pullSnapshot_yields :
    (pullSnapshot forceAcceptRemote before filingCanonical current snap).Yields fun pulled =>
      pulled.SamePlace before ∧ (pullDecision forceAcceptRemote before snap ≠ .pullRemote →
        pulled = withNodeId (nodeIdBackfill current snap) before) := by
  refine (yields_any _).bind fun _ _ => (yields_any _).bind fun _ _ => ?_
  refine (settlePull_yields ..).bind fun pulled settled => ?_
  rw [pullDecision_withNodeId] at settled
  refine (yields_any _).bind fun _ _ => (yields_any _).bind fun _ _ => ?_
  exact (yields_any _).bind fun _ _ => ⟨settled.1.trans (withNodeId_samePlace _ before), settled.2⟩

theorem pullSnapshot_places :
    (pullSnapshot forceAcceptRemote before filingCanonical current snap).Every
      (Saves fun write => write.task.SamePlace before) := by
  refine pullSnapshot_every _ _ _ _ _ (fun op looks => ?_) ?_
  · cases op with
    | store op => exact fun write member => (List.not_mem_nil (looks.1 ▸ member)).elim
    | _ => trivial
  · have place := withNodeId_samePlace (nodeIdBackfill current snap) before
    have saves : ∀ {row : Task} {source}, row.SamePlace before →
        (saveTask before row source []).Every
          (Saves fun write => write.task.SamePlace before) := by
      intro row source same
      exact @every_query _ _ (Saves _) (.saveAll _ []) fun _ member =>
        List.mem_singleton.mp member ▸ same
    cases pullDecision forceAcceptRemote before snap with
    | pullRemote =>
        refine every_bind (saves place) fun _ => every_bind (every_clock trivial) fun now => ?_
        refine (settled_yields _).every_bind (saves_quietly (settled_quiet _)) fun adopted ok => ?_
        exact every_bind (saves ((adopted_samePlace ok).trans place)) fun _ => trivial
    | noop => trivial
    | pushLocal => trivial

end Snapshot

theorem SyncService.Follows.saved {database after : Database} {task basis : Task} {far : TaskId → Prop}
    {state : Reconciliation} {instant : Timestamp} (follows : Follows database task far state)
    (saved : database.saveAll instant (state.writes basis) [] = .ok after) (id : TaskId) :
    ((far id ∨ id = task.id) → after.diff id = some .default) ∧
      (¬(far id ∨ id = task.id) → after.record id = database.record id) := by
  have written : (∃ write ∈ state.writes basis, write.task.id = id) ↔ far id ∨ id = task.id := by
    simp only [Reconciliation.writes, List.mem_cons, or_and_right, exists_or, exists_eq_left]
    rw [follows.id, or_comm, ← follows.touched id]
    refine or_congr ?_ eq_comm
    constructor
    · rintro ⟨write, member, same⟩
      obtain ⟨neighbor, neighborMember, rfl⟩ := List.mem_map.mp member
      obtain ⟨_, _, currentEq⟩ := (follows.loaded neighbor neighborMember).2.2.2
      exact ⟨neighbor, neighborMember, by simpa [currentEq] using same⟩
    · rintro ⟨neighbor, member, same⟩
      obtain ⟨_, _, currentEq⟩ := (follows.loaded neighbor member).2.2.2
      exact ⟨_, List.mem_map_of_mem member, by simpa [currentEq] using same⟩
  have pulls : ∀ write ∈ state.writes basis, write.source = .pull := by
    intro write member
    rcases List.mem_cons.mp member with rfl | member
    · rfl
    · obtain ⟨_, _, rfl⟩ := List.mem_map.mp member
      rfl
  constructor
  · intro within
    have aligned := @Database.afterWrites_present instant id
      (fun record => record.map (fun record => record.load.diffAgainstBaseline) =
        some MirrorPatch.default) _ (database.record id) (written.mpr within)
      (fun write member _ earlier => by
        rw [pulls write member, Option.map_some, TaskRecord.write_aligned rfl])
    unfold Database.diff Database.stored
    rw [Database.saveAll_record saved, Option.map_map]
    exact aligned
  · intro outside
    rw [Database.saveAll_record saved]
    exact Database.afterWrites_absent fun write member same =>
      outside (written.mp ⟨write, member, same⟩)

theorem SameNeighborhood.diff {subject : TaskId} {before after : Database}
    (same : SameNeighborhood subject before after) {id : TaskId} (different : id ≠ subject) :
    after.diff id = before.diff id := by
  unfold Database.diff Database.stored
  rw [same.others id different]

section Pull

variable {provider : Provider} {forceAcceptRemote : Bool} {before after : Database}
  {subject : Task}

structure FirstHalf (provider : Provider) (forceAcceptRemote : Bool) (subject : Task)
    (before after : Database) : Prop where
  same : SameNeighborhood subject.id before after
  edges : ∀ id relation, relation ∈ after.relationsOf id ↔ relation ∈ before.relationsOf id
  diff : pullAdopts provider forceAcceptRemote before subject = false →
    ∀ id, after.diff id = before.diff id

theorem FirstHalf.refl : FirstHalf provider forceAcceptRemote subject before before :=
  ⟨.refl _ _, fun _ _ => Iff.rfl, fun _ _ => rfl⟩

theorem relationsOf_places {op : PortOp} {answer : op.Answer}
    (places : Saves (fun write => write.task.SamePlace subject) op)
    (performed : portMeaning op before answer after)
    (known : ∀ relation, relation ∈ before.relationsOf subject.id ↔ relation ∈ subject.relations)
    (id : TaskId) (relation : TaskRelation) :
    relation ∈ after.relationsOf id ↔ relation ∈ before.relationsOf id := by
  rcases PortOp.relationsOf_meaning performed with ⟨instant, writes, entries, rfl, saved⟩ | same
  · rcases Database.relationsOf_saved saved id with ⟨write, member, rfl, stored⟩ | ⟨_, stored⟩
    · have place := places write member
      rw [stored, place.relations, place.id, known]
    · rw [stored]
  · rw [same]

theorem runs_pullSnapshot {filingCanonical : String} {current : RemoteRef}
    {snap : RemoteTaskSnapshot} {result : Except SyncError Task}
    (stored : before.stored subject.id = some subject)
    (addressed : before.address subject = some (filingCanonical, current.remoteId))
    (fetched : provider (.fetchRemote filingCanonical current.remoteId) = .ok snap)
    (ran : (pullSnapshot forceAcceptRemote subject filingCanonical current snap).Runs
      (portsOf provider) before result after) :
    FirstHalf provider forceAcceptRemote subject before after := by
  obtain ⟨record, found, loadEq⟩ := Option.map_eq_some_iff.mp stored
  have present : (subject.id, TaskRecord.mappingOf subject) ∈ before.tasks.identities := by
    rw [← loadEq] at found ⊢
    exact TaskTable.mem_identities found
  refine ⟨?_, ?_, ?_⟩
  · refine (pullSnapshot_tends forceAcceptRemote subject filingCanonical current snap).runs
      (fun first second => (subject.id, TaskRecord.mappingOf subject) ∈
        first.tasks.identities → SameNeighborhood subject.id first second)
      (fun _ _ => .refl _ _) ?_ ?_ (runs_portsOf ran) present
    · intro first second third left right present
      exact (left present).trans (right ((left present).identities ▸ present))
    · intro op tends first answer second answered present
      exact PortOp.tends_meaning tends answered present
  · refine (pullSnapshot_places forceAcceptRemote subject filingCanonical current snap).runs
      (fun first second => (∀ relation, relation ∈ first.relationsOf subject.id ↔
        relation ∈ subject.relations) →
        ∀ id relation, relation ∈ second.relationsOf id ↔ relation ∈ first.relationsOf id)
      (fun _ _ _ _ => Iff.rfl) ?_ ?_ (runs_portsOf ran) (Database.mem_relationsOf_stored stored)
    · intro first second third left right known id relation
      refine (right (fun relation => ?_) id relation).trans (left known id relation)
      exact (left known subject.id relation).trans (known relation)
    · exact fun op places first answer second answered => relationsOf_places places answered
  · intro unadopted
    have decided : pullDecision forceAcceptRemote subject snap ≠ .pullRemote := by
      simpa [pullAdopts, addressed, fetched] using unadopted
    refine (pullSnapshot_looksAfter forceAcceptRemote subject filingCanonical current snap
      decided).runs (fun first second => ∀ id, second.diff id = first.diff id)
      (fun _ _ => rfl) ?_ ?_ (runs_portsOf ran)
    · intro first second third left right id
      exact (right id).trans (left id)
    · intro op looks first answer second answered
      exact (PortOp.looksAfter_meaning looks answered).2

/-- The last half of a pull: the reconcile from where the first half ended. -/
theorem runs_pullInner {id : TaskId} {result : Except SyncError (Task × List SyncNotice)}
    (ran : (pullInner id forceAcceptRemote).Runs (portsOf provider) before result after)
    (stored : before.stored id = some subject) :
    ((∃ error, result = .error error) ∧
        FirstHalf provider forceAcceptRemote subject before after) ∨
      ∃ canonical remoteId pulled middle reconciled,
        before.address subject = some (canonical, remoteId) ∧ pulled.SamePlace subject ∧
        FirstHalf provider forceAcceptRemote subject before middle ∧
        (reconcileRelationsInbound subject pulled canonical remoteId).Runs (portsOf provider)
          middle reconciled after ∧
        ((∃ error, result = .error error) ↔ ∃ error, reconciled = .error error) := by
  rw [pullInner_eq] at ran
  have idEq := Database.stored_id stored
  have stop : ∀ {α : Type} {program : Action α} {next : α → Action (Task × List SyncNotice)},
      program.Every PortOp.quiet → (program.bind next).Runs (portsOf provider) before result after →
      (∃ first, program.Runs (portsOf provider) before (.ok first) before ∧
          (next first).Runs (portsOf provider) before result after) ∨
        ((∃ error, result = .error error) ∧
          FirstHalf provider forceAcceptRemote subject before after) := by
    intro α program next quiet ran
    rcases runs_quiet_bind_portsOf quiet ran with ran | ⟨failed, rfl⟩
    · exact .inl ran
    · exact .inr ⟨failed, .refl⟩
  rcases stop (getTask_quiet id) ran with ⟨loaded, ranLoad, ran⟩ | failed
  swap
  · exact .inl failed
  have loadedEq := (runs_getTask (runs_portsOf ranLoad)).symm.trans stored
  cases loadedEq
  rcases stop (ensureNotArchived_quiet subject) ran with ⟨_, _, ran⟩ | failed
  swap
  · exact .inl failed
  rcases stop (requiredFilingCanonical_quiet subject) ran with ⟨canonical, ranCanonical, ran⟩ | failed
  swap
  · exact .inl failed
  have canonicalEq := runs_requiredFilingCanonical (runs_portsOf ranCanonical)
  cases remoteEq : subject.remote with
  | none =>
      rw [remoteEq] at ran
      obtain ⟨resultEq, rfl⟩ := ran
      exact .inl ⟨⟨_, resultEq⟩, .refl⟩
  | some current =>
      rw [remoteEq] at ran
      have addressed : before.address subject = some (canonical, current.remoteId) :=
        Database.address_eq_some.mpr ⟨canonicalEq, by rw [remoteEq]; rfl⟩
      rcases stop (every_remote trivial) ran with ⟨snap, ranSnap, ran⟩ | failed
      swap
      · exact .inl failed
      have fetched := runs_remote ranSnap
      have storedHere : before.stored subject.id = some subject := by rw [idEq, stored]
      rcases runs_bind.mp ran with ⟨pulled, middle, ranContent, ran⟩ | ⟨_, failed, resultEq⟩
      · have first := runs_pullSnapshot storedHere addressed fetched ranContent
        have place := (Yields.runs
          (pullSnapshot_yields forceAcceptRemote subject canonical current snap) ranContent).1
        rcases runs_bind.mp ran with ⟨reconciled, last, ranReconcile, ended⟩ |
          ⟨error, failed, resultEq⟩
        · obtain ⟨resultEq, rfl⟩ := ended
          refine .inr ⟨canonical, current.remoteId, pulled, middle, .ok reconciled, addressed,
            place, first, ranReconcile, ?_⟩
          simp [resultEq]
        · refine .inr ⟨canonical, current.remoteId, pulled, middle, .error error, addressed,
            place, first, failed, ?_⟩
          simp [resultEq]
      · exact .inl ⟨⟨_, resultEq⟩, runs_pullSnapshot storedHere addressed fetched failed⟩

end Pull

/-- A completed pull keeps a pending diff exactly when none of the edges that it changes touches
the task; a pull that fails keeps them all. -/
theorem pull_keeps_diff_iff {provider : Provider} {forceAcceptRemote : Bool} {id other : TaskId}
    {before after : Database} {result : Except SyncError (Task × List SyncNotice)}
    (ran : (pullInner id forceAcceptRemote).Runs (portsOf provider) before result after)
    {subject task : Task} (subjectStored : before.stored id = some subject)
    (stored : before.stored other = some task) (pending : task.diffAgainstBaseline ≠ .default)
    (unadopted : other = id → pullAdopts provider forceAcceptRemote before subject = false) :
    (∀ error, result = .error error → after.diff other = before.diff other) ∧
      ∀ value, result = .ok value →
        (after.diff other = before.diff other ↔ PullLeavesOut provider before subject other) := by
  have idEq := Database.stored_id subjectStored
  have kept : ∀ {middle : Database}, FirstHalf provider forceAcceptRemote subject before middle →
      middle.diff other = before.diff other := by
    intro middle first
    by_cases same : other = id
    · exact first.diff (unadopted same) other
    · exact first.same.diff (idEq.symm ▸ same)
  have before_pending : before.diff other ≠ some .default := by
    unfold Database.diff
    rw [stored, Option.map_some]
    exact fun same => pending (Option.some.inj same)
  rcases runs_pullInner ran subjectStored with ⟨⟨error, failed⟩, first⟩ |
    ⟨canonical, remoteId, pulled, middle, reconciled, addressed, place, first, ranReconcile, fails⟩
  · exact ⟨fun _ _ => kept first, fun value ended => by rw [failed] at ended; cases ended⟩
  · rcases runs_reconcileRelationsInbound ranReconcile with ⟨failed, rfl⟩ |
      ⟨state, subs, blockers, parents, reconciledEq, subsEq, blockersEq, parentsEq, follows, wrote⟩
    · obtain ⟨error, resultEq⟩ := fails.mpr failed
      exact ⟨fun _ _ => kept first, fun value ended => by rw [resultEq] at ended; cases ended⟩
    · have rewired : pullRewires provider before subject =
          middle.inboundChanges pulled subs blockers parents := by
        simp only [pullRewires, addressed, subsEq, blockersEq, parentsEq]
        exact (inboundChanges_congr first.same place.id place.workspaceId place.relations
          subs blockers parents).symm
      refine ⟨fun error ended => ?_, fun value _ => ?_⟩
      · obtain ⟨_, reconciledError⟩ := fails.mp ⟨error, ended⟩
        rw [reconciledEq] at reconciledError
        cases reconciledError
      · unfold PullLeavesOut
        rw [rewired, ← place.id]
        rcases wrote with ⟨unchanged, rfl⟩ | ⟨changed, instant, saved⟩
        · have none : after.inboundChanges pulled subs blockers parents = [] := by
            refine List.eq_nil_iff_forall_not_mem.mpr fun far member => ?_
            have changed := follows.changed.mpr ⟨far, member⟩
            rw [unchanged] at changed
            cases changed
          simp [none, kept first]
        · obtain ⟨far, member⟩ := follows.changed.mp changed
          have some : middle.inboundChanges pulled subs blockers parents ≠ [] :=
            List.ne_nil_of_mem member
          simp only [some, imp_false, ← not_or]
          constructor
          · intro same within
            exact before_pending (same.symm.trans ((follows.saved saved other).1 within))
          · intro outside
            have sameRecord := (follows.saved saved other).2 outside
            have sameDiff : after.diff other = middle.diff other := by
              unfold Database.diff Database.stored
              rw [sameRecord]
            exact sameDiff.trans (kept first)

def parentProvider : Provider
  | .fetchRemote _ remoteId => .ok ⟨remoteId, none, "t", "", false, .epoch, [], []⟩
  | .fetchComments .. => .ok []
  | .fetchSubIssues .. => .ok [⟨"github.com/acme/one", ⟨"8", none, "t", "", false, .epoch, [], []⟩⟩]
  | .fetchBlockedBy .. => .ok []
  | .fetchParent .. => .ok []
  | op => obligingProvider op

def editedNeighbor : Database :=
  let mirror (remoteId : String) : ImportMirrorCmd :=
    ⟨⟨1⟩, some ⟨21⟩, "github", remoteId, "t", "", [], false⟩
  let first := after parentProvider .epoch (TaskService.importMirror (mirror "7")) twoRepos
  let second := after parentProvider .epoch (TaskService.importMirror (mirror "8")) first
  after parentProvider .epoch
    (TaskService.update { taskId := ⟨2⟩, title := some "edited" }) second

/-- The pull of task 1 adopts nothing and saves task 2 as aligned: its edit is lost to the diff. -/
theorem pull_drops_diff_of_neighbor : ∃ value,
    (pullInner ⟨1⟩ false).Runs (portsOf parentProvider) editedNeighbor (.ok value)
      (after parentProvider .epoch (pullInner ⟨1⟩ false) editedNeighbor) ∧
    (editedNeighbor.stored ⟨2⟩).map Task.sync = some .dirtyLocal ∧
    editedNeighbor.diff ⟨2⟩ = some ⟨some "edited", none, none, none⟩ ∧
    (after parentProvider .epoch (pullInner ⟨1⟩ false) editedNeighbor).diff ⟨2⟩ ≠
      editedNeighbor.diff ⟨2⟩ := by
  obtain ⟨value, ran⟩ := runs_portsOf_of_ok (show
    (ending parentProvider .epoch (pullInner ⟨1⟩ false) editedNeighbor).1.isOk = true by decide)
  exact ⟨value, ran, by decide, by decide, by decide⟩

theorem pull_keeps_diff_iff_editedNeighbor : ∃ subject value,
    editedNeighbor.stored ⟨1⟩ = some subject ∧
      ((after parentProvider .epoch (pullInner ⟨1⟩ false) editedNeighbor).diff ⟨2⟩ =
          editedNeighbor.diff ⟨2⟩ ↔
        PullLeavesOut parentProvider editedNeighbor subject ⟨2⟩) ∧
      (pullInner ⟨1⟩ false).Runs (portsOf parentProvider) editedNeighbor (.ok value)
        (after parentProvider .epoch (pullInner ⟨1⟩ false) editedNeighbor) := by
  obtain ⟨value, ran⟩ := runs_portsOf_of_ok (show
    (ending parentProvider .epoch (pullInner ⟨1⟩ false) editedNeighbor).1.isOk = true by decide)
  obtain ⟨subject, subjectStored⟩ : ∃ subject, editedNeighbor.stored ⟨1⟩ = some subject :=
    ⟨_, rfl⟩
  obtain ⟨task, stored, pending⟩ : ∃ task, editedNeighbor.stored ⟨2⟩ = some task ∧
      task.diffAgainstBaseline ≠ .default := ⟨_, rfl, by decide⟩
  exact ⟨subject, value, subjectStored,
    (pull_keeps_diff_iff ran subjectStored stored pending nofun).2 value rfl, ran⟩

end RepoLink
