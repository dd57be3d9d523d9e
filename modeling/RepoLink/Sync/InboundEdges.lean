import RepoLink.Sync.EdgeCalls

/-!
The edges that the inbound reconcile of a pull adds and drops: exactly the listed ones that are
missing, and the stored ones to backed tasks that are not listed.
-/

namespace RepoLink

open Effects Program KeyedTable

/-- What becomes of each relation of the pulled task; `none` leaves it alone. -/
abbrev EdgeEdit := TaskRelation → Option Bool

namespace EdgeEdit

def Leaves (edit : EdgeEdit) (relation : TaskRelation) (was : Prop) : Prop :=
  (edit relation).elim was (· = true)

def decide (kind : RelationKind) (others : List TaskId) (present : Bool) (edit : EdgeEdit) :
    EdgeEdit :=
  fun relation =>
    if relation.kind = kind ∧ relation.other ∈ others then some present else edit relation

theorem decide_nil (kind : RelationKind) (present : Bool) (edit : EdgeEdit) :
    edit.decide kind [] present = edit := by
  funext relation
  exact if_neg fun named => List.not_mem_nil named.2

theorem decide_append (kind : RelationKind) (first second : List TaskId) (present : Bool)
    (edit : EdgeEdit) : (edit.decide kind first present).decide kind second present =
      edit.decide kind (first ++ second) present := by
  funext relation
  unfold decide
  by_cases same : relation.kind = kind
  · by_cases inSecond : relation.other ∈ second
    · simp [same, inSecond]
    · simp [same, inSecond]
  · simp [same]

theorem leaves_decide {kind : RelationKind} {other : TaskId} {present : Bool} {edit : EdgeEdit}
    {relation : TaskRelation} {was : Prop} :
    (edit.decide kind [other] present).Leaves relation was ↔
      if relation = ⟨kind, other⟩ then present = true else edit.Leaves relation was := by
  unfold Leaves decide
  by_cases named : relation = ⟨kind, other⟩
  · subst named
    simp
  · have unnamed : ¬(relation.kind = kind ∧ relation.other ∈ [other]) := by
      rintro ⟨rfl, member⟩
      exact named (List.mem_singleton.mp member ▸ rfl)
    rw [if_neg unnamed, if_neg named]

end EdgeEdit

namespace SyncService

structure Rewires (task : Task) (edit : EdgeEdit) (state : Reconciliation) : Prop where
  subject : ∀ relation, relation ∈ state.task.relations ↔
    edit.Leaves relation (relation ∈ task.relations)
  neighbors : ∀ neighbor ∈ state.neighbors, ∀ half, half ∈ neighbor.current.relations ↔
    if half.other = task.id then
      edit.Leaves (half.reverse neighbor.loaded.id) (half ∈ neighbor.loaded.relations)
    else half ∈ neighbor.loaded.relations
  covered : ∀ relation, (edit relation).isSome → ∃ neighbor ∈ state.neighbors,
    neighbor.loaded.id = relation.other
  apart : ∀ relation, (edit relation).isSome → relation.other ≠ task.id

structure Carried (database : Database) (task : Task) (edit : EdgeEdit) (state : Reconciliation) :
    Prop where
  follows : ∃ far, Follows database task far state
  rewires : Rewires task edit state

variable {database after : Database} {task : Task} {edit : EdgeEdit} {state next : Reconciliation}

theorem Carried.start (database : Database) (task : Task) :
    Carried database task (fun _ => none) ⟨task, [], [], false⟩ :=
  ⟨⟨_, .start database task⟩, fun _ => Iff.rfl, fun _ member => (List.not_mem_nil member).elim,
    nofun, nofun⟩

theorem Rewires.join (rewires : Rewires task edit state) {fresh : Task}
    (absent : ∀ neighbor ∈ state.neighbors, neighbor.loaded.id ≠ fresh.id) :
    Rewires task edit { state with neighbors := state.neighbors ++ [⟨fresh, fresh⟩] } := by
  refine ⟨rewires.subject, ?_, ?_, rewires.apart⟩
  · intro neighbor member half
    rcases List.mem_append.mp member with old | new
    · exact rewires.neighbors neighbor old half
    · rw [List.mem_singleton.mp new]
      split
      · have undecided : edit (half.reverse fresh.id) = none := by
          cases decided : edit (half.reverse fresh.id) with
          | none => rfl
          | some present =>
              obtain ⟨neighbor, old, named⟩ := rewires.covered (half.reverse fresh.id)
                (by rw [decided]; rfl)
              exact (absent neighbor old named).elim
        rw [EdgeEdit.Leaves, undecided]
        rfl
      · exact Iff.rfl
  · intro relation decided
    obtain ⟨neighbor, member, named⟩ := rewires.covered relation decided
    exact ⟨neighbor, List.mem_append_left _ member, named⟩

theorem Rewires.load {other : TaskId} {result : Neighbor × Reconciliation}
    (rewires : Rewires task edit state)
    (ran : (loadNeighbor other state).Runs portMeaning database (.ok result) after) :
    Rewires task edit result.2 ∧ result.1 ∈ result.2.neighbors ∧ result.1.loaded.id = other := by
  obtain ⟨neighbor, loaded⟩ := result
  rcases runs_loadNeighbor ran with ⟨member, named, rfl⟩ | ⟨absent, fresh, stored, rfl, rfl⟩
  · exact ⟨rewires, member, named⟩
  · have named := Database.stored_id stored
    refine ⟨rewires.join fun neighbor member => named ▸ absent neighbor member, ?_, named⟩
    exact List.mem_append_right _ (List.mem_singleton_self _)

/-- One edge is set on the subject and on every copy of its far end. -/
theorem Rewires.touch (rewires : Rewires task edit state) (sameId : state.task.id = task.id)
    {kind : RelationKind} {other : TaskId} {present : Bool} (different : other ≠ task.id)
    (known : ∃ neighbor ∈ state.neighbors, neighbor.loaded.id = other)
    {change changeTask : Task → Task}
    (far : Sets kind.inverse state.task.id (present = true) change)
    (near : Sets kind other (present = true) changeTask) (notices : List SyncNotice) :
    let mirrored := state.updateNeighbor other change
    Rewires task (edit.decide kind [other] present)
      { mirrored with task := changeTask mirrored.task, notices, changed := true } := by
  intro mirrored
  refine ⟨fun relation => ?_, fun neighbor member half => ?_, fun relation decided => ?_,
    fun relation decided => ?_⟩
  · rw [EdgeEdit.leaves_decide]
    split
    · rename_i named
      exact named ▸ near.named _
    · rename_i unnamed
      exact (near.others _ _ unnamed).trans (rewires.subject relation)
  · obtain ⟨old, inOld, rfl⟩ := List.mem_map.mp member
    have before := rewires.neighbors old inOld half
    split
    · rename_i isOther
      by_cases named : half = ⟨kind.inverse, task.id⟩
      · subst named
        rw [if_pos rfl, EdgeEdit.leaves_decide, if_pos, ← sameId]
        · exact far.named _
        · simp only [TaskRelation.reverse, RelationKind.inverse_inverse, isOther]
      · have unnamed : half.other = task.id → half.reverse old.loaded.id ≠ ⟨kind, other⟩ := by
          intro subject same
          refine named ?_
          rw [← TaskRelation.reverse_reverse old.loaded.id half, same, subject]
          rfl
        rw [← sameId] at named
        refine (far.others _ _ named).trans (before.trans ?_)
        split
        · rename_i subject
          rw [EdgeEdit.leaves_decide, if_neg (unnamed subject)]
        · exact Iff.rfl
    · rename_i notOther
      refine before.trans ?_
      split
      · rw [EdgeEdit.leaves_decide, if_neg]
        exact fun same => notOther (congrArg TaskRelation.other same)
      · exact Iff.rfl
  · have covers : ∀ id, (∃ neighbor ∈ state.neighbors, neighbor.loaded.id = id) →
        ∃ neighbor ∈ mirrored.neighbors, neighbor.loaded.id = id := by
      rintro id ⟨neighbor, member, rfl⟩
      refine ⟨_, List.mem_map_of_mem member, ?_⟩
      split <;> rfl
    unfold EdgeEdit.decide at decided
    split at decided
    · rename_i named
      exact covers _ (List.mem_singleton.mp named.2 ▸ known)
    · exact covers _ (rewires.covered relation decided)
  · unfold EdgeEdit.decide at decided
    split at decided
    · rename_i named
      exact List.mem_singleton.mp named.2 ▸ different
    · exact rewires.apart relation decided

theorem Carried.addEdge {kind inverse : RelationKind} (inverseEq : inverse = kind.inverse)
    {current : List TaskId} {other : TaskId} (held : Carried database task edit state)
    (backed : ∀ stored, database.stored other = some stored → stored.remote.isSome)
    (ran : (SyncService.addEdge kind inverse current state other).Runs portMeaning database
      (.ok next) after) :
    Carried database task (edit.decide kind
      ([other].filter fun id => id ≠ task.id ∧ id ∉ current) true) next ∧
      KeepsOtherKinds kind state next ∧ after = database := by
  obtain ⟨⟨far, follows⟩, rewires⟩ := held
  obtain ⟨moved, kept, same⟩ := follows.addEdge backed ran
  refine ⟨⟨⟨_, moved⟩, ?_⟩, kept, same⟩
  rcases follows.addEdge_cases ran with
    ⟨rfl, nothing⟩ | ⟨neighbor, loaded, now, ranLoad, owed, rfl⟩
  · have none : ([other].filter fun id => id ≠ task.id ∧ id ∉ current) = [] := by
      rw [List.filter_cons_of_neg (by simpa using nothing), List.filter_nil]
    rw [none, EdgeEdit.decide_nil]
    exact rewires
  · obtain ⟨joined, member, named⟩ := rewires.load ranLoad
    have sameTask : loaded.task = state.task := loadNeighbor_task ranLoad
    have only : ([other].filter fun id => id ≠ task.id ∧ id ∉ current) = [other] := by
      rw [List.filter_cons_of_pos (by simpa using owed), List.filter_nil]
    subst inverseEq
    rw [only, ← follows.id, ← sameTask]
    have yes : True ↔ true = true := iff_of_true trivial rfl
    exact joined.touch ((congrArg Task.id sameTask).trans follows.id) owed.1
      ⟨neighbor, member, named⟩ ((Sets.adding now _ _).congr yes) ((Sets.adding now _ _).congr yes) _

theorem Carried.removeEdge {kind inverse : RelationKind} (inverseEq : inverse = kind.inverse)
    {desired : List TaskId} {other : TaskId} (held : Carried database task edit state)
    (ran : (SyncService.removeEdge kind inverse desired state other).Runs portMeaning database
      (.ok next) after) :
    Carried database task (edit.decide kind
      ([other].filter fun id => id ≠ task.id ∧ id ∉ desired ∧ database.backed id = true) false)
        next ∧
      KeepsOtherKinds kind state next ∧ after = database := by
  obtain ⟨⟨far, follows⟩, rewires⟩ := held
  obtain ⟨moved, kept, same⟩ := follows.removeEdge ran
  refine ⟨⟨⟨_, moved⟩, ?_⟩, kept, same⟩
  rcases follows.removeEdge_cases ran with
    ⟨rfl, nothing⟩ | ⟨neighbor, loaded, now, ranLoad, owed, rfl⟩
  · have none : ([other].filter fun id =>
        id ≠ task.id ∧ id ∉ desired ∧ database.backed id = true) = [] := by
      rw [List.filter_cons_of_neg (by simpa using nothing), List.filter_nil]
    rw [none, EdgeEdit.decide_nil]
    exact rewires
  · obtain ⟨joined, member, named⟩ := rewires.load ranLoad
    have sameTask : loaded.task = state.task := loadNeighbor_task ranLoad
    have only : ([other].filter fun id =>
        id ≠ task.id ∧ id ∉ desired ∧ database.backed id = true) = [other] := by
      rw [List.filter_cons_of_pos (by simpa using owed), List.filter_nil]
    subst inverseEq
    rw [only, ← follows.id, ← sameTask]
    have no : False ↔ false = true := iff_of_false id Bool.false_ne_true
    exact joined.touch ((congrArg Task.id sameTask).trans follows.id) owed.1
      ⟨neighbor, member, named⟩ ((Sets.removing now _ _).congr no)
      ((Sets.removing now _ _).congr no) _

theorem Carried.loop {kind : RelationKind} (wanted : TaskId → Bool) (present : Bool)
    {items : List TaskId} {body : Reconciliation → TaskId → Action Reconciliation}
    (each : ∀ edit state next after other, other ∈ items → Carried database task edit state →
      (body state other).Runs portMeaning database (.ok next) after →
      Carried database task (edit.decide kind ([other].filter wanted) present) next ∧
        KeepsOtherKinds kind state next ∧ after = database)
    (held : Carried database task edit state)
    (ran : (foldEach body items state).Runs portMeaning database (.ok next) after) :
    Carried database task (edit.decide kind (items.filter wanted) present) next ∧
      KeepsOtherKinds kind state next := by
  have round : ∀ done item value next before after, item ∈ items →
      (Carried database task (edit.decide kind (done.filter wanted) present) value ∧
        KeepsOtherKinds kind state value ∧ before = database) →
      (body value item).Runs portMeaning before (.ok next) after →
      Carried database task (edit.decide kind ((done ++ [item]).filter wanted) present) next ∧
        KeepsOtherKinds kind state next ∧ after = database := by
    rintro done item value next before after member ⟨carried, kept, rfl⟩ ran
    obtain ⟨moved, others, same⟩ := each _ value next after item member carried ran
    rw [EdgeEdit.decide_append, ← List.filter_append] at moved
    exact ⟨moved, fun other different => (others other different).trans (kept other different),
      same⟩
  have start : Carried database task (edit.decide kind (([] : List TaskId).filter wanted) present)
      state ∧ KeepsOtherKinds kind state state ∧ database = database :=
    ⟨by rw [List.filter_nil, EdgeEdit.decide_nil]; exact held, fun _ _ => rfl, rfl⟩
  have ended := runs_foldEach round (List.Subset.refl items) start ran
  rw [List.nil_append] at ended
  exact ⟨ended.1, ended.2.1⟩

end SyncService

def Task.missing (kind : RelationKind) (desired : List TaskId) (task : Task) : List TaskId :=
  desired.filter fun other => other ≠ task.id ∧ other ∉ task.related kind

def Database.unlisted (database : Database) (kind : RelationKind) (desired : List TaskId)
    (task : Task) : List TaskId :=
  (task.related kind).filter fun other =>
    other ≠ task.id ∧ other ∉ desired ∧ database.backed other = true

/-- The families that a pull reconciles, with the tasks that are listed for each. An empty answer
about the parent says nothing. -/
def Database.listings (database : Database) (task : Task)
    (subs blockers parents : List RemoteChildIssue) : List (RelationKind × List TaskId) :=
  let mirrors := database.localMirrors task.workspaceId
  let desiredParents := (mirrors parents).filter fun id => id ≠ task.id
  [(.parentOf, mirrors subs), (.blockedBy, mirrors blockers)] ++
    if desiredParents.isEmpty then [] else [(.childOf, desiredParents)]

def Database.inboundEdit (database : Database) (task : Task)
    (listings : List (RelationKind × List TaskId)) : EdgeEdit :=
  listings.foldl (fun edit (kind, desired) =>
    (edit.decide kind (task.missing kind desired) true).decide kind
      (database.unlisted kind desired task) false) fun _ => none

namespace SyncService

variable {database after : Database} {task : Task} {edit : EdgeEdit} {state next : Reconciliation}

theorem Carried.family {kind inverse : RelationKind} (inverseEq : inverse = kind.inverse)
    {desired : List TaskId} (held : Carried database task edit state)
    (related : state.task.related kind = task.related kind)
    (backed : ∀ other ∈ desired, ∀ stored, database.stored other = some stored →
      stored.remote.isSome)
    (ran : (reconcileFamily kind inverse desired state).Runs portMeaning database (.ok next)
      after) :
    Carried database task ((edit.decide kind (task.missing kind desired) true).decide kind
        (database.unlisted kind desired task) false) next ∧
      KeepsOtherKinds kind state next := by
  have currentEq : state.related kind = task.related kind := related
  unfold reconcileFamily at ran
  rw [currentEq] at ran
  obtain ⟨added, ranAdd, ranRemove⟩ := runs_quiet_bind
    (every_foldEach (addEdge_quiet kind inverse _) desired state) ran
  obtain ⟨adding, keptAdding⟩ := Carried.loop
    (fun id => id ≠ task.id ∧ id ∉ task.related kind) true
    (fun edit state next after other member carried ran =>
      carried.addEdge inverseEq (backed other member) ran) held ranAdd
  obtain ⟨removing, keptRemoving⟩ := Carried.loop
    (fun id => id ≠ task.id ∧ id ∉ desired ∧ database.backed id = true) false
    (fun edit state next after other member carried ran => carried.removeEdge inverseEq ran)
    adding ranRemove
  exact ⟨removing, fun other different => (keptRemoving other different).trans
    (keptAdding other different)⟩

theorem Carried.parent {parents : List RemoteChildIssue}
    (held : Carried database task edit state)
    (related : state.task.related .childOf = task.related .childOf)
    (ran : (reconcileParent parents state).Runs portMeaning database (.ok next) after) :
    let desired := (database.localMirrors task.workspaceId parents).filter fun id => id ≠ task.id
    Carried database task (if desired.isEmpty then edit else
      (edit.decide .childOf (task.missing .childOf desired) true).decide .childOf
        (database.unlisted .childOf desired task) false) next := by
  intro desired
  obtain ⟨⟨far, follows⟩, rewires⟩ := held
  have workspaceEq : state.task.workspaceId = task.workspaceId := by
    obtain ⟨_, _, taskEq⟩ := follows.subject
    rw [taskEq]
  have noticed : ∀ notices, Carried database task edit { state with notices } := fun notices =>
    ⟨⟨far, follows.subject, follows.loaded, follows.touched, follows.changed⟩,
      rewires.subject, rewires.neighbors, rewires.covered, rewires.apart⟩
  obtain ⟨notices, ⟨empty, rfl⟩ | ⟨wanted, ran⟩⟩ := runs_reconcileParent ran
  · rw [workspaceEq, follows.id] at empty
    rw [if_pos empty]
    exact noticed notices
  · rw [workspaceEq, follows.id] at wanted ran
    rw [if_neg wanted]
    have backed : ∀ other ∈ desired, ∀ stored, database.stored other = some stored →
        stored.remote.isSome :=
      fun other member stored found => localMirror_backed (List.mem_of_mem_filter member) found
    have inverse : RelationKind.parentOf = RelationKind.childOf.inverse := rfl
    exact (Carried.family inverse (noticed notices) related backed ran).1

theorem gatherInbound_rewires {provider : Provider} {filingCanonical remoteId : String}
    {subs blockers parents : List RemoteChildIssue}
    (subsEq : provider (.fetchSubIssues filingCanonical remoteId) = .ok subs)
    (blockersEq : provider (.fetchBlockedBy filingCanonical remoteId) = .ok blockers)
    (parentsEq : provider (.fetchParent filingCanonical remoteId) = .ok parents)
    (ran : (gatherInbound task filingCanonical remoteId).Runs (portsOf provider) database
      (.ok state) after) :
    Carried database task
      (database.inboundEdit task (database.listings task subs blockers parents)) state := by
  obtain ⟨_, _, _, children, blocked, listedSubs, listedBlockers, listedParents, ranChildren,
    ranBlocked, ranParent⟩ := runs_gatherInbound_steps ran
  cases listedSubs.symm.trans subsEq
  cases listedBlockers.symm.trans blockersEq
  cases listedParents.symm.trans parentsEq
  obtain ⟨afterChildren, keptChildren⟩ := (Carried.start database task).family rfl rfl
    (fun other member stored => localMirror_backed member) ranChildren
  obtain ⟨afterBlocking, keptBlocking⟩ := afterChildren.family rfl (keptChildren .blockedBy nofun)
    (fun other member stored => localMirror_backed member) ranBlocked
  have ended := afterBlocking.parent
    ((keptBlocking .childOf nofun).trans (keptChildren .childOf nofun)) ranParent
  unfold Database.listings
  dsimp only at ended ⊢
  split at ended
  · rename_i empty
    rw [if_pos empty]
    exact ended
  · rename_i wanted
    rw [if_neg wanted]
    exact ended

end SyncService

end RepoLink
