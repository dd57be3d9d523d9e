import Mathlib.Data.List.Dedup
import RepoLink.Library.Recall
import RepoLink.Store.Edges
import RepoLink.TaskService.Edits

/-!
The batches of the relation verbs: whatever was loaded, an edge changes at both of its ends, or
at one end when the loaded copy of the other already agrees.
-/

namespace RepoLink

open Effects Program

def loads : Recorder ports Task where
  possible
    | .store (.getTask id), .ok task => Task.id task = id
    | _, _ => True
  notes
    | .store (.getTask _), .ok task => [task]
    | _, _ => []

def PairedCall (seen : List Task) : PortOp → Prop
  | .store op => Paired seen op.writes
  | _ => True

theorem PairedCall.writeless {op : StoreOp} (none : op.writes = []) (seen : List Task) :
    PairedCall seen (.store op) := by
  intro write member
  rw [none] at member
  cases member

theorem PairedCall.ofQuiet {op : PortOp} (quiet : op.quiet) (seen : List Task) :
    PairedCall seen op := by
  cases op with
  | store op => exact writeless (StoreOp.reads_only quiet).1 seen
  | _ => trivial

section Rules

variable {ε α : Type} {seen : List Task}

theorem recalls_quietly {post : α → Prop} {program : Service ε α}
    (quiet : program.Every PortOp.quiet) (yields : program.Yields post) (seen : List Task) :
    program.Recalls loads PairedCall (fun value _ => post value) seen :=
  .ofEvery (fun _ calm => PairedCall.ofQuiet calm) quiet yields seen

variable [OfPortError ε]

theorem recalls_query {op : StoreOp} (permitted : PairedCall seen (.store op)) :
    (query op : Service ε op.Answer).Recalls loads PairedCall (fun _ _ => True) seen := by
  refine ⟨permitted, fun answer _ => ?_⟩
  cases answer <;> trivial

theorem recalls_getTask (id : TaskId) (seen : List Task) :
    (query (.getTask id) : Service ε Task).Recalls loads PairedCall
      (fun task later => task ∈ later ∧ task.id = id) seen := by
  refine ⟨PairedCall.writeless rfl seen, fun answer possible => ?_⟩
  cases answer with
  | ok task => exact ⟨List.mem_append_right seen (List.mem_singleton_self task), possible⟩
  | error error => trivial

end Rules

theorem TaskRelation.named_iff {relation : TaskRelation} {kind : RelationKind} {other : TaskId} :
    relation = ⟨kind, other⟩ ↔ relation.kind = kind ∧ relation.other = other := by
  obtain ⟨_, _⟩ := relation
  simp

namespace Task

theorem addRelation_id (now : Timestamp) (kind : RelationKind) (other : TaskId) (task : Task) :
    (task.addRelation now kind other).id = task.id :=
  (Edited.addRelation now kind other task).id

theorem removeRelation_id (now : Timestamp) (kind : RelationKind) (other : TaskId) (task : Task) :
    (task.removeRelation now kind other).2.id = task.id :=
  (Edited.removeRelation now kind other task).id

theorem mem_addRelation {now : Timestamp} {kind : RelationKind} {other : TaskId} {task : Task}
    {relation : TaskRelation} : relation ∈ (task.addRelation now kind other).relations ↔
      relation ∈ task.relations ∨ relation = ⟨kind, other⟩ := by
  unfold addRelation
  split
  · rename_i present
    obtain ⟨stored, member, same⟩ := List.any_eq_true.mp present
    obtain rfl := TaskRelation.named_iff.mpr (by simpa using same)
    exact ⟨.inl, fun either => either.elim (fun known => known) fun equal => equal ▸ member⟩
  · simp [touch]

theorem removeRelation_relations (now : Timestamp) (kind : RelationKind) (other : TaskId)
    (task : Task) : (task.removeRelation now kind other).2.relations =
      task.relations.filter fun relation => ¬(relation.kind = kind ∧ relation.other = other) := by
  unfold removeRelation
  dsimp only
  split <;> rfl

theorem mem_removeRelation {now : Timestamp} {kind : RelationKind} {other : TaskId} {task : Task}
    {relation : TaskRelation} : relation ∈ (task.removeRelation now kind other).2.relations ↔
      relation ∈ task.relations ∧ relation ≠ ⟨kind, other⟩ := by
  rw [removeRelation_relations, List.mem_filter, decide_eq_true_eq, Ne, TaskRelation.named_iff]

theorem removeRelation_removed {now : Timestamp} {kind : RelationKind} {other : TaskId}
    {task : Task} : (task.removeRelation now kind other).1 = true ↔
      ⟨kind, other⟩ ∈ task.relations := by
  have dropped : (task.relations.filter fun relation =>
      ¬(relation.kind = kind ∧ relation.other = other)).length ≠ task.relations.length ↔
      ⟨kind, other⟩ ∈ task.relations := by
    rw [Ne, List.length_filter_eq_length_iff]
    constructor
    · intro changed
      by_contra absent
      refine changed fun relation member => decide_eq_true fun named => ?_
      exact absent (TaskRelation.named_iff.mpr named ▸ member)
    · intro member kept
      have contradiction := kept _ member
      simp at contradiction
  unfold removeRelation
  dsimp only
  split
  · rename_i changed
    exact ⟨fun _ => dropped.mp changed, fun _ => rfl⟩
  · rename_i same
    exact ⟨nofun, fun member => (same (dropped.mpr member)).elim⟩

end Task

namespace TaskService

variable {seen : List Task} {kind : RelationKind} {now : Timestamp} {task other : Task}

theorem added_paired (different : other.id ≠ task.id) : Paired seen
    [⟨some task, task.addRelation now kind other.id, .localEdit⟩,
      ⟨some other, other.addRelation now kind.inverse task.id, .localEdit⟩] := by
  intro write member relation changes
  rcases List.mem_pair.mp member with rfl | rfl
  · obtain rfl : relation = ⟨kind, other.id⟩ := by
      by_contra another
      exact changes (Task.mem_addRelation.trans (or_iff_left another))
    refine .both ?_ ⟨_, List.mem_cons_of_mem _ List.mem_cons_self, Task.addRelation_id ..⟩
    intro far farMember named
    rcases List.mem_pair.mp farMember with rfl | rfl
    · exact (different (named.symm.trans (Task.addRelation_id ..))).elim
    · rw [TaskWrite.Matches, Task.mem_addRelation, Task.mem_addRelation, Task.addRelation_id]
      exact ⟨fun _ => .inr rfl, fun _ => .inr rfl⟩
  · obtain rfl : relation = ⟨kind.inverse, task.id⟩ := by
      by_contra another
      exact changes (Task.mem_addRelation.trans (or_iff_left another))
    refine .both ?_ ⟨_, List.mem_cons_self, Task.addRelation_id ..⟩
    intro far farMember named
    rcases List.mem_pair.mp farMember with rfl | rfl
    · rw [TaskWrite.Matches, Task.mem_addRelation, Task.mem_addRelation, Task.addRelation_id]
      refine ⟨fun _ => .inr rfl, fun _ => .inr ?_⟩
      rw [TaskRelation.reverse, RelationKind.inverse_inverse]
    · exact (different ((Task.addRelation_id ..).symm.trans named)).elim

theorem addRelation_recalls (taskId : TaskId) (kind : RelationKind) (otherId : TaskId)
    (seen : List Task) : (addRelation taskId kind otherId).Recalls loads PairedCall
      (fun _ _ => True) seen := by
  refine (recalls_getTask taskId seen).bind fun task seen _ _ => ?_
  refine (recalls_getTask otherId seen).bind fun other seen _ _ => ?_
  split
  · trivial
  · rename_i different
    refine (recalls_quietly (closesCycle_quiet ..) (yields_any _) seen).bind fun cyclic seen _ _ => ?_
    split
    · trivial
    · refine (recalls_quietly (every_clock trivial) (yields_any _) seen).bind fun now seen _ _ => ?_
      refine (recalls_quietly (planRelationWhen_quiet ..) (yields_any _) seen).bind
        fun entries seen _ _ => ?_
      refine Recalls.bind (recalls_query ?_) fun _ _ _ _ => trivial
      exact added_paired different

theorem stripped_end {batch : List TaskWrite} {source : SnapshotSource}
    (rows : ∀ far ∈ batch, far.task.id = other.id →
      far.task = (other.removeRelation now kind.inverse task.id).2)
    (row : (other.removeRelation now kind.inverse task.id).1 = true →
      ∃ far ∈ batch, far.task.id = other.id) (known : other ∈ seen) {relation : TaskRelation}
    (changes : (TaskWrite.mk (some task) (task.removeRelation now kind other.id).2 source).Changes
      relation) :
    Accounted seen batch ⟨some task, (task.removeRelation now kind other.id).2, source⟩ relation := by
  obtain rfl : relation = ⟨kind, other.id⟩ := by
    by_contra another
    exact changes (Task.mem_removeRelation.trans (and_iff_left another))
  refine .ofEnds ?_ ?_
  · intro far member named
    rw [TaskWrite.Matches, rows far member named, Task.mem_removeRelation, Task.mem_removeRelation,
      Task.removeRelation_id]
    exact ⟨fun kept => (kept.2 rfl).elim, fun kept => (kept.2 rfl).elim⟩
  · intro unwritten
    refine ⟨other, known, rfl, ?_⟩
    rw [TaskWrite.Matches, Task.mem_removeRelation, Task.removeRelation_id]
    refine ⟨fun half => ?_, fun kept => (kept.2 rfl).elim⟩
    obtain ⟨far, member, named⟩ := row (Task.removeRelation_removed.mpr half)
    exact (unwritten far member named).elim

theorem removed_paired (different : other.id ≠ task.id) (knownTask : task ∈ seen)
    (knownOther : other ∈ seen) {stripped reciprocal : Bool × Task}
    (strippedEq : task.removeRelation now kind other.id = stripped)
    (reciprocalEq : other.removeRelation now kind.inverse task.id = reciprocal) : Paired seen
    ((if stripped.1 then [⟨some task, stripped.2, .localEdit⟩] else []) ++
      (if reciprocal.1 then [⟨some other, reciprocal.2, .localEdit⟩] else [])) := by
  have strippedId : stripped.2.id = task.id := strippedEq ▸ Task.removeRelation_id ..
  have reciprocalId : reciprocal.2.id = other.id := reciprocalEq ▸ Task.removeRelation_id ..
  have inverse : task.removeRelation now kind.inverse.inverse other.id = stripped := by
    rw [RelationKind.inverse_inverse, strippedEq]
  have rows : ∀ far ∈ (if stripped.1 then [TaskWrite.mk (some task) stripped.2 .localEdit] else []) ++
      (if reciprocal.1 then [TaskWrite.mk (some other) reciprocal.2 .localEdit] else []),
      far = ⟨some task, stripped.2, .localEdit⟩ ∨ far = ⟨some other, reciprocal.2, .localEdit⟩ := by
    intro far member
    rcases List.mem_append.mp member with first | second
    · exact .inl (List.mem_singleton.mp (List.mem_ite_nil_right.mp first).2)
    · exact .inr (List.mem_singleton.mp (List.mem_ite_nil_right.mp second).2)
  intro write member relation changes
  rcases rows write member with rfl | rfl
  · cases strippedEq
    refine stripped_end ?_ ?_ knownOther changes
    · rintro far farMember named
      rcases rows far farMember with rfl | rfl
      · exact (different (named.symm.trans strippedId)).elim
      · exact congrArg Prod.snd reciprocalEq.symm
    · intro dropped
      rw [reciprocalEq] at dropped
      exact ⟨_, List.mem_append_right _ (by rw [if_pos dropped]; exact List.mem_cons_self),
        reciprocalId⟩
  · cases reciprocalEq
    refine stripped_end ?_ ?_ knownTask changes
    · rintro far farMember named
      rcases rows far farMember with rfl | rfl
      · exact congrArg Prod.snd inverse.symm
      · exact (different (reciprocalId.symm.trans named)).elim
    · intro dropped
      rw [inverse] at dropped
      exact ⟨_, List.mem_append_left _ (by rw [if_pos dropped]; exact List.mem_cons_self),
        strippedId⟩

theorem removeRelation_recalls (taskId : TaskId) (kind : RelationKind) (otherId : TaskId)
    (seen : List Task) : (removeRelation taskId kind otherId).Recalls loads PairedCall
      (fun _ _ => True) seen := by
  refine (recalls_getTask taskId seen).bind fun task seen _ loadedTask => ?_
  refine (recalls_getTask otherId seen).bind fun other later grown loadedOther => ?_
  split
  · trivial
  · rename_i different
    refine (recalls_quietly (every_clock trivial) (yields_any _) later).bind fun now last more _ => ?_
    generalize strippedEq : task.removeRelation now kind other.id = stripped
    generalize reciprocalEq : other.removeRelation now kind.inverse task.id = reciprocal
    refine (recalls_quietly (planRelationWhen_quiet ..) (yields_any _) last).bind
      fun entries ending further _ => ?_
    have paired := removed_paired different (further.subset (more.subset (grown.subset loadedTask.1)))
      (further.subset (more.subset loadedOther.1)) strippedEq reciprocalEq
    dsimp only at paired ⊢
    generalize (if stripped.1 = true then [TaskWrite.mk (some task) stripped.2 .localEdit] else []) ++
      (if reciprocal.1 = true then [TaskWrite.mk (some other) reciprocal.2 .localEdit] else []) =
        batch at paired ⊢
    split
    · trivial
    · exact Recalls.bind (recalls_query paired) fun _ _ _ _ => trivial

/-- Stripping removes the reciprocals from the far end, and says whether there were any. -/
theorem stripReciprocals_spec (now : Timestamp) (taskId : TaskId) (removed : List TaskRelation)
    (other : Task) :
    let stripped := stripReciprocals now taskId removed other
    (∀ half, half ∈ stripped.2.relations ↔ half ∈ other.relations ∧
      ∀ relation ∈ removed, relation.other = other.id → half ≠ relation.reverse taskId) ∧
    (stripped.1 = false → ∀ relation ∈ removed, relation.other = other.id →
      relation.reverse taskId ∉ other.relations) := by
  have folded : ∀ (relations : List TaskRelation) (state : Bool × Task),
      let last := relations.foldl (fun state relation =>
        let stripped := state.2.removeRelation now relation.kind.inverse taskId
        (state.1 || stripped.1, stripped.2)) state
      (∀ half, half ∈ last.2.relations ↔ half ∈ state.2.relations ∧
        ∀ relation ∈ relations, half ≠ relation.reverse taskId) ∧
      (last.1 = false → state.1 = false ∧
        ∀ relation ∈ relations, relation.reverse taskId ∉ state.2.relations) := by
    intro relations
    induction relations with
    | nil => intro state; simp
    | cons relation rest ih =>
        rintro ⟨changed, task⟩
        obtain ⟨members, flags⟩ := ih (changed ||
          (task.removeRelation now relation.kind.inverse taskId).1,
          (task.removeRelation now relation.kind.inverse taskId).2)
        rw [List.foldl_cons]
        constructor
        · intro half
          rw [members, Task.mem_removeRelation, List.forall_mem_cons, and_assoc]
          rfl
        · intro unflagged
          obtain ⟨first, others⟩ := flags unflagged
          simp only [Bool.or_eq_false_iff] at first
          have absent : relation.reverse taskId ∉ task.relations := fun half => by
            exact Bool.false_ne_true (first.2.symm.trans (Task.removeRelation_removed.mpr half))
          refine ⟨first.1, List.forall_mem_cons.mpr ⟨absent, fun later member half => ?_⟩⟩
          refine others later member (Task.mem_removeRelation.mpr ⟨half, fun same => absent ?_⟩)
          rw [same] at half
          exact half
  obtain ⟨members, flags⟩ := folded
    (removed.filter fun relation => relation.other = other.id) (false, other)
  simp only [List.mem_filter, decide_eq_true_eq, and_imp] at members flags
  exact ⟨members, fun unflagged => (flags unflagged).2⟩

structure FarEnds (now : Timestamp) (taskId : TaskId) (removed : List TaskRelation)
    (others : List TaskId) (writes : List TaskWrite) (seen : List Task) : Prop where
  rows : ∀ write ∈ writes, ∃ copy : Task, copy.id ∈ others ∧
    write = ⟨some copy, (stripReciprocals now taskId removed copy).2, .localEdit⟩
  covered : ∀ other ∈ others, (∃ write ∈ writes, write.task.id = other) ∨
    ∃ copy ∈ seen, copy.id = other ∧ (stripReciprocals now taskId removed copy).1 = false

theorem loadFarEnds_recalls (now : Timestamp) (taskId : TaskId) (removed : List TaskRelation) :
    ∀ (others : List TaskId) (seen : List Task),
      (loadFarEnds now taskId removed others).Recalls loads PairedCall
        (fun loaded later => FarEnds now taskId removed others loaded.2 later) seen := by
  intro others
  induction others with
  | nil => exact fun _ => ⟨fun _ member => (List.not_mem_nil member).elim,
      fun _ member => (List.not_mem_nil member).elim⟩
  | cons otherId rest ih =>
      intro seen
      refine (recalls_getTask otherId seen).bind fun other later _ loadedOther => ?_
      refine (recalls_quietly (cachedRelationCoords_quiet _) (yields_any _) later).bind
        fun coords last grown _ => ?_
      refine (ih last).bind ?_
      rintro ⟨coordsRest, writesRest⟩ ending more ⟨rows, covered⟩
      have strippedId := (stripReciprocals_edited now taskId removed other).id
      refine ⟨?_, ?_⟩
      · intro write member
        rcases List.mem_append.mp member with first | later
        · obtain ⟨_, first⟩ := List.mem_ite_nil_right.mp first
          exact ⟨other, loadedOther.2 ▸ List.mem_cons_self, List.mem_singleton.mp first⟩
        · obtain ⟨copy, named, same⟩ := rows write later
          exact ⟨copy, List.mem_cons_of_mem _ named, same⟩
      · intro wanted member
        rcases List.mem_cons.mp member with rfl | member
        · cases changed : (stripReciprocals now taskId removed other).1 with
          | true =>
              refine .inl ⟨⟨some other, (stripReciprocals now taskId removed other).2, .localEdit⟩,
                List.mem_append_left _ ?_, strippedId.trans loadedOther.2⟩
              exact List.mem_ite_nil_right.mpr ⟨changed, List.mem_singleton_self _⟩
          | false => exact .inr ⟨other, more.subset (grown.subset loadedOther.1), loadedOther.2, changed⟩
        · refine (covered wanted member).imp_left ?_
          rintro ⟨write, writeMember, named⟩
          exact ⟨write, List.mem_append_right _ writeMember, named⟩

/-- Clearing drops every edge at its far end too, unless the far end had no half. -/
theorem cleared_paired {removed : List TaskRelation} {cleared : Task}
    {writes : List TaskWrite} (removedEq : removed = task.relations) (clearedId : cleared.id = task.id)
    (none : cleared.relations = [])
    (farEnds : FarEnds now task.id removed
      ((removed.map (·.other)).filter fun other => other ≠ task.id).dedup writes seen) :
    Paired seen (⟨some task, cleared, .localEdit⟩ :: writes) := by
  have absent : ∀ relation, relation ∉ cleared.relations := by simp [none]
  have named : ∀ write ∈ writes, write.task.id ≠ task.id := by
    intro write member same
    obtain ⟨copy, inOthers, rfl⟩ := farEnds.rows write member
    have far : copy.id = task.id :=
      (stripReciprocals_edited now task.id removed copy).id.symm.trans same
    simp [far, List.mem_dedup] at inOthers
  intro write member relation changes
  rcases List.mem_cons.mp member with rfl | member
  · -- the cleared end: its far ends are stripped, and a loop to itself is gone at both ends
    have was : relation ∈ removed := by
      by_contra unknown
      rw [removedEq] at unknown
      exact changes (iff_of_false (absent relation) unknown)
    refine .ofEnds ?_ ?_
    · intro far farMember sameOther
      rcases List.mem_cons.mp farMember with rfl | farMember
      · exact iff_of_false (absent _) (absent _)
      · obtain ⟨copy, _, rfl⟩ := farEnds.rows far farMember
        have copyId := (stripReciprocals_edited now task.id removed copy).id
        refine iff_of_false (fun half => ?_) (absent _)
        obtain ⟨_, stripped⟩ := ((stripReciprocals_spec now task.id removed copy).1 _).mp half
        exact stripped relation was (sameOther.symm.trans copyId) (by rw [clearedId])
    · intro unwritten
      have different : relation.other ≠ task.id := fun same =>
        unwritten _ List.mem_cons_self (clearedId.trans same.symm)
      have inOthers : relation.other ∈
          ((removed.map (·.other)).filter fun other => other ≠ task.id).dedup :=
        List.mem_dedup.mpr (List.mem_filter.mpr
          ⟨List.mem_map_of_mem was, decide_eq_true different⟩)
      rcases farEnds.covered relation.other inOthers with ⟨far, farMember, same⟩ |
        ⟨copy, known, copyId, unchanged⟩
      · exact (unwritten far (List.mem_cons_of_mem _ farMember) same).elim
      · refine ⟨copy, known, copyId, iff_of_false ?_ (absent _)⟩
        rw [clearedId]
        exact (stripReciprocals_spec now task.id removed copy).2 unchanged relation was copyId.symm
  · obtain ⟨copy, _, rfl⟩ := farEnds.rows write member
    have copyId := (stripReciprocals_edited now task.id removed copy).id
    have members := (stripReciprocals_spec now task.id removed copy).1
    -- what a far end loses is the reciprocal of an edge to it
    obtain ⟨cause, causeMember, causeOther, rfl⟩ : ∃ cause ∈ removed, cause.other = copy.id ∧
        relation = cause.reverse task.id := by
      by_contra kept
      refine changes ((members relation).trans (and_iff_left fun cause causeMember causeOther same =>
        kept ⟨cause, causeMember, causeOther, same⟩))
    refine .both ?_ ⟨_, List.mem_cons_self, clearedId⟩
    intro far farMember sameOther
    rcases List.mem_cons.mp farMember with rfl | farMember
    · exact iff_of_false (absent _) fun half => ((members _).mp half).2 cause causeMember causeOther rfl
    · exact (named far farMember sameOther).elim

theorem clearRelations_recalls (taskId : TaskId) (seen : List Task) :
    (clearRelations taskId).Recalls loads PairedCall (fun _ _ => True) seen := by
  refine (recalls_getTask taskId seen).bind fun task later _ _ => ?_
  refine (recalls_quietly (every_clock trivial) (yields_any _) later).bind fun now last _ _ => ?_
  have clearedId := (Task.Edited.clearRelations now task).id
  obtain ⟨removedEq, none⟩ : (task.clearRelations now).1 = task.relations ∧
      (task.clearRelations now).2.relations = [] := by
    unfold Task.clearRelations
    split
    · rename_i empty
      rw [List.isEmpty_iff] at empty
      exact ⟨empty.symm, empty⟩
    · exact ⟨rfl, rfl⟩
  generalize task.clearRelations now = result at clearedId removedEq none
  obtain ⟨removed, cleared⟩ := result
  dsimp only at clearedId removedEq none ⊢
  split
  · trivial
  · refine (loadFarEnds_recalls now task.id removed _ last).bind ?_
    rintro ⟨coordsByOther, writes⟩ ending _ farEnds
    refine (recalls_quietly (cachedRelationCoords_quiet _) (yields_any _) ending).bind
      fun coords third grown _ => ?_
    refine (recalls_quietly (intoEntries_quiet ..) (yields_any _) third).bind
      fun entries fourth more _ => ?_
    refine Recalls.bind (recalls_query ?_) fun _ _ _ _ => trivial
    refine cleared_paired removedEq clearedId none ⟨farEnds.rows, fun other member => ?_⟩
    refine (farEnds.covered other member).imp_right ?_
    rintro ⟨copy, known, rest⟩
    exact ⟨copy, more.subset (grown.subset known), rest⟩

theorem Edit.recalls {program : Action Task} (edit : Edit program) (seen : List Task) :
    program.Recalls loads PairedCall (fun _ _ => True) seen := by
  have retouching : FieldEdit program → program.Recalls loads PairedCall (fun _ _ => True) seen := by
    intro fields
    refine .ofEvery ?_ fields.calls (yields_any _) seen
    intro op retouches seen
    cases op with
    | store op =>
        cases op with
        | saveAll writes entries =>
            obtain ⟨before, task, rfl, retouched⟩ := retouches
            refine Paired.ofKept fun write member relation changes => ?_
            rw [List.mem_singleton.mp member] at changes
            exact changes (by rw [TaskWrite.loaded, Option.elim_some, retouched.relations])
        | _ => exact PairedCall.writeless rfl seen
    | _ => trivial
  cases edit with
  | update cmd => exact retouching (.update cmd)
  | start id => exact retouching (.start id)
  | complete id => exact retouching (.complete id)
  | reopen id => exact retouching (.reopen id)
  | archive id => exact retouching (.archive id)
  | addRelation id kind other => exact addRelation_recalls id kind other seen
  | removeRelation id kind other => exact removeRelation_recalls id kind other seen
  | clearRelations id => exact clearRelations_recalls id seen

end TaskService

end RepoLink
