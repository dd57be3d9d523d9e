import RepoLink.Ports.Changes

/-!
Relation edges as stored: each edge is a row at both of its ends, and a transaction replaces the
rows of every task that it writes. Which transactions keep the two ends in step.
-/

namespace RepoLink

def TaskRelation.reverse (subject : TaskId) (relation : TaskRelation) : TaskRelation :=
  ⟨relation.kind.inverse, subject⟩

@[simp] theorem TaskRelation.reverse_other (subject : TaskId) (relation : TaskRelation) :
    (relation.reverse subject).other = subject := rfl

@[simp] theorem TaskRelation.reverse_reverse (subject : TaskId) (relation : TaskRelation) :
    (relation.reverse subject).reverse relation.other = relation := by
  simp [reverse, RelationKind.inverse_inverse]

namespace Database

def relationsOf (database : Database) (id : TaskId) : List TaskRelation :=
  (database.record id).elim [] (·.relations)

def Symmetric (database : Database) : Prop :=
  ∀ subject relation, relation ∈ database.relationsOf subject ↔
    relation.reverse subject ∈ database.relationsOf relation.other

theorem mem_relationsOf_stored {database : Database} {id : TaskId} {task : Task}
    (found : database.stored id = some task) (relation : TaskRelation) :
    relation ∈ database.relationsOf id ↔ relation ∈ task.relations := by
  obtain ⟨record, recordFound, rfl⟩ := Option.map_eq_some_iff.mp found
  simp [relationsOf, recordFound, TaskRecord.load, List.mem_insertionSort]

end Database

namespace TaskWrite

def loaded (write : TaskWrite) : List TaskRelation := write.basis.elim [] (·.relations)

def Changes (write : TaskWrite) (relation : TaskRelation) : Prop :=
  ¬(relation ∈ write.task.relations ↔ relation ∈ write.loaded)

instance (write : TaskWrite) (relation : TaskRelation) : Decidable (write.Changes relation) :=
  inferInstanceAs (Decidable ¬_)

def Matches (write : TaskWrite) (relation : TaskRelation) (far : Task) : Prop :=
  relation.reverse write.task.id ∈ far.relations ↔ relation ∈ write.task.relations

end TaskWrite

/-- Why a batch may change one relation of a row, given the copies that were loaded before. -/
inductive Accounted (seen : List Task) (writes : List TaskWrite) (write : TaskWrite)
    (relation : TaskRelation) : Prop
  | both (matched : ∀ far ∈ writes, far.task.id = relation.other → write.Matches relation far.task)
      (written : ∃ far ∈ writes, far.task.id = relation.other)
  | unwritten (left : ∀ far ∈ writes, far.task.id ≠ relation.other) {copy : Task}
      (known : copy ∈ seen) (named : copy.id = relation.other) (matched : write.Matches relation copy)
  | unbacked (pulls : write.source = .pull) (added : relation ∈ write.task.relations) {copy : Task}
      (known : copy ∈ seen) (named : copy.id = relation.other) (remoteless : copy.remote = none)

/-- A batch of relation changes, each made at both ends as far as the loaded copies tell. -/
def Paired (seen : List Task) (writes : List TaskWrite) : Prop :=
  ∀ write ∈ writes, ∀ relation, write.Changes relation → Accounted seen writes write relation

def TaskWrite.KeepsRelations (write : TaskWrite) : Prop := ∀ relation, ¬write.Changes relation

theorem Paired.ofKept {seen : List Task} {writes : List TaskWrite}
    (kept : ∀ write ∈ writes, write.KeepsRelations) : Paired seen writes :=
  fun write member relation changes => (kept write member relation changes).elim

theorem Accounted.ofEnds {seen : List Task} {writes : List TaskWrite} {write : TaskWrite}
    {relation : TaskRelation}
    (matched : ∀ far ∈ writes, far.task.id = relation.other → write.Matches relation far.task)
    (left : (∀ far ∈ writes, far.task.id ≠ relation.other) →
      ∃ copy ∈ seen, copy.id = relation.other ∧ write.Matches relation copy) :
    Accounted seen writes write relation := by
  by_cases written : ∃ far ∈ writes, far.task.id = relation.other
  · exact .both matched written
  · have unwritten : ∀ far ∈ writes, far.task.id ≠ relation.other :=
      fun far member same => written ⟨far, member, same⟩
    obtain ⟨copy, known, named, agrees⟩ := left unwritten
    exact .unwritten unwritten known named agrees

namespace TaskWrite

def KeepsStored (database : Database) (write : TaskWrite) : Prop :=
  ∀ relation ∈ database.relationsOf write.task.id ++ write.loaded, ¬write.Changes relation →
    (relation ∈ database.relationsOf write.task.id ↔ relation ∈ write.loaded)

/-- A loaded far end of a changed relation: backed if a pull adds the edge, and stored as it was
loaded if the batch leaves it unwritten. -/
def FarEndAsLoaded (database : Database) (writes : List TaskWrite) (write : TaskWrite)
    (relation : TaskRelation) (copy : Task) : Prop :=
  (write.source = .pull → relation ∈ write.task.relations → copy.remote.isSome) ∧
    ((∀ far ∈ writes, far.task.id ≠ relation.other) →
      (relation.reverse write.task.id ∈ database.relationsOf relation.other ↔
        relation.reverse write.task.id ∈ copy.relations))

instance (database : Database) (write : TaskWrite) : Decidable (write.KeepsStored database) :=
  inferInstanceAs (Decidable (∀ _ ∈ _, _ → _))

instance (database : Database) (writes : List TaskWrite) (write : TaskWrite)
    (relation : TaskRelation) (copy : Task) :
    Decidable (write.FarEndAsLoaded database writes relation copy) :=
  inferInstanceAs (Decidable (_ ∧ (_ → _)))

end TaskWrite

/-- The state in which a batch may be saved: nothing that it relies on has changed since. -/
def Undisturbed (seen : List Task) (writes : List TaskWrite) (database : Database) : Prop :=
  ∀ write ∈ writes, write.KeepsStored database ∧
    ∀ relation ∈ write.task.relations ++ write.loaded, write.Changes relation →
      ∀ copy ∈ seen, copy.id = relation.other → write.FarEndAsLoaded database writes relation copy

instance (seen : List Task) (writes : List TaskWrite) (database : Database) :
    Decidable (Undisturbed seen writes database) :=
  inferInstanceAs (Decidable (∀ _ ∈ _, _ ∧ ∀ _ ∈ _, _ → ∀ _ ∈ _, _ → _))

theorem TaskWrite.mem_of_kept {database : Database} {write : TaskWrite} {relation : TaskRelation}
    (kept : write.KeepsStored database) (unchanged : ¬write.Changes relation) :
    relation ∈ write.task.relations ↔ relation ∈ database.relationsOf write.task.id := by
  have same := not_not.mp unchanged
  by_cases known : relation ∈ database.relationsOf write.task.id ++ write.loaded
  · exact same.trans (kept relation known unchanged).symm
  · rw [List.mem_append, not_or] at known
    exact ⟨fun member => (known.2 (same.mp member)).elim, fun member => (known.1 member).elim⟩

theorem TaskWrite.mem_of_changes {write : TaskWrite} {relation : TaskRelation}
    (changes : write.Changes relation) : relation ∈ write.task.relations ++ write.loaded := by
  by_contra absent
  rw [List.mem_append, not_or] at absent
  exact changes ⟨fun member => (absent.1 member).elim, fun member => (absent.2 member).elim⟩

namespace Database

variable {before after : Database} {instant : Timestamp} {writes : List TaskWrite}
  {entries : List OutboxEntry} {seen : List Task}

theorem relationsOf_saved (saved : before.saveAll instant writes entries = .ok after)
    (id : TaskId) :
    (∃ write ∈ writes, write.task.id = id ∧ after.relationsOf id = write.task.relations) ∨
      (∀ write ∈ writes, write.task.id ≠ id) ∧ after.relationsOf id = before.relationsOf id := by
  unfold relationsOf
  rw [saveAll_record saved]
  by_cases written : ∃ write ∈ writes, write.task.id = id
  · left
    refine @afterWrites_present instant id (fun record => ∃ write ∈ writes, write.task.id = id ∧
      record.elim [] (·.relations) = write.task.relations) writes _ written ?_
    exact fun write member named _ => ⟨write, member, named, rfl⟩
  · have absent : ∀ write ∈ writes, write.task.id ≠ id :=
      fun write member named => written ⟨write, member, named⟩
    exact .inr ⟨absent, by rw [afterWrites_absent absent]⟩

theorem changed_ends (paired : Paired seen writes) (undisturbed : Undisturbed seen writes before)
    {write : TaskWrite} (member : write ∈ writes) {relation : TaskRelation}
    (changes : write.Changes relation) :
    (∀ far ∈ writes, far.task.id = relation.other → write.Matches relation far.task) ∧
      ((∀ far ∈ writes, far.task.id ≠ relation.other) →
        (relation.reverse write.task.id ∈ before.relationsOf relation.other ↔
          relation ∈ write.task.relations)) := by
  have asLoaded := (undisturbed write member).2 relation (TaskWrite.mem_of_changes changes) changes
  cases paired write member relation changes with
  | both matched written =>
      obtain ⟨far, farMember, named⟩ := written
      exact ⟨matched, fun unwritten => (unwritten far farMember named).elim⟩
  | unwritten left known named matched =>
      refine ⟨fun far farMember same => (left far farMember same).elim, fun _ => ?_⟩
      exact ((asLoaded _ known named).2 left).trans matched
  | unbacked pulls added known named remoteless =>
      have backed := (asLoaded _ known named).1 pulls added
      rw [remoteless] at backed
      cases backed

theorem written_end (symmetric : before.Symmetric) (paired : Paired seen writes)
    (undisturbed : Undisturbed seen writes before)
    (saved : before.saveAll instant writes entries = .ok after) {write : TaskWrite}
    (member : write ∈ writes) (relation : TaskRelation) :
    relation ∈ write.task.relations ↔
      relation.reverse write.task.id ∈ after.relationsOf relation.other := by
  have kept := (undisturbed write member).1
  rcases relationsOf_saved saved relation.other with ⟨far, farMember, named, stored⟩ |
    ⟨unwritten, stored⟩
  · rw [stored]
    by_cases changes : write.Changes relation
    · exact ((changed_ends paired undisturbed member changes).1 far farMember named).symm
    · by_cases farChanges : far.Changes (relation.reverse write.task.id)
      · have halves := (changed_ends paired undisturbed farMember farChanges).1 write member rfl
        rwa [TaskWrite.Matches, named, TaskRelation.reverse_reverse] at halves
      · -- neither end is changed: both are as they were stored
        have farKept := TaskWrite.mem_of_kept (undisturbed far farMember).1 farChanges
        rw [farKept, named, TaskWrite.mem_of_kept kept changes]
        exact symmetric write.task.id relation
  · rw [stored]
    by_cases changes : write.Changes relation
    · exact ((changed_ends paired undisturbed member changes).2 unwritten).symm
    · rw [TaskWrite.mem_of_kept kept changes]
      exact symmetric write.task.id relation

theorem Symmetric.saved (symmetric : before.Symmetric) (paired : Paired seen writes)
    (undisturbed : Undisturbed seen writes before)
    (saved : before.saveAll instant writes entries = .ok after) : after.Symmetric := by
  intro subject relation
  rcases relationsOf_saved saved subject with ⟨write, member, rfl, stored⟩ | ⟨unwritten, stored⟩
  · rw [stored]
    exact written_end symmetric paired undisturbed saved member relation
  · rcases relationsOf_saved saved relation.other with ⟨far, farMember, named, farStored⟩ |
      ⟨_, farStored⟩
    · have halves := written_end symmetric paired undisturbed saved farMember
        (relation.reverse subject)
      rw [named, TaskRelation.reverse_reverse, TaskRelation.reverse_other] at halves
      rw [farStored]
      exact halves.symm
    · rw [stored, farStored]
      exact symmetric subject relation

end Database

theorem StoreOp.relationsOf_perform {op : StoreOp} {instant : Timestamp} {before after : Database}
    {answer : Except PortError op.Answer} (performed : op.perform instant before = (answer, after))
    (writeless : op.writes = []) (id : TaskId) : after.relationsOf id = before.relationsOf id := by
  rcases perform_record performed with ⟨writes, entries, rfl, saved⟩ | retouched
  · have none : writes = [] := writeless
    subst none
    rcases Database.relationsOf_saved saved id with ⟨_, member, _⟩ | ⟨_, stored⟩
    · cases member
    · exact stored
  · unfold Database.relationsOf
    rw [retouched id]
    split
    · cases before.record id with
      | none => rfl
      | some record => exact (op.retouch_keeps record).2.2.1
    · rfl

theorem PortOp.relationsOf_meaning {op : PortOp} {before after : Database} {answer : op.Answer}
    (performed : portMeaning op before answer after) :
    (∃ instant writes entries, op = .store (.saveAll writes entries) ∧
        before.saveAll instant writes entries = .ok after) ∨
      ∀ id, after.relationsOf id = before.relationsOf id := by
  have untouched : after = before → ∀ id, after.relationsOf id = before.relationsOf id :=
    fun same _ => same ▸ rfl
  cases op with
  | store op =>
      rcases performed with ⟨instant, performed⟩ | ⟨_, _, same⟩
      · by_cases batch : ∃ writes entries, op = .saveAll writes entries
        · obtain ⟨writes, entries, rfl⟩ := batch
          cases answer with
          | ok value =>
              exact .inl ⟨instant, writes, entries, rfl, StoreOp.perform_saveAll_ok performed⟩
          | error error => exact .inr (untouched (StoreOp.perform_error performed))
        · refine .inr (StoreOp.relationsOf_perform performed ?_)
          cases op with
          | saveAll writes entries => exact (batch ⟨writes, entries, rfl⟩).elim
          | _ => rfl
      · exact .inr (untouched same)
  | freshTaskId => exact .inr (untouched performed.2)
  | now => exact .inr (untouched performed)
  | freshEntryId => exact .inr (untouched performed)
  | freshHash length => exact .inr (untouched performed)
  | provider op => exact .inr (untouched performed)

end RepoLink
