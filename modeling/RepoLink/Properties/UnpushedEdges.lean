import RepoLink.Properties.RelationAcyclicity

/-!
Pulls and the edges that have not reached the remote yet. The listings of a pull are taken as
complete, so an edge that still waits in the outbox is dropped with the ones the remote has dropped.
-/

namespace RepoLink

open Effects Program SyncService

theorem relationMutation_inverse (kind : RelationKind) (add : Bool) (this other : IssueCoords) :
    relationMutation kind.inverse add this other = relationMutation kind add other this := by
  cases kind <;> rfl

def Database.Linked (database : Database) (id : TaskId) (relation : TaskRelation) : Prop :=
  relation ∈ database.relationsOf id ∧ relation.reverse id ∈ database.relationsOf relation.other

/-- An edge that was added locally and whose mutation is still to be applied. -/
structure Database.Unpushed (database : Database) (id : TaskId) (relation : TaskRelation) :
    Prop where
  apart : relation.other ≠ id
  linked : database.Linked id relation
  owed : ∃ row ∈ database.outbox.rows, row.entry.status.isTerminal = false ∧
    (row.entry.taskId = id ∨ row.entry.taskId = relation.other) ∧
    ∃ this other, relationMutation relation.kind true this other = some row.entry.mutation

theorem Database.Unpushed.reverse {database : Database} {id : TaskId} {relation : TaskRelation}
    (unpushed : database.Unpushed id relation) :
    database.Unpushed relation.other (relation.reverse id) := by
  obtain ⟨apart, ⟨near, far⟩, entry, member, waiting, owner, this, other, planned⟩ := unpushed
  refine ⟨apart.symm, ⟨far, ?_⟩, entry, member, waiting, owner.symm, other, this, ?_⟩
  · rw [TaskRelation.reverse_reverse]
    exact near
  · exact (relationMutation_inverse ..).trans planned

def PullNamesParent (provider : Provider) (database : Database) (task : Task) : Prop :=
  ∃ desired, (.childOf, desired) ∈ pullListings provider database task

section Pull

variable {provider : Provider} {forceAcceptRemote : Bool} {id : TaskId} {before after : Database}
  {subject : Task} {relation : TaskRelation}

theorem runs_pullInner_listings {value : Task × List SyncNotice}
    (stored : before.stored id = some subject)
    (ran : (pullInner id forceAcceptRemote).Runs (portsOf provider) before (.ok value) after) :
    ∃ subs blockers parents,
      pullListings provider before subject = before.listings subject subs blockers parents := by
  rcases runs_pullInner ran stored with ⟨⟨_, failed⟩, _⟩ |
    ⟨canonical, remoteId, pulled, middle, reconciled, addressed, _, _, ranReconcile, fails⟩
  · cases failed
  · rcases runs_reconcileRelationsInbound ranReconcile with ⟨failed, _⟩ |
      ⟨_, subs, blockers, parents, _, subsEq, blockersEq, parentsEq, _⟩
    · obtain ⟨_, resultEq⟩ := fails.mpr failed
      cases resultEq
    · exact ⟨subs, blockers, parents, by
        simp only [pullListings, addressed, subsEq, blockersEq, parentsEq]⟩

theorem listed_kinds {value : Task × List SyncNotice} (stored : before.stored id = some subject)
    (ran : (pullInner id forceAcceptRemote).Runs (portsOf provider) before (.ok value) after)
    (kind : RelationKind) :
    (∃ desired, (kind, desired) ∈ pullListings provider before subject) ↔
      kind = .parentOf ∨ kind = .blockedBy ∨
        kind = .childOf ∧ PullNamesParent provider before subject := by
  obtain ⟨subs, blockers, parents, listings⟩ := runs_pullInner_listings stored ran
  unfold PullNamesParent
  rw [listings]
  unfold Database.listings
  dsimp only
  split <;> cases kind <;> simp

theorem dropped_iff {listings : List (RelationKind × List TaskId)}
    (apart : relation.other ≠ subject.id)
    (near : relation ∈ subject.relations)
    (absent : ∀ desired, (relation.kind, desired) ∈ listings → relation.other ∉ desired) :
    relation ∈ before.listedDrops listings subject ↔
      before.backed relation.other = true ∧ ∃ desired, (relation.kind, desired) ∈ listings := by
  have related : relation.other ∈ subject.related relation.kind :=
    List.mem_map.mpr ⟨relation, List.mem_filter.mpr ⟨near, by simp⟩, rfl⟩
  rw [mem_listedDrops]
  constructor
  · rintro ⟨desired, listed, unlisted⟩
    have owed := (List.mem_filter.mp unlisted).2
    simp only [decide_eq_true_eq] at owed
    exact ⟨owed.2.2, desired, listed⟩
  · rintro ⟨backed, desired, listed⟩
    refine ⟨desired, listed, List.mem_filter.mpr ⟨related, ?_⟩⟩
    simp only [decide_eq_true_eq]
    exact ⟨apart, absent desired listed, backed⟩

/-- A pull of either end keeps an unpushed edge that the answers do not list exactly if the far end
has no issue, or the family of the edge is not reconciled: the blockers of other tasks never are,
and the parent is not when no other task is named as one. -/
theorem pull_keeps_unpushed_iff {result : Except SyncError (Task × List SyncNotice)}
    (stored : before.stored id = some subject) (unpushed : before.Unpushed id relation)
    (absent : ∀ desired, (relation.kind, desired) ∈ pullListings provider before subject →
      relation.other ∉ desired)
    (ran : (pullInner id forceAcceptRemote).Runs (portsOf provider) before result after) :
    (∀ error, result = .error error → after.Linked id relation) ∧
    ∀ value, result = .ok value → (after.Linked id relation ↔
      before.backed relation.other = false ∨ relation.kind = .blocks ∨
        relation.kind = .childOf ∧ ¬PullNamesParent provider before subject) := by
  obtain rfl : subject.id = id := Database.stored_id stored
  obtain ⟨apart, ⟨near, far⟩, _, _, _, _, _, _, planned⟩ := unpushed
  obtain ⟨failing, completing⟩ := runs_pullInner_edges ran stored
  refine ⟨fun error failed => ⟨(failing error failed _ _).mpr near,
    (failing error failed _ _).mpr far⟩, ?_⟩
  rintro value rfl
  have nearStored := (Database.mem_relationsOf_stored stored relation).mp near
  have kept : after.Linked subject.id relation ↔
      relation ∉ before.listedDrops (pullListings provider before subject) subject := by
    have unadded : relation ∉ subject.listedAdds (pullListings provider before subject) := by
      intro added
      obtain ⟨_, _, missing⟩ := mem_listedAdds.mp added
      have unrelated := (List.mem_filter.mp missing).2
      simp only [decide_eq_true_eq] at unrelated
      exact unrelated.2
        (List.mem_map.mpr ⟨relation, List.mem_filter.mpr ⟨nearStored, by simp⟩, rfl⟩)
    have leaves : ∀ {was : Prop}, was → ((before.inboundEdit subject
        (pullListings provider before subject)).Leaves relation was ↔
          relation ∉ before.listedDrops (pullListings provider before subject) subject) := by
      intro was holds
      rw [EdgeEdit.Leaves, inboundEdit_eq (pullListings_distinct ..), if_neg unadded]
      split
      · exact iff_of_false Bool.false_ne_true fun left => left ‹_›
      · exact iff_of_true holds ‹_›
    unfold Database.Linked
    rw [completing value rfl, completing value rfl, EdgeEdit.At, EdgeEdit.At, if_pos rfl,
      if_neg apart, if_pos (show (relation.reverse subject.id).other = subject.id from rfl),
      TaskRelation.reverse_reverse, leaves near, leaves far, and_self]
  rw [kept, dropped_iff apart nearStored absent, listed_kinds stored ran]
  cases backed : before.backed relation.other
  · simp
  · cases kindEq : relation.kind with
    | relatedTo | duplicates =>
        rw [kindEq] at planned
        cases planned
    | _ => simp

end Pull

theorem locallyBlocked_unpushed : locallyBlocked.Unpushed ⟨1⟩ ⟨.blockedBy, ⟨2⟩⟩ where
  apart := by decide
  linked := by
    unfold Database.Linked
    decide
  owed := ⟨locallyBlocked.outbox.rows.head (by decide), List.head_mem _, by decide, by decide,
    ("github.com/acme/one", "7"), ("github.com/acme/one", "8"), by decide⟩

/-- The task that blocks waits to be told to the remote, and a pull of the blocked one drops it. -/
theorem pull_drops_unpushed : ∃ subject value, locallyBlocked.stored ⟨1⟩ = some subject ∧
    locallyBlocked.Unpushed ⟨1⟩ ⟨.blockedBy, ⟨2⟩⟩ ∧
    (∀ desired, (.blockedBy, desired) ∈ pullListings blockingProvider locallyBlocked subject →
      ⟨2⟩ ∉ desired) ∧
    (pullInner ⟨1⟩ false).Runs (portsOf blockingProvider) locallyBlocked (.ok value)
      (after blockingProvider .epoch (pullInner ⟨1⟩ false) locallyBlocked) ∧
    ¬(after blockingProvider .epoch (pullInner ⟨1⟩ false) locallyBlocked).Linked ⟨1⟩
      ⟨.blockedBy, ⟨2⟩⟩ := by
  obtain ⟨value, ran⟩ := runs_portsOf_of_ok (show (ending blockingProvider .epoch
    (pullInner ⟨1⟩ false) locallyBlocked).1.isOk = true by decide)
  obtain ⟨subject, stored, absent⟩ : ∃ subject, locallyBlocked.stored ⟨1⟩ = some subject ∧
      ∀ listing ∈ pullListings blockingProvider locallyBlocked subject,
        listing.1 = .blockedBy → ⟨2⟩ ∉ listing.2 := ⟨_, rfl, by decide⟩
  refine ⟨subject, value, stored, locallyBlocked_unpushed,
    fun desired listed => absent _ listed rfl, ran, ?_⟩
  unfold Database.Linked
  decide

theorem pull_keeps_unpushed_iff_blocking : ∃ value,
    (pullInner ⟨2⟩ false).Runs (portsOf parentProvider) locallyBlocked (.ok value)
      (after parentProvider .epoch (pullInner ⟨2⟩ false) locallyBlocked) ∧
    (after parentProvider .epoch (pullInner ⟨2⟩ false) locallyBlocked).Linked ⟨2⟩
      ⟨.blocks, ⟨1⟩⟩ := by
  obtain ⟨value, ran⟩ := runs_portsOf_of_ok (show (ending parentProvider .epoch
    (pullInner ⟨2⟩ false) locallyBlocked).1.isOk = true by decide)
  obtain ⟨subject, stored, absent⟩ : ∃ subject, locallyBlocked.stored ⟨2⟩ = some subject ∧
      ∀ listing ∈ pullListings parentProvider locallyBlocked subject,
        listing.1 = .blocks → ⟨1⟩ ∉ listing.2 := ⟨_, rfl, by decide⟩
  exact ⟨value, ran, ((pull_keeps_unpushed_iff stored locallyBlocked_unpushed.reverse
    (fun desired listed => absent _ listed rfl) ran).2 value rfl).mpr (.inr (.inl rfl))⟩

end RepoLink
