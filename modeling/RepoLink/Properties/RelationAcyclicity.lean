import RepoLink.Properties.PullBaseline
import RepoLink.Sync.InboundEdges
import RepoLink.TaskService.CycleGuard

/-!
Acyclicity of blocking and parentage. `add_relation` refuses an edge that closes a circle; a pull
adds whatever edges the remote lists, so it keeps the families acyclic exactly if each of them
would have passed the guard.
-/

namespace RepoLink

open Effects Program KeyedTable SyncService TaskService Relation Cycles

def pullListings (provider : Provider) (database : Database) (task : Task) :
    List (RelationKind × List TaskId) :=
  match database.address task with
  | none => []
  | some (canonical, remoteId) =>
    match provider (.fetchSubIssues canonical remoteId), provider (.fetchBlockedBy canonical remoteId),
      provider (.fetchParent canonical remoteId) with
    | .ok subs, .ok blockers, .ok parents => database.listings task subs blockers parents
    | _, _, _ => []

def Task.listedAdds (listings : List (RelationKind × List TaskId)) (task : Task) :
    List TaskRelation :=
  listings.flatMap fun (kind, desired) => (task.missing kind desired).map (⟨kind, ·⟩)

def Database.listedDrops (database : Database) (listings : List (RelationKind × List TaskId))
    (task : Task) : List TaskRelation :=
  listings.flatMap fun (kind, desired) => (database.unlisted kind desired task).map (⟨kind, ·⟩)

/-- Every edge that the listings add passes the guard of `add_relation`, on the stored edges that
they leave and on those that they added before. -/
def Database.Guards (database : Database) (listings : List (RelationKind × List TaskId))
    (task : Task) : Prop :=
  ∀ forward ∈ Database.families,
    guardsAll
      ((upstreamEdges forward forward.inverse (database.listTasks {})).filter fun edge =>
        edge ∉ (database.listedDrops listings task).filterMap (·.edge forward task.id))
      ((task.listedAdds listings).filterMap (·.edge forward task.id)) = true

instance (database : Database) (listings : List (RelationKind × List TaskId)) (task : Task) :
    Decidable (database.Guards listings task) :=
  inferInstanceAs (Decidable (∀ _ ∈ _, _))

section Listings

variable {database : Database} {task : Task} {listings : List (RelationKind × List TaskId)}

theorem mem_listedAdds {relation : TaskRelation} : relation ∈ task.listedAdds listings ↔
    ∃ desired, (relation.kind, desired) ∈ listings ∧
      relation.other ∈ task.missing relation.kind desired := by
  simp only [Task.listedAdds, List.mem_flatMap, List.mem_map]
  constructor
  · rintro ⟨⟨kind, desired⟩, member, other, added, rfl⟩
    exact ⟨desired, member, added⟩
  · rintro ⟨desired, member, added⟩
    exact ⟨_, member, _, added, rfl⟩

theorem mem_listedDrops {relation : TaskRelation} : relation ∈ database.listedDrops listings task ↔
    ∃ desired, (relation.kind, desired) ∈ listings ∧
      relation.other ∈ database.unlisted relation.kind desired task := by
  simp only [Database.listedDrops, List.mem_flatMap, List.mem_map]
  constructor
  · rintro ⟨⟨kind, desired⟩, member, other, dropped, rfl⟩
    exact ⟨desired, member, dropped⟩
  · rintro ⟨desired, member, dropped⟩
    exact ⟨_, member, _, dropped, rfl⟩

theorem not_missing_of_unlisted {kind : RelationKind} {desired others : List TaskId}
    {other : TaskId} (dropped : other ∈ database.unlisted kind desired task) :
    other ∉ task.missing kind others := by
  intro added
  have unrelated := (List.mem_filter.mp added).2
  simp only [decide_eq_true_eq] at unrelated
  exact unrelated.2 (List.mem_filter.mp dropped).1

/-- Families that are listed once each decide their own edges. -/
theorem inboundEdit_eq (distinct : (listings.map Prod.fst).Nodup) (relation : TaskRelation) :
    database.inboundEdit task listings relation =
      if relation ∈ task.listedAdds listings then some true
      else if relation ∈ database.listedDrops listings task then some false else none := by
  unfold Database.inboundEdit
  have folded : ∀ edit : EdgeEdit, listings.foldl (fun edit (kind, desired) =>
      (edit.decide kind (task.missing kind desired) true).decide kind
        (database.unlisted kind desired task) false) edit relation =
      if relation ∈ task.listedAdds listings then some true
      else if relation ∈ database.listedDrops listings task then some false
      else edit relation := by
    induction listings with
    | nil => exact fun _ => rfl
    | cons listing rest ih =>
        intro edit
        obtain ⟨kind, desired⟩ := listing
        rw [List.map_cons, List.nodup_cons] at distinct
        rw [List.foldl_cons, ih distinct.2]
        have adds : relation ∈ task.listedAdds ((kind, desired) :: rest) ↔
            relation.kind = kind ∧ relation.other ∈ task.missing kind desired ∨
              relation ∈ task.listedAdds rest := by
          simp only [mem_listedAdds, List.mem_cons, Prod.mk.injEq, or_and_right, exists_or]
          refine or_congr ⟨?_, ?_⟩ Iff.rfl
          · rintro ⟨_, ⟨rfl, rfl⟩, added⟩
            exact ⟨rfl, added⟩
          · rintro ⟨rfl, added⟩
            exact ⟨desired, ⟨rfl, rfl⟩, added⟩
        have drops : relation ∈ database.listedDrops ((kind, desired) :: rest) task ↔
            relation.kind = kind ∧ relation.other ∈ database.unlisted kind desired task ∨
              relation ∈ database.listedDrops rest task := by
          simp only [mem_listedDrops, List.mem_cons, Prod.mk.injEq, or_and_right, exists_or]
          refine or_congr ⟨?_, ?_⟩ Iff.rfl
          · rintro ⟨_, ⟨rfl, rfl⟩, dropped⟩
            exact ⟨rfl, dropped⟩
          · rintro ⟨rfl, dropped⟩
            exact ⟨desired, ⟨rfl, rfl⟩, dropped⟩
        simp only [adds, drops, EdgeEdit.decide]
        by_cases same : relation.kind = kind
        · -- no later listing is about this kind
          have elsewhere : ∀ others, (relation.kind, others) ∉ rest := by
            intro others member
            refine distinct.1 (List.mem_map.mpr ⟨_, member, same⟩)
          have noAdd : relation ∉ task.listedAdds rest := fun member =>
            (mem_listedAdds.mp member).elim fun others found => elsewhere others found.1
          have noDrop : relation ∉ database.listedDrops rest task := fun member =>
            (mem_listedDrops.mp member).elim fun others found => elsewhere others found.1
          by_cases dropped : relation.other ∈ database.unlisted kind desired task
          · simp [noAdd, noDrop, same, dropped, not_missing_of_unlisted dropped]
          · simp [noAdd, noDrop, same, dropped]
        · simp [same]
  exact folded _

end Listings

def EdgeEdit.At (edit : EdgeEdit) (subject id : TaskId) (relation : TaskRelation) (was : Prop) :
    Prop :=
  if id = subject then edit.Leaves relation was
  else if relation.other = subject then edit.Leaves (relation.reverse id) was
  else was

theorem rewired_saved {database after : Database} {task basis : Task} {edit : EdgeEdit}
    {state : Reconciliation} {instant : Timestamp} (carried : Carried database task edit state)
    (known : ∀ relation, relation ∈ database.relationsOf task.id ↔ relation ∈ task.relations)
    (saved : database.saveAll instant (state.writes basis) [] = .ok after) (id : TaskId)
    (relation : TaskRelation) : relation ∈ after.relationsOf id ↔
      edit.At task.id id relation (relation ∈ database.relationsOf id) := by
  obtain ⟨⟨far, follows⟩, rewires⟩ := carried
  have leaves : ∀ {relation : TaskRelation} {was stored : Prop}, (was ↔ stored) →
      (edit.Leaves relation was ↔ edit.Leaves relation stored) := fun same => propext same ▸ Iff.rfl
  unfold EdgeEdit.At
  rcases Database.relationsOf_saved saved id with ⟨write, member, rfl, stored⟩ | ⟨unwritten, stored⟩
  · rw [stored]
    rcases List.mem_cons.mp member with rfl | member
    · change relation ∈ state.task.relations ↔ if state.task.id = task.id then _ else _
      rw [if_pos follows.id, follows.id, rewires.subject]
      exact leaves (known relation).symm
    · obtain ⟨neighbor, inNeighbors, rfl⟩ := List.mem_map.mp member
      obtain ⟨loaded, _, apart, _, _, sameBut⟩ := follows.loaded neighbor inNeighbors
      have named : neighbor.current.id = neighbor.loaded.id := by rw [sameBut]
      change relation ∈ neighbor.current.relations ↔
        if neighbor.current.id = task.id then _ else _
      rw [named, if_neg apart, rewires.neighbors neighbor inNeighbors]
      split
      · exact leaves (Database.mem_relationsOf_stored loaded relation).symm
      · exact (Database.mem_relationsOf_stored loaded relation).symm
  · have notSubject : id ≠ task.id := fun same =>
      unwritten _ List.mem_cons_self (follows.id.trans same.symm)
    rw [stored, if_neg notSubject]
    split
    · have undecided : edit (relation.reverse id) = none := by
        cases decided : edit (relation.reverse id) with
        | none => rfl
        | some present =>
            obtain ⟨neighbor, member, named⟩ := rewires.covered (relation.reverse id)
              (by rw [decided]; rfl)
            obtain ⟨_, _, _, _, _, sameBut⟩ := follows.loaded neighbor member
            have same : neighbor.current.id = neighbor.loaded.id := by rw [sameBut]
            exact (unwritten _ (List.mem_cons_of_mem _ (List.mem_map_of_mem member))
              (same.trans named)).elim
      rw [EdgeEdit.Leaves, undecided]
      rfl
    · exact Iff.rfl

theorem rewired_unchanged {database : Database} {task : Task} {edit : EdgeEdit}
    {state : Reconciliation} (carried : Carried database task edit state)
    (unchanged : state.changed = false) (id : TaskId) (relation : TaskRelation) :
    relation ∈ database.relationsOf id ↔
      edit.At task.id id relation (relation ∈ database.relationsOf id) := by
  obtain ⟨⟨far, follows⟩, rewires⟩ := carried
  have undecided : ∀ relation, edit relation = none := by
    intro relation
    cases decided : edit relation with
    | none => rfl
    | some present =>
        obtain ⟨neighbor, member, named⟩ := rewires.covered relation (by rw [decided]; rfl)
        have changed := follows.changed.mpr ⟨_, (follows.touched _).mp ⟨neighbor, member, rfl⟩⟩
        rw [unchanged] at changed
        cases changed
  unfold EdgeEdit.At EdgeEdit.Leaves
  rw [undecided, undecided]
  split
  · rfl
  · split <;> rfl

section Graphs

variable {forward : RelationKind} {subject : TaskId}

theorem edge_ends {id source target : TaskId} {relation : TaskRelation}
    (isEdge : relation.edge forward id = some (source, target)) :
    source = id ∧ target = relation.other ∨ source = relation.other ∧ target = id := by
  unfold TaskRelation.edge at isEdge
  split at isEdge
  · cases isEdge
    exact .inl ⟨rfl, rfl⟩
  · split at isEdge
    · cases isEdge
      exact .inr ⟨rfl, rfl⟩
    · cases isEdge

theorem edge_injective {first second : TaskRelation} {ends : TaskId × TaskId}
    (firstEdge : first.edge forward subject = some ends)
    (secondEdge : second.edge forward subject = some ends) (apart : first.other ≠ subject) :
    first = second := by
  obtain ⟨firstKind, firstOther⟩ := first
  obtain ⟨secondKind, secondOther⟩ := second
  unfold TaskRelation.edge at firstEdge secondEdge
  dsimp only at firstEdge secondEdge apart
  split at firstEdge
  · rename_i firstIs
    split at secondEdge
    · rename_i secondIs
      cases (Option.some.inj firstEdge).trans (Option.some.inj secondEdge).symm
      rw [firstIs, secondIs]
    · split at secondEdge
      · cases (Option.some.inj firstEdge).trans (Option.some.inj secondEdge).symm
        exact (apart rfl).elim
      · cases secondEdge
  · split at firstEdge
    · rename_i firstIs
      split at secondEdge
      · cases (Option.some.inj firstEdge).trans (Option.some.inj secondEdge).symm
        exact (apart rfl).elim
      · split at secondEdge
        · rename_i secondIs
          cases (Option.some.inj firstEdge).trans (Option.some.inj secondEdge).symm
          rw [firstIs, secondIs]
        · cases secondEdge
    · cases firstEdge

/-- The edges of a family after an edit: those that were not dropped, and those that were added. -/
theorem upstream_rewired {before after : Database} {edit : EdgeEdit} {adds drops : List TaskRelation}
    (directed : forward ∈ Database.families)
    (edits : ∀ relation, edit relation =
      if relation ∈ adds then some true else if relation ∈ drops then some false else none)
    (apart : ∀ relation ∈ adds ++ drops, relation.other ≠ subject)
    (rewired : ∀ id relation, relation ∈ after.relationsOf id ↔
      edit.At subject id relation (relation ∈ before.relationsOf id)) (source target : TaskId) :
    after.Upstream forward source target ↔
      before.Upstream forward source target ∧
          (source, target) ∉ drops.filterMap (·.edge forward subject) ∨
        (source, target) ∈ adds.filterMap (·.edge forward subject) := by
  -- how a relation at one of its ends is edited, as a relation of the subject
  have touched : ∀ id relation, id = subject ∨ relation.other = subject →
      ∃ own : TaskRelation, own.edge forward subject = relation.edge forward id ∧
        ∀ was, edit.At subject id relation was ↔ edit.Leaves own was := by
    intro id relation touches
    unfold EdgeEdit.At
    by_cases isSubject : id = subject
    · subst isSubject
      exact ⟨relation, rfl, fun was => by rw [if_pos rfl]⟩
    · have isOther := touches.resolve_left isSubject
      refine ⟨relation.reverse id, ?_, fun was => by rw [if_neg isSubject, if_pos isOther]⟩
      rw [← isOther]
      exact edge_reverse directed id relation
  have droppedEdge : ∀ {own : TaskRelation}, own.edge forward subject = some (source, target) →
      ((source, target) ∈ drops.filterMap (·.edge forward subject) ↔ own ∈ drops) := by
    intro own isEdge
    rw [List.mem_filterMap]
    constructor
    · rintro ⟨other, member, otherEdge⟩
      exact edge_injective otherEdge isEdge (apart other (List.mem_append_right _ member)) ▸ member
    · exact fun member => ⟨own, member, isEdge⟩
  have elsewhere : ∀ id (relation : TaskRelation), id ≠ subject → relation.other ≠ subject →
      relation.edge forward id = some (source, target) →
      (source, target) ∉ drops.filterMap (·.edge forward subject) := by
    intro id relation idApart otherApart isEdge dropped
    obtain ⟨own, _, ownEdge⟩ := List.mem_filterMap.mp dropped
    rcases edge_ends isEdge with ⟨rfl, rfl⟩ | ⟨rfl, rfl⟩ <;>
      rcases edge_ends ownEdge with ⟨same, _⟩ | ⟨_, same⟩
    · exact idApart same
    · exact otherApart same
    · exact otherApart same
    · exact idApart same
  constructor
  · rintro ⟨id, relation, member, isEdge⟩
    rw [rewired] at member
    by_cases touches : id = subject ∨ relation.other = subject
    · obtain ⟨own, ownEdge, same⟩ := touched id relation touches
      rw [isEdge] at ownEdge
      rw [same, EdgeEdit.Leaves, edits] at member
      split at member
      · rename_i added
        exact .inr (List.mem_filterMap.mpr ⟨own, added, ownEdge⟩)
      · split at member
        · cases member
        · rename_i kept
          exact .inl ⟨⟨id, relation, member, isEdge⟩, fun dropped =>
            kept ((droppedEdge ownEdge).mp dropped)⟩
    · rw [not_or] at touches
      rw [EdgeEdit.At, if_neg touches.1, if_neg touches.2] at member
      exact .inl ⟨⟨id, relation, member, isEdge⟩,
        elsewhere id relation touches.1 touches.2 isEdge⟩
  · rintro (⟨⟨id, relation, member, isEdge⟩, kept⟩ | added)
    · refine ⟨id, relation, (rewired id relation).mpr ?_, isEdge⟩
      by_cases touches : id = subject ∨ relation.other = subject
      · obtain ⟨own, ownEdge, same⟩ := touched id relation touches
        rw [isEdge] at ownEdge
        rw [same, EdgeEdit.Leaves, edits]
        split
        · rfl
        · rw [if_neg fun dropped => kept ((droppedEdge ownEdge).mpr dropped)]
          exact member
      · rw [not_or] at touches
        rw [EdgeEdit.At, if_neg touches.1, if_neg touches.2]
        exact member
    · obtain ⟨own, member, ownEdge⟩ := List.mem_filterMap.mp added
      refine ⟨subject, own, (rewired subject own).mpr ?_, ownEdge⟩
      rw [EdgeEdit.At, if_pos rfl, EdgeEdit.Leaves, edits, if_pos member]
      rfl

end Graphs

section Pull

variable {provider : Provider} {forceAcceptRemote : Bool} {before middle after : Database}
  {subject pulled : Task}

theorem missing_congr (place : pulled.SamePlace subject) (kind : RelationKind)
    (desired : List TaskId) : pulled.missing kind desired = subject.missing kind desired := by
  unfold Task.missing Task.related
  rw [place.id, place.relations]

theorem unlisted_congr (same : SameNeighborhood subject.id before middle)
    (place : pulled.SamePlace subject) (kind : RelationKind) (desired : List TaskId) :
    middle.unlisted kind desired pulled = before.unlisted kind desired subject := by
  have backedEq : middle.backed = before.backed := by
    funext id
    rw [backed_eq_identities, backed_eq_identities, same.identities]
  unfold Database.unlisted Task.related
  rw [place.id, place.relations, backedEq]

theorem listings_congr (same : SameNeighborhood subject.id before middle)
    (place : pulled.SamePlace subject) (subs blockers parents : List RemoteChildIssue) :
    middle.listings pulled subs blockers parents = before.listings subject subs blockers parents := by
  unfold Database.listings Database.localMirrors
  rw [localMirror_congr same, place.id, place.workspaceId]

theorem listings_distinct (database : Database) (task : Task)
    (subs blockers parents : List RemoteChildIssue) :
    ((database.listings task subs blockers parents).map Prod.fst).Nodup := by
  unfold Database.listings
  dsimp only
  split <;> simp

theorem listed_apart {database : Database} {task : Task}
    {listings : List (RelationKind × List TaskId)} {relation : TaskRelation}
    (member : relation ∈ task.listedAdds listings ++ database.listedDrops listings task) :
    relation.other ≠ task.id := by
  rcases List.mem_append.mp member with added | dropped
  · obtain ⟨_, _, missing⟩ := mem_listedAdds.mp added
    have owed := (List.mem_filter.mp missing).2
    simp only [decide_eq_true_eq] at owed
    exact owed.1
  · obtain ⟨_, _, unlisted⟩ := mem_listedDrops.mp dropped
    have owed := (List.mem_filter.mp unlisted).2
    simp only [decide_eq_true_eq] at owed
    exact owed.1

theorem pullListings_distinct (provider : Provider) (database : Database) (task : Task) :
    ((pullListings provider database task).map Prod.fst).Nodup := by
  unfold pullListings
  split
  · exact .nil
  · split
    · exact listings_distinct ..
    · exact .nil

/-- A completed pull edits the stored edges of the pulled task as its listings say, at both of
their ends. A pull that fails leaves them all. -/
theorem runs_pullInner_edges {id : TaskId} {result : Except SyncError (Task × List SyncNotice)}
    (ran : (pullInner id forceAcceptRemote).Runs (portsOf provider) before result after)
    (stored : before.stored id = some subject) :
    (∀ error, result = .error error → ∀ far relation,
      relation ∈ after.relationsOf far ↔ relation ∈ before.relationsOf far) ∧
    ∀ value, result = .ok value → ∀ far relation, relation ∈ after.relationsOf far ↔
      (before.inboundEdit subject (pullListings provider before subject)).At subject.id far relation
        (relation ∈ before.relationsOf far) := by
  have idEq := Database.stored_id stored
  rcases runs_pullInner ran stored with ⟨⟨error, failed⟩, first⟩ |
    ⟨canonical, remoteId, pulled, middle, reconciled, addressed, place, first, ranReconcile, fails⟩
  · exact ⟨fun _ _ => first.edges, fun _ ended => nomatch failed.symm.trans ended⟩
  · rcases runs_quiet_bind_portsOf (gatherInbound_quiet ..) ranReconcile with
      ⟨state, gathered, ranRest⟩ | ⟨failed, rfl⟩
    swap
    · obtain ⟨error, resultEq⟩ := fails.mpr failed
      exact ⟨fun _ _ => first.edges, fun _ ended => nomatch resultEq.symm.trans ended⟩
    obtain ⟨subs, blockers, parents, subsEq, blockersEq, parentsEq, _⟩ := runs_gatherInbound gathered
    have carried := gatherInbound_rewires subsEq blockersEq parentsEq gathered
    have listingsEq : pullListings provider before subject =
        before.listings subject subs blockers parents := by
      simp only [pullListings, addressed, subsEq, blockersEq, parentsEq]
    rw [listings_congr first.same place] at carried
    -- the edit as the listings and the stored edges before the pull have it
    have edited : middle.inboundEdit pulled (before.listings subject subs blockers parents) =
        before.inboundEdit subject (pullListings provider before subject) := by
      rw [listingsEq]
      unfold Database.inboundEdit
      simp only [missing_congr place, unlisted_congr first.same place]
    have known : ∀ relation, relation ∈ middle.relationsOf pulled.id ↔
        relation ∈ pulled.relations := by
      intro relation
      rw [first.edges, place.id, place.relations, idEq]
      exact Database.mem_relationsOf_stored stored relation
    have finish : (∀ far relation, relation ∈ after.relationsOf far ↔
        (middle.inboundEdit pulled (before.listings subject subs blockers parents)).At pulled.id far
          relation (relation ∈ middle.relationsOf far)) → ∀ far relation,
        (relation ∈ after.relationsOf far ↔
          (before.inboundEdit subject (pullListings provider before subject)).At subject.id far
            relation (relation ∈ before.relationsOf far)) := by
      intro rewired far relation
      rw [rewired, edited, place.id, propext (first.edges far relation)]
    split at ranRest
    · rcases runs_bind.mp ranRest with ⟨_, last, saved, rest⟩ | ⟨error, failed, reconciledEq⟩
      · obtain ⟨reconciledEq, rfl⟩ := rest
        obtain ⟨instant, savedEq⟩ := runs_saveAll (runs_portsOf saved)
        refine ⟨fun error failed => ?_, fun _ _ => finish (rewired_saved carried known savedEq)⟩
        obtain ⟨_, reconciledError⟩ := fails.mp ⟨error, failed⟩
        exact nomatch reconciledEq.symm.trans reconciledError
      · have same := runs_query_error (runs_portsOf failed)
        subst same
        obtain ⟨_, resultEq⟩ := fails.mpr ⟨error, reconciledEq⟩
        exact ⟨fun _ _ => first.edges, fun _ ended => nomatch resultEq.symm.trans ended⟩
    · rename_i unchanged
      obtain ⟨reconciledEq, rfl⟩ := ranRest
      exact ⟨fun _ _ => first.edges, fun _ _ =>
        finish (rewired_unchanged carried (by simpa using unchanged))⟩

theorem runs_pullInner_upstream {id : TaskId} {result : Except SyncError (Task × List SyncNotice)}
    (ran : (pullInner id forceAcceptRemote).Runs (portsOf provider) before result after)
    (stored : before.stored id = some subject) {forward : RelationKind}
    (directed : forward ∈ Database.families) :
    (∀ error, result = .error error → ∀ source target,
      after.Upstream forward source target ↔ before.Upstream forward source target) ∧
    ∀ value, result = .ok value → ∀ source target,
      (after.Upstream forward source target ↔
        before.Upstream forward source target ∧ (source, target) ∉
          (before.listedDrops (pullListings provider before subject) subject).filterMap
            (·.edge forward subject.id) ∨
        (source, target) ∈ (subject.listedAdds (pullListings provider before subject)).filterMap
          (·.edge forward subject.id)) := by
  obtain ⟨failing, completing⟩ := runs_pullInner_edges ran stored
  constructor
  · intro error failed source target
    unfold Database.Upstream
    simp only [failing error failed]
  · intro value ended
    exact upstream_rewired directed (inboundEdit_eq (pullListings_distinct ..))
      (fun relation => listed_apart) (completing value ended)

end Pull

/-- A relation verb, or a pull whose listings are admitted, carried through from start to end. -/
inductive RelationStep (admits : Database → List (RelationKind × List TaskId) → Task → Prop) :
    Database → Database → Prop
  | add {before after : Database} {taskId : TaskId} {kind : RelationKind} {otherId : TaskId}
      {result : Except ServiceError Task}
      (ran : (TaskService.addRelation taskId kind otherId).Runs portMeaning before result after) :
      RelationStep admits before after
  | remove {before after : Database} {taskId : TaskId} {kind : RelationKind} {otherId : TaskId}
      {result : Except ServiceError Task}
      (ran : (TaskService.removeRelation taskId kind otherId).Runs portMeaning before result after) :
      RelationStep admits before after
  | clear {before after : Database} {taskId : TaskId} {result : Except ServiceError Task}
      (ran : (TaskService.clearRelations taskId).Runs portMeaning before result after) :
      RelationStep admits before after
  | pull {before after : Database} {provider : Provider} {id : TaskId} {forceAcceptRemote : Bool}
      {result : Except SyncError (Task × List SyncNotice)}
      (admitted : ∀ subject, before.stored id = some subject →
        admits before (pullListings provider before subject) subject)
      (ran : (pullInner id forceAcceptRemote).Runs (portsOf provider) before result after) :
      RelationStep admits before after

theorem pull_acyclic_iff {provider : Provider} {forceAcceptRemote : Bool} {id : TaskId}
    {before after : Database} {subject : Task} {value : Task × List SyncNotice}
    (acyclic : before.AcyclicFamilies) (stored : before.stored id = some subject)
    (ran : (pullInner id forceAcceptRemote).Runs (portsOf provider) before (.ok value) after) :
    after.AcyclicFamilies ↔ before.Guards (pullListings provider before subject) subject := by
  refine forall₂_congr fun forward directed => ?_
  obtain ⟨_, completed⟩ := runs_pullInner_upstream ran stored directed
  generalize pullListings provider before subject = listings at completed
  have left : Acyclic (edgeRel ((upstreamEdges forward forward.inverse
      (before.listTasks {})).filter fun edge =>
        edge ∉ (before.listedDrops listings subject).filterMap (·.edge forward subject.id))) :=
    (acyclic forward directed).mono fun _ _ kept => mem_upstreamEdges.mp (List.mem_filter.mp kept).1
  have same : after.Upstream forward = InsertAll (edgeRel ((upstreamEdges forward forward.inverse
      (before.listTasks {})).filter fun edge =>
        edge ∉ (before.listedDrops listings subject).filterMap (·.edge forward subject.id)))
      ((subject.listedAdds listings).filterMap (·.edge forward subject.id)) := by
    funext source target
    rw [eq_iff_iff, insertAll_iff, completed value rfl, edgeRel, List.mem_filter, mem_upstreamEdges,
      decide_eq_true_eq]
  rw [same, acyclic_insertAll_iff left, guardsAll_iff]

/-- In every run whose pulls pass the guard both families stay acyclic, and one more completed
pull keeps them so exactly if it passes the guard as well. -/
theorem relations_acyclic_iff_guarded {start last : Database} (acyclic : start.AcyclicFamilies)
    (run : ReflTransGen (RelationStep Database.Guards) start last) :
    last.AcyclicFamilies ∧
      ∀ {provider : Provider} {forceAcceptRemote : Bool} {id : TaskId} {after : Database}
        {subject : Task} {value : Task × List SyncNotice}, last.stored id = some subject →
        (pullInner id forceAcceptRemote).Runs (portsOf provider) last (.ok value) after →
        (after.AcyclicFamilies ↔
          last.Guards (pullListings provider last subject) subject) := by
  have kept : last.AcyclicFamilies := by
    induction run with
    | refl => exact acyclic
    | tail _ step ih =>
        cases step with
        | add ran => exact addRelation_acyclic ih ran
        | remove ran => exact removeRelation_acyclic ih ran
        | clear ran => exact clearRelations_acyclic ih ran
        | @pull _ id _ result admitted ran =>
            have loads := ran
            rw [pullInner_eq] at loads
            rcases runs_quiet_bind_portsOf (getTask_quiet id) loads with
              ⟨subject, ranLoad, _⟩ | ⟨_, rfl⟩
            swap
            · exact ih
            have stored := runs_getTask (runs_portsOf ranLoad)
            cases result with
            | ok value => exact (pull_acyclic_iff ih stored ran).mpr (admitted subject stored)
            | error error =>
                intro forward directed
                refine (ih forward directed).mono fun source target => ?_
                exact ((runs_pullInner_upstream ran stored directed).1 error rfl source target).mp
  exact ⟨kept, pull_acyclic_iff kept⟩

def blockingProvider : Provider
  | .fetchSubIssues .. => .ok []
  | .fetchBlockedBy _ remoteId =>
      .ok (if remoteId = "8" then
        [⟨"github.com/acme/one", ⟨"7", none, "t", "", false, .epoch, [], []⟩⟩] else [])
  | op => parentProvider op

def twoMirrors : Database :=
  let mirror (remoteId : String) : ImportMirrorCmd :=
    ⟨⟨1⟩, some ⟨21⟩, "github", remoteId, "t", "", [], false⟩
  after blockingProvider .epoch (TaskService.importMirror (mirror "8"))
    (after blockingProvider .epoch (TaskService.importMirror (mirror "7")) twoRepos)

def locallyBlocked : Database :=
  after blockingProvider .epoch (TaskService.addRelation ⟨1⟩ .blockedBy ⟨2⟩) twoMirrors

theorem twoMirrors_acyclic : twoMirrors.AcyclicFamilies := by
  have bare : ∀ id, twoMirrors.relationsOf id = [] := by
    intro id
    unfold Database.relationsOf
    cases found : twoMirrors.record id with
    | none => rfl
    | some record =>
        have rows : ∀ record ∈ twoMirrors.tasks.rows, record.relations = [] := by decide
        exact rows record (Table.find_mem found)
  intro forward _ node path
  obtain ⟨_, ⟨id, relation, member, _⟩, _⟩ := TransGen.head'_iff.mp path
  rw [bare] at member
  exact List.not_mem_nil member

/-- The guard admits a local edge, and a pull adds the opposite edge that the remote lists. -/
theorem pull_closes_cycle : ∃ last, twoMirrors.AcyclicFamilies ∧
    ReflTransGen (RelationStep fun _ _ _ => True) twoMirrors last ∧ ¬last.AcyclicFamilies := by
  obtain ⟨value, ran⟩ := runs_portsOf_of_ok (show (ending blockingProvider .epoch
    (pullInner ⟨2⟩ false) locallyBlocked).1.isOk = true by decide)
  refine ⟨_, twoMirrors_acyclic, .tail (.single (.add (runs_after blockingProvider .epoch
    (TaskService.addRelation ⟨1⟩ .blockedBy ⟨2⟩) twoMirrors)))
    (.pull (fun _ _ => trivial) ran), ?_⟩
  intro acyclic
  have downward : (after blockingProvider .epoch (pullInner ⟨2⟩ false) locallyBlocked).Upstream
      .blockedBy ⟨1⟩ ⟨2⟩ := ⟨⟨1⟩, ⟨.blockedBy, ⟨2⟩⟩, by decide, rfl⟩
  have upward : (after blockingProvider .epoch (pullInner ⟨2⟩ false) locallyBlocked).Upstream
      .blockedBy ⟨2⟩ ⟨1⟩ := ⟨⟨2⟩, ⟨.blockedBy, ⟨1⟩⟩, by decide, rfl⟩
  exact acyclic .blockedBy List.mem_cons_self ⟨1⟩ (.tail (.single downward) upward)

theorem relations_acyclic_iff_guarded_pulled : ∃ last subject value,
    last.AcyclicFamilies ∧ last.Upstream .blockedBy ⟨2⟩ ⟨1⟩ ∧
    ((after blockingProvider .epoch (pullInner ⟨1⟩ false) last).AcyclicFamilies ↔
      last.Guards (pullListings blockingProvider last subject) subject) ∧
    last.stored ⟨1⟩ = some subject ∧
    (pullInner ⟨1⟩ false).Runs (portsOf blockingProvider) last (.ok value)
      (after blockingProvider .epoch (pullInner ⟨1⟩ false) last) := by
  obtain ⟨_, ran⟩ := runs_portsOf_of_ok (show (ending blockingProvider .epoch
    (pullInner ⟨2⟩ false) twoMirrors).1.isOk = true by decide)
  have guarded : ∀ subject, twoMirrors.stored ⟨2⟩ = some subject →
      twoMirrors.Guards (pullListings blockingProvider twoMirrors subject) subject := by
    intro subject stored
    cases stored
    decide
  obtain ⟨kept, exact⟩ := relations_acyclic_iff_guarded twoMirrors_acyclic
    (.single (.pull guarded ran))
  obtain ⟨value, again⟩ := runs_portsOf_of_ok (show (ending blockingProvider .epoch
    (pullInner ⟨1⟩ false) (after blockingProvider .epoch (pullInner ⟨2⟩ false)
      twoMirrors)).1.isOk = true by decide)
  obtain ⟨subject, stored⟩ : ∃ subject, (after blockingProvider .epoch (pullInner ⟨2⟩ false)
      twoMirrors).stored ⟨1⟩ = some subject := ⟨_, rfl⟩
  exact ⟨_, subject, value, kept, ⟨⟨2⟩, ⟨.blockedBy, ⟨1⟩⟩, by decide, rfl⟩,
    exact stored again, stored, again⟩

end RepoLink
