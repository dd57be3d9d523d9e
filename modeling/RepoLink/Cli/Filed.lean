import Mathlib.Logic.Function.Basic
import RepoLink.Cli.Import
import RepoLink.Library.Descent
import RepoLink.TaskService.Unfailing

/-!
What an import has filed at any round: one mirror for every issue that was visited, linked to the
mirror of the issue it was reached from, and nothing else.
-/

namespace RepoLink

open Effects Program KeyedTable Relation TaskTable Walks TaskService

namespace SyncImport

variable {answers : Provider} {draws : Database → String → Prop} {target : Target}
  {issues : List String} {start database after : Database} {ids : String → TaskId}
  {met : List (Visit String)} {number : String}

structure Attached (target : Target) (database : Database) : Prop where
  workspace : ∃ workspace, database.workspaces.find target.workspaceId = some workspace
  bound : ∃ view, database.findByCanonicalUrl target.workspaceId target.canonical = some view ∧
    targetOf target.workspaceId target.canonical view = target

/-- What an import of these issues starts from: the repo is attached, no row or mapping is one of
the issues, and no relation dangles. -/
structure Ready (target : Target) (issues : List String) (start : Database) : Prop where
  attached : Attached target start
  untracked : ∀ id record, start.record id = some record → ∀ number ∈ issues,
    Database.mirrors target.filingOriginId provider number record = false ∧
      record.mapping ≠ some ⟨some target.filingOriginId.toRepoId, provider, number⟩
  resolved : ∀ id, ∀ relation ∈ start.relationsOf id, (start.record relation.other).isSome = true

theorem Attached.hosts (attached : Attached target database) :
    database.Hosts target.workspaceId target.repoId target.filingOriginId := by
  obtain ⟨workspace, view, found, named⟩ := attached
  obtain ⟨row, rowFound, viewed⟩ := Option.bind_eq_some_iff.mp found
  obtain ⟨origin, originFound, rfl⟩ := Option.map_eq_some_iff.mp viewed
  rw [← named]
  refine ⟨workspace, ⟨⟨row, origin⟩, ?_, rfl⟩, ⟨origin, originFound⟩⟩
  have stored : database.instances.find row.id = some row :=
    Table.find_of_mem (List.mem_of_find?_eq_some rowFound)
  change database.getBinding row.id = _
  rw [Database.getBinding, stored, Option.bind_some, viewed]

theorem Attached.kept (attached : Attached target database)
    (same : Database.SameConfig database after) : Attached target after := by
  obtain ⟨workspaces, instances, origins⟩ := same
  have views : after.bindingView = database.bindingView := by
    unfold Database.bindingView
    rw [origins]
  refine ⟨workspaces ▸ attached.workspace, ?_⟩
  unfold Database.findByCanonicalUrl
  rw [instances, views]
  exact attached.bound

def nodeStanding (target : Target) (number hash : String) : Standing :=
  mirrorStanding target.workspaceId target.repoId target.filingOriginId provider number hash

def Linked (ids : String → TaskId) (met : List (Visit String)) (number : String)
    (relation : TaskRelation) : Prop :=
  ∃ visit ∈ met, ∃ parent, visit.parent = some parent ∧
    ((visit.node = number ∧ relation = ⟨.childOf, ids parent⟩) ∨
      (parent = number ∧ relation = ⟨.parentOf, ids visit.node⟩))

structure MirrorOf (target : Target) (database : Database) (number : String)
    (record : TaskRecord) : Prop where
  standing : record.standing = nodeStanding target number record.row.hash
  hashFree : database.tasks.hashTaken record.row = false
  distinct : record.relations.Nodup

/-- The visited issues are filed, each under its id, and the rest of the store is as it was. -/
structure Filed (target : Target) (issues : List String) (start : Database)
    (ids : String → TaskId) (met : List (Visit String)) (database : Database) : Prop where
  config : Database.SameConfig start database
  within : ∀ number ∈ nodesOf met, number ∈ issues
  injective : ∀ left ∈ nodesOf met, ∀ right ∈ nodesOf met, ids left = ids right → left = right
  fresh : ∀ number ∈ nodesOf met, start.record (ids number) = none
  kept : ∀ id, (∀ number ∈ nodesOf met, ids number ≠ id) → database.record id = start.record id
  mirrored : ∀ number ∈ nodesOf met, ∃ record, database.record (ids number) = some record ∧
    MirrorOf target database number record
  edges : ∀ number ∈ nodesOf met, ∀ relation,
    relation ∈ database.relationsOf (ids number) ↔ Linked ids met number relation

theorem Filed.nothing (ids : String → TaskId) : Filed target issues start ids [] start where
  config := ⟨rfl, rfl, rfl⟩
  within _ member := (List.not_mem_nil member).elim
  injective _ member := (List.not_mem_nil member).elim
  fresh _ member := (List.not_mem_nil member).elim
  kept _ _ := rfl
  mirrored _ member := (List.not_mem_nil member).elim
  edges _ member := (List.not_mem_nil member).elim

theorem mirrors_standing {record : TaskRecord} {hash : String}
    (standing : record.standing = nodeStanding target number hash) (wanted : String) :
    Database.mirrors target.filingOriginId provider wanted record = true ↔ number = wanted := by
  have filing : record.row.filingRepoId = some target.filingOriginId.toRepoId :=
    congrArg Standing.filingRepoId standing
  have backed : record.row.remote = some ⟨provider, number, none⟩ :=
    congrArg Standing.remote standing
  simp [Database.mirrors, filing, backed]

theorem Filed.identified (filed : Filed target issues start ids met database)
    (ready : Ready target issues start) (wanted : number ∈ issues) {id : TaskId}
    {record : TaskRecord} (found : database.record id = some record)
    (same : Database.mirrors target.filingOriginId provider number record = true ∨
      record.mapping = some ⟨some target.filingOriginId.toRepoId, provider, number⟩) :
    number ∈ nodesOf met ∧ id = ids number := by
  by_cases imported : ∃ other ∈ nodesOf met, ids other = id
  · obtain ⟨other, member, rfl⟩ := imported
    obtain ⟨stored, storedFound, mirror⟩ := filed.mirrored other member
    obtain rfl := Option.some.inj (storedFound.symm.trans found)
    have equal : other = number := by
      rcases same with mirrors | mapped
      · exact (mirrors_standing mirror.standing number).mp mirrors
      · have mapping := (congrArg Standing.mapping mirror.standing).symm.trans mapped
        exact congrArg RemoteMapping.remoteId (Option.some.inj mapping)
    subst equal
    exact ⟨member, rfl⟩
  · have kept := filed.kept id fun other member equal => imported ⟨other, member, equal⟩
    obtain ⟨unrecorded, unmapped⟩ := ready.untracked id record (kept.symm.trans found) number wanted
    rcases same with mirrors | mapped
    · rw [unrecorded] at mirrors
      cases mirrors
    · exact (unmapped mapped).elim

theorem Filed.stored (filed : Filed target issues start ids met database)
    (member : number ∈ nodesOf met) : (database.record (ids number)).isSome = true := by
  obtain ⟨record, found, _⟩ := filed.mirrored number member
  rw [found]
  rfl

theorem Filed.findByRemote (filed : Filed target issues start ids met database)
    (ready : Ready target issues start) (wanted : number ∈ issues) :
    (database.findByRemote target.filingOriginId provider number).map Task.id =
      if number ∈ nodesOf met then some (ids number) else none := by
  unfold Database.findByRemote Database.findTask
  cases found : database.tasks.rows.find?
      (Database.mirrors target.filingOriginId provider number) with
  | none =>
      rw [if_neg]
      · rfl
      intro member
      obtain ⟨record, recordFound, mirror⟩ := filed.mirrored number member
      exact List.find?_eq_none.mp found record (Table.find_mem recordFound)
        ((mirrors_standing mirror.standing number).mpr rfl)
  | some record =>
      have inRows : database.record record.id = some record :=
        Table.find_of_mem (List.mem_of_find?_eq_some found)
      obtain ⟨member, same⟩ := filed.identified ready wanted inRows (.inl (List.find?_some found))
      rw [if_pos member, ← same]
      rfl

theorem linked_congr {ids' : String → TaskId} {relation : TaskRelation} (ranked : Ranked met)
    (agree : ∀ other ∈ nodesOf met, ids' other = ids other) :
    Linked ids' met number relation ↔ Linked ids met number relation := by
  unfold Linked
  refine exists_congr fun visit => and_congr_right fun member => exists_congr fun parent =>
    and_congr_right fun given => ?_
  rw [agree visit.node (mem_nodesOf.mpr ⟨visit, member, rfl⟩),
    agree parent (ranked.parent_mem member given)]

theorem linked_cons {visit : Visit String} {relation : TaskRelation} :
    Linked ids (visit :: met) number relation ↔ (∃ parent, visit.parent = some parent ∧
      ((visit.node = number ∧ relation = ⟨.childOf, ids parent⟩) ∨
        (parent = number ∧ relation = ⟨.parentOf, ids visit.node⟩))) ∨
      Linked ids met number relation := by
  unfold Linked
  exact List.exists_mem_cons_iff ..

theorem not_linked {relation : TaskRelation} (ranked : Ranked met) (new : number ∉ nodesOf met) :
    ¬Linked ids met number relation := by
  rintro ⟨visit, member, parent, given, ⟨rfl, _⟩ | ⟨rfl, _⟩⟩
  · exact new (mem_nodesOf.mpr ⟨visit, member, rfl⟩)
  · exact new (ranked.parent_mem member given)

section Hashes

variable {standing : String → Standing} {task : Task}

theorem imported_hashFree (imported : Imported standing database task after) {row : Task}
    (rowId : row.id = task.id) (hash : row.hash = task.hash) :
    after.tasks.hashTaken row = false := by
  refine hashFree_iff.mpr ?_
  rw [hash, rowId]
  refine (hashFree_iff.mp imported.hashFree).imp_right fun alone id record found same => ?_
  by_contra other
  exact other (alone id record ((imported.others id other).symm.trans found) same)

theorem imported_hashKept (imported : Imported standing database task after)
    (hashes : ∀ record : TaskRecord, record.standing = standing task.hash →
      record.row.hash = task.hash) {record : TaskRecord}
    (found : database.record record.id = some record)
    (free : database.tasks.hashTaken record.row = false) :
    after.tasks.hashTaken record.row = false := by
  refine hashFree_iff.mpr ?_
  rcases hashFree_iff.mp free with empty | alone
  · exact .inl empty
  by_cases sameHash : record.row.hash = task.hash
  · rcases hashFree_iff.mp imported.hashFree with empty | unused
    · exact .inl (sameHash.trans empty)
    · have clash : record.id = task.id := unused record.id record found sameHash
      rw [clash, imported.fresh] at found
      cases found
  · refine .inr fun id other otherFound same => ?_
    by_cases isNew : id = task.id
    · obtain ⟨stored, storedFound, _, stands⟩ := imported.stored
      obtain rfl := Option.some.inj (storedFound.symm.trans (isNew ▸ otherFound))
      exact (sameHash (same.symm.trans (hashes stored stands))).elim
    · exact alone id other ((imported.others id isNew).symm.trans otherFound) same

end Hashes

theorem update_old {new : TaskId} (fresh : number ∉ nodesOf met) :
    ∀ other ∈ nodesOf met, Function.update ids number new other = ids other := by
  intro other member
  refine Function.update_of_ne ?_ _ _
  rintro rfl
  exact fresh member

/-- The new mirror is filed under its id, without a parent for the time being. -/
theorem Filed.imported {task : Task}
    (filed : Filed target issues start ids met database) (ranked : Ranked met)
    (wanted : number ∈ issues) (new : number ∉ nodesOf met)
    (imported : Imported (nodeStanding target number) database task after) (depth : Nat) :
    Filed target issues start (Function.update ids number task.id) (⟨number, none, depth⟩ :: met)
      after := by
  have atNew : Function.update ids number task.id number = task.id := Function.update_self ..
  have atOld : ∀ other ∈ nodesOf met, Function.update ids number task.id other = ids other :=
    update_old new
  have apart : ∀ other ∈ nodesOf met, ids other ≠ task.id := by
    intro other member same
    have stored := filed.stored member
    rw [same, imported.fresh] at stored
    cases stored
  have startFresh : start.record task.id = none := by
    rw [← filed.kept task.id apart]
    exact imported.fresh
  obtain ⟨record, found, unrelated, standing⟩ := imported.stored
  have recordId : record.id = task.id := Database.record_id found
  have hash : record.row.hash = task.hash := congrArg Standing.hash standing
  constructor
  · exact filed.config.trans imported.config
  · intro other member
    rcases List.mem_cons.mp member with rfl | member
    · exact wanted
    · exact filed.within other member
  · intro left leftMember right rightMember same
    rcases List.mem_cons.mp leftMember with rfl | leftOld
    · rcases List.mem_cons.mp rightMember with rfl | rightOld
      · rfl
      · rw [atNew, atOld right rightOld] at same
        exact (apart right rightOld same.symm).elim
    · rcases List.mem_cons.mp rightMember with rfl | rightOld
      · rw [atNew, atOld left leftOld] at same
        exact (apart left leftOld same).elim
      · rw [atOld left leftOld, atOld right rightOld] at same
        exact filed.injective left leftOld right rightOld same
  · intro other member
    rcases List.mem_cons.mp member with rfl | member
    · rw [atNew]
      exact startFresh
    · rw [atOld other member]
      exact filed.fresh other member
  · intro id elsewhere
    have notNew : id ≠ task.id :=
      fun same => elsewhere number List.mem_cons_self (atNew.trans same.symm)
    rw [imported.others id notNew]
    refine filed.kept id fun other member same => ?_
    exact elsewhere other (List.mem_cons_of_mem _ member) ((atOld other member).trans same)
  · intro other member
    rcases List.mem_cons.mp member with rfl | member
    · rw [atNew]
      refine ⟨record, found, hash ▸ standing, imported_hashFree imported recordId hash, ?_⟩
      exact unrelated ▸ List.nodup_nil
    · obtain ⟨old, oldFound, mirror⟩ := filed.mirrored other member
      have oldId : old.id = ids other := Database.record_id oldFound
      rw [atOld other member, imported.others _ (apart other member)]
      exact ⟨old, oldFound, mirror.standing,
        imported_hashKept imported (fun _ stands => congrArg Standing.hash stands)
          (oldId ▸ oldFound) mirror.hashFree, mirror.distinct⟩
  · intro other member relation
    rw [linked_cons, linked_congr ranked atOld]
    simp only [reduceCtorEq, false_and, exists_false, false_or]
    rcases List.mem_cons.mp member with rfl | member
    · rw [atNew, Database.relationsOf, found]
      refine iff_of_false ?_ (not_linked ranked new)
      rw [Option.elim_some, unrelated]
      exact List.not_mem_nil
    · rw [atOld other member, ← filed.edges other member relation, Database.relationsOf,
        imported.others _ (apart other member)]
      rfl

theorem Filed.keeps {record : TaskRecord} (filed : Filed target issues start ids met database)
    (ranked : Ranked met) (ready : Ready target issues start) (member : number ∈ nodesOf met)
    (found : database.record (ids number) = some record)
    (mirror : MirrorOf target database number record) : database.Keeps record := by
  have recordId : record.id = ids number := Database.record_id found
  have mapped : TaskRecord.mappingOf record.row =
      some ⟨some target.filingOriginId.toRepoId, provider, number⟩ := by
    have filing : record.row.filingRepoId = some target.filingOriginId.toRepoId :=
      congrArg Standing.filingRepoId mirror.standing
    have backed : record.row.remote = some ⟨provider, number, none⟩ :=
      congrArg Standing.remote mirror.standing
    rw [TaskRecord.mappingOf, filing, backed]
    rfl
  refine ⟨?_, mirror.hashFree, ?_, mirror.distinct, fun relation related => ?_⟩
  · rw [mapped]
    exact congrArg Standing.mapping mirror.standing
  · refine keyFree_iff.mpr fun mapping same id other otherFound holds => ?_
    rw [mapped] at same
    exact ((filed.identified ready (filed.within number member) otherFound
      (.inr (holds.trans same.symm))).2).trans recordId.symm
  · have linked : Linked ids met number relation := by
      refine (filed.edges number member relation).mp ?_
      rw [Database.relationsOf, found]
      exact related
    obtain ⟨visit, visited, parent, given, ⟨_, rfl⟩ | ⟨_, rfl⟩⟩ := linked
    · exact filed.stored (ranked.parent_mem visited given)
    · exact filed.stored (mem_nodesOf.mpr ⟨visit, visited, rfl⟩)

theorem MirrorOf.filedAt {record : TaskRecord} (mirror : MirrorOf target database number record) :
    FiledAt target.workspaceId target.repoId target.filingOriginId record.row :=
  ⟨congrArg Standing.workspaceId mirror.standing, congrArg Standing.repoId mirror.standing,
    congrArg Standing.filingRepoId mirror.standing⟩

theorem Filed.upstream (filed : Filed target issues start ids met database) (ranked : Ranked met)
    (ready : Ready target issues start) {visit : Visit String} (visited : visit ∈ met)
    {upper : TaskId} (edge : database.Upstream .childOf (ids visit.node) upper) :
    ∃ earlier ∈ met, upper = ids earlier.node ∧ earlier.depth < visit.depth := by
  have nodeMem : visit.node ∈ nodesOf met := mem_nodesOf.mpr ⟨visit, visited, rfl⟩
  obtain ⟨subject, relation, related, direction⟩ := edge
  unfold TaskRelation.edge at direction
  split at direction
  · rename_i isChild
    obtain ⟨rfl, rfl⟩ := Prod.mk.inj (Option.some.inj direction)
    obtain ⟨other, otherMem, parent, given, ⟨sameNode, rfl⟩ | ⟨_, rfl⟩⟩ :=
      (filed.edges visit.node nodeMem relation).mp related
    · obtain rfl := ranked.unique otherMem visited sameNode
      obtain ⟨earlier, earlierMem, rfl, deeper⟩ := ranked.parents other otherMem parent given
      exact ⟨earlier, earlierMem, rfl, deeper⟩
    · cases isChild
  · split at direction
    · rename_i isParent
      obtain ⟨lower, rfl⟩ := Prod.mk.inj (Option.some.inj direction)
      by_cases imported : ∃ other ∈ nodesOf met, ids other = subject
      · obtain ⟨other, otherMem, rfl⟩ := imported
        obtain ⟨child, childMem, parent, given, ⟨_, rfl⟩ | ⟨rfl, rfl⟩⟩ :=
          (filed.edges other otherMem relation).mp related
        · cases isParent
        · have sameNode :=
            filed.injective _ (mem_nodesOf.mpr ⟨child, childMem, rfl⟩) _ nodeMem lower
          obtain rfl := ranked.unique childMem visited sameNode
          obtain ⟨earlier, earlierMem, rfl, deeper⟩ := ranked.parents child childMem parent given
          exact ⟨earlier, earlierMem, rfl, deeper⟩
      · have kept := filed.kept subject fun other member same => imported ⟨other, member, same⟩
        have stored : relation ∈ start.relationsOf subject := by
          rwa [Database.relationsOf, kept] at related
        have resolved := ready.resolved subject relation stored
        rw [lower, filed.fresh visit.node nodeMem] at resolved
        cases resolved
    · cases direction

theorem Filed.opens (filed : Filed target issues start ids met database) (ranked : Ranked met)
    (ready : Ready target issues start) {child parent : Visit String} (childMem : child ∈ met)
    (parentMem : parent ∈ met) (deeper : parent.depth < child.depth) :
    ¬TransGen (database.Upstream .childOf) (ids parent.node) (ids child.node) := by
  have above : ∀ {upper : TaskId}, TransGen (database.Upstream .childOf) (ids parent.node) upper →
      ∃ earlier ∈ met, upper = ids earlier.node ∧ earlier.depth < parent.depth := by
    intro upper path
    induction path with
    | single edge => exact filed.upstream ranked ready parentMem edge
    | tail _ edge ih =>
        obtain ⟨middle, middleMem, rfl, shallower⟩ := ih
        obtain ⟨earlier, earlierMem, rfl, shallow⟩ := filed.upstream ranked ready middleMem edge
        exact ⟨earlier, earlierMem, rfl, by omega⟩
  intro path
  obtain ⟨earlier, earlierMem, same, shallower⟩ := above path
  have sameNode := filed.injective _ (mem_nodesOf.mpr ⟨child, childMem, rfl⟩) _
    (mem_nodesOf.mpr ⟨earlier, earlierMem, rfl⟩) same
  obtain rfl := ranked.unique childMem earlierMem sameNode
  omega

theorem mirrored_linked {child parent : TaskId} (linked : LinkedTo child parent database after)
    {id : TaskId} {record : TaskRecord} (found : database.record id = some record)
    (mirror : MirrorOf target database number record) :
    ∃ later, after.record id = some later ∧ MirrorOf target after number later := by
  have kept := linked.standing id
  change (after.record id).map TaskRecord.standing = (database.record id).map _ at kept
  rw [found] at kept
  obtain ⟨later, laterFound, same⟩ := Option.map_eq_some_iff.mp kept
  have hash : later.row.hash = record.row.hash := congrArg Standing.hash same
  have recordId : record.row.id = id := Database.record_id found
  have laterId : later.row.id = id := Database.record_id laterFound
  refine ⟨later, laterFound, ?_, ?_, ?_⟩
  · rw [same, hash]
    exact mirror.standing
  · refine hashFree_iff.mpr ?_
    rw [hash, laterId]
    refine (hashFree_iff.mp mirror.hashFree).imp_right fun alone other stored otherFound equal => ?_
    obtain ⟨old, oldFound, oldStanding⟩ := linked.standing.find otherFound
    have oldHash : old.row.hash = record.row.hash :=
      (congrArg Standing.hash oldStanding).trans equal
    exact (alone other old oldFound oldHash).trans recordId
  · have distinct := linked.distinct id
    rw [Database.relationsOf, Database.relationsOf, found, laterFound] at distinct
    exact distinct mirror.distinct

theorem Filed.linked {later : List (Visit String)} {child parent : String}
    (filed : Filed target issues start ids met database)
    (childMem : child ∈ nodesOf met) (parentMem : parent ∈ nodesOf met)
    (linked : LinkedTo (ids child) (ids parent) database after)
    (nodes : nodesOf later = nodesOf met)
    (links : ∀ number relation, Linked ids later number relation ↔ Linked ids met number relation ∨
      (number = child ∧ relation = ⟨.childOf, ids parent⟩) ∨
      (number = parent ∧ relation = ⟨.parentOf, ids child⟩)) :
    Filed target issues start ids later after := by
  constructor
  · exact filed.config.trans linked.config
  · exact nodes ▸ filed.within
  · exact nodes ▸ filed.injective
  · exact nodes ▸ filed.fresh
  · intro id elsewhere
    rw [nodes] at elsewhere
    rw [linked.others id (elsewhere child childMem).symm (elsewhere parent parentMem).symm]
    exact filed.kept id elsewhere
  · intro number member
    rw [nodes] at member
    obtain ⟨record, found, mirror⟩ := filed.mirrored number member
    exact mirrored_linked linked found mirror
  · intro number member relation
    rw [nodes] at member
    rw [linked.edges, filed.edges number member relation, links]
    have sameChild : ids number = ids child ↔ number = child :=
      ⟨filed.injective number member child childMem, congrArg ids⟩
    have sameParent : ids number = ids parent ↔ number = parent :=
      ⟨filed.injective number member parent parentMem, congrArg ids⟩
    rw [sameChild, sameParent]

end SyncImport

end RepoLink
