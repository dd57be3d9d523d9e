import RepoLink.Library.Acyclic
import RepoLink.Library.Walk
import RepoLink.Store.Edges
import RepoLink.TaskService.EdgeCalls

/-!
The cycle guard of `add_relation`: the walk upstream finds exactly the nodes that can be reached
over the stored edges, read from both of their ends.
-/

namespace RepoLink

open Effects Program KeyedTable Relation Cycles Walks

/-- The edge `(downstream, upstream)` of the family that a relation of `subject` stands for. -/
def TaskRelation.edge (forward : RelationKind) (subject : TaskId) (relation : TaskRelation) :
    Option (TaskId × TaskId) :=
  if relation.kind = forward then some (subject, relation.other)
  else if relation.kind = forward.inverse then some (relation.other, subject)
  else none

namespace Database

def Upstream (database : Database) (forward : RelationKind) (source target : TaskId) : Prop :=
  ∃ subject, ∃ relation ∈ database.relationsOf subject,
    relation.edge forward subject = some (source, target)

def families : List RelationKind := [.blockedBy, .childOf]

def AcyclicFamilies (database : Database) : Prop :=
  ∀ forward ∈ families, Acyclic (database.Upstream forward)

end Database

namespace TaskService

variable {edges : List (TaskId × TaskId)} {target : TaskId}

abbrev edgeRel (edges : List (TaskId × TaskId)) : TaskId → TaskId → Prop :=
  fun source target => (source, target) ∈ edges

def parentsOf (edges : List (TaskId × TaskId)) (node : TaskId) : List TaskId :=
  (edges.filter fun edge => edge.1 = node).map Prod.snd

/-- The loop of the guard, which may run out of fuel: a node is a hit if the target is one step
upstream of it. -/
def upstreamWalk (edges : List (TaskId × TaskId)) (target : TaskId) (fuel : Nat)
    (stack visited : List TaskId) : Option Bool :=
  walk (parentsOf edges) (fun node => decide (target ∈ parentsOf edges node)) fuel stack visited

theorem mem_parentsOf {node next : TaskId} : next ∈ parentsOf edges node ↔ (node, next) ∈ edges := by
  simp [parentsOf]

def unvisited (edges : List (TaskId × TaskId)) (visited : List TaskId) : List (TaskId × TaskId) :=
  edges.filter fun edge => edge.1 ∉ visited

theorem unvisited_spends : Spends (parentsOf edges) fun visited => (unvisited edges visited).length := by
  intro node visited fresh
  refine Nat.le_of_eq ?_
  unfold unvisited parentsOf
  induction edges with
  | nil => rfl
  | cons edge rest ih =>
      by_cases same : edge.1 = node
      · simp [same, fresh] at ih ⊢
        omega
      · by_cases seen : edge.1 ∈ visited
        · simpa [same, seen] using ih
        · simp [same, seen] at ih ⊢
          omega

theorem reaches_walk : ∀ (fuel : Nat) (stack visited : List TaskId),
    reaches edges target fuel stack visited =
      (upstreamWalk edges target fuel stack visited).getD false := by
  intro fuel
  induction fuel with
  | zero => exact fun _ _ => rfl
  | succ fuel ih =>
      intro stack visited
      cases stack with
      | nil => rfl
      | cons node stack =>
          rw [reaches, upstreamWalk, walk]
          split
          · exact ih stack visited
          · change (if target ∈ parentsOf edges node then _ else _) = _
            by_cases found : target ∈ parentsOf edges node
            · rw [if_pos found, if_pos (decide_eq_true found)]
              rfl
            · rw [if_neg found, if_neg (by simpa using found)]
              exact ih _ _

theorem hitBehind_upstream {upstream : TaskId} :
    HitBehind (parentsOf edges) (fun node => decide (target ∈ parentsOf edges node)) [upstream] ↔
      TransGen (edgeRel edges) upstream target := by
  have steps : Leads (parentsOf edges) = edgeRel edges :=
    funext fun _ => funext fun _ => propext mem_parentsOf
  rw [TransGen.tail'_iff, HitBehind, steps]
  constructor
  · rintro ⟨node, member, last, path, found⟩
    rw [← List.mem_singleton.mp member]
    exact ⟨last, path, mem_parentsOf.mp (of_decide_eq_true found)⟩
  · rintro ⟨last, path, edge⟩
    exact ⟨upstream, List.mem_singleton_self _, last, path,
      decide_eq_true (mem_parentsOf.mpr edge)⟩

theorem upstreamWalk_ends (edges : List (TaskId × TaskId)) (downstream upstream : TaskId)
    {fuel : Nat} (enough : edges.length + 2 ≤ fuel) :
    ∃ found, upstreamWalk edges downstream fuel [upstream] [] = some found ∧
      (found = true ↔ TransGen (edgeRel edges) upstream downstream) := by
  rw [← hitBehind_upstream]
  refine walk_spec unvisited_spends fuel [upstream] [] ?_ .start
  have shorter : (unvisited edges []).length ≤ edges.length := List.length_filter_le ..
  rw [List.length_singleton]
  omega

theorem reaches_upstream (edges : List (TaskId × TaskId)) (downstream upstream : TaskId) :
    reaches edges downstream (edges.length + 2) [upstream] [] = true ↔
      TransGen (edgeRel edges) upstream downstream := by
  obtain ⟨found, ended, exactly⟩ := upstreamWalk_ends edges downstream upstream (Nat.le_refl _)
  rw [reaches_walk, ended]
  exact exactly

def guardsAll : List (TaskId × TaskId) → List (TaskId × TaskId) → Bool
  | _, [] => true
  | edges, (downstream, upstream) :: rest =>
    decide (downstream ≠ upstream) &&
      !reaches edges downstream (edges.length + 2) [upstream] [] &&
      guardsAll ((downstream, upstream) :: edges) rest

theorem guardsAll_iff {added : List (TaskId × TaskId)} :
    guardsAll edges added = true ↔ Addable (edgeRel edges) added := by
  induction added generalizing edges with
  | nil => exact iff_of_true rfl trivial
  | cons edge rest ih =>
      obtain ⟨downstream, upstream⟩ := edge
      have inserted : edgeRel ((downstream, upstream) :: edges) =
          Insert (edgeRel edges) (downstream, upstream) := by
        funext source target
        exact propext (List.mem_cons.trans or_comm)
      rw [guardsAll, Addable, Bool.and_eq_true, Bool.and_eq_true, ih, inserted, decide_eq_true_eq,
        Bool.not_eq_true', Bool.eq_false_iff, Ne, Ne, reaches_upstream,
        reflTransGen_iff_eq_or_transGen, not_or]

theorem mem_listed {database : Database} {subject : TaskId} {relation : TaskRelation} :
    (∃ task ∈ database.listTasks {}, task.id = subject ∧ relation ∈ task.relations) ↔
      relation ∈ database.relationsOf subject := by
  have loads : ∀ record : TaskRecord, relation ∈ record.loadListed.relations ↔
      relation ∈ record.relations := by
    intro record
    exact List.mem_insertionSort ..
  constructor
  · rintro ⟨task, member, rfl, related⟩
    obtain ⟨record, inRows, _, rfl⟩ := (Database.mem_listTasks rfl rfl).mp member
    have found : database.record record.id = some record := Table.find_of_mem inRows
    have same : record.loadListed.id = record.id := rfl
    rw [same, Database.relationsOf, found]
    exact (loads record).mp related
  · intro related
    unfold Database.relationsOf at related
    cases found : database.record subject with
    | none =>
        rw [found] at related
        exact (List.not_mem_nil related).elim
    | some record =>
        rw [found] at related
        exact ⟨record.loadListed,
          (Database.mem_listTasks rfl rfl).mpr ⟨record, Table.find_mem found, rfl, rfl⟩,
          Database.record_id found, (loads record).mpr related⟩

theorem mem_upstreamEdges {database : Database} {forward : RelationKind}
    {source target : TaskId} :
    (source, target) ∈ upstreamEdges forward forward.inverse (database.listTasks {}) ↔
      database.Upstream forward source target := by
  have edges : ∀ (task : Task) (relation : TaskRelation),
      (if relation.kind = forward then some (task.id, relation.other)
        else if relation.kind = forward.inverse then some (relation.other, task.id)
        else none) = relation.edge forward task.id := fun _ _ => rfl
  simp only [upstreamEdges, List.mem_flatMap, List.mem_filterMap, edges, Database.Upstream,
    ← mem_listed]
  constructor
  · rintro ⟨task, listed, relation, related, edge⟩
    exact ⟨task.id, relation, ⟨task, listed, rfl, related⟩, edge⟩
  · rintro ⟨_, relation, ⟨task, listed, rfl, related⟩, edge⟩
    exact ⟨task, listed, relation, related, edge⟩

theorem edge_reverse {forward : RelationKind} (directed : forward ∈ Database.families)
    (subject : TaskId) (relation : TaskRelation) :
    (relation.reverse subject).edge forward relation.other = relation.edge forward subject := by
  obtain ⟨kind, other⟩ := relation
  rcases List.mem_pair.mp directed with rfl | rfl <;> cases kind <;> rfl

theorem cycleAxis_edge {forward : RelationKind} (directed : forward ∈ Database.families)
    {kind : RelationKind} {subject other downstream upstream : TaskId}
    (isEdge : TaskRelation.edge forward subject ⟨kind, other⟩ = some (downstream, upstream)) :
    cycleAxis kind subject other = some (forward, forward.inverse, downstream, upstream) := by
  rcases List.mem_pair.mp directed with rfl | rfl <;> cases kind <;> cases isEdge <;> rfl

theorem runs_closesCycle {kind : RelationKind} {subject other : TaskId} {forward : RelationKind}
    {downstream upstream : TaskId} {before after : Database} {cyclic : Bool}
    (axis : cycleAxis kind subject other = some (forward, forward.inverse, downstream, upstream))
    (ran : (closesCycle kind subject other).Runs portMeaning before (.ok cyclic) after) :
    cyclic = true ↔ TransGen (before.Upstream forward) upstream downstream := by
  unfold closesCycle at ran
  rw [axis] at ran
  obtain ⟨tasks, listed, ran⟩ := runs_quiet_bind (query_quiet (.listTasks {}) rfl) ran
  obtain ⟨instant, performed⟩ := runs_query listed
  have tasksEq : before.listTasks {} = tasks := Except.ok.inj (congrArg Prod.fst performed)
  subst tasksEq
  cases ran.1
  have same : edgeRel (upstreamEdges forward forward.inverse (before.listTasks {})) =
      before.Upstream forward := funext fun _ => funext fun _ => propext mem_upstreamEdges
  rw [reaches_upstream, same]

theorem relationsOf_within {before after : Database} {instant : Timestamp}
    {writes : List TaskWrite} {entries : List OutboxEntry} {extra : TaskId → TaskRelation → Prop}
    (rows : ∀ write ∈ writes, ∀ relation ∈ write.task.relations,
      relation ∈ before.relationsOf write.task.id ∨ extra write.task.id relation)
    (saved : before.saveAll instant writes entries = .ok after) {id : TaskId}
    {relation : TaskRelation} (member : relation ∈ after.relationsOf id) :
    relation ∈ before.relationsOf id ∨ extra id relation := by
  rcases Database.relationsOf_saved saved id with ⟨write, inWrites, rfl, stored⟩ | ⟨_, stored⟩
  · exact rows write inWrites relation (stored ▸ member)
  · exact .inl (stored ▸ member)

theorem acyclic_dropped {before after : Database} {instant : Timestamp}
    {writes : List TaskWrite} {entries : List OutboxEntry} (acyclic : before.AcyclicFamilies)
    (rows : ∀ write ∈ writes, ∀ relation ∈ write.task.relations,
      relation ∈ before.relationsOf write.task.id)
    (saved : before.saveAll instant writes entries = .ok after) : after.AcyclicFamilies := by
  intro forward directed
  refine (acyclic forward directed).mono ?_
  rintro source target ⟨subject, relation, member, edge⟩
  have kept := @relationsOf_within before after instant writes entries (fun _ _ => False)
    (fun write inWrites relation related => .inl (rows write inWrites relation related)) saved
    subject relation member
  exact ⟨subject, relation, kept.resolve_right id, edge⟩

/-- `add_relation` keeps the families acyclic. -/
theorem addRelation_acyclic {taskId : TaskId} {kind : RelationKind} {otherId : TaskId}
    {before after : Database} {result : Except ServiceError Task}
    (acyclic : before.AcyclicFamilies)
    (ran : (addRelation taskId kind otherId).Runs portMeaning before result after) :
    after.AcyclicFamilies := by
  have untouched : after = before → after.AcyclicFamilies := fun same => same ▸ acyclic
  rcases runs_quiet_first (getTask_quiet taskId) ran with ⟨(task : Task), ranTask, ran⟩ | same
  swap
  · exact untouched same
  rcases runs_quiet_first (getTask_quiet otherId) ran with ⟨(other : Task), ranOther, ran⟩ | same
  swap
  · exact untouched same
  split at ran
  · exact untouched ran.2
  rename_i different
  rcases runs_quiet_first (closesCycle_quiet ..) ran with ⟨cyclic, ranGuard, ran⟩ | same
  swap
  · exact untouched same
  split at ran
  · exact untouched ran.2
  rename_i unclosed
  rcases runs_quiet_first (every_clock trivial) ran with ⟨now, _, ran⟩ | same
  swap
  · exact untouched same
  rcases runs_quiet_first (planRelationWhen_quiet ..) ran with ⟨entries, _, ran⟩ | same
  swap
  · exact untouched same
  have ends : ∀ _ : Unit, (done (task.addRelation now kind other.id) : Action Task).Every
      PortOp.quiet := fun _ => trivial
  rcases runs_saveAll_first ends ran with ⟨instant, saved⟩ | same
  swap
  · exact untouched same
  have taskStored := runs_getTask ranTask
  have otherStored := runs_getTask ranOther
  have idTask := Database.stored_id taskStored
  have idOther := Database.stored_id otherStored
  intro forward directed
  -- whatever the batch adds stands for the one new edge
  have grown : ∀ source target, after.Upstream forward source target →
      before.Upstream forward source target ∨
        TaskRelation.edge forward task.id ⟨kind, other.id⟩ = some (source, target) := by
    rintro source target ⟨subject, relation, member, edge⟩
    have within := @relationsOf_within before after instant _ entries
      (fun id relation => relation.edge forward id =
        TaskRelation.edge forward task.id ⟨kind, other.id⟩) ?_ saved subject relation member
    · rcases within with old | new
      · exact .inl ⟨subject, relation, old, edge⟩
      · exact .inr (new.symm.trans edge)
    · intro write inWrites relation related
      rcases List.mem_pair.mp inWrites with rfl | rfl
      · simp only [Task.addRelation_id]
        rcases Task.mem_addRelation.mp related with old | rfl
        · refine .inl ((Database.mem_relationsOf_stored ?_ relation).mpr old)
          rw [idTask, taskStored]
        · exact .inr rfl
      · simp only [Task.addRelation_id]
        rcases Task.mem_addRelation.mp related with old | rfl
        · refine .inl ((Database.mem_relationsOf_stored ?_ relation).mpr old)
          rw [idOther, otherStored]
        · exact .inr (edge_reverse directed task.id ⟨kind, other.id⟩)
  cases edge : TaskRelation.edge forward task.id ⟨kind, other.id⟩ with
  | none =>
      refine (acyclic forward directed).mono fun source target held => ?_
      exact (grown source target held).resolve_right fun new => by rw [edge] at new; cases new
  | some ends =>
      obtain ⟨downstream, upstream⟩ := ends
      have axis := cycleAxis_edge directed edge
      have opens : ¬ReflTransGen (before.Upstream forward) upstream downstream := by
        intro closes
        rcases reflTransGen_iff_eq_or_transGen.mp closes with same | path
        · refine different ?_
          unfold TaskRelation.edge at edge
          split at edge
          · cases Option.some.inj edge
            exact same.symm
          · split at edge
            · cases Option.some.inj edge
              exact same
            · cases edge
        · exact unclosed ((runs_closesCycle axis ranGuard).mpr path)
      refine ((acyclic_insert_iff (acyclic forward directed) (downstream, upstream)).mpr
        opens).mono fun source target held => ?_
      exact (grown source target held).imp_right fun new =>
        Option.some.inj (new.symm.trans edge)

theorem removeRelation_acyclic {taskId : TaskId} {kind : RelationKind} {otherId : TaskId}
    {before after : Database} {result : Except ServiceError Task}
    (acyclic : before.AcyclicFamilies)
    (ran : (removeRelation taskId kind otherId).Runs portMeaning before result after) :
    after.AcyclicFamilies := by
  have untouched : after = before → after.AcyclicFamilies := fun same => same ▸ acyclic
  rcases runs_quiet_first (getTask_quiet taskId) ran with ⟨(task : Task), ranTask, ran⟩ | same
  swap
  · exact untouched same
  rcases runs_quiet_first (getTask_quiet otherId) ran with ⟨(other : Task), ranOther, ran⟩ | same
  swap
  · exact untouched same
  split at ran
  · exact untouched ran.2
  rcases runs_quiet_first (every_clock trivial) ran with ⟨now, _, ran⟩ | same
  swap
  · exact untouched same
  have stays : ∀ (copy : Task) (id : TaskId), before.stored id = some copy →
      ∀ (kind : RelationKind) (far : TaskId),
      ∀ relation ∈ (copy.removeRelation now kind far).2.relations,
        relation ∈ before.relationsOf (copy.removeRelation now kind far).2.id := by
    intro copy id stored kind far relation related
    rw [Task.removeRelation_id, Database.stored_id stored,
      Database.mem_relationsOf_stored stored]
    exact (Task.mem_removeRelation.mp related).1
  have near := stays task taskId (runs_getTask ranTask) kind other.id
  have reciprocal := stays other otherId (runs_getTask ranOther) kind.inverse task.id
  generalize task.removeRelation now kind other.id = stripped at ran near
  generalize other.removeRelation now kind.inverse task.id = strippedFar at ran reciprocal
  have rows : ∀ write ∈ (if stripped.1 then [TaskWrite.mk (some task) stripped.2 .localEdit] else []) ++
      (if strippedFar.1 then [TaskWrite.mk (some other) strippedFar.2 .localEdit] else []),
      ∀ relation ∈ write.task.relations, relation ∈ before.relationsOf write.task.id := by
    intro write inWrites
    rcases List.mem_append.mp inWrites with first | second
    · rw [List.mem_singleton.mp (List.mem_ite_nil_right.mp first).2]
      exact near
    · rw [List.mem_singleton.mp (List.mem_ite_nil_right.mp second).2]
      exact reciprocal
  rcases runs_quiet_first (planRelationWhen_quiet ..) ran with ⟨entries, _, ran⟩ | same
  swap
  · exact untouched same
  dsimp only at ran
  generalize (if stripped.1 = true then [TaskWrite.mk (some task) stripped.2 .localEdit] else []) ++
    (if strippedFar.1 = true then [TaskWrite.mk (some other) strippedFar.2 .localEdit] else []) =
      batch at ran rows
  split at ran
  · exact untouched ran.2
  · have ends : ∀ _ : Unit, (done stripped.2 : Action Task).Every PortOp.quiet := fun _ => trivial
    rcases runs_saveAll_first ends ran with ⟨instant, saved⟩ | same
    swap
    · exact untouched same
    exact acyclic_dropped acyclic rows saved

theorem loadFarEnds_quiet_writes (now : Timestamp) (taskId : TaskId) (removed : List TaskRelation)
    {before : Database} : ∀ {others : List TaskId} {after : Database}
      {loaded : List (TaskId × Option IssueCoords) × List TaskWrite},
      (loadFarEnds now taskId removed others).Runs portMeaning before (.ok loaded) after →
      ∀ write ∈ loaded.2, ∀ relation ∈ write.task.relations,
        relation ∈ before.relationsOf write.task.id := by
  intro others
  induction others with
  | nil =>
      intro after loaded ran
      cases ran.1
      exact fun _ member => (List.not_mem_nil member).elim
  | cons otherId rest ih =>
      intro after loaded ran
      obtain ⟨(other : Task), ranOther, ran⟩ := runs_quiet_bind (getTask_quiet otherId) ran
      obtain ⟨coords, _, ran⟩ := runs_quiet_bind (cachedRelationCoords_quiet _) ran
      obtain ⟨⟨coordsRest, writesRest⟩, ranRest, ran⟩ :=
        runs_quiet_bind (loadFarEnds_quiet now taskId removed rest) ran
      cases ran.1
      intro write member relation related
      rcases List.mem_append.mp member with first | later
      · rw [List.mem_singleton.mp (List.mem_ite_nil_right.mp first).2] at related ⊢
        have stored := runs_getTask ranOther
        have kept := ((stripReciprocals_spec now taskId removed other).1 relation).mp related
        change relation ∈ before.relationsOf (stripReciprocals now taskId removed other).2.id
        rw [(stripReciprocals_edited now taskId removed other).id, Database.stored_id stored,
          Database.mem_relationsOf_stored stored]
        exact kept.1
      · exact ih ranRest write later relation related

theorem clearRelations_acyclic {taskId : TaskId} {before after : Database}
    {result : Except ServiceError Task} (acyclic : before.AcyclicFamilies)
    (ran : (clearRelations taskId).Runs portMeaning before result after) :
    after.AcyclicFamilies := by
  have untouched : after = before → after.AcyclicFamilies := fun same => same ▸ acyclic
  rcases runs_quiet_first (getTask_quiet taskId) ran with ⟨(task : Task), ranTask, ran⟩ | same
  swap
  · exact untouched same
  rcases runs_quiet_first (every_clock trivial) ran with ⟨now, _, ran⟩ | same
  swap
  · exact untouched same
  have emptied : (task.clearRelations now).2.relations = [] := by
    unfold Task.clearRelations
    split
    · rename_i empty
      exact List.isEmpty_iff.mp empty
    · rfl
  generalize task.clearRelations now = cleared at ran emptied
  obtain ⟨removed, cleared⟩ := cleared
  dsimp only at ran emptied
  split at ran
  · exact untouched ran.2
  rcases runs_quiet_first (loadFarEnds_quiet ..) ran with ⟨⟨coordsByOther, writes⟩, ranFar, ran⟩ | same
  swap
  · exact untouched same
  rcases runs_quiet_first (cachedRelationCoords_quiet _) ran with ⟨coords, _, ran⟩ | same
  swap
  · exact untouched same
  dsimp only at ran
  rcases runs_quiet_first (intoEntries_quiet ..) ran with ⟨entries, _, ran⟩ | same
  swap
  · exact untouched same
  have ends : ∀ _ : Unit, (done cleared : Action Task).Every PortOp.quiet := fun _ => trivial
  rcases runs_saveAll_first ends ran with ⟨instant, saved⟩ | same
  swap
  · exact untouched same
  refine acyclic_dropped acyclic (fun write inWrites relation related => ?_) saved
  rcases List.mem_cons.mp inWrites with rfl | inWrites
  · rw [emptied] at related
    exact (List.not_mem_nil related).elim
  · exact loadFarEnds_quiet_writes now task.id removed ranFar write inWrites relation related

end TaskService

end RepoLink
