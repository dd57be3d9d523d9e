import RepoLink.Query.BranchRank

/-!
The ready tree loses and duplicates nothing that can be rooted, and stands in its order. What runs
into a cycle of parents has no root to hang under, and the forest leaves it out.
-/

namespace RepoLink

open KeyedTable Groves

namespace QueryService

variable {wsTasks : List Task} {byId : TaskMap} {readyIds : List TaskId} {ctx : ReadyTreeCtx}
  {id : TaskId}

def IsNode (forest : List ReadyNode) (node : ReadyNode) : Prop :=
  ∃ tree ∈ forest, node.Within tree

def idsOf (forest : List ReadyNode) : List TaskId :=
  (Rose.labelsOfAll forest).map ReadyRow.taskId

def bestReady (node : ReadyNode) : Option Nat :=
  ((node.labels.filterMap ReadyRow.priority).map Priority.rank).min?

def StandsBefore (left right : ReadyNode) : Prop :=
  ∃ best other, bestReady left = some best ∧ bestReady right = some other ∧
    (best < other ∨ best = other ∧ left.label.title ≤ right.label.title)

/-- What the ready tree promises of the tasks that can be rooted. -/
structure FaithfulForest (kin : Kinship) (readyIds : List TaskId) (forest : List ReadyNode) :
    Prop where
  once : ∀ id ∈ readyIds, Ends kin.parentOf id → (idsOf forest).count id = 1
  unrooted : ∀ id ∈ readyIds, ¬Ends kin.parentOf id → id ∉ idsOf forest
  flags : ∀ node, IsNode forest node →
    (node.label.ready = true ↔ node.label.taskId ∈ readyIds)
  headings : ∀ node, IsNode forest node → node.label.ready = false →
    ∃ row ∈ Rose.labelsOfAll node.branches, row.ready = true
  hangs : ∀ node above, IsNode forest node → kin.parentOf node.label.taskId = some above →
    ∃ upper, IsNode forest upper ∧ upper.label.taskId = above ∧ node ∈ upper.branches
  roots : forest.Pairwise StandsBefore
  siblings : ∀ node, IsNode forest node → node.branches.Pairwise StandsBefore

section Order

theorem branchBefore_iff {left right : TaskId} :
    ctx.branchBefore left right = true ↔ ctx.rankOf left < ctx.rankOf right ∨
      ctx.rankOf left = ctx.rankOf right ∧ ctx.titleOf left ≤ ctx.titleOf right := by
  unfold ReadyTreeCtx.branchBefore
  rw [Bool.or_eq_true, Bool.and_eq_true, decide_eq_true_iff, decide_eq_true_iff,
    decide_eq_true_iff]

theorem sorted_branchBefore (ctx : ReadyTreeCtx) (items : List TaskId) :
    (items.insertionSort (ctx.branchBefore · ·)).Pairwise (ctx.branchBefore · ·) := by
  have total : Std.Total fun left right : TaskId => ctx.branchBefore left right = true := by
    refine ⟨fun left right => ?_⟩
    rw [branchBefore_iff, branchBefore_iff]
    rcases Nat.lt_trichotomy (ctx.rankOf left) (ctx.rankOf right) with less | same | more
    · exact .inl (.inl less)
    · exact (le_total (ctx.titleOf left) (ctx.titleOf right)).imp (fun le => .inr ⟨same, le⟩)
        fun le => .inr ⟨same.symm, le⟩
    · exact .inr (.inl more)
  have transitive : IsTrans TaskId fun left right => ctx.branchBefore left right = true := by
    refine ⟨fun left middle right first second => ?_⟩
    rw [branchBefore_iff] at first second ⊢
    rcases first with less | ⟨same, le⟩
    · exact .inl (by omega)
    · rcases second with less | ⟨sameRight, leRight⟩
      · exact .inl (by omega)
      · exact .inr ⟨same.trans sameRight, le.trans leRight⟩
  exact List.pairwise_insertionSort _ _

end Order

section Rows

theorem row_some {row : ReadyRow} (made : ctx.row id = some row) :
    ∃ task, ctx.idOf.get? id = some task ∧ row.taskId = task.id ∧ row.title = task.title ∧
      row.ready = decide (id ∈ ctx.readyIds) ∧
      row.priority = if id ∈ ctx.readyIds then some task.priority else none := by
  unfold ReadyTreeCtx.row at made
  obtain ⟨task, found, rfl⟩ := Option.map_eq_some_iff.mp made
  exact ⟨task, found, rfl, rfl, rfl, rfl⟩

theorem row_priority {row : ReadyRow} (made : ctx.row id = some row) {priority : Priority} :
    row.priority = some priority ↔ ReadyAt ctx.readyIds ctx.idOf id priority := by
  obtain ⟨task, found, _, _, _, priorityEq⟩ := row_some made
  unfold ReadyAt
  rw [priorityEq, found]
  by_cases ready : id ∈ ctx.readyIds
  · rw [if_pos ready]
    exact ⟨fun same => ⟨ready, same⟩, And.right⟩
  · rw [if_neg ready]
    exact iff_of_false (fun same => by cases same) fun both => ready both.1

theorem row_ready {row : ReadyRow} (made : ctx.row id = some row) :
    row.ready = true ↔ id ∈ ctx.readyIds := by
  obtain ⟨_, _, _, _, readyEq, _⟩ := row_some made
  rw [readyEq, decide_eq_true_iff]

end Rows

def sortedKids (ctx : ReadyTreeCtx) (id : TaskId) : List TaskId := ctx.kids id []

structure Prepared (ctx : ReadyTreeCtx) : Prop where
  distinct : ctx.kept.Nodup
  ready : ctx.readyIds ⊆ ctx.kept
  above : ∀ id ∈ ctx.kept, ∃ first ∈ ctx.readyIds, Under ctx.kin.parentOf first id
  closed : ∀ id ∈ ctx.kept, ∀ above, ctx.kin.parentOf id = some above → above ∈ ctx.kept
  known : ∀ id ∈ ctx.kept, ∃ task, ctx.idOf.get? id = some task ∧ task.id = id
  inverse : ∀ child above, child ∈ ctx.kin.childrenOf above ↔ ctx.kin.parentOf child = some above
  kidsDistinct : ∀ above, (ctx.kin.childrenOf above).Nodup
  ranked : ∀ id ∈ ctx.kept, ∃ rank, ctx.rank.get? id = some rank ∧
    (Ends ctx.kin.parentOf id → BestUnder ctx.readyIds ctx.idOf ctx.kin id rank)

theorem compared_kept : (∀ id ∈ rootsOf ctx.kin ctx.kept, id ∈ ctx.kept) ∧
    ∀ id visiting, ∀ child ∈ ctx.kids id visiting, child ∈ ctx.kept := by
  refine ⟨fun id member => (List.mem_filter.mp member).1, fun id visiting child member => ?_⟩
  rw [ReadyTreeCtx.kids, List.mem_insertionSort, List.mem_filter, decide_eq_true_iff] at member
  exact member.2.1

namespace Prepared

variable (prepared : Prepared ctx)

include prepared

theorem planted : Planted ctx.kin.parentOf ctx.kept (sortedKids ctx) where
  closed := prepared.closed
  mem_kids := by
    intro node child
    rw [sortedKids, ReadyTreeCtx.kids, List.mem_insertionSort, List.mem_filter, prepared.inverse,
      decide_eq_true_iff]
    exact ⟨fun both => ⟨both.2.1, both.1⟩, fun both => ⟨both.2, both.1, List.not_mem_nil⟩⟩
  kids_nodup := by
    intro node
    rw [sortedKids, ReadyTreeCtx.kids, (List.perm_insertionSort _ _).nodup_iff]
    exact (prepared.kidsDistinct node).filter _

theorem chosen (node : TaskId) (visiting : List TaskId)
    (fresh : ∀ child ∈ sortedKids ctx node, child ∉ visiting) :
    ctx.kids node visiting = sortedKids ctx node := by
  unfold sortedKids ReadyTreeCtx.kids
  congr 1
  refine List.filter_congr fun child member => decide_eq_decide.mpr ?_
  refine and_congr_right fun kept => iff_of_true ?_ List.not_mem_nil
  exact fresh child ((prepared.planted.mem_kids node child).mpr
    ⟨kept, (prepared.inverse child node).mp member⟩)

theorem made (member : id ∈ ctx.kept) : ∃ row, ctx.row id = some row ∧ row.taskId = id := by
  obtain ⟨task, found, same⟩ := prepared.known id member
  unfold ReadyTreeCtx.row
  rw [found]
  exact ⟨_, rfl, same⟩

theorem lookups (member : id ∈ ctx.kept) :
    (∃ rank, ctx.rank.get? id = some rank ∧ ctx.rankOf id = rank.rank) ∧
      ∃ task, ctx.idOf.get? id = some task ∧ ctx.titleOf id = task.title := by
  obtain ⟨rank, ranked, _⟩ := prepared.ranked id member
  obtain ⟨task, found, _⟩ := prepared.known id member
  refine ⟨⟨rank, ranked, ?_⟩, task, found, ?_⟩
  · rw [ReadyTreeCtx.rankOf, ranked]
    rfl
  · rw [ReadyTreeCtx.titleOf, found]
    rfl

theorem bestReady_eq {node : ReadyNode}
    (grown : Grown (sortedKids ctx) ctx.row ReadyRow.taskId node)
    (kept : node.label.taskId ∈ ctx.kept) (ends : Ends ctx.kin.parentOf node.label.taskId) :
    bestReady node = some (ctx.rankOf node.label.taskId) := by
  obtain ⟨rank, found, bestOf⟩ := prepared.ranked _ kept
  have best := bestOf ends
  have holds : ∀ priority, priority ∈ node.labels.filterMap ReadyRow.priority ↔
      ∃ id, Under ctx.kin.parentOf id node.label.taskId ∧
        ReadyAt ctx.readyIds ctx.idOf id priority := by
    intro priority
    rw [List.mem_filterMap]
    constructor
    · rintro ⟨row, member, carries⟩
      have inside := (grown.mem_labels prepared.planted kept).mp (List.mem_map_of_mem member)
      exact ⟨row.taskId, inside.2, (row_priority (grown.made row member)).mp carries⟩
    · rintro ⟨id, under, ready⟩
      have inside := (grown.mem_labels prepared.planted kept).mpr
        ⟨prepared.ready ready.1, under⟩
      obtain ⟨row, member, rfl⟩ := List.mem_map.mp inside
      exact ⟨row, member, (row_priority (grown.made row member)).mpr ready⟩
  have attained : rank ∈ node.labels.filterMap ReadyRow.priority := by
    rw [holds]
    rcases best.attained with rfl | attained
    · obtain ⟨first, isReady, under⟩ := prepared.above _ kept
      obtain ⟨task, foundTask, _⟩ := prepared.known first (prepared.ready isReady)
      have ready : ReadyAt ctx.readyIds ctx.idOf first task.priority :=
        ⟨isReady, by rw [foundTask]; rfl⟩
      have least := best.least first task.priority under ready
      have worst : task.priority = .p3 :=
        Priority.rank_inj (Nat.le_antisymm task.priority.rank_le least)
      exact ⟨first, under, worst ▸ ready⟩
    · exact attained
  obtain ⟨⟨stored, sameRank, rankEq⟩, _⟩ := prepared.lookups kept
  cases found.symm.trans sameRank
  rw [bestReady, rankEq, List.min?_eq_some_iff]
  refine ⟨List.mem_map_of_mem attained, fun other member => ?_⟩
  obtain ⟨priority, inLabels, rfl⟩ := List.mem_map.mp member
  obtain ⟨id, under, ready⟩ := (holds priority).mp inLabels
  exact best.least id priority under ready

theorem standsBefore {trees : List ReadyNode} {items : List TaskId}
    (keys : trees.map (fun tree => tree.label.taskId) = items.insertionSort (ctx.branchBefore · ·))
    (grown : ∀ tree ∈ trees, Grown (sortedKids ctx) ctx.row ReadyRow.taskId tree ∧
      tree.label.taskId ∈ ctx.kept ∧ Ends ctx.kin.parentOf tree.label.taskId) :
    trees.Pairwise StandsBefore := by
  have sorted := sorted_branchBefore ctx items
  rw [← keys, List.pairwise_map] at sorted
  have title : ∀ tree ∈ trees, ctx.titleOf tree.label.taskId = tree.label.title := by
    intro tree member
    obtain ⟨task, found, _, titleEq, _⟩ :=
      row_some ((grown tree member).1.made _ tree.label_mem_labels)
    obtain ⟨_, other, sameTask, title⟩ := prepared.lookups (grown tree member).2.1
    cases found.symm.trans sameTask
    rw [title, titleEq]
  refine sorted.imp_of_mem fun {left right} inLeft inRight before => ?_
  obtain ⟨grownLeft, keptLeft, endsLeft⟩ := grown left inLeft
  obtain ⟨grownRight, keptRight, endsRight⟩ := grown right inRight
  refine ⟨_, _, prepared.bestReady_eq grownLeft keptLeft endsLeft,
    prepared.bestReady_eq grownRight keptRight endsRight, ?_⟩
  rw [← title left inLeft, ← title right inRight]
  exact branchBefore_iff.mp before

theorem mem_roots : id ∈ rootsOf ctx.kin ctx.kept ↔ id ∈ ctx.kept ∧ ctx.kin.parentOf id = none := by
  rw [rootsOf, List.mem_filter]
  refine and_congr_right fun member => ?_
  cases edge : ctx.kin.parentOf id with
  | none => exact iff_of_true rfl rfl
  | some above =>
      refine iff_of_false (fun outside => ?_) (Option.some_ne_none above)
      exact of_decide_eq_true outside (prepared.closed id member above edge)

theorem pendingRoots : Pending ctx.kin.parentOf ctx.kept
    ((rootsOf ctx.kin ctx.kept).insertionSort (ctx.branchBefore · ·)) [] := by
  have root : ∀ id ∈ (rootsOf ctx.kin ctx.kept).insertionSort (ctx.branchBefore · ·),
      id ∈ ctx.kept ∧ ctx.kin.parentOf id = none :=
    fun id member => prepared.mem_roots.mp ((List.mem_insertionSort _).mp member)
  refine ⟨fun id member => ⟨(root id member).1, .top (root id member).2⟩, ?_,
    fun _ _ _ visited => (List.not_mem_nil visited).elim⟩
  have distinct := (List.perm_insertionSort (ctx.branchBefore · ·) _).nodup_iff.mpr
    (prepared.distinct.filter fun id => (ctx.kin.parentOf id).all fun p => p ∉ ctx.kept)
  refine distinct.imp_of_mem fun {left right} inLeft inRight different => ?_
  exact apart_of_tops (root left inLeft).2 (root right inRight).2 different

end Prepared

structure GrownForest (ctx : ReadyTreeCtx) (forest : List ReadyNode) : Prop where
  keys : forest.map (fun tree => tree.label.taskId) =
    (rootsOf ctx.kin ctx.kept).insertionSort (ctx.branchBefore · ·)
  grown : ∀ tree ∈ forest, Grown (sortedKids ctx) ctx.row ReadyRow.taskId tree

namespace GrownForest

variable {forest : List ReadyNode} (planted : GrownForest ctx forest) (prepared : Prepared ctx)

include planted prepared

theorem root {tree : ReadyNode} (member : tree ∈ forest) :
    tree.label.taskId ∈ ctx.kept ∧ ctx.kin.parentOf tree.label.taskId = none := by
  rw [← prepared.mem_roots, ← List.mem_insertionSort (ctx.branchBefore · ·), ← planted.keys]
  exact List.mem_map_of_mem member

theorem mem_labels {tree : ReadyNode} (member : tree ∈ forest) :
    id ∈ tree.labels.map ReadyRow.taskId ↔
      id ∈ ctx.kept ∧ Under ctx.kin.parentOf id tree.label.taskId :=
  (planted.grown tree member).mem_labels prepared.planted (planted.root prepared member).1

theorem node {node : ReadyNode} (isNode : IsNode forest node) :
    Grown (sortedKids ctx) ctx.row ReadyRow.taskId node ∧ node.label.taskId ∈ ctx.kept ∧
      Ends ctx.kin.parentOf node.label.taskId := by
  obtain ⟨tree, member, inside⟩ := isNode
  have kept := (planted.mem_labels prepared member).mp
    (List.mem_map_of_mem (inside.labels_subset node.label_mem_labels))
  exact ⟨(planted.grown tree member).within inside, kept.1,
    (Ends.top (planted.root prepared member).2).under kept.2⟩

theorem distinct : (idsOf forest).Nodup := by
  refine nodup_of_apart prepared.planted planted.grown (fun tree member => ?_) ?_
  · obtain ⟨kept, top⟩ := planted.root prepared member
    exact ⟨kept, (planted.grown tree member).nodup prepared.planted kept (.top top)⟩
  · have apart := prepared.pendingRoots.apart
    rw [← planted.keys, List.pairwise_map] at apart
    exact apart

theorem mem_idsOf : id ∈ idsOf forest ↔ id ∈ ctx.kept ∧ Ends ctx.kin.parentOf id := by
  rw [idsOf, Rose.labelsOfAll_eq, List.map_flatMap, List.mem_flatMap]
  constructor
  · rintro ⟨tree, member, inTree⟩
    obtain ⟨kept, under⟩ := (planted.mem_labels prepared member).mp inTree
    exact ⟨kept, (Ends.top (planted.root prepared member).2).under under⟩
  · rintro ⟨kept, ends⟩
    obtain ⟨top, under, ended⟩ := ends.exists_top
    have isRoot : top ∈ forest.map fun tree => tree.label.taskId := by
      rw [planted.keys, List.mem_insertionSort]
      exact prepared.mem_roots.mpr ⟨prepared.planted.kept_of_under kept under, ended⟩
    obtain ⟨tree, member, rfl⟩ := List.mem_map.mp isRoot
    exact ⟨tree, member, (planted.mem_labels prepared member).mpr ⟨kept, under⟩⟩

theorem heading {node : ReadyNode} (isNode : IsNode forest node)
    (heading : node.label.ready = false) :
    ∃ row ∈ Rose.labelsOfAll node.branches, row.ready = true := by
  obtain ⟨grown, kept, _⟩ := planted.node prepared isNode
  have notReady : node.label.taskId ∉ ctx.readyIds := by
    rw [← row_ready (grown.made _ node.label_mem_labels), heading]
    exact Bool.false_ne_true
  obtain ⟨first, isReady, under⟩ := prepared.above _ kept
  obtain ⟨row, member, rfl⟩ := List.mem_map.mp
    ((grown.mem_labels prepared.planted kept).mpr ⟨prepared.ready isReady, under⟩)
  refine ⟨row, ?_, (row_ready (grown.made row member)).mpr isReady⟩
  rw [node.labels_eq] at member
  rcases List.mem_cons.mp member with rfl | below
  · exact (notReady isReady).elim
  · exact below

theorem shows_iff : (∃ row ∈ Rose.labelsOfAll forest, row.taskId = id ∧ row.ready = true) ↔
    id ∈ ctx.readyIds ∧ Ends ctx.kin.parentOf id := by
  have made : ∀ row ∈ Rose.labelsOfAll forest, ctx.row row.taskId = some row := by
    intro row member
    obtain ⟨tree, inForest, inTree⟩ := Rose.mem_labelsOfAll.mp member
    exact (planted.grown tree inForest).made row inTree
  constructor
  · rintro ⟨row, member, rfl, isReady⟩
    have holds := (planted.mem_idsOf prepared).mp (List.mem_map_of_mem member)
    exact ⟨(row_ready (made row member)).mp isReady, holds.2⟩
  · rintro ⟨isReady, ends⟩
    have holds := (planted.mem_idsOf prepared).mpr ⟨prepared.ready isReady, ends⟩
    obtain ⟨row, member, rfl⟩ := List.mem_map.mp holds
    exact ⟨row, member, rfl, (row_ready (made row member)).mpr isReady⟩

theorem hangs {node : ReadyNode} {above : TaskId} (isNode : IsNode forest node)
    (edge : ctx.kin.parentOf node.label.taskId = some above) :
    ∃ upper, IsNode forest upper ∧ upper.label.taskId = above ∧ node ∈ upper.branches := by
  obtain ⟨tree, member, inside⟩ := isNode
  rcases (planted.grown tree member).hangs prepared.planted inside with
    rfl | ⟨upper, inTree, hung, isBranch⟩
  · rw [(planted.root prepared member).2] at edge
    cases edge
  · rw [edge] at hung
    exact ⟨upper, ⟨tree, member, inTree⟩, (Option.some.inj hung).symm, isBranch⟩

theorem faithful : FaithfulForest ctx.kin ctx.readyIds forest where
  once := fun _ ready ends => List.count_eq_one_of_mem (planted.distinct prepared)
    ((planted.mem_idsOf prepared).mpr ⟨prepared.ready ready, ends⟩)
  unrooted := fun _ _ runs member => runs ((planted.mem_idsOf prepared).mp member).2
  flags := fun node isNode =>
    row_ready ((planted.node prepared isNode).1.made _ node.label_mem_labels)
  headings := fun _ isNode => planted.heading prepared isNode
  hangs := fun _ _ isNode => planted.hangs prepared isNode
  roots := by
    refine prepared.standsBefore planted.keys fun tree member => ?_
    obtain ⟨kept, top⟩ := planted.root prepared member
    exact ⟨planted.grown tree member, kept, .top top⟩
  siblings := by
    intro node isNode
    refine prepared.standsBefore (planted.node prepared isNode).1.branches_eq fun tree member => ?_
    obtain ⟨whole, inForest, inside⟩ := isNode
    exact planted.node prepared ⟨whole, inForest, inside.branch member⟩

end GrownForest

section Passes

variable (distinct : (wsTasks.map Task.id).Nodup)

include distinct

theorem known_of_workspace (member : id ∈ wsTasks.map Task.id) :
    ∃ task, (mapOf wsTasks).get? id = some task ∧ task.id = id := by
  obtain ⟨task, inTasks, rfl⟩ := List.mem_map.mp member
  exact ⟨task, (get?_mapOf distinct).mpr ⟨inTasks, rfl⟩, rfl⟩

theorem ancestors_found (isSet : readyIds.Nodup) (within : readyIds ⊆ wsTasks.map Task.id) :
    ∃ members, keepAncestors (kinship wsTasks byId) (readyIds.length + wsTasks.length + 1)
        readyIds.reverse readyIds = some members ∧
      Climbing (kinship wsTasks byId) readyIds [] members ∧
      members ⊆ wsTasks.map Task.id := by
  have known : ∀ id above, (kinship wsTasks byId).parentOf id = some above →
      above ∈ wsTasks.map Task.id := fun _ _ edge => (parentOf_kinship_known distinct edge).2
  have enough : readyIds.reverse.length + unvisited (wsTasks.map Task.id) readyIds <
      readyIds.length + wsTasks.length + 1 := by
    have bound : unvisited (wsTasks.map Task.id) readyIds ≤ (wsTasks.map Task.id).length :=
      List.length_filter_le _ _
    rw [List.length_map] at bound
    rw [List.length_reverse]
    omega
  obtain ⟨members, ran, climbed⟩ := keepAncestors_ends known _ _ _ (Climbing.start isSet) enough
  refine ⟨members, ran, climbed, fun id member => ?_⟩
  obtain ⟨first, isReady, under⟩ := climbed.above id member
  rcases under.cases_child with rfl | ⟨child, edge, _⟩
  · exact within isReady
  · exact known child id edge

theorem passes_end (project : Option Project) (within : readyIds ⊆ wsTasks.map Task.id)
    {members kept : List TaskId} (climbed : Climbing (kinship wsTasks byId) readyIds [] members)
    (inWorkspace : members ⊆ wsTasks.map Task.id) (same : kept.Perm members) :
    ∃ ranked, thread (subtreePriority readyIds (mapOf wsTasks) (kinship wsTasks byId)
        (readyIds.length + wsTasks.length + 1)) kept Dict.empty = some ranked ∧
      Prepared ⟨mapOf wsTasks, readyIds, kinship wsTasks byId, kept, ranked.2, project⟩ := by
  have inverse : ∀ child above, child ∈ (kinship wsTasks byId).childrenOf above ↔
      (kinship wsTasks byId).parentOf child = some above :=
    fun _ _ => mem_childrenOf_kinship distinct
  have ready : ∀ id ∈ readyIds, ((mapOf wsTasks).get? id).isSome := by
    intro id isReady
    obtain ⟨task, found, _⟩ := known_of_workspace distinct (within isReady)
    exact Option.isSome_iff_exists.mpr ⟨task, found⟩
  have enough : (wsTasks.map Task.id).length < readyIds.length + wsTasks.length + 1 := by
    rw [List.length_map]
    omega
  obtain ⟨ranked, ran, ranking⟩ := rankKept_ends inverse
    (fun _ _ edge => (parentOf_kinship_known distinct edge).1) ready
    (fun id member => inWorkspace (same.mem_iff.mp member)) enough
  refine ⟨ranked, ran, same.nodup_iff.mpr climbed.distinct,
    fun id isReady => same.mem_iff.mpr (climbed.ready isReady),
    fun id member => climbed.above id (same.mem_iff.mp member), fun id member above edge => ?_,
    fun id member => known_of_workspace distinct (inWorkspace (same.mem_iff.mp member)), inverse,
    childrenOf_kinship_nodup distinct, fun id member => ?_⟩
  · rcases climbed.climbs id (same.mem_iff.mp member) with onStack | closed
    · exact (List.not_mem_nil onStack).elim
    · exact same.mem_iff.mpr (closed above edge)
  · have stored := (ranking.stored id member).resolve_left List.not_mem_nil
    obtain ⟨rank, found⟩ := Option.isSome_iff_exists.mp (Dict.mem_keys_iff.mp stored)
    exact ⟨rank, found, fun ends => ranking.right id ends rank found⟩

end Passes

theorem buildReadyTree_grows (order : HashOrder TaskId) (byId : TaskMap)
    (project : Option Project) (distinct : (wsTasks.map Task.id).Nodup) (isSet : readyIds.Nodup)
    (within : readyIds ⊆ wsTasks.map Task.id) :
    ∃ forest ctx, buildReadyTree order wsTasks byId readyIds project = some forest ∧
      ctx.kin = kinship wsTasks byId ∧ ctx.readyIds = readyIds ∧ Prepared ctx ∧
      GrownForest ctx forest := by
  obtain ⟨members, ranKept, climbed, inWorkspace⟩ := ancestors_found distinct isSet within
  have same := order.perm members
  obtain ⟨ranked, ranRank, prepared⟩ := passes_end distinct project within climbed inWorkspace same
  have enough : unvisited (order.iterate members) [] < readyIds.length + wsTasks.length + 1 := by
    have bound : unvisited (order.iterate members) [] ≤ (order.iterate members).length :=
      List.length_filter_le _ _
    have smaller := (List.subperm_of_subset climbed.distinct inWorkspace).length_le
    rw [List.length_map] at smaller
    rw [same.length_eq] at bound
    omega
  obtain ⟨grown, ranGrow, keys, below, _⟩ :=
    (grow_grows prepared.planted prepared.chosen (fun _ member => prepared.made member) _).thread
      prepared.pendingRoots enough
  refine ⟨grown.1, ⟨mapOf wsTasks, readyIds, kinship wsTasks byId, order.iterate members, ranked.2,
    project⟩, ?_, rfl, rfl, prepared, keys, below⟩
  unfold buildReadyTree
  dsimp only
  rw [ranKept, Option.bind_some, ranRank, Option.bind_some]
  exact congrArg (Option.map Prod.fst) ranGrow

/-- Whatever ready tasks of the workspace there are and however their parents are recorded, the tree
is built and keeps its promises. -/
theorem buildReadyTree_faithful (order : HashOrder TaskId) (byId : TaskMap)
    (project : Option Project) (distinct : (wsTasks.map Task.id).Nodup) (isSet : readyIds.Nodup)
    (within : readyIds ⊆ wsTasks.map Task.id) :
    ∃ forest, buildReadyTree order wsTasks byId readyIds project = some forest ∧
      FaithfulForest (kinship wsTasks byId) readyIds forest := by
  obtain ⟨forest, ctx, built, sameKin, sameReady, prepared, planted⟩ :=
    buildReadyTree_grows order byId project distinct isSet within
  refine ⟨forest, built, ?_⟩
  rw [← sameKin, ← sameReady]
  exact planted.faithful prepared

theorem selectReady_ids (distinct : (wsTasks.map Task.id).Nodup) :
    ((selectReady byId wsTasks).map Task.id).Nodup ∧
      (selectReady byId wsTasks).map Task.id ⊆ wsTasks.map Task.id := by
  have same : (selectReady byId wsTasks).Perm (wsTasks.filter (isReady byId)) :=
    List.perm_insertionSort _ _
  constructor
  · rw [(same.map Task.id).nodup_iff]
    exact (List.filter_sublist.map Task.id).nodup distinct
  · intro id member
    exact (List.filter_sublist.map Task.id).subset ((same.map Task.id).mem_iff.mp member)

def childTask (id : TaskId) (lifecycle : Lifecycle) (parents : List TaskId) : Task where
  id := id
  workspaceId := ⟨0⟩
  repoId := none
  filingRepoId := none
  title := "task"
  body := ""
  lifecycle := lifecycle
  sync := .localOnly
  priority := .p1
  issueType := none
  issueTypePending := false
  assignees := []
  remote := none
  relations := parents.map fun parent => ⟨.childOf, parent⟩
  comments := []
  projectItemId := none
  projectStatusOptionId := none
  syncedAt := none
  hash := ""
  createdAt := .epoch
  updatedAt := .epoch
  syncedBaseline := none

def familyTasks : List Task :=
  [childTask ⟨3⟩ .open [⟨2⟩], childTask ⟨2⟩ .open [⟨1⟩], childTask ⟨1⟩ .completed []]

theorem buildReadyTree_family : ∃ forest,
    buildReadyTree .asListed familyTasks (mapOf familyTasks) [⟨3⟩, ⟨2⟩] none = some forest ∧
      FaithfulForest (kinship familyTasks (mapOf familyTasks)) [⟨3⟩, ⟨2⟩] forest :=
  buildReadyTree_faithful .asListed (mapOf familyTasks) none (by decide) (by decide) (by decide)

def mutualTasks : List Task := [childTask ⟨1⟩ .open [⟨2⟩], childTask ⟨2⟩ .open [⟨1⟩]]

/-- Both are ready and neither can be rooted: the forest is empty. -/
theorem mutualTasks_lost :
    (selectReady (mapOf mutualTasks) mutualTasks).map Task.id = [⟨1⟩, ⟨2⟩] ∧
      ∃ forest, buildReadyTree .asListed mutualTasks (mapOf mutualTasks) [⟨1⟩, ⟨2⟩] none =
        some forest ∧ ¬∀ id ∈ [(⟨1⟩ : TaskId), ⟨2⟩], (idsOf forest).count id = 1 := by
  refine ⟨by decide, [], rfl, fun all => ?_⟩
  exact absurd (all ⟨1⟩ List.mem_cons_self) (by decide)

end QueryService

end RepoLink
