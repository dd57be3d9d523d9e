import Mathlib.Data.List.Forall2
import Mathlib.Data.List.Nodup
import Mathlib.Logic.Relation

/-!
Forests that are grown from a parent function: chains of parents, rose trees, and the walk that
grows the tree below a node and marks the nodes that it has come to.
-/

namespace Groves

open Relation

variable {α β σ : Type}

section Chains

variable {parent : α → Option α} {node above other : α}

def Under (parent : α → Option α) : α → α → Prop :=
  ReflTransGen fun node above => parent node = some above

/-- The chain of parents of a node comes to an end. -/
inductive Ends (parent : α → Option α) : α → Prop where
  | top {node : α} : parent node = none → Ends parent node
  | climb {node above : α} : parent node = some above → Ends parent above → Ends parent node

def Apart (parent : α → Option α) (left right : α) : Prop :=
  ∀ node, Under parent node left → ¬Under parent node right

theorem Under.climb (under : Under parent node above) (edge : parent above = some other) :
    Under parent node other := ReflTransGen.tail under edge

theorem Under.cases_child (under : Under parent node above) :
    node = above ∨ ∃ child, parent child = some above ∧ Under parent node child := by
  rcases ReflTransGen.cases_tail under with same | ⟨child, path, edge⟩
  · exact .inl same.symm
  · exact .inr ⟨child, edge, path⟩

theorem Under.linear (left : Under parent node above) (right : Under parent node other) :
    Under parent above other ∨ Under parent other above := by
  refine ReflTransGen.total_of_right_unique (fun _ _ _ edge same => ?_) left right
  exact Option.some.inj (edge.symm.trans same)

theorem Under.top_eq (top : parent node = none) (under : Under parent node above) :
    above = node := by
  rcases ReflTransGen.cases_head under with same | ⟨_, edge, _⟩
  · exact same.symm
  · rw [top] at edge
    cases edge

theorem Ends.under (ends : Ends parent above) (under : Under parent node above) :
    Ends parent node := by
  induction under using ReflTransGen.head_induction_on with
  | refl => exact ends
  | head edge _ ih => exact .climb edge ih

theorem Ends.upwards (ends : Ends parent node) (under : Under parent node above) :
    Ends parent above := by
  induction under with
  | refl => exact ends
  | tail _ edge ih =>
      cases ih with
      | top top =>
          rw [top] at edge
          cases edge
      | climb first rest =>
          rw [first] at edge
          cases Option.some.inj edge
          exact rest

theorem Ends.acyclic (ends : Ends parent node) :
    ¬TransGen (fun node above => parent node = some above) node node := by
  induction ends with
  | top top =>
      intro loop
      obtain ⟨_, edge, _⟩ := TransGen.head'_iff.mp loop
      rw [top] at edge
      cases edge
  | climb edge _ ih =>
      intro loop
      obtain ⟨next, first, rest⟩ := TransGen.head'_iff.mp loop
      rw [edge] at first
      cases Option.some.inj first
      exact ih (.tail' rest edge)

theorem Ends.not_under (ends : Ends parent node) (edge : parent node = some above) :
    ¬Under parent above node := fun back => ends.acyclic (.head' edge back)

theorem Ends.exists_top (ends : Ends parent node) :
    ∃ top, Under parent node top ∧ parent top = none := by
  induction ends with
  | top top => exact ⟨_, .refl, top⟩
  | climb edge _ ih =>
      obtain ⟨top, under, ended⟩ := ih
      exact ⟨top, .head edge under, ended⟩

theorem apart_of_tops (left : parent node = none) (right : parent other = none)
    (different : node ≠ other) : Apart parent node other := by
  intro below underLeft underRight
  rcases underLeft.linear underRight with under | under
  · exact different (under.top_eq left).symm
  · exact different (under.top_eq right)

theorem apart_of_siblings (ends : Ends parent above) (left : parent node = some above)
    (right : parent other = some above) (different : node ≠ other) : Apart parent node other := by
  intro below underLeft underRight
  have blocked : ∀ {first second : α}, parent first = some above → parent second = some above →
      first ≠ second → ¬Under parent first second := by
    intro first second edgeFirst edgeSecond distinct under
    rcases ReflTransGen.cases_head under with same | ⟨next, edge, rest⟩
    · exact distinct same
    · rw [edgeFirst] at edge
      cases Option.some.inj edge
      exact (ends.under (.single edgeSecond)).not_under edgeSecond rest
  rcases underLeft.linear underRight with under | under
  · exact blocked left right different under
  · exact blocked right left different.symm under

end Chains

inductive Rose (β : Type) where
  | node (label : β) (branches : List (Rose β))

namespace Rose

def label : Rose β → β
  | .node label _ => label

def branches : Rose β → List (Rose β)
  | .node _ branches => branches

mutual

def labels : Rose β → List β
  | .node label branches => label :: labelsOfAll branches

def labelsOfAll : List (Rose β) → List β
  | [] => []
  | tree :: rest => tree.labels ++ labelsOfAll rest

end

/-- The first tree is the second one or a branch somewhere in it. -/
inductive Within (tree : Rose β) : Rose β → Prop where
  | whole : Within tree tree
  | inside {label : β} {branches : List (Rose β)} {branch : Rose β} :
      branch ∈ branches → Within tree branch → Within tree (.node label branches)

theorem labelsOfAll_eq (forest : List (Rose β)) : labelsOfAll forest = forest.flatMap labels := by
  induction forest with
  | nil => rfl
  | cons tree rest ih => rw [labelsOfAll, ih, List.flatMap_cons]

theorem mem_labelsOfAll {forest : List (Rose β)} {wanted : β} :
    wanted ∈ labelsOfAll forest ↔ ∃ tree ∈ forest, wanted ∈ tree.labels := by
  rw [labelsOfAll_eq, List.mem_flatMap]

theorem label_mem_labels (tree : Rose β) : tree.label ∈ tree.labels := by
  cases tree with
  | node label branches => exact List.mem_cons_self

theorem labels_eq (tree : Rose β) : tree.labels = tree.label :: labelsOfAll tree.branches := by
  cases tree with
  | node label branches => rfl

theorem Within.labels_subset {tree whole : Rose β} (inside : tree.Within whole) :
    tree.labels ⊆ whole.labels := by
  induction inside with
  | whole => exact List.Subset.refl _
  | inside member _ ih =>
      intro label inLabels
      rw [labels]
      exact List.mem_cons_of_mem _ (mem_labelsOfAll.mpr ⟨_, member, ih inLabels⟩)

theorem Within.branch {tree whole branch : Rose β} (inside : tree.Within whole)
    (member : branch ∈ tree.branches) : branch.Within whole := by
  induction inside with
  | whole =>
      cases tree with
      | node label branches => exact .inside member .whole
  | inside inBranches _ ih => exact .inside inBranches ih

end Rose

section Threads

def thread (step : α → σ → Option (β × σ)) : List α → σ → Option (List β × σ)
  | [], state => some ([], state)
  | item :: rest, state =>
    (step item state).bind fun made =>
      (thread step rest made.2).map fun later => (made.1 :: later.1, later.2)

theorem thread_spec (step : α → σ → Option (β × σ)) (Good : α → β → Prop)
    (Inv : List α → σ → Prop)
    (stepped : ∀ item rest state, Inv (item :: rest) state →
      ∃ made, step item state = some made ∧ Good item made.1 ∧ Inv rest made.2) :
    ∀ items state, Inv items state →
      ∃ made, thread step items state = some made ∧ List.Forall₂ Good items made.1 ∧
        Inv [] made.2 := by
  intro items
  induction items with
  | nil => exact fun state inv => ⟨([], state), rfl, .nil, inv⟩
  | cons item rest ih =>
      intro state inv
      obtain ⟨made, ran, good, next⟩ := stepped item rest state inv
      obtain ⟨later, ranLater, goodLater, last⟩ := ih made.2 next
      refine ⟨(made.1 :: later.1, later.2), ?_, .cons good goodLater, last⟩
      rw [thread, ran, Option.bind_some, ranLater]
      rfl

theorem exists_of_forall₂ {Good : α → β → Prop} {items : List α} {made : List β}
    (good : List.Forall₂ Good items made) :
    (∀ item ∈ items, ∃ value ∈ made, Good item value) ∧
      ∀ value ∈ made, ∃ item ∈ items, Good item value := by
  induction good with
  | nil =>
      exact ⟨fun _ member => (List.not_mem_nil member).elim,
        fun _ member => (List.not_mem_nil member).elim⟩
  | cons first _ ih =>
      refine ⟨fun item member => ?_, fun value member => ?_⟩
      · rcases List.mem_cons.mp member with rfl | member
        · exact ⟨_, List.mem_cons_self, first⟩
        · obtain ⟨value, inMade, both⟩ := ih.1 item member
          exact ⟨value, List.mem_cons_of_mem _ inMade, both⟩
      · rcases List.mem_cons.mp member with rfl | member
        · exact ⟨_, List.mem_cons_self, first⟩
        · obtain ⟨item, inItems, both⟩ := ih.2 value member
          exact ⟨item, List.mem_cons_of_mem _ inItems, both⟩

end Threads

section Growing

def grow (choose : α → List α → List α) (row : α → Option β) :
    Nat → α → List α → Option (Rose β × List α)
  | 0, _, _ => none
  | fuel + 1, node, visiting =>
    (row node).bind fun label =>
      (thread (grow choose row fuel) (choose node visiting) (node :: visiting)).map fun grown =>
        (.node label grown.1, grown.2)

/-- The nodes to keep, with the parent of each, and the children of each in their order. -/
structure Planted (parent : α → Option α) (kept : List α) (kids : α → List α) : Prop where
  closed : ∀ node ∈ kept, ∀ above, parent node = some above → above ∈ kept
  mem_kids : ∀ node child, child ∈ kids node ↔ child ∈ kept ∧ parent child = some node
  kids_nodup : ∀ node, (kids node).Nodup

/-- Below every node stand its children in their order. -/
inductive Grown (kids : α → List α) (row : α → Option β) (key : β → α) : Rose β → Prop where
  | node {label : β} {branches : List (Rose β)} :
      row (key label) = some label →
      branches.map (fun branch => key branch.label) = kids (key label) →
      (∀ branch ∈ branches, Grown kids row key branch) →
      Grown kids row key (.node label branches)

variable {parent : α → Option α} {kept : List α} {kids : α → List α} {row : α → Option β}
  {key : β → α} {tree : Rose β} {node above : α}

theorem Planted.kept_of_under (planted : Planted parent kept kids) (member : node ∈ kept)
    (under : Under parent node above) : above ∈ kept := by
  induction under with
  | refl => exact member
  | tail _ edge ih => exact planted.closed _ ih _ edge

theorem Planted.kept_branch (planted : Planted parent kept kids) {branches : List (Rose β)}
    (grownKids : branches.map (fun branch => key branch.label) = kids node) :
    ∀ branch ∈ branches, key branch.label ∈ kept ∧ parent (key branch.label) = some node := by
  intro branch member
  rw [← planted.mem_kids, ← grownKids]
  exact List.mem_map_of_mem member

theorem Grown.within {whole : Rose β} (grown : Grown kids row key whole)
    (inside : tree.Within whole) : Grown kids row key tree := by
  induction inside with
  | whole => exact grown
  | inside member _ ih =>
      cases grown with
      | node _ _ below => exact ih (below _ member)

theorem Grown.branches_eq (grown : Grown kids row key tree) :
    tree.branches.map (fun branch => key branch.label) = kids (key tree.label) := by
  cases grown with
  | node _ grownKids _ => exact grownKids

theorem Grown.made (grown : Grown kids row key tree) :
    ∀ label ∈ tree.labels, row (key label) = some label := by
  induction grown with
  | node made _ _ ih =>
      intro label member
      rw [Rose.labels] at member
      rcases List.mem_cons.mp member with rfl | member
      · exact made
      · obtain ⟨branch, inBranches, inBranch⟩ := Rose.mem_labelsOfAll.mp member
        exact ih branch inBranches label inBranch

theorem Grown.mem_labels (planted : Planted parent kept kids) (grown : Grown kids row key tree) :
    key tree.label ∈ kept →
      (node ∈ tree.labels.map key ↔ node ∈ kept ∧ Under parent node (key tree.label)) := by
  induction grown with
  | @node label branches _ grownKids _ ih =>
      intro member
      have kid := planted.kept_branch grownKids
      rw [Rose.labels, Rose.labelsOfAll_eq, List.map_cons, List.mem_cons]
      constructor
      · rintro (rfl | inside)
        · exact ⟨member, .refl⟩
        · obtain ⟨found, inBranch, rfl⟩ := List.mem_map.mp inside
          obtain ⟨branch, inBranches, inLabels⟩ := List.mem_flatMap.mp inBranch
          obtain ⟨keptBranch, edge⟩ := kid branch inBranches
          obtain ⟨keptNode, under⟩ := (ih branch inBranches keptBranch).mp
            (List.mem_map_of_mem inLabels)
          exact ⟨keptNode, under.climb edge⟩
      · rintro ⟨keptNode, under⟩
        rcases under.cases_child with same | ⟨child, edge, path⟩
        · exact .inl same
        · right
          have inKids : child ∈ kids (key label) :=
            (planted.mem_kids _ _).mpr ⟨planted.kept_of_under keptNode path, edge⟩
          rw [← grownKids] at inKids
          obtain ⟨branch, inBranches, rfl⟩ := List.mem_map.mp inKids
          have inLabels := (ih branch inBranches (kid branch inBranches).1).mpr ⟨keptNode, path⟩
          obtain ⟨found, inBranch, rfl⟩ := List.mem_map.mp inLabels
          exact List.mem_map_of_mem (List.mem_flatMap.mpr ⟨branch, inBranches, inBranch⟩)

theorem nodup_of_apart (planted : Planted parent kept kids) {forest : List (Rose β)}
    (grown : ∀ tree ∈ forest, Grown kids row key tree)
    (alone : ∀ tree ∈ forest, key tree.label ∈ kept ∧ (tree.labels.map key).Nodup)
    (apart : forest.Pairwise fun left right => Apart parent (key left.label) (key right.label)) :
    ((Rose.labelsOfAll forest).map key).Nodup := by
  rw [Rose.labelsOfAll_eq, List.map_flatMap, List.nodup_flatMap]
  refine ⟨fun tree member => (alone tree member).2, ?_⟩
  refine apart.imp_of_mem fun {left right} inLeft inRight stand => ?_
  intro node nodeLeft nodeRight
  exact stand node
    (((grown left inLeft).mem_labels planted (alone left inLeft).1).mp nodeLeft).2
    (((grown right inRight).mem_labels planted (alone right inRight).1).mp nodeRight).2

theorem Grown.nodup (planted : Planted parent kept kids) (grown : Grown kids row key tree) :
    key tree.label ∈ kept → Ends parent (key tree.label) → (tree.labels.map key).Nodup := by
  induction grown with
  | @node label branches _ grownKids below ih =>
      intro member ends
      have kid := planted.kept_branch grownKids
      rw [Rose.labels, List.map_cons, List.nodup_cons]
      constructor
      · intro inside
        obtain ⟨found, inBranch, same⟩ := List.mem_map.mp inside
        obtain ⟨branch, inBranches, inLabels⟩ := Rose.mem_labelsOfAll.mp inBranch
        obtain ⟨keptBranch, edge⟩ := kid branch inBranches
        have under := ((below branch inBranches).mem_labels planted keptBranch).mp
          (List.mem_map_of_mem inLabels)
        rw [same] at under
        exact (Ends.climb edge ends).not_under edge under.2
      · refine nodup_of_apart planted below (fun branch inBranches => ?_) ?_
        · obtain ⟨keptBranch, edge⟩ := kid branch inBranches
          exact ⟨keptBranch, ih branch inBranches keptBranch (.climb edge ends)⟩
        · have distinct := planted.kids_nodup (key label)
          rw [← grownKids, List.nodup_iff_pairwise_ne, List.pairwise_map] at distinct
          refine distinct.imp_of_mem fun {left right} inLeft inRight different => ?_
          exact apart_of_siblings ends (kid left inLeft).2 (kid right inRight).2 different

theorem Grown.hangs {whole : Rose β} (planted : Planted parent kept kids)
    (grown : Grown kids row key whole) (inside : tree.Within whole) :
    tree = whole ∨ ∃ upper : Rose β, upper.Within whole ∧
      parent (key tree.label) = some (key upper.label) ∧ tree ∈ upper.branches := by
  induction inside with
  | whole => exact .inl rfl
  | @inside label branches branch member inBranch ih =>
      right
      cases grown with
      | node made grownKids below =>
          rcases ih (below branch member) with rfl | ⟨upper, inUpper, edge, hung⟩
          · refine ⟨.node label branches, .whole, ?_, member⟩
            exact (planted.kept_branch grownKids _ member).2
          · exact ⟨upper, .inside member inUpper, edge, hung⟩

/-- What has been visited when the trees below some nodes are grown. -/
structure Marked (parent : α → Option α) (nodes visiting visited : List α) : Prop where
  kept : visiting ⊆ visited
  under : ∀ node ∈ visited, node ∈ visiting ∨ ∃ top ∈ nodes, Under parent node top

/-- Nodes whose trees are still to be grown: they stand apart, and nothing in them was visited. -/
structure Pending (parent : α → Option α) (kept nodes visited : List α) : Prop where
  known : ∀ node ∈ nodes, node ∈ kept ∧ Ends parent node
  apart : nodes.Pairwise (Apart parent)
  clear : ∀ node ∈ nodes, ∀ other ∈ visited, ¬Under parent other node

theorem Pending.single (known : node ∈ kept) (ends : Ends parent node) {visited : List α}
    (clear : ∀ other ∈ visited, ¬Under parent other node) :
    Pending parent kept [node] visited := by
  refine ⟨fun other member => ?_, List.pairwise_singleton _ _, fun other member => ?_⟩
  · rw [List.mem_singleton.mp member]
    exact ⟨known, ends⟩
  · rw [List.mem_singleton.mp member]
    exact clear

theorem Pending.next {rest visiting visited : List α}
    (pending : Pending parent kept (node :: rest) visiting)
    (marked : Marked parent [node] visiting visited) : Pending parent kept rest visited := by
  obtain ⟨known, apart, clear⟩ := pending
  obtain ⟨apartFirst, apart⟩ := List.pairwise_cons.mp apart
  refine ⟨fun other member => known other (List.mem_cons_of_mem _ member), apart, ?_⟩
  intro later member other visitedOther under
  rcases marked.under other visitedOther with before | ⟨top, isTop, underTop⟩
  · exact clear later (List.mem_cons_of_mem _ member) other before under
  · rw [List.mem_singleton.mp isTop] at underTop
    exact apartFirst later member other underTop under

theorem Planted.pending_kids (planted : Planted parent kept kids) {visiting : List α}
    (ends : Ends parent node) (clear : ∀ other ∈ visiting, ¬Under parent other node) :
    Pending parent kept (kids node) (node :: visiting) := by
  have edge : ∀ child ∈ kids node, child ∈ kept ∧ parent child = some node :=
    fun child => (planted.mem_kids node child).mp
  refine ⟨fun child member => ⟨(edge child member).1, .climb (edge child member).2 ends⟩, ?_, ?_⟩
  · refine (planted.kids_nodup node).imp_of_mem fun {left right} inLeft inRight different => ?_
    exact apart_of_siblings ends (edge left inLeft).2 (edge right inRight).2 different
  · intro child member other visitedOther under
    rcases List.mem_cons.mp visitedOther with rfl | before
    · exact (Ends.climb (edge child member).2 ends).not_under (edge child member).2 under
    · exact clear other before (under.climb (edge child member).2)

/-- The trees of some of the nodes are grown, and those of the rest are pending. -/
structure Underway (parent : α → Option α) (kept nodes visiting rest visited : List α) : Prop where
  among : rest ⊆ nodes
  pending : Pending parent kept rest visited
  marked : Marked parent nodes visiting visited

theorem Underway.next {nodes visiting rest visited later : List α}
    (underway : Underway parent kept nodes visiting (node :: rest) visited)
    (marked : Marked parent [node] visited later) :
    Underway parent kept nodes visiting rest later := by
  refine ⟨fun other member => underway.among (List.mem_cons_of_mem _ member),
    underway.pending.next marked,
    fun other member => marked.kept (underway.marked.kept member), fun other member => ?_⟩
  rcases marked.under other member with before | ⟨top, isTop, under⟩
  · exact underway.marked.under other before
  · rw [List.mem_singleton.mp isTop] at under
    exact .inr ⟨node, underway.among List.mem_cons_self, under⟩

theorem grown_of_forall₂ {nodes : List α} {trees : List (Rose β)}
    (good : List.Forall₂ (fun node tree => Grown kids row key tree ∧ key tree.label = node)
      nodes trees) :
    trees.map (fun tree => key tree.label) = nodes ∧ ∀ tree ∈ trees, Grown kids row key tree := by
  constructor
  · induction good with
    | nil => rfl
    | cons first _ ih => rw [List.map_cons, first.2, ih]
  · intro tree member
    obtain ⟨_, _, grown, _⟩ := (exists_of_forall₂ good).2 tree member
    exact grown

variable [DecidableEq α] {choose : α → List α → List α}

def unvisited (kept visiting : List α) : Nat := (kept.filter (· ∉ visiting)).length

theorem unvisited_anti {visiting visited : List α} (more : visiting ⊆ visited) :
    unvisited kept visited ≤ unvisited kept visiting := by
  refine (List.monotone_filter_right kept fun node fresh => ?_).length_le
  rw [decide_eq_true_eq] at fresh ⊢
  exact fun member => fresh (more member)

theorem unvisited_cons {visiting : List α} (member : node ∈ kept) (fresh : node ∉ visiting) :
    unvisited kept (node :: visiting) < unvisited kept visiting := by
  have fewer : (kept.filter (· ∉ node :: visiting)) =
      (kept.filter (· ∉ visiting)).filter (· ≠ node) := by
    rw [List.filter_filter]
    refine List.filter_congr fun other _ => ?_
    by_cases same : other = node <;> simp [same]
  rw [unvisited, unvisited, fewer]
  refine List.length_filter_lt_length_iff_exists.mpr ⟨node, ?_, by simp⟩
  exact List.mem_filter.mpr ⟨member, decide_eq_true fresh⟩

/-- A step that grows the tree below a node while there is fuel for what was not visited. -/
def Grows (parent : α → Option α) (kept : List α) (kids : α → List α) (row : α → Option β)
    (key : β → α) (fuel : Nat) (step : α → List α → Option (Rose β × List α)) : Prop :=
  ∀ node visiting, Pending parent kept [node] visiting → unvisited kept visiting < fuel →
    ∃ grown, step node visiting = some grown ∧
      (Grown kids row key grown.1 ∧ key grown.1.label = node) ∧
      Marked parent [node] visiting grown.2

theorem Grows.thread {fuel : Nat} {step : α → List α → Option (Rose β × List α)}
    (grows : Grows parent kept kids row key fuel step) {nodes visiting : List α}
    (pending : Pending parent kept nodes visiting) (enough : unvisited kept visiting < fuel) :
    ∃ made, Groves.thread step nodes visiting = some made ∧
      made.1.map (fun tree => key tree.label) = nodes ∧
      (∀ tree ∈ made.1, Grown kids row key tree) ∧ Marked parent nodes visiting made.2 := by
  have stepped : ∀ node rest visited,
      Underway parent kept nodes visiting (node :: rest) visited →
      ∃ grown, step node visited = some grown ∧
        (Grown kids row key grown.1 ∧ key grown.1.label = node) ∧
        Underway parent kept nodes visiting rest grown.2 := by
    intro node rest visited underway
    have first : Pending parent kept [node] visited := by
      obtain ⟨known, ends⟩ := underway.pending.known node List.mem_cons_self
      exact .single known ends (underway.pending.clear node List.mem_cons_self)
    have fuelLeft := Nat.lt_of_le_of_lt (unvisited_anti underway.marked.kept) enough
    obtain ⟨grown, ran, good, marked⟩ := grows node visited first fuelLeft
    exact ⟨grown, ran, good, underway.next marked⟩
  have start : Underway parent kept nodes visiting nodes visiting :=
    ⟨List.Subset.refl _, pending, List.Subset.refl _, fun _ member => .inl member⟩
  obtain ⟨made, ran, good, underway⟩ := thread_spec step
    (fun node tree => Grown kids row key tree ∧ key tree.label = node)
    (Underway parent kept nodes visiting) stepped nodes visiting start
  obtain ⟨keys, grown⟩ := grown_of_forall₂ good
  exact ⟨made, ran, keys, grown, underway.marked⟩

/-- Fuel for every node that was not visited is enough, and what is grown is the tree below the
node. -/
theorem grow_grows (planted : Planted parent kept kids)
    (chosen : ∀ node visiting, (∀ child ∈ kids node, child ∉ visiting) →
      choose node visiting = kids node)
    (made : ∀ node ∈ kept, ∃ label, row node = some label ∧ key label = node) :
    ∀ fuel, Grows parent kept kids row key fuel (grow choose row fuel) := by
  intro fuel
  induction fuel with
  | zero => exact fun _ _ _ enough => absurd enough (Nat.not_lt_zero _)
  | succ fuel ih =>
      intro node visiting pending enough
      obtain ⟨member, ends⟩ := pending.known node List.mem_cons_self
      have clear := pending.clear node List.mem_cons_self
      have fresh : node ∉ visiting := fun visited => clear node visited .refl
      have freshKids : ∀ child ∈ kids node, child ∉ visiting := by
        intro child inKids visited
        exact clear child visited (.single ((planted.mem_kids node child).mp inKids).2)
      obtain ⟨label, rowEq, keyEq⟩ := made node member
      have fewer := unvisited_cons member fresh
      obtain ⟨grown, ran, keys, below, marked⟩ :=
        ih.thread (planted.pending_kids ends clear) (by omega)
      refine ⟨(.node label grown.1, grown.2), ?_, ⟨?_, keyEq⟩, ?_⟩
      · rw [grow, rowEq, Option.bind_some, chosen node visiting freshKids, ran]
        rfl
      · refine .node ?_ ?_ below
        · rw [keyEq]
          exact rowEq
        · rw [keyEq]
          exact keys
      · refine ⟨fun other inVisiting => marked.kept (List.mem_cons_of_mem _ inVisiting), ?_⟩
        intro other inVisited
        rcases marked.under other inVisited with before | ⟨child, inKids, under⟩
        · rcases List.mem_cons.mp before with rfl | before
          · exact .inr ⟨other, List.mem_cons_self, .refl⟩
          · exact .inl before
        · have edge := ((planted.mem_kids node child).mp inKids).2
          exact .inr ⟨node, List.mem_cons_self, under.climb edge⟩

end Growing

end Groves
