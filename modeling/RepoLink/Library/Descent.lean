import Mathlib.Data.List.Nodup
import RepoLink.Library.Walk

/-!
Depth-first descents with a cap on the depth. Every node is met once, by the first path that leads
to it, and a node that is met at the cap is not followed: what lies behind it is missed if nothing
else leads there, however near the node is to the root by another path.
-/

namespace Walks

variable {α : Type}

/-- A node with the node that it was met from and the length of the path to it. -/
structure Visit (α : Type) where
  node : α
  parent : Option α
  depth : Nat
deriving DecidableEq, Repr

def below (next : α → List α) (cap : Nat) (visit : Visit α) : List (Visit α) :=
  if visit.depth < cap then
    (next visit.node).map fun far => ⟨far, some visit.node, visit.depth + 1⟩
  else []

def nodesOf (visits : List (Visit α)) : List α := visits.map Visit.node

def descend [DecidableEq α] (next : α → List α) (cap : Nat) :
    Nat → List (Visit α) → List (Visit α) → Option (List (Visit α))
  | 0, _, _ => none
  | _ + 1, [], met => some met
  | fuel + 1, visit :: stack, met =>
    if visit.node ∈ nodesOf met then descend next cap fuel stack met
    else descend next cap fuel ((below next cap visit).reverse ++ stack) (visit :: met)

def rootVisit (root : α) : Visit α := ⟨root, none, 0⟩

/-- A path from the root to the node. -/
inductive Steps (next : α → List α) (root : α) : Nat → α → Prop
  | start : Steps next root 0 root
  | step {count : Nat} {node far : α} (path : Steps next root count node) (edge : far ∈ next node) :
      Steps next root (count + 1) far

def Near (next : α → List α) (cap : Nat) (root node : α) : Prop :=
  ∃ count ≤ cap, Steps next root count node

/-- What the depth-first order cuts off at the cap is listed above the cap too, if it is near:
no node is lost because a longer path came first. -/
def CapSound [DecidableEq α] (next : α → List α) (cap : Nat) (root : α) : Prop :=
  ∀ fuel met, descend next cap fuel [rootVisit root] [] = some met →
    ∀ cut ∈ met, cut.depth = cap → (∃ count < cap, Steps next root count cut.node) →
      ∀ far ∈ next cut.node, far = root ∨ ∃ visit ∈ met, visit.depth < cap ∧ far ∈ next visit.node

variable {next : α → List α} {cap : Nat} {root : α} {stack met : List (Visit α)} {visit : Visit α}

theorem mem_below {child : Visit α} : child ∈ below next cap visit ↔
    visit.depth < cap ∧ child.node ∈ next visit.node ∧ child.parent = some visit.node ∧
      child.depth = visit.depth + 1 := by
  unfold below
  split
  · rename_i followed
    simp only [List.mem_map, followed, true_and]
    constructor
    · rintro ⟨far, edge, rfl⟩
      exact ⟨edge, rfl, rfl⟩
    · rintro ⟨edge, parent, depth⟩
      exact ⟨child.node, edge, by rw [← parent, ← depth]⟩
  · rename_i atCap
    simp [atCap]

theorem length_below_le (visit : Visit α) :
    (below next cap visit).length ≤ (next visit.node).length := by
  unfold below
  split
  · exact Nat.le_of_eq (List.length_map _)
  · exact Nat.zero_le _

theorem mem_nodesOf {node : α} {visits : List (Visit α)} :
    node ∈ nodesOf visits ↔ ∃ visit ∈ visits, visit.node = node := List.mem_map

/-- Where a visit comes from: it is the root's, or a visit before it has led to it. -/
structure Origin (next : α → List α) (cap : Nat) (root : α) (met : List (Visit α))
    (visit : Visit α) : Prop where
  path : Steps next root visit.depth visit.node
  led : visit = rootVisit root ∨ ∃ parent ∈ met, visit.parent = some parent.node ∧
    parent.depth < cap ∧ visit.depth = parent.depth + 1 ∧ visit.node ∈ next parent.node

theorem Origin.mono {later : List (Visit α)} (origin : Origin next cap root met visit)
    (more : met ⊆ later) : Origin next cap root later visit := by
  refine ⟨origin.path, origin.led.imp_right ?_⟩
  rintro ⟨parent, member, led⟩
  exact ⟨parent, more member, led⟩

theorem Origin.depth_le (origin : Origin next cap root met visit) : visit.depth ≤ cap := by
  rcases origin.led with rfl | ⟨parent, _, _, above, depth, _⟩
  · exact Nat.zero_le _
  · omega

/-- What holds of stack and visits at every round. -/
structure Descent (next : α → List α) (cap : Nat) (root : α) (stack met : List (Visit α)) :
    Prop where
  distinct : (nodesOf met).Nodup
  origin : ∀ visit ∈ met ++ stack, Origin next cap root met visit
  closed : ∀ visit ∈ met, visit.depth < cap → ∀ far ∈ next visit.node, far ∈ nodesOf (met ++ stack)
  rooted : root ∈ nodesOf (met ++ stack)

theorem Descent.start : Descent next cap root [rootVisit root] [] where
  distinct := List.nodup_nil
  origin visit member := by
    rw [List.mem_singleton.mp member]
    exact ⟨.start, .inl rfl⟩
  closed _ member := (List.not_mem_nil member).elim
  rooted := List.mem_singleton_self root

theorem nodesOf_append (first second : List (Visit α)) :
    nodesOf (first ++ second) = nodesOf first ++ nodesOf second := List.map_append

theorem Descent.skip (descent : Descent next cap root (visit :: stack) met)
    (seen : visit.node ∈ nodesOf met) : Descent next cap root stack met := by
  have kept : ∀ node, node ∈ nodesOf (met ++ visit :: stack) → node ∈ nodesOf (met ++ stack) := by
    intro node member
    rw [nodesOf_append, List.mem_append] at member ⊢
    rcases member with inMet | onStack
    · exact .inl inMet
    · rcases List.mem_cons.mp onStack with rfl | onStack
      · exact .inl seen
      · exact .inr onStack
  refine ⟨descent.distinct, fun other member => descent.origin other ?_, ?_, kept _ descent.rooted⟩
  · rcases List.mem_append.mp member with inMet | onStack
    · exact List.mem_append_left _ inMet
    · exact List.mem_append_right _ (List.mem_cons_of_mem _ onStack)
  · intro other member followed far edge
    exact kept far (descent.closed other member followed far edge)

theorem Descent.follow (descent : Descent next cap root (visit :: stack) met)
    (fresh : visit.node ∉ nodesOf met) :
    Descent next cap root ((below next cap visit).reverse ++ stack) (visit :: met) := by
  have kept : ∀ other ∈ met ++ visit :: stack,
      other ∈ visit :: met ++ ((below next cap visit).reverse ++ stack) := by
    intro other member
    rcases List.mem_append.mp member with inMet | onStack
    · exact List.mem_append_left _ (List.mem_cons_of_mem _ inMet)
    · rcases List.mem_cons.mp onStack with rfl | onStack
      · exact List.mem_append_left _ List.mem_cons_self
      · exact List.mem_append_right _ (List.mem_append_right _ onStack)
  have keptNode : ∀ node ∈ nodesOf (met ++ visit :: stack),
      node ∈ nodesOf (visit :: met ++ ((below next cap visit).reverse ++ stack)) :=
    fun node member => (List.map_subset Visit.node kept) member
  have known : ∀ other ∈ met ++ visit :: stack, Origin next cap root (visit :: met) other :=
    fun other member => (descent.origin other member).mono (List.subset_cons_self _ _)
  have top : visit ∈ met ++ visit :: stack := List.mem_append_right _ List.mem_cons_self
  refine ⟨List.nodup_cons.mpr ⟨fresh, descent.distinct⟩, ?_, ?_, keptNode _ descent.rooted⟩
  · intro other member
    rcases List.mem_append.mp member with inMet | onStack
    · rcases List.mem_cons.mp inMet with rfl | inMet
      · exact known other top
      · exact known other (List.mem_append_left _ inMet)
    · rcases List.mem_append.mp onStack with pushed | onStack
      · obtain ⟨followed, edge, parent, depth⟩ := mem_below.mp (List.mem_reverse.mp pushed)
        refine ⟨?_, .inr ⟨visit, List.mem_cons_self, parent, followed, depth, edge⟩⟩
        rw [depth]
        exact .step (descent.origin visit top).path edge
      · exact known other (List.mem_append_right _ (List.mem_cons_of_mem _ onStack))
  · intro other member followed far edge
    rcases List.mem_cons.mp member with rfl | member
    · have pushed : ⟨far, some other.node, other.depth + 1⟩ ∈ below next cap other :=
        mem_below.mpr ⟨followed, edge, rfl, rfl⟩
      exact mem_nodesOf.mpr ⟨_, List.mem_append_right _
        (List.mem_append_left _ (List.mem_reverse.mpr pushed)), rfl⟩
    · exact keptNode far (descent.closed other member followed far edge)

theorem Steps.inside {inside : α → Prop} {count : Nat} {node : α}
    (path : Steps next root count node) (rooted : inside root)
    (closed : ∀ node, inside node → ∀ far ∈ next node, inside far) : inside node := by
  induction path with
  | start => exact rooted
  | step path edge ih => exact closed _ ih _ edge

/-- Nodes are met once, and each after its parent and deeper. -/
structure Ranked (met : List (Visit α)) : Prop where
  distinct : (nodesOf met).Nodup
  parents : ∀ visit ∈ met, ∀ parent, visit.parent = some parent →
    ∃ earlier ∈ met, earlier.node = parent ∧ earlier.depth < visit.depth

theorem Descent.ranked (descent : Descent next cap root stack met) : Ranked met := by
  refine ⟨descent.distinct, fun visit member parent given => ?_⟩
  rcases (descent.origin visit (List.mem_append_left _ member)).led with rfl |
    ⟨earlier, earlierMember, same, _, depth, _⟩
  · cases given
  · rw [given] at same
    exact ⟨earlier, earlierMember, (Option.some.inj same).symm, by omega⟩

theorem Ranked.unique (ranked : Ranked met) {left right : Visit α} (leftMember : left ∈ met)
    (rightMember : right ∈ met) (same : left.node = right.node) : left = right :=
  List.inj_on_of_nodup_map ranked.distinct leftMember rightMember same

theorem Ranked.parent_mem (ranked : Ranked met) (member : visit ∈ met)
    {parent : α} (given : visit.parent = some parent) : parent ∈ nodesOf met := by
  obtain ⟨earlier, earlierMember, same, _⟩ := ranked.parents visit member parent given
  exact mem_nodesOf.mpr ⟨earlier, earlierMember, same⟩

theorem Ranked.bare (ranked : Ranked met) {node : α} (new : node ∉ nodesOf met) (depth : Nat) :
    Ranked (⟨node, none, depth⟩ :: met) := by
  refine ⟨List.nodup_cons.mpr ⟨new, ranked.distinct⟩, fun visit member parent given => ?_⟩
  rcases List.mem_cons.mp member with rfl | member
  · cases given
  · obtain ⟨earlier, earlierMember, led⟩ := ranked.parents visit member parent given
    exact ⟨earlier, List.mem_cons_of_mem _ earlierMember, led⟩

section Ends

variable [DecidableEq α] {final : List (Visit α)}

theorem Descent.ended : ∀ {fuel : Nat} {stack met : List (Visit α)},
    descend next cap fuel stack met = some final → Descent next cap root stack met →
    Descent next cap root [] final := by
  intro fuel
  induction fuel with
  | zero => exact fun ended _ => nomatch ended
  | succ fuel ih =>
      intro stack met ended descent
      cases stack with
      | nil =>
          cases ended
          exact descent
      | cons visit stack =>
          rw [descend] at ended
          split at ended
          · exact ih ended (descent.skip (by assumption))
          · exact ih ended (descent.follow (by assumption))

theorem descend_suffix : ∀ {fuel : Nat} {stack met : List (Visit α)},
    descend next cap fuel stack met = some final → met <:+ final := by
  intro fuel
  induction fuel with
  | zero => exact fun ended => nomatch ended
  | succ fuel ih =>
      intro stack met ended
      cases stack with
      | nil =>
          cases ended
          exact List.suffix_refl _
      | cons visit stack =>
          rw [descend] at ended
          split at ended
          · exact ih ended
          · exact (List.suffix_cons visit met).trans (ih ended)

theorem descend_more {more : Nat} : ∀ {fuel : Nat} {stack met : List (Visit α)}, fuel ≤ more →
    descend next cap fuel stack met = some final →
    descend next cap more stack met = some final := by
  induction more with
  | zero =>
      intro fuel stack met enough ended
      rw [Nat.le_zero.mp enough] at ended
      cases ended
  | succ more ih =>
      intro fuel stack met enough ended
      cases fuel with
      | zero => cases ended
      | succ fuel =>
          have fewer := Nat.le_of_succ_le_succ enough
          cases stack with
          | nil => exact ended
          | cons visit stack =>
              rw [descend] at ended ⊢
              split at ended
              · rename_i seen
                rw [if_pos seen]
                exact ih fewer ended
              · rename_i fresh
                rw [if_neg fresh]
                exact ih fewer ended

theorem descend_unique {fuel other : Nat} {final' : List (Visit α)}
    (ended : descend next cap fuel stack met = some final)
    (ended' : descend next cap other stack met = some final') : final = final' := by
  have first := descend_more (Nat.le_max_left fuel other) ended
  rw [descend_more (Nat.le_max_right fuel other) ended'] at first
  exact (Option.some.inj first).symm

theorem descend_ends {nodes : List α}
    (closed : ∀ node ∈ nodes, ∀ far ∈ next node, far ∈ nodes) :
    ∀ (fuel : Nat) (stack met : List (Visit α)), (∀ visit ∈ stack, visit.node ∈ nodes) →
      stack.length + edgesLeft id next nodes (nodesOf met) < fuel →
      ∃ final, descend next cap fuel stack met = some final := by
  intro fuel
  induction fuel with
  | zero => exact fun _ _ _ short => (Nat.not_lt_zero _ short).elim
  | succ fuel ih =>
      intro stack met inside short
      cases stack with
      | nil => exact ⟨met, rfl⟩
      | cons visit stack =>
          have member := inside visit List.mem_cons_self
          have others := fun other onStack => inside other (List.mem_cons_of_mem visit onStack)
          rw [List.length_cons] at short
          rw [descend]
          split
          · exact ih stack met others (by omega)
          · rename_i fresh
            have spent := @edgesLeft_visit α α _ id next nodes visit.node (nodesOf met) member fresh
            have fewer := @length_below_le _ next cap visit
            refine ih _ _ (fun other onStack => ?_) ?_
            · rcases List.mem_append.mp onStack with pushed | onStack
              · exact closed _ member _ (mem_below.mp (List.mem_reverse.mp pushed)).2.1
              · exact others other onStack
            · have same : nodesOf (visit :: met) = visit.node :: nodesOf met := rfl
              rw [same, List.length_append, List.length_reverse]
              change _ + edgesLeft id next nodes (id visit.node :: nodesOf met) < fuel
              omega

theorem covers_iff_capSound {fuel : Nat}
    (ended : descend next cap fuel [rootVisit root] [] = some final) :
    (∀ node, Near next cap root node → node ∈ nodesOf final) ↔ CapSound next cap root := by
  have complete : Descent next cap root [] final := .ended ended .start
  have all : final ++ [] = final := List.append_nil final
  have followed : ∀ visit ∈ final, visit.depth < cap → ∀ far ∈ next visit.node,
      far ∈ nodesOf final := by
    have closed := complete.closed
    rwa [all] at closed
  constructor
  · intro covers other met endedMet cut member _ near far edge
    rw [← descend_unique ended endedMet] at member ⊢
    obtain ⟨count, fewer, path⟩ := near
    obtain ⟨found, foundMember, rfl⟩ :=
      mem_nodesOf.mp (covers far ⟨count + 1, fewer, .step path edge⟩)
    rcases (complete.origin found (all.symm ▸ foundMember)).led with rfl |
      ⟨parent, parentMember, _, above, _, listed⟩
    · exact .inl rfl
    · exact .inr ⟨parent, parentMember, above, listed⟩
  · intro sound node near
    obtain ⟨count, within, path⟩ := near
    induction path with
    | start =>
        have rooted := complete.rooted
        rwa [all] at rooted
    | @step count node far path edge ih =>
        obtain ⟨visit, member, rfl⟩ := mem_nodesOf.mp (ih (by omega))
        have depth := (complete.origin visit (all.symm ▸ member)).depth_le
        rcases Nat.lt_or_eq_of_le depth with above | atCap
        · exact followed visit member above far edge
        · rcases sound fuel final ended visit member atCap ⟨count, by omega, path⟩ far edge with
            rfl | ⟨other, otherMember, above, listed⟩
          · have rooted := complete.rooted
            rwa [all] at rooted
          · exact followed other otherMember above far listed

theorem capSound_of_shallow {fuel : Nat}
    (ended : descend next cap fuel [rootVisit root] [] = some final)
    (shallow : ∀ visit ∈ final, visit.depth < cap) : CapSound next cap root := by
  intro other met endedMet cut member atCap
  rw [← descend_unique ended endedMet] at member
  exact absurd atCap (Nat.ne_of_lt (shallow cut member))

end Ends

end Walks
