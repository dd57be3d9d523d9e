import Mathlib.Algebra.GroupWithZero.Nat
import Mathlib.Logic.Relation

/-!
Depth-first walks: a stack of nodes to look at, the nodes looked at so far, and as much fuel as
there are edges left to follow.
-/

namespace Walks

open Relation

variable {α : Type}

/-- Look at the nodes of the stack until one is a hit; `none` if the fuel runs out first. -/
def walk [DecidableEq α] (next : α → List α) (hit : α → Bool) :
    Nat → List α → List α → Option Bool
  | 0, _, _ => none
  | _ + 1, [], _ => some false
  | fuel + 1, node :: stack, visited =>
    if node ∈ visited then walk next hit fuel stack visited
    else if hit node then some true
    else walk next hit fuel ((next node).reverse ++ stack) (node :: visited)

def Leads (next : α → List α) : α → α → Prop := fun node far => far ∈ next node

def HitBehind (next : α → List α) (hit : α → Bool) (nodes : List α) : Prop :=
  ∃ node ∈ nodes, ∃ last, ReflTransGen (Leads next) node last ∧ hit last = true

def Spends (next : α → List α) (pending : List α → Nat) : Prop :=
  ∀ node visited, node ∉ visited →
    pending (node :: visited) + (next node).length ≤ pending visited

/-- What was looked at is no hit and leads to the stack or to what was looked at. -/
structure Explored (next : α → List α) (hit : α → Bool) (stack visited : List α) : Prop where
  missed : ∀ node ∈ visited, hit node = false
  closed : ∀ node ∈ visited, ∀ far ∈ next node, far ∈ stack ∨ far ∈ visited

variable {next : α → List α} {hit : α → Bool} {stack visited : List α}

theorem Explored.start : Explored next hit stack [] :=
  ⟨fun _ member => (List.not_mem_nil member).elim, fun _ member => (List.not_mem_nil member).elim⟩

theorem Explored.escapes (explored : Explored next hit stack visited) {node last : α}
    (path : ReflTransGen (Leads next) node last) (seen : node ∈ visited)
    (found : hit last = true) : HitBehind next hit stack := by
  induction path using ReflTransGen.head_induction_on with
  | refl =>
      rw [explored.missed last seen] at found
      cases found
  | head edge rest ih =>
      rcases explored.closed _ seen _ edge with onStack | inVisited
      · exact ⟨_, onStack, last, rest, found⟩
      · exact ih inVisited

theorem Explored.skip {node : α} (explored : Explored next hit (node :: stack) visited)
    (seen : node ∈ visited) : Explored next hit stack visited := by
  refine ⟨explored.missed, fun other member far edge => ?_⟩
  rcases explored.closed other member far edge with onStack | inVisited
  · rcases List.mem_cons.mp onStack with rfl | onStack
    · exact .inr seen
    · exact .inl onStack
  · exact .inr inVisited

theorem Explored.visit {node : α} (explored : Explored next hit (node :: stack) visited)
    (miss : hit node = false) :
    Explored next hit ((next node).reverse ++ stack) (node :: visited) := by
  constructor
  · intro other member
    rcases List.mem_cons.mp member with rfl | member
    · exact miss
    · exact explored.missed other member
  · intro other member far edge
    rcases List.mem_cons.mp member with rfl | member
    · exact .inl (List.mem_append_left _ (List.mem_reverse.mpr edge))
    · rcases explored.closed other member far edge with onStack | inVisited
      · rcases List.mem_cons.mp onStack with rfl | onStack
        · exact .inr List.mem_cons_self
        · exact .inl (List.mem_append_right _ onStack)
      · exact .inr (List.mem_cons_of_mem _ inVisited)

theorem hitBehind_skip {node : α} (explored : Explored next hit (node :: stack) visited)
    (seen : node ∈ visited) : HitBehind next hit (node :: stack) ↔ HitBehind next hit stack := by
  constructor
  · rintro ⟨entry, member, last, path, found⟩
    rcases List.mem_cons.mp member with rfl | member
    · exact (explored.skip seen).escapes path seen found
    · exact ⟨entry, member, last, path, found⟩
  · rintro ⟨entry, member, last, path, found⟩
    exact ⟨entry, List.mem_cons_of_mem _ member, last, path, found⟩

theorem hitBehind_visit {node : α} (miss : hit node = false) :
    HitBehind next hit (node :: stack) ↔ HitBehind next hit ((next node).reverse ++ stack) := by
  constructor
  · rintro ⟨entry, member, last, path, found⟩
    rcases List.mem_cons.mp member with rfl | member
    · rcases path.cases_head with rfl | ⟨far, edge, rest⟩
      · rw [miss] at found
        cases found
      · exact ⟨far, List.mem_append_left _ (List.mem_reverse.mpr edge), last, rest, found⟩
    · exact ⟨entry, List.mem_append_right _ member, last, path, found⟩
  · rintro ⟨entry, member, last, path, found⟩
    rcases List.mem_append.mp member with edge | onStack
    · exact ⟨node, List.mem_cons_self, last, .head (List.mem_reverse.mp edge) path, found⟩
    · exact ⟨entry, List.mem_cons_of_mem _ onStack, last, path, found⟩

section Rows

variable {ρ : Type} [DecidableEq α] {key : ρ → α} {edges : ρ → List α}

def edgesLeft (key : ρ → α) (edges : ρ → List α) (rows : List ρ) (visited : List α) : Nat :=
  ((rows.filter fun row => key row ∉ visited).map fun row => (edges row).length).sum

theorem edgesLeft_cons (row : ρ) (rows : List ρ) (visited : List α) :
    edgesLeft key edges (row :: rows) visited =
      (if key row ∈ visited then 0 else (edges row).length) + edgesLeft key edges rows visited := by
  unfold edgesLeft
  by_cases seen : key row ∈ visited
  · simp [seen]
  · simp [seen]

theorem edgesLeft_anti (node : α) (rows : List ρ) (visited : List α) :
    edgesLeft key edges rows (node :: visited) ≤ edgesLeft key edges rows visited := by
  induction rows with
  | nil => exact Nat.le_refl _
  | cons row rest ih =>
      rw [edgesLeft_cons, edgesLeft_cons]
      by_cases seen : key row ∈ visited
      · rw [if_pos (List.mem_cons_of_mem _ seen), if_pos seen]
        omega
      · rw [if_neg seen]
        split <;> omega

theorem edgesLeft_visit {rows : List ρ} {row : ρ} {visited : List α} (member : row ∈ rows)
    (fresh : key row ∉ visited) :
    edgesLeft key edges rows (key row :: visited) + (edges row).length ≤
      edgesLeft key edges rows visited := by
  induction rows with
  | nil => exact (List.not_mem_nil member).elim
  | cons first rest ih =>
      rw [edgesLeft_cons, edgesLeft_cons]
      rcases List.mem_cons.mp member with rfl | member
      · rw [if_pos List.mem_cons_self, if_neg fresh]
        have fewer := @edgesLeft_anti α ρ _ key edges (key row) rest visited
        omega
      · have later := ih member
        by_cases seen : key first ∈ visited
        · rw [if_pos (List.mem_cons_of_mem _ seen), if_pos seen]
          omega
        · rw [if_neg seen]
          split <;> omega

theorem edgesLeft_spends {rows : List ρ}
    (stored : ∀ node, next node ≠ [] → ∃ row ∈ rows, key row = node ∧ next node = edges row) :
    Spends next (edgesLeft key edges rows) := by
  intro node visited fresh
  by_cases empty : next node = []
  · rw [empty]
    exact edgesLeft_anti node rows visited
  · obtain ⟨row, member, rfl, same⟩ := stored node empty
    rw [same]
    exact edgesLeft_visit member fresh

end Rows

theorem walk_spec [DecidableEq α] {pending : List α → Nat} (spends : Spends next pending) :
    ∀ (fuel : Nat) (stack visited : List α), stack.length + pending visited < fuel →
      Explored next hit stack visited →
      ∃ found, walk next hit fuel stack visited = some found ∧
        (found = true ↔ HitBehind next hit stack) := by
  intro fuel
  induction fuel with
  | zero => exact fun _ _ short => (Nat.not_lt_zero _ short).elim
  | succ fuel ih =>
      intro stack visited short explored
      cases stack with
      | nil =>
          refine ⟨false, rfl, iff_of_false Bool.false_ne_true ?_⟩
          rintro ⟨_, member, _⟩
          exact List.not_mem_nil member
      | cons node stack =>
          rw [List.length_cons] at short
          rw [walk]
          by_cases seen : node ∈ visited
          · rw [if_pos seen, hitBehind_skip explored seen]
            exact ih stack visited (by omega) (explored.skip seen)
          · rw [if_neg seen]
            cases found : hit node with
            | true =>
                exact ⟨true, rfl, iff_of_true rfl ⟨node, List.mem_cons_self, node, .refl, found⟩⟩
            | false =>
                rw [if_neg Bool.false_ne_true, hitBehind_visit found]
                have spent := spends node visited seen
                refine ih _ _ ?_ (explored.visit found)
                rw [List.length_append, List.length_reverse]
                omega

end Walks
