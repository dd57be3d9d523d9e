import Mathlib.Data.List.Forall2

/-!
Passes over a list that may fail at every item: what succeeded for the whole list succeeded for
every item, in order.
-/

namespace Traversals

variable {ε α β : Type} {f : α → Except ε β} {g : α → β} {items : List α} {made : List β}

theorem mapM_ok_iff :
    items.mapM f = .ok made ↔ List.Forall₂ (fun item value => f item = .ok value) items made := by
  induction items generalizing made with
  | nil =>
      rw [List.forall₂_nil_left_iff]
      exact ⟨fun ran => (Except.ok.inj ran).symm, fun none => by rw [none]; rfl⟩
  | cons item rest ih =>
      rw [List.mapM_cons, List.forall₂_cons_left_iff]
      constructor
      · intro ran
        cases first : f item with
        | error error =>
            rw [first] at ran
            cases ran
        | ok value =>
            rw [first] at ran
            cases later : rest.mapM f with
            | error error =>
                rw [later] at ran
                cases ran
            | ok values =>
                rw [later] at ran
                cases ran
                exact ⟨value, values, rfl, ih.mp later, rfl⟩
      · rintro ⟨value, values, first, later, rfl⟩
        rw [first, ih.mpr later]
        rfl

theorem mapM_ends {Good : α → β → Prop} :
    (∀ item ∈ items, ∃ value, f item = .ok value ∧ Good item value) →
      ∃ made, items.mapM f = .ok made ∧ List.Forall₂ Good items made := by
  induction items with
  | nil => exact fun _ => ⟨[], rfl, .nil⟩
  | cons item rest ih =>
      intro each
      obtain ⟨value, first, good⟩ := each item List.mem_cons_self
      obtain ⟨values, later, goods⟩ := ih fun other member =>
        each other (List.mem_cons_of_mem item member)
      refine ⟨value :: values, ?_, .cons good goods⟩
      rw [List.mapM_cons, first, later]
      rfl

theorem mapM_ok (succeeds : ∀ item ∈ items, f item = .ok (g item)) :
    items.mapM f = .ok (items.map g) := by
  rw [mapM_ok_iff, List.forall₂_map_right_iff, List.forall₂_same]
  exact succeeds

theorem mapM_ok_each (only : ∀ item value, f item = .ok value → value = g item)
    (ran : items.mapM f = .ok made) :
    (∀ item ∈ items, f item = .ok (g item)) ∧ made = items.map g := by
  have pairs := mapM_ok_iff.mp ran
  have same : made = items.map g := by
    rw [← List.forall₂_eq_eq_eq, List.forall₂_map_right_iff]
    exact pairs.flip.imp fun value item found => only item value found
  rw [same, List.forall₂_map_right_iff, List.forall₂_same] at pairs
  exact ⟨pairs, same⟩

end Traversals
