import Mathlib.Logic.Relation

/-!
Directed graphs without cycles, and what one more edge does to them.
-/

namespace Cycles

open Relation

variable {α : Type} {edge wider : α → α → Prop}

def Acyclic (edge : α → α → Prop) : Prop := ∀ node, ¬TransGen edge node node

def Insert (edge : α → α → Prop) (added : α × α) : α → α → Prop :=
  fun source target => edge source target ∨ (source, target) = added

def InsertAll : (α → α → Prop) → List (α × α) → α → α → Prop
  | edge, [] => edge
  | edge, added :: rest => InsertAll (Insert edge added) rest

def Addable : (α → α → Prop) → List (α × α) → Prop
  | _, [] => True
  | edge, added :: rest =>
    ¬ReflTransGen edge added.2 added.1 ∧ Addable (Insert edge added) rest

theorem Acyclic.mono (within : ∀ source target, edge source target → wider source target)
    (acyclic : Acyclic wider) : Acyclic edge :=
  fun node cycle => acyclic node (TransGen.mono within _ _ cycle)

theorem transGen_insert {added : α × α} {source target : α}
    (path : TransGen (Insert edge added) source target) :
    TransGen edge source target ∨
      ReflTransGen (Insert edge added) source added.1 ∧ ReflTransGen edge added.2 target := by
  induction path with
  | single first =>
      rcases first with old | rfl
      · exact .inl (.single old)
      · exact .inr ⟨.refl, .refl⟩
  | tail before last ih =>
      rcases last with old | rfl
      · rcases ih with whole | ⟨toAdded, fromAdded⟩
        · exact .inl (whole.tail old)
        · exact .inr ⟨toAdded, fromAdded.tail old⟩
      · exact .inr ⟨before.to_reflTransGen, .refl⟩

theorem reflTransGen_avoids {added : α × α} {source : α}
    (path : ReflTransGen (Insert edge added) source added.1) :
    ReflTransGen edge source added.1 ∨ ReflTransGen edge added.2 added.1 := by
  rcases reflTransGen_iff_eq_or_transGen.mp path with same | steps
  · exact .inl (same ▸ .refl)
  · rcases transGen_insert steps with old | ⟨_, closes⟩
    · exact .inl old.to_reflTransGen
    · exact .inr closes

theorem acyclic_insert_iff (acyclic : Acyclic edge) (added : α × α) :
    Acyclic (Insert edge added) ↔ ¬ReflTransGen edge added.2 added.1 := by
  have old : ∀ source target, edge source target → Insert edge added source target :=
    fun _ _ => .inl
  constructor
  · intro extended closes
    exact extended added.1 (.head' (.inr rfl) (ReflTransGen.mono old _ _ closes))
  · intro opens node cycle
    rcases transGen_insert cycle with before | ⟨toAdded, fromAdded⟩
    · exact acyclic node before
    · rcases reflTransGen_avoids toAdded with direct | closes
      · exact opens (fromAdded.trans direct)
      · exact opens closes

theorem insertAll_iff {added : List (α × α)} {source target : α} :
    InsertAll edge added source target ↔ edge source target ∨ (source, target) ∈ added := by
  induction added generalizing edge with
  | nil => simp [InsertAll]
  | cons first rest ih =>
      rw [InsertAll, ih, Insert, List.mem_cons, or_assoc]

theorem acyclic_insertAll_iff {added : List (α × α)} (acyclic : Acyclic edge) :
    Acyclic (InsertAll edge added) ↔ Addable edge added := by
  induction added generalizing edge with
  | nil => exact iff_of_true acyclic trivial
  | cons first rest ih =>
      rw [InsertAll, Addable]
      by_cases opens : ReflTransGen edge first.2 first.1
      · refine iff_of_false (fun extended => ?_) fun addable => addable.1 opens
        refine (acyclic_insert_iff acyclic first).mp (extended.mono ?_) opens
        exact fun _ _ held => insertAll_iff.mpr (.inl held)
      · rw [ih ((acyclic_insert_iff acyclic first).mpr opens)]
        exact (and_iff_right opens).symm

end Cycles
