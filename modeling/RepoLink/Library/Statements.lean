import Mathlib.Data.List.MinMax

/-!
SQL statements that touch many rows of a table with unique indexes. Uniqueness is checked row by
row, so a statement may fail half way even where its result would be in order.
-/

namespace Statements

variable {ρ : Type}

section Rows

variable (clash : ρ → ρ → Prop) [DecidableRel clash]

def insertAll : List ρ → List ρ → Option (List ρ)
  | table, [] => some table
  | table, row :: rest =>
    if ∃ other ∈ table, clash row other then none else insertAll (table ++ [row]) rest

def updateAll (change : ρ → ρ) : List ρ → List ρ → Option (List ρ)
  | done, [] => some done
  | done, row :: rest =>
    if ∃ other ∈ done ++ rest, clash (change row) other then none
    else updateAll change (done ++ [change row]) rest

variable {clash}

theorem insertAll_ok (symm : ∀ {left right}, clash left right → clash right left) :
    ∀ {rows table : List ρ}, (table ++ rows).Pairwise (fun left right => ¬clash left right) →
      insertAll clash table rows = some (table ++ rows) := by
  intro rows
  induction rows with
  | nil => intro table _; rw [insertAll, List.append_nil]
  | cons row rest ih =>
      intro table apart
      have fits : ¬∃ other ∈ table, clash row other := by
        rintro ⟨other, member, clashes⟩
        exact (List.pairwise_append.mp apart).2.2 other member row List.mem_cons_self (symm clashes)
      rw [List.append_cons table row rest] at apart ⊢
      rw [insertAll, if_neg fits]
      exact ih apart

theorem updateAll_ok {change : ρ → ρ} (symm : ∀ {left right}, clash left right → clash right left) :
    ∀ {rows done : List ρ},
      (done ++ rows.map change).Pairwise (fun left right => ¬clash left right) →
      (∀ row ∈ rows, ∀ other ∈ rows, clash (change row) other → clash (change row) (change other)) →
      updateAll clash change done rows = some (done ++ rows.map change) := by
  intro rows
  induction rows with
  | nil => intro done _ _; rw [updateAll, List.map_nil, List.append_nil]
  | cons row rest ih =>
      intro done apart clear
      rw [List.map_cons] at apart ⊢
      obtain ⟨_, later, across⟩ := List.pairwise_append.mp apart
      have fits : ¬∃ other ∈ done ++ rest, clash (change row) other := by
        rintro ⟨other, member, clashes⟩
        rcases List.mem_append.mp member with before | after
        · exact across other before (change row) List.mem_cons_self (symm clashes)
        · exact (List.pairwise_cons.mp later).1 (change other) (List.mem_map_of_mem after)
            (clear row List.mem_cons_self other (List.mem_cons_of_mem _ after) clashes)
      rw [List.append_cons done (change row) (rest.map change)] at apart ⊢
      rw [updateAll, if_neg fits]
      exact ih apart fun first inRest second alsoInRest =>
        clear first (List.mem_cons_of_mem _ inRest) second (List.mem_cons_of_mem _ alsoInRest)

end Rows

section Best

variable {κ : Type} [LinearOrder κ] (rank : ρ → κ) (group : ρ → ρ → Prop) [DecidableRel group]

def unbeaten (rows : List ρ) : List ρ :=
  rows.filter fun row => ¬∃ other ∈ rows, group row other ∧ rank row < rank other

variable {rank group}

theorem mem_unbeaten {rows : List ρ} {row : ρ} : row ∈ unbeaten rank group rows ↔
    row ∈ rows ∧ ∀ other ∈ rows, group row other → rank other ≤ rank row := by
  simp only [unbeaten, List.mem_filter, decide_eq_true_eq, not_exists, not_and, not_lt]

theorem exists_unbeaten
    (trans : ∀ {first second third}, group first second → group second third → group first third)
    {rows : List ρ} {row : ρ} (member : row ∈ rows) (self : group row row) :
    ∃ best ∈ unbeaten rank group rows, group row best ∧ rank row ≤ rank best := by
  have listed : row ∈ rows.filter fun other => group row other :=
    List.mem_filter.mpr ⟨member, decide_eq_true self⟩
  cases found : (rows.filter fun other => group row other).argmax rank with
  | none =>
      rw [List.argmax_eq_none] at found
      rw [found] at listed
      cases listed
  | some best =>
      obtain ⟨inRows, same⟩ := List.mem_filter.mp (List.argmax_mem found)
      have same : group row best := of_decide_eq_true same
      refine ⟨best, mem_unbeaten.mpr ⟨inRows, fun other inOthers beside => ?_⟩, same,
        List.le_of_mem_argmax listed found⟩
      exact List.le_of_mem_argmax
        (List.mem_filter.mpr ⟨inOthers, decide_eq_true (trans same beside)⟩) found

theorem unbeaten_unique (symm : ∀ {left right}, group left right → group right left)
    {rows : List ρ} (apart : ∀ left ∈ rows, ∀ right ∈ rows, rank left = rank right → left = right)
    {left right : ρ} (inLeft : left ∈ unbeaten rank group rows)
    (inRight : right ∈ unbeaten rank group rows) (beside : group left right) : left = right := by
  obtain ⟨leftRow, leftBest⟩ := mem_unbeaten.mp inLeft
  obtain ⟨rightRow, rightBest⟩ := mem_unbeaten.mp inRight
  exact apart left leftRow right rightRow
    (le_antisymm (rightBest left leftRow (symm beside)) (leftBest right rightRow beside))

end Best

end Statements
