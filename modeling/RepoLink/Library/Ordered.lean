import Mathlib.Data.List.Sort
import Mathlib.Data.List.Nodup

/-!
`ORDER BY` on a column: what the first match in the order is, and that an order does not matter
where at most one row matches.
-/

namespace Ordered

variable {ρ κ : Type} [LinearOrder κ]

def orderBy (key : ρ → κ) (rows : List ρ) : List ρ := rows.insertionSort (key · ≤ key ·)

section Order

variable (key : ρ → κ) (rows : List ρ)

instance orderByTotal : Std.Total (fun left right : ρ => key left ≤ key right) :=
  ⟨fun left right => le_total (key left) (key right)⟩

instance orderByTrans : IsTrans ρ (fun left right => key left ≤ key right) :=
  ⟨fun _ _ _ => le_trans⟩

theorem orderBy_perm : (orderBy key rows).Perm rows := List.perm_insertionSort _ rows

@[simp] theorem mem_orderBy {row : ρ} : row ∈ orderBy key rows ↔ row ∈ rows :=
  List.mem_insertionSort _

theorem orderBy_sorted : (orderBy key rows).Pairwise (key · ≤ key ·) :=
  List.pairwise_insertionSort _ rows

theorem orderBy_map {σ τ : Type} [LinearOrder τ] {column : σ → τ} (change : ρ → σ)
    (keeps : ∀ left right, key left ≤ key right ↔ column (change left) ≤ column (change right)) :
    orderBy column (rows.map change) = (orderBy key rows).map change :=
  (List.map_insertionSort _ _ change rows fun left _ right _ => keeps left right).symm

end Order

section Find

variable {key : ρ → κ}

theorem find?_sorted {holds : ρ → Bool} : ∀ {rows : List ρ}, rows.Pairwise (key · ≤ key ·) →
    ∀ {row : ρ}, rows.find? holds = some row →
      ∀ other ∈ rows, holds other = true → key row ≤ key other := by
  intro rows
  induction rows with
  | nil => intro _ row found; cases found
  | cons first rest ih =>
      intro sorted row found other member held
      obtain ⟨least, sorted⟩ := List.pairwise_cons.mp sorted
      rw [List.find?_cons] at found
      split at found
      · cases found
        rcases List.mem_cons.mp member with rfl | later
        · exact le_rfl
        · exact least other later
      · rename_i skipped
        rcases List.mem_cons.mp member with rfl | later
        · rw [held] at skipped
          cases skipped
        · exact ih sorted found other later held

theorem find?_orderBy_iff {rows : List ρ} (apart : (rows.map key).Nodup) {holds : ρ → Bool}
    {row : ρ} : (orderBy key rows).find? holds = some row ↔
      row ∈ rows ∧ holds row = true ∧ ∀ other ∈ rows, holds other = true → key row ≤ key other := by
  constructor
  · intro found
    refine ⟨(mem_orderBy key rows).mp (List.mem_of_find?_eq_some found), List.find?_some found,
      fun other member held => ?_⟩
    exact find?_sorted (orderBy_sorted key rows) found other ((mem_orderBy key rows).mpr member) held
  · rintro ⟨member, held, least⟩
    have some : ((orderBy key rows).find? holds).isSome := by
      rw [List.find?_isSome]
      exact ⟨row, (mem_orderBy key rows).mpr member, held⟩
    obtain ⟨found, same⟩ := Option.isSome_iff_exists.mp some
    have foundMember := (mem_orderBy key rows).mp (List.mem_of_find?_eq_some same)
    have keys : key found = key row := le_antisymm
      (find?_sorted (orderBy_sorted key rows) same row ((mem_orderBy key rows).mpr member) held)
      (least found foundMember (List.find?_some same))
    rw [same, List.inj_on_of_nodup_map apart foundMember member keys]

end Find

section Unique

variable {σ : Type}

theorem find?_unique {holds : ρ → Bool} {rows : List ρ}
    (unique : ∀ left ∈ rows, ∀ right ∈ rows, holds left = true → holds right = true → left = right)
    {row : ρ} : rows.find? holds = some row ↔ row ∈ rows ∧ holds row = true := by
  constructor
  · intro found
    exact ⟨List.mem_of_find?_eq_some found, List.find?_some found⟩
  · rintro ⟨member, held⟩
    obtain ⟨other, found⟩ := Option.isSome_iff_exists.mp
      (List.find?_isSome.mpr ⟨row, member, held⟩)
    rw [found, unique other (List.mem_of_find?_eq_some found) row member (List.find?_some found)
      held]

theorem find?_perm {holds : ρ → Bool} {left right : List ρ} (perm : left.Perm right)
    (unique : ∀ one ∈ right, ∀ other ∈ right, holds one = true → holds other = true → one = other) :
    left.find? holds = right.find? holds := by
  refine Option.ext fun row => ?_
  rw [find?_unique unique, find?_unique fun one first other second =>
    unique one (perm.mem_iff.mp first) other (perm.mem_iff.mp second), perm.mem_iff]

theorem find?_perm_key [DecidableEq σ] {column : ρ → σ} {left right : List ρ}
    (perm : left.Perm right) (apart : (right.map column).Nodup) (wanted : σ) :
    left.find? (fun row => column row = wanted) = right.find? fun row => column row = wanted :=
  find?_perm perm fun _ first _ second one other => List.inj_on_of_nodup_map apart first second
    ((of_decide_eq_true one).trans (of_decide_eq_true other).symm)

theorem perm_eq_of_short {left right : List ρ} (perm : left.Perm right) (short : right.length ≤ 1) :
    left = right := by
  cases right with
  | nil => exact perm.eq_nil
  | cons first rest =>
      have none : rest = [] := by
        rw [List.length_cons] at short
        exact List.length_eq_zero_iff.mp (by omega)
      rw [none] at perm ⊢
      exact List.perm_singleton.mp perm

end Unique

end Ordered
