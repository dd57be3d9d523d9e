import Mathlib.Data.List.Basic

/-!
A list read page by page. The first pages make up the front of the list, and a page that is not
full is the last one.
-/

namespace Paging

variable {α : Type}

/-- The pages count from 0 on. -/
def page (size index : Nat) (list : List α) : List α := (list.drop (index * size)).take size

theorem page_length (size index : Nat) (list : List α) :
    (page size index list).length = min size (list.length - index * size) := by
  rw [page, List.length_take, List.length_drop]

theorem take_page (size index : Nat) (list : List α) :
    list.take (index * size) ++ page size index list = list.take ((index + 1) * size) := by
  rw [page, Nat.succ_mul, List.take_add]

theorem pages_flatten (size count : Nat) (list : List α) :
    ((List.range count).map (page size · list)).flatten = list.take (count * size) := by
  induction count with
  | zero => simp
  | succ count ih =>
      rw [List.range_succ, List.map_append, List.flatten_append, ih, List.map_singleton,
        List.flatten_singleton, take_page]

theorem take_of_short {size index : Nat} {list : List α}
    (short : (page size index list).length < size) : list.take ((index + 1) * size) = list := by
  rw [page_length] at short
  refine List.take_of_length_le ?_
  rw [Nat.succ_mul]
  omega

/-- `list.chunks(size)`. -/
def chunks (size : Nat) (list : List α) : List (List α) :=
  (List.range ((list.length + size - 1) / size)).map (page size · list)

end Paging
