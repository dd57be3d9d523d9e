import Mathlib.Data.List.DropRight

/-!
Lines that keep their breaks: a text cut behind every break, and what its last lines are.
-/

namespace Lines

variable {α : Type} {isBreak : α → Bool}

def split (isBreak : α → Bool) : List α → List (List α)
  | [] => []
  | char :: rest =>
    if isBreak char then [char] :: split isBreak rest
    else
      match split isBreak rest with
      | [] => [[char]]
      | line :: more => (char :: line) :: more

/-- The last lines of a text. -/
def last (isBreak : α → Bool) (count : Nat) (text : List α) : List α :=
  ((split isBreak text).rtake count).flatten

theorem split_flatten (text : List α) : (split isBreak text).flatten = text := by
  induction text with
  | nil => rfl
  | cons char rest ih =>
      rw [split]
      split
      · rw [List.flatten_cons, ih, List.singleton_append]
      · split
        · rename_i empty
          rw [empty] at ih
          rw [← ih]
          rfl
        · rename_i line more shape
          rw [shape] at ih
          rw [← ih]
          rfl

theorem split_append {front : List α} (broken : ∀ ended : front ≠ [],
    isBreak (front.getLast ended) = true) (back : List α) :
    split isBreak (front ++ back) = split isBreak front ++ split isBreak back := by
  induction front with
  | nil => rfl
  | cons char rest ih =>
      rw [List.cons_append, split, split]
      cases rest with
      | nil =>
          have breaks : isBreak char = true := broken (List.cons_ne_nil _ _)
          rw [if_pos breaks, if_pos breaks, List.nil_append]
          rfl
      | cons next more =>
          have tail := ih fun ended => by
            rw [← List.getLast_cons ended]
            exact broken (List.cons_ne_nil _ _)
          rw [tail]
          split
          · rfl
          · cases lines : split isBreak (next :: more) with
            | nil =>
                have whole := @split_flatten _ isBreak (next :: more)
                rw [lines] at whole
                cases whole
            | cons line others => rfl

theorem length_split {text : List α} (filled : text ≠ []) :
    (split isBreak text).length = text.dropLast.countP isBreak + 1 := by
  induction text with
  | nil => exact absurd rfl filled
  | cons char rest ih =>
      rw [split]
      cases rest with
      | nil => split <;> rfl
      | cons next more =>
          have tail := ih (List.cons_ne_nil _ _)
          rw [List.dropLast_cons_of_ne_nil (List.cons_ne_nil _ _), List.countP_cons]
          split
          · rw [List.length_cons, tail]
          · cases lines : split isBreak (next :: more) with
            | nil =>
                rw [lines] at tail
                cases tail
            | cons line others =>
                rw [lines, List.length_cons] at tail
                rw [List.length_cons, tail]

def breaksFrom (isBreak : α → Bool) (text : List α) (place : Nat) : Nat :=
  (text.drop place).dropLast.countP isBreak

theorem breaksFrom_end {text : List α} {place : Nat} (ended : text.length ≤ place + 1) :
    breaksFrom isBreak text place = 0 := by
  have short : (text.drop place).dropLast = [] := by
    rw [← List.length_eq_zero_iff, List.length_dropLast, List.length_drop]
    omega
  rw [breaksFrom, short, List.countP_nil]

theorem breaksFrom_step {text : List α} {place : Nat} {char : α} (found : text[place]? = some char)
    (inside : place + 1 < text.length) : breaksFrom isBreak text place =
      breaksFrom isBreak text (place + 1) + if isBreak char then 1 else 0 := by
  obtain ⟨bound, rfl⟩ := List.getElem?_eq_some_iff.mp found
  have more : text.drop (place + 1) ≠ [] := by
    rw [Ne, List.drop_eq_nil_iff]
    omega
  rw [breaksFrom, breaksFrom, List.drop_eq_getElem_cons bound,
    List.dropLast_cons_of_ne_nil more, List.countP_cons]

theorem last_drop {text : List α} {place count : Nat} {char : α}
    (found : text[place]? = some char) (breaks : isBreak char = true)
    (inside : place + 1 < text.length)
    (counted : breaksFrom isBreak text (place + 1) + 1 = count) :
    last isBreak count text = text.drop (place + 1) := by
  obtain ⟨bound, rfl⟩ := List.getElem?_eq_some_iff.mp found
  have broken : ∀ ended : text.take (place + 1) ≠ [],
      isBreak ((text.take (place + 1)).getLast ended) = true := by
    rw [List.take_add_one, found, Option.toList_some]
    intro ended
    rw [List.getLast_append_singleton]
    exact breaks
  have filled : text.drop (place + 1) ≠ [] := by
    rw [Ne, List.drop_eq_nil_iff]
    omega
  have lines : (split isBreak (text.drop (place + 1))).length = count := by
    rw [length_split filled]
    exact counted
  have cut : split isBreak text =
      split isBreak (text.take (place + 1)) ++ split isBreak (text.drop (place + 1)) := by
    rw [← split_append broken, List.take_append_drop]
  rw [last, cut, List.rtake, List.length_append, lines, Nat.add_sub_cancel, List.drop_left,
    split_flatten]

theorem last_all {text : List α} {count : Nat} (filled : text ≠ [])
    (few : breaksFrom isBreak text 0 < count) : last isBreak count text = text := by
  have lines : (split isBreak text).length ≤ count := by
    rw [length_split filled]
    exact few
  rw [last, List.rtake, Nat.sub_eq_zero_of_le lines, List.drop_zero, split_flatten]

end Lines
