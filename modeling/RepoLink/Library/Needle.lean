import Mathlib.Data.List.Basic

/-!
First occurrences of a needle in a text, and regions fenced by two markers. A separator that
neither marker has keeps what is inside of a fence apart from what is around it, so that the
markers are found again where the fence was put.
-/

namespace Needle

variable {α : Type} [DecidableEq α]

/-- Where the needle begins for the first time. -/
def find (needle : List α) : List α → Option Nat
  | [] => if needle.isEmpty then some 0 else none
  | first :: rest =>
    if needle.isPrefixOf (first :: rest) then some 0 else (find needle rest).map (· + 1)

omit [DecidableEq α] in
theorem prefix_drop_congr {needle left right : List α} {bound place : Nat}
    (same : left.take bound = right.take bound) (within : place + needle.length ≤ bound) :
    needle <+: left.drop place ↔ needle <+: right.drop place := by
  have window : ∀ text : List α, (text.drop place).take needle.length =
      ((text.take bound).drop place).take needle.length := by
    intro text
    rw [List.drop_take, List.take_take, Nat.min_eq_left (by omega)]
  rw [List.prefix_iff_eq_take, List.prefix_iff_eq_take, window left, window right, same]

omit [DecidableEq α] in
theorem getElem?_of_prefix_drop {needle text : List α} {place index : Nat}
    (begins : needle <+: text.drop place) (inside : index < needle.length) :
    text[place + index]? = needle[index]? := by
  obtain ⟨rest, split⟩ := begins
  rw [← List.getElem?_drop, ← split, List.getElem?_append_left inside]

omit [DecidableEq α] in
theorem not_across {needle text : List α} {separator : α} {place index : Nat}
    (absent : separator ∉ needle) (found : text[index]? = some separator) (starts : place ≤ index)
    (ends : index < place + needle.length) : ¬needle <+: text.drop place := by
  intro begins
  have same := @getElem?_of_prefix_drop _ _ _ _ (index - place) begins (by omega)
  rw [Nat.add_sub_cancel' starts, found] at same
  exact absent (List.mem_of_getElem? same.symm)

theorem find_some_iff {needle text : List α} {place : Nat} : find needle text = some place ↔
    place ≤ text.length ∧ needle <+: text.drop place ∧
      ∀ earlier < place, ¬needle <+: text.drop earlier := by
  induction text generalizing place with
  | nil =>
      rw [find]
      cases needle with
      | nil =>
          simp only [List.isEmpty_nil, if_true, Option.some.injEq, List.length_nil,
            Nat.le_zero, List.nil_prefix, not_true, imp_false, true_and]
          constructor
          · rintro rfl
            exact ⟨rfl, fun earlier => Nat.not_lt_zero earlier⟩
          · exact fun facts => facts.1.symm
      | cons first rest => simp
  | cons first rest ih =>
      rw [find]
      by_cases here : needle.isPrefixOf (first :: rest) = true
      · rw [if_pos here]
        have begins := List.isPrefixOf_iff_prefix.mp here
        constructor
        · intro found
          cases found
          exact ⟨Nat.zero_le _, begins, fun earlier before => absurd before (Nat.not_lt_zero earlier)⟩
        · rintro ⟨_, _, none⟩
          cases place with
          | zero => rfl
          | succ place => exact absurd begins (none 0 (Nat.succ_pos place))
      · rw [if_neg here]
        have missed : ¬needle <+: first :: rest := mt List.isPrefixOf_iff_prefix.mpr here
        cases place with
        | zero =>
            constructor
            · intro found
              obtain ⟨_, _, zero⟩ := Option.map_eq_some_iff.mp found
              omega
            · exact fun facts => absurd facts.2.1 missed
        | succ place =>
            rw [List.length_cons, List.drop_succ_cons]
            constructor
            · intro found
              obtain ⟨inRest, restFound, same⟩ := Option.map_eq_some_iff.mp found
              cases Nat.succ.inj same
              obtain ⟨bound, begins, none⟩ := ih.mp restFound
              refine ⟨Nat.succ_le_succ bound, begins, fun earlier before => ?_⟩
              cases earlier with
              | zero => exact missed
              | succ earlier => exact none earlier (Nat.lt_of_succ_lt_succ before)
            · rintro ⟨bound, begins, none⟩
              refine Option.map_eq_some_iff.mpr ⟨place, ih.mpr ⟨Nat.le_of_succ_le_succ bound, begins,
                fun earlier before => ?_⟩, rfl⟩
              exact none (earlier + 1) (Nat.succ_lt_succ before)

theorem find_none_iff {needle text : List α} : find needle text = none ↔
    ∀ place, ¬needle <+: text.drop place := by
  induction text with
  | nil =>
      rw [find]
      cases needle with
      | nil => simp
      | cons first rest => simp
  | cons first rest ih =>
      rw [find]
      by_cases here : needle.isPrefixOf (first :: rest) = true
      · rw [if_pos here]
        constructor
        · intro missing
          cases missing
        · exact fun none => absurd (List.isPrefixOf_iff_prefix.mp here) (none 0)
      · rw [if_neg here, Option.map_eq_none_iff, ih]
        constructor
        · intro none place
          cases place with
          | zero => exact mt List.isPrefixOf_iff_prefix.mpr here
          | succ place => exact none place
        · exact fun none place => none (place + 1)

theorem filled_of_missing {needle text : List α} (missing : find needle text = none) :
    needle ≠ [] := by
  rintro rfl
  exact find_none_iff.mp missing 0 List.nil_prefix

omit [DecidableEq α] in
theorem within_of_prefix_drop {needle text : List α} {place : Nat} (filled : needle ≠ [])
    (begins : needle <+: text.drop place) : place + needle.length ≤ text.length := by
  have fits := begins.length_le
  have positive := List.length_pos_iff.mpr filled
  rw [List.length_drop] at fits
  omega

omit [DecidableEq α] in
theorem begins_joined_iff {needle left right : List α} {separator : α} {place : Nat}
    (filled : needle ≠ []) (absent : separator ∉ needle) :
    needle <+: (left ++ separator :: right).drop place ↔ needle <+: left.drop place ∨
      ∃ rest, place = left.length + (rest + 1) ∧ needle <+: right.drop rest := by
  constructor
  · intro begins
    by_cases before : place + needle.length ≤ left.length
    · refine .inl ((prefix_drop_congr ?_ before).mp begins)
      rw [List.take_left', List.take_length]
      rfl
    · by_cases starts : place ≤ left.length
      · refine absurd begins (not_across absent ?_ starts (by omega))
        rw [List.getElem?_append_right (Nat.le_refl _), Nat.sub_self, List.getElem?_cons_zero]
      · obtain ⟨rest, behind⟩ : ∃ rest, place = left.length + (rest + 1) :=
          ⟨place - left.length - 1, by omega⟩
        rw [behind, List.drop_length_add_append, List.drop_succ_cons] at begins
        exact .inr ⟨rest, behind, begins⟩
  · rintro (begins | ⟨rest, rfl, begins⟩)
    · have ends := within_of_prefix_drop filled begins
      have positive := List.length_pos_iff.mpr filled
      rw [List.drop_append_of_le_length (by omega)]
      exact begins.trans (List.prefix_append _ _)
    · rwa [List.drop_length_add_append, List.drop_succ_cons]

theorem find_joined {needle left right : List α} {separator : α} (absent : separator ∉ needle)
    (noneLeft : find needle left = none) (noneRight : find needle right = none) :
    find needle (left ++ separator :: right) = none := by
  have filled := filled_of_missing noneLeft
  rw [find_none_iff] at noneLeft noneRight ⊢
  intro place begins
  rcases (begins_joined_iff filled absent).mp begins with inLeft | ⟨rest, _, inRight⟩
  · exact noneLeft place inLeft
  · exact noneRight rest inRight

/-- Two markers and a separator that is in neither. No marker is a part of the other one, and the
mark that both begin with is not repeated in the closing one. -/
structure Fence (α : Type) [DecidableEq α] where
  opening : List α
  closing : List α
  separator : α
  mark : α
  opensLine : separator ∉ opening
  closesLine : separator ∉ closing
  opensMark : opening.head? = some mark
  closesMark : closing.head? = some mark
  markOnce : mark ∉ closing.tail
  closingApart : find closing opening = none
  openingApart : find opening closing = none

namespace Fence

variable {fence : Fence α}

def block (fence : Fence α) (body : List α) : List α :=
  fence.opening ++ fence.separator :: (body ++ fence.separator :: fence.closing)

def Clear (fence : Fence α) (before : List α) : Prop :=
  ∀ place < before.length, ¬fence.opening <+: (before ++ fence.opening).drop place ∧
    ¬fence.closing <+: (before ++ fence.opening).drop place

/-- Neither marker is in a body. -/
def Free (fence : Fence α) (body : List α) : Prop :=
  find fence.opening body = none ∧ find fence.closing body = none

instance (body : List α) : Decidable (fence.Free body) :=
  inferInstanceAs (Decidable (_ ∧ _))

theorem clear_of_find {text : List α} {start stop : Nat}
    (opens : find fence.opening text = some start) (closes : find fence.closing text = some stop)
    (ordered : start < stop) : fence.Clear (text.take start) ∧ text =
      text.take start ++ fence.opening ++ text.drop (start + fence.opening.length) := by
  obtain ⟨within, begins, noneOpens⟩ := find_some_iff.mp opens
  obtain ⟨_, _, noneCloses⟩ := find_some_iff.mp closes
  have length : (text.take start).length = start := by
    rw [List.length_take, Nat.min_eq_left within]
  obtain ⟨rest, split⟩ := begins
  have whole : text = text.take start ++ fence.opening ++ rest := by
    rw [List.append_assoc, split, List.take_append_drop]
  have behind : text.drop (start + fence.opening.length) = rest := by
    rw [← List.drop_drop, ← split, List.drop_left]
  have upTo : ∀ place, place < start → ∀ needle : List α,
      needle <+: (text.take start ++ fence.opening).drop place → needle <+: text.drop place := by
    intro place before needle found
    rw [whole, List.drop_append_of_le_length (by rw [List.length_append, length]; omega)]
    exact found.trans (List.prefix_append _ _)
  refine ⟨fun place before => ?_, by rw [behind]; exact whole⟩
  rw [length] at before
  exact ⟨fun found => noneOpens place before (upTo place before _ found),
    fun found => noneCloses place (Nat.lt_trans before ordered) (upTo place before _ found)⟩

theorem clear_of_free {before : List α} (free : fence.Free before) :
    fence.Clear (before ++ [fence.separator]) := by
  have noneBehind : ∀ needle : List α, find needle before = none → fence.separator ∉ needle →
      ∀ place < (before ++ [fence.separator]).length,
        ¬needle <+: ((before ++ [fence.separator]) ++ fence.opening).drop place := by
    intro needle missing absent place inside begins
    rw [List.length_append, List.length_singleton] at inside
    rw [List.append_assoc, List.singleton_append] at begins
    by_cases ends : place + needle.length ≤ before.length
    · refine find_none_iff.mp missing place ((prefix_drop_congr ?_ ends).mp begins)
      rw [List.take_left', List.take_length]
      rfl
    · refine not_across absent ?_ (Nat.le_of_lt_succ inside) (by omega) begins
      rw [List.getElem?_append_right (Nat.le_refl _), Nat.sub_self, List.getElem?_cons_zero]
  exact fun place inside => ⟨noneBehind _ free.1 fence.opensLine place inside,
    noneBehind _ free.2 fence.closesLine place inside⟩

end Fence

end Needle
