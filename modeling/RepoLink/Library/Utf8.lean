import Mathlib.Algebra.GroupWithZero.Nat
import Mathlib.Data.List.Basic

/-!
Texts as lists of scalars, and their UTF-8 bytes. An index into the bytes is a character boundary
exactly if the text splits there, so slicing by bytes and splitting by scalars agree.
-/

namespace Utf8

def encode (text : List Char) : List UInt8 := text.flatMap String.utf8EncodeChar

def size (text : List Char) : Nat := (text.map Char.utf8Size).sum

@[simp] theorem encode_nil : encode [] = [] := rfl

@[simp] theorem encode_cons (char : Char) (text : List Char) :
    encode (char :: text) = String.utf8EncodeChar char ++ encode text := rfl

@[simp] theorem encode_append (left right : List Char) :
    encode (left ++ right) = encode left ++ encode right := List.flatMap_append

@[simp] theorem size_nil : size [] = 0 := rfl

@[simp] theorem size_cons (char : Char) (text : List Char) :
    size (char :: text) = char.utf8Size + size text := by
  simp [size]

@[simp] theorem size_append (left right : List Char) :
    size (left ++ right) = size left + size right := by
  simp [size]

theorem size_replicate (count : Nat) (char : Char) :
    size (List.replicate count char) = count * char.utf8Size := by
  simp [size]

theorem size_le_of_prefix {left right : List Char} (isPart : left <+: right) :
    size left ≤ size right := by
  obtain ⟨rest, rfl⟩ := isPart
  rw [size_append]
  omega

@[simp] theorem length_encode (text : List Char) : (encode text).length = size text := by
  induction text with
  | nil => rfl
  | cons char rest ih => rw [encode_cons, List.length_append, ih, String.length_utf8EncodeChar,
      size_cons]

theorem size_eq_zero {text : List Char} (empty : size text = 0) : text = [] := by
  cases text with
  | nil => rfl
  | cons char rest =>
      have wide := char.utf8Size_pos
      rw [size_cons] at empty
      omega

theorem size_pos {text : List Char} (filled : text ≠ []) : 0 < size text :=
  Nat.pos_of_ne_zero fun empty => filled (size_eq_zero empty)

theorem take_encode (before after : List Char) :
    (encode (before ++ after)).take (size before) = encode before := by
  rw [encode_append, List.take_left' (length_encode before)]

theorem prefix_of_size_le {short long text : List Char} (one : short <+: text)
    (other : long <+: text) (sized : size short ≤ size long) : short <+: long := by
  rcases List.prefix_or_prefix_of_prefix one other with before | ⟨rest, rfl⟩
  · exact before
  · rw [size_append] at sized
    have none : rest = [] := size_eq_zero (by omega)
    exact ⟨[], by rw [none, List.append_nil, List.append_nil]⟩

theorem utf8ByteSize_eq (text : String) : text.utf8ByteSize = size text.toList := by
  have bytes : text.toByteArray = text.toList.utf8Encode := by
    rw [← String.toByteArray_ofList, String.ofList_toList]
  rw [String.utf8ByteSize, bytes, ← length_encode]
  unfold List.utf8Encode encode
  rw [List.size_toByteArray]

section Bytes

def isContinuation (byte : UInt8) : Bool := 0x80 ≤ byte.toNat && byte.toNat < 0xC0

theorem isContinuation_ofNat (value : Nat) : isContinuation (UInt8.ofNat (value % 64 + 128)) := by
  simp only [isContinuation, UInt8.toNat_ofNat', Bool.and_eq_true, decide_eq_true_eq]
  omega

theorem encodeChar_ascii {char : Char} (ascii : char.toNat ≤ 0x7f) :
    String.utf8EncodeChar char = [UInt8.ofNat char.toNat] := if_pos ascii

theorem encodeChar_wide {char : Char} (wide : ¬char.toNat ≤ 0x7f) : ∃ first rest,
    String.utf8EncodeChar char = first :: rest ∧ 0xC0 ≤ first.toNat ∧
      ∀ byte ∈ rest, isContinuation byte = true := by
  have none : ∀ byte ∈ ([] : List UInt8), isContinuation byte = true :=
    fun _ member => (List.not_mem_nil member).elim
  have more {value : Nat} {rest : List UInt8} (others : ∀ byte ∈ rest, isContinuation byte = true) :
      ∀ byte ∈ UInt8.ofNat (value % 64 + 128) :: rest, isContinuation byte = true :=
    List.forall_mem_cons.mpr ⟨isContinuation_ofNat value, others⟩
  change ¬char.val.toNat ≤ 0x7f at wide
  unfold String.utf8EncodeChar
  dsimp only
  rw [if_neg wide]
  split
  · refine ⟨_, _, rfl, ?_, more none⟩
    rw [UInt8.toNat_ofNat']
    omega
  · split
    · refine ⟨_, _, rfl, ?_, more (more none)⟩
      rw [UInt8.toNat_ofNat']
      omega
    · refine ⟨_, _, rfl, ?_, more (more (more none))⟩
      rw [UInt8.toNat_ofNat']
      omega

theorem encodeChar_shape (char : Char) : ∃ first rest,
    String.utf8EncodeChar char = first :: rest ∧ isContinuation first = false ∧
      ∀ byte ∈ rest, isContinuation byte = true := by
  by_cases ascii : char.toNat ≤ 0x7f
  · refine ⟨_, [], encodeChar_ascii ascii, ?_, fun _ member => (List.not_mem_nil member).elim⟩
    simp only [isContinuation, UInt8.toNat_ofNat', Bool.and_eq_false_iff, decide_eq_false_iff_not]
    omega
  · obtain ⟨first, rest, bytes, lead, tail⟩ := encodeChar_wide ascii
    refine ⟨first, rest, bytes, ?_, tail⟩
    simp only [isContinuation, Bool.and_eq_false_iff, decide_eq_false_iff_not]
    omega

theorem ascii_of_mem {char : Char} {byte : UInt8} (member : byte ∈ String.utf8EncodeChar char)
    (ascii : byte.toNat < 0x80) : char.toNat = byte.toNat := by
  by_cases short : char.toNat ≤ 0x7f
  · rw [encodeChar_ascii short] at member
    rw [List.mem_singleton.mp member, UInt8.toNat_ofNat']
    omega
  · obtain ⟨first, rest, bytes, lead, tail⟩ := encodeChar_wide short
    rw [bytes] at member
    rcases List.mem_cons.mp member with rfl | later
    · omega
    · have continues := tail byte later
      simp only [isContinuation, Bool.and_eq_true, decide_eq_true_eq] at continues
      omega

def isBoundary (bytes : List UInt8) (index : Nat) : Bool :=
  index = 0 || index = bytes.length || (bytes[index]?).any fun byte => !isContinuation byte

def splitAt? : List Char → Nat → Option (List Char × List Char)
  | text, 0 => some ([], text)
  | [], _ + 1 => none
  | char :: rest, index =>
    if char.utf8Size ≤ index then
      (splitAt? rest (index - char.utf8Size)).map fun halves => (char :: halves.1, halves.2)
    else none

@[simp] theorem splitAt?_zero (text : List Char) : splitAt? text 0 = some ([], text) := by
  cases text <;> rfl

theorem splitAt?_cons (char : Char) (rest : List Char) {index : Nat} (positive : 0 < index) :
    splitAt? (char :: rest) index =
      if char.utf8Size ≤ index then
        (splitAt? rest (index - char.utf8Size)).map fun halves => (char :: halves.1, halves.2)
      else none := by
  obtain ⟨index, rfl⟩ := Nat.exists_eq_succ_of_ne_zero (Nat.ne_of_gt positive)
  rfl

theorem splitAt?_append (before after : List Char) :
    splitAt? (before ++ after) (size before) = some (before, after) := by
  induction before with
  | nil => exact splitAt?_zero after
  | cons char rest ih =>
      have wide := char.utf8Size_pos
      rw [List.cons_append, size_cons, splitAt?_cons _ _ (by omega), if_pos (by omega),
        Nat.add_sub_cancel_left, ih, Option.map_some]

theorem splitAt?_some : ∀ {text before after : List Char} {index : Nat},
    splitAt? text index = some (before, after) → text = before ++ after ∧ size before = index := by
  intro text
  induction text with
  | nil =>
      intro before after index split
      cases index with
      | zero =>
          cases split
          exact ⟨rfl, rfl⟩
      | succ index => cases split
  | cons char rest ih =>
      intro before after index split
      rcases Nat.eq_zero_or_pos index with rfl | positive
      · cases split
        exact ⟨rfl, rfl⟩
      · rw [splitAt?_cons char rest positive] at split
        split at split
        · rename_i fits
          obtain ⟨⟨left, right⟩, inRest, same⟩ := Option.map_eq_some_iff.mp split
          cases same
          obtain ⟨rfl, sized⟩ := ih inRest
          refine ⟨rfl, ?_⟩
          rw [size_cons, sized]
          omega
        · cases split

/-- A text splits exactly at its character boundaries. -/
theorem isBoundary_eq : ∀ (text : List Char) (index : Nat),
    isBoundary (encode text) index = (splitAt? text index).isSome := by
  intro text
  induction text with
  | nil =>
      intro index
      cases index <;> rfl
  | cons char rest ih =>
      intro index
      rcases Nat.eq_zero_or_pos index with rfl | positive
      · rfl
      obtain ⟨first, others, bytes, lead, tail⟩ := encodeChar_shape char
      have width : (first :: others).length = char.utf8Size := by
        rw [← bytes, String.length_utf8EncodeChar]
      rw [splitAt?_cons char rest positive]
      by_cases inside : index < char.utf8Size
      · -- a continuation byte of the first scalar
        have byteAt : ∃ byte ∈ others, (encode (char :: rest))[index]? = some byte := by
          obtain ⟨offset, rfl⟩ := Nat.exists_eq_succ_of_ne_zero (Nat.ne_of_gt positive)
          have bound : offset < others.length := by
            rw [List.length_cons] at width
            omega
          refine ⟨others[offset], List.getElem_mem bound, ?_⟩
          rw [encode_cons, bytes, List.getElem?_append_left (by rw [width]; exact inside),
            List.getElem?_cons_succ, List.getElem?_eq_getElem bound]
        obtain ⟨byte, member, found⟩ := byteAt
        have short : ¬index = char.utf8Size + size rest := by omega
        rw [if_neg (Nat.not_le.mpr inside), isBoundary, found]
        simp [Nat.ne_of_gt positive, short, tail byte member]
      · have past : (encode (char :: rest))[index]? = (encode rest)[index - char.utf8Size]? := by
          rw [encode_cons, List.getElem?_append_right, String.length_utf8EncodeChar]
          rw [String.length_utf8EncodeChar]
          omega
        have ends : index = (encode (char :: rest)).length ↔
            index - char.utf8Size = (encode rest).length := by
          rw [length_encode, length_encode, size_cons]
          omega
        rw [if_pos (Nat.le_of_not_lt inside), Option.isSome_map, ← ih, isBoundary, isBoundary, past]
        rcases Nat.eq_zero_or_pos (index - char.utf8Size) with atStart | later
        · -- the first byte of the rest, if there is one
          rw [atStart]
          cases rest with
          | nil =>
              have whole := ends.mpr atStart
              simp [whole]
          | cons next more =>
              obtain ⟨nextFirst, nextOthers, nextBytes, nextLead, _⟩ := encodeChar_shape next
              simp [nextBytes, nextLead]
        · simp only [ends, Nat.ne_of_gt positive, Nat.ne_of_gt later, decide_false, Bool.false_or]

theorem isBoundary_iff {text : List Char} {index : Nat} :
    isBoundary (encode text) index = true ↔
      ∃ before after, text = before ++ after ∧ size before = index := by
  rw [isBoundary_eq, Option.isSome_iff_exists]
  constructor
  · rintro ⟨⟨before, after⟩, split⟩
    exact ⟨before, after, splitAt?_some split⟩
  · rintro ⟨before, after, rfl, rfl⟩
    exact ⟨_, splitAt?_append before after⟩

def floorBoundary (bytes : List UInt8) : Nat → Nat
  | 0 => 0
  | cut + 1 => if isBoundary bytes (cut + 1) then cut + 1 else floorBoundary bytes cut

def ceilBoundary (bytes : List UInt8) (index : Nat) : Nat :=
  if index < bytes.length && !isBoundary bytes index then ceilBoundary bytes (index + 1) else index
termination_by bytes.length - index
decreasing_by simp_all; omega

variable (bytes : List UInt8)

theorem floorBoundary_isBoundary (index : Nat) :
    isBoundary bytes (floorBoundary bytes index) = true := by
  induction index with
  | zero => rfl
  | succ cut ih =>
      rw [floorBoundary]
      split
      · assumption
      · exact ih

theorem floorBoundary_le (index : Nat) : floorBoundary bytes index ≤ index := by
  induction index with
  | zero => exact Nat.le_refl 0
  | succ cut ih =>
      rw [floorBoundary]
      split <;> omega

theorem le_floorBoundary {boundary index : Nat} (marks : isBoundary bytes boundary = true)
    (before : boundary ≤ index) : boundary ≤ floorBoundary bytes index := by
  induction index with
  | zero => exact before
  | succ cut ih =>
      rw [floorBoundary]
      split
      · exact before
      · rename_i splits
        refine ih (Nat.le_of_lt_succ (Nat.lt_of_le_of_ne before ?_))
        rintro rfl
        exact splits marks

theorem ceilBoundary_isBoundary {index : Nat} (within : index ≤ bytes.length) :
    isBoundary bytes (ceilBoundary bytes index) = true := by
  fun_induction ceilBoundary bytes index with
  | case1 index splits ih =>
      simp only [Bool.and_eq_true, decide_eq_true_eq] at splits
      exact ih splits.1
  | case2 index rounded =>
      rcases Nat.eq_or_lt_of_le within with rfl | inside
      · simp [isBoundary]
      · simpa [inside] using rounded

theorem le_ceilBoundary (index : Nat) : index ≤ ceilBoundary bytes index := by
  fun_induction ceilBoundary bytes index with
  | case1 index splits ih => exact Nat.le_of_succ_le ih
  | case2 index rounded => exact Nat.le_refl index

theorem ceilBoundary_le {boundary index : Nat} (marks : isBoundary bytes boundary = true)
    (behind : index ≤ boundary) : ceilBoundary bytes index ≤ boundary := by
  fun_induction ceilBoundary bytes index with
  | case1 index splits ih =>
      simp only [Bool.and_eq_true, Bool.not_eq_true'] at splits
      refine ih (Nat.lt_of_le_of_ne behind ?_)
      rintro rfl
      exact absurd marks (Bool.eq_false_iff.mp splits.2)
  | case2 index rounded => exact behind

theorem window_exists (text : List Char) {start stop : Nat} (ordered : start ≤ stop)
    (within : stop ≤ size text) : ∃ front part back, text = front ++ part ++ back ∧
      size front = floorBoundary (encode text) start ∧
      size (front ++ part) = ceilBoundary (encode text) stop := by
  have fits : stop ≤ (encode text).length := by rwa [length_encode]
  obtain ⟨front, after, split, floor⟩ := isBoundary_iff.mp (floorBoundary_isBoundary _ start)
  obtain ⟨upTo, back, splitUpTo, ceil⟩ := isBoundary_iff.mp (ceilBoundary_isBoundary _ fits)
  have sizes : size front ≤ size upTo := by
    rw [floor, ceil]
    exact Nat.le_trans (floorBoundary_le _ start) (Nat.le_trans ordered (le_ceilBoundary _ stop))
  obtain ⟨part, rfl⟩ := prefix_of_size_le ⟨after, split.symm⟩ ⟨back, splitUpTo.symm⟩ sizes
  exact ⟨front, part, back, splitUpTo, floor, ceil⟩

end Bytes

end Utf8
