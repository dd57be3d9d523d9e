import Mathlib.Algebra.GroupWithZero.Nat
import Mathlib.Data.List.Basic

/-!
A shift register regroups the bits of a stream of words, first bit first: a word is pushed in at the
low end, a group is read off above the bits that stay. The capacity only has to hold what is pending.
-/

namespace ShiftRegister

variable {capacity width : Nat}

def streamOf (words : Nat → BitVec width) (position : Nat) : Bool :=
  (words (position / width)).getMsbD (position % width)

def bitsAt (stream : Nat → Bool) (start size : Nat) : List Bool :=
  (List.range size).map fun offset => stream (start + offset)

def valueOf (bits : List Bool) : Nat := (BitVec.ofBoolListBE bits).toNat

/-- The low `count` bits of the register are the last ones before `position`. -/
def Holds (stream : Nat → Bool) (register : BitVec capacity) (count position : Nat) : Prop :=
  count ≤ position ∧ ∀ bit < count, register.getLsbD bit = stream (position - 1 - bit)

variable {stream : Nat → Bool} {register : BitVec capacity} {count position size : Nat}

theorem bitsAt_length : (bitsAt stream position size).length = size := by simp [bitsAt]

theorem bitsAt_append (start first second : Nat) :
    bitsAt stream start first ++ bitsAt stream (start + first) second =
      bitsAt stream start (first + second) := by
  rw [bitsAt, bitsAt, bitsAt, List.range_add, List.map_append, List.map_map]
  simp only [Function.comp_def, Nat.add_assoc]

theorem groups_flatten (stream : Nat → Bool) (size : Nat) : ∀ groups,
    (List.range groups).flatMap (fun index => bitsAt stream (size * index) size) =
      bitsAt stream 0 (size * groups) := by
  intro groups
  induction groups with
  | zero => simp [bitsAt]
  | succ groups ih =>
      have joined : bitsAt stream 0 (size * groups) ++ bitsAt stream (0 + size * groups) size =
          bitsAt stream 0 (size * groups + size) := bitsAt_append 0 (size * groups) size
      rw [Nat.zero_add] at joined
      rw [List.range_succ, List.flatMap_append, ih, List.flatMap_singleton, joined, Nat.mul_succ]

theorem valueOf_testBit (bits : List Bool) (bit : Nat) :
    (valueOf bits).testBit bit =
      (decide (bit < bits.length) && bits.getD (bits.length - 1 - bit) false) := by
  rw [valueOf, BitVec.testBit_toNat, BitVec.getLsbD_ofBoolListBE]

theorem valueOf_lt (bits : List Bool) : valueOf bits < 2 ^ bits.length := by
  rw [valueOf]
  exact BitVec.isLt _

theorem bits_of_valueOf (bits : List Bool) :
    (List.range bits.length).map (BitVec.ofNat bits.length (valueOf bits)).getMsbD = bits := by
  rw [valueOf, BitVec.ofNat_toNat, BitVec.setWidth_eq]
  refine List.ext_getElem (by simp) fun index _ bound => ?_
  simp [bound]

theorem holds_empty (stream : Nat → Bool) (register : BitVec capacity) : Holds stream register 0 0 :=
  ⟨Nat.le_refl 0, fun bit below => by omega⟩

theorem Holds.push {words : Nat → BitVec width} (fits : count + width ≤ capacity) (index : Nat)
    (holds : Holds (streamOf words) register count (width * index)) :
    Holds (streamOf words) ((register <<< width) ||| (words index).setWidth capacity)
      (count + width) (width * (index + 1)) := by
  rw [Nat.mul_succ]
  refine ⟨by have := holds.1; omega, fun bit below => ?_⟩
  rw [BitVec.getLsbD_or, BitVec.getLsbD_shiftLeft, BitVec.getLsbD_setWidth]
  by_cases low : bit < width
  · have place : width * index + width - 1 - bit = width * index + (width - 1 - bit) := by omega
    have offset : width - 1 - bit < width := by omega
    have bound : bit < capacity := by omega
    rw [place, streamOf, Nat.mul_add_div (by omega), Nat.div_eq_of_lt offset, Nat.add_zero,
      Nat.mul_add_mod, Nat.mod_eq_of_lt offset, BitVec.getMsbD_eq_getLsbD]
    have back : width - 1 - (width - 1 - bit) = bit := by omega
    simp [low, bound, offset, back]
  · have place : width * index + width - 1 - bit = width * index - 1 - (bit - width) := by omega
    have above : (words index).getLsbD bit = false := BitVec.getLsbD_of_ge _ _ (by omega)
    have bound : bit < capacity := by omega
    rw [place, ← holds.2 (bit - width) (by omega)]
    simp [low, bound, above]

theorem Holds.keep (holds : Holds stream register (count + size) position) :
    Holds stream register count position :=
  ⟨by have := holds.1; omega, fun bit below => holds.2 bit (by omega)⟩

theorem mask_getLsbD (capacity size bit : Nat) :
    (BitVec.ofNat capacity (2 ^ size - 1)).getLsbD bit =
      (decide (bit < capacity) && decide (bit < size)) := by
  rw [BitVec.getLsbD_ofNat, Nat.testBit_two_pow_sub_one]

theorem Holds.group (holds : Holds stream register (count + size) position) :
    ((register >>> count) &&& BitVec.ofNat capacity (2 ^ size - 1)).toNat =
      valueOf (bitsAt stream (position - (count + size)) size) := by
  refine Nat.eq_of_testBit_eq fun bit => ?_
  rw [BitVec.testBit_toNat, BitVec.getLsbD_and, BitVec.getLsbD_ushiftRight, mask_getLsbD,
    valueOf_testBit, bitsAt_length]
  by_cases below : bit < size
  · have enough := holds.1
    have offset : size - 1 - bit < size := by omega
    have place : position - (count + size) + (size - 1 - bit) = position - 1 - (count + bit) := by
      omega
    have listed : (bitsAt stream (position - (count + size)) size).getD (size - 1 - bit) false =
        stream (position - 1 - (count + bit)) := by
      simp [bitsAt, offset, place]
    rw [listed, ← holds.2 (count + bit) (by omega)]
    cases set : register.getLsbD (count + bit) with
    | false => simp
    | true =>
        have inside := BitVec.lt_of_getLsbD set
        simp [below, show bit < capacity by omega]
  · simp [below]

end ShiftRegister
