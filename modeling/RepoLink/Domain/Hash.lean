import RepoLink.Domain.Handles
import RepoLink.Library.ShiftRegister

/-!
Minting of task hashes: `random_lowercase_base32` of `domain-task`, over a stream of UUIDs.
-/

namespace RepoLink

def minHashLen : Nat := 3

def maxHashLen : Nat := 16

/-- `Uuid::as_bytes`. -/
structure UuidBytes where
  bytes : List UInt8
  sized : bytes.length = 16

def base32Alphabet : List Char := "abcdefghijklmnopqrstuvwxyz234567".toList

theorem base32Alphabet_length : base32Alphabet.length = 32 := by decide

theorem base32Index_lt (acc : BitVec 64) (bits : Nat) :
    ((acc >>> bits) &&& 0b11111).toNat < base32Alphabet.length := by
  rw [base32Alphabet_length, BitVec.toNat_and]
  exact Nat.and_lt_two_pow _ (n := 5) (by decide)

/-- The variables of `random_lowercase_base32`; `bits` stays below 13. -/
structure Base32State where
  out : List Char
  acc : BitVec 64
  bits : Nat
deriving DecidableEq, Repr

/-- `while bits >= 5 && out.len() < length { .. }`. -/
def emitSymbols (length : Nat) (state : Base32State) : Base32State :=
  if 5 ≤ state.bits ∧ state.out.length < length then
    let bits := state.bits - 5
    let symbol := base32Alphabet.get ⟨_, base32Index_lt state.acc bits⟩
    emitSymbols length { state with bits, out := state.out ++ [symbol] }
  else state
termination_by state.bits

def pushByte (byte : UInt8) (state : Base32State) : Base32State :=
  { state with
    acc := (state.acc <<< 8) ||| byte.toBitVec.setWidth 64
    bits := state.bits + 8 }

/-- `for &b in uuid.as_bytes() { .. }`, left early once the text is long enough. -/
def absorbBytes (length : Nat) : List UInt8 → Base32State → Base32State
  | [], state => state
  | byte :: rest, state =>
    let emitted := emitSymbols length (pushByte byte state)
    if length ≤ emitted.out.length then emitted else absorbBytes length rest emitted

/-- `while out.len() < length { .. }`: each turn draws the next UUID and takes one unit of fuel. -/
def drawBlocks (uuids : Nat → UuidBytes) (length : Nat) : Nat → Nat → Base32State → Option Base32State
  | 0, _, state => if state.out.length < length then none else some state
  | fuel + 1, drawn, state =>
    if state.out.length < length then
      drawBlocks uuids length fuel (drawn + 1) (absorbBytes length (uuids drawn).bytes state)
    else some state

def randomLowercaseBase32 (fuel : Nat) (uuids : Nat → UuidBytes) (length : Nat) : Option String :=
  (drawBlocks uuids length fuel 0 ⟨[], 0, 0⟩).map fun state => String.ofList state.out

end RepoLink
