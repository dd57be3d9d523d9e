import RepoLink.Domain.Hash

/-!
Minting repacks bits: the symbols of a minted hash are the bits of the drawn UUIDs, five by five,
across the bounds of bytes and of UUIDs.
-/

namespace RepoLink

open ShiftRegister

def uuidByte (uuids : Nat → UuidBytes) (index : Nat) : UInt8 :=
  (uuids (index / 16)).bytes.getD (index % 16) 0

def uuidBits (uuids : Nat → UuidBytes) : Nat → Bool :=
  streamOf fun index => (uuidByte uuids index).toBitVec

def symbolAt (stream : Nat → Bool) (index : Nat) : Char :=
  base32Alphabet.get ⟨valueOf (bitsAt stream (5 * index) 5), by
    have bound := valueOf_lt (bitsAt stream (5 * index) 5)
    rw [bitsAt_length] at bound
    exact base32Alphabet_length ▸ bound⟩

def spelledBits (text : String) : List Bool :=
  text.toList.flatMap fun symbol =>
    (List.range 5).map (BitVec.ofNat 5 (base32Alphabet.idxOf symbol)).getMsbD

structure Repacks (uuids : Nat → UuidBytes) (length : Nat) (text : String) : Prop where
  counts : text.toList.length = length
  symbols : ∀ index < length, text.toList[index]? = some (symbolAt (uuidBits uuids) index)
  spells : spelledBits text = bitsAt (uuidBits uuids) 0 (5 * length)
  valid : minHashLen ≤ length → length ≤ maxHashLen → isValidHash text = true

section Loops

structure Repacking (uuids : Nat → UuidBytes) (length read : Nat) (state : Base32State) : Prop where
  emitted : state.out = (List.range state.out.length).map (symbolAt (uuidBits uuids))
  short : state.out.length ≤ length
  account : 5 * state.out.length + state.bits = 8 * read
  pending : Holds (uuidBits uuids) state.acc state.bits (8 * read)

variable {uuids : Nat → UuidBytes} {length read : Nat} {state : Base32State}

theorem Repacking.symbol (repacking : Repacking uuids length read state) (enough : 5 ≤ state.bits) :
    base32Alphabet.get ⟨_, base32Index_lt state.acc (state.bits - 5)⟩ =
      symbolAt (uuidBits uuids) state.out.length := by
  have account := repacking.account
  have split : state.bits = state.bits - 5 + 5 := by omega
  have group := Holds.group (split ▸ repacking.pending)
  have start : 8 * read - (state.bits - 5 + 5) = 5 * state.out.length := by omega
  rw [start] at group
  exact congrArg base32Alphabet.get (Fin.ext group)

theorem Repacking.emit (repacking : Repacking uuids length read state) :
    Repacking uuids length read (emitSymbols length state) ∧
      ((emitSymbols length state).bits < 5 ∨ length ≤ (emitSymbols length state).out.length) := by
  induction state using emitSymbols.induct length with
  | case1 state more bits symbol ih =>
      rw [emitSymbols, if_pos more]
      refine ih ⟨?_, ?_, ?_, ?_⟩
      · have next := repacking.symbol more.1
        dsimp only
        rw [List.length_append, List.length_singleton, List.range_succ, List.map_append,
          ← repacking.emitted, List.map_singleton, ← next]
      · simp
        omega
      · have account := repacking.account
        simp [bits]
        omega
      · have split : state.bits = bits + 5 := by omega
        exact Holds.keep (split ▸ repacking.pending)
  | case2 state rest =>
      rw [emitSymbols, if_neg rest]
      exact ⟨repacking, by omega⟩

theorem Repacking.push (repacking : Repacking uuids length read state) (few : state.bits < 5) :
    Repacking uuids length (read + 1) (pushByte (uuidByte uuids read) state) where
  emitted := repacking.emitted
  short := repacking.short
  account := by
    have account := repacking.account
    simp [pushByte]
    omega
  pending := Holds.push (by omega) read repacking.pending

theorem Repacking.absorb : ∀ {bytes : List UInt8} {read : Nat} {state : Base32State},
    (∀ index < bytes.length, bytes[index]? = some (uuidByte uuids (read + index))) →
    Repacking uuids length read state → state.bits < 5 → ∃ last,
      Repacking uuids length last (absorbBytes length bytes state) ∧
        (length ≤ (absorbBytes length bytes state).out.length ∨
          last = read + bytes.length ∧ (absorbBytes length bytes state).bits < 5) := by
  intro bytes
  induction bytes with
  | nil =>
      intro read state _ repacking few
      exact ⟨read, repacking, .inr ⟨rfl, few⟩⟩
  | cons byte rest ih =>
      intro read state listed repacking few
      have first : byte = uuidByte uuids read := by simpa using listed 0 (by simp)
      obtain ⟨emitted, ended⟩ := (repacking.push few).emit
      rw [absorbBytes, first]
      split
      · rename_i complete
        exact ⟨read + 1, emitted, .inl complete⟩
      · rename_i open_
        obtain ⟨last, absorbed, stops⟩ := ih (fun index below => by
          have next := listed (index + 1) (by simpa using below)
          rw [List.getElem?_cons_succ] at next
          rw [next, Nat.add_assoc, Nat.add_comm 1 index]) emitted (by omega)
        refine ⟨last, absorbed, stops.imp_right fun whole => ⟨?_, whole.2⟩⟩
        rw [whole.1, List.length_cons]
        omega

theorem uuidByte_block (drawn index : Nat) (below : index < (uuids drawn).bytes.length) :
    (uuids drawn).bytes[index]? = some (uuidByte uuids (16 * drawn + index)) := by
  have sized := (uuids drawn).sized
  have block : (16 * drawn + index) / 16 = drawn := by omega
  have offset : (16 * drawn + index) % 16 = index := by omega
  rw [uuidByte, block, offset]
  simp [below]

theorem Repacking.draw : ∀ {fuel drawn read : Nat} {state : Base32State},
    Repacking uuids length read state →
    (state.out.length < length → read = 16 * drawn ∧ state.bits < 5) →
    length ≤ state.out.length + fuel →
    ∃ ended, drawBlocks uuids length fuel drawn state = some ended ∧
      ended.out = (List.range length).map (symbolAt (uuidBits uuids)) := by
  intro fuel
  induction fuel with
  | zero =>
      intro drawn read state repacking _ enough
      have complete : state.out.length = length := by
        have short := repacking.short
        omega
      refine ⟨state, by simp [drawBlocks, complete], ?_⟩
      rw [repacking.emitted, complete]
  | succ fuel ih =>
      intro drawn read state repacking ready enough
      rw [drawBlocks]
      split
      · rename_i more
        obtain ⟨rfl, few⟩ := ready more
        obtain ⟨last, absorbed, stops⟩ := repacking.absorb (uuidByte_block drawn) few
        have before := repacking.account
        have after := absorbed.account
        rw [(uuids drawn).sized] at stops
        exact ih absorbed (fun open_ => by omega) (by omega)
      · rename_i complete
        refine ⟨state, rfl, ?_⟩
        have short := repacking.short
        have whole : state.out.length = length := by omega
        rw [repacking.emitted, whole]

end Loops

theorem randomLowercaseBase32_spec (uuids : Nat → UuidBytes) {fuel length : Nat}
    (enough : length ≤ fuel) : randomLowercaseBase32 fuel uuids length =
      some (String.ofList ((List.range length).map (symbolAt (uuidBits uuids)))) := by
  have start : Repacking uuids length 0 ⟨[], 0, 0⟩ := ⟨rfl, by simp, rfl, holds_empty _ _⟩
  have drawn : ∃ ended, drawBlocks uuids length fuel 0 ⟨[], 0, 0⟩ = some ended ∧
      ended.out = (List.range length).map (symbolAt (uuidBits uuids)) :=
    start.draw (fun _ => ⟨rfl, by simp⟩) (by simpa using enough)
  obtain ⟨ended, minted, same⟩ := drawn
  rw [randomLowercaseBase32, minted, Option.map_some, same]

theorem symbolAt_mem (stream : Nat → Bool) (index : Nat) :
    symbolAt stream index ∈ base32Alphabet := List.get_mem _ _

theorem bits_of_symbolAt (stream : Nat → Bool) (index : Nat) :
    (List.range 5).map (BitVec.ofNat 5 (base32Alphabet.idxOf (symbolAt stream index))).getMsbD =
      bitsAt stream (5 * index) 5 := by
  have distinct : base32Alphabet.Nodup := by decide
  have found : base32Alphabet.idxOf (symbolAt stream index) =
      valueOf (bitsAt stream (5 * index) 5) := by
    rw [symbolAt, List.get_eq_getElem]
    exact distinct.idxOf_getElem _ _
  rw [found]
  have back := bits_of_valueOf (bitsAt stream (5 * index) 5)
  rwa [bitsAt_length] at back

theorem isValidHash_symbols {chars : List Char} (symbols : ∀ char ∈ chars, char ∈ base32Alphabet)
    (lower : minHashLen ≤ chars.length) (upper : chars.length ≤ maxHashLen) :
    isValidHash (String.ofList chars) = true := by
  have legal : (base32Alphabet.all fun char =>
      isAsciiLowercase char || ('2' ≤ char && char ≤ '7')) = true := by decide
  rw [List.all_eq_true] at legal
  simp only [minHashLen, maxHashLen] at lower upper
  simp only [isValidHash, String.toList_ofList, Bool.and_eq_true, decide_eq_true_eq,
    List.all_eq_true]
  exact ⟨⟨lower, upper⟩, fun char member => legal char (symbols char member)⟩

/-- Minting ends, and its text is the front of the stream, five bits a symbol. -/
theorem randomLowercaseBase32_repacks (uuids : Nat → UuidBytes) (length : Nat) :
    ∃ text, (∀ fuel, length ≤ fuel → randomLowercaseBase32 fuel uuids length = some text) ∧
      Repacks uuids length text := by
  refine ⟨_, fun fuel enough => randomLowercaseBase32_spec uuids enough, ?_, ?_, ?_, ?_⟩
  · simp
  · intro index below
    simp [below]
  · rw [spelledBits, String.toList_ofList, List.flatMap_map]
    simp only [bits_of_symbolAt]
    exact groups_flatten _ 5 length
  · intro lower upper
    refine isValidHash_symbols (fun char member => ?_) (by simpa using lower) (by simpa using upper)
    obtain ⟨index, _, rfl⟩ := List.mem_map.mp member
    exact symbolAt_mem _ _

def stripedUuids (drawn : Nat) : UuidBytes :=
  ⟨List.replicate 16 (if drawn % 2 = 0 then 0x55 else 0xAA), List.length_replicate⟩

theorem randomLowercaseBase32_repacks_striped : ∃ text,
    randomLowercaseBase32 27 stripedUuids 27 = some text ∧ text.toList[25]? = some 'w' := by
  obtain ⟨text, minted, repacks⟩ := randomLowercaseBase32_repacks stripedUuids 27
  refine ⟨text, minted 27 (Nat.le_refl 27), ?_⟩
  rw [repacks.symbols 25 (by decide)]
  decide

end RepoLink
