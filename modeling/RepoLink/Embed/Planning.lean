import Mathlib.Data.List.Dedup
import Mathlib.Data.List.GetD
import Mathlib.Data.List.Sort
import RepoLink.Domain.Types
import RepoLink.Search.Chunker

/-!
`plan_semantic_inputs` of `infra-embed`: a text is cut into pieces that fit the model, at sentences,
else at words, else anywhere. Offsets count scalars in place of bytes; what the source measures in
bytes is measured in bytes. The tokenizer may count as it likes.
-/

namespace RepoLink

/-- What planning needs of a `CandleModel`. -/
structure CandleModel where
  /-- How many token ids the tokenizer makes of a text, special tokens included. -/
  encodedLength : List Char → Nat
  corpusPrefix : Option (List Char)
  maxInputTokens : Nat

namespace CandleModel

def tokenCount (model : CandleModel) (text : List Char) : Nat :=
  match model.corpusPrefix with
  | some corpusPrefix => model.encodedLength (corpusPrefix ++ text)
  | none => model.encodedLength text

def budget (model : CandleModel) : Nat := model.maxInputTokens - 1

def fits (model : CandleModel) (text : List Char) : Bool := model.tokenCount text ≤ model.budget

def ascending (offsets : List Nat) : List Nat := offsets.dedup.insertionSort (· ≤ ·)

def offsetsOf (picks : Char → Bool) (text : List Char) : List Nat :=
  (List.range text.length).filter fun offset => text[offset]?.any picks

def isSentenceEnd (char : Char) : Bool := char = '.' || char = '!' || char = '?'

def sentenceBoundaries (text : List Char) : List Nat :=
  ascending (text.length :: (offsetsOf isSentenceEnd text).map (· + 1))

def wordBoundaries (text : List Char) : List Nat :=
  ascending (text.length :: offsetsOf isWhitespace text)

def byteBoundary (text : List Char) (bytes : Nat) : Nat :=
  let floor := (takeBytes bytes text).length
  if floor = 0 ∧ text ≠ [] then 1 else floor

def bisect (passes : Nat → Bool) (lo hi : Nat) : Nat :=
  if lo < hi then
    let mid := (lo + hi) / 2
    if passes mid then bisect passes (mid + 1) hi else bisect passes lo mid
  else lo
termination_by hi - lo

def largestFit (model : CandleModel) (text : List Char) (boundaries : List Nat) : Nat :=
  let lo := bisect (fun index => model.fits (text.take (boundaries.getD index 0))) 0
    boundaries.length
  if lo = 0 then 0 else boundaries.getD (lo - 1) 0

/-- The loop of the last resort: `none` while it has not come to an end. -/
def shrink (model : CandleModel) (remaining : List Char) : Nat → Nat → Option Nat
  | 0, _ => none
  | fuel + 1, cut =>
    if 0 < cut ∧ !model.fits (remaining.take cut) then
      let piece := remaining.take cut
      shrink model remaining fuel (byteBoundary piece (Utf8.size piece - 1))
    else some cut

def bestLength (model : CandleModel) (fuel : Nat) (remaining : List Char) : Option Nat :=
  let bySentence := model.largestFit remaining (sentenceBoundaries remaining)
  if bySentence ≠ 0 then some bySentence
  else
    let byWord := model.largestFit remaining (wordBoundaries remaining)
    if byWord ≠ 0 then some byWord
    else model.shrink remaining fuel (byteBoundary remaining model.budget)

def singleTokenError (model : CandleModel) (remaining : List Char) : PortError :=
  .backend ("single token exceeds max_input_tokens=" ++ toString model.budget ++ ": " ++
    (String.ofList (takeBytes 16 remaining)).quote)

def planRemaining (model : CandleModel) :
    Nat → List Char → Option (Except PortError (List (List Char)))
  | 0, _ => none
  | fuel + 1, remaining =>
    if remaining.isEmpty then some (.ok [])
    else
      match model.bestLength fuel remaining with
      | none => none
      | some 0 => some (.error (model.singleTokenError remaining))
      | some best =>
        (model.planRemaining fuel (remaining.drop best)).map fun planned =>
          planned.map (remaining.take best :: ·)

/-- The inputs of a text, if the loops come to an end within the fuel. -/
def planSemanticInputs (model : CandleModel) (fuel : Nat) (text : List Char) :
    Option (Except PortError (List (List Char))) :=
  if text.isEmpty then some (.ok [])
  else if model.fits text then some (.ok [text])
  else model.planRemaining fuel text

section Cuts

variable {model : CandleModel} {text remaining : List Char}

theorem bisect_passes (passes : Nat → Bool) (lo hi : Nat) :
    bisect passes lo hi = lo ∨
      lo < bisect passes lo hi ∧ bisect passes lo hi ≤ hi ∧
        passes (bisect passes lo hi - 1) = true := by
  fun_induction bisect passes lo hi with
  | case1 lo hi open_ mid passed ih =>
      right
      have middle : mid < hi := by omega
      rcases ih with same | ⟨above, below, last⟩
      · rw [same]
        exact ⟨by omega, by omega, by simpa using passed⟩
      · exact ⟨by omega, below, last⟩
  | case2 lo hi open_ mid failed ih =>
      rcases ih with same | ⟨above, below, last⟩
      · exact .inl same
      · exact .inr ⟨above, by omega, last⟩
  | case3 lo hi closed => exact .inl rfl

theorem mem_offsetsOf {picks : Char → Bool} {offset : Nat} (member : offset ∈ offsetsOf picks text) :
    offset < text.length := List.mem_range.mp (List.mem_filter.mp member).1

theorem mem_ascending {offsets : List Nat} {offset : Nat} :
    offset ∈ ascending offsets ↔ offset ∈ offsets := by
  rw [ascending, List.mem_insertionSort, List.mem_dedup]

theorem sentenceBoundaries_le : ∀ offset ∈ sentenceBoundaries text, offset ≤ text.length := by
  intro offset member
  rcases List.mem_cons.mp (mem_ascending.mp member) with rfl | behind
  · exact Nat.le_refl _
  · obtain ⟨end_, picked, rfl⟩ := List.mem_map.mp behind
    exact mem_offsetsOf picked

theorem wordBoundaries_le : ∀ offset ∈ wordBoundaries text, offset ≤ text.length := by
  intro offset member
  rcases List.mem_cons.mp (mem_ascending.mp member) with rfl | picked
  · exact Nat.le_refl _
  · exact Nat.le_of_lt (mem_offsetsOf picked)

theorem largestFit_fits {boundaries : List Nat}
    (within : ∀ offset ∈ boundaries, offset ≤ text.length)
    (found : model.largestFit text boundaries ≠ 0) :
    model.largestFit text boundaries ≤ text.length ∧
      model.fits (text.take (model.largestFit text boundaries)) = true := by
  unfold largestFit at found ⊢
  dsimp only at found ⊢
  generalize index : bisect (fun index => model.fits (text.take (boundaries.getD index 0))) 0
    boundaries.length = lo at found ⊢
  have searched := bisect_passes
    (fun index => model.fits (text.take (boundaries.getD index 0))) 0 boundaries.length
  rw [index] at searched
  by_cases none : lo = 0
  · rw [if_pos none] at found
    exact (found rfl).elim
  · rw [if_neg none] at found ⊢
    obtain ⟨_, below, passed⟩ := searched.resolve_left none
    refine ⟨within _ ?_, passed⟩
    have bound : lo - 1 < boundaries.length := by omega
    rw [List.getD_eq_getElem _ _ bound]
    exact List.getElem_mem bound

theorem byteBoundary_bounds (nonempty : text ≠ []) (bytes : Nat) :
    0 < byteBoundary text bytes ∧ byteBoundary text bytes ≤ text.length := by
  have leading := takeBytes_prefix bytes text
  have shorter := leading.length_le
  have filled := List.length_pos_iff.mpr nonempty
  unfold byteBoundary
  dsimp only
  split
  · omega
  · rename_i some
    have positive : (takeBytes bytes text).length ≠ 0 := fun zero => some ⟨zero, nonempty⟩
    omega

theorem takeBytes_shorter : ∀ {text : List Char}, text ≠ [] →
    (takeBytes (Utf8.size text - 1) text).length = text.length - 1 := by
  intro text
  induction text with
  | nil => exact fun nonempty => (nonempty rfl).elim
  | cons char rest ih =>
      intro _
      have width := Char.utf8Size_pos char
      rw [takeBytes, Utf8.size_cons]
      cases rest with
      | nil =>
          rw [if_neg (by rw [Utf8.size_nil]; omega)]
          rfl
      | cons second more =>
          have later := ih (List.cons_ne_nil second more)
          have widthSecond := Char.utf8Size_pos second
          have room : Utf8.size (second :: more) = second.utf8Size + Utf8.size more :=
            Utf8.size_cons second more
          rw [if_pos (by omega)]
          have same : char.utf8Size + Utf8.size (second :: more) - 1 - char.utf8Size =
              Utf8.size (second :: more) - 1 := by omega
          have long : (char :: second :: more).length = (second :: more).length + 1 := rfl
          have filled : (second :: more).length = more.length + 1 := rfl
          rw [same, List.length_cons, later]
          omega

theorem byteBoundary_step {cut : Nat} (positive : 0 < cut) (within : cut ≤ remaining.length) :
    byteBoundary (remaining.take cut) (Utf8.size (remaining.take cut) - 1) = max (cut - 1) 1 := by
  have length : (remaining.take cut).length = cut := by
    rw [List.length_take]
    omega
  have nonempty : remaining.take cut ≠ [] := by
    intro empty
    rw [empty] at length
    exact Nat.ne_of_gt positive length.symm
  unfold byteBoundary
  rw [takeBytes_shorter nonempty, length]
  dsimp only
  split
  · rename_i last
    omega
  · rename_i more
    have left : cut - 1 ≠ 0 := fun zero => more ⟨zero, nonempty⟩
    omega

end Cuts

end CandleModel

end RepoLink
