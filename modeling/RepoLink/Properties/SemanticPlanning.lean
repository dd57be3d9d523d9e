import Mathlib.Logic.Relation
import RepoLink.Embed.Planning

/-!
Semantic planning covers the text whenever it ends. It ends unless it comes to a remainder that
nothing can be cut from: the last resort then tries the first character over and over.
-/

namespace RepoLink

namespace CandleModel

open Relation

variable {model : CandleModel} {text remaining : List Char}

section LastResort

theorem shrink_fits : ∀ {fuel cut best : Nat}, 0 < cut → cut ≤ remaining.length →
    model.shrink remaining fuel cut = some best →
    0 < best ∧ best ≤ remaining.length ∧ model.fits (remaining.take best) = true := by
  intro fuel
  induction fuel with
  | zero =>
      intro cut best _ _ ended
      cases ended
  | succ fuel ih =>
      intro cut best positive within ended
      rw [shrink] at ended
      split at ended
      · dsimp only at ended
        rw [byteBoundary_step positive within] at ended
        exact ih (by omega) (by omega) ended
      · rename_i accepted
        cases Option.some.inj ended
        refine ⟨positive, within, ?_⟩
        cases passed : model.fits (remaining.take cut) with
        | true => rfl
        | false => exact (accepted ⟨positive, by rw [passed]; rfl⟩).elim

theorem shrink_stuck : ∀ {fuel cut : Nat}, 0 < cut → cut ≤ remaining.length →
    (∀ piece, 0 < piece → piece ≤ cut → model.fits (remaining.take piece) = false) →
    model.shrink remaining fuel cut = none := by
  intro fuel
  induction fuel with
  | zero => exact fun _ _ _ => rfl
  | succ fuel ih =>
      intro cut positive within large
      rw [shrink, if_pos ⟨positive, by rw [large cut positive (Nat.le_refl _)]; rfl⟩]
      dsimp only
      rw [byteBoundary_step positive within]
      exact ih (by omega) (by omega) fun piece some below => large piece some (by omega)

theorem shrink_ends {piece : Nat} (some : 0 < piece)
    (passed : model.fits (remaining.take piece) = true) : ∀ {cut : Nat}, piece ≤ cut →
    cut ≤ remaining.length → ∃ best, model.shrink remaining (cut + 1) cut = .some best := by
  intro cut
  induction cut with
  | zero => exact fun below => absurd below (by omega)
  | succ cut ih =>
      intro below within
      rw [shrink]
      split
      · rename_i rejected
        have smaller : piece ≠ cut + 1 := by
          rintro rfl
          rw [passed] at rejected
          exact Bool.false_ne_true rejected.2
        dsimp only
        rw [byteBoundary_step (Nat.succ_pos cut) within]
        have next : max (cut + 1 - 1) 1 = cut := by omega
        rw [next]
        exact ih (by omega) (by omega)
      · exact ⟨cut + 1, rfl⟩

theorem shrink_mono : ∀ {fuel cut best : Nat}, model.shrink remaining fuel cut = some best →
    ∀ {more : Nat}, fuel ≤ more → model.shrink remaining more cut = some best := by
  intro fuel
  induction fuel with
  | zero =>
      intro cut best ended
      cases ended
  | succ fuel ih =>
      intro cut best ended more enough
      obtain ⟨more, rfl⟩ := Nat.exists_eq_add_one.mpr (Nat.lt_of_lt_of_le (Nat.succ_pos _) enough)
      rw [shrink] at ended ⊢
      split at ended
      · rename_i rejected
        rw [if_pos rejected]
        exact ih ended (by omega)
      · rename_i accepted
        rw [if_neg accepted]
        exact ended

end LastResort

/-- Nothing can be cut from the remainder: no sentence, no word, and no prefix of as many bytes as
the budget has tokens, the first character included. -/
def Stuck (model : CandleModel) (remaining : List Char) : Prop :=
  remaining ≠ [] ∧ model.largestFit remaining (sentenceBoundaries remaining) = 0 ∧
    model.largestFit remaining (wordBoundaries remaining) = 0 ∧
    ∀ cut, 0 < cut → cut ≤ byteBoundary remaining model.budget →
      model.fits (remaining.take cut) = false

def Cuts (model : CandleModel) (remaining rest : List Char) : Prop :=
  remaining ≠ [] ∧ ∃ fuel best, model.bestLength fuel remaining = some best ∧
    rest = remaining.drop best

section Rounds

theorem bestLength_fits {fuel best : Nat} (nonempty : remaining ≠ [])
    (found : model.bestLength fuel remaining = some best) :
    0 < best ∧ best ≤ remaining.length ∧ model.fits (remaining.take best) = true := by
  unfold bestLength at found
  dsimp only at found
  split at found
  · rename_i bySentence
    cases Option.some.inj found
    exact ⟨Nat.pos_of_ne_zero bySentence, largestFit_fits sentenceBoundaries_le bySentence⟩
  · split at found
    · rename_i byWord
      cases Option.some.inj found
      exact ⟨Nat.pos_of_ne_zero byWord, largestFit_fits wordBoundaries_le byWord⟩
    · obtain ⟨positive, within⟩ := byteBoundary_bounds nonempty model.budget
      exact shrink_fits positive within found

theorem bestLength_mono {fuel more best : Nat} (enough : fuel ≤ more)
    (found : model.bestLength fuel remaining = some best) :
    model.bestLength more remaining = some best := by
  unfold bestLength at found ⊢
  dsimp only at found ⊢
  split at found
  · rename_i bySentence
    rw [if_pos bySentence]
    exact found
  · rename_i noSentence
    rw [if_neg noSentence]
    split at found
    · rename_i byWord
      rw [if_pos byWord]
      exact found
    · rename_i noWord
      rw [if_neg noWord]
      exact shrink_mono found enough

theorem bestLength_unique {fuel more best other : Nat}
    (found : model.bestLength fuel remaining = some best)
    (foundOther : model.bestLength more remaining = some other) : best = other := by
  have left := bestLength_mono (Nat.le_max_left fuel more) found
  have right := bestLength_mono (Nat.le_max_right fuel more) foundOther
  exact Option.some.inj (left.symm.trans right)

theorem bestLength_stuck (stuck : Stuck model remaining) (fuel : Nat) :
    model.bestLength fuel remaining = none := by
  obtain ⟨nonempty, noSentence, noWord, large⟩ := stuck
  obtain ⟨positive, within⟩ := byteBoundary_bounds nonempty model.budget
  unfold bestLength
  dsimp only
  rw [if_neg (not_not_intro noSentence), if_neg (not_not_intro noWord)]
  exact shrink_stuck positive within large

theorem bestLength_ends (nonempty : remaining ≠ []) (free : ¬Stuck model remaining) :
    ∃ fuel best, model.bestLength fuel remaining = some best := by
  by_cases noSentence : model.largestFit remaining (sentenceBoundaries remaining) = 0
  · by_cases noWord : model.largestFit remaining (wordBoundaries remaining) = 0
    · have some : ∃ cut, 0 < cut ∧ cut ≤ byteBoundary remaining model.budget ∧
          model.fits (remaining.take cut) = true := by
        by_contra none
        refine free ⟨nonempty, noSentence, noWord, fun cut positive below => ?_⟩
        rw [Bool.eq_false_iff]
        exact fun passed => none ⟨cut, positive, below, passed⟩
      obtain ⟨cut, positive, below, passed⟩ := some
      obtain ⟨best, ended⟩ := shrink_ends positive passed below
        (byteBoundary_bounds nonempty model.budget).2
      refine ⟨byteBoundary remaining model.budget + 1, best, ?_⟩
      unfold bestLength
      dsimp only
      rw [if_neg (not_not_intro noSentence), if_neg (not_not_intro noWord)]
      exact ended
    · refine ⟨0, model.largestFit remaining (wordBoundaries remaining), ?_⟩
      unfold bestLength
      dsimp only
      rw [if_neg (not_not_intro noSentence), if_pos noWord]
  · refine ⟨0, model.largestFit remaining (sentenceBoundaries remaining), ?_⟩
    unfold bestLength
    dsimp only
    rw [if_pos noSentence]

end Rounds

section Loop

theorem planRemaining_nil (fuel : Nat) : model.planRemaining (fuel + 1) [] = some (.ok []) := rfl

theorem planRemaining_cut {fuel best : Nat} (nonempty : remaining ≠ [])
    (found : model.bestLength fuel remaining = some best) :
    model.planRemaining (fuel + 1) remaining =
      (model.planRemaining fuel (remaining.drop best)).map fun planned =>
        planned.map (remaining.take best :: ·) := by
  obtain ⟨before, rfl⟩ := Nat.exists_eq_add_one.mpr (bestLength_fits nonempty found).1
  rw [planRemaining, if_neg (by simpa using nonempty), found]
  rfl

theorem planRemaining_open {fuel : Nat} (nonempty : remaining ≠ [])
    (unfound : model.bestLength fuel remaining = none) :
    model.planRemaining (fuel + 1) remaining = none := by
  rw [planRemaining, if_neg (by simpa using nonempty), unfound]

theorem planRemaining_ended {fuel : Nat} {result : Except PortError (List (List Char))}
    (nonempty : remaining ≠ []) (ended : model.planRemaining (fuel + 1) remaining = some result) :
    ∃ best later, model.bestLength fuel remaining = some best ∧
      model.planRemaining fuel (remaining.drop best) = some later ∧
      result = later.map (remaining.take best :: ·) := by
  cases found : model.bestLength fuel remaining with
  | none =>
      rw [planRemaining_open nonempty found] at ended
      cases ended
  | some best =>
      rw [planRemaining_cut nonempty found] at ended
      obtain ⟨later, endedLater, rfl⟩ := Option.map_eq_some_iff.mp ended
      exact ⟨best, later, rfl, endedLater, rfl⟩

theorem planRemaining_covers : ∀ {fuel : Nat} {remaining : List Char}
    {result : Except PortError (List (List Char))},
    model.planRemaining fuel remaining = some result →
    ∃ pieces, result = .ok pieces ∧ pieces.flatten = remaining ∧
      ∀ piece ∈ pieces, piece ≠ [] ∧ model.fits piece = true := by
  intro fuel
  induction fuel with
  | zero =>
      intro remaining result ended
      cases ended
  | succ fuel ih =>
      intro remaining result ended
      by_cases empty : remaining = []
      · subst empty
        cases Option.some.inj ended
        exact ⟨[], rfl, rfl, fun _ member => (List.not_mem_nil member).elim⟩
      · obtain ⟨best, later, found, endedLater, rfl⟩ := planRemaining_ended empty ended
        obtain ⟨pieces, rfl, covered, fitting⟩ := ih endedLater
        obtain ⟨positive, within, passed⟩ := bestLength_fits empty found
        refine ⟨remaining.take best :: pieces, rfl, ?_, fun piece member => ?_⟩
        · rw [List.flatten_cons, covered, List.take_append_drop]
        · rcases List.mem_cons.mp member with rfl | member
          · refine ⟨fun none => ?_, passed⟩
            have length : (remaining.take best).length = 0 := by rw [none]; rfl
            rw [List.length_take] at length
            omega
          · exact fitting piece member

theorem planRemaining_free : ∀ {fuel : Nat} {remaining : List Char}
    {result : Except PortError (List (List Char))},
    model.planRemaining fuel remaining = some result →
    ∀ rest, ReflTransGen (Cuts model) remaining rest → ¬Stuck model rest := by
  intro fuel
  induction fuel with
  | zero =>
      intro remaining result ended
      cases ended
  | succ fuel ih =>
      intro remaining result ended rest path stuck
      rcases path.cases_head with rfl | ⟨next, ⟨nonempty, more, other, foundOther, rfl⟩, path⟩
      · rw [planRemaining_open stuck.1 (bestLength_stuck stuck fuel)] at ended
        cases ended
      · obtain ⟨best, later, found, endedLater, _⟩ := planRemaining_ended nonempty ended
        rw [bestLength_unique foundOther found] at path
        exact ih endedLater rest path stuck

theorem planRemaining_mono : ∀ {fuel : Nat} {remaining : List Char}
    {result : Except PortError (List (List Char))},
    model.planRemaining fuel remaining = some result → ∀ {more : Nat}, fuel ≤ more →
    model.planRemaining more remaining = some result := by
  intro fuel
  induction fuel with
  | zero =>
      intro remaining result ended
      cases ended
  | succ fuel ih =>
      intro remaining result ended more enough
      obtain ⟨more, rfl⟩ := Nat.exists_eq_add_one.mpr (Nat.lt_of_lt_of_le (Nat.succ_pos _) enough)
      by_cases empty : remaining = []
      · subst empty
        exact ended
      · obtain ⟨best, later, found, endedLater, rfl⟩ := planRemaining_ended empty ended
        rw [planRemaining_cut empty (bestLength_mono (by omega) found), ih endedLater (by omega)]
        rfl

theorem planRemaining_ends (remaining : List Char)
    (free : ∀ rest, ReflTransGen (Cuts model) remaining rest → ¬Stuck model rest) :
    ∃ fuel, ∃ result, model.planRemaining fuel remaining = some result := by
  generalize size : remaining.length = length
  induction length using Nat.strongRecOn generalizing remaining with
  | ind length ih =>
      by_cases empty : remaining = []
      · subst empty
        exact ⟨1, _, planRemaining_nil 0⟩
      · obtain ⟨fuel, best, found⟩ := bestLength_ends empty (free remaining .refl)
        obtain ⟨positive, within, _⟩ := bestLength_fits empty found
        have cut : Cuts model remaining (remaining.drop best) := ⟨empty, fuel, best, found, rfl⟩
        have shorter : (remaining.drop best).length < length := by
          rw [List.length_drop]
          omega
        obtain ⟨later, result, ended⟩ := ih _ shorter (remaining.drop best)
          (fun rest path => free rest (.head cut path)) rfl
        refine ⟨max fuel later + 1, result.map (remaining.take best :: ·), ?_⟩
        rw [planRemaining_cut empty (bestLength_mono (Nat.le_max_left _ _) found),
          planRemaining_mono ended (Nat.le_max_right _ _)]
        rfl

end Loop

/-- What planning the inputs of a text should come to. -/
structure PlansWell (model : CandleModel) (text : List Char) : Prop where
  ends : ∃ fuel, model.planSemanticInputs fuel text ≠ none
  covers : ∀ fuel pieces, model.planSemanticInputs fuel text = some (.ok pieces) →
    pieces.flatten = text ∧
      ∀ piece ∈ pieces, piece ≠ [] ∧ model.tokenCount piece ≤ model.maxInputTokens - 1
  refuses : ∀ fuel error, model.planSemanticInputs fuel text = some (.error error) →
    ∃ char ∈ text, model.maxInputTokens - 1 < model.tokenCount [char]

theorem fits_iff {piece : List Char} :
    model.fits piece = true ↔ model.tokenCount piece ≤ model.maxInputTokens - 1 :=
  decide_eq_true_iff

theorem planSemanticInputs_covers {fuel : Nat} {result : Except PortError (List (List Char))}
    (ended : model.planSemanticInputs fuel text = some result) :
    ∃ pieces, result = .ok pieces ∧ pieces.flatten = text ∧
      ∀ piece ∈ pieces, piece ≠ [] ∧ model.fits piece = true := by
  unfold planSemanticInputs at ended
  split at ended
  · rename_i empty
    cases Option.some.inj ended
    exact ⟨[], rfl, (List.isEmpty_iff.mp empty).symm,
      fun _ member => (List.not_mem_nil member).elim⟩
  · rename_i filled
    split at ended
    · rename_i whole
      cases Option.some.inj ended
      refine ⟨[text], rfl, List.flatten_singleton, fun piece member => ?_⟩
      rw [List.mem_singleton.mp member]
      exact ⟨fun empty => filled (List.isEmpty_iff.mpr empty), whole⟩
    · exact planRemaining_covers ended

theorem plansWell_of_free (free : model.fits text = true ∨
    ∀ rest, ReflTransGen (Cuts model) text rest → ¬Stuck model rest) : PlansWell model text := by
  refine ⟨?_, fun fuel pieces ended => ?_, fun fuel error ended => ?_⟩
  · unfold planSemanticInputs
    by_cases empty : text.isEmpty = true
    · exact ⟨0, by rw [if_pos empty]; exact Option.some_ne_none _⟩
    · by_cases whole : model.fits text = true
      · exact ⟨0, by rw [if_neg empty, if_pos whole]; exact Option.some_ne_none _⟩
      · obtain ⟨fuel, result, ended⟩ := planRemaining_ends text (free.resolve_left whole)
        exact ⟨fuel, by rw [if_neg empty, if_neg whole, ended]; exact Option.some_ne_none _⟩
  · obtain ⟨_, same, covered, fitting⟩ := planSemanticInputs_covers ended
    cases Except.ok.inj same
    exact ⟨covered, fun piece member => ⟨(fitting piece member).1,
      fits_iff.mp (fitting piece member).2⟩⟩
  · obtain ⟨_, same, _⟩ := planSemanticInputs_covers ended
    cases same

theorem remainder_suffix {rest : List Char} (path : ReflTransGen (Cuts model) text rest) :
    rest <:+ text := by
  induction path with
  | refl => exact List.suffix_rfl
  | tail _ cut ih =>
      obtain ⟨_, _, best, _, rfl⟩ := cut
      exact (List.drop_suffix best _).trans ih

theorem plansWell_of_chars (fitting : ∀ char ∈ text, model.fits [char] = true) :
    PlansWell model text := by
  refine plansWell_of_free (.inr fun rest path stuck => ?_)
  obtain ⟨nonempty, _, _, large⟩ := stuck
  obtain ⟨char, more, rfl⟩ := List.exists_cons_of_ne_nil nonempty
  have exceeds := large 1 Nat.one_pos (byteBoundary_bounds nonempty _).1
  have member := (remainder_suffix path).subset (List.mem_cons_self (a := char) (l := more))
  rw [show (char :: more).take 1 = [char] from rfl, fitting char member] at exceeds
  exact Bool.false_ne_true exceeds.symm

/-- Planning does what it should exactly if the text fits as a whole or no remainder that it comes
to is stuck. -/
theorem planSemanticInputs_well_iff (model : CandleModel) (text : List Char) :
    PlansWell model text ↔ model.fits text = true ∨
      ∀ rest, ReflTransGen (Cuts model) text rest → ¬Stuck model rest := by
  constructor
  · intro well
    by_cases whole : model.fits text = true
    · exact .inl whole
    · right
      intro rest path stuck
      by_cases empty : text = []
      · subst empty
        rcases path.cases_head with rfl | ⟨_, ⟨nonempty, _⟩, _⟩
        · exact stuck.1 rfl
        · exact nonempty rfl
      · obtain ⟨fuel, ended⟩ := well.ends
        obtain ⟨result, ended⟩ := Option.ne_none_iff_exists'.mp ended
        unfold planSemanticInputs at ended
        rw [if_neg (by simpa using empty), if_neg whole] at ended
        exact planRemaining_free ended rest path stuck
  · exact plansWell_of_free

def tightModel : CandleModel where
  encodedLength := fun text => text.length + 2
  corpusPrefix := none
  maxInputTokens := 3

theorem tightModel_stuck : Stuck tightModel ['a'] := by
  have large : ∀ cut, 0 < cut → cut ≤ 1 → tightModel.fits (['a'].take cut) = false := by
    intro cut positive below
    obtain rfl : cut = 1 := by omega
    rfl
  have unfit : ∀ boundaries, (∀ offset ∈ boundaries, offset ≤ ['a'].length) →
      tightModel.largestFit ['a'] boundaries = 0 := by
    intro boundaries within
    by_contra found
    obtain ⟨below, passed⟩ := largestFit_fits within found
    rw [large _ (Nat.pos_of_ne_zero found) below] at passed
    exact Bool.false_ne_true passed
  refine ⟨List.cons_ne_nil _ _, unfit _ sentenceBoundaries_le, unfit _ wordBoundaries_le,
    fun cut positive below => large cut positive ?_⟩
  exact Nat.le_trans below (byteBoundary_bounds (List.cons_ne_nil _ _) _).2

/-- No single character fits, yet there is no error: the loop never ends. -/
theorem tightModel_spins : (∀ fuel, tightModel.planSemanticInputs fuel ['a'] = none) ∧
    ¬PlansWell tightModel ['a'] := by
  have open_ : ∀ fuel, tightModel.planSemanticInputs fuel ['a'] = none := by
    intro fuel
    cases fuel with
    | zero => rfl
    | succ fuel =>
        exact planRemaining_open (List.cons_ne_nil _ _) (bestLength_stuck tightModel_stuck fuel)
  refine ⟨open_, fun well => ?_⟩
  obtain ⟨fuel, ended⟩ := well.ends
  exact ended (open_ fuel)

end CandleModel

end RepoLink
