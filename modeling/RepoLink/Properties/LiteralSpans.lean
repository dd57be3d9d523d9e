import Mathlib.Data.List.Forall2
import RepoLink.Search.Fold

/-!
A literal search reports every occurrence of the folded needle once, as the smallest run of whole
scalars under it, and excerpts are cut between scalars.
-/

namespace RepoLink

open Utf8 List

def occurrences (needle folded : List Char) : List Nat :=
  (range (folded.length + 1)).filter fun index => needle.isPrefixOf (folded.drop index)

variable {unicode : Unicode}

structure Covers (unicode : Unicode) (text : List Char) (start stop : Nat)
    (before run : List Char) : Prop where
  within : before ++ run <+: text
  starts : (before.flatMap unicode.caseFold).length ≤ start
  stops : stop ≤ ((before ++ run).flatMap unicode.caseFold).length

/-- The bytes of the smallest run of scalars under the folded needle at an index. -/
def SmallestRun (unicode : Unicode) (text needle : List Char) (index : Nat) (span : Span) : Prop :=
  ∃ before run, Covers unicode text index (index + needle.length) before run ∧
    span = ⟨size before, size (before ++ run)⟩ ∧
    ∀ other otherRun, Covers unicode text index (index + needle.length) other otherRun →
      other <+: before ∧ before ++ run <+: other ++ otherRun

section Occurrences

theorem occurrences_nil {needle : List Char} (filled : needle ≠ []) : occurrences needle [] = [] := by
  cases needle with
  | nil => exact absurd rfl filled
  | cons char rest => rfl

theorem occurrences_cons (needle rest : List Char) (first : Char) :
    occurrences needle (first :: rest) =
      (if needle.isPrefixOf (first :: rest) then [0] else []) ++
        (occurrences needle rest).map (· + 1) := by
  rw [occurrences, length_cons, range_succ_eq_map, filter_cons, filter_map]
  split
  · rename_i starts
    rw [drop_zero] at starts
    rw [if_pos starts]
    rfl
  · rename_i differs
    rw [drop_zero] at differs
    rw [if_neg differs]
    rfl

structure MatchedAt (chars : List FoldChar) (needle : List Char) (index : Nat) (span : Span)
    (first last : FoldChar) : Prop where
  firstAt : chars[index]? = some first
  lastAt : chars[index + needle.length - 1]? = some last
  spanned : span = ⟨first.source.start, last.source.stop⟩

theorem matchSpans_occurrences {needle : List Char} (filled : needle ≠ []) :
    ∀ chars : List FoldChar,
      Forall₂ (fun index span => ∃ first last, MatchedAt chars needle index span first last)
        (occurrences needle (Fold.foldedText chars)) (matchSpans needle chars) := by
  have wide := length_pos_of_ne_nil filled
  intro chars
  induction chars with
  | nil =>
      rw [Fold.foldedText, map_nil, occurrences_nil filled]
      exact .nil
  | cons first rest ih =>
      have later : Forall₂
          (fun index span => ∃ one other, MatchedAt (first :: rest) needle index span one other)
          ((occurrences needle (Fold.foldedText rest)).map (· + 1)) (matchSpans needle rest) := by
        refine forall₂_map_left_iff.mpr (ih.imp ?_)
        rintro index span ⟨one, other, oneAt, otherAt, same⟩
        refine ⟨one, other, oneAt, ?_, same⟩
        rw [show index + 1 + needle.length - 1 = index + needle.length - 1 + 1 by omega]
        exact otherAt
      rw [Fold.foldedText, map_cons, occurrences_cons]
      split
      · rename_i matched
        have starts : needle <+: Fold.foldedText (first :: rest) := isPrefixOf_iff_prefix.mp matched
        rw [Fold.matchSpans_cons_of_pos starts]
        obtain ⟨init, last, behind, shape, folded, lastOf⟩ := Fold.match_split filled starts
        have lengths := congrArg length folded
        rw [length_map, length_append, length_singleton] at lengths
        refine .cons ⟨first, last, rfl, ?_, by rw [lastOf first]⟩ later
        rw [← lengths, shape]
        simp
      · rename_i missed
        rw [Fold.matchSpans_cons_of_neg (mt isPrefixOf_iff_prefix.mpr missed)]
        exact later

end Occurrences

section Sources

def foldedFrom (unicode : Unicode) (offset : Nat) (text : List Char) : List FoldChar :=
  (charIndices offset text).flatMap fun scalar =>
    (unicode.caseFold scalar.2).map fun folded =>
      ⟨folded, scalar.1, scalar.1 + scalar.2.utf8Size⟩

theorem foldedFrom_cons (offset : Nat) (char : Char) (rest : List Char) :
    foldedFrom unicode offset (char :: rest) =
      ((unicode.caseFold char).map fun folded => ⟨folded, offset, offset + char.utf8Size⟩) ++
        foldedFrom unicode (offset + char.utf8Size) rest := flatMap_cons

theorem foldedText_foldedFrom (text : List Char) : ∀ offset,
    Fold.foldedText (foldedFrom unicode offset text) = text.flatMap unicode.caseFold := by
  induction text with
  | nil => exact fun _ => rfl
  | cons char rest ih =>
      intro offset
      rw [foldedFrom_cons, Fold.foldedText, map_append, map_map, flatMap_cons]
      exact congrArg₂ (· ++ ·) (map_id _) (ih _)

theorem foldedFrom_source : ∀ {text : List Char} {offset index : Nat} {folded : FoldChar},
    (foldedFrom unicode offset text)[index]? = some folded → ∃ before char after,
      text = before ++ char :: after ∧ (before.flatMap unicode.caseFold).length ≤ index ∧
      index < ((before ++ [char]).flatMap unicode.caseFold).length ∧
      folded.source = ⟨offset + size before, offset + size (before ++ [char])⟩ := by
  intro text
  induction text with
  | nil => exact fun found => by cases found
  | cons char rest ih =>
      intro offset index folded found
      rw [foldedFrom_cons] at found
      by_cases inside : index < (unicode.caseFold char).length
      · rw [getElem?_append_left (by rwa [length_map]), getElem?_map] at found
        obtain ⟨scalar, _, rfl⟩ := Option.map_eq_some_iff.mp found
        refine ⟨[], char, rest, rfl, Nat.zero_le _, ?_, ?_⟩
        · rwa [nil_append, flatMap_singleton]
        · rw [nil_append, size_nil, size_cons, size_nil]
          rfl
      · have outside := Nat.le_of_not_lt inside
        rw [getElem?_append_right (by rwa [length_map]), length_map] at found
        obtain ⟨before, other, after, rfl, starts, stops, source⟩ := ih found
        refine ⟨char :: before, other, after, rfl, ?_, ?_, ?_⟩
        · rw [flatMap_cons, length_append]
          omega
        · rw [cons_append, flatMap_cons, length_append]
          omega
        · rw [source, cons_append, size_cons, size_cons, Nat.add_assoc, Nat.add_assoc]

theorem length_fold_le {short long : List Char} (starts : short <+: long) :
    (short.flatMap unicode.caseFold).length ≤ (long.flatMap unicode.caseFold).length := by
  obtain ⟨rest, rfl⟩ := starts
  rw [flatMap_append, length_append]
  exact Nat.le_add_right _ _

theorem prefix_of_fold_lt {text short long : List Char} {char : Char} (one : short <+: text)
    (other : long ++ [char] <+: text)
    (less : (short.flatMap unicode.caseFold).length <
      ((long ++ [char]).flatMap unicode.caseFold).length) : short <+: long := by
  rcases prefix_or_prefix_of_prefix one other with inside | contains
  · rcases prefix_concat_iff.mp inside with rfl | inside
    · exact absurd less (Nat.lt_irrefl _)
    · exact inside
  · exact absurd (length_fold_le contains) (Nat.not_le.mpr less)

theorem smallestRun_of_match {text needle : List Char} (filled : needle ≠ []) {index : Nat}
    {span : Span} {first last : FoldChar}
    (matched : MatchedAt (foldedFrom unicode 0 text) needle index span first last) :
    SmallestRun unicode text needle index span := by
  have wide := length_pos_of_ne_nil filled
  obtain ⟨before, head, after, headSplit, headStarts, headStops, headSource⟩ :=
    foldedFrom_source matched.firstAt
  obtain ⟨front, tail, behind, tailSplit, tailStarts, tailStops, tailSource⟩ :=
    foldedFrom_source matched.lastAt
  have headWithin : before ++ [head] <+: text :=
    ⟨after, by rw [headSplit, append_assoc, singleton_append]⟩
  have tailWithin : front ++ [tail] <+: text :=
    ⟨behind, by rw [tailSplit, append_assoc, singleton_append]⟩
  have beforeWithin : before <+: text := ⟨head :: after, headSplit.symm⟩
  obtain ⟨run, whole⟩ : before <+: front ++ [tail] :=
    (@prefix_of_fold_lt unicode _ _ _ _ beforeWithin tailWithin (by omega)).trans (prefix_append _ _)
  refine ⟨before, run, ⟨whole ▸ tailWithin, headStarts, ?_⟩, ?_, ?_⟩
  · rw [whole]
    omega
  · rw [matched.spanned, headSource, tailSource, whole]
    simp only [Nat.zero_add]
  · rintro other otherRun ⟨within, starts, stops⟩
    have otherWithin : other <+: text := (prefix_append other otherRun).trans within
    refine ⟨@prefix_of_fold_lt unicode _ _ _ _ otherWithin headWithin (by omega), ?_⟩
    rw [whole]
    rcases prefix_or_prefix_of_prefix tailWithin within with inside | contains
    · exact inside
    · rcases prefix_concat_iff.mp contains with same | short
      · rw [same]
      · have less := @length_fold_le unicode _ _ short
        omega

end Sources

theorem foldPlain_filled (filled : ∀ char, unicode.caseFold char ≠ []) {needle : String}
    (given : needle ≠ "") : foldPlain unicode needle ≠ [] := by
  intro none
  obtain ⟨first, rest, chars⟩ : ∃ first rest, needle.toList = first :: rest :=
    exists_cons_of_ne_nil (mt String.toList_eq_nil_iff.mp given)
  rw [foldPlain, chars, flatMap_cons, append_eq_nil_iff] at none
  exact filled first none.1

/-- For a needle that is not empty, a search never panics and reports, in order, one span for every
occurrence of the folded needle. An excerpt of a span is a run of whole scalars around it. -/
theorem literalSearch_exact (filled : ∀ char, unicode.caseFold char ≠ []) (text needle : String)
    (given : needle ≠ "") :
    (∃ spans, Fold.findLiteralSpans unicode text needle = some spans ∧
      Forall₂ (SmallestRun unicode text.toList (foldPlain unicode needle))
        (occurrences (foldPlain unicode needle) (foldPlain unicode text)) spans) ∧
    ∀ before run after, text.toList = before ++ run ++ after → ∀ limit, ∃ front part back,
      text.toList = front ++ part ++ back ∧ front <+: before ∧ before ++ run <+: front ++ part ∧
      Fold.excerpt text ⟨size before, size (before ++ run)⟩ limit =
        some (String.ofList (Fold.ellipsis front ++ part ++ Fold.ellipsis back)) := by
  constructor
  · refine ⟨_, Fold.findLiteralSpans_eq unicode text needle, ?_⟩
    have folds := foldPlain_filled filled given
    have reported := matchSpans_occurrences folds (foldedFrom unicode 0 text.toList)
    rw [foldedText_foldedFrom] at reported
    have found : RepoLink.findLiteralSpans unicode text needle =
        matchSpans (foldPlain unicode needle) (foldedFrom unicode 0 text.toList) := by
      unfold RepoLink.findLiteralSpans
      rw [if_neg (by simpa using given)]
      dsimp only
      rw [if_neg (by simpa using folds)]
      rfl
    rw [found]
    refine reported.imp ?_
    rintro index span ⟨first, last, matched⟩
    exact smallestRun_of_match folds matched
  · intro before run after split limit
    have within : size (before ++ run) ≤ size text.toList := by
      rw [split, size_append (before ++ run)]
      exact Nat.le_add_right _ _
    have ordered : size before ≤ size (before ++ run) := by
      rw [size_append]
      exact Nat.le_add_right _ _
    obtain ⟨front, part, back, window, floor, ceil, cut⟩ :=
      @Fold.excerpt_window text ⟨size before, size (before ++ run)⟩ ordered within limit
    refine ⟨front, part, back, window, ?_, ?_, cut⟩
    · have before' : before <+: text.toList := ⟨run ++ after, by rw [split, append_assoc]⟩
      refine prefix_of_size_le ⟨part ++ back, by rw [window, append_assoc]⟩ before' ?_
      rw [floor]
      exact (floorBoundary_le _ _).trans (Nat.sub_le _ _)
    · refine prefix_of_size_le ⟨after, split.symm⟩ ⟨back, window.symm⟩ ?_
      rw [ceil]
      refine Nat.le_trans ?_ (le_ceilBoundary _ _)
      exact Nat.le_min.mpr ⟨Nat.le_add_right _ _, within⟩

/-- The empty needle occurs before every scalar and at the end, and is not reported. -/
theorem emptyNeedle_unreported : (∀ char, asciiTables.caseFold char ≠ []) ∧
    ¬∃ spans, Fold.findLiteralSpans asciiTables "a" "" = some spans ∧
      Forall₂ (SmallestRun asciiTables "a".toList (foldPlain asciiTables ""))
        (occurrences (foldPlain asciiTables "") (foldPlain asciiTables "a")) spans := by
  refine ⟨fun char => cons_ne_nil _ _, ?_⟩
  rintro ⟨spans, found, shown⟩
  cases found
  have lengths := shown.length_eq
  exact absurd lengths (by decide)

theorem literalSearch_exact_banana :
    ∃ spans, Fold.findLiteralSpans asciiTables "banana" "ANA" = some spans ∧
      Forall₂ (SmallestRun asciiTables "banana".toList (foldPlain asciiTables "ANA"))
        (occurrences (foldPlain asciiTables "ANA") (foldPlain asciiTables "banana")) spans :=
  (literalSearch_exact (fun char => cons_ne_nil char.toLower []) "banana" "ANA" (by decide)).1

end RepoLink
