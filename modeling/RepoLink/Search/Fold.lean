import RepoLink.Library.Utf8
import RepoLink.Search.Text

/-!
`fold` of `application-search`, offset by offset: a folded text with the byte ranges of every folded
scalar, slices that panic inside a scalar, and the loop over the matches. It finds the spans that
`Search.Text` finds on lists of scalars, and cuts the same excerpts.
-/

namespace RepoLink.Fold

open Utf8

structure FoldChar where
  foldedStart : Nat
  foldedEnd : Nat
  sourceStart : Nat
  sourceEnd : Nat
deriving DecidableEq, Repr

structure FoldedSource where
  text : List Char
  chars : List FoldChar
deriving DecidableEq, Repr

/-- `text.push(folded)`, with what it was folded from. -/
def FoldedSource.push (source : Span) (out : FoldedSource) (folded : Char) : FoldedSource where
  text := out.text ++ [folded]
  chars := out.chars ++
    [⟨size out.text, size (out.text ++ [folded]), source.start, source.stop⟩]

/-- One round of the loop over `char_indices`. -/
def FoldedSource.foldScalar (unicode : Unicode) (out : FoldedSource) (scalar : Nat × Char) :
    FoldedSource :=
  let (byteOff, char) := scalar
  (unicode.caseFold char).foldl (FoldedSource.push ⟨byteOff, byteOff + char.utf8Size⟩) out

def foldSource (unicode : Unicode) (text : String) : FoldedSource :=
  (charIndices 0 text.toList).foldl (FoldedSource.foldScalar unicode) ⟨[], []⟩

def find (needle : List Char) : List Char → Option Nat
  | [] => if needle.isEmpty then some 0 else none
  | char :: rest =>
    if needle.isPrefixOf (char :: rest) then some 0
    else (find needle rest).map (char.utf8Size + ·)

def mapToRaw (chars : List FoldChar) (mstart mend : Nat) : Option Span := do
  let first ← chars.find? fun char => mstart < char.foldedEnd
  let last := (chars.reverse.find? fun char => char.foldedStart < mend).getD first
  return ⟨first.sourceStart, last.sourceEnd⟩

/-- The loop over the matches from `searchFrom` on; it is none where a slice panics. Each round
leaves a scalar of the text behind, so that `fuel` counts them. -/
def searchLoop (src : FoldedSource) (needle : List Char) :
    (fuel : Nat) → (searchFrom : Nat) → List Span → Option (List Span)
  | 0, _, _ => none
  | fuel + 1, searchFrom, out => do
    let (_, rest) ← splitAt? src.text searchFrom
    match find needle rest with
    | none => return out
    | some pos =>
      let mstart := searchFrom + pos
      let mend := mstart + size needle
      let out := out ++ (mapToRaw src.chars mstart mend).toList
      let (_, hit) ← splitAt? src.text mstart
      match hit with
      | [] => return out
      | char :: _ => searchLoop src needle fuel (mstart + char.utf8Size) out

def findLiteralSpans (unicode : Unicode) (text needle : String) : Option (List Span) :=
  if needle.isEmpty then some []
  else
    let src := foldSource unicode text
    let needleFolded := foldPlain unicode needle
    if needleFolded.isEmpty then some []
    else searchLoop src needleFolded (src.text.length + 1) 0 []

def slice? (raw : List Char) (s e : Nat) : Option (List Char) := do
  let (upTo, _) ← splitAt? raw e
  let (_, part) ← splitAt? upTo s
  return part

def excerpt (raw : String) (span : Span) (limit : Nat) : Option String := do
  let bytes := encode raw.toList
  let start := span.start - limit / 2
  let stop := min (span.stop + limit / 2) bytes.length
  let s := floorBoundary bytes start
  let e := ceilBoundary bytes stop
  let part ← slice? raw.toList s e
  return String.ofList ((if 0 < s then ['…'] else []) ++ part ++
    if e < bytes.length then ['…'] else [])

section Folding

def placed : (offset : Nat) → List RepoLink.FoldChar → List FoldChar
  | _, [] => []
  | offset, char :: rest =>
    ⟨offset, offset + char.folded.utf8Size, char.source.start, char.source.stop⟩ ::
      placed (offset + char.folded.utf8Size) rest

abbrev foldedText (chars : List RepoLink.FoldChar) : List Char := chars.map RepoLink.FoldChar.folded

theorem size_folded_cons (char : RepoLink.FoldChar) (rest : List RepoLink.FoldChar) :
    size (foldedText (char :: rest)) = char.folded.utf8Size + size (foldedText rest) :=
  size_cons _ _

theorem size_folded_append (front back : List RepoLink.FoldChar) :
    size (foldedText (front ++ back)) = size (foldedText front) + size (foldedText back) := by
  rw [foldedText, List.map_append, size_append]

theorem placed_append (front back : List RepoLink.FoldChar) : ∀ offset,
    placed offset (front ++ back) =
      placed offset front ++ placed (offset + size (foldedText front)) back := by
  induction front with
  | nil => exact fun _ => rfl
  | cons char rest ih =>
      intro offset
      rw [List.cons_append, placed, placed, ih, size_folded_cons, List.cons_append, Nat.add_assoc]

def ofChars (chars : List RepoLink.FoldChar) : FoldedSource := ⟨foldedText chars, placed 0 chars⟩

theorem push_ofChars (source : Span) (chars : List RepoLink.FoldChar) (folded : Char) :
    (ofChars chars).push source folded = ofChars (chars ++ [⟨folded, source⟩]) := by
  rw [FoldedSource.push, ofChars, ofChars, placed_append, foldedText, foldedText, List.map_append,
    Nat.zero_add, size_append]
  simp [placed]

theorem foldSource_eq (unicode : Unicode) (text : String) :
    foldSource unicode text = ofChars (RepoLink.foldSource unicode text) := by
  have scalar : ∀ (source : Span) (folded : List Char) (chars : List RepoLink.FoldChar),
      folded.foldl (FoldedSource.push source) (ofChars chars) =
        ofChars (chars ++ folded.map fun char => ⟨char, source⟩) := by
    intro source folded
    induction folded with
    | nil => exact fun chars => by rw [List.map_nil, List.append_nil]; rfl
    | cons char rest ih =>
        intro chars
        rw [List.foldl_cons, push_ofChars, ih, List.map_cons, List.append_assoc]
        rfl
  have all : ∀ (scalars : List (Nat × Char)) (chars : List RepoLink.FoldChar),
      scalars.foldl (FoldedSource.foldScalar unicode) (ofChars chars) =
        ofChars (chars ++ scalars.flatMap fun scalar => (unicode.caseFold scalar.2).map
          fun folded => ⟨folded, scalar.1, scalar.1 + scalar.2.utf8Size⟩) := by
    intro scalars
    induction scalars with
    | nil => exact fun chars => by rw [List.flatMap_nil, List.append_nil]; rfl
    | cons first rest ih =>
        intro chars
        rw [List.foldl_cons, FoldedSource.foldScalar, scalar, ih, List.flatMap_cons,
          List.append_assoc]
  exact all _ []

end Folding

section Matches

variable {needle : List Char}

theorem matchSpans_cons_of_pos {first : RepoLink.FoldChar} {rest : List RepoLink.FoldChar}
    (matched : needle <+: foldedText (first :: rest)) :
    matchSpans needle (first :: rest) =
      ⟨first.source.start, (((first :: rest).take needle.length).getLastD first).source.stop⟩ ::
        matchSpans needle rest := by
  rw [matchSpans]
  exact if_pos (List.isPrefixOf_iff_prefix.mpr matched)

theorem matchSpans_cons_of_neg {first : RepoLink.FoldChar} {rest : List RepoLink.FoldChar}
    (missed : ¬needle <+: foldedText (first :: rest)) :
    matchSpans needle (first :: rest) = matchSpans needle rest := by
  rw [matchSpans]
  exact if_neg (mt List.isPrefixOf_iff_prefix.mp missed)

theorem find_none : ∀ {chars : List RepoLink.FoldChar},
    find needle (foldedText chars) = none → matchSpans needle chars = [] := by
  intro chars
  induction chars with
  | nil => exact fun _ => rfl
  | cons first rest ih =>
      intro missed
      rw [foldedText, List.map_cons, find] at missed
      split at missed
      · cases missed
      · rename_i absent
        rw [matchSpans_cons_of_neg (mt List.isPrefixOf_iff_prefix.mpr absent)]
        exact ih (Option.map_eq_none_iff.mp missed)

theorem find_some (filled : needle ≠ []) : ∀ {chars : List RepoLink.FoldChar} {pos : Nat},
    find needle (foldedText chars) = some pos → ∃ skipped first rest,
      chars = skipped ++ first :: rest ∧ pos = size (foldedText skipped) ∧
      needle <+: foldedText (first :: rest) ∧
      matchSpans needle chars = matchSpans needle (first :: rest) := by
  intro chars
  induction chars with
  | nil =>
      intro pos found
      rw [foldedText, List.map_nil, find, if_neg (by simpa using filled)] at found
      cases found
  | cons first rest ih =>
      intro pos found
      rw [foldedText, List.map_cons, find] at found
      split at found
      · rename_i matched
        cases found
        exact ⟨[], first, rest, rfl, rfl, List.isPrefixOf_iff_prefix.mp matched, rfl⟩
      · rename_i absent
        obtain ⟨later, inRest, rfl⟩ := Option.map_eq_some_iff.mp found
        obtain ⟨skipped, hit, more, rfl, rfl, matched, same⟩ := ih inRest
        refine ⟨first :: skipped, hit, more, rfl, (size_cons _ _).symm, matched, ?_⟩
        rw [matchSpans_cons_of_neg (mt List.isPrefixOf_iff_prefix.mpr absent), same]

theorem placed_bounds : ∀ {chars : List RepoLink.FoldChar} {offset : Nat} {char : FoldChar},
    char ∈ placed offset chars → offset ≤ char.foldedStart ∧
      char.foldedEnd ≤ offset + size (foldedText chars) := by
  intro chars
  induction chars with
  | nil => exact fun member => (List.not_mem_nil member).elim
  | cons first rest ih =>
      intro offset char member
      rw [size_folded_cons]
      rcases List.mem_cons.mp member with rfl | later
      · exact ⟨Nat.le_refl _, by dsimp only; omega⟩
      · have bounds := ih later
        omega

theorem match_split {chars : List RepoLink.FoldChar} (filled : needle ≠ [])
    (matched : needle <+: foldedText chars) : ∃ init last behind,
      chars = init ++ last :: behind ∧ foldedText (init ++ [last]) = needle ∧
      ∀ first, (chars.take needle.length).getLastD first = last := by
  obtain ⟨after, same⟩ := matched
  obtain ⟨middle, behind, rfl, rfl, rfl⟩ := List.map_eq_append_iff.mp same.symm
  rcases List.eq_nil_or_concat middle with rfl | ⟨init, last, rfl⟩
  · exact absurd rfl filled
  · refine ⟨init, last, behind, ?_, ?_, fun first => ?_⟩
    · rw [List.concat_eq_append, List.append_assoc, List.singleton_append]
    · rw [List.concat_eq_append]
    · rw [List.length_map, List.take_left, List.concat_eq_append, List.getLastD_concat]

/-- The raw span goes from the scalar of the first folded scalar to that of the last one. -/
theorem mapToRaw_match {before rest : List RepoLink.FoldChar} {first : RepoLink.FoldChar}
    (filled : needle ≠ []) (matched : needle <+: foldedText (first :: rest)) :
    mapToRaw (placed 0 (before ++ first :: rest)) (size (foldedText before))
      (size (foldedText before) + size needle) =
    some ⟨first.source.start,
      (((first :: rest).take needle.length).getLastD first).source.stop⟩ := by
  have firstFound : (placed 0 (before ++ first :: rest)).find?
      (fun char => size (foldedText before) < char.foldedEnd) =
        some ⟨size (foldedText before), size (foldedText before) + first.folded.utf8Size,
          first.source.start, first.source.stop⟩ := by
    rw [placed_append, List.find?_append, List.find?_eq_none.mpr, Option.none_or, Nat.zero_add,
      placed, List.find?_cons_of_pos (by simp [first.folded.utf8Size_pos])]
    intro char member
    have bounds := placed_bounds member
    rw [decide_eq_true_iff]
    omega
  obtain ⟨init, last, behind, split, folded, lastOf⟩ := match_split filled matched
  have stop : size (foldedText before) + size needle =
      size (foldedText (before ++ init)) + last.folded.utf8Size := by
    rw [← folded, size_folded_append, size_folded_append, size_folded_cons, Nat.add_assoc]
    rfl
  have lastFound : (placed 0 (before ++ first :: rest)).reverse.find?
      (fun char => char.foldedStart < size (foldedText before) + size needle) =
        some ⟨size (foldedText (before ++ init)),
          size (foldedText (before ++ init)) + last.folded.utf8Size, last.source.start,
          last.source.stop⟩ := by
    rw [split, ← List.append_assoc, placed_append, List.reverse_append, List.find?_append,
      Nat.zero_add, placed, List.reverse_cons, List.find?_append, List.find?_eq_none.mpr,
      Option.none_or, List.find?_cons_of_pos (by simp [stop, last.folded.utf8Size_pos])]
    · rfl
    · intro char member
      have bounds := placed_bounds (List.mem_reverse.mp member)
      rw [decide_eq_true_iff]
      omega
  rw [mapToRaw, firstFound, lastFound, lastOf first]
  rfl

end Matches

/-- The loop finds the matches behind the folded scalars before `searchFrom`. -/
theorem searchLoop_eq {needle : List Char} (filled : needle ≠ []) :
    ∀ {fuel : Nat} {before behind : List RepoLink.FoldChar} {out : List Span},
      behind.length < fuel →
      searchLoop (ofChars (before ++ behind)) needle fuel (size (foldedText before)) out =
        some (out ++ matchSpans needle behind) := by
  have cut (before behind : List RepoLink.FoldChar) :
      splitAt? (ofChars (before ++ behind)).text (size (foldedText before)) =
        some (foldedText before, foldedText behind) := by
    rw [ofChars, foldedText, List.map_append]
    exact splitAt?_append _ _
  intro fuel
  induction fuel with
  | zero => exact fun short => absurd short (Nat.not_lt_zero _)
  | succ fuel ih =>
      intro before behind out enough
      rw [searchLoop, cut]
      simp only [Option.bind_eq_bind, Option.bind_some]
      cases found : find needle (foldedText behind) with
      | none =>
          rw [find_none found, List.append_nil]
          rfl
      | some pos =>
          obtain ⟨skipped, first, rest, rfl, rfl, matched, same⟩ := find_some filled found
          have mstart : size (foldedText before) + size (foldedText skipped) =
              size (foldedText (before ++ skipped)) := (size_folded_append _ _).symm
          have next : size (foldedText (before ++ skipped)) + first.folded.utf8Size =
              size (foldedText (before ++ skipped ++ [first])) := by
            rw [size_folded_append _ [first], size_folded_cons]
            rfl
          have later := cut (before ++ skipped) (first :: rest)
          rw [List.append_assoc] at later
          rw [List.length_append, List.length_cons] at enough
          have whole : before ++ (skipped ++ first :: rest) =
              before ++ skipped ++ [first] ++ rest := by
            simp only [List.append_assoc, List.singleton_append]
          have span := @mapToRaw_match needle (before ++ skipped) rest first filled matched
          rw [List.append_assoc] at span
          simp only [mstart, later, Option.bind_some]
          change searchLoop (ofChars (before ++ (skipped ++ first :: rest))) needle fuel
            (size (foldedText (before ++ skipped)) + first.folded.utf8Size)
            (out ++ (mapToRaw (placed 0 (before ++ (skipped ++ first :: rest))) _ _).toList) = _
          rw [span, whole, next, ih (by omega), same, matchSpans_cons_of_pos matched,
            Option.toList_some, List.append_assoc, List.singleton_append]

theorem findLiteralSpans_eq (unicode : Unicode) (text needle : String) :
    findLiteralSpans unicode text needle = some (RepoLink.findLiteralSpans unicode text needle) := by
  unfold findLiteralSpans RepoLink.findLiteralSpans
  split
  · rfl
  · dsimp only
    split
    · rfl
    · rename_i filled
      rw [foldSource_eq]
      have ran := @searchLoop_eq (foldPlain unicode needle) (by simpa using filled)
        ((ofChars (RepoLink.foldSource unicode text)).text.length + 1) []
        (RepoLink.foldSource unicode text) [] (by simp [ofChars])
      exact ran

section Excerpts

theorem slice?_eq (front part back : List Char) :
    slice? (front ++ part ++ back) (size front) (size (front ++ part)) = some part := by
  rw [slice?, splitAt?_append, Option.bind_eq_bind, Option.bind_some]
  dsimp only
  rw [splitAt?_append]
  rfl

def ellipsis (left : List Char) : List Char := if left.isEmpty then [] else ['…']

theorem ellipsis_before (left : List Char) :
    (if 0 < size left then ['…'] else []) = ellipsis left := by
  cases left with
  | nil => rfl
  | cons char rest => exact if_pos (size_pos (List.cons_ne_nil char rest))

theorem excerpt_window {raw : String} {span : Span} (ordered : span.start ≤ span.stop)
    (within : span.stop ≤ size raw.toList) (limit : Nat) : ∃ front part back,
      raw.toList = front ++ part ++ back ∧
      size front = floorBoundary (encode raw.toList) (span.start - limit / 2) ∧
      size (front ++ part) = ceilBoundary (encode raw.toList)
        (min (span.stop + limit / 2) (size raw.toList)) ∧
      excerpt raw span limit =
        some (String.ofList (ellipsis front ++ part ++ ellipsis back)) := by
  obtain ⟨front, part, back, text, floor, ceil⟩ := @window_exists raw.toList
    (span.start - limit / 2) (min (span.stop + limit / 2) (size raw.toList)) (by omega) (by omega)
  refine ⟨front, part, back, text, floor, ceil, ?_⟩
  have behind : (if size (front ++ part) < size raw.toList then ['…'] else []) = ellipsis back := by
    rw [← ellipsis_before, text, size_append (front ++ part)]
    exact if_congr (by omega) rfl rfl
  unfold excerpt
  dsimp only
  rw [length_encode, ← floor, ← ceil, text, slice?_eq, ← text]
  change some (String.ofList ((if 0 < size front then ['…'] else []) ++ part ++
    if size (front ++ part) < size raw.toList then ['…'] else [])) = _
  rw [behind, ellipsis_before]

theorem charIndices_append (front back : List Char) : ∀ offset,
    charIndices offset (front ++ back) =
      charIndices offset front ++ charIndices (offset + size front) back := by
  induction front with
  | nil => exact fun _ => rfl
  | cons char rest ih =>
      intro offset
      rw [List.cons_append, charIndices, charIndices, ih, size_cons, List.cons_append,
        Nat.add_assoc]

theorem mem_charIndices : ∀ {text : List Char} {offset : Nat} {scalar : Nat × Char},
    scalar ∈ charIndices offset text → ∃ before after, text = before ++ scalar.2 :: after ∧
      scalar.1 = offset + size before := by
  intro text
  induction text with
  | nil => exact fun member => (List.not_mem_nil member).elim
  | cons char rest ih =>
      intro offset scalar member
      rcases List.mem_cons.mp member with rfl | later
      · exact ⟨[], rest, rfl, rfl⟩
      · obtain ⟨before, after, rfl, place⟩ := ih later
        refine ⟨char :: before, after, rfl, ?_⟩
        rw [place, size_cons, Nat.add_assoc]

theorem charIndices_snd (text : List Char) : ∀ offset,
    (charIndices offset text).map Prod.snd = text := by
  induction text with
  | nil => exact fun _ => rfl
  | cons char rest ih => exact fun offset => congrArg (char :: ·) (ih _)

theorem charIndices_bounds {text : List Char} {offset : Nat} {scalar : Nat × Char}
    (member : scalar ∈ charIndices offset text) :
    offset ≤ scalar.1 ∧ scalar.1 + scalar.2.utf8Size ≤ offset + size text := by
  obtain ⟨before, after, rfl, place⟩ := mem_charIndices member
  rw [place, size_append, size_cons]
  omega

theorem window_edges {text front part : List Char} {start stop : Nat}
    (floor : size front = floorBoundary (encode text) start)
    (ceil : size (front ++ part) = ceilBoundary (encode text) stop) {scalar : Nat × Char}
    (member : scalar ∈ charIndices 0 text) :
    (scalar.1 + scalar.2.utf8Size ≤ start ↔ scalar.1 + scalar.2.utf8Size ≤ size front) ∧
      (stop ≤ scalar.1 ↔ size (front ++ part) ≤ scalar.1) := by
  obtain ⟨before, after, split, place⟩ := mem_charIndices member
  rw [Nat.zero_add] at place
  have starts : isBoundary (encode text) scalar.1 = true :=
    isBoundary_iff.mpr ⟨before, scalar.2 :: after, split, place.symm⟩
  have ends : isBoundary (encode text) (scalar.1 + scalar.2.utf8Size) = true := by
    refine isBoundary_iff.mpr ⟨before ++ [scalar.2], after, ?_, ?_⟩
    · rw [split, List.append_assoc, List.singleton_append]
    · rw [size_append, place]
      rfl
  rw [floor, ceil]
  refine ⟨⟨le_floorBoundary _ ends, fun early => ?_⟩, ceilBoundary_le _ starts, fun late => ?_⟩
  · exact Nat.le_trans early (floorBoundary_le _ start)
  · exact Nat.le_trans (le_ceilBoundary _ stop) late

section Window

variable {front part back : List Char} {start stop : Nat}

theorem charIndices_window (front part back : List Char) :
    charIndices 0 (front ++ part ++ back) = charIndices 0 front ++
      charIndices (size front) part ++ charIndices (size (front ++ part)) back := by
  rw [charIndices_append, charIndices_append, Nat.zero_add, Nat.zero_add]

variable (floor : size front = floorBoundary (encode (front ++ part ++ back)) start)
variable (ceil : size (front ++ part) = ceilBoundary (encode (front ++ part ++ back)) stop)

include floor ceil

theorem window_kept : ((charIndices 0 (front ++ part ++ back)).filter fun scalar =>
    start < scalar.1 + scalar.2.utf8Size && scalar.1 < stop) = charIndices (size front) part := by
  have edges {scalar : Nat × Char} := @window_edges _ front part start stop floor ceil scalar
  rw [charIndices_window] at edges ⊢
  rw [List.filter_append, List.filter_append, List.filter_eq_nil_iff.mpr,
    List.filter_eq_self.mpr, List.filter_eq_nil_iff.mpr, List.nil_append, List.append_nil]
  · intro scalar member
    have edge := edges (List.mem_append_right _ member)
    have bounds := charIndices_bounds member
    simp only [Bool.and_eq_true, decide_eq_true_eq]
    omega
  · intro scalar member
    have edge := edges (List.mem_append_left _ (List.mem_append_right _ member))
    have bounds := charIndices_bounds member
    have wide := scalar.2.utf8Size_pos
    rw [← size_append] at bounds
    simp only [Bool.and_eq_true, decide_eq_true_eq]
    omega
  · intro scalar member
    have edge := edges (List.mem_append_left _ (List.mem_append_left _ member))
    have bounds := charIndices_bounds member
    simp only [Bool.and_eq_true, decide_eq_true_eq]
    omega

theorem window_before : ((charIndices 0 (front ++ part ++ back)).any fun scalar =>
    scalar.1 + scalar.2.utf8Size ≤ start) = !front.isEmpty := by
  have edges {scalar : Nat × Char} := @window_edges _ front part start stop floor ceil scalar
  cases front with
  | nil =>
      refine List.any_eq_false.mpr fun scalar member => ?_
      have edge := (edges member).1
      have wide := scalar.2.utf8Size_pos
      rw [size_nil] at edge
      rw [decide_eq_true_iff]
      omega
  | cons char rest =>
      refine List.any_eq_true.mpr ⟨(0, char), List.mem_cons_self, decide_eq_true ?_⟩
      refine (edges List.mem_cons_self).1.mpr ?_
      rw [size_cons]
      dsimp only
      omega

theorem window_behind : ((charIndices 0 (front ++ part ++ back)).any fun scalar =>
    stop ≤ scalar.1) = !back.isEmpty := by
  have edges {scalar : Nat × Char} := @window_edges _ front part start stop floor ceil scalar
  cases back with
  | nil =>
      refine List.any_eq_false.mpr fun scalar member => ?_
      have edge := (edges member).2
      have bounds := charIndices_bounds member
      have wide := scalar.2.utf8Size_pos
      rw [List.append_nil] at bounds
      rw [decide_eq_true_iff]
      omega
  | cons char rest =>
      have member : (size (front ++ part), char) ∈ charIndices 0 (front ++ part ++ char :: rest) := by
        rw [charIndices_window]
        exact List.mem_append_right _ List.mem_cons_self
      exact List.any_eq_true.mpr
        ⟨_, member, decide_eq_true ((edges member).2.mpr (Nat.le_refl _))⟩

end Window

theorem excerpt_eq {raw : String} {span : Span} (ordered : span.start ≤ span.stop)
    (within : span.stop ≤ size raw.toList) (limit : Nat) :
    excerpt raw span limit = some (RepoLink.excerpt raw span limit) := by
  obtain ⟨front, part, back, text, floor, ceil, cut⟩ := excerpt_window ordered within limit
  rw [cut, RepoLink.excerpt, utf8ByteSize_eq]
  generalize span.start - limit / 2 = start at floor ⊢
  generalize min (span.stop + limit / 2) (size raw.toList) = stop at ceil ⊢
  rw [text] at floor ceil ⊢
  have marks (left : List Char) : (if (!left.isEmpty) = true then ['…'] else []) = ellipsis left := by
    cases left <;> rfl
  have kept := congrArg (List.map Prod.snd) (window_kept floor ceil)
  rw [charIndices_snd] at kept
  rw [← marks front, ← marks back, ← window_before floor ceil, ← window_behind floor ceil]
  exact congrArg (fun window => some (String.ofList (_ ++ window ++ _))) kept.symm

end Excerpts

end RepoLink.Fold
