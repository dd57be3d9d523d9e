import RepoLink.Search.Packing

/-!
Chunking loses no text. A chunk is the header with whole paragraphs behind it, a blank line between
any two, or with one piece of a paragraph that did not fit.
-/

namespace RepoLink

def glued (header : List Char) : List (List Char) → List Char
  | [] => header
  | first :: rest => header ++ first ++ rest.flatMap (['\n', '\n'] ++ ·)

def filledParagraphs (body : List Char) : List (List Char) :=
  (splitParagraphs [] body).filter fun paragraph => !paragraph.isEmpty

/-- The header of the chunks that hold text, with the title cut short if it is too long. -/
def packHeader (title : List Char) (label : String) : List Char :=
  if chunkBudgetBytes < Utf8.size (chunkHeader title label ++ ['\n']) then
    chunkHeader (boundedAnchor title label) label ++ ['\n']
  else chunkHeader title label ++ ['\n']

/-- The chunks hold the pieces of these paragraphs in order and nothing else. A chunk that holds
more than one text holds whole paragraphs. -/
def Rejoins (header : List Char) (paragraphs chunks : List (List Char)) : Prop :=
  ∃ texts pieces : List (List (List Char)),
    chunks = texts.map (glued header) ∧ texts.flatten = pieces.flatten ∧
      pieces.map List.flatten = paragraphs ∧
      ∀ held ∈ texts, (∃ piece, held = [piece]) ∨ ∀ text ∈ held, text ∈ paragraphs

section Glue

variable (header : List Char)

theorem glued_headed (held : List (List Char)) : header <+: glued header held := by
  cases held with
  | nil => exact List.prefix_rfl
  | cons first rest =>
      rw [glued, List.append_assoc]
      exact List.prefix_append header _

theorem glued_longer {held : List (List Char)} (filled : ∀ text ∈ held, text ≠ []) :
    Utf8.size header < Utf8.size (glued header held) ↔ held ≠ [] := by
  cases held with
  | nil => simp [glued]
  | cons first rest =>
      have some := Utf8.size_pos (filled first List.mem_cons_self)
      simp only [glued, Utf8.size_append, ne_eq, reduceCtorEq, not_false_eq_true, iff_true]
      omega

theorem glued_append {held : List (List Char)} (filled : ∀ text ∈ held, text ≠ [])
    (paragraph : List Char) :
    glued header held ++
        (if Utf8.size header < Utf8.size (glued header held) then ['\n', '\n'] else []) ++
        paragraph = glued header (held ++ [paragraph]) := by
  cases held with
  | nil => simp [glued]
  | cons first rest =>
      rw [if_pos ((glued_longer header filled).mpr (List.cons_ne_nil first rest))]
      simp [glued]

theorem flush_glued {held : List (List Char)} (filled : ∀ text ∈ held, text ≠ []) :
    ∃ texts : List (List (List Char)),
      (if Utf8.size header < Utf8.size (glued header held) then [glued header held] else []) =
        texts.map (glued header) ∧ texts.flatten = held ∧ ∀ texts' ∈ texts, texts' = held := by
  by_cases empty : held = []
  · rw [if_neg (mt (glued_longer header filled).mp (not_not.mpr empty)), empty]
    exact ⟨[], rfl, rfl, fun _ member => (List.not_mem_nil member).elim⟩
  · rw [if_pos ((glued_longer header filled).mpr empty)]
    exact ⟨[held], rfl, List.append_nil held, fun _ member => List.mem_singleton.mp member⟩

end Glue

section Packs

/-- From a chunk that holds `held` on, the chunks hold it and what is left. -/
theorem packParagraphs_rejoins (header : List Char) : ∀ paragraphs held : List (List Char),
    (∀ text ∈ held, text ≠ []) → ∃ texts pieces : List (List (List Char)),
      packParagraphs header (glued header held) paragraphs = texts.map (glued header) ∧
        texts.flatten = held ++ pieces.flatten ∧
        pieces.map List.flatten = paragraphs.filter (fun paragraph => !paragraph.isEmpty) ∧
        ∀ texts' ∈ texts, (∃ piece, texts' = [piece]) ∨
          ∀ text ∈ texts', text ∈ held ++ paragraphs.filter fun paragraph => !paragraph.isEmpty := by
  intro paragraphs
  induction paragraphs with
  | nil =>
      intro held filled
      obtain ⟨texts, chunks, flat, same⟩ := flush_glued header filled
      refine ⟨texts, [], chunks, by rw [flat]; simp, rfl, fun texts' member => .inr ?_⟩
      rw [same texts' member]
      exact fun text inHeld => List.mem_append_left _ inHeld
  | cons paragraph rest ih =>
      intro held filled
      rw [packParagraphs]
      by_cases empty : paragraph.isEmpty = true
      · rw [if_pos empty, List.filter_cons_of_neg (by simp [empty])]
        exact ih held filled
      rw [if_neg empty, List.filter_cons_of_pos (by simp [empty])]
      dsimp only
      rw [glued_append header filled]
      by_cases fits : Utf8.size (glued header (held ++ [paragraph])) ≤ chunkBudgetBytes
      · -- the paragraph joins the chunk
        rw [if_pos fits]
        obtain ⟨texts, pieces, chunks, flat, joined, whole⟩ := ih (held ++ [paragraph])
          (List.forall_mem_append.mpr ⟨filled, List.forall_mem_singleton.mpr
            fun none => empty (List.isEmpty_iff.mpr none)⟩)
        refine ⟨texts, [paragraph] :: pieces, chunks, ?_, ?_, fun texts' member => ?_⟩
        · rw [flat, List.flatten_cons, List.append_assoc]
        · rw [List.map_cons, joined, List.flatten_singleton]
        · have kept := whole texts' member
          rwa [List.append_assoc, List.singleton_append] at kept
      · -- the chunk goes out, and the paragraph follows in pieces of its own
        rw [if_neg fits]
        obtain ⟨before, flushed, flushedFlat, flushedSame⟩ := flush_glued header filled
        obtain ⟨after, pieces, chunks, flat, joined, whole⟩ :=
          ih [] fun _ member => (List.not_mem_nil member).elim
        let cut := paragraphPieces header paragraph.length paragraph
        refine ⟨before ++ cut.map ([·]) ++ after, cut :: pieces, ?_, ?_, ?_, ?_⟩
        · change _ ++ cut.map (header ++ ·) ++ packParagraphs header (glued header []) rest = _
          rw [flushed, chunks, List.map_append, List.map_append, List.map_map]
          congr 2
          simp [glued]
        · rw [List.flatten_append, List.flatten_append, flushedFlat, flat, List.flatten_cons,
            List.nil_append, ← List.flatMap_def, List.flatMap_singleton', List.append_assoc]
        · rw [List.map_cons, joined,
            paragraphPieces_flatten header paragraph.length paragraph (Nat.le_refl _)]
        · intro texts' member
          rcases List.mem_append.mp member with early | late
          · rcases List.mem_append.mp early with old | new
            · rw [flushedSame texts' old]
              exact .inr fun text inHeld => List.mem_append_left _ inHeld
            · obtain ⟨piece, _, rfl⟩ := List.mem_map.mp new
              exact .inl ⟨piece, rfl⟩
          · refine (whole texts' late).imp_right fun among text inTexts => ?_
            exact List.mem_append_right _ (List.mem_cons_of_mem _ (among text inTexts))

theorem packBody_rejoins (header body : List Char) :
    Rejoins header (filledParagraphs body) (packBody header body) := by
  obtain ⟨texts, pieces, chunks, flat, joined, whole⟩ :=
    packParagraphs_rejoins header (splitParagraphs [] body) []
      fun _ member => (List.not_mem_nil member).elim
  exact ⟨texts, pieces, chunks, flat, joined, whole⟩

end Packs

/-- The loops come to an end without slicing a scalar, each chunk of theirs starts with the header,
and together they hold the paragraphs of the body. The full title goes ahead if it is too long for
a header. -/
theorem chunking_lossless (title body : List Char) (label : String) (allowTitleOnly : Bool)
    (filled : (normalizeNewlines body).all isWhitespace = false) :
    ∃ titled chunks, (titled = [] ∨ titled = [chunkHeader title label]) ∧
      (∀ fuel, body.length ≤ fuel →
        chunkFormattedLoop fuel title body label allowTitleOnly = some (titled ++ chunks) ∧
        packBodyLoop fuel (packHeader title label) (normalizeNewlines body) = some chunks) ∧
      (∀ chunk ∈ chunks, packHeader title label <+: chunk) ∧
      Rejoins (packHeader title label) (filledParagraphs (normalizeNewlines body)) chunks := by
  let header := packHeader title label
  let titled := if chunkBudgetBytes < Utf8.size (chunkHeader title label ++ ['\n']) then
    [chunkHeader title label] else []
  have formatted : chunkFormatted title body label allowTitleOnly =
      titled ++ packBody header (normalizeNewlines body) := by
    simp only [chunkFormatted, filled, Bool.false_eq_true, if_false, titled, header, packHeader]
    split <;> rfl
  have rejoins := packBody_rejoins header (normalizeNewlines body)
  refine ⟨titled, packBody header (normalizeNewlines body), ?_, fun fuel enough => ⟨?_, ?_⟩, ?_,
    rejoins⟩
  · exact (ite_eq_or_eq _ _ _).symm
  · rw [chunkFormattedLoop_eq enough, formatted]
  · exact packBodyLoop_eq header (Nat.le_trans (normalizeNewlines_length body) enough)
  · obtain ⟨texts, _, chunks, _⟩ := rejoins
    intro chunk member
    rw [chunks] at member
    obtain ⟨held, _, rfl⟩ := List.mem_map.mp member
    exact glued_headed header held

theorem chunking_lossless_twoParagraphs :
    ∃ titled chunks, (titled = [] ∨ titled = [chunkHeader ['t'] "Comment"]) ∧
      (∀ fuel, 4 ≤ fuel →
        chunkFormattedLoop fuel ['t'] ['a', '\n', '\n', 'é'] "Comment" false =
          some (titled ++ chunks) ∧
        packBodyLoop fuel (packHeader ['t'] "Comment")
          (normalizeNewlines ['a', '\n', '\n', 'é']) = some chunks) ∧
      (∀ chunk ∈ chunks, packHeader ['t'] "Comment" <+: chunk) ∧
      Rejoins (packHeader ['t'] "Comment")
        (filledParagraphs (normalizeNewlines ['a', '\n', '\n', 'é'])) chunks :=
  chunking_lossless ['t'] ['a', '\n', '\n', 'é'] "Comment" false (by decide)

end RepoLink
