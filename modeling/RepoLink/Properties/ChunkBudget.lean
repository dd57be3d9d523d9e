import RepoLink.Search.Chunker

/-!
The byte budget of the chunks. Packing stays within it as long as a header leaves room for a
scalar; behind a header that does not, one scalar goes out anyway.
-/

namespace RepoLink

def ChunkKind.label : ChunkKind → String
  | .core => "Description"
  | .comment => "Comment"

def TaskTextRow.header (row : TaskTextRow) (kind : ChunkKind) : List Char :=
  chunkHeader row.title.toList kind.label ++ ['\n']

def ChunkTarget.IsFullTitle (row : TaskTextRow) (target : ChunkTarget) : Prop :=
  chunkBudgetBytes < Utf8.size (row.header target.kind) ∧
    target.text.toList = chunkHeader row.title.toList target.kind.label

def Overhangs (header piece : List Char) : Prop :=
  ∃ scalar, piece = header ++ [scalar] ∧ Utf8.size header ≤ chunkBudgetBytes ∧
    chunkBudgetBytes < Utf8.size header + scalar.utf8Size

theorem paragraphHead_budget (header : List Char) {text : List Char} (nonempty : text ≠ []) :
    Utf8.size (paragraphHead header text) ≤ chunkBudgetBytes - Utf8.size header ∨
      ∃ scalar, paragraphHead header text = [scalar] ∧
        chunkBudgetBytes - Utf8.size header < scalar.utf8Size := by
  unfold paragraphHead
  have fits := takeBytes_fits (chunkBudgetBytes - Utf8.size header) text
  cases fitting : takeBytes (chunkBudgetBytes - Utf8.size header) text with
  | nil =>
      obtain ⟨scalar, rest, rfl⟩ := List.exists_cons_of_ne_nil nonempty
      exact .inr ⟨scalar, rfl, takeBytes_empty fitting⟩
  | cons first rest =>
      rw [fitting] at fits
      refine .inl ?_
      have cut := dropBack_prefix (fun char => !isTerminator char) (first :: rest)
      dsimp only
      cases sentence : ((first :: rest).reverse.dropWhile fun char => !isTerminator char).reverse with
      | nil => exact fits
      | cons char more =>
          rw [sentence] at cut
          exact Nat.le_trans (Utf8.size_le_of_prefix cut) fits

section Packing

variable {header : List Char}

def Budgeted (header piece : List Char) : Prop :=
  Utf8.size piece ≤ chunkBudgetBytes ∨ Overhangs header piece

theorem paragraphPieces_budget (room : Utf8.size header ≤ chunkBudgetBytes) (fuel : Nat)
    (text : List Char) :
    ∀ piece ∈ paragraphPieces header fuel text, Budgeted header (header ++ piece) := by
  induction fuel generalizing text with
  | zero => exact fun _ member => (List.not_mem_nil member).elim
  | succ fuel ih =>
      intro piece member
      rw [paragraphPieces] at member
      split at member
      · exact (List.not_mem_nil member).elim
      · rename_i filled
        rcases List.mem_cons.mp member with rfl | later
        · have nonempty : text ≠ [] := fun empty => filled (List.isEmpty_iff.mpr empty)
          rcases paragraphHead_budget header nonempty with fits | ⟨scalar, single, large⟩
          · refine .inl ?_
            rw [Utf8.size_append]
            omega
          · exact .inr ⟨scalar, congrArg (header ++ ·) single, room, by omega⟩
        · exact ih _ piece later

theorem packParagraphs_budget (room : Utf8.size header ≤ chunkBudgetBytes)
    (paragraphs : List (List Char)) : ∀ current, Utf8.size current ≤ chunkBudgetBytes →
      ∀ piece ∈ packParagraphs header current paragraphs, Budgeted header piece := by
  have flushed : ∀ current, Utf8.size current ≤ chunkBudgetBytes →
      ∀ piece ∈ (if Utf8.size header < Utf8.size current then [current] else []),
        Budgeted header piece := by
    intro current within piece member
    rw [List.mem_singleton.mp (List.mem_ite_nil_right.mp member).2]
    exact .inl within
  induction paragraphs with
  | nil => exact flushed
  | cons paragraph rest ih =>
      intro current within piece member
      rw [packParagraphs] at member
      split at member
      · exact ih current within piece member
      · dsimp only at member
        by_cases fits : Utf8.size (current ++
          (if Utf8.size header < Utf8.size current then ['\n', '\n'] else []) ++ paragraph) ≤
            chunkBudgetBytes
        · rw [if_pos fits] at member
          exact ih _ fits piece member
        · rw [if_neg fits] at member
          rcases List.mem_append.mp member with before | after
          · rcases List.mem_append.mp before with first | cut
            · exact flushed current within piece first
            · obtain ⟨fragment, inPieces, rfl⟩ := List.mem_map.mp cut
              exact paragraphPieces_budget room _ paragraph fragment inPieces
          · exact ih header room piece after

theorem Budgeted.within (roomy : Utf8.size header + 4 ≤ chunkBudgetBytes) {piece : List Char}
    (budgeted : Budgeted header piece) : Utf8.size piece ≤ chunkBudgetBytes := by
  rcases budgeted with within | ⟨scalar, _, _, hanging⟩
  · exact within
  · have width := Char.utf8Size_le_four scalar
    omega

end Packing

theorem header_shape (title : List Char) (label : String) :
    chunkHeader title label ++ ['\n'] =
      "Title: ".toList ++ (title ++ ("\n\n".toList ++ (label.toList ++ ([':'] ++ ['\n'])))) := by
  unfold chunkHeader
  rw [List.append_assoc, List.append_assoc, List.append_assoc, List.append_assoc]

theorem size_header (title : List Char) (label : String) :
    Utf8.size (chunkHeader title label ++ ['\n']) =
      Utf8.size (chunkHeader [] label ++ ['\n']) + Utf8.size title := by
  rw [header_shape, header_shape]
  exact size_middle _ _ _

theorem boundedAnchor_room (title : List Char) (kind : ChunkKind) :
    Utf8.size (chunkHeader (boundedAnchor title kind.label) kind.label ++ ['\n']) ≤ 600 := by
  have fixed : Utf8.size (chunkHeader [] kind.label ++ ['\n']) ≤ 22 := by
    cases kind <;> decide
  have ellipsis : '…'.utf8Size = 3 := by decide
  rw [size_header]
  unfold boundedAnchor
  generalize Utf8.size (chunkHeader [] kind.label ++ ['\n']) = header at fixed
  unfold chunkBudgetBytes
  dsimp only
  rw [ellipsis]
  split
  · omega
  · have cut := takeBytes_fits (900 - (header + 3 + 300)) title
    rw [Utf8.size_append, Utf8.size_cons, Utf8.size_nil, ellipsis]
    omega

theorem chunkFormatted_budget (title body : List Char) (kind : ChunkKind) (titleOnly : Bool) :
    ∀ piece ∈ chunkFormatted title body kind.label titleOnly,
      Budgeted (chunkHeader title kind.label ++ ['\n']) piece ∨
        chunkBudgetBytes < Utf8.size (chunkHeader title kind.label ++ ['\n']) ∧
          piece = chunkHeader title kind.label := by
  intro piece member
  rw [chunkFormatted] at member
  by_cases blank : (normalizeNewlines body).all isWhitespace = true
  · rw [if_pos blank] at member
    cases titleOnly with
    | false => exact (List.not_mem_nil member).elim
    | true =>
        rw [List.mem_singleton.mp member]
        by_cases long : chunkBudgetBytes < Utf8.size (chunkHeader title kind.label ++ ['\n'])
        · exact .inr ⟨long, rfl⟩
        · rw [Utf8.size_append] at long
          exact .inl (.inl (by omega))
  · rw [if_neg blank] at member
    by_cases long : chunkBudgetBytes < Utf8.size (chunkHeader title kind.label ++ ['\n'])
    · rw [if_pos long] at member
      rcases List.mem_cons.mp member with rfl | packed
      · exact .inr ⟨long, rfl⟩
      · have anchored := boundedAnchor_room title kind
        have roomy : Utf8.size
            (chunkHeader (boundedAnchor title kind.label) kind.label ++ ['\n']) + 4 ≤
              chunkBudgetBytes := by
          unfold chunkBudgetBytes
          omega
        have room := Nat.le_trans (Nat.le_add_right _ 4) roomy
        exact .inl (.inl ((packParagraphs_budget room _ _ room piece packed).within roomy))
    · rw [if_neg long] at member
      have room := Nat.le_of_not_lt long
      exact .inl (packParagraphs_budget room _ _ room piece member)

theorem chunkTask_budgeted {sha256 : HashFunction} {row : TaskTextRow} {target : ChunkTarget}
    (member : target ∈ chunkTask sha256 row) :
    Budgeted (row.header target.kind) target.text.toList ∨ target.IsFullTitle row := by
  have text : ∀ taskId kind piece,
      (chunkTarget sha256 taskId kind piece).text.toList = piece := by
    intro taskId kind piece
    simp [chunkTarget]
  rcases List.mem_append.mp member with core | comment
  · obtain ⟨piece, inPieces, rfl⟩ := List.mem_map.mp core
    rw [ChunkTarget.IsFullTitle, text]
    exact chunkFormatted_budget row.title.toList row.body.toList .core true piece inPieces
  · obtain ⟨source, _, member⟩ := List.mem_flatMap.mp comment
    obtain ⟨piece, inPieces, rfl⟩ := List.mem_map.mp member
    rw [ChunkTarget.IsFullTitle, text]
    exact chunkFormatted_budget row.title.toList source.body.toList .comment false piece inPieces

/-- Apart from the full title of an oversized title, a chunk exceeds the budget exactly if it is
its header and one scalar that does not fit behind it, and then by four bytes at most. -/
theorem chunkTask_budget (sha256 : HashFunction) (row : TaskTextRow) :
    ∀ target ∈ chunkTask sha256 row, ¬target.IsFullTitle row →
      (Utf8.size target.text.toList ≤ chunkBudgetBytes ↔
        ¬Overhangs (row.header target.kind) target.text.toList) ∧
      Utf8.size target.text.toList ≤ chunkBudgetBytes + 4 := by
  intro target member notTitle
  have budgeted := (chunkTask_budgeted member).resolve_right notTitle
  have overhang : Overhangs (row.header target.kind) target.text.toList →
      chunkBudgetBytes < Utf8.size target.text.toList ∧
        Utf8.size target.text.toList ≤ chunkBudgetBytes + 4 := by
    rintro ⟨scalar, text, room, hanging⟩
    have width := Char.utf8Size_le_four scalar
    rw [text, Utf8.size_append, Utf8.size_cons, Utf8.size_nil]
    omega
  constructor
  · constructor
    · exact fun within hanging => Nat.not_le.mpr (overhang hanging).1 within
    · exact budgeted.resolve_right
  · rcases budgeted with within | hanging
    · exact Nat.le_trans within (Nat.le_add_right _ 4)
    · exact (overhang hanging).2

def tightRow : TaskTextRow where
  taskId := ⟨1⟩
  workspaceId := ⟨1⟩
  repoId := none
  isOpen := true
  title := String.ofList (List.replicate 878 'x')
  body := "a"
  comments := []

theorem packBody_tight {header : List Char} (full : Utf8.size header = chunkBudgetBytes) :
    packBody header ['a'] = [header ++ ['a']] := by
  have paragraphs : splitParagraphs [] ['a'] = [['a']] := rfl
  have width : 'a'.utf8Size = 1 := rfl
  have head : paragraphHead header ['a'] = ['a'] := by
    rw [paragraphHead, full, Nat.sub_self]
    rfl
  rw [packBody, paragraphs, packParagraphs]
  simp [full, width, packParagraphs, paragraphPieces, head]

theorem chunkFormatted_packed {title body : List Char} {label : String} {titleOnly : Bool}
    (filled : ¬(normalizeNewlines body).all isWhitespace = true)
    (fits : Utf8.size (chunkHeader title label ++ ['\n']) ≤ chunkBudgetBytes) :
    chunkFormatted title body label titleOnly =
      packBody (chunkHeader title label ++ ['\n']) (normalizeNewlines body) := by
  rw [chunkFormatted, if_neg filled, if_neg (Nat.not_lt.mpr fits)]

theorem tightRow_header : Utf8.size (tightRow.header .core) = chunkBudgetBytes := by
  have title : tightRow.title.toList = List.replicate 878 'x' := String.toList_ofList
  rw [TaskTextRow.header, title, size_header, Utf8.size_replicate]
  decide

def tightTarget : ChunkTarget :=
  chunkTarget (fun bytes => ⟨bytes⟩) tightRow.taskId .core (tightRow.header .core ++ ['a'])

theorem tightTarget_text : tightTarget.text.toList = tightRow.header .core ++ ['a'] :=
  String.toList_ofList

theorem tightTarget_mem : tightTarget ∈ chunkTask (fun bytes => ⟨bytes⟩) tightRow := by
  have full := Nat.le_of_eq tightRow_header
  have filled : ¬(normalizeNewlines tightRow.body.toList).all isWhitespace = true := by decide
  have chunks : chunkFormatted tightRow.title.toList tightRow.body.toList "Description" true =
      [tightRow.header .core ++ ['a']] :=
    (chunkFormatted_packed filled full).trans (packBody_tight tightRow_header)
  refine List.mem_append_left _ (List.mem_map.mpr ⟨tightRow.header .core ++ ['a'], ?_, rfl⟩)
  rw [chunks]
  exact List.mem_singleton_self _

theorem tightTarget_notTitle : ¬tightTarget.IsFullTitle tightRow :=
  fun title => Nat.not_lt.mpr (Nat.le_of_eq tightRow_header) title.1

/-- A chunk of 901 bytes that is not the full title of anything. -/
theorem chunkTask_overhangs :
    ∃ target ∈ chunkTask (fun bytes => ⟨bytes⟩) tightRow,
      ¬target.IsFullTitle tightRow ∧ Utf8.size target.text.toList = 901 := by
  refine ⟨tightTarget, tightTarget_mem, tightTarget_notTitle, ?_⟩
  rw [tightTarget_text, Utf8.size_append, tightRow_header]
  rfl

theorem chunkTask_budget_tight :
    Utf8.size tightTarget.text.toList ≤ chunkBudgetBytes + 4 ∧
      (Utf8.size tightTarget.text.toList ≤ chunkBudgetBytes ↔
        ¬Overhangs (tightRow.header tightTarget.kind) tightTarget.text.toList) :=
  (chunkTask_budget (fun bytes => ⟨bytes⟩) tightRow tightTarget tightTarget_mem
    tightTarget_notTitle).symm

end RepoLink
