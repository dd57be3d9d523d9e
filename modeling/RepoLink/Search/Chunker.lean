import Mathlib.Algebra.GroupWithZero.Nat
import RepoLink.Library.Utf8
import RepoLink.Search.Ranking

/-!
`chunker` of `application-search`: the formatted chunks of a task and their content hashes. The
budgets count UTF-8 bytes.
-/

namespace RepoLink

/-- A SHA-256 digest; the hash function itself is a parameter. -/
structure Digest where
  bytes : List UInt8
deriving DecidableEq, Repr

abbrev HashFunction := List UInt8 → Digest

def HashFunction.ofText (sha256 : HashFunction) (text : String) : Digest :=
  sha256 text.toUTF8.data.toList

inductive ChunkKind where
  | core
  | comment
deriving DecidableEq, Repr

structure ChunkTarget where
  taskId : TaskId
  kind : ChunkKind
  contentHash : Digest
  text : String
deriving DecidableEq, Repr

abbrev ChunkKey := TaskId × Digest

def ChunkTarget.key (target : ChunkTarget) : ChunkKey := (target.taskId, target.contentHash)

def chunkBudgetBytes : Nat := 900

def takeBytes : Nat → List Char → List Char
  | _, [] => []
  | room, char :: rest =>
    if char.utf8Size ≤ room then char :: takeBytes (room - char.utf8Size) rest else []

def normalizeNewlines : List Char → List Char
  | [] => []
  | '\r' :: '\n' :: rest => '\n' :: normalizeNewlines rest
  | char :: rest => char :: normalizeNewlines rest

/-- `body.split("\n\n")`; `current` is the paragraph so far, backwards. -/
def splitParagraphs (current : List Char) : List Char → List (List Char)
  | [] => [current.reverse]
  | '\n' :: '\n' :: rest => current.reverse :: splitParagraphs [] rest
  | char :: rest => splitParagraphs (char :: current) rest

def isTerminator (char : Char) : Bool := ['.', '?', '!', '\n'].contains char

/-- The first piece of a text that is cut to fit behind `header`: up to the last sentence boundary
that fits, else as much as fits, and one scalar at least. -/
def paragraphHead (header text : List Char) : List Char :=
  match takeBytes (chunkBudgetBytes - Utf8.size header) text with
  | [] => text.take 1
  | fitting =>
    match (fitting.reverse.dropWhile fun char => !isTerminator char).reverse with
    | [] => fitting
    | sentence => sentence

def paragraphPieces (header : List Char) : Nat → List Char → List (List Char)
  | 0, _ => []
  | fuel + 1, text =>
    if text.isEmpty then []
    else
      let head := paragraphHead header text
      head :: paragraphPieces header fuel (text.drop head.length)

def packParagraphs (header : List Char) (current : List Char) :
    List (List Char) → List (List Char)
  | [] => if Utf8.size header < Utf8.size current then [current] else []
  | paragraph :: rest =>
    if paragraph.isEmpty then packParagraphs header current rest
    else
      let separator := if Utf8.size header < Utf8.size current then ['\n', '\n'] else []
      let candidate := current ++ separator ++ paragraph
      if Utf8.size candidate ≤ chunkBudgetBytes then packParagraphs header candidate rest
      else
        (if Utf8.size header < Utf8.size current then [current] else []) ++
          (paragraphPieces header paragraph.length paragraph).map (header ++ ·) ++
          packParagraphs header header rest

def packBody (header body : List Char) : List (List Char) :=
  packParagraphs header header (splitParagraphs [] body)

/-- `Title: .. ⏎⏎ label:`, and a line break behind it where text follows. -/
def chunkHeader (title : List Char) (label : String) : List Char :=
  "Title: ".toList ++ title ++ "\n\n".toList ++ label.toList ++ [':']

def boundedAnchor (title : List Char) (label : String) : List Char :=
  let fixed := Utf8.size (chunkHeader [] label ++ ['\n'])
  let maxTitle := chunkBudgetBytes - (fixed + '…'.utf8Size + 300)
  if Utf8.size title ≤ maxTitle then title else takeBytes maxTitle title ++ ['…']

def chunkFormatted (title body : List Char) (label : String) (allowTitleOnly : Bool) :
    List (List Char) :=
  let body := normalizeNewlines body
  if body.all isWhitespace then
    if allowTitleOnly then [chunkHeader title label] else []
  else
    let header := chunkHeader title label ++ ['\n']
    if chunkBudgetBytes < Utf8.size header then
      chunkHeader title label ::
        packBody (chunkHeader (boundedAnchor title label) label ++ ['\n']) body
    else packBody header body

section Targets

variable (sha256 : HashFunction)

def chunkTarget (taskId : TaskId) (kind : ChunkKind) (text : List Char) : ChunkTarget where
  taskId
  kind
  contentHash := sha256.ofText (String.ofList text)
  text := String.ofList text

def chunkTask (row : TaskTextRow) : List ChunkTarget :=
  (chunkFormatted row.title.toList row.body.toList "Description" true).map
    (chunkTarget sha256 row.taskId .core) ++
  row.comments.flatMap fun comment =>
    (chunkFormatted row.title.toList comment.body.toList "Comment" false).map
      (chunkTarget sha256 row.taskId .comment)

theorem chunkTask_contentHash {row : TaskTextRow} {target : ChunkTarget}
    (member : target ∈ chunkTask sha256 row) : target.contentHash = sha256.ofText target.text := by
  rcases List.mem_append.mp member with core | comment
  · obtain ⟨text, _, rfl⟩ := List.mem_map.mp core
    rfl
  · obtain ⟨comment, _, member⟩ := List.mem_flatMap.mp comment
    obtain ⟨text, _, rfl⟩ := List.mem_map.mp member
    rfl

end Targets

section Bytes

theorem size_middle (before middle after : List Char) :
    Utf8.size (before ++ (middle ++ after)) =
      Utf8.size (before ++ ([] ++ after)) + Utf8.size middle := by
  simp only [Utf8.size_append, Utf8.size_nil]
  omega

theorem takeBytes_fits (room : Nat) (text : List Char) : Utf8.size (takeBytes room text) ≤ room := by
  induction text generalizing room with
  | nil => exact Nat.zero_le _
  | cons char rest ih =>
      rw [takeBytes]
      split
      · have shorter := ih (room - char.utf8Size)
        rw [Utf8.size_cons]
        omega
      · exact Nat.zero_le _

theorem takeBytes_empty {room : Nat} {char : Char} {rest : List Char}
    (empty : takeBytes room (char :: rest) = []) : room < char.utf8Size := by
  rw [takeBytes] at empty
  split at empty
  · cases empty
  · rename_i large
    exact Nat.not_le.mp large

end Bytes

section Pieces

theorem takeBytes_prefix : ∀ (room : Nat) (text : List Char), takeBytes room text <+: text := by
  intro room text
  induction text generalizing room with
  | nil => exact List.prefix_rfl
  | cons char rest ih =>
      rw [takeBytes]
      split
      · exact (List.prefix_cons_inj char).mpr (ih _)
      · exact List.nil_prefix

theorem dropBack_prefix (drops : Char → Bool) (text : List Char) :
    (text.reverse.dropWhile drops).reverse <+: text := by
  have suffix := (List.reverse_prefix.mpr (List.dropWhile_suffix (l := text.reverse) drops))
  rwa [List.reverse_reverse] at suffix

theorem paragraphHead_fits (header : List Char) {text : List Char} (nonempty : text ≠ []) :
    paragraphHead header text <+: text ∧ paragraphHead header text ≠ [] := by
  unfold paragraphHead
  have fits := takeBytes_prefix (chunkBudgetBytes - Utf8.size header) text
  cases fitting : takeBytes (chunkBudgetBytes - Utf8.size header) text with
  | nil =>
      refine ⟨List.take_prefix 1 text, ?_⟩
      obtain ⟨char, rest, rfl⟩ := List.exists_cons_of_ne_nil nonempty
      exact List.cons_ne_nil char []
  | cons first rest =>
      rw [fitting] at fits
      have cut := dropBack_prefix (fun char => !isTerminator char) (first :: rest)
      dsimp only
      cases sentence : ((first :: rest).reverse.dropWhile fun char => !isTerminator char).reverse with
      | nil => exact ⟨fits, List.cons_ne_nil first rest⟩
      | cons char more =>
          rw [sentence] at cut
          exact ⟨cut.trans fits, List.cons_ne_nil char more⟩

theorem paragraphPieces_flatten (header : List Char) : ∀ (fuel : Nat) (text : List Char),
    text.length ≤ fuel → (paragraphPieces header fuel text).flatten = text := by
  intro fuel
  induction fuel with
  | zero =>
      intro text short
      rw [List.length_eq_zero_iff.mp (Nat.le_zero.mp short)]
      rfl
  | succ fuel ih =>
      intro text short
      rw [paragraphPieces]
      split
      · rename_i empty
        rw [List.isEmpty_iff.mp empty]
        rfl
      · rename_i filled
        obtain ⟨fits, nonempty⟩ := @paragraphHead_fits header text
          (fun empty => filled (List.isEmpty_iff.mpr empty))
        have progress : 0 < (paragraphHead header text).length := List.length_pos_iff.mpr nonempty
        dsimp only
        rw [List.flatten_cons, ih]
        · exact (List.prefix_iff_eq_append.mp fits)
        · rw [List.length_drop]
          omega

theorem packParagraphs_nonempty {header : List Char} (headed : header ≠ []) :
    ∀ (paragraphs : List (List Char)) (current : List Char),
      ∀ piece ∈ packParagraphs header current paragraphs, piece ≠ [] := by
  have ofCurrent : ∀ current : List Char,
      ∀ piece ∈ (if Utf8.size header < Utf8.size current then [current] else []),
        piece ≠ [] := by
    intro current piece member
    split at member
    · rename_i longer
      obtain rfl := List.mem_singleton.mp member
      rintro rfl
      exact Nat.not_lt_zero _ longer
    · exact absurd member List.not_mem_nil
  intro paragraphs
  induction paragraphs with
  | nil => exact ofCurrent
  | cons paragraph rest ih =>
      intro current piece member
      rw [packParagraphs] at member
      split at member
      · exact ih current piece member
      · dsimp only at member
        by_cases fits : Utf8.size (current ++
          (if Utf8.size header < Utf8.size current then ['\n', '\n'] else []) ++ paragraph) ≤
            chunkBudgetBytes
        · rw [if_pos fits] at member
          exact ih _ piece member
        · rw [if_neg fits] at member
          rcases List.mem_append.mp member with before | after
          · rcases List.mem_append.mp before with flushed | cut
            · exact ofCurrent current piece flushed
            · obtain ⟨_, _, rfl⟩ := List.mem_map.mp cut
              exact fun empty => headed (List.append_eq_nil_iff.mp empty).1
          · exact ih header piece after

theorem chunkHeader_nonempty (title : List Char) (label : String) :
    chunkHeader title label ≠ [] :=
  List.append_ne_nil_of_right_ne_nil _ (List.cons_ne_nil ':' [])

theorem chunkFormatted_nonempty {title body : List Char} {label : String} {allowTitleOnly : Bool} :
    ∀ piece ∈ chunkFormatted title body label allowTitleOnly, piece ≠ [] := by
  have headed : ∀ title, chunkHeader title label ++ ['\n'] ≠ [] := fun title empty =>
    chunkHeader_nonempty title label (List.append_eq_nil_iff.mp empty).1
  intro piece member
  rw [chunkFormatted] at member
  by_cases blank : (normalizeNewlines body).all isWhitespace = true
  · rw [if_pos blank] at member
    cases allowTitleOnly with
    | true => exact List.mem_singleton.mp member ▸ chunkHeader_nonempty title label
    | false => exact absurd member List.not_mem_nil
  · rw [if_neg blank] at member
    by_cases long : chunkBudgetBytes < Utf8.size (chunkHeader title label ++ ['\n'])
    · rw [if_pos long] at member
      rcases List.mem_cons.mp member with rfl | packed
      · exact chunkHeader_nonempty title label
      · exact packParagraphs_nonempty (headed _) _ _ piece packed
    · rw [if_neg long] at member
      exact packParagraphs_nonempty (headed _) _ _ piece member

theorem chunkTask_nonempty {sha256 : HashFunction} {row : TaskTextRow} {target : ChunkTarget}
    (member : target ∈ chunkTask sha256 row) : target.text ≠ "" := by
  have ofPiece : ∀ {taskId : TaskId} {kind : ChunkKind} {piece : List Char}, piece ≠ [] →
      (chunkTarget sha256 taskId kind piece).text ≠ "" :=
    fun filled same => filled (by simpa [chunkTarget] using same)
  rcases List.mem_append.mp member with core | comment
  · obtain ⟨piece, inPieces, rfl⟩ := List.mem_map.mp core
    exact ofPiece (chunkFormatted_nonempty piece inPieces)
  · obtain ⟨comment, _, member⟩ := List.mem_flatMap.mp comment
    obtain ⟨piece, inPieces, rfl⟩ := List.mem_map.mp member
    exact ofPiece (chunkFormatted_nonempty piece inPieces)

end Pieces

end RepoLink
