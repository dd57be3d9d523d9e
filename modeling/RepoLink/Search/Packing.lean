import RepoLink.Library.Utf8
import RepoLink.Search.Chunker

/-!
`pack_body` of the chunker as its loops run it: a paragraph is cut by byte offsets, and a slice that
does not start or end at a character boundary stops the run. It comes to the chunks of `packBody`.
-/

namespace RepoLink

section Loops

def isTerminatorByte (byte : UInt8) : Bool := [0x2E, 0x3F, 0x21, 0x0A].contains byte

def rposition {α : Type} (holds : α → Bool) : List α → Option Nat
  | [] => none
  | head :: rest =>
    match rposition holds rest with
    | some index => some (index + 1)
    | none => if holds head then some 0 else none

def lastSentenceBoundary (text : List Char) (limit : Nat) : Option Nat :=
  rposition isTerminatorByte ((Utf8.encode text).take limit)

/-- `text.chars().next().unwrap()`, and what follows it. -/
def firstScalar : List Char → Option (List Char × List Char)
  | [] => none
  | char :: rest => Utf8.splitAt? (char :: rest) char.utf8Size

def splitParagraphFragment (header text : List Char) : Option (List Char × List Char) :=
  let avail := chunkBudgetBytes - Utf8.size header
  if avail = 0 then firstScalar text
  else
    let cut := Utf8.floorBoundary (Utf8.encode text) (min avail (Utf8.size text))
    if cut = 0 then firstScalar text
    else
      match lastSentenceBoundary text cut with
      | some position => Utf8.splitAt? text (position + 1)
      | none => Utf8.splitAt? text cut

/-- `while !rest.is_empty() { .. }`; each turn takes one unit of fuel. -/
def splitUnder (header : List Char) : Nat → List Char → List (List Char) →
    Option (List (List Char))
  | 0, rest, chunks => if rest.isEmpty then some chunks else none
  | fuel + 1, rest, chunks =>
    if rest.isEmpty then some chunks
    else do
      let (head, rem) ← splitParagraphFragment header rest
      splitUnder header fuel rem (chunks ++ [header ++ head])

structure Packing where
  chunks : List (List Char)
  current : List Char
deriving DecidableEq, Repr

/-- `if cur.len() > header.len() { chunks.push(cur) }`. -/
def Packing.pushed (header : List Char) (state : Packing) : List (List Char) :=
  if Utf8.size header < Utf8.size state.current then state.chunks ++ [state.current]
  else state.chunks

def packStep (fuel : Nat) (header : List Char) (state : Packing) (paragraph : List Char) :
    Option Packing :=
  if paragraph.isEmpty then some state
  else
    let separator := if Utf8.size header < Utf8.size state.current then ['\n', '\n'] else []
    let candidate := state.current ++ separator ++ paragraph
    if Utf8.size candidate ≤ chunkBudgetBytes then some { state with current := candidate }
    else
      let flushed : Packing :=
        if Utf8.size header < Utf8.size state.current then
          ⟨state.chunks ++ [state.current], header⟩
        else state
      (splitUnder header fuel paragraph flushed.chunks).map fun chunks =>
        { flushed with chunks }

def packBodyLoop (fuel : Nat) (header body : List Char) : Option (List (List Char)) :=
  ((splitParagraphs [] body).foldlM (packStep fuel header) ⟨[], header⟩).map (Packing.pushed header)

def boundedAnchorCut (title : List Char) (label : String) : Option (List Char) :=
  let fixed := Utf8.size (chunkHeader [] label ++ ['\n'])
  let maxTitle := chunkBudgetBytes - (fixed + '…'.utf8Size + 300)
  if Utf8.size title ≤ maxTitle then some title
  else (Utf8.splitAt? title (Utf8.floorBoundary (Utf8.encode title) maxTitle)).map fun halves =>
    halves.1 ++ ['…']

def chunkFormattedLoop (fuel : Nat) (title body : List Char) (label : String)
    (allowTitleOnly : Bool) : Option (List (List Char)) :=
  let body := normalizeNewlines body
  if body.all isWhitespace then some (if allowTitleOnly then [chunkHeader title label] else [])
  else
    let header := chunkHeader title label ++ ['\n']
    if chunkBudgetBytes < Utf8.size header then do
      let anchor ← boundedAnchorCut title label
      let packed ← packBodyLoop fuel (chunkHeader anchor label ++ ['\n']) body
      some (chunkHeader title label :: packed)
    else packBodyLoop fuel header body

end Loops

section Cuts

theorem takeBytes_longest {before : List Char} : ∀ {room : Nat} {text : List Char},
    before <+: text → Utf8.size before ≤ room → Utf8.size before ≤ Utf8.size (takeBytes room text) := by
  induction before with
  | nil => intro room text _ _; exact Nat.zero_le _
  | cons char rest ih =>
      rintro room _ ⟨after, rfl⟩ fits
      rw [Utf8.size_cons] at fits
      rw [List.cons_append, takeBytes, if_pos (by omega), Utf8.size_cons, Utf8.size_cons]
      exact Nat.add_le_add_left (ih (List.prefix_append rest after) (by omega)) _

theorem floorBoundary_eq (room : Nat) (text : List Char) :
    Utf8.floorBoundary (Utf8.encode text) room = Utf8.size (takeBytes room text) := by
  refine Nat.le_antisymm ?_ ?_
  · obtain ⟨before, after, rfl, sized⟩ :=
      Utf8.isBoundary_iff.mp (Utf8.floorBoundary_isBoundary (Utf8.encode text) room)
    have fits := Utf8.floorBoundary_le (Utf8.encode (before ++ after)) room
    rw [← sized] at fits ⊢
    exact takeBytes_longest (List.prefix_append before after) fits
  · obtain ⟨after, whole⟩ := takeBytes_prefix room text
    exact Utf8.le_floorBoundary _ (Utf8.isBoundary_iff.mpr ⟨_, after, whole.symm, rfl⟩)
      (takeBytes_fits room text)

theorem takeBytes_min (room : Nat) (text : List Char) :
    takeBytes (min room (Utf8.size text)) text = takeBytes room text := by
  induction text generalizing room with
  | nil => rfl
  | cons char rest ih =>
      rw [takeBytes, takeBytes, Utf8.size_cons]
      by_cases fits : char.utf8Size ≤ room
      · rw [if_pos fits, if_pos (by omega), ← ih (room - char.utf8Size)]
        congr 2
        omega
      · rw [if_neg fits, if_neg (by omega)]

theorem rposition_eq_none {α : Type} {holds : α → Bool} {list : List α}
    (absent : ∀ item ∈ list, holds item = false) : rposition holds list = none := by
  induction list with
  | nil => rfl
  | cons head rest ih =>
      obtain ⟨first, others⟩ := List.forall_mem_cons.mp absent
      rw [rposition, ih others, first]
      rfl

theorem rposition_append {α : Type} {holds : α → Bool} {item : α} {after : List α}
    (found : holds item = true) (last : ∀ other ∈ after, holds other = false) :
    ∀ before : List α, rposition holds (before ++ item :: after) = some before.length := by
  intro before
  induction before with
  | nil =>
      rw [List.nil_append, rposition, rposition_eq_none last, found]
      rfl
  | cons head rest ih => rw [List.cons_append, rposition, ih, List.length_cons]

theorem encodeChar_terminator {char : Char} (terminator : isTerminator char = true) :
    ∃ byte, String.utf8EncodeChar char = [byte] ∧ isTerminatorByte byte = true := by
  simp only [isTerminator, List.contains_iff_mem, List.mem_cons, List.not_mem_nil, or_false]
    at terminator
  rcases terminator with rfl | rfl | rfl | rfl <;> exact ⟨_, rfl, rfl⟩

theorem encode_unterminated {text : List Char} (absent : ∀ char ∈ text, isTerminator char = false) :
    ∀ byte ∈ Utf8.encode text, isTerminatorByte byte = false := by
  intro byte member
  obtain ⟨char, inText, among⟩ := List.mem_flatMap.mp member
  by_contra terminator
  rw [Bool.not_eq_false, isTerminatorByte, List.contains_iff_mem] at terminator
  have ascii : byte.toNat < 0x80 := by
    simp only [List.mem_cons, List.not_mem_nil, or_false] at terminator
    rcases terminator with rfl | rfl | rfl | rfl <;> decide
  have same : char = Char.ofNat byte.toNat := by
    rw [← Utf8.ascii_of_mem among ascii, Char.ofNat_toNat]
  have none := absent char inText
  rw [same] at none
  simp only [List.mem_cons, List.not_mem_nil, or_false] at terminator
  rcases terminator with rfl | rfl | rfl | rfl <;> exact absurd none (by decide)

theorem firstScalar_eq {text : List Char} (nonempty : text ≠ []) :
    firstScalar text = some (text.take 1, text.drop 1) := by
  obtain ⟨char, rest, rfl⟩ := List.exists_cons_of_ne_nil nonempty
  exact Utf8.splitAt?_append [char] rest

theorem lastSentence_cases (text : List Char) :
    ((text.reverse.dropWhile fun char => !isTerminator char).reverse = [] ∧
        ∀ char ∈ text, isTerminator char = false) ∨
      ∃ before terminator after, text = before ++ terminator :: after ∧
        (text.reverse.dropWhile fun char => !isTerminator char).reverse = before ++ [terminator] ∧
        isTerminator terminator = true ∧ ∀ char ∈ after, isTerminator char = false := by
  induction text using List.reverseRecOn with
  | nil => exact .inl ⟨rfl, fun _ member => (List.not_mem_nil member).elim⟩
  | append_singleton rest char ih =>
      rw [List.reverse_append, List.reverse_singleton, List.singleton_append, List.dropWhile_cons]
      by_cases terminator : isTerminator char = true
      · refine .inr ⟨rest, char, [], rfl, ?_, terminator, fun _ none => (List.not_mem_nil none).elim⟩
        simp [terminator]
      · rw [Bool.not_eq_true] at terminator
        simp only [terminator, Bool.not_false, if_true]
        have last {list : List Char} (absent : ∀ other ∈ list, isTerminator other = false) :
            ∀ other ∈ list ++ [char], isTerminator other = false :=
          List.forall_mem_append.mpr ⟨absent, List.forall_mem_singleton.mpr terminator⟩
        rcases ih with ⟨empty, absent⟩ | ⟨before, stop, after, rfl, kept, stops, absent⟩
        · exact .inl ⟨empty, last absent⟩
        · exact .inr ⟨before, stop, after ++ [char], by simp, kept, stops, last absent⟩

theorem lastSentenceBoundary_eq (fitting rest : List Char) :
    ((fitting.reverse.dropWhile fun char => !isTerminator char).reverse = [] ∧
        lastSentenceBoundary (fitting ++ rest) (Utf8.size fitting) = none) ∨
      ∃ before terminator after, fitting = before ++ terminator :: after ∧
        (fitting.reverse.dropWhile fun char => !isTerminator char).reverse =
          before ++ [terminator] ∧
        (lastSentenceBoundary (fitting ++ rest) (Utf8.size fitting)).map (· + 1) =
          some (Utf8.size (before ++ [terminator])) := by
  rw [lastSentenceBoundary, Utf8.take_encode]
  rcases lastSentence_cases fitting with
    ⟨empty, absent⟩ | ⟨before, terminator, after, rfl, kept, stops, absent⟩
  · exact .inl ⟨empty, rposition_eq_none (encode_unterminated absent)⟩
  · obtain ⟨byte, bytes, stopByte⟩ := encodeChar_terminator stops
    refine .inr ⟨before, terminator, after, rfl, kept, ?_⟩
    have width : terminator.utf8Size = 1 := by
      rw [← String.length_utf8EncodeChar, bytes, List.length_singleton]
    rw [Utf8.encode_append, Utf8.encode_cons, bytes, List.singleton_append,
      rposition_append stopByte (encode_unterminated absent), Option.map_some, Utf8.length_encode,
      Utf8.size_append, Utf8.size_cons, width]
    rfl

/-- No slice of the loops stops them, and they cut as `paragraphHead` does. -/
theorem splitParagraphFragment_eq (header : List Char) {text : List Char} (nonempty : text ≠ []) :
    splitParagraphFragment header text =
      some (paragraphHead header text, text.drop (paragraphHead header text).length) := by
  unfold splitParagraphFragment paragraphHead
  dsimp only
  rw [floorBoundary_eq, takeBytes_min]
  obtain ⟨char, more, rfl⟩ := List.exists_cons_of_ne_nil nonempty
  have whole := takeBytes_prefix (chunkBudgetBytes - Utf8.size header) (char :: more)
  cases fitting : takeBytes (chunkBudgetBytes - Utf8.size header) (char :: more) with
  | nil =>
      rw [Utf8.size_nil, if_pos rfl, ite_self]
      exact firstScalar_eq nonempty
  | cons first others =>
      have room : chunkBudgetBytes - Utf8.size header ≠ 0 := by
        intro full
        rw [full, takeBytes, if_neg (Nat.not_le.mpr char.utf8Size_pos)] at fitting
        cases fitting
      have wide : Utf8.size (first :: others) ≠ 0 :=
        Nat.ne_of_gt (Utf8.size_pos (List.cons_ne_nil first others))
      rw [fitting] at whole
      obtain ⟨rest, same⟩ := whole
      rw [if_neg room, if_neg wide, ← same]
      dsimp only
      rcases lastSentenceBoundary_eq (first :: others) rest with
        ⟨empty, none⟩ | ⟨before, terminator, after, parts, kept, position⟩
      · rw [empty, none]
        dsimp only
        rw [Utf8.splitAt?_append, List.drop_left]
      · obtain ⟨index, at_, next⟩ := Option.map_eq_some_iff.mp position
        have filled : before ++ [terminator] ≠ [] :=
          List.append_ne_nil_of_right_ne_nil _ (List.cons_ne_nil terminator [])
        obtain ⟨head, tail, shape⟩ := List.exists_cons_of_ne_nil filled
        rw [kept, at_, shape]
        dsimp only
        have text : first :: others ++ rest = (head :: tail) ++ (after ++ rest) := by
          rw [← shape, parts]
          simp
        rw [next, shape, text, Utf8.splitAt?_append, List.drop_left]

end Cuts

section Runs

variable (header : List Char)

theorem splitUnder_eq : ∀ (fuel count : Nat) (text : List Char) (chunks : List (List Char)),
    text.length ≤ fuel → text.length ≤ count → splitUnder header fuel text chunks =
      some (chunks ++ (paragraphPieces header count text).map (header ++ ·)) := by
  intro fuel
  induction fuel with
  | zero =>
      intro count text chunks short _
      rw [List.length_eq_zero_iff.mp (Nat.le_zero.mp short)]
      cases count <;> simp [splitUnder, paragraphPieces]
  | succ fuel ih =>
      intro count text chunks short counted
      cases text with
      | nil => cases count <;> simp [splitUnder, paragraphPieces]
      | cons char more =>
          obtain ⟨count, rfl⟩ := Nat.exists_eq_succ_of_ne_zero
            (Nat.ne_of_gt (Nat.lt_of_lt_of_le (Nat.succ_pos _) counted))
          have filled : char :: more ≠ [] := List.cons_ne_nil char more
          have progress := List.length_pos_iff.mpr (paragraphHead_fits header filled).2
          have shorter : ((char :: more).drop
              (paragraphHead header (char :: more)).length).length < (char :: more).length := by
            rw [List.length_drop]
            have positive : 0 < (char :: more).length := Nat.succ_pos _
            omega
          rw [splitUnder, if_neg (by simp), splitParagraphFragment_eq header filled]
          change splitUnder header fuel _ _ = _
          rw [ih count _ _ (by omega) (by omega), paragraphPieces, if_neg (by simp)]
          simp

/-- The text that is being packed starts with the header, and is the header if it holds no more. -/
theorem packFold_eq (fuel : Nat) : ∀ (paragraphs : List (List Char)) (state : Packing),
    (∀ paragraph ∈ paragraphs, paragraph.length ≤ fuel) → header <+: state.current →
    (paragraphs.foldlM (packStep fuel header) state).map (Packing.pushed header) =
      some (state.chunks ++ packParagraphs header state.current paragraphs) := by
  intro paragraphs
  induction paragraphs with
  | nil =>
      intro state _ _
      rw [packParagraphs]
      change some (state.pushed header) = some _
      rw [Packing.pushed]
      by_cases longer : Utf8.size header < Utf8.size state.current
      · rw [if_pos longer, if_pos longer]
      · rw [if_neg longer, if_neg longer, List.append_nil]
  | cons paragraph rest ih =>
      intro state short headed
      obtain ⟨first, others⟩ := List.forall_mem_cons.mp short
      rw [List.foldlM_cons, packParagraphs, packStep]
      by_cases empty : paragraph.isEmpty = true
      · rw [if_pos empty, if_pos empty]
        exact ih state others headed
      rw [if_neg empty, if_neg empty]
      dsimp only
      by_cases fits : Utf8.size (state.current ++
        (if Utf8.size header < Utf8.size state.current then ['\n', '\n'] else []) ++ paragraph) ≤
          chunkBudgetBytes
      · rw [if_pos fits, if_pos fits]
        exact ih _ others ((headed.trans (List.prefix_append _ _)).trans (List.prefix_append _ _))
      rw [if_neg fits, if_neg fits,
        splitUnder_eq header fuel paragraph.length _ _ first (Nat.le_refl _)]
      change Option.map _ (List.foldlM (packStep fuel header) _ rest) = _
      by_cases longer : Utf8.size header < Utf8.size state.current
      · rw [ih _ others (by rw [if_pos longer]), if_pos longer, if_pos longer]
        simp
      · have same : state.current = header := by
          obtain ⟨more, extended⟩ := headed
          rw [← extended, Utf8.size_append] at longer
          rw [← extended, @Utf8.size_eq_zero more (by omega),
            List.append_nil]
        rw [ih _ others (by rw [if_neg longer]; exact headed), if_neg longer, if_neg longer, same]
        simp

theorem splitParagraphs_length : ∀ (body current : List Char),
    ∀ paragraph ∈ splitParagraphs current body,
      paragraph.length ≤ current.length + body.length := by
  intro body current
  fun_induction splitParagraphs current body with
  | case1 current => simp
  | case2 current rest ih =>
      intro paragraph member
      rw [List.length_cons, List.length_cons]
      rcases List.mem_cons.mp member with rfl | later
      · rw [List.length_reverse]
        omega
      · have short := ih paragraph later
        rw [List.length_nil] at short
        omega
  | case3 current char rest _ ih =>
      intro paragraph member
      have short := ih paragraph member
      rw [List.length_cons] at short ⊢
      omega

theorem packBodyLoop_eq {fuel : Nat} {body : List Char} (enough : body.length ≤ fuel) :
    packBodyLoop fuel header body = some (packBody header body) := by
  rw [packBodyLoop, packFold_eq header fuel _ _ _ List.prefix_rfl]
  · rfl
  · intro paragraph member
    have short := splitParagraphs_length body [] paragraph member
    rw [List.length_nil] at short
    omega

theorem normalizeNewlines_length (body : List Char) :
    (normalizeNewlines body).length ≤ body.length := by
  fun_induction normalizeNewlines body with
  | case1 => exact Nat.le_refl 0
  | case2 rest ih =>
      rw [List.length_cons, List.length_cons, List.length_cons]
      omega
  | case3 char rest _ ih =>
      rw [List.length_cons, List.length_cons]
      omega

theorem boundedAnchorCut_eq (title : List Char) (label : String) :
    boundedAnchorCut title label = some (boundedAnchor title label) := by
  unfold boundedAnchorCut boundedAnchor
  dsimp only
  generalize chunkBudgetBytes - (_ + '…'.utf8Size + 300) = room
  rw [floorBoundary_eq, apply_ite some]
  obtain ⟨rest, whole⟩ := takeBytes_prefix room title
  have cut : Utf8.splitAt? title (Utf8.size (takeBytes room title)) =
      some (takeBytes room title, rest) := by
    nth_rewrite 1 [← whole]
    exact Utf8.splitAt?_append _ rest
  rw [cut, Option.map_some]

theorem chunkFormattedLoop_eq {fuel : Nat} {title body : List Char} {label : String}
    {allowTitleOnly : Bool} (enough : body.length ≤ fuel) :
    chunkFormattedLoop fuel title body label allowTitleOnly =
      some (chunkFormatted title body label allowTitleOnly) := by
  have shorter := Nat.le_trans (normalizeNewlines_length body) enough
  unfold chunkFormattedLoop chunkFormatted
  dsimp only
  rw [boundedAnchorCut_eq]
  split
  · rfl
  · split
    · change (packBodyLoop fuel _ (normalizeNewlines body)).bind _ = _
      rw [packBodyLoop_eq _ shorter]
      rfl
    · exact packBodyLoop_eq _ shorter

end Runs

end RepoLink
