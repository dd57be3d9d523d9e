import RepoLink.Domain.Task

/-!
The texts that name a task: prefixes of `domain-repo`, hashes of `domain-task` and task UUIDs. The
UUID format is that of the `uuid` crate, of which the shape of what it reads is known.
-/

namespace RepoLink

def isAsciiLowercase (char : Char) : Bool := 'a' ≤ char && char ≤ 'z'

def isAsciiDigit (char : Char) : Bool := '0' ≤ char && char ≤ '9'

def isValidHash (hash : String) : Bool :=
  let chars := hash.toList
  3 ≤ chars.length && chars.length ≤ 16 &&
    chars.all fun char => isAsciiLowercase char || ('2' ≤ char && char ≤ '7')

def isValidPrefix (text : String) : Bool :=
  let chars := text.toList
  2 ≤ chars.length && chars.length ≤ 20 && chars.head?.any isAsciiLowercase &&
    chars.tail.all fun char => isAsciiLowercase char || isAsciiDigit char

def isSupersededPrefix (input base : String) : Bool :=
  !base.toList.isEmpty && base.toList.length < input.toList.length &&
    base.toList.isPrefixOf input.toList &&
    (input.toList.drop base.toList.length).all isAsciiDigit

/-- `text.rsplit_once(separator)`: split at the last one. -/
def rsplitOnce (separator : Char) (text : String) : Option (String × String) :=
  let reversed := text.toList.reverse
  if separator ∈ reversed then
    some (String.ofList (reversed.dropWhile (· ≠ separator)).tail.reverse,
      String.ofList (reversed.takeWhile (· ≠ separator)).reverse)
  else none

/-- How task ids are written and read. -/
structure UuidFormat where
  parse : String → Option TaskId
  render : TaskId → String

def isHexDigit (char : Char) : Bool :=
  isAsciiDigit char || ('a' ≤ char && char ≤ 'f') || ('A' ≤ char && char ≤ 'F')

def isUuidBody (chars : List Char) : Prop :=
  (chars.length = 32 ∧ chars.all isHexDigit) ∨
    (chars.length = 36 ∧ ∀ dash ∈ [8, 13, 18, 23], chars[dash]? = some '-')

/-- The formats that the `uuid` crate documents: bare, in braces, or as a URN. -/
def isUuidText (text : String) : Prop :=
  isUuidBody text.toList ∨
    (∃ body, isUuidBody body ∧ text.toList = ['\x7b'] ++ body ++ ['\x7d']) ∨
    ∃ body, isUuidBody body ∧ text.toList = "urn:uuid:".toList ++ body

def UuidFormat.ReadsUuids (uuids : UuidFormat) : Prop :=
  ∀ text id, uuids.parse text = some id → isUuidText text

/-- The id that a DTO shows: `prefix-hash`, the bare hash, or the UUID of a row without hash. -/
def assembleTaskDisplayId (uuids : UuidFormat) (task : Task) (originPrefix : Option String) :
    String :=
  if task.hash ≠ "" then
    match originPrefix.filter (· ≠ "") with
    | some text => text ++ "-" ++ task.hash
    | none => task.hash
  else uuids.render task.id

section Shapes

def isHandleChar (char : Char) : Bool := isAsciiLowercase char || isAsciiDigit char

theorem isValidHash_length {hash : String} (valid : isValidHash hash = true) :
    3 ≤ hash.toList.length ∧ hash.toList.length ≤ 16 := by
  simp only [isValidHash, Bool.and_eq_true, decide_eq_true_eq] at valid
  exact valid.1

theorem isValidHash_chars {hash : String} (valid : isValidHash hash = true) :
    ∀ char ∈ hash.toList, isHandleChar char = true := by
  intro char member
  simp only [isValidHash, Bool.and_eq_true, List.all_eq_true, Bool.or_eq_true,
    decide_eq_true_eq] at valid
  have digits : '2' ≤ char ∧ char ≤ '7' → isAsciiDigit char = true := by
    rintro ⟨lower, upper⟩
    simp only [isAsciiDigit, Bool.and_eq_true, decide_eq_true_eq]
    exact ⟨Char.le_trans (by decide) lower, Char.le_trans upper (by decide)⟩
  rcases valid.2 char member with letter | digit
  · rw [isHandleChar, letter, Bool.true_or]
  · rw [isHandleChar, digits digit, Bool.or_true]

theorem isValidPrefix_chars {text : String} (valid : isValidPrefix text = true) :
    ∀ char ∈ text.toList, isHandleChar char = true := by
  intro char member
  simp only [isValidPrefix, Bool.and_eq_true, List.all_eq_true] at valid
  obtain ⟨⟨_, first⟩, others⟩ := valid
  cases chars : text.toList with
  | nil =>
      rw [chars] at member
      cases member
  | cons head rest =>
      rw [chars] at member first others
      rcases List.mem_cons.mp member with rfl | inRest
      · have letter : isAsciiLowercase char = true := first
        rw [isHandleChar, letter, Bool.true_or]
      · exact others char inRest

theorem takeWhile_ne_append {separator : Char} : ∀ {chars : List Char} (rest : List Char),
    separator ∉ chars →
    (chars ++ separator :: rest).takeWhile (· ≠ separator) = chars ∧
      (chars ++ separator :: rest).dropWhile (· ≠ separator) = separator :: rest := by
  intro chars
  induction chars with
  | nil => intro rest _; simp
  | cons head tail ih =>
      intro rest absent
      have different : head ≠ separator := fun same => absent (same ▸ List.mem_cons_self)
      obtain ⟨taken, dropped⟩ := ih rest fun member => absent (List.mem_cons_of_mem _ member)
      rw [List.cons_append, List.takeWhile_cons_of_pos (by simpa using different),
        List.dropWhile_cons_of_pos (by simpa using different)]
      exact ⟨congrArg (head :: ·) taken, dropped⟩

theorem rsplitOnce_append {separator : Char} {left middle right : String}
    (single : middle.toList = [separator]) (absent : separator ∉ right.toList) :
    rsplitOnce separator (left ++ middle ++ right) = some (left, right) := by
  have reversed : (left ++ middle ++ right).toList.reverse =
      right.toList.reverse ++ separator :: left.toList.reverse := by
    simp [single]
  obtain ⟨taken, dropped⟩ := @takeWhile_ne_append separator right.toList.reverse
    left.toList.reverse (fun member => absent (List.mem_reverse.mp member))
  have member : separator ∈ right.toList.reverse ++ separator :: left.toList.reverse :=
    List.mem_append_right _ List.mem_cons_self
  unfold rsplitOnce
  rw [reversed]
  simp only [if_pos member, taken, dropped, List.tail_cons, List.reverse_reverse,
    String.ofList_toList]

theorem rsplitOnce_none {separator : Char} {text : String} (absent : separator ∉ text.toList) :
    rsplitOnce separator text = none :=
  if_neg fun member => absent (List.mem_reverse.mp member)

theorem isUuidText_handle {text : String}
    (chars : ∀ char ∈ text.toList, isHandleChar char = true ∨ char = '-')
    (uuid : isUuidText text) : isUuidBody text.toList := by
  rcases uuid with bare | ⟨body, _, braced⟩ | ⟨body, _, urn⟩
  · exact bare
  · have brace := chars '\x7b' (by rw [braced]; simp)
    exact absurd brace (by decide)
  · have colon := chars ':' (by rw [urn]; simp)
    exact absurd colon (by decide)

theorem not_isUuidText_hash {hash : String} (valid : isValidHash hash = true) :
    ¬isUuidText hash := by
  intro uuid
  have short := (isValidHash_length valid).2
  rcases isUuidText_handle (fun char member => .inl (isValidHash_chars valid char member)) uuid
    with ⟨length, _⟩ | ⟨length, _⟩
  · omega
  · omega

/-- A composite has one dash, a UUID none or four. -/
theorem not_isUuidText_composite {text hash : String} (validPrefix : isValidPrefix text = true)
    (validHash : isValidHash hash = true) : ¬isUuidText (text ++ "-" ++ hash) := by
  intro uuid
  have spelled : (text ++ "-" ++ hash).toList = text.toList ++ '-' :: hash.toList := by simp
  have dashless : ∀ chars : List Char, (∀ char ∈ chars, isHandleChar char = true) →
      '-' ∉ chars := fun chars handles member => absurd (handles '-' member) (by decide)
  have noneBefore := dashless _ (isValidPrefix_chars validPrefix)
  have noneBehind := dashless _ (isValidHash_chars validHash)
  have chars : ∀ char ∈ (text ++ "-" ++ hash).toList, isHandleChar char = true ∨ char = '-' := by
    intro char member
    rw [spelled] at member
    rcases List.mem_append.mp member with before | behind
    · exact .inl (isValidPrefix_chars validPrefix char before)
    · rcases List.mem_cons.mp behind with dash | behind
      · exact .inr dash
      · exact .inl (isValidHash_chars validHash char behind)
  have onlyDash : ∀ {index : Nat}, (text.toList ++ '-' :: hash.toList)[index]? = some '-' →
      index = text.toList.length := by
    intro index found
    by_contra other
    rcases Nat.lt_or_gt_of_ne other with before | behind
    · rw [List.getElem?_append_left before] at found
      exact noneBefore (List.mem_of_getElem? found)
    · rw [List.getElem?_append_right (Nat.le_of_lt behind)] at found
      obtain ⟨rest, restEq⟩ := Nat.exists_eq_succ_of_ne_zero
        (Nat.sub_ne_zero_of_lt behind)
      rw [restEq, List.getElem?_cons_succ] at found
      exact noneBehind (List.mem_of_getElem? found)
  rcases isUuidText_handle chars uuid with ⟨_, digits⟩ | ⟨_, dashes⟩
  · rw [spelled] at digits
    have hex := List.all_eq_true.mp digits '-' (List.mem_append_right _ List.mem_cons_self)
    exact absurd hex (by decide)
  · rw [spelled] at dashes
    have first := onlyDash (dashes 8 (by decide))
    have second := onlyDash (dashes 13 (by decide))
    omega

end Shapes

end RepoLink
