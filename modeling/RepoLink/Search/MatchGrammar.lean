import RepoLink.Library.Quoted

/-!
The part of the FTS5 query language that a MATCH expression of the search uses, as its documentation
has it: strings in double quotes and the keyword `OR` between them. Anything else is refused here.
-/

namespace RepoLink

namespace Fts5

inductive Token where
  | string (text : List Char)
  | or
deriving DecidableEq, Repr

def isSpace (char : Char) : Bool := [' ', '\t', '\n', '\r'].contains char

def isBareword (char : Char) : Bool :=
  char.isAlphanum || char = '_' || char.toNat = 26 || 128 ≤ char.toNat

def lex : List Char → Option (List Token)
  | [] => some []
  | char :: rest =>
    if isSpace char then lex rest
    else if char = '"' then
      match _scanned : Quoted.scan '"' rest with
      | none => none
      | some (text, behind) => (lex behind).map (Token.string text :: ·)
    else if (char :: rest).takeWhile isBareword = ['O', 'R'] then
      (lex (rest.dropWhile isBareword)).map (Token.or :: ·)
    else none
termination_by text => text.length
decreasing_by
  · simp
  · have shorter := Quoted.scan_length _scanned
    simp
    omega
  · have shorter := (List.dropWhile_sublist (l := rest) isBareword).length_le
    simp
    omega

/-- One string or more with `OR` between them; no token is the empty list. -/
def readStrings : List Token → Option (List (List Char))
  | [] => some []
  | [.string text] => some [text]
  | .string text :: .or :: next :: rest => (readStrings (next :: rest)).map (text :: ·)
  | _ => none

def parse (expression : String) : Option (List (List Char)) :=
  (lex (expression.toList.takeWhile (· ≠ '\x00'))).bind readStrings

theorem lex_space {char : Char} (blank : isSpace char = true) (rest : List Char) :
    lex (char :: rest) = lex rest := by
  rw [lex, if_pos blank]

theorem lex_enclose (text : List Char) {rest : List Char} (closes : rest.head? ≠ some '"') :
    lex (Quoted.enclose '"' text ++ rest) = (lex rest).map (Token.string text :: ·) := by
  have scanned := Quoted.scan_doubled text closes
  have opened : Quoted.enclose '"' text ++ rest =
      '"' :: (Quoted.doubled '"' text ++ '"' :: rest) := by simp [Quoted.enclose]
  rw [opened, lex, if_neg (by decide), if_pos rfl]
  split
  · rename_i failed
    rw [scanned] at failed
    cases failed
  · rename_i found
    rw [scanned] at found
    cases found
    rfl

theorem lex_or {rest : List Char} (ends : ∀ char ∈ rest.head?, isBareword char = false) :
    lex ('O' :: 'R' :: rest) = (lex rest).map (Token.or :: ·) := by
  have word : ('O' :: 'R' :: rest).takeWhile isBareword = ['O', 'R'] := by
    cases rest with
    | nil => decide
    | cons char rest => simp [ends char rfl, show isBareword 'O' = true by decide,
        show isBareword 'R' = true by decide]
  have behind : ('R' :: rest).dropWhile isBareword = rest := by
    cases rest with
    | nil => decide
    | cons char rest => simp [ends char rfl, show isBareword 'R' = true by decide]
  rw [lex, if_neg (by decide), if_neg (by decide), if_pos word, behind]

theorem readStrings_join (terms : List (List Char)) :
    readStrings ((terms.map Token.string).intersperse .or) = some terms := by
  induction terms with
  | nil => rfl
  | cons term rest ih =>
      cases rest with
      | nil => rfl
      | cons next rest =>
          have head : ∃ tokens, ((next :: rest).map Token.string).intersperse .or =
              .string next :: tokens := by
            cases rest with
            | nil => exact ⟨[], rfl⟩
            | cons other rest => exact ⟨_, rfl⟩
          obtain ⟨tokens, same⟩ := head
          have joined : ((term :: next :: rest).map Token.string).intersperse .or =
              .string term :: .or :: ((next :: rest).map Token.string).intersperse .or := rfl
          rw [joined, same, readStrings, ← same, ih]
          rfl

end Fts5

end RepoLink
