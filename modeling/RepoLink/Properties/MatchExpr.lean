import Mathlib.Data.List.TakeWhile
import RepoLink.Search.MatchGrammar
import RepoLink.Search.Service

/-!
No query text becomes search syntax: FTS5 reads the terms of a query back out of its MATCH expression
one by one, whatever characters they are made of.
-/

namespace RepoLink

open Fts5

def matchExprOf (terms : List (List Char)) : String :=
  " OR ".intercalate (terms.map fun term => String.ofList (Quoted.enclose '"' term))

theorem buildMatchExpr_eq (query : String) :
    buildMatchExpr query = matchExprOf (splitWhitespace query) := by
  rw [buildMatchExpr, matchExprOf]
  congr 1
  refine List.map_congr_left fun term _ => String.toList_inj.mp ?_
  simp [Quoted.enclose, Quoted.doubled]

section Terms

theorem splitWhitespace_flatten (text : String) :
    (splitWhitespace text).flatten = text.toList.filter fun char => !isWhitespace char := by
  have nonempty : ∀ pieces : List (List Char),
      (pieces.filter fun piece => !piece.isEmpty).flatten = pieces.flatten := by
    intro pieces
    induction pieces with
    | nil => rfl
    | cons piece rest ih => cases piece <;> simp [ih]
  have pieces : ∀ chars : List Char, (chars.splitOnP isWhitespace).flatten =
      chars.filter fun char => !isWhitespace char := by
    intro chars
    induction chars with
    | nil => rfl
    | cons char rest ih =>
        rw [List.splitOnP_cons_eq_if_modifyHead]
        cases blank : isWhitespace char with
        | true => simp [blank, ih]
        | false =>
            obtain ⟨piece, more, split⟩ := List.exists_cons_of_ne_nil
              (List.splitOnP_ne_nil isWhitespace rest)
            rw [split] at ih
            simpa [blank, split] using ih
  rw [splitWhitespace, nonempty, pieces]

theorem splitWhitespace_mem {text : String} {term : List Char} {char : Char}
    (listed : term ∈ splitWhitespace text) (member : char ∈ term) : char ∈ text.toList := by
  have kept : char ∈ (splitWhitespace text).flatten := List.mem_flatten.mpr ⟨term, listed, member⟩
  rw [splitWhitespace_flatten] at kept
  exact (List.mem_filter.mp kept).1

end Terms

section Reading

theorem matchExprOf_cons (term next : List Char) (rest : List (List Char)) :
    (matchExprOf (term :: next :: rest)).toList =
      Quoted.enclose '"' term ++ ' ' :: 'O' :: 'R' :: ' ' :: (matchExprOf (next :: rest)).toList := by
  have joined : matchExprOf (term :: next :: rest) =
      String.ofList (Quoted.enclose '"' term) ++ " OR " ++ matchExprOf (next :: rest) :=
    String.intercalate_cons_cons
  rw [joined]
  simp

theorem lex_matchExprOf (terms : List (List Char)) : lex (matchExprOf terms).toList =
    some ((terms.map Token.string).intersperse .or) := by
  induction terms with
  | nil => simp [matchExprOf, lex]
  | cons term rest ih =>
      cases rest with
      | nil =>
          have single : lex (Quoted.enclose '"' term ++ []) = (lex []).map (Token.string term :: ·) :=
            lex_enclose term (by simp)
          simpa [matchExprOf, lex] using single
      | cons next rest =>
          have blank : isSpace ' ' = true := by decide
          have ends : ∀ char ∈ (' ' :: (matchExprOf (next :: rest)).toList).head?,
              isBareword char = false := by
            simp
            decide
          rw [matchExprOf_cons, lex_enclose _ (by simp), lex_space blank, lex_or ends,
            lex_space blank, ih]
          rfl

theorem matchExprOf_mem {terms : List (List Char)} {char : Char}
    (member : char ∈ (matchExprOf terms).toList) :
    char ∈ ['"', ' ', 'O', 'R'] ∨ ∃ term ∈ terms, char ∈ term := by
  have enclosed : ∀ term, char ∈ Quoted.enclose '"' term →
      char ∈ ['"', ' ', 'O', 'R'] ∨ char ∈ term := by
    intro term inside
    exact (Quoted.mem_enclose inside).imp_left fun same => by simp [same]
  induction terms with
  | nil => simp [matchExprOf] at member
  | cons term rest ih =>
      cases rest with
      | nil =>
          have inside : char ∈ Quoted.enclose '"' term := by simpa [matchExprOf] using member
          exact (enclosed term inside).imp_right fun written => ⟨term, by simp, written⟩
      | cons next rest =>
          rw [matchExprOf_cons, List.mem_append] at member
          rcases member with inside | behind
          · exact (enclosed term inside).imp_right fun written => ⟨term, by simp, written⟩
          · have parts : char ∈ ['"', ' ', 'O', 'R'] ∨
                char ∈ (matchExprOf (next :: rest)).toList := by
              simp only [List.mem_cons] at behind ⊢
              tauto
            rcases parts with syntax_ | later
            · exact .inl syntax_
            · refine (ih later).imp_right fun found => ?_
              obtain ⟨other, listed, written⟩ := found
              exact ⟨other, List.mem_cons_of_mem _ listed, written⟩

theorem parse_matchExprOf {terms : List (List Char)} (noNul : ∀ term ∈ terms, '\x00' ∉ term) :
    parse (matchExprOf terms) = some terms := by
  have whole : (matchExprOf terms).toList.takeWhile (· ≠ '\x00') = (matchExprOf terms).toList := by
    refine List.takeWhile_eq_self_iff.mpr fun char member => ?_
    refine decide_eq_true fun nul => ?_
    subst nul
    rcases matchExprOf_mem member with syntax_ | ⟨term, listed, written⟩
    · exact absurd syntax_ (by decide)
    · exact noNul term listed written
  rw [parse, whole, lex_matchExprOf, Option.bind_some, readStrings_join]

theorem matchExprOf_injective : Function.Injective matchExprOf := by
  intro terms others same
  have left := lex_matchExprOf terms
  rw [same, lex_matchExprOf others] at left
  have read := congrArg readStrings (Option.some.inj left)
  rw [readStrings_join, readStrings_join] at read
  exact (Option.some.inj read).symm

end Reading

/-- FTS5 decodes the terms of the query and nothing else; decoding undoes encoding on every list of
terms, and two queries share an expression only if they have the same terms. -/
theorem buildMatchExpr_decodes {query : String} (noNul : '\x00' ∉ query.toList) :
    parse (buildMatchExpr query) = some (splitWhitespace query) ∧
      (∀ terms, (∀ term ∈ terms, '\x00' ∉ term) → parse (matchExprOf terms) = some terms) ∧
      ∀ other, buildMatchExpr other = buildMatchExpr query →
        splitWhitespace other = splitWhitespace query := by
  refine ⟨?_, fun terms clean => parse_matchExprOf clean, ?_⟩
  · rw [buildMatchExpr_eq]
    exact parse_matchExprOf fun term listed nul => noNul (splitWhitespace_mem listed nul)
  · intro other same
    rw [buildMatchExpr_eq, buildMatchExpr_eq] at same
    exact matchExprOf_injective same

theorem buildMatchExpr_decodes_operators :
    parse (buildMatchExpr "a\" OR (b*)") = some [['a', '"'], ['O', 'R'], ['(', 'b', '*', ')']] := by
  refine (buildMatchExpr_decodes (by decide)).1.trans ?_
  decide

end RepoLink
