import Mathlib.Data.List.DropRight
import RepoLink.Domain.Types

/-!
`parse_canonical` of `infra-git`: the identity `host/path` of a clone URL. Each delimiter is looked
for from the front, or stripped from the back, of what is left of the text.
-/

namespace RepoLink

def stripPrefix : List Char → List Char → Option (List Char)
  | text, [] => some text
  | [], _ :: _ => none
  | char :: rest, first :: others => if char = first then stripPrefix rest others else none

def splitOnce (separator : Char) : List Char → Option (List Char × List Char)
  | [] => none
  | char :: rest =>
    if char = separator then some ([], rest)
    else (splitOnce separator rest).map fun halves => (char :: halves.1, halves.2)

/-- Every `.git` at the front of a reversed text goes. -/
def dropReversedGit : List Char → List Char
  | 't' :: 'i' :: 'g' :: '.' :: rest => dropReversedGit rest
  | text => text

def trimEndGit (text : List Char) : List Char := (dropReversedGit text.reverse).reverse

/-- `url.trim().trim_end_matches('/').trim_end_matches(".git")`. -/
def trimUrl (url : List Char) : List Char :=
  trimEndGit (((url.dropWhile isWhitespace).rdropWhile isWhitespace).rdropWhile (· == '/'))

inductive UrlScheme where
  | https
  | http
  | ssh
  | git
deriving DecidableEq, Repr

def UrlScheme.text : UrlScheme → List Char
  | .https => ['h', 't', 't', 'p', 's', ':', '/', '/']
  | .http => ['h', 't', 't', 'p', ':', '/', '/']
  | .ssh => ['s', 's', 'h', ':', '/', '/']
  | .git => ['g', 'i', 't', ':', '/', '/']

def parseCanonical (url : List Char) : Option (List Char) :=
  let trimmed := trimUrl url
  match stripPrefix trimmed ['g', 'i', 't', '@'] with
  | some rest => (splitOnce ':' rest).map fun (host, path) => host ++ '/' :: path
  | none =>
    [UrlScheme.https, .http, .ssh, .git].findSome? fun scheme =>
      (stripPrefix trimmed scheme.text).map fun rest =>
        match splitOnce '@' rest with
        | some (_, afterUser) => afterUser
        | none => rest

section Delimiters

@[simp] theorem stripPrefix_nil (text : List Char) : stripPrefix text [] = some text := by
  cases text <;> rfl

@[simp] theorem stripPrefix_cons (char first : Char) (rest others : List Char) :
    stripPrefix (char :: rest) (first :: others) =
      if char = first then stripPrefix rest others else none := rfl

theorem splitOnce_append {separator : Char} {before : List Char} (absent : separator ∉ before)
    (after : List Char) : splitOnce separator (before ++ separator :: after) =
      some (before, after) := by
  induction before with
  | nil => exact if_pos rfl
  | cons char rest ih =>
      rw [List.mem_cons, not_or] at absent
      obtain ⟨differs, later⟩ := absent
      rw [List.cons_append, splitOnce, if_neg (Ne.symm differs), ih later]
      rfl

theorem splitOnce_eq_none {separator : Char} {text : List Char} :
    splitOnce separator text = none ↔ separator ∉ text := by
  induction text with
  | nil => simp [splitOnce]
  | cons char rest ih =>
      rw [splitOnce]
      by_cases found : char = separator
      · simp [found]
      · rw [if_neg found, Option.map_eq_none_iff, ih, List.mem_cons, not_or]
        exact (and_iff_right (Ne.symm found)).symm

theorem splitOnce_some {separator : Char} : ∀ {text before after : List Char},
    splitOnce separator text = some (before, after) → text = before ++ separator :: after := by
  intro text
  induction text with
  | nil => intro before after split; cases split
  | cons char rest ih =>
      intro before after split
      rw [splitOnce] at split
      split at split
      · rename_i found
        cases split
        rw [found, List.nil_append]
      · obtain ⟨⟨left, right⟩, inRest, same⟩ := Option.map_eq_some_iff.mp split
        cases same
        rw [ih inRest, List.cons_append]

theorem dropReversedGit_self {text : List Char} (bare : ¬['t', 'i', 'g', '.'] <+: text) :
    dropReversedGit text = text := by
  unfold dropReversedGit
  split
  · rename_i rest
    exact absurd ⟨rest, rfl⟩ bare
  · rfl

theorem trimEndGit_self {text : List Char} (bare : ¬['.', 'g', 'i', 't'] <:+ text) :
    trimEndGit text = text := by
  rw [trimEndGit, dropReversedGit_self, List.reverse_reverse]
  intro starts
  exact bare (List.reverse_prefix.mp starts)

theorem trimEndGit_append (text : List Char) :
    trimEndGit (text ++ ['.', 'g', 'i', 't']) = trimEndGit text := by
  rw [trimEndGit, List.reverse_append]
  rfl

theorem rdropWhile_append_replicate {drops : Char → Bool} {char : Char} (dropped : drops char = true)
    (text : List Char) (count : Nat) :
    (text ++ List.replicate count char).rdropWhile drops = text.rdropWhile drops := by
  rw [List.rdropWhile, List.reverse_append, List.reverse_replicate, List.dropWhile_append_of_pos]
  · rfl
  · intro other member
    rwa [List.eq_of_mem_replicate member]

end Delimiters

example : [parseCanonical "https://alice@github.com/o/r.git".toList,
    parseCanonical "git@github.com:o/r.git".toList, parseCanonical "file:///tmp/repo".toList] =
      [some "github.com/o/r".toList, some "github.com/o/r".toList, none] := by decide

end RepoLink
