import Mathlib.Data.List.Infix
import RepoLink.Domain.Types

/-!
`query_mode` and `fold` of `application-search`: which mode a query selects, and where a needle
occurs in a raw text under the full case fold. A string is its list of scalars, an offset counts
UTF-8 bytes.
-/

namespace RepoLink

/-- The tables of the `unicode-casefold` crate and of `char` that the search looks up. -/
structure Unicode where
  caseFold : Char → List Char
  isUppercase : Char → Bool
  isLowercase : Char → Bool

def asciiTables : Unicode where
  caseFold char := [char.toLower]
  isUppercase := Char.isUpper
  isLowercase := Char.isLower

inductive QueryMode where
  | exact
  | identifier
  | natural
deriving DecidableEq, Repr

def splitWhitespace (text : String) : List (List Char) :=
  (text.toList.splitOnP isWhitespace).filter fun token => !token.isEmpty

@[irreducible] def trim (text : String) : String :=
  String.ofList ((text.toList.dropWhile isWhitespace).reverse.dropWhile isWhitespace).reverse

theorem trim_filled {text : String} (filled : trim text ≠ "") :
    ∃ char ∈ (trim text).toList, isWhitespace char = false := by
  rw [trim] at filled ⊢
  let kept := (text.toList.dropWhile isWhitespace).reverse.dropWhile isWhitespace
  have nonempty : kept ≠ [] := fun empty => filled (by
    change String.ofList kept.reverse = ""
    rw [empty]
    rfl)
  refine ⟨kept.head nonempty, ?_, List.head_dropWhile_not _ nonempty⟩
  rw [String.toList_ofList, List.mem_reverse]
  exact List.head_mem nonempty

def hasShapeBoundary (unicode : Unicode) : Option Char → List Char → Bool
  | _, [] => false
  | previous, char :: rest =>
    (previous.any unicode.isLowercase && unicode.isUppercase char) ||
      (char.isDigit &&
        (previous.any unicode.isUppercase || rest.head?.any unicode.isUppercase)) ||
      hasShapeBoundary unicode (some char) rest

def isIdentifierToken (unicode : Unicode) (token : List Char) : Bool :=
  if token.isEmpty then false
  else if ['_', '/', '#', '-'].any token.contains || decide ([':', ':'] <:+: token) then true
  else hasShapeBoundary unicode none token || 2 ≤ token.countP unicode.isUppercase

def identifierTokens (unicode : Unicode) (query : String) : List String :=
  ((splitWhitespace query).filter (isIdentifierToken unicode)).map String.ofList

def classify (unicode : Unicode) (query : String) (exact : Bool) : QueryMode :=
  if exact then .exact
  else if (splitWhitespace query).any (isIdentifierToken unicode) then .identifier
  else .natural

structure Span where
  start : Nat
  stop : Nat
deriving DecidableEq, Repr

/-- `str::char_indices`, from an offset on. -/
def charIndices : Nat → List Char → List (Nat × Char)
  | _, [] => []
  | offset, char :: rest => (offset, char) :: charIndices (offset + char.utf8Size) rest

structure FoldChar where
  folded : Char
  source : Span
deriving DecidableEq, Repr

def foldSource (unicode : Unicode) (text : String) : List FoldChar :=
  (charIndices 0 text.toList).flatMap fun (offset, char) =>
    (unicode.caseFold char).map fun folded => ⟨folded, offset, offset + char.utf8Size⟩

def foldPlain (unicode : Unicode) (text : String) : List Char :=
  text.toList.flatMap unicode.caseFold

/-- The raw spans under the matches of the folded needle, one suffix of the source after another;
matches may overlap. -/
def matchSpans (needle : List Char) : List FoldChar → List Span
  | [] => []
  | first :: rest =>
    if needle.isPrefixOf ((first :: rest).map FoldChar.folded) then
      let last := ((first :: rest).take needle.length).getLastD first
      ⟨first.source.start, last.source.stop⟩ :: matchSpans needle rest
    else matchSpans needle rest

def findLiteralSpans (unicode : Unicode) (text needle : String) : List Span :=
  if needle.isEmpty then []
  else
    let folded := foldPlain unicode needle
    if folded.isEmpty then [] else matchSpans folded (foldSource unicode text)

/-- The scalars that reach into the padded span, with an ellipsis where some are left out. -/
def excerpt (raw : String) (span : Span) (limit : Nat) : String :=
  let start := span.start - limit / 2
  let stop := min (span.stop + limit / 2) raw.utf8ByteSize
  let scalars := charIndices 0 raw.toList
  let before := scalars.any fun (offset, char) => offset + char.utf8Size ≤ start
  let behind := scalars.any fun (offset, _) => stop ≤ offset
  let kept := scalars.filter fun (offset, char) =>
    start < offset + char.utf8Size && offset < stop
  String.ofList ((if before then ['…'] else []) ++ kept.map Prod.snd ++
    if behind then ['…'] else [])

example : (findLiteralSpans asciiTables "banana" "ANA", classify asciiTables "fix rpl-3jj" false) =
    ([⟨1, 4⟩, ⟨3, 6⟩], .identifier) := by decide

end RepoLink
