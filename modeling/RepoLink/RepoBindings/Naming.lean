import RepoLink.Domain.Handles
import RepoLink.Library.Utf8

/-!
Names and prefixes that `domain-repo` derives for a repo: the last segment of the canonical URL,
and three letters of that name.
-/

namespace RepoLink

def isAsciiAlphabetic (char : Char) : Bool := isAsciiLowercase char || ('A' ≤ char && char ≤ 'Z')

def deriveName (canonicalUrl : String) : String :=
  String.ofList (canonicalUrl.toList.reverse.takeWhile (· ≠ '/')).reverse

namespace Naming

def prefixNoiseWords : List (List Char) :=
  ["app", "application", "service", "svc", "server", "api", "the"].map String.toList

def isPureNumeric (segment : List Char) : Bool := segment.all isAsciiDigit

def isVowel (char : Char) : Bool := ['a', 'e', 'i', 'o', 'u'].contains char.toLower

def consonantsAfterFirst (word : List Char) : List Char :=
  (word.drop 1).filter fun char => isAsciiAlphabetic char && !isVowel char

/-- The first character and two consonants, filled up with whatever letters there are. -/
def prefixFromSingleWord (word : List Char) : List Char :=
  let result := word.headD 'x' :: (consonantsAfterFirst word).take 2
  result ++ ((word.drop 1).filter isAsciiAlphabetic).take (3 - result.length)

/-- The first character of each, with the first consonant of the longer behind its own. -/
def prefixFromTwoWords (left right : List Char) : List Char :=
  let leftIsLonger := Utf8.size right ≤ Utf8.size left
  let longer := if leftIsLonger then left else right
  let extra := (consonantsAfterFirst longer).head?.getD (longer[1]?.getD 'x')
  if leftIsLonger then [left.headD 'x', extra, right.headD 'x']
  else [left.headD 'x', right.headD 'x', extra]

def seen (result : List Char) (char : Char) : Bool := result.any (·.toLower = char.toLower)

/-- One segment of the first pass: its first character, unless three are there or it is seen. -/
def pushInitial (result segment : List Char) : List Char :=
  if 3 ≤ result.length then result
  else
    match segment.head? with
    | none => result
    | some char => if seen result char then result else result ++ [char]

def pushConsonant (result segment : List Char) : List Char :=
  if 3 ≤ result.length then result
  else
    match (consonantsAfterFirst segment).find? fun char => !seen result char with
    | none => result
    | some char => result ++ [char]

def prefixFromMultiWords (segments : List (List Char)) : List Char :=
  segments.foldl pushConsonant (segments.foldl pushInitial [])

def segments (name : List Char) : List (List Char) :=
  (name.splitOnP ['-', '_', ' '].contains).filter fun segment =>
    !segment.isEmpty && !isPureNumeric segment &&
      !prefixNoiseWords.contains (segment.map Char.toLower)

def rawPrefix (name : List Char) : List Char :=
  match segments name with
  | [] => ['r', 'l', 'k']
  | [word] => prefixFromSingleWord word
  | [left, right] => prefixFromTwoWords left right
  | many => prefixFromMultiWords many

/-- Three letters exactly: cut, or filled up with `x`. -/
def padded : List Char → List Char
  | [] => ['r', 'l', 'k']
  | [first] => [first, 'x', 'x']
  | [first, second] => [first, second, 'x']
  | first :: second :: third :: _ => [first, second, third]

end Naming

def derivePrefix (name : String) : String :=
  String.ofList
    (Naming.padded (((Naming.rawPrefix name.toList).map Char.toLower).filter isAsciiAlphabetic))

namespace Naming

theorem not_capital_toLower (char : Char) : ¬('A' ≤ char.toLower ∧ char.toLower ≤ 'Z') := by
  change ¬(65 ≤ char.toLower.val ∧ char.toLower.val ≤ 90)
  by_cases capital : char.val ≥ 'A'.val ∧ char.val ≤ 'Z'.val
  · have lowered : char.toLower.val = char.val + ('a'.val - 'A'.val) :=
      congrArg Char.val (dif_pos capital)
    rw [lowered]
    grind [UInt32.toNat_add]
  · have same : char.toLower = char := dif_neg capital
    rw [same]
    exact fun bounds => capital ⟨bounds.1, bounds.2⟩

theorem isAsciiLowercase_toLower {char : Char} (letter : isAsciiAlphabetic char.toLower = true) :
    isAsciiLowercase char.toLower = true := by
  rw [isAsciiAlphabetic, Bool.or_eq_true] at letter
  rcases letter with lower | upper
  · exact lower
  · simp only [Bool.and_eq_true, decide_eq_true_eq] at upper
    exact absurd upper (not_capital_toLower char)

theorem padded_letters {letters : List Char} (lower : letters.all isAsciiLowercase = true) :
    (padded letters).length = 3 ∧ (padded letters).all isAsciiLowercase = true := by
  match letters with
  | [] => exact ⟨rfl, by decide⟩
  | [first] =>
      simp only [List.all_cons, List.all_nil, Bool.and_true] at lower
      refine ⟨rfl, ?_⟩
      simp only [padded, List.all_cons, List.all_nil, lower]
      decide
  | [first, second] =>
      simp only [List.all_cons, List.all_nil, Bool.and_true, Bool.and_eq_true] at lower
      refine ⟨rfl, ?_⟩
      simp only [padded, List.all_cons, List.all_nil, lower]
      decide
  | first :: second :: third :: rest =>
      simp only [List.all_cons, Bool.and_eq_true] at lower
      refine ⟨rfl, ?_⟩
      simp only [padded, List.all_cons, List.all_nil, lower]
      decide

end Naming

theorem derivePrefix_letters (name : String) :
    (derivePrefix name).toList.length = 3 ∧
      (derivePrefix name).toList.all isAsciiLowercase = true := by
  rw [derivePrefix, String.toList_ofList]
  apply Naming.padded_letters
  rw [List.all_eq_true]
  intro char member
  obtain ⟨inLower, letter⟩ := List.mem_filter.mp member
  obtain ⟨original, _, rfl⟩ := List.mem_map.mp inLower
  exact Naming.isAsciiLowercase_toLower letter

theorem derivePrefix_valid (name : String) : isValidPrefix (derivePrefix name) = true := by
  obtain ⟨length, letters⟩ := derivePrefix_letters name
  rw [isValidPrefix]
  cases chars : (derivePrefix name).toList with
  | nil =>
      rw [chars] at length
      cases length
  | cons first rest =>
      rw [chars] at length letters
      simp only [List.all_cons, Bool.and_eq_true, List.all_eq_true] at letters
      obtain ⟨lower, others⟩ := letters
      simp only [length, List.head?_cons, Option.any_some, lower, List.tail_cons, List.all_eq_true,
        Bool.and_eq_true, Bool.or_eq_true]
      exact ⟨by decide, fun char member => .inl (others char member)⟩

example : ["repo-link", "auth-service", "app-packages", "a", "123-456", "my-cool-project"].map
    derivePrefix = ["rpl", "ath", "pck", "axx", "rlk", "mcp"] := by decide

end RepoLink
