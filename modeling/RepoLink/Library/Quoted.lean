import Mathlib.Data.List.Basic

/-!
Texts in quotes, where a quote inside of a text is written twice.
-/

namespace Quoted

variable {α : Type} [DecidableEq α] (quote : α)

def doubled (text : List α) : List α :=
  text.flatMap fun symbol => if symbol = quote then [quote, quote] else [symbol]

def enclose (text : List α) : List α := quote :: doubled quote text ++ [quote]

def scan : List α → Option (List α × List α)
  | [] => none
  | [symbol] => if symbol = quote then some ([], []) else none
  | symbol :: next :: rest =>
    if symbol = quote then
      if next = quote then (scan rest).map fun (text, behind) => (quote :: text, behind)
      else some ([], next :: rest)
    else (scan (next :: rest)).map fun (text, behind) => (symbol :: text, behind)

variable {quote}

theorem scan_plain {symbol : α} (plain : symbol ≠ quote) (rest : List α) :
    scan quote (symbol :: rest) =
      (scan quote rest).map fun (text, behind) => (symbol :: text, behind) := by
  cases rest with
  | nil => simp [scan, plain]
  | cons next rest => simp [scan, plain]

theorem scan_pair (rest : List α) :
    scan quote (quote :: quote :: rest) =
      (scan quote rest).map fun (text, behind) => (quote :: text, behind) := by
  simp [scan]

theorem scan_closing {rest : List α} (closes : rest.head? ≠ some quote) :
    scan quote (quote :: rest) = some ([], rest) := by
  cases rest with
  | nil => simp [scan]
  | cons next rest =>
      have other : next ≠ quote := fun same => closes (by rw [same, List.head?_cons])
      simp [scan, other]

theorem scan_doubled (text : List α) {rest : List α} (closes : rest.head? ≠ some quote) :
    scan quote (doubled quote text ++ quote :: rest) = some (text, rest) := by
  induction text with
  | nil => exact scan_closing closes
  | cons symbol text ih =>
      rw [doubled, List.flatMap_cons, ← doubled, List.append_assoc]
      by_cases same : symbol = quote
      · subst same
        simp [scan_pair, ih]
      · rw [if_neg same, List.singleton_append, scan_plain same, ih]
        rfl

theorem scan_length {rest behind text : List α} (found : scan quote rest = some (text, behind)) :
    behind.length < rest.length := by
  induction rest using scan.induct quote generalizing text behind with
  | case1 => cases found
  | case2 =>
      simp [scan] at found
      simp [found.2]
  | case3 symbol plain => simp [scan, plain] at found
  | case4 rest ih =>
      obtain ⟨⟨inner, later⟩, scanned, same⟩ := Option.map_eq_some_iff.mp (scan_pair rest ▸ found)
      cases same
      have shorter := ih scanned
      simp
      omega
  | case5 next rest other =>
      simp [scan, other] at found
      simp [← found.2]
  | case6 symbol next rest plain ih =>
      obtain ⟨⟨inner, later⟩, scanned, same⟩ := Option.map_eq_some_iff.mp (scan_plain plain _ ▸ found)
      cases same
      have shorter := ih scanned
      simp at shorter ⊢
      omega

theorem mem_enclose {symbol : α} {text : List α} (member : symbol ∈ enclose quote text) :
    symbol = quote ∨ symbol ∈ text := by
  have inside : symbol ∈ doubled quote text → symbol = quote ∨ symbol ∈ text := by
    intro written
    obtain ⟨source, listed, written⟩ := List.mem_flatMap.mp written
    split at written
    · exact .inl (by simpa using written)
    · rw [List.mem_singleton.mp written]
      exact .inr listed
  simp only [enclose, List.cons_append, List.mem_cons, List.mem_append, List.not_mem_nil,
    or_false] at member
  rcases member with same | written | same
  · exact .inl same
  · exact inside written
  · exact .inl same

end Quoted
