import RepoLink.RepoBindings.Url

/-!
The spellings of one clone URL and the identity that each of them gets. User and host are told
apart by the first `@` of the text, so a spelling that names no user breaks at an `@` of its path.
-/

namespace RepoLink

structure CloneAddress where
  host : List Char
  path : List Char
  hostPlain : '/' ∉ host ∧ ':' ∉ host ∧ '@' ∉ host
  pathNonempty : path ≠ []
  pathSolid : ∀ char ∈ path, isWhitespace char = false
  pathStarts : path.head? ≠ some '/'
  pathEnds : path.getLast? ≠ some '/'
  pathBare : ¬['.', 'g', 'i', 't'] <:+ path

def CloneAddress.canonical (address : CloneAddress) : List Char :=
  address.host ++ '/' :: address.path

abbrev Userinfo := { text : List Char // '/' ∉ text ∧ '@' ∉ text }

inductive CloneForm where
  | url (scheme : UrlScheme) (user : Option Userinfo)
  | scp

structure CloneSpelling where
  form : CloneForm
  dotGit : Bool
  slashes : Nat

/-- A user is named before the host, as in `alice@` or the `git@` of the scp form. -/
def CloneSpelling.NamesUser (spelling : CloneSpelling) : Prop :=
  match spelling.form with
  | .url _ user => user.isSome
  | .scp => True

def CloneForm.lead (host : List Char) : CloneForm → List Char
  | .url scheme none => scheme.text ++ host ++ ['/']
  | .url scheme (some user) => scheme.text ++ user.val ++ '@' :: host ++ ['/']
  | .scp => ['g', 'i', 't', '@'] ++ host ++ [':']

def CloneSpelling.text (spelling : CloneSpelling) (address : CloneAddress) : List Char :=
  spelling.form.lead address.host ++ address.path ++
    (if spelling.dotGit then ['.', 'g', 'i', 't'] else []) ++ List.replicate spelling.slashes '/'

section Trimming

variable (address : CloneAddress)

theorem CloneForm.lead_shape (form : CloneForm) (host : List Char) :
    ∃ first middle last, form.lead host = first :: (middle ++ [last]) ∧
      isWhitespace first = false ∧ (last = '/' ∨ last = ':') := by
  cases form with
  | url scheme user =>
      cases scheme <;> cases user <;> exact ⟨_, _, '/', rfl, by decide, .inl rfl⟩
  | scp => exact ⟨'g', _, ':', rfl, by decide, .inr rfl⟩

theorem rdropWhile_self {drops : Char → Bool} {text : List Char} {last : Char}
    (ends : text.getLast? = some last) (kept : drops last = false) : text.rdropWhile drops = text := by
  rw [List.rdropWhile_eq_self_iff]
  intro filled
  rw [List.getLast?_eq_some_getLast filled, Option.some.injEq] at ends
  simp [ends, kept]

theorem CloneAddress.path_ends : ∃ last, address.path.getLast? = some last ∧
    isWhitespace last = false ∧ last ≠ '/' := by
  have ends := List.getLast?_eq_some_getLast address.pathNonempty
  refine ⟨_, ends, address.pathSolid _ (List.getLast_mem _), ?_⟩
  intro slash
  exact address.pathEnds (by rw [ends, slash])

theorem lead_bare {lead : List Char} {last : Char} (delimits : last = '/' ∨ last = ':') :
    ¬['.', 'g', 'i', 't'] <:+ (lead ++ [last]) ++ address.path := by
  intro git
  have path := List.suffix_append (lead ++ [last]) address.path
  rcases List.suffix_or_suffix_of_suffix git path with inPath | ⟨more, whole⟩
  · exact address.pathBare inPath
  · -- the path is a proper part of `.git`, so that the delimiter is one of its characters
    rw [← whole] at git
    obtain ⟨before, ends⟩ := List.suffix_append_self_iff.mp git
    rcases List.eq_nil_or_concat more with rfl | ⟨others, char, rfl⟩
    · exact address.pathBare (by rw [← whole]; exact List.suffix_rfl)
    · rw [List.concat_eq_append, ← List.append_assoc] at ends
      obtain rfl : char = last := by simpa using (List.append_inj' ends rfl).2
      have member : char ∈ ['.', 'g', 'i', 't'] := by
        rw [← whole]
        simp
      rcases delimits with rfl | rfl <;> exact absurd member (by decide)

theorem trimUrl_text (spelling : CloneSpelling) :
    trimUrl (spelling.text address) = spelling.form.lead address.host ++ address.path := by
  obtain ⟨first, middle, delimiter, shape, visible, delimits⟩ :=
    spelling.form.lead_shape address.host
  let core := spelling.form.lead address.host ++ address.path ++
    (if spelling.dotGit then ['.', 'g', 'i', 't'] else [])
  have coreEnds : ∃ last, core.getLast? = some last ∧ isWhitespace last = false ∧ last ≠ '/' := by
    simp only [core]
    split
    · exact ⟨'t', by simp, by decide, by decide⟩
    · obtain ⟨last, ends, solid, inner⟩ := address.path_ends
      exact ⟨last, by rw [List.append_nil, List.getLast?_append, ends, Option.some_or], solid, inner⟩
  obtain ⟨last, ends, solid, inner⟩ := coreEnds
  have text : spelling.text address = core ++ List.replicate spelling.slashes '/' := rfl
  have textEnds : ∃ last, (spelling.text address).getLast? = some last ∧
      isWhitespace last = false := by
    rw [text, List.getLast?_append]
    cases spelling.slashes with
    | zero => exact ⟨last, ends, solid⟩
    | succ count => exact ⟨'/', by simp [List.getLast?_replicate], by decide⟩
  obtain ⟨textLast, textEnd, textSolid⟩ := textEnds
  have starts : (spelling.text address).dropWhile isWhitespace = spelling.text address := by
    simp only [CloneSpelling.text, shape, List.cons_append, List.dropWhile_cons, visible,
      Bool.false_eq_true, if_false]
  have bare : trimEndGit (spelling.form.lead address.host ++ address.path) =
      spelling.form.lead address.host ++ address.path := by
    refine trimEndGit_self ?_
    rw [shape, ← List.cons_append]
    exact lead_bare address delimits
  rw [trimUrl, starts, rdropWhile_self textEnd textSolid, text,
    rdropWhile_append_replicate (by decide), rdropWhile_self ends (by simpa using inner)]
  simp only [core]
  split
  · rw [trimEndGit_append, bare]
  · rw [List.append_nil, bare]

end Trimming

section Identity

variable (address : CloneAddress)

theorem afterUser_shorter {before after : List Char}
    (split : splitOnce '@' address.canonical = some (before, after)) :
    after ≠ address.canonical := by
  intro same
  have sized := congrArg List.length (splitOnce_some split)
  rw [same, List.length_append, List.length_cons] at sized
  omega

theorem canonical_at : '@' ∈ address.canonical ↔ '@' ∈ address.path := by
  simp [CloneAddress.canonical, address.hostPlain.2.2]

/-- A spelling comes to `host/path` exactly if it names a user or the path has no `@`. -/
theorem parseCanonical_text (spelling : CloneSpelling) :
    parseCanonical (spelling.text address) = some address.canonical ↔
      spelling.NamesUser ∨ '@' ∉ address.path := by
  unfold parseCanonical CloneSpelling.NamesUser
  rw [trimUrl_text]
  cases spelling.form with
  | scp =>
      have parts : CloneForm.scp.lead address.host ++ address.path =
          'g' :: 'i' :: 't' :: '@' :: (address.host ++ ':' :: address.path) := by
        simp [CloneForm.lead]
      simp [parts, splitOnce_append address.hostPlain.2.1, CloneAddress.canonical]
  | url scheme user =>
      cases user with
      | some user =>
          have parts : (CloneForm.url scheme (some user)).lead address.host ++ address.path =
              scheme.text ++ (user.val ++ '@' :: address.canonical) := by
            simp [CloneForm.lead, CloneAddress.canonical]
          cases scheme <;> simp [parts, UrlScheme.text, splitOnce_append user.property.2]
      | none =>
          have parts : (CloneForm.url scheme none).lead address.host ++ address.path =
              scheme.text ++ address.canonical := by
            simp [CloneForm.lead, CloneAddress.canonical]
          cases split : splitOnce '@' address.canonical with
          | none =>
              have absent := (not_congr (canonical_at address)).mp (splitOnce_eq_none.mp split)
              cases scheme <;> simp [parts, UrlScheme.text, split, absent]
          | some halves =>
              obtain ⟨before, after⟩ := halves
              have found : '@' ∈ address.path := by
                rw [← canonical_at, splitOnce_some split]
                simp
              have other := afterUser_shorter address split
              cases scheme <;> simp [parts, UrlScheme.text, split, found, other]

end Identity

def taggedAddress : CloneAddress where
  host := "github.com".toList
  path := "o/r@v2".toList
  hostPlain := by decide
  pathNonempty := by decide
  pathSolid := by simp [isWhitespace]
  pathStarts := by decide
  pathEnds := by decide
  pathBare := by decide

theorem parseCanonical_cutsPath : ¬∀ (address : CloneAddress) (spelling : CloneSpelling),
    parseCanonical (spelling.text address) = some address.canonical := by
  intro always
  have wrong := always taggedAddress ⟨.url .https none, false, 0⟩
  exact absurd wrong (by decide)

end RepoLink
