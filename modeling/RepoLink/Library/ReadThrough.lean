import RepoLink.Library.Dict
import RepoLink.Library.Program

/-!
A cache in front of a lookup: what is cached is not looked up again, what is found is cached, and
what is missing is looked up every time.
-/

namespace ReadThrough

open Effects Program KeyedTable

variable {κ α : Type} [DecidableEq κ] {S : Signature} {σ ε : Type}

def fetch (key : κ) (load : Program S ε (Option α)) (cache : Dict κ α) :
    Program S ε (Option α × Dict κ α) :=
  match cache.get? key with
  | some value => .done (some value, cache)
  | none => load.bind fun found =>
    match found with
    | some value => .done (some value, cache.insert key value)
    | none => .done (none, cache)

def Truthful (rows : κ → Option α) (cache : Dict κ α) : Prop :=
  ∀ key value, cache.get? key = some value → rows key = some value

def grown (rows : κ → Option α) (key : κ) (cache : Dict κ α) : Dict κ α :=
  match cache.get? key, rows key with
  | none, some value => cache.insert key value
  | _, _ => cache

variable {rows : κ → Option α} {cache : Dict κ α}

theorem truthful_empty : Truthful rows (Dict.empty : Dict κ α) := by
  intro key value cached
  simp at cached

theorem Truthful.grown (truthful : Truthful rows cache) (key : κ) :
    Truthful rows (grown rows key cache) := by
  intro wanted value cached
  rw [ReadThrough.grown] at cached
  split at cached
  · rename_i found
    rw [Dict.get?_insert] at cached
    by_cases same : wanted = key
    · rw [if_pos same] at cached
      rw [same, found, cached]
    · rw [if_neg same] at cached
      exact truthful wanted value cached
  · exact truthful wanted value cached

theorem runs_fetch {meaning : Semantics S σ} {state : σ} {key : κ}
    {load : Program S ε (Option α)} (truthful : Truthful rows cache)
    (loads : ∀ found after, load.Runs meaning state (.ok found) after ↔
      after = state ∧ found = rows key) {found : Option α} {later : Dict κ α} {after : σ} :
    (fetch key load cache).Runs meaning state (.ok (found, later)) after ↔
      after = state ∧ found = rows key ∧ later = grown rows key cache := by
  unfold fetch grown
  cases cached : cache.get? key with
  | some value =>
      have same := truthful key value cached
      simp [Runs, same, and_comm]
  | none =>
      constructor
      · intro ran
        obtain ⟨loaded, middle, ranLoad, rest⟩ := runs_bind_ok.mp ran
        obtain ⟨rfl, rfl⟩ := (loads loaded middle).mp ranLoad
        cases foundEq : rows key with
        | none =>
            rw [foundEq] at rest
            obtain ⟨same, rfl⟩ := rest
            cases same
            exact ⟨rfl, rfl, rfl⟩
        | some value =>
            rw [foundEq] at rest
            obtain ⟨same, rfl⟩ := rest
            cases same
            exact ⟨rfl, rfl, rfl⟩
      · rintro ⟨rfl, rfl, rfl⟩
        refine runs_bind_ok.mpr ⟨rows key, _, (loads _ _).mpr ⟨rfl, rfl⟩, ?_⟩
        cases rows key <;> exact ⟨rfl, rfl⟩

variable {β γ : Type} {meaning : Semantics S σ} {state : σ}

/-- With the cache or without it the program returns the same, and the state stays. -/
structure Transparent (meaning : Semantics S σ) (state : σ) (rows : κ → Option α)
    (cached : Program S ε (β × Dict κ α)) (plain : Program S ε β) : Prop where
  answers : ∀ value, (∃ later, cached.Runs meaning state (.ok (value, later)) state) ↔
    plain.Runs meaning state (.ok value) state
  keeps : ∀ value later after, cached.Runs meaning state (.ok (value, later)) after →
    after = state ∧ Truthful rows later
  stays : ∀ value after, plain.Runs meaning state (.ok value) after → after = state

theorem transparent_done (truthful : Truthful rows cache) (value : β) :
    Transparent meaning state rows (.done (value, cache) : Program S ε (β × Dict κ α))
      (.done value) where
  answers other := by simp [Runs, eq_comm]
  keeps other later after ran := by
    obtain ⟨resultEq, same⟩ := ran
    cases resultEq
    exact ⟨same, truthful⟩
  stays other after ran := ran.2

theorem transparent_fetch {key : κ} {load : Program S ε (Option α)} (truthful : Truthful rows cache)
    (loads : ∀ found after, load.Runs meaning state (.ok found) after ↔
      after = state ∧ found = rows key) :
    Transparent meaning state rows (fetch key load cache) load where
  answers found := by simp [runs_fetch truthful loads, loads]
  keeps found later after ran := by
    obtain ⟨same, _, rfl⟩ := (runs_fetch truthful loads).mp ran
    exact ⟨same, truthful.grown key⟩
  stays found after ran := ((loads found after).mp ran).1

theorem Transparent.bind {cached : Program S ε (β × Dict κ α)} {plain : Program S ε β}
    {next : β × Dict κ α → Program S ε (γ × Dict κ α)} {plainNext : β → Program S ε γ}
    (first : Transparent meaning state rows cached plain)
    (rest : ∀ value later, Truthful rows later →
      Transparent meaning state rows (next (value, later)) (plainNext value)) :
    Transparent meaning state rows (cached.bind next) (plain.bind plainNext) where
  answers result := by
    constructor
    · rintro ⟨last, ran⟩
      obtain ⟨⟨value, later⟩, middle, ranFirst, ranNext⟩ := runs_bind_ok.mp ran
      obtain ⟨rfl, truthful⟩ := first.keeps value later middle ranFirst
      have ranPlain := (first.answers value).mp ⟨later, ranFirst⟩
      have ranLast := ((rest value later truthful).answers result).mp ⟨last, ranNext⟩
      exact runs_bind_ok.mpr ⟨value, middle, ranPlain, ranLast⟩
    · intro ran
      obtain ⟨value, middle, ranFirst, ranNext⟩ := runs_bind_ok.mp ran
      obtain rfl := first.stays value middle ranFirst
      obtain ⟨later, ranCached⟩ := (first.answers value).mpr ranFirst
      have truthful := (first.keeps value later middle ranCached).2
      obtain ⟨last, ranLast⟩ := ((rest value later truthful).answers result).mpr ranNext
      exact ⟨last, runs_bind_ok.mpr ⟨(value, later), middle, ranCached, ranLast⟩⟩
  keeps result last after ran := by
    obtain ⟨⟨value, later⟩, middle, ranFirst, ranNext⟩ := runs_bind_ok.mp ran
    obtain ⟨rfl, truthful⟩ := first.keeps value later middle ranFirst
    exact (rest value later truthful).keeps result last after ranNext
  stays result after ran := by
    obtain ⟨value, middle, ranFirst, ranNext⟩ := runs_bind_ok.mp ran
    obtain rfl := first.stays value middle ranFirst
    obtain ⟨later, ranCached⟩ := (first.answers value).mpr ranFirst
    have truthful := (first.keeps value later middle ranCached).2
    exact (rest value later truthful).stays result after ranNext

theorem Transparent.after {program : Program S ε β} {next : β → Program S ε (γ × Dict κ α)}
    {plainNext : β → Program S ε γ}
    (stays : ∀ value after, program.Runs meaning state (.ok value) after → after = state)
    (rest : ∀ value, Transparent meaning state rows (next value) (plainNext value)) :
    Transparent meaning state rows (program.bind next) (program.bind plainNext) where
  answers result := by
    constructor
    · rintro ⟨last, ran⟩
      obtain ⟨value, middle, ranFirst, ranNext⟩ := runs_bind_ok.mp ran
      obtain rfl := stays value middle ranFirst
      have ranLast := ((rest value).answers result).mp ⟨last, ranNext⟩
      exact runs_bind_ok.mpr ⟨value, middle, ranFirst, ranLast⟩
    · intro ran
      obtain ⟨value, middle, ranFirst, ranNext⟩ := runs_bind_ok.mp ran
      obtain rfl := stays value middle ranFirst
      obtain ⟨last, ranLast⟩ := ((rest value).answers result).mpr ranNext
      exact ⟨last, runs_bind_ok.mpr ⟨value, middle, ranFirst, ranLast⟩⟩
  keeps result last after ran := by
    obtain ⟨value, middle, ranFirst, ranNext⟩ := runs_bind_ok.mp ran
    obtain rfl := stays value middle ranFirst
    exact (rest value).keeps result last after ranNext
  stays result after ran := by
    obtain ⟨value, middle, ranFirst, ranNext⟩ := runs_bind_ok.mp ran
    obtain rfl := stays value middle ranFirst
    exact (rest value).stays result after ranNext

theorem transparent_kept {plain : Program S ε β} (truthful : Truthful rows cache)
    (stays : ∀ value after, plain.Runs meaning state (.ok value) after → after = state) :
    Transparent meaning state rows (plain.bind fun value => .done (value, cache)) plain := by
  have kept := Transparent.after stays fun value =>
    transparent_done truthful value
  rw [bind_done] at kept
  exact kept

end ReadThrough
