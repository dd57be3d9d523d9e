import RepoLink.Library.Program

/-!
Preconditions of programs, over every answer of the environment: a program ensures `post` if it
ends there or fails as `fails` says, whatever the calls answer.
-/

namespace Effects

variable {S : Signature} {σ ε ε' α β : Type}

def Semantics.Total (meaning : Semantics S σ) : Prop :=
  ∀ op before, ∃ answer after, meaning op before answer after

namespace Program

def Ensures (meaning : Semantics S σ) (fails : ε → σ → Prop) (post : α → σ → Prop) :
    Program S ε α → σ → Prop
  | .done value, state => post value state
  | .fail error, state => fails error state
  | .call op next, state => ∀ answer after, meaning op state answer after →
      (next answer).Ensures meaning fails post after

variable {meaning : Semantics S σ} {fails : ε → σ → Prop}

theorem ensures_iff {post : α → σ → Prop} {program : Program S ε α} {before : σ} :
    program.Ensures meaning fails post before ↔
      ∀ result after, program.Runs meaning before result after →
        (∀ value, result = .ok value → post value after) ∧
          ∀ error, result = .error error → fails error after := by
  induction program generalizing before with
  | done value =>
      constructor
      · rintro held _ _ ⟨rfl, rfl⟩
        exact ⟨fun other same => Except.ok.inj same ▸ held, fun _ same => by cases same⟩
      · exact fun all => (all _ _ ⟨rfl, rfl⟩).1 value rfl
  | fail error =>
      constructor
      · rintro held _ _ ⟨rfl, rfl⟩
        refine ⟨fun _ same => ?_, fun other same => Except.error.inj same ▸ held⟩
        cases same
      · exact fun all => (all _ before ⟨rfl, rfl⟩).2 error rfl
  | call op next ih =>
      constructor
      · rintro held result after ⟨answer, middle, answered, rest⟩
        exact (ih answer).mp (held answer middle answered) result after rest
      · intro all answer middle answered
        exact (ih answer).mpr fun result after rest =>
          all result after ⟨answer, middle, answered, rest⟩

theorem Ensures.mono {post weaker : α → σ → Prop} {program : Program S ε α} {state : σ}
    (ensures : program.Ensures meaning fails post state)
    (implied : ∀ value after, post value after → weaker value after) :
    program.Ensures meaning fails weaker state := by
  induction program generalizing state with
  | done value => exact implied value state ensures
  | fail error => exact ensures
  | call op next ih => exact fun answer after answered => ih answer (ensures answer after answered)

theorem Ensures.bind {post : α → σ → Prop} {last : β → σ → Prop} {program : Program S ε α}
    {next : α → Program S ε β} {state : σ} (first : program.Ensures meaning fails post state)
    (second : ∀ value after, post value after →
      (next value).Ensures meaning fails last after) :
    (program.bind next).Ensures meaning fails last state := by
  induction program generalizing state with
  | done value => exact second value state first
  | fail error => exact first
  | call op rest ih => exact fun answer after answered => ih answer (first answer after answered)

theorem Ensures.attempt {other : ε' → σ → Prop} {post : α → σ → Prop} {program : Program S ε α}
    {state : σ} (ensures : program.Ensures meaning fails post state) :
    (program.attempt : Program S ε' (Except ε α)).Ensures meaning other
      (fun result after => (∃ value, result = .ok value ∧ post value after) ∨
        ∃ error, result = .error error ∧ fails error after) state := by
  induction program generalizing state with
  | done value => exact .inl ⟨value, rfl, ensures⟩
  | fail error => exact .inr ⟨error, rfl, ensures⟩
  | call op next ih => exact fun answer after answered => ih answer (ensures answer after answered)

theorem Ensures.mapError {convert : ε → ε'} {failsOut : ε' → σ → Prop} {post : α → σ → Prop}
    {program : Program S ε α} {state : σ} (ensures : program.Ensures meaning fails post state)
    (converted : ∀ error after, fails error after → failsOut (convert error) after) :
    (program.mapError convert).Ensures meaning failsOut post state := by
  induction program generalizing state with
  | done value => exact ensures
  | fail error => exact converted error state ensures
  | call op next ih => exact fun answer after answered => ih answer (ensures answer after answered)

theorem Ensures.foldEach {body : β → α → Program S ε β} {holds : List α → β → σ → Prop}
    {items : List α} (each : ∀ done item value state, item ∈ items → holds done value state →
      (body value item).Ensures meaning fails (holds (done ++ [item])) state) :
    ∀ {rest done : List α} {value : β} {state : σ}, rest ⊆ items → holds done value state →
      (Program.foldEach body rest value).Ensures meaning fails (holds (done ++ rest)) state := by
  intro rest
  induction rest with
  | nil =>
      intro done value state _ held
      rw [List.append_nil]
      exact held
  | cons item more ih =>
      intro done value state within held
      refine (each done item value state (within List.mem_cons_self) held).bind
        fun next middle moved => ?_
      have ended := ih (fun _ member => within (List.mem_cons_of_mem _ member)) moved
      rw [List.append_assoc, List.singleton_append] at ended
      exact ended

theorem Ensures.forEach {body : α → Program S ε Unit} {holds : σ → Prop} {items : List α}
    (each : ∀ item state, item ∈ items → holds state →
      (body item).Ensures meaning fails (fun _ after => holds after) state) {state : σ}
    (held : holds state) : (Program.foldEach (fun _ item => body item) items ()).Ensures meaning fails
      (fun _ after => holds after) state :=
  @Ensures.foldEach S σ ε α Unit meaning fails (fun _ => body) (fun _ _ => holds) items
    (fun _ item _ state member held => each item state member held) items [] () state
    (List.Subset.refl items) held

theorem exists_runs (total : meaning.Total) (program : Program S ε α) (before : σ) :
    ∃ result after, program.Runs meaning before result after := by
  induction program generalizing before with
  | done value => exact ⟨_, _, rfl, rfl⟩
  | fail error => exact ⟨_, before, rfl, rfl⟩
  | call op next ih =>
      obtain ⟨answer, middle, answered⟩ := total op before
      obtain ⟨result, after, rest⟩ := ih answer middle
      exact ⟨result, after, answer, middle, answered, rest⟩

theorem Ensures.exists_ok {post : α → σ → Prop} {program : Program S ε α} {before : σ}
    (total : meaning.Total)
    (ensures : program.Ensures meaning (fun _ _ => False) post before) :
    ∃ value after, program.Runs meaning before (.ok value) after ∧ post value after := by
  obtain ⟨result, after, ran⟩ := exists_runs total program before
  obtain ⟨held, failed⟩ := ensures_iff.mp ensures result after ran
  cases result with
  | error error => exact (failed error rfl).elim
  | ok value => exact ⟨value, after, ran, held value rfl⟩

end Program

end Effects
