import RepoLink.Library.Program

/-!
Programs that may be cut off between any two calls. `CutOff` is a run that stops anywhere;
`Survives` says that every call of a program, alone with its state, keeps an invariant, so that
the invariant holds wherever the run is cut off.
-/

namespace Effects

namespace Program

variable {S : Signature} {σ ε ε' α β : Type} {meaning : Semantics S σ}

/-- The program may have come from `before` to `after` when it stops, finished or not. -/
def CutOff (meaning : Semantics S σ) : Program S ε α → σ → σ → Prop
  | .done _, before, after => after = before
  | .fail _, before, after => after = before
  | .call op next, before, after =>
    after = before ∨ ∃ answer middle, meaning op before answer middle ∧
      (next answer).CutOff meaning middle after

def Survives (meaning : Semantics S σ) (inv : σ → Prop) :
    Program S ε α → (Except ε α → σ → Prop) → σ → Prop
  | .done value, post, state => post (.ok value) state
  | .fail error, post, state => post (.error error) state
  | .call op next, post, state => ∀ answer after, meaning op state answer after →
      inv after ∧ (next answer).Survives meaning inv post after

variable {inv : σ → Prop}

theorem Survives.cutOff {program : Program S ε α} {post : Except ε α → σ → Prop}
    {before after : σ} (survives : program.Survives meaning inv post before) (held : inv before)
    (cut : program.CutOff meaning before after) : inv after := by
  induction program generalizing before with
  | done value => exact cut ▸ held
  | fail error => exact cut ▸ held
  | call op next ih =>
      rcases cut with rfl | ⟨answer, middle, answered, rest⟩
      · exact held
      · obtain ⟨kept, later⟩ := survives answer middle answered
        exact ih answer later kept rest

theorem Survives.runs {program : Program S ε α} {post : Except ε α → σ → Prop} {before after : σ}
    {result : Except ε α} (survives : program.Survives meaning inv post before)
    (ran : program.Runs meaning before result after) : post result after := by
  induction program generalizing before with
  | done value =>
      obtain ⟨rfl, rfl⟩ := ran
      exact survives
  | fail error =>
      obtain ⟨rfl, rfl⟩ := ran
      exact survives
  | call op next ih =>
      obtain ⟨answer, middle, answered, rest⟩ := ran
      exact ih answer (survives answer middle answered).2 rest

theorem Survives.mono {program : Program S ε α} {post weaker : Except ε α → σ → Prop} {state : σ}
    (implied : ∀ result later, post result later → weaker result later)
    (survives : program.Survives meaning inv post state) :
    program.Survives meaning inv weaker state := by
  induction program generalizing state with
  | done value => exact implied _ _ survives
  | fail error => exact implied _ _ survives
  | call op next ih =>
      intro answer after answered
      obtain ⟨kept, later⟩ := survives answer after answered
      exact ⟨kept, ih answer later⟩

theorem Survives.bind {program : Program S ε α} {next : α → Program S ε β}
    {post : Except ε β → σ → Prop} {state : σ}
    (first : program.Survives meaning inv (fun result later => match result with
      | .ok value => (next value).Survives meaning inv post later
      | .error error => post (.error error) later) state) :
    (program.bind next).Survives meaning inv post state := by
  induction program generalizing state with
  | done value => exact first
  | fail error => exact first
  | call op rest ih =>
      intro answer after answered
      obtain ⟨kept, later⟩ := first answer after answered
      exact ⟨kept, ih answer later⟩

theorem Survives.attempt {program : Program S ε α} {post : Except ε' (Except ε α) → σ → Prop}
    {state : σ}
    (first : program.Survives meaning inv (fun result later => post (.ok result) later) state) :
    (program.attempt : Program S ε' (Except ε α)).Survives meaning inv post state := by
  induction program generalizing state with
  | done value => exact first
  | fail error => exact first
  | call op rest ih =>
      intro answer after answered
      obtain ⟨kept, later⟩ := first answer after answered
      exact ⟨kept, ih answer later⟩

theorem Survives.ofEvery {allowed : S.Op → Prop} (kept : σ → Prop)
    (keeps : ∀ op, allowed op → ∀ before answer after, kept before →
      meaning op before answer after → inv after ∧ kept after)
    {program : Program S ε α} (all : program.Every allowed) {state : σ} (held : kept state) :
    program.Survives meaning inv (fun _ later => kept later) state := by
  induction program generalizing state with
  | done value => exact held
  | fail error => exact held
  | call op next ih =>
      intro answer after answered
      obtain ⟨invariant, still⟩ := keeps op all.1 state answer after held answered
      exact ⟨invariant, ih answer (all.2 answer) still⟩

theorem advance_cutOff {τ : Type} {handler : Handler S τ} {project : τ → σ}
    (sound : ∀ op state, meaning op (project state) (handler op state).1
      (project (handler op state).2)) :
    ∀ (count : Nat) (program : Program S ε α) (state : τ), program.CutOff meaning (project state)
      (project (program.advance handler count state).2) := by
  intro count
  induction count with
  | zero =>
      intro program state
      cases program with
      | done value => rfl
      | fail error => rfl
      | call op next => exact .inl rfl
  | succ count ih =>
      intro program state
      cases program with
      | done value => rfl
      | fail error => rfl
      | call op next => exact .inr ⟨_, _, sound op state, ih _ _⟩

end Program

end Effects
