import RepoLink.Library.RelyGuarantee

/-!
Programs that share a state which only grows. Every step keeps an invariant and moves the state up
a preorder, so what a program has seen stays true if it is a matter of having grown that far; all
kinds of processes are alike, and any number of them may run at once.
-/

namespace Effects

open Relation

variable {S : Signature} {σ ε ε' α β γ : Type}

structure Growth (S : Signature) (σ : Type) where
  meaning : Semantics S σ
  inv : σ → Prop
  grows : σ → σ → Prop
  refl : ∀ state, grows state state
  trans : ∀ {first second third}, grows first second → grows second third → grows first third

namespace Growth

/-- Everybody relies on growth, and guarantees it. -/
def discipline (growth : Growth S σ) : Discipline S σ Unit where
  meaning _ := growth.meaning
  inv := growth.inv
  rely _ := growth.grows
  guarantee _ := growth.grows
  must _ _ _ := True

theorem grows_of_steps (growth : Growth S σ) {before after : σ}
    (steps : ReflTransGen growth.grows before after) : growth.grows before after := by
  induction steps with
  | refl => exact growth.refl before
  | tail _ last ih => exact growth.trans ih last

end Growth

namespace Program

/-- Amid other processes every call keeps the invariant and the growth, and a value that the
program ends with meets `post` from then on. -/
def Keeps (growth : Growth S σ) (post : α → σ → Prop) (program : Program S ε α) (state : σ) : Prop :=
  program.Safe growth.discipline () (fun result later => ∀ value, result = .ok value → post value later)
    state

variable {growth : Growth S σ}

theorem keeps_done {post : α → σ → Prop} {value : α} {state : σ}
    (held : ∀ later, growth.grows state later → growth.inv later → post value later) :
    (done value : Program S ε α).Keeps growth post state := by
  intro later steps invariant other same
  cases same
  exact held later (growth.grows_of_steps steps) invariant

theorem keeps_fail {post : α → σ → Prop} {error : ε} {state : σ} :
    (fail error : Program S ε α).Keeps growth post state := by
  intro later _ _ value failed
  cases failed

theorem keeps_ofExcept {post : α → σ → Prop} {result : Except ε α} {state : σ}
    (held : ∀ value, result = .ok value → ∀ later, growth.grows state later → growth.inv later →
      post value later) : (ofExcept result).Keeps growth post state := by
  cases result with
  | ok value => exact keeps_done (held value rfl)
  | error error => exact keeps_fail

theorem keeps_call {post : α → σ → Prop} {op : S.Op} {next : S.Answer op → Program S ε α} {state : σ}
    (each : ∀ before, growth.grows state before → growth.inv before →
      ∀ answer after, growth.meaning op before answer after →
        growth.inv after ∧ growth.grows before after ∧ (next answer).Keeps growth post after) :
    (call op next).Keeps growth post state := by
  intro before steps invariant
  exact ⟨trivial, each before (growth.grows_of_steps steps) invariant⟩

theorem Keeps.remember {post : α → σ → Prop} {program : Program S ε α} {first state : σ}
    (keeps : program.Keeps growth post state) (prior : growth.grows first state) :
    program.Keeps growth (fun value later => growth.grows first later ∧ post value later) state := by
  induction program generalizing state with
  | done value =>
      refine keeps_done fun later grown held => ⟨growth.trans prior grown, ?_⟩
      exact keeps later (.single grown) held value rfl
  | fail error => exact keeps_fail
  | call op next ih =>
      refine keeps_call fun before grown held answer after answered => ?_
      obtain ⟨kept, more, rest⟩ := (keeps before (.single grown) held).2 answer after answered
      exact ⟨kept, more, ih answer rest (growth.trans prior (growth.trans grown more))⟩

theorem Keeps.bind {post : α → σ → Prop} {last : β → σ → Prop} {program : Program S ε α}
    {next : α → Program S ε β} {state : σ} (invariant : growth.inv state)
    (first : program.Keeps growth post state)
    (second : ∀ value later, growth.inv later → growth.grows state later → post value later →
      (next value).Keeps growth last later) : (program.bind next).Keeps growth last state := by
  have remembered := first.remember (growth.refl state)
  refine Safe.bind invariant (remembered.mono fun result later held met => ?_)
  cases result with
  | ok value => exact second value later held (met value rfl).1 (met value rfl).2
  | error error => exact keeps_fail

theorem Keeps.mono {post weaker : α → σ → Prop} {program : Program S ε α} {state : σ}
    (keeps : program.Keeps growth post state)
    (implied : ∀ value later, growth.inv later → post value later → weaker value later) :
    program.Keeps growth weaker state :=
  Safe.mono (fun _ later held met value same => implied value later held (met value same)) keeps

theorem Keeps.attempt {post : α → σ → Prop} {program : Program S ε α} {state : σ}
    (keeps : program.Keeps growth post state) :
    (program.attempt : Program S ε' (Except ε α)).Keeps growth
      (fun result later => ∀ value, result = .ok value → post value later) state := by
  refine Safe.attempt (Safe.mono (fun result later _ met other same value ended => ?_) keeps)
  cases same
  exact met value ended

theorem keeps_foldEach {holds : β → σ → Prop} {body : β → α → Program S ε β}
    (stable : ∀ value before after, growth.grows before after → holds value before →
      holds value after) {items : List α}
    (each : ∀ value item state, item ∈ items → growth.inv state → holds value state →
      (body value item).Keeps growth holds state) :
    ∀ {value : β} {state : σ}, growth.inv state → holds value state →
      (foldEach body items value).Keeps growth holds state := by
  induction items with
  | nil =>
      intro value state _ held
      exact keeps_done fun later grown _ => stable value state later grown held
  | cons item rest ih =>
      intro value state invariant held
      have first := each value item state List.mem_cons_self invariant held
      refine first.bind invariant fun next later laterInv _ nextHeld => ih ?_ laterInv nextHeld
      exact fun value other state member => each value other state (List.mem_cons_of_mem item member)

theorem keeps_forEach {context : σ → Prop} {settled : α → σ → Prop} {body : α → Program S ε Unit}
    (contextStable : ∀ before after, growth.grows before after → context before → context after)
    (stable : ∀ item before after, growth.grows before after → settled item before →
      settled item after) {items : List α}
    (each : ∀ item state, item ∈ items → growth.inv state → context state →
      (body item).Keeps growth (fun _ later => settled item later) state) {state : σ}
    (invariant : growth.inv state) (held : context state) :
    (foldEach (fun _ item => body item) items ()).Keeps growth
      (fun _ later => ∀ item ∈ items, settled item later) state := by
  induction items generalizing state with
  | nil => exact keeps_done fun _ _ _ _ member => (List.not_mem_nil member).elim
  | cons item rest ih =>
      have first := each item state List.mem_cons_self invariant held
      refine first.bind invariant fun _ later laterInv grown done => ?_
      have others := ih (fun other state member => each other state (List.mem_cons_of_mem item member))
        laterInv (contextStable state later grown held)
      refine (others.remember (growth.refl later)).mono fun _ last _ ⟨more, all⟩ other member => ?_
      rcases List.mem_cons.mp member with rfl | member
      · exact stable other later last more done
      · exact all other member

theorem Keeps.runs {meaning : Semantics S σ} {post : α → σ → Prop}
    (within : ∀ op before answer after, meaning op before answer after →
      growth.meaning op before answer after) {program : Program S ε α} :
    ∀ {before after : σ} {result : Except ε α}, growth.inv before →
      program.Keeps growth post before → program.Runs meaning before result after →
      growth.grows before after ∧ ∀ value, result = .ok value → post value after := by
  induction program with
  | done value =>
      rintro before after result invariant keeps ⟨rfl, rfl⟩
      exact ⟨growth.refl _, keeps _ .refl invariant⟩
  | fail error =>
      rintro before after result _ _ ⟨rfl, rfl⟩
      exact ⟨growth.refl _, fun _ failed => nomatch failed⟩
  | call op next ih =>
      rintro before after result invariant keeps ⟨answer, middle, answered, rest⟩
      obtain ⟨kept, more, goesOn⟩ :=
        (keeps before .refl invariant).2 answer middle (within op before answer middle answered)
      obtain ⟨grown, held⟩ := ih answer kept goesOn rest
      exact ⟨growth.trans more grown, held⟩

end Program

namespace Pool

theorem keeps_run {growth : Growth S σ} {start : σ → Proc S ε Unit → Prop}
    (startKeeps : ∀ shared proc, growth.inv shared → start shared proc →
      proc.program.Keeps growth (fun _ _ => True) shared)
    {first : σ} {last : Pool S σ ε Unit} (invariant : growth.inv first)
    (run : Run growth.discipline (fun _ _ => True) start ⟨first, []⟩ last) :
    growth.inv last.shared ∧ growth.grows first last.shared := by
  have safely : ∀ shared proc, growth.inv shared → start shared proc →
      proc.program.Safe growth.discipline proc.kind (fun _ _ => True) shared :=
    fun shared proc held begins => Program.Safe.mono (fun _ _ _ _ => trivial)
      (startKeeps shared proc held begins)
  have empty : Sound growth.discipline (fun _ _ => True) (⟨first, []⟩ : Pool S σ ε Unit) :=
    ⟨invariant, fun _ member => (List.not_mem_nil member).elim, List.Pairwise.nil⟩
  have compatible : ∀ actor other : Unit, True → ∀ before after, growth.inv before →
      growth.inv after → growth.grows before after → growth.grows before after :=
    fun _ _ _ _ _ _ _ grown => grown
  have both : Sound growth.discipline (fun _ _ => True) last ∧ growth.grows first last.shared := by
    induction run with
    | refl => exact ⟨empty, growth.refl first⟩
    | @tail middle last _ step ih =>
        obtain ⟨sound, grown⟩ := ih
        refine ⟨sound.step compatible safely step, growth.trans grown ?_⟩
        cases step with
        | act answered =>
            exact sound.guaranteed (List.mem_append_right _ List.mem_cons_self) answered
        | start => exact growth.refl _
        | stop => exact growth.refl _
  exact ⟨both.1.inv, both.2⟩

end Pool

end Effects
