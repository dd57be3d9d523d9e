import RepoLink.Library.RelyGuarantee

/-!
Rules of pre- and postconditions for programs beside others. An assertion that the others keep may
stand before a program, and each rule takes a program apart at its first call.
-/

namespace Effects

open Relation

variable {S : Signature} {σ κ ε ε' α β : Type} {rules : Discipline S σ κ} {kind : κ}

def Stable (rules : Discipline S σ κ) (kind : κ) (holds : σ → Prop) : Prop :=
  ∀ before after, rules.rely kind before after → holds before → holds after

theorem Stable.steps {holds : σ → Prop} (stable : Stable rules kind holds) {before after : σ}
    (steps : ReflTransGen (rules.rely kind) before after) (held : holds before) : holds after := by
  induction steps with
  | refl => exact held
  | tail _ last ih => exact stable _ _ last ih

theorem stable_true : Stable rules kind fun _ => True := fun _ _ _ _ => trivial

def Triple (rules : Discipline S σ κ) (kind : κ) (pre : σ → Prop) (program : Program S ε α)
    (post : Except ε α → σ → Prop) : Prop :=
  ∀ state, rules.inv state → pre state → program.Safe rules kind post state

variable {pre : σ → Prop}

theorem triple_done {post : Except ε α → σ → Prop} {value : α} (stable : Stable rules kind pre)
    (ends : ∀ state, rules.inv state → pre state → post (.ok value) state) :
    Triple rules kind pre (.done value) post :=
  fun _ _ held later steps kept => ends later kept (stable.steps steps held)

theorem triple_fail {post : Except ε α → σ → Prop} {error : ε} (stable : Stable rules kind pre)
    (ends : ∀ state, rules.inv state → pre state → post (.error error) state) :
    Triple rules kind pre (.fail error) post :=
  fun _ _ held later steps kept => ends later kept (stable.steps steps held)

theorem triple_call {post : Except ε α → σ → Prop} {op : S.Op} {next : S.Answer op → Program S ε α}
    (middle : S.Answer op → σ → Prop) (stable : Stable rules kind pre)
    (effect : ∀ state, rules.inv state → pre state → rules.must kind op state ∧
      ∀ answer after, rules.meaning kind op state answer after →
        rules.inv after ∧ rules.guarantee kind state after ∧ middle answer after)
    (rest : ∀ answer, Triple rules kind (middle answer) (next answer) post) :
    Triple rules kind pre (.call op next) post := by
  intro state _ held later steps kept
  obtain ⟨owed, performed⟩ := effect later kept (stable.steps steps held)
  refine ⟨owed, fun answer after answered => ?_⟩
  obtain ⟨keptAfter, guaranteed, reached⟩ := performed answer after answered
  exact ⟨keptAfter, guaranteed, rest answer after keptAfter reached⟩

theorem Triple.mono {stronger : σ → Prop} {post weaker : Except ε α → σ → Prop}
    {program : Program S ε α} (triple : Triple rules kind pre program post)
    (before : ∀ state, rules.inv state → stronger state → pre state)
    (implied : ∀ result state, rules.inv state → post result state → weaker result state) :
    Triple rules kind stronger program weaker :=
  fun state kept held => (triple state kept (before state kept held)).mono implied

theorem Triple.bind {post : Except ε β → σ → Prop} {program : Program S ε α}
    {next : α → Program S ε β} (middle : α → σ → Prop)
    (first : Triple rules kind pre program fun result later => match result with
      | .ok value => middle value later
      | .error error => post (.error error) later)
    (failed : ∀ error, Stable rules kind (post (.error error)))
    (rest : ∀ value, Triple rules kind (middle value) (next value) post) :
    Triple rules kind pre (program.bind next) post := by
  intro state kept held
  refine Program.Safe.bind kept ((first state kept held).mono fun result later keptLater reached => ?_)
  cases result with
  | ok value => exact rest value later keptLater reached
  | error error => exact fun last steps _ => (failed error).steps steps reached

theorem Triple.attempt {post : Except ε' (Except ε α) → σ → Prop} {program : Program S ε α}
    (triple : Triple rules kind pre program fun result later => post (.ok result) later) :
    Triple rules kind pre (program.attempt : Program S ε' (Except ε α)) post :=
  fun state kept held => (triple state kept held).attempt

theorem triple_foldEach {post : Except ε β → σ → Prop} {body : β → α → Program S ε β}
    {items : List α} (holds : List α → β → σ → Prop)
    (stable : ∀ done value, Stable rules kind (holds done value))
    (failed : ∀ error, Stable rules kind (post (.error error)))
    (each : ∀ done item rest value, items = done ++ item :: rest →
      Triple rules kind (holds done value) (body value item) fun result later => match result with
        | .ok next => holds (done ++ [item]) next later
        | .error error => post (.error error) later)
    (ends : ∀ value state, rules.inv state → holds items value state → post (.ok value) state) :
    ∀ {rest done : List α} {value : β}, items = done ++ rest →
      Triple rules kind (holds done value) (Program.foldEach body rest value) post := by
  intro rest
  induction rest with
  | nil =>
      intro done value whole
      rw [List.append_nil] at whole
      subst whole
      exact triple_done (stable _ _) (ends value)
  | cons item more ih =>
      intro done value whole
      refine Triple.bind (fun next => holds (done ++ [item]) next) (each done item more value whole)
        failed fun next => ih ?_
      rw [whole, List.append_assoc, List.singleton_append]

theorem Pool.triple_run {together : κ → κ → Prop} {start : σ → Proc S ε κ → Prop}
    {post : κ → Except ε Unit → σ → Prop}
    (compatible : ∀ actor other, together actor other → ∀ before after, rules.inv before →
      rules.inv after → rules.guarantee actor before after → rules.rely other before after)
    (starts : ∀ shared proc, start shared proc →
      Triple rules proc.kind (fun _ => True) proc.program (post proc.kind))
    {shared : σ} (kept : rules.inv shared) {last : Pool S σ ε κ}
    (run : Pool.Run rules together start ⟨shared, []⟩ last) :
    Pool.SoundTo rules together post last :=
  Pool.SoundTo.run compatible
    (fun shared proc kept begins => starts shared proc begins shared kept trivial)
    ⟨kept, fun _ member => (List.not_mem_nil member).elim, .nil⟩ run

end Effects
