import RepoLink.Library.RelyGuarantee

/-!
Programs whose environment stands still in some respect. `Under` says of a program what `Every` and
`Yields` say, but only for the answers that are possible; a pool of such programs keeps the
invariant that makes no other answer possible.
-/

namespace Effects

open Relation

variable {S : Signature} {σ ε ε' α β : Type}

namespace Program

def Under (possible : (op : S.Op) → S.Answer op → Prop) (allowed : S.Op → Prop)
    (post : α → Prop) : Program S ε α → Prop
  | .done value => post value
  | .fail _ => True
  | .call op next => allowed op ∧ ∀ answer, possible op answer →
      (next answer).Under possible allowed post

variable {possible : (op : S.Op) → S.Answer op → Prop} {allowed : S.Op → Prop}

theorem Under.mono {post weaker : α → Prop} {program : Program S ε α}
    (implied : ∀ value, post value → weaker value) (under : program.Under possible allowed post) :
    program.Under possible allowed weaker := by
  induction program with
  | done value => exact implied value under
  | fail error => trivial
  | call op next ih => exact ⟨under.1, fun answer given => ih answer (under.2 answer given)⟩

theorem Under.both {left right : α → Prop} {program : Program S ε α}
    (under : program.Under possible allowed left) (yields : program.Yields right) :
    program.Under possible allowed fun value => left value ∧ right value := by
  induction program with
  | done value => exact ⟨under, yields⟩
  | fail error => trivial
  | call op next ih =>
      exact ⟨under.1, fun answer given => ih answer (under.2 answer given) (yields answer)⟩

theorem Under.bind {post : α → Prop} {post' : β → Prop} {program : Program S ε α}
    {next : α → Program S ε β} (first : program.Under possible allowed post)
    (second : ∀ value, post value → (next value).Under possible allowed post') :
    (program.bind next).Under possible allowed post' := by
  induction program with
  | done value => exact second value first
  | fail error => trivial
  | call op rest ih => exact ⟨first.1, fun answer given => ih answer (first.2 answer given)⟩

theorem Under.bindIf {post : α → Prop} {takes : Prop} [Decidable takes] {ignored : β → Prop}
    {first : Program S ε β} {rest : Program S ε α}
    (firstUnder : first.Under possible allowed ignored)
    (restUnder : rest.Under possible allowed post) :
    (if takes then first.bind fun _ => rest else rest).Under possible allowed post := by
  split
  · exact firstUnder.bind fun _ _ => restUnder
  · exact restUnder

theorem Under.of {post : α → Prop} {program : Program S ε α} (all : program.Every allowed)
    (yields : program.Yields post) : program.Under possible allowed post := by
  induction program with
  | done value => exact yields
  | fail error => trivial
  | call op next ih => exact ⟨all.1, fun answer _ => ih answer (all.2 answer) (yields answer)⟩

theorem Under.ofEvery {program : Program S ε α} (all : program.Every allowed) :
    program.Under possible allowed fun _ => True := .of all (yields_any program)

theorem Under.foldEach {holds : β → Prop} {body : β → α → Program S ε β} {items : List α}
    (each : ∀ value item, item ∈ items → holds value →
      (body value item).Under possible allowed holds) :
    ∀ {value : β}, holds value → (foldEach body items value).Under possible allowed holds := by
  induction items with
  | nil => exact fun held => held
  | cons item rest ih =>
      intro value held
      refine (each value item List.mem_cons_self held).bind fun next nextHeld => ih ?_ nextHeld
      exact fun later other member => each later other (List.mem_cons_of_mem item member)

theorem Under.attempt {post : α → Prop} {program : Program S ε α}
    (under : program.Under possible allowed post) :
    (program.attempt : Program S ε' (Except ε α)).Under possible allowed fun result =>
      ∀ value, result = .ok value → post value := by
  induction program with
  | done value =>
      intro other same
      cases same
      exact under
  | fail error => exact fun _ failed => nomatch failed
  | call op next ih => exact ⟨under.1, fun answer given => ih answer (under.2 answer given)⟩

theorem Under.detached {post : α → Prop} {program : Program S ε α}
    (under : program.Under possible allowed post) :
    (program.detached : Program S ε' Unit).Under possible allowed fun _ => True := by
  induction program with
  | done value => trivial
  | fail error => trivial
  | call op next ih => exact ⟨under.1, fun answer given => ih answer (under.2 answer given)⟩

theorem Under.runs {meaning : Semantics S σ} {post : α → Prop} {program : Program S ε α}
    (under : program.Under possible allowed post)
    (tells : ∀ op before answer after, meaning op before answer after → possible op answer)
    {before after : σ} {value : α} (ran : program.Runs meaning before (.ok value) after) :
    post value := by
  induction program generalizing before with
  | done result =>
      cases ran.1
      exact under
  | fail error => cases ran.1
  | call op next ih =>
      obtain ⟨answer, middle, answered, rest⟩ := ran
      exact ih answer (under.2 answer (tells op before answer middle answered)) rest

theorem Under.safe {κ : Type} {rules : Discipline S σ κ} {kind : κ} {post : α → Prop}
    {program : Program S ε α}
    (tells : ∀ op before answer after, rules.inv before → rules.meaning kind op before answer after →
      possible op answer)
    (step : ∀ op, allowed op → ∀ before, rules.inv before → rules.must kind op before ∧
      ∀ answer after, rules.meaning kind op before answer after →
        rules.inv after ∧ rules.guarantee kind before after)
    (under : program.Under possible allowed post) (state : σ) :
    program.Safe rules kind (fun _ _ => True) state := by
  induction program generalizing state with
  | done value => exact fun _ _ _ => trivial
  | fail error => exact fun _ _ _ => trivial
  | call op next ih =>
      intro later _ held
      obtain ⟨owed, effect⟩ := step op under.1 later held
      refine ⟨owed, fun answer after answered => ?_⟩
      obtain ⟨kept, guaranteed⟩ := effect answer after answered
      exact ⟨kept, guaranteed, ih answer (under.2 answer (tells op later answer after held answered))
        after⟩

end Program

def steadyRules (meaning : Semantics S σ) (allowed : S.Op → Prop) (inv : σ → Prop) :
    Discipline S σ Unit where
  meaning _ := meaning
  inv
  rely _ _ _ := True
  guarantee _ _ _ := True
  must _ op _ := allowed op

theorem steady_run {meaning : Semantics S σ} {allowed : S.Op → Prop} {inv : σ → Prop}
    {possible : (op : S.Op) → S.Answer op → Prop} {start : σ → Proc S ε Unit → Prop}
    (tells : ∀ op before answer after, inv before → meaning op before answer after →
      possible op answer)
    (step : ∀ op before answer after, allowed op → inv before → meaning op before answer after →
      inv after)
    (starts : ∀ state proc, start state proc →
      proc.program.Under possible allowed fun _ => True)
    {first : σ} (held : inv first) {pool : Pool S σ ε Unit}
    (run : Pool.Run (steadyRules meaning allowed inv) (fun _ _ => True) start ⟨first, []⟩ pool) :
    Pool.Sound (steadyRules meaning allowed inv) (fun _ _ => True) pool := by
  have nobody : Pool.Sound (steadyRules meaning allowed inv) (fun _ _ => True)
      (⟨first, []⟩ : Pool S σ ε Unit) :=
    ⟨held, fun _ member => (List.not_mem_nil member).elim, .nil⟩
  exact nobody.run (fun _ _ _ _ _ _ _ _ => trivial)
    (fun state proc _ begins => (starts state proc begins).safe tells
      (fun op given before kept => ⟨given, fun answer after answered =>
        ⟨step op before answer after given kept answered, trivial⟩⟩) state) run

end Effects
