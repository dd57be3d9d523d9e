/-!
Programs that call their environment. A program names an operation of a signature, waits, and
goes on from the answer; a semantics says which answers a state allows and what each leaves
behind. One program then has a sequential reading (`Runs`) and, call by call, an interleaved one.
-/

namespace Effects

structure Signature where
  Op : Type
  Answer : Op → Type

inductive Program (S : Signature) (ε α : Type) where
  | done (value : α)
  | fail (error : ε)
  | call (op : S.Op) (next : S.Answer op → Program S ε α)

/-- `meaning op before answer after`: performing `op` may answer so and leave `after`. -/
abbrev Semantics (S : Signature) (σ : Type) := (op : S.Op) → σ → S.Answer op → σ → Prop

abbrev Handler (S : Signature) (σ : Type) := (op : S.Op) → σ → S.Answer op × σ

namespace Program

variable {S : Signature} {σ ε ε' α β : Type}

def bind : Program S ε α → (α → Program S ε β) → Program S ε β
  | .done value, next => next value
  | .fail error, _ => .fail error
  | .call op rest, next => .call op fun answer => (rest answer).bind next

instance : Monad (Program S ε) where
  pure := .done
  bind := bind

def perform (op : S.Op) : Program S ε (S.Answer op) := .call op .done

def attempt : Program S ε α → Program S ε' (Except ε α)
  | .done value => .done (.ok value)
  | .fail error => .done (.error error)
  | .call op next => .call op fun answer => (next answer).attempt

def ofExcept : Except ε α → Program S ε α
  | .ok value => .done value
  | .error error => .fail error

def mapError (convert : ε → ε') : Program S ε α → Program S ε' α
  | .done value => .done value
  | .fail error => .fail (convert error)
  | .call op next => .call op fun answer => (next answer).mapError convert

/-- A program whose result nobody waits for. -/
def detached : Program S ε α → Program S ε' Unit
  | .done _ => .done ()
  | .fail _ => .done ()
  | .call op next => .call op fun answer => (next answer).detached

def concluded : Program S ε α → Program S Unit Unit
  | .done _ => .done ()
  | .fail _ => .fail ()
  | .call op next => .call op fun answer => (next answer).concluded

def foldEach (body : β → α → Program S ε β) : List α → β → Program S ε β
  | [], value => .done value
  | item :: rest, value => (body value item).bind (foldEach body rest)

@[simp] theorem pure_eq (value : α) : (pure value : Program S ε α) = .done value := rfl

@[simp] theorem bind_eq (program : Program S ε α) (next : α → Program S ε β) :
    program >>= next = program.bind next := rfl

@[simp] theorem done_bind (value : α) (next : α → Program S ε β) :
    (done value).bind next = next value := rfl

@[simp] theorem fail_bind (error : ε) (next : α → Program S ε β) :
    (fail error : Program S ε α).bind next = .fail error := rfl

@[simp] theorem call_bind (op : S.Op) (rest : S.Answer op → Program S ε α)
    (next : α → Program S ε β) :
    (call op rest).bind next = .call op fun answer => (rest answer).bind next := rfl

@[simp] theorem perform_bind (op : S.Op) (next : S.Answer op → Program S ε β) :
    (perform op).bind next = .call op next := rfl

theorem bind_assoc {γ : Type} (program : Program S ε α) (next : α → Program S ε β)
    (last : β → Program S ε γ) :
    (program.bind next).bind last = program.bind fun value => (next value).bind last := by
  induction program with
  | done value => rfl
  | fail error => rfl
  | call op rest ih => exact congrArg (Program.call op) (funext ih)

theorem bind_done (program : Program S ε α) : program.bind .done = program := by
  induction program with
  | done value => rfl
  | fail error => rfl
  | call op rest ih => exact congrArg (Program.call op) (funext ih)

/-- The sequential reading: `program` started in `before` may end with `result` in `after`. -/
def Runs (meaning : Semantics S σ) : Program S ε α → σ → Except ε α → σ → Prop
  | .done value, before, result, after => result = .ok value ∧ after = before
  | .fail error, before, result, after => result = .error error ∧ after = before
  | .call op next, before, result, after =>
    ∃ answer middle, meaning op before answer middle ∧
      (next answer).Runs meaning middle result after

def exec (handler : Handler S σ) : Program S ε α → σ → Except ε α × σ
  | .done value, state => (.ok value, state)
  | .fail error, state => (.error error, state)
  | .call op next, state => (next (handler op state).1).exec handler (handler op state).2

def advance (handler : Handler S σ) : Nat → Program S ε α → σ → Program S ε α × σ
  | count + 1, .call op next, state =>
    advance handler count (next (handler op state).1) (handler op state).2
  | _, program, state => (program, state)

def passes (check : S.Op → σ → Bool) (handler : Handler S σ) :
    Nat → Program S ε α → σ → Bool
  | count + 1, .call op next, state =>
    check op state && passes check handler count (next (handler op state).1) (handler op state).2
  | _, _, _ => true

def isCall : Program S ε α → Bool
  | .call .. => true
  | _ => false

theorem advance_succ {handler : Handler S σ} : ∀ {count : Nat} {program : Program S ε α} {state : σ},
    (program.advance handler count state).1.isCall = true →
    ∃ op next, (program.advance handler count state).1 = .call op next ∧
      (program.advance handler (count + 1) state).2 =
        (handler op (program.advance handler count state).2).2 ∧
      ∀ check : S.Op → σ → Bool, program.passes check handler (count + 1) state = true →
        check op (program.advance handler count state).2 = true := by
  intro count
  induction count with
  | zero =>
      intro program state pending
      cases program with
      | call op next => exact ⟨op, next, rfl, rfl, fun _ passed => (Bool.and_eq_true_iff.mp passed).1⟩
      | done value => cases pending
      | fail error => cases pending
  | succ count ih =>
      intro program state pending
      cases program with
      | call op next =>
          obtain ⟨last, rest, lastEq, ended, checked⟩ := ih pending
          exact ⟨last, rest, lastEq, ended, fun check passed =>
            checked check (Bool.and_eq_true_iff.mp passed).2⟩
      | done value => cases pending
      | fail error => cases pending

theorem exec_runs {τ : Type} {meaning : Semantics S σ} {handler : Handler S τ} {project : τ → σ}
    (sound : ∀ op state, meaning op (project state) (handler op state).1
      (project (handler op state).2)) :
    ∀ (program : Program S ε α) (state : τ), program.Runs meaning (project state)
      (program.exec handler state).1 (project (program.exec handler state).2) := by
  intro program
  induction program with
  | done value => intro state; exact ⟨rfl, rfl⟩
  | fail error => intro state; exact ⟨rfl, rfl⟩
  | call op next ih => intro state; exact ⟨_, _, sound op state, ih _ _⟩

theorem exec_bind_ok {handler : Handler S σ} {program : Program S ε α}
    {next : α → Program S ε β} {state later : σ} {value : α}
    (ran : program.exec handler state = (.ok value, later)) :
    (program.bind next).exec handler state = (next value).exec handler later := by
  induction program generalizing state with
  | done result =>
      cases ran
      rfl
  | fail error => cases ran
  | call op rest ih => exact ih _ ran

theorem runs_bind {meaning : Semantics S σ} {program : Program S ε α}
    {next : α → Program S ε β} {before after : σ} {result : Except ε β} :
    (program.bind next).Runs meaning before result after ↔
      (∃ value middle, program.Runs meaning before (.ok value) middle ∧
        (next value).Runs meaning middle result after) ∨
      ∃ error, program.Runs meaning before (.error error) after ∧ result = .error error := by
  induction program generalizing before with
  | done value =>
      constructor
      · intro ran
        exact .inl ⟨value, before, ⟨rfl, rfl⟩, ran⟩
      · rintro (⟨_, _, ⟨valueEq, rfl⟩, ran⟩ | ⟨_, ⟨errorEq, _⟩, _⟩)
        · cases valueEq
          exact ran
        · cases errorEq
  | fail error =>
      constructor
      · rintro ⟨rfl, rfl⟩
        exact .inr ⟨error, ⟨rfl, rfl⟩, rfl⟩
      · rintro (⟨_, _, ⟨valueEq, _⟩, _⟩ | ⟨_, ⟨errorEq, rfl⟩, rfl⟩)
        · cases valueEq
        · cases errorEq
          exact ⟨rfl, rfl⟩
  | call op rest ih =>
      constructor
      · rintro ⟨answer, middle, answered, ran⟩
        rcases ih answer |>.mp ran with ⟨value, last, first, second⟩ | ⟨error, failed, rfl⟩
        · exact .inl ⟨value, last, ⟨answer, middle, answered, first⟩, second⟩
        · exact .inr ⟨error, ⟨answer, middle, answered, failed⟩, rfl⟩
      · rintro (⟨value, last, ⟨answer, middle, answered, first⟩, second⟩ |
          ⟨error, ⟨answer, middle, answered, failed⟩, rfl⟩)
        · exact ⟨answer, middle, answered, (ih answer).mpr (.inl ⟨value, last, first, second⟩)⟩
        · exact ⟨answer, middle, answered, (ih answer).mpr (.inr ⟨error, failed, rfl⟩)⟩

theorem runs_bind_ok {meaning : Semantics S σ} {program : Program S ε α}
    {next : α → Program S ε β} {before after : σ} {result : β} :
    (program.bind next).Runs meaning before (.ok result) after ↔
      ∃ value middle, program.Runs meaning before (.ok value) middle ∧
        (next value).Runs meaning middle (.ok result) after := by
  rw [runs_bind]
  constructor
  · rintro (ran | ⟨_, _, failed⟩)
    · exact ran
    · cases failed
  · exact .inl

theorem runs_mapError {meaning : Semantics S σ} {convert : ε → ε'} {program : Program S ε α}
    {before after : σ} {result : Except ε' α} :
    (program.mapError convert).Runs meaning before result after ↔
      ∃ inner, program.Runs meaning before inner after ∧ result = inner.mapError convert := by
  induction program generalizing before with
  | done value =>
      constructor
      · exact fun ran => ⟨_, ⟨rfl, ran.2⟩, ran.1⟩
      · rintro ⟨_, ⟨rfl, stayed⟩, same⟩
        exact ⟨same, stayed⟩
  | fail error =>
      constructor
      · exact fun ran => ⟨_, ⟨rfl, ran.2⟩, ran.1⟩
      · rintro ⟨_, ⟨rfl, stayed⟩, same⟩
        exact ⟨same, stayed⟩
  | call op next ih =>
      constructor
      · rintro ⟨answer, middle, answered, rest⟩
        obtain ⟨inner, ran, same⟩ := (ih answer).mp rest
        exact ⟨inner, ⟨answer, middle, answered, ran⟩, same⟩
      · rintro ⟨inner, ⟨answer, middle, answered, ran⟩, same⟩
        exact ⟨answer, middle, answered, (ih answer).mpr ⟨inner, ran, same⟩⟩

theorem runs_attempt {meaning : Semantics S σ} {program : Program S ε α} {before after : σ}
    {result : Except ε' (Except ε α)} :
    (program.attempt : Program S ε' (Except ε α)).Runs meaning before result after ↔
      ∃ inner, program.Runs meaning before inner after ∧ result = .ok inner := by
  induction program generalizing before with
  | done value =>
      constructor
      · exact fun ran => ⟨_, ⟨rfl, ran.2⟩, ran.1⟩
      · rintro ⟨_, ⟨rfl, stayed⟩, same⟩
        exact ⟨same, stayed⟩
  | fail error =>
      constructor
      · exact fun ran => ⟨_, ⟨rfl, ran.2⟩, ran.1⟩
      · rintro ⟨_, ⟨rfl, stayed⟩, same⟩
        exact ⟨same, stayed⟩
  | call op next ih =>
      constructor
      · rintro ⟨answer, middle, answered, rest⟩
        obtain ⟨inner, ran, same⟩ := (ih answer).mp rest
        exact ⟨inner, ⟨answer, middle, answered, ran⟩, same⟩
      · rintro ⟨inner, ⟨answer, middle, answered, ran⟩, same⟩
        exact ⟨answer, middle, answered, (ih answer).mpr ⟨inner, ran, same⟩⟩

theorem runs_detached {meaning : Semantics S σ} {program : Program S ε α} {before after : σ}
    {result : Except ε α} (ran : program.Runs meaning before result after) :
    (program.detached : Program S ε' Unit).Runs meaning before (.ok ()) after := by
  induction program generalizing before with
  | done value => exact ⟨rfl, ran.2⟩
  | fail error => exact ⟨rfl, ran.2⟩
  | call op next ih =>
      obtain ⟨answer, middle, answered, rest⟩ := ran
      exact ⟨answer, middle, answered, ih answer rest⟩

theorem Runs.mono {meaning wider : Semantics S σ}
    (included : ∀ op before answer after, meaning op before answer after →
      wider op before answer after)
    {program : Program S ε α} {before after : σ} {result : Except ε α}
    (ran : program.Runs meaning before result after) : program.Runs wider before result after := by
  induction program generalizing before with
  | done value => exact ran
  | fail error => exact ran
  | call op next ih =>
      obtain ⟨answer, middle, answered, rest⟩ := ran
      exact ⟨answer, middle, included _ _ _ _ answered, ih answer rest⟩

theorem Runs.project {τ : Type} {finer : Semantics S τ} {meaning : Semantics S σ} {project : τ → σ}
    (included : ∀ op before answer after, finer op before answer after →
      meaning op (project before) answer (project after))
    {program : Program S ε α} {before after : τ} {result : Except ε α}
    (ran : program.Runs finer before result after) :
    program.Runs meaning (project before) result (project after) := by
  induction program generalizing before with
  | done value => exact ⟨ran.1, ran.2 ▸ rfl⟩
  | fail error => exact ⟨ran.1, ran.2 ▸ rfl⟩
  | call op next ih =>
      obtain ⟨answer, middle, answered, rest⟩ := ran
      exact ⟨answer, project middle, included _ _ _ _ answered, ih answer rest⟩

theorem runs_foldEach {meaning : Semantics S σ} {body : β → α → Program S ε β}
    {holds : List α → β → σ → Prop} {items : List α}
    (each : ∀ done item value next before after, item ∈ items → holds done value before →
      (body value item).Runs meaning before (.ok next) after → holds (done ++ [item]) next after) :
    ∀ {rest done : List α} {value last : β} {before after : σ}, rest ⊆ items →
      holds done value before → (foldEach body rest value).Runs meaning before (.ok last) after →
      holds (done ++ rest) last after := by
  intro rest
  induction rest with
  | nil =>
      intro done value last before after _ held ran
      obtain ⟨lastEq, rfl⟩ := ran
      cases lastEq
      rw [List.append_nil]
      exact held
  | cons item more ih =>
      intro done value last before after within held ran
      obtain ⟨next, middle, first, second⟩ := runs_bind_ok.mp ran
      have moved := each done item value next before middle (within List.mem_cons_self) held first
      have ended := ih (fun _ member => within (List.mem_cons_of_mem _ member)) moved second
      rw [List.append_assoc, List.singleton_append] at ended
      exact ended

theorem runs_foldEach_exits {meaning : Semantics S σ} {body : β → α → Program S ε β}
    {items : List α} (holds : List α → β → σ → Prop) (stops : σ → Prop)
    (each : ∀ done item rest value before, items = done ++ item :: rest →
      holds done value before →
      (∀ next after, (body value item).Runs meaning before (.ok next) after →
        holds (done ++ [item]) next after) ∧
      ∀ error after, (body value item).Runs meaning before (.error error) after → stops after)
    {value : β} {before after : σ} {result : Except ε β} (held : holds [] value before)
    (ran : (foldEach body items value).Runs meaning before result after) :
    (∀ last, result = .ok last → holds items last after) ∧
      ∀ error, result = .error error → stops after := by
  have rounds : ∀ (rest done : List α) (value : β) (before : σ), items = done ++ rest →
      holds done value before → (foldEach body rest value).Runs meaning before result after →
      (∀ last, result = .ok last → holds items last after) ∧
        ∀ error, result = .error error → stops after := by
    intro rest
    induction rest with
    | nil =>
        intro done value before split held ran
        obtain ⟨rfl, rfl⟩ := ran
        rw [List.append_nil] at split
        subst split
        exact ⟨fun last same => by cases same; exact held, fun _ failed => nomatch failed⟩
    | cons item more ih =>
        intro done value before split held ran
        obtain ⟨passes, breaks⟩ := each done item more value before split held
        rcases runs_bind.mp ran with ⟨next, middle, first, second⟩ | ⟨error, failed, rfl⟩
        · exact ih (done ++ [item]) next middle (by simpa using split) (passes next middle first)
            second
        · exact ⟨fun _ same => (nomatch same), fun _ _ => breaks error after failed⟩
  exact rounds items [] value before rfl held ran

/-- Every operation the program can reach satisfies `allowed`, whatever the answers. -/
def Every (allowed : S.Op → Prop) : Program S ε α → Prop
  | .done _ => True
  | .fail _ => True
  | .call op next => allowed op ∧ ∀ answer, (next answer).Every allowed

variable {allowed : S.Op → Prop}

@[simp] theorem every_done (value : α) : (done value : Program S ε α).Every allowed := trivial

@[simp] theorem every_fail (error : ε) : (fail error : Program S ε α).Every allowed := trivial

theorem Every.mono {weaker : S.Op → Prop} (implied : ∀ op, allowed op → weaker op)
    {program : Program S ε α} (all : program.Every allowed) : program.Every weaker := by
  induction program with
  | done value => trivial
  | fail error => trivial
  | call op next ih => exact ⟨implied op all.1, fun answer => ih answer (all.2 answer)⟩

theorem Every.runs {meaning : Semantics S σ} (related : σ → σ → Prop)
    (reflexive : ∀ state, related state state)
    (transitive : ∀ {first second third}, related first second → related second third →
      related first third)
    (kept : ∀ op, allowed op → ∀ before answer after, meaning op before answer after →
      related before after)
    {program : Program S ε α} (all : program.Every allowed) {before after : σ}
    {result : Except ε α} (ran : program.Runs meaning before result after) :
    related before after := by
  induction program generalizing before with
  | done value => exact ran.2 ▸ reflexive before
  | fail error => exact ran.2 ▸ reflexive before
  | call op next ih =>
      obtain ⟨answer, middle, answered, rest⟩ := ran
      exact transitive (kept op all.1 before answer middle answered) (ih answer (all.2 answer) rest)

theorem every_perform {op : S.Op} (permitted : allowed op) :
    (perform op : Program S ε (S.Answer op)).Every allowed := ⟨permitted, fun _ => trivial⟩

theorem every_bind {program : Program S ε α} {next : α → Program S ε β}
    (first : program.Every allowed) (second : ∀ value, (next value).Every allowed) :
    (program.bind next).Every allowed := by
  induction program with
  | done value => exact second value
  | fail error => trivial
  | call op rest ih => exact ⟨first.1, fun answer => ih answer (first.2 answer)⟩

theorem every_attempt {program : Program S ε α} (all : program.Every allowed) :
    (program.attempt : Program S ε' (Except ε α)).Every allowed := by
  induction program with
  | done value => trivial
  | fail error => trivial
  | call op rest ih => exact ⟨all.1, fun answer => ih answer (all.2 answer)⟩

theorem every_detached {program : Program S ε α} (all : program.Every allowed) :
    (program.detached : Program S ε' Unit).Every allowed := by
  induction program with
  | done value => trivial
  | fail error => trivial
  | call op rest ih => exact ⟨all.1, fun answer => ih answer (all.2 answer)⟩

theorem every_ofExcept (result : Except ε α) :
    (ofExcept result : Program S ε α).Every allowed := by
  cases result <;> trivial

theorem every_foldEach_mem {body : β → α → Program S ε β} {items : List α}
    (each : ∀ value item, item ∈ items → (body value item).Every allowed) :
    ∀ value : β, (foldEach body items value).Every allowed := by
  induction items with
  | nil => intro value; trivial
  | cons item rest ih =>
      intro value
      exact every_bind (each value item List.mem_cons_self) fun next =>
        ih (fun value other member => each value other (List.mem_cons_of_mem _ member)) next

theorem every_foldEach {body : β → α → Program S ε β}
    (each : ∀ value item, (body value item).Every allowed) (items : List α) (value : β) :
    (foldEach body items value).Every allowed :=
  every_foldEach_mem (fun value item _ => each value item) value

def Yields (post : α → Prop) : Program S ε α → Prop
  | .done value => post value
  | .fail _ => True
  | .call _ next => ∀ answer, (next answer).Yields post

theorem Yields.bind {post : α → Prop} {post' : β → Prop} {program : Program S ε α}
    {next : α → Program S ε β} (first : program.Yields post)
    (second : ∀ value, post value → (next value).Yields post') :
    (program.bind next).Yields post' := by
  induction program with
  | done value => exact second value first
  | fail error => trivial
  | call op rest ih => exact fun answer => ih answer (first answer)

theorem Yields.mono {post weaker : α → Prop} (implied : ∀ value, post value → weaker value)
    {program : Program S ε α} (yields : program.Yields post) : program.Yields weaker := by
  induction program with
  | done value => exact implied value yields
  | fail error => trivial
  | call op rest ih => exact fun answer => ih answer (yields answer)

theorem Yields.both {left right : α → Prop} {program : Program S ε α}
    (first : program.Yields left) (second : program.Yields right) :
    program.Yields fun value => left value ∧ right value := by
  induction program with
  | done value => exact ⟨first, second⟩
  | fail error => trivial
  | call op rest ih => exact fun answer => ih answer (first answer) (second answer)

theorem yields_any (program : Program S ε α) : program.Yields fun _ => True := by
  induction program with
  | done value => trivial
  | fail error => trivial
  | call op rest ih => exact ih

theorem Yields.attempt {post : α → Prop} {program : Program S ε α} (yields : program.Yields post) :
    (program.attempt : Program S ε' (Except ε α)).Yields fun result =>
      ∀ value, result = .ok value → post value := by
  induction program with
  | done value => rintro other ⟨⟩; exact yields
  | fail error => rintro other ⟨⟩
  | call op next ih => exact fun answer => ih answer (yields answer)

theorem yields_ofExcept (result : Except ε α) :
    (ofExcept result : Program S ε α).Yields fun value => result = .ok value := by
  cases result with
  | ok value => rfl
  | error error => trivial

theorem yields_foldEach {holds : β → Prop} {body : β → α → Program S ε β} {items : List α}
    (each : ∀ value item, item ∈ items → holds value → (body value item).Yields holds) :
    ∀ {value : β}, holds value → (foldEach body items value).Yields holds := by
  induction items with
  | nil => intro value held; exact held
  | cons item rest ih =>
      intro value held
      refine (each value item List.mem_cons_self held).bind fun next nextHeld => ih ?_ nextHeld
      exact fun later other member => each later other (List.mem_cons_of_mem item member)

theorem Yields.every_bind {post : α → Prop} {program : Program S ε α}
    {next : α → Program S ε β} (yields : program.Yields post) (first : program.Every allowed)
    (second : ∀ value, post value → (next value).Every allowed) :
    (program.bind next).Every allowed := by
  induction program with
  | done value => exact second value yields
  | fail error => trivial
  | call op rest ih => exact ⟨first.1, fun answer => ih answer (yields answer) (first.2 answer)⟩

theorem Yields.runs {meaning : Semantics S σ} {post : α → Prop} {program : Program S ε α}
    (yields : program.Yields post) {before after : σ} {value : α}
    (ran : program.Runs meaning before (.ok value) after) : post value := by
  induction program generalizing before with
  | done result =>
      cases ran.1
      exact yields
  | fail error => cases ran.1
  | call op next ih =>
      obtain ⟨answer, middle, _, rest⟩ := ran
      exact ih answer (yields answer) rest

end Program

end Effects
