import Mathlib.Logic.Relation
import RepoLink.Library.Program

/-!
Rely-guarantee reasoning for programs that share one state. A `Discipline` names, for each kind
of process, what its calls may do, what the others may do meanwhile and what each call owes;
`Safe` is the obligation of one program, `Pool.Sound` what a whole pool keeps at every step.
A crash is a process that stops between two calls.
-/

namespace Effects

open Relation

variable {S : Signature} {σ κ ε α β : Type}

structure Discipline (S : Signature) (σ κ : Type) where
  meaning : κ → Semantics S σ
  inv : σ → Prop
  rely : κ → σ → σ → Prop
  guarantee : κ → σ → σ → Prop
  must : κ → S.Op → σ → Prop
  /-- The kinds of process that may stop before they are done. -/
  crashes : κ → Prop := fun _ => True

namespace Program

def Safe (rules : Discipline S σ κ) (kind : κ) :
    Program S ε α → (Except ε α → σ → Prop) → σ → Prop
  | .done value, post, state =>
    ∀ later, ReflTransGen (rules.rely kind) state later → rules.inv later → post (.ok value) later
  | .fail error, post, state =>
    ∀ later, ReflTransGen (rules.rely kind) state later → rules.inv later →
      post (.error error) later
  | .call op next, post, state =>
    ∀ later, ReflTransGen (rules.rely kind) state later → rules.inv later →
      rules.must kind op later ∧
        ∀ answer after, rules.meaning kind op later answer after →
          rules.inv after ∧ rules.guarantee kind later after ∧ (next answer).Safe rules kind post after

variable {rules : Discipline S σ κ} {kind : κ}

theorem Safe.stable {program : Program S ε α} {post : Except ε α → σ → Prop} {before after : σ}
    (safe : program.Safe rules kind post before)
    (steps : ReflTransGen (rules.rely kind) before after) : program.Safe rules kind post after := by
  cases program with
  | done value => exact fun later more held => safe later (steps.trans more) held
  | fail error => exact fun later more held => safe later (steps.trans more) held
  | call op next => exact fun later more held => safe later (steps.trans more) held

theorem Safe.mono {program : Program S ε α} {post post' : Except ε α → σ → Prop} {state : σ}
    (weaker : ∀ result later, rules.inv later → post result later → post' result later)
    (safe : program.Safe rules kind post state) : program.Safe rules kind post' state := by
  induction program generalizing state with
  | done value => exact fun later steps held => weaker _ _ held (safe later steps held)
  | fail error => exact fun later steps held => weaker _ _ held (safe later steps held)
  | call op next ih =>
      intro later steps held
      refine ⟨(safe later steps held).1, ?_⟩
      intro answer after answered
      obtain ⟨kept, guaranteed, rest⟩ := (safe later steps held).2 answer after answered
      exact ⟨kept, guaranteed, ih answer rest⟩

theorem Safe.yielding {program : Program S ε α} {post : Except ε α → σ → Prop} {state : σ}
    {yields : α → Prop} (safe : program.Safe rules kind post state)
    (all : program.Yields yields) : program.Safe rules kind
      (fun result later => post result later ∧ ∀ value, result = .ok value → yields value) state := by
  induction program generalizing state with
  | done value =>
      refine fun later steps held => ⟨safe later steps held, ?_⟩
      rintro _ ⟨⟩
      exact all
  | fail error => exact fun later steps held => ⟨safe later steps held, nofun⟩
  | call op next ih =>
      intro later steps held
      refine ⟨(safe later steps held).1, fun answer after answered => ?_⟩
      obtain ⟨kept, guaranteed, more⟩ := (safe later steps held).2 answer after answered
      exact ⟨kept, guaranteed, ih answer more (all answer)⟩

theorem Safe.bind {program : Program S ε α} {next : α → Program S ε β}
    {post : Except ε β → σ → Prop} {state : σ} (held : rules.inv state)
    (safe : program.Safe rules kind
      (fun result later => match result with
        | .ok value => (next value).Safe rules kind post later
        | .error error => (fail error : Program S ε β).Safe rules kind post later) state) :
    (program.bind next).Safe rules kind post state := by
  induction program generalizing state with
  | done value => exact safe state .refl held
  | fail error => exact safe state .refl held
  | call op rest ih =>
      intro later steps laterHeld
      refine ⟨(safe later steps laterHeld).1, ?_⟩
      intro answer after answered
      obtain ⟨kept, guaranteed, more⟩ := (safe later steps laterHeld).2 answer after answered
      exact ⟨kept, guaranteed, ih answer kept more⟩

theorem Safe.followed {program : Program S ε α} {next : α → Program S ε β} {state : σ}
    (held : rules.inv state) (safe : program.Safe rules kind (fun _ _ => True) state)
    (second : ∀ value later, rules.inv later →
      (next value).Safe rules kind (fun _ _ => True) later) :
    (program.bind next).Safe rules kind (fun _ _ => True) state := by
  refine Safe.bind held (safe.mono fun result later laterHeld _ => ?_)
  cases result with
  | ok value => exact second value later laterHeld
  | error error => exact fun _ _ _ => trivial

theorem Safe.attempt {ε' : Type} {program : Program S ε α}
    {post : Except ε' (Except ε α) → σ → Prop} {state : σ}
    (safe : program.Safe rules kind (fun result later => post (.ok result) later) state) :
    (program.attempt : Program S ε' (Except ε α)).Safe rules kind post state := by
  induction program generalizing state with
  | done value => exact safe
  | fail error => exact safe
  | call op rest ih =>
      intro later steps held
      refine ⟨(safe later steps held).1, ?_⟩
      intro answer after answered
      obtain ⟨kept, guaranteed, more⟩ := (safe later steps held).2 answer after answered
      exact ⟨kept, guaranteed, ih answer more⟩

theorem Safe.detached {ε' : Type} {program : Program S ε α} {state : σ}
    (safe : program.Safe rules kind (fun _ _ => True) state) :
    (program.detached : Program S ε' Unit).Safe rules kind (fun _ _ => True) state := by
  induction program generalizing state with
  | done value => exact fun _ _ _ => trivial
  | fail error => exact fun _ _ _ => trivial
  | call op rest ih =>
      intro later steps held
      refine ⟨(safe later steps held).1, ?_⟩
      intro answer after answered
      obtain ⟨kept, guaranteed, more⟩ := (safe later steps held).2 answer after answered
      exact ⟨kept, guaranteed, ih answer more⟩

theorem Safe.ofEvery {allowed : S.Op → Prop} {program : Program S ε α}
    {post : Except ε α → σ → Prop}
    (harmless : ∀ op, allowed op → ∀ before, rules.inv before → rules.must kind op before ∧
      ∀ answer after, rules.meaning kind op before answer after →
        rules.inv after ∧ rules.guarantee kind before after)
    (always : ∀ result later, rules.inv later → post result later)
    (all : program.Every allowed) (state : σ) : program.Safe rules kind post state := by
  induction program generalizing state with
  | done value => exact fun later _ held => always _ later held
  | fail error => exact fun later _ held => always _ later held
  | call op next ih =>
      intro later _ held
      obtain ⟨owed, effect⟩ := harmless op all.1 later held
      refine ⟨owed, ?_⟩
      intro answer after answered
      obtain ⟨kept, guaranteed⟩ := effect answer after answered
      exact ⟨kept, guaranteed, ih answer (all.2 answer) after⟩

theorem Safe.concluded {program : Program S ε α} {post : Except Unit Unit → σ → Prop} {state : σ}
    (safe : program.Safe rules kind (fun result later => match result with
      | .ok _ => post (.ok ()) later
      | .error _ => post (.error ()) later) state) :
    program.concluded.Safe rules kind post state := by
  induction program generalizing state with
  | done value => exact safe
  | fail error => exact safe
  | call op rest ih =>
      intro later steps held
      refine ⟨(safe later steps held).1, ?_⟩
      intro answer after answered
      obtain ⟨kept, guaranteed, more⟩ := (safe later steps held).2 answer after answered
      exact ⟨kept, guaranteed, ih answer more⟩

theorem Safe.keeping {allowed : S.Op → Prop} {held : σ → Prop}
    (stable : ∀ before after, rules.rely kind before after → held before → held after)
    (keeps : ∀ op, allowed op → ∀ before, rules.inv before → held before →
      rules.must kind op before ∧ ∀ answer after, rules.meaning kind op before answer after →
        rules.inv after ∧ rules.guarantee kind before after ∧ held after)
    {program : Program S ε α} (all : program.Every allowed) {state : σ} (start : held state) :
    program.Safe rules kind (fun _ later => held later) state := by
  have stays : ∀ {before after}, held before → ReflTransGen (rules.rely kind) before after →
      held after := by
    intro before after first steps
    induction steps with
    | refl => exact first
    | tail _ last ih => exact stable _ _ last ih
  induction program generalizing state with
  | done value => exact fun later steps _ => stays start steps
  | fail error => exact fun later steps _ => stays start steps
  | call op next ih =>
      intro later steps kept
      obtain ⟨owed, effect⟩ := keeps op all.1 later kept (stays start steps)
      refine ⟨owed, fun answer after answered => ?_⟩
      obtain ⟨invAfter, guaranteed, more⟩ := effect answer after answered
      exact ⟨invAfter, guaranteed, ih answer (all.2 answer) more⟩

end Program

structure Proc (S : Signature) (ε κ : Type) where
  kind : κ
  program : Program S ε Unit

structure Pool (S : Signature) (σ ε κ : Type) where
  shared : σ
  procs : List (Proc S ε κ)

namespace Pool

/-- One step of a pool: a process performs its next call, a process starts, or one stops. -/
inductive Step (rules : Discipline S σ κ) (together : κ → κ → Prop)
    (start : σ → Proc S ε κ → Prop) : Pool S σ ε κ → Pool S σ ε κ → Prop
  | act {front back : List (Proc S ε κ)} {kind : κ} {op : S.Op}
      {next : S.Answer op → Program S ε Unit} {before after : σ} {answer : S.Answer op}
      (answered : rules.meaning kind op before answer after) :
      Step rules together start ⟨before, front ++ ⟨kind, .call op next⟩ :: back⟩
        ⟨after, front ++ ⟨kind, next answer⟩ :: back⟩
  | start {procs : List (Proc S ε κ)} {proc : Proc S ε κ} {shared : σ}
      (begins : start shared proc)
      (beside : ∀ other ∈ procs, together proc.kind other.kind ∧ together other.kind proc.kind) :
      Step rules together start ⟨shared, procs⟩ ⟨shared, proc :: procs⟩
  | stop {front back : List (Proc S ε κ)} {proc : Proc S ε κ} {shared : σ}
      (stops : rules.crashes proc.kind ∨ proc.program.isCall = false) :
      Step rules together start ⟨shared, front ++ proc :: back⟩ ⟨shared, front ++ back⟩

/-- What a pool keeps: the invariant, the obligation of every process up to what its result is to
meet, and who runs together. -/
structure SoundTo (rules : Discipline S σ κ) (together : κ → κ → Prop)
    (post : κ → Except ε Unit → σ → Prop) (pool : Pool S σ ε κ) : Prop where
  inv : rules.inv pool.shared
  safe : ∀ proc ∈ pool.procs, proc.program.Safe rules proc.kind (post proc.kind) pool.shared
  apart : pool.procs.Pairwise fun left right =>
    together left.kind right.kind ∧ together right.kind left.kind

/-- A sound pool whose results are free. -/
abbrev Sound (rules : Discipline S σ κ) (together : κ → κ → Prop) (pool : Pool S σ ε κ) : Prop :=
  SoundTo rules together (fun _ _ _ => True) pool

variable {rules : Discipline S σ κ} {together : κ → κ → Prop} {start : σ → Proc S ε κ → Prop}
  {post : κ → Except ε Unit → σ → Prop}

theorem SoundTo.step
    (compatible : ∀ actor other, together actor other → ∀ before after, rules.inv before →
      rules.inv after → rules.guarantee actor before after → rules.rely other before after)
    (startSafe : ∀ shared proc, rules.inv shared → start shared proc →
      proc.program.Safe rules proc.kind (post proc.kind) shared)
    {pool next : Pool S σ ε κ} (sound : SoundTo rules together post pool)
    (step : Step rules together start pool next) : SoundTo rules together post next := by
  cases step with
  | @act front back kind op continuation before after answer answered =>
      have mine := sound.safe ⟨kind, .call op continuation⟩ (by simp)
      obtain ⟨kept, guaranteed, rest⟩ := (mine before .refl sound.inv).2 answer after answered
      have apart := List.pairwise_append.mp sound.apart
      have apartBack := List.pairwise_cons.mp apart.2.1
      refine ⟨kept, ?_, ?_⟩
      · intro proc member
        have undisturbed : ∀ other : Proc S ε κ, together kind other.kind →
            other.program.Safe rules other.kind (post other.kind) before →
            other.program.Safe rules other.kind (post other.kind) after :=
          fun other beside safe => safe.stable
            (.single (compatible kind other.kind beside before after sound.inv kept guaranteed))
        rcases List.mem_append.mp member with inFront | inBack
        · exact undisturbed proc (apart.2.2 proc inFront _ List.mem_cons_self).2
            (sound.safe proc (List.mem_append_left _ inFront))
        · rcases List.mem_cons.mp inBack with rfl | inBack
          · exact rest
          · exact undisturbed proc (apartBack.1 proc inBack).1
              (sound.safe proc (List.mem_append_right _ (List.mem_cons_of_mem _ inBack)))
      · refine List.pairwise_append.mpr ⟨apart.1, ?_, ?_⟩
        · exact List.pairwise_cons.mpr ⟨apartBack.1, apartBack.2⟩
        · intro left leftMember right rightMember
          rcases List.mem_cons.mp rightMember with rfl | rightMember
          · exact apart.2.2 left leftMember ⟨kind, .call op continuation⟩ List.mem_cons_self
          · exact apart.2.2 left leftMember right (List.mem_cons_of_mem _ rightMember)
  | @start procs proc shared begins beside =>
      refine ⟨sound.inv, ?_, List.pairwise_cons.mpr ⟨beside, sound.apart⟩⟩
      intro other member
      rcases List.mem_cons.mp member with rfl | member
      · exact startSafe shared other sound.inv begins
      · exact sound.safe other member
  | @stop front back proc shared _ =>
      refine ⟨sound.inv, ?_, ?_⟩
      · intro other member
        apply sound.safe other
        rcases List.mem_append.mp member with inFront | inBack
        · exact List.mem_append_left _ inFront
        · exact List.mem_append_right _ (List.mem_cons_of_mem _ inBack)
      · have kept : (front ++ back).Sublist (front ++ proc :: back) :=
          List.Sublist.append_left (List.sublist_cons_self proc back) front
        exact sound.apart.sublist kept

/-- A run of the pool: any number of steps in any order. -/
abbrev Run (rules : Discipline S σ κ) (together : κ → κ → Prop)
    (start : σ → Proc S ε κ → Prop) : Pool S σ ε κ → Pool S σ ε κ → Prop :=
  ReflTransGen (Step rules together start)

theorem run_advances {τ : Type} {check : S.Op → τ → Bool} {handler : Handler S τ}
    {project : τ → σ} {kind : κ} {front back : List (Proc S ε κ)}
    (sound : ∀ op state, check op state = true →
      rules.meaning kind op (project state) (handler op state).1 (project (handler op state).2)) :
    ∀ (count : Nat) (program : Program S ε Unit) (state : τ),
      program.passes check handler count state = true →
      Run rules together start ⟨project state, front ++ ⟨kind, program⟩ :: back⟩
        ⟨project (program.advance handler count state).2,
          front ++ ⟨kind, (program.advance handler count state).1⟩ :: back⟩ := by
  intro count
  induction count with
  | zero => exact fun _ _ _ => .refl
  | succ count ih =>
      intro program state passed
      cases program with
      | done value => exact .refl
      | fail error => exact .refl
      | call op next =>
          simp only [Program.passes, Bool.and_eq_true] at passed
          exact .head (.act (sound op state passed.1)) (ih _ _ passed.2)

theorem run_started {τ : Type} {check : S.Op → τ → Bool} {handler : Handler S τ}
    {project : τ → σ} {proc : Proc S ε κ} {others : List (Proc S ε κ)} {state : τ} {count : Nat}
    (sound : ∀ op state, check op state = true →
      rules.meaning proc.kind op (project state) (handler op state).1
        (project (handler op state).2))
    (begins : start (project state) proc)
    (beside : ∀ other ∈ others, together proc.kind other.kind ∧ together other.kind proc.kind)
    (passed : proc.program.passes check handler count state = true) :
    Run rules together start ⟨project state, others⟩
      ⟨project (proc.program.advance handler count state).2,
        ⟨proc.kind, (proc.program.advance handler count state).1⟩ :: others⟩ := by
  have advances := @run_advances S σ κ ε rules together start τ check handler project proc.kind
    [] others sound count proc.program state passed
  exact .head (.start begins beside) advances

theorem run_whole {proc : Proc S ε κ} {others : List (Proc S ε κ)} {before after : σ}
    (begins : start before proc)
    (beside : ∀ other ∈ others, together proc.kind other.kind ∧ together other.kind proc.kind)
    (ran : proc.program.Runs (rules.meaning proc.kind) before (.ok ()) after) :
    Run rules together start ⟨before, others⟩ ⟨after, others⟩ := by
  have ends : ∀ (program : Program S ε Unit) (before : σ),
      program.Runs (rules.meaning proc.kind) before (.ok ()) after →
      Run rules together start ⟨before, ⟨proc.kind, program⟩ :: others⟩ ⟨after, others⟩ := by
    intro program
    induction program with
    | done value =>
        rintro before ⟨_, rfl⟩
        exact .single (@Step.stop _ _ _ _ _ _ _ [] _ _ _ (.inr rfl))
    | fail error => exact fun _ ran => nomatch ran.1
    | call op next ih =>
        rintro before ⟨answer, middle, answered, rest⟩
        have acts : Step rules together start ⟨before, ⟨proc.kind, .call op next⟩ :: others⟩
            ⟨middle, ⟨proc.kind, next answer⟩ :: others⟩ :=
          @Step.act _ _ _ _ _ _ _ [] _ _ _ _ _ _ _ answered
        exact .head acts (ih answer middle rest)
  exact .head (.start begins beside) (ends proc.program before ran)

theorem SoundTo.run
    (compatible : ∀ actor other, together actor other → ∀ before after, rules.inv before →
      rules.inv after → rules.guarantee actor before after → rules.rely other before after)
    (startSafe : ∀ shared proc, rules.inv shared → start shared proc →
      proc.program.Safe rules proc.kind (post proc.kind) shared)
    {pool last : Pool S σ ε κ} (sound : SoundTo rules together post pool)
    (run : Run rules together start pool last) : SoundTo rules together post last := by
  induction run with
  | refl => exact sound
  | tail _ step ih => exact ih.step compatible startSafe step

theorem SoundTo.owed {pool : Pool S σ ε κ} (sound : SoundTo rules together post pool) {kind : κ}
    {op : S.Op} {next : S.Answer op → Program S ε Unit}
    (member : ⟨kind, .call op next⟩ ∈ pool.procs) : rules.must kind op pool.shared :=
  (sound.safe _ member pool.shared .refl sound.inv).1

theorem SoundTo.guaranteed {pool : Pool S σ ε κ} (sound : SoundTo rules together post pool) {kind : κ}
    {op : S.Op} {next : S.Answer op → Program S ε Unit}
    (member : ⟨kind, .call op next⟩ ∈ pool.procs) {answer : S.Answer op} {after : σ}
    (answered : rules.meaning kind op pool.shared answer after) :
    rules.guarantee kind pool.shared after :=
  ((sound.safe _ member pool.shared .refl sound.inv).2 answer after answered).2.1

theorem SoundTo.finished {pool : Pool S σ ε κ} (sound : SoundTo rules together post pool)
    {kind : κ} {value : Unit} (member : ⟨kind, .done value⟩ ∈ pool.procs) :
    post kind (.ok value) pool.shared := sound.safe _ member pool.shared .refl sound.inv

theorem SoundTo.failed {pool : Pool S σ ε κ} (sound : SoundTo rules together post pool)
    {kind : κ} {error : ε} (member : ⟨kind, .fail error⟩ ∈ pool.procs) :
    post kind (.error error) pool.shared := sound.safe _ member pool.shared .refl sound.inv

end Pool

end Effects
