import Mathlib.Logic.Function.Basic
import RepoLink.Library.RelyGuarantee

/-!
Programs that act on what they were answered. A `Recorder` notes parts of the answers, `Recalls`
says of every call of a program that it is allowed after the notes taken before it, and a pool
whose state carries the notes of each process keeps that at every step of every run.
-/

namespace Effects

open Relation

variable {S : Signature} {σ κ ν ε ε' α β : Type}

structure Recorder (S : Signature) (ν : Type) where
  /-- The answers there are. -/
  possible : (op : S.Op) → S.Answer op → Prop
  notes : (op : S.Op) → S.Answer op → List ν

abbrev Call (S : Signature) := (op : S.Op) × S.Answer op

def transcript (possible : (op : S.Op) → S.Answer op → Prop) : Recorder S (Call S) where
  possible
  notes op answer := [⟨op, answer⟩]

namespace Program

def Recalls (recorder : Recorder S ν) (allowed : List ν → S.Op → Prop)
    (post : α → List ν → Prop) : Program S ε α → List ν → Prop
  | .done value, seen => post value seen
  | .fail _, _ => True
  | .call op next, seen => allowed seen op ∧ ∀ answer, recorder.possible op answer →
      (next answer).Recalls recorder allowed post (seen ++ recorder.notes op answer)

variable {recorder : Recorder S ν} {allowed : List ν → S.Op → Prop}

theorem Recalls.mono {post weaker : α → List ν → Prop} {program : Program S ε α}
    {seen : List ν}
    (implied : ∀ value later, seen <+: later → post value later → weaker value later)
    (recalls : program.Recalls recorder allowed post seen) :
    program.Recalls recorder allowed weaker seen := by
  induction program generalizing seen with
  | done value => exact implied value seen List.prefix_rfl recalls
  | fail error => trivial
  | call op next ih =>
      refine ⟨recalls.1, fun answer possible => ih answer ?_ (recalls.2 answer possible)⟩
      intro value later grown
      exact implied value later ((List.prefix_append _ _).trans grown)

theorem Recalls.bind {post : α → List ν → Prop} {post' : β → List ν → Prop}
    {program : Program S ε α} {next : α → Program S ε β} {seen : List ν}
    (first : program.Recalls recorder allowed post seen)
    (second : ∀ value later, seen <+: later → post value later →
      (next value).Recalls recorder allowed post' later) :
    (program.bind next).Recalls recorder allowed post' seen := by
  induction program generalizing seen with
  | done value => exact second value seen List.prefix_rfl first
  | fail error => trivial
  | call op rest ih =>
      refine ⟨first.1, fun answer possible => ih answer (first.2 answer possible) ?_⟩
      intro value later grown
      exact second value later ((List.prefix_append _ _).trans grown)

theorem Recalls.ofEvery {permitted : S.Op → Prop} {post : α → Prop} {program : Program S ε α}
    (free : ∀ op, permitted op → ∀ seen, allowed seen op) (all : program.Every permitted)
    (yields : program.Yields post) (seen : List ν) :
    program.Recalls recorder allowed (fun value _ => post value) seen := by
  induction program generalizing seen with
  | done value => exact yields
  | fail error => trivial
  | call op next ih =>
      exact ⟨free op all.1 seen, fun answer _ => ih answer (all.2 answer) (yields answer) _⟩

theorem Recalls.unnoted {permitted : S.Op → Prop} {post : α → Prop} {program : Program S ε α}
    {seen : List ν} (free : ∀ op, permitted op →
      allowed seen op ∧ ∀ answer, recorder.notes op answer = [])
    (all : program.Every permitted) (yields : program.Yields post) :
    program.Recalls recorder allowed (fun value later => post value ∧ later = seen) seen := by
  induction program with
  | done value => exact ⟨yields, rfl⟩
  | fail error => trivial
  | call op next ih =>
      obtain ⟨permits, silent⟩ := free op all.1
      refine ⟨permits, fun answer _ => ?_⟩
      rw [silent answer, List.append_nil]
      exact ih answer (all.2 answer) (yields answer)

theorem Recalls.transcribed {possible : (op : S.Op) → S.Answer op → Prop}
    {allowed : List (Call S) → S.Op → Prop} {permitted : S.Op → Prop}
    {post : α → Prop} {program : Program S ε α}
    (free : ∀ op, permitted op → ∀ seen, allowed seen op) (all : program.Every permitted)
    (yields : program.Yields post) (seen : List (Call S)) :
    program.Recalls (transcript possible) allowed (fun value later => post value ∧
      ∃ since, later = seen ++ since ∧ ∀ call ∈ since, permitted call.1) seen := by
  induction program generalizing seen with
  | done value => exact ⟨yields, [], by simp, fun _ member => (List.not_mem_nil member).elim⟩
  | fail error => trivial
  | call op next ih =>
      refine ⟨free op all.1 seen, fun answer _ => ?_⟩
      refine (ih answer (all.2 answer) (yields answer) _).mono ?_
      rintro value later _ ⟨met, since, rfl, permits⟩
      exact ⟨met, ⟨op, answer⟩ :: since, by simp [transcript],
        List.forall_mem_cons.mpr ⟨all.1, permits⟩⟩

theorem Recalls.foldEach {holds : β → List ν → Prop} {body : β → α → Program S ε β}
    {items : List α}
    (each : ∀ value item seen, item ∈ items → holds value seen →
      (body value item).Recalls recorder allowed holds seen) :
    ∀ {value : β} {seen : List ν}, holds value seen →
      (foldEach body items value).Recalls recorder allowed holds seen := by
  induction items with
  | nil => exact fun held => held
  | cons item rest ih =>
      intro value seen held
      refine (each value item seen List.mem_cons_self held).bind fun next later _ nextHeld =>
        ih ?_ nextHeld
      exact fun value other later member => each value other later (List.mem_cons_of_mem _ member)

theorem Recalls.attempt {post : α → List ν → Prop} {program : Program S ε α} {seen : List ν}
    (recalls : program.Recalls recorder allowed post seen) :
    (program.attempt : Program S ε' (Except ε α)).Recalls recorder allowed
      (fun result later => ∀ value, result = .ok value → post value later) seen := by
  induction program generalizing seen with
  | done value =>
      intro other same
      cases same
      exact recalls
  | fail error => exact fun _ failed => nomatch failed
  | call op next ih =>
      exact ⟨recalls.1, fun answer possible => ih answer (recalls.2 answer possible)⟩

theorem Recalls.detached {post : α → List ν → Prop} {program : Program S ε α} {seen : List ν}
    (recalls : program.Recalls recorder allowed post seen) :
    (program.detached : Program S ε' Unit).Recalls recorder allowed (fun _ _ => True) seen := by
  induction program generalizing seen with
  | done value => trivial
  | fail error => trivial
  | call op next ih =>
      exact ⟨recalls.1, fun answer possible => ih answer (recalls.2 answer possible)⟩

theorem Recalls.safe {rules : Discipline S σ κ} {kind : κ} {log : σ → List ν}
    (undisturbed : ∀ before after, rules.rely kind before after → log after = log before)
    (step : ∀ op before, allowed (log before) op → rules.inv before →
      rules.must kind op before ∧
        ∀ answer after, rules.meaning kind op before answer after →
          recorder.possible op answer ∧ log after = log before ++ recorder.notes op answer ∧
          rules.inv after ∧ rules.guarantee kind before after)
    {post : α → List ν → Prop} {program : Program S ε α} {state : σ}
    (recalls : program.Recalls recorder allowed post (log state)) :
    program.Safe rules kind (fun _ _ => True) state := by
  induction program generalizing state with
  | done value => exact fun _ _ _ => trivial
  | fail error => exact fun _ _ _ => trivial
  | call op next ih =>
      intro later steps held
      have same : log later = log state := by
        clear held
        induction steps with
        | refl => rfl
        | tail _ last earlier => exact (undisturbed _ _ last).trans earlier
      rw [Recalls, ← same] at recalls
      obtain ⟨owed, effect⟩ := step op later recalls.1 held
      refine ⟨owed, fun answer after answered => ?_⟩
      obtain ⟨possible, logged, kept, guaranteed⟩ := effect answer after answered
      refine ⟨kept, guaranteed, ih answer ?_⟩
      rw [logged]
      exact recalls.2 answer possible

end Program

/-- A state, with the notes of every process. -/
structure Recorded (σ ν : Type) where
  state : σ
  notes : Nat → List ν

def recording (recorder : Recorder S ν) (meaning : Semantics S σ)
    (admits : List ν → S.Op → σ → Prop) (pid : Nat) : Semantics S (Recorded σ ν) :=
  fun op before answer after =>
    admits (before.notes pid) op before.state ∧ meaning op before.state answer after.state ∧
      after.notes =
        Function.update before.notes pid (before.notes pid ++ recorder.notes op answer)

def recordingHandler {τ : Type} (recorder : Recorder S ν) (handler : Handler S τ) (pid : Nat) :
    Handler S (τ × (Nat → List ν)) := fun op state =>
  let (answer, next) := handler op state.1
  (answer, next, Function.update state.2 pid (state.2 pid ++ recorder.notes op answer))

def recordingRules (recorder : Recorder S ν) (meaning : Semantics S σ)
    (admits : List ν → S.Op → σ → Prop) (allowed : List ν → S.Op → Prop) (inv : σ → Prop) :
    Discipline S (Recorded σ ν) Nat where
  meaning := recording recorder meaning admits
  inv world := inv world.state
  rely pid before after := after.notes pid = before.notes pid
  guarantee pid before after := ∀ other, pid ≠ other → after.notes other = before.notes other
  must pid op world := allowed (world.notes pid) op

/-- Different processes side by side. -/
def apart (pid other : Nat) : Prop := pid ≠ other

theorem recorded_run {recorder : Recorder S ν} {meaning : Semantics S σ}
    {admits : List ν → S.Op → σ → Prop} {allowed : List ν → S.Op → Prop} {inv : σ → Prop}
    {start : Recorded σ ν → Proc S ε Nat → Prop}
    (possible : ∀ op before answer after, meaning op before answer after →
      recorder.possible op answer)
    (step : ∀ seen op before answer after, allowed seen op → inv before →
      admits seen op before → meaning op before answer after → inv after)
    (starts : ∀ world proc, start world proc →
      proc.program.Recalls recorder allowed (fun _ _ => True) (world.notes proc.kind))
    {first : Recorded σ ν} (held : inv first.state) {pool : Pool S (Recorded σ ν) ε Nat}
    (run : Pool.Run (recordingRules recorder meaning admits allowed inv) apart start
      ⟨first, []⟩ pool) :
    Pool.Sound (recordingRules recorder meaning admits allowed inv) apart pool := by
  have nobody : Pool.Sound (recordingRules recorder meaning admits allowed inv) apart
      (⟨first, []⟩ : Pool S (Recorded σ ν) ε Nat) :=
    ⟨held, fun _ member => (List.not_mem_nil member).elim, .nil⟩
  have undisturbed : ∀ pid before after,
      (recordingRules recorder meaning admits allowed inv).rely pid before after →
      after.notes pid = before.notes pid := fun _ _ _ same => same
  have compatible : ∀ actor other, apart actor other → ∀ before after : Recorded σ ν,
      (∀ other, actor ≠ other → after.notes other = before.notes other) →
      after.notes other = before.notes other := fun actor other different _ _ kept =>
    kept other different
  refine nobody.run (fun actor other different before after _ _ => compatible actor other different
    before after) (fun world proc _ begins => ?_) run
  refine Program.Recalls.safe (undisturbed proc.kind) ?_ (starts world proc begins)
  intro op before permitted kept
  refine ⟨permitted, fun answer after answered => ?_⟩
  obtain ⟨admitted, performed, noted⟩ := answered
  refine ⟨possible op _ answer _ performed, ?_,
    step _ op _ answer _ permitted kept admitted performed, fun other different => ?_⟩
  · rw [noted, Function.update_self]
  · rw [noted, Function.update_of_ne different.symm]

end Effects
