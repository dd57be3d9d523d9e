import Mathlib.Logic.Relation
import RepoLink.Library.Recall

/-!
One program amid others that call the same environment. A journal has every call in the order in
which it went through, with the states around it; between two calls of the program the others make
any calls at all.
-/

namespace Effects

open Relation

variable {S : Signature} {σ ε α : Type}

/-- A call that went through, by the program or by one of the others. -/
structure Move (S : Signature) (σ : Type) where
  own : Bool
  call : Call S
  before : σ
  after : σ

/-- A state with the moves that led to it. -/
structure Journaled (S : Signature) (σ : Type) where
  state : σ
  moves : List (Move S σ)

def enters (meaning : Semantics S σ) (own : Bool) : Semantics S (Journaled S σ) :=
  fun op first answer last => meaning op first.state answer last.state ∧
    last.moves = first.moves ++ [⟨own, ⟨op, answer⟩, first.state, last.state⟩]

/-- Before each call of the program the others make any number of calls. -/
def amidst (meaning : Semantics S σ) : Semantics S (Journaled S σ) := fun op first answer last =>
  ∃ middle, ReflTransGen (fun one next => ∃ op answer, enters meaning false op one answer next)
    first middle ∧ enters meaning true op middle answer last

def Move.noted (move : Move S σ) : Option (Call S) := if move.own then some move.call else none

def ownCalls (moves : List (Move S σ)) : List (Call S) := moves.filterMap Move.noted

@[simp] theorem ownCalls_append (left right : List (Move S σ)) :
    ownCalls (left ++ right) = ownCalls left ++ ownCalls right := List.filterMap_append

def Lawful (meaning : Semantics S σ) (allowed : List (Call S) → S.Op → Prop) :
    List (Call S) → σ → List (Move S σ) → σ → Prop
  | _, first, [], last => last = first
  | seen, first, move :: rest, last =>
    move.before = first ∧ meaning move.call.1 first move.call.2 move.after ∧
      (move.own = true → allowed seen move.call.1) ∧
      Lawful meaning allowed (seen ++ ownCalls [move]) move.after rest last

variable {meaning : Semantics S σ} {allowed : List (Call S) → S.Op → Prop}

theorem lawful_append {left right : List (Move S σ)} {seen : List (Call S)} {first last : σ} :
    Lawful meaning allowed seen first (left ++ right) last ↔
      ∃ middle, Lawful meaning allowed seen first left middle ∧
        Lawful meaning allowed (seen ++ ownCalls left) middle right last := by
  induction left generalizing seen first with
  | nil => simp [Lawful, ownCalls]
  | cons move rest ih =>
      have notes : ownCalls (move :: rest) = ownCalls [move] ++ ownCalls rest :=
        ownCalls_append [move] rest
      rw [List.cons_append, Lawful, ih, notes, List.append_assoc]
      constructor
      · rintro ⟨starts, answered, permits, middle, early, late⟩
        exact ⟨middle, ⟨starts, answered, permits, early⟩, late⟩
      · rintro ⟨middle, ⟨starts, answered, permits, early⟩, late⟩
        exact ⟨starts, answered, permits, middle, early, late⟩

theorem Lawful.split {seen : List (Call S)} {first last : σ} {earlier later : List (Move S σ)}
    {move : Move S σ} (lawful : Lawful meaning allowed seen first (earlier ++ move :: later) last) :
    Lawful meaning allowed seen first earlier move.before ∧
      meaning move.call.1 move.before move.call.2 move.after ∧
      (move.own = true → allowed (seen ++ ownCalls earlier) move.call.1) ∧
      Lawful meaning allowed (seen ++ ownCalls earlier ++ ownCalls [move]) move.after later
        last := by
  obtain ⟨_, early, rfl, answered, permits, late⟩ := lawful_append.mp lawful
  exact ⟨early, answered, permits, late⟩

theorem Lawful.keeps {holds : σ → Prop} {moves : List (Move S σ)} {seen : List (Call S)}
    {first last : σ} (lawful : Lawful meaning allowed seen first moves last)
    (each : ∀ move ∈ moves, meaning move.call.1 move.before move.call.2 move.after →
      holds move.before → holds move.after) (held : holds first) : holds last := by
  induction moves generalizing seen first with
  | nil => exact lawful ▸ held
  | cons move rest ih =>
      obtain ⟨rfl, answered, _, onward⟩ := lawful
      exact ih onward (fun other member => each other (List.mem_cons_of_mem _ member))
        (each move List.mem_cons_self answered held)

theorem Lawful.enters {own : Bool} {op : S.Op} {start : σ} {first last : Journaled S σ}
    {answer : S.Answer op} (lawful : Lawful meaning allowed [] start first.moves first.state)
    (permits : own = true → allowed (ownCalls first.moves) op)
    (entered : Effects.enters meaning own op first answer last) :
    Lawful meaning allowed [] start last.moves last.state := by
  obtain ⟨answered, grown⟩ := entered
  rw [grown]
  exact lawful_append.mpr ⟨first.state, lawful, rfl, answered, permits, rfl⟩

theorem Program.Recalls.amidst {possible : (op : S.Op) → S.Answer op → Prop}
    {post : α → List (Call S) → Prop} {program : Program S ε α} {start : σ}
    {first last : Journaled S σ} {result : Except ε α}
    (answers : ∀ op before answer after, meaning op before answer after → possible op answer)
    (recalls : program.Recalls (transcript possible) allowed post (ownCalls first.moves))
    (lawful : Lawful meaning allowed [] start first.moves first.state)
    (ran : program.Runs (Effects.amidst meaning) first result last) :
    Lawful meaning allowed [] start last.moves last.state := by
  induction program generalizing first with
  | done value =>
      obtain ⟨_, rfl⟩ := ran
      exact lawful
  | fail error =>
      obtain ⟨_, rfl⟩ := ran
      exact lawful
  | call op next ih =>
      obtain ⟨answer, world, ⟨middle, others, entered⟩, rest⟩ := ran
      -- the others add no notes
      have waited : Lawful meaning allowed [] start middle.moves middle.state ∧
          ownCalls middle.moves = ownCalls first.moves := by
        clear entered
        induction others with
        | refl => exact ⟨lawful, rfl⟩
        | tail _ step waiting =>
            obtain ⟨other, reply, step⟩ := step
            refine ⟨waiting.1.enters (fun own : false = true => absurd own Bool.false_ne_true) step, ?_⟩
            rw [step.2, ownCalls_append, waiting.2]
            exact List.append_nil _
      obtain ⟨before, same⟩ := waited
      have seen : ownCalls world.moves = ownCalls first.moves ++ [⟨op, answer⟩] := by
        rw [entered.2, ownCalls_append, same]
        rfl
      refine ih answer ?_ (before.enters (fun _ => same ▸ recalls.1) entered) rest
      rw [seen]
      exact recalls.2 answer (answers _ _ _ _ entered.1)

theorem ownCalls_split {moves : List (Move S σ)} {front back : List (Call S)} {call : Call S}
    (notes : ownCalls moves = front ++ call :: back) :
    ∃ earlier move later, moves = earlier ++ move :: later ∧ move.own = true ∧ move.call = call ∧
      ownCalls later = back := by
  obtain ⟨left, right, rfl, _, rightEq⟩ := List.filterMap_eq_append_iff.mp notes
  obtain ⟨skipped, move, later, rfl, _, noted, laterEq⟩ := List.filterMap_eq_cons_iff.mp rightEq
  unfold Move.noted at noted
  split at noted
  · rename_i own
    cases noted
    exact ⟨left ++ skipped, move, later, by rw [List.append_assoc], own, rfl, laterEq⟩
  · cases noted

theorem call_mem_ownCalls {moves : List (Move S σ)} {move : Move S σ} (member : move ∈ moves)
    (own : move.own = true) : move.call ∈ ownCalls moves :=
  List.mem_filterMap.mpr ⟨move, member, if_pos own⟩

end Effects
