import Mathlib.Data.List.Forall2
import RepoLink.Library.Program

/-!
Two programs over different signatures, the second the coarser picture of the first: some calls
are hidden from it, the others are asked in its words, and of an answer it sees a part.
-/

namespace Effects

variable {S T : Signature} {σ τ ε ε' α β γ δ ι κ : Type}

/-- What the coarser side sees of a call. A foreign call has no picture at all. -/
inductive Sight (S T : Signature) (op : S.Op) where
  | hidden
  | seen (asked : T.Op) (see : S.Answer op → T.Answer asked)
  | foreign

/-- Both end well, or both fail. -/
inductive Agree (errors : ε → ε' → Prop) (values : α → β → Prop) :
    Except ε α → Except ε' β → Prop where
  | ok {value : α} {other : β} (same : values value other) : Agree errors values (.ok value) (.ok other)
  | error {error : ε} {other : ε'} (same : errors error other) :
      Agree errors values (.error error) (.error other)

namespace Program

variable (sight : (op : S.Op) → Sight S T op) (errors : ε → ε' → Prop)

/-- Whatever the calls answer, the second program asks for what is seen of them, and the two end
alike. -/
def Mirrors (values : α → β → Prop) : Program S ε α → Program T ε' β → Prop
  | .done value, coarse => ∃ other, coarse = .done other ∧ values value other
  | .fail error, coarse => ∃ other, coarse = .fail other ∧ errors error other
  | .call op rest, coarse =>
    match sight op with
    | .hidden => ∀ answer, (rest answer).Mirrors values coarse
    | .seen asked see => ∃ others, coarse = .call asked others ∧
        ∀ answer, (rest answer).Mirrors values (others (see answer))
    | .foreign => False

variable {sight errors} {values : α → β → Prop} {later : γ → δ → Prop}

theorem mirrors_hidden {op : S.Op} (hidden : sight op = .hidden)
    {rest : S.Answer op → Program S ε α} {coarse : Program T ε' β}
    (each : ∀ answer, (rest answer).Mirrors sight errors values coarse) :
    (Program.call op rest).Mirrors sight errors values coarse := by
  simp only [Mirrors, hidden]
  exact each

theorem mirrors_seen {op : S.Op} {asked : T.Op} {see : S.Answer op → T.Answer asked}
    (seen : sight op = .seen asked see) {rest : S.Answer op → Program S ε α}
    {others : T.Answer asked → Program T ε' β}
    (each : ∀ answer, (rest answer).Mirrors sight errors values (others (see answer))) :
    (Program.call op rest).Mirrors sight errors values (.call asked others) := by
  simp only [Mirrors, seen]
  exact ⟨others, rfl, each⟩

theorem mirrors_done {value : α} {other : β} (same : values value other) :
    (Program.done value : Program S ε α).Mirrors sight errors values
      (.done other : Program T ε' β) := ⟨other, rfl, same⟩

theorem mirrors_fail {error : ε} {other : ε'} (same : errors error other) :
    (Program.fail error : Program S ε α).Mirrors sight errors values
      (.fail other : Program T ε' β) := ⟨other, rfl, same⟩

theorem Mirrors.bind {program : Program S ε α} {coarse : Program T ε' β}
    {next : α → Program S ε γ} {nextCoarse : β → Program T ε' δ}
    (first : program.Mirrors sight errors values coarse)
    (second : ∀ value other, values value other →
      (next value).Mirrors sight errors later (nextCoarse other)) :
    (program.bind next).Mirrors sight errors later (coarse.bind nextCoarse) := by
  induction program generalizing coarse with
  | done value =>
      obtain ⟨other, rfl, same⟩ := first
      exact second value other same
  | fail error =>
      obtain ⟨other, rfl, same⟩ := first
      exact mirrors_fail same
  | call op rest ih =>
      rw [call_bind]
      cases sighted : sight op with
      | hidden =>
          simp only [Mirrors, sighted] at first
          exact mirrors_hidden sighted fun answer => ih answer (first answer)
      | seen asked see =>
          simp only [Mirrors, sighted] at first
          obtain ⟨others, rfl, each⟩ := first
          exact mirrors_seen sighted fun answer => ih answer (each answer)
      | foreign =>
          simp only [Mirrors, sighted] at first

theorem Mirrors.bind_done {program : Program S ε α} {other : β} {next : α → Program S ε γ}
    {coarse : Program T ε' δ} (first : program.Mirrors sight errors values (.done other))
    (second : ∀ value, values value other → (next value).Mirrors sight errors later coarse) :
    (program.bind next).Mirrors sight errors later coarse := by
  induction program with
  | done value =>
      obtain ⟨_, sameDone, same⟩ := first
      cases sameDone
      exact second value same
  | fail error =>
      obtain ⟨_, absurd, _⟩ := first
      cases absurd
  | call op rest ih =>
      rw [call_bind]
      cases sighted : sight op with
      | hidden =>
          simp only [Mirrors, sighted] at first
          exact mirrors_hidden sighted fun answer => ih answer (first answer)
      | seen asked see =>
          simp only [Mirrors, sighted] at first
          obtain ⟨_, absurd, _⟩ := first
          cases absurd
      | foreign =>
          simp only [Mirrors, sighted] at first

theorem Mirrors.foldEach {body : γ → ι → Program S ε γ} {coarseBody : δ → κ → Program T ε' δ}
    {alike : ι → κ → Prop} {values : Nat → γ → δ → Prop}
    (round : ∀ count value other item image, alike item image → values count value other →
      (body value item).Mirrors sight errors (values (count + 1)) (coarseBody other image)) :
    ∀ {items : List ι} {images : List κ} {count : Nat} {value : γ} {other : δ},
      List.Forall₂ alike items images → values count value other →
      (Program.foldEach body items value).Mirrors sight errors (values (count + items.length))
        (Program.foldEach coarseBody images other) := by
  intro items
  induction items with
  | nil =>
      rintro _ count value other (_ | _) same
      exact mirrors_done same
  | cons item rest ih =>
      rintro _ count value other (_ | ⟨first, others⟩) same
      rw [List.length_cons, Nat.add_comm rest.length, ← Nat.add_assoc]
      exact (round count value other item _ first same).bind
        fun next nextOther related => ih others related

/-- If every step has a picture among the steps of the coarser side, so has every run. -/
theorem Mirrors.runs {meaning : Semantics S σ} {coarser : Semantics T τ} {shows : σ → τ → Prop}
    (unseen : ∀ op before answer after world, sight op = .hidden → shows before world →
      meaning op before answer after → shows after world)
    (pictured : ∀ op asked see before answer after world, sight op = .seen asked see →
      shows before world → meaning op before answer after →
      ∃ next, coarser asked world (see answer) next ∧ shows after next)
    {program : Program S ε α} {coarse : Program T ε' β}
    (mirrors : program.Mirrors sight errors values coarse) {before after : σ} {world : τ}
    {result : Except ε α} (shown : shows before world)
    (ran : program.Runs meaning before result after) :
    ∃ other last, coarse.Runs coarser world other last ∧ shows after last ∧
      Agree errors values result other := by
  induction program generalizing coarse before world with
  | done value =>
      obtain ⟨other, rfl, same⟩ := mirrors
      obtain ⟨rfl, rfl⟩ := ran
      exact ⟨_, world, ⟨rfl, rfl⟩, shown, .ok same⟩
  | fail error =>
      obtain ⟨other, rfl, same⟩ := mirrors
      obtain ⟨rfl, rfl⟩ := ran
      exact ⟨_, world, ⟨rfl, rfl⟩, shown, .error same⟩
  | call op rest ih =>
      obtain ⟨answer, middle, answered, ran⟩ := ran
      cases sighted : sight op with
      | hidden =>
          simp only [Mirrors, sighted] at mirrors
          exact ih answer (mirrors answer) (unseen op _ _ _ _ sighted shown answered) ran
      | seen asked see =>
          simp only [Mirrors, sighted] at mirrors
          obtain ⟨others, rfl, each⟩ := mirrors
          obtain ⟨next, moved, nextShown⟩ := pictured op asked see _ _ _ _ sighted shown answered
          obtain ⟨other, last, ranCoarse, lastShown, agree⟩ := ih answer (each answer) nextShown ran
          exact ⟨other, last, ⟨see answer, next, moved, ranCoarse⟩, lastShown, agree⟩
      | foreign =>
          simp only [Mirrors, sighted] at mirrors

end Program

end Effects
