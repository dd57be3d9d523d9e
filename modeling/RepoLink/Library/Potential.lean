import RepoLink.Library.Program

/-!
Amortised bounds. A potential values the states, and a program raises it by at most some amount in
every run, whatever the answers. A loop whose rounds each pay a price out of the potential cannot
go on for longer than the potential lasts.
-/

namespace Effects

namespace Program

variable {S : Signature} {σ ε α β : Type}

def Raises (meaning : Semantics S σ) (potential : σ → Nat) (amount : Nat)
    (program : Program S ε α) : Prop :=
  ∀ before result after, program.Runs meaning before result after →
    potential after ≤ potential before + amount

variable {meaning : Semantics S σ} {potential : σ → Nat}

theorem Raises.mono {amount more : Nat} (within : amount ≤ more) {program : Program S ε α}
    (raises : program.Raises meaning potential amount) :
    program.Raises meaning potential more := by
  intro before result after ran
  exact Nat.le_trans (raises before result after ran) (Nat.add_le_add_left within _)

theorem raises_done (value : α) (amount : Nat) :
    (done value : Program S ε α).Raises meaning potential amount := by
  rintro before result after ⟨_, rfl⟩
  exact Nat.le_add_right _ _

theorem Raises.bind {amount rest : Nat} {post : α → Prop} {program : Program S ε α}
    {next : α → Program S ε β} (first : program.Raises meaning potential amount)
    (yields : program.Yields post)
    (second : ∀ value, post value → (next value).Raises meaning potential rest) :
    (program.bind next).Raises meaning potential (amount + rest) := by
  intro before result after ran
  rcases runs_bind.mp ran with ⟨value, middle, started, ended⟩ | ⟨error, failed, _⟩
  · have paid := first before _ middle started
    have owed := second value (yields.runs started) middle result after ended
    omega
  · have paid := first before _ after failed
    omega

theorem Raises.after {amount : Nat} {post : α → Prop} {program : Program S ε α}
    {next : α → Program S ε β} (first : program.Raises meaning potential 0)
    (yields : program.Yields post)
    (second : ∀ value, post value → (next value).Raises meaning potential amount) :
    (program.bind next).Raises meaning potential amount := by
  have whole := first.bind yields second
  rw [Nat.zero_add] at whole
  exact whole

theorem Raises.ofEvery {allowed : S.Op → Prop} {program : Program S ε α}
    (flat : ∀ op, allowed op → ∀ before answer after, meaning op before answer after →
      potential after ≤ potential before)
    (all : program.Every allowed) : program.Raises meaning potential 0 := by
  intro before result after ran
  refine all.runs (fun first second => potential second ≤ potential first) (fun _ => Nat.le_refl _)
    (fun first second => Nat.le_trans second first) flat ran

theorem Raises.foldEach {amount : Nat} {body : β → α → Program S ε β} {items : List α}
    (each : ∀ value item, item ∈ items → (body value item).Raises meaning potential amount) :
    ∀ value, (foldEach body items value).Raises meaning potential (items.length * amount) := by
  induction items with
  | nil => exact fun value => raises_done value _
  | cons item rest ih =>
      intro value
      have ended := ih fun value other member => each value other (List.mem_cons_of_mem _ member)
      have whole := (each value item List.mem_cons_self).bind (yields_any _) fun next _ => ended next
      rw [Nat.add_comm, ← Nat.succ_mul] at whole
      exact whole

end Program

end Effects
