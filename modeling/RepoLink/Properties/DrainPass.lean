import RepoLink.Properties.CreationReplay
import RepoLink.Sync.DrainTurns

/-!
What a drain pass leaves behind: which of the entries that it claimed are inflight at its end, and
how often it can claim at all.
-/

namespace RepoLink

open Effects Program OutboxDrainer

def NoneInflight (journal : Journal) : Prop :=
  ∀ entry ∈ claims journal.2, ∃ stored, journal.1.entry entry.id = some stored ∧
    stored.status ≠ .inflight

def ClosesAll (journal : Journal) : Prop :=
  ∀ call ∈ journal.2, call.1.closes = true → refused call = false

instance (journal : Journal) : Decidable (NoneInflight journal) :=
  decidable_of_iff (∀ entry ∈ claims journal.2, (journal.1.entry entry.id).any (·.status ≠ .inflight))
    (by simp [NoneInflight, Option.any_eq_true])

instance (journal : Journal) : Decidable (ClosesAll journal) :=
  inferInstanceAs (Decidable (∀ call ∈ journal.2, call.1.closes = true → refused call = false))

theorem Released.not_inflight {backoff : BackoffSchedule} {entry next : OutboxEntry}
    (released : Released backoff entry next) : next.status ≠ .inflight := by
  intro inflight
  obtain ⟨_, _, terminal | ⟨pending, _⟩⟩ := released
  · rw [inflight] at terminal
    cases terminal
  · rw [inflight] at pending
    cases pending

theorem Aside.closesAll {before after : Journal} (aside : Aside before after)
    (closed : ClosesAll before) : ClosesAll after := by
  obtain ⟨later, called, applies⟩ := aside.calls
  rw [ClosesAll, called]
  refine List.forall_mem_append.mpr ⟨closed, fun call member closes => ?_⟩
  rw [PortOp.applies_closes (applies call member)] at closes
  cases closes

theorem Aside.noneInflight {before after : Journal} (aside : Aside before after)
    (settled : NoneInflight before) : NoneInflight after := by
  intro entry member
  rw [aside.claims] at member
  obtain ⟨stored, found, moved⟩ := settled entry member
  exact ⟨stored, aside.entries _ _ found, moved⟩

theorem Claim.closesAll {before after : Journal} {entry : OutboxEntry}
    (claim : Claim before entry after) (closed : ClosesAll before) : ClosesAll after := by
  obtain ⟨_, _, called⟩ := claim
  rw [ClosesAll, called]
  refine List.forall_mem_append.mpr ⟨closed, ?_⟩
  simp [PortOp.closes, StoreOp.resolves]

namespace OutboxDrainer

variable {backoff : BackoffSchedule} {rounds : Nat} {before after : Journal} {entry : OutboxEntry}

theorem Turn.settles (turn : Turn backoff before entry (.ok ()) after)
    (settled : NoneInflight before) (closed : ClosesAll before) :
    NoneInflight after ∧ ClosesAll after := by
  obtain ⟨claim, applies, closes⟩ := turn
  have aside := aside_runs (apply_applies entry) applies
  have closedSoFar := aside.closesAll (claim.closesAll closed)
  cases closes with
  | moved called claimless passed updated released =>
      refine ⟨fun other member => ?_, ?_⟩
      · rw [called, claims_append, claimless, List.append_nil, aside.claims, claim.claims] at member
        unfold Database.entry
        rw [updated, OutboxTable.entry_updateEntry]
        by_cases same : other.id = entry.id
        · have stored := aside.entries _ _ claim.inflight.1
          rw [if_pos same, same, show OutboxTable.entry _ entry.id = some entry from stored]
          exact ⟨_, rfl, released.not_inflight⟩
        · rw [if_neg same]
          rcases List.mem_append.mp member with earlier | new
          · obtain ⟨stored, found, moved⟩ := settled other earlier
            rw [← claim.others same] at found
            exact ⟨stored, aside.entries _ _ found, moved⟩
          · exact (same (congrArg OutboxEntry.id (List.mem_singleton.mp new))).elim
      · rw [ClosesAll, called]
        exact List.forall_mem_append.mpr ⟨closedSoFar, passed⟩

theorem Turn.strands {error : SyncError} (turn : Turn backoff before entry (.error error) after) :
    ¬NoneInflight after ∧ ¬ClosesAll after := by
  obtain ⟨claim, applies, closes⟩ := turn
  have aside := aside_runs (apply_applies entry) applies
  cases closes with
  | stuck called claimless blocked same =>
      constructor
      · intro settled
        obtain ⟨stored, found, moved⟩ := settled entry (by
          rw [called, claims_append, aside.claims, claim.claims]
          simp)
        have still := aside.entries _ _ claim.inflight.1
        unfold Database.entry at found still
        rw [same, still] at found
        cases found
        exact moved claim.inflight.2
      · intro closed
        obtain ⟨call, member, isClosing, failed⟩ := blocked
        rw [closed call (called ▸ List.mem_append_right _ member) isClosing] at failed
        cases failed

theorem Idles.settles {result : Except SyncError Unit} (idles : Idles before result after)
    (settled : NoneInflight before) (closed : ClosesAll before) :
    NoneInflight after ∧ ClosesAll after := by
  have quiet : ∀ {later : List (Call ports)}, after.1 = before.1 → after.2 = before.2 ++ later →
      claims later = [] → (∀ call ∈ later, call.1.closes = false) →
      NoneInflight after ∧ ClosesAll after := by
    intro later same called claimless open_
    refine ⟨fun entry member => ?_, ?_⟩
    · rw [called, claims_append, claimless, List.append_nil] at member
      rw [same]
      exact settled entry member
    · rw [ClosesAll, called]
      refine List.forall_mem_append.mpr ⟨closed, fun call member closes => ?_⟩
      rw [open_ call member] at closes
      cases closes
  cases idles with
  | drained same called => exact quiet same called rfl (by simp [PortOp.closes, StoreOp.resolves])
  | refused same called => exact quiet same called rfl (by simp [PortOp.closes, StoreOp.resolves])

theorem drainLoop_settles : ∀ {rounds : Nat} {before : Journal} {result : Except SyncError Unit},
    (drainLoop backoff rounds).Runs journaled before result after →
    NoneInflight before → ClosesAll before → (NoneInflight after ↔ ClosesAll after) := by
  intro rounds
  induction rounds with
  | zero =>
      rintro before result ⟨_, rfl⟩ settled closed
      exact iff_of_true settled closed
  | succ rounds ih =>
      intro before result ran settled closed
      rcases runs_drainLoop ran with
        idles | ⟨entry, closing, middle, turn, ⟨rfl, rest⟩ | ⟨⟨error, rfl⟩, _, rfl⟩⟩
      · obtain ⟨ends, closes⟩ := idles.settles settled closed
        exact iff_of_true ends closes
      · obtain ⟨ends, closes⟩ := turn.settles settled closed
        exact ih rest ends closes
      · exact iff_of_false turn.strands.1 turn.strands.2

/-- A pass leaves none of its entries inflight exactly when none of the calls that close a claimed
entry fails; nothing else puts the entry back before the next start of the daemon. -/
theorem drained_none_inflight_iff {database : Database} {result : Except SyncError Unit}
    (ran : (drainOnce backoff rounds).Runs journaled (database, []) result after) :
    NoneInflight after ↔ ClosesAll after := by
  have fresh : NoneInflight (database, []) ∧ ClosesAll (database, []) :=
    ⟨fun _ member => (List.not_mem_nil member).elim, fun _ member => (List.not_mem_nil member).elim⟩
  have sweep := @aside_runs SyncError Unit _ (enqueuePendingIssueTypes_every enqueues_applies)
  rcases runs_bind.mp ran with ⟨_, middle, swept, looped⟩ | ⟨error, failed, rfl⟩
  · have aside := sweep swept
    exact drainLoop_settles looped (aside.noneInflight fresh.1) (aside.closesAll fresh.2)
  · have aside := sweep failed
    exact iff_of_true (aside.noneInflight fresh.1) (aside.closesAll fresh.2)

end OutboxDrainer

def faultyHandler (fails : StoreOp → Bool) (provider : Provider) :
    Handler ports (Scene × List (Call ports)) := fun op state =>
  let (answer, scene) : op.Answer × Scene := match op with
    | .store op =>
      if fails op then (.error (.backend "database is locked"), state.1)
      else portHandler provider ⟨1⟩ (.store op) state.1
    | op => portHandler provider ⟨1⟩ op state.1
  (answer, scene, state.2 ++ [⟨op, answer⟩])

def journal (state : Scene × List (Call ports)) : Journal := (state.1.database, state.2)

theorem faultyHandler_sound (fails : StoreOp → Bool) (provider : Provider) (op : PortOp)
    (state : Scene × List (Call ports)) : journaled op (journal state)
      (faultyHandler fails provider op state).1
      (journal (faultyHandler fails provider op state).2) := by
  cases op with
  | store op =>
      unfold faultyHandler
      dsimp only
      split
      · exact ⟨.inr ⟨_, rfl, rfl⟩, rfl⟩
      · exact ⟨portHandler_sound provider ⟨1⟩ (.store op) state.1, rfl⟩
  | freshTaskId => exact ⟨portHandler_sound provider ⟨1⟩ .freshTaskId state.1, rfl⟩
  | _ => exact ⟨rfl, rfl⟩

def faultyPass (rounds : Nat) (fails : StoreOp → Bool) :
    Except SyncError Unit × Scene × List (Call ports) :=
  (drainOnce .standard rounds).exec (faultyHandler fails draftProvider) (⟨queuedDraft, 0⟩, [])

theorem faultyPass_ran (rounds : Nat) (fails : StoreOp → Bool) :
    (drainOnce .standard rounds).Runs journaled (queuedDraft, []) (faultyPass rounds fails).1
      (journal (faultyPass rounds fails).2) :=
  @exec_runs _ _ _ _ _ journaled _ journal (faultyHandler_sound fails draftProvider)
    (drainOnce .standard rounds) (⟨queuedDraft, 0⟩, [])

def unmarkable : StoreOp → Bool
  | .markSucceeded _ => true
  | _ => false

/-- The draft is made, and its entry blocks the queue of its task. -/
theorem failed_mark_strands_entry : ∃ result last, (drainOnce .standard 5).Runs journaled
    (queuedDraft, []) result last ∧ ¬NoneInflight last := by
  refine ⟨_, _, faultyPass_ran 5 unmarkable, ?_⟩
  decide

theorem drained_none_inflight_iff_faultless :
    NoneInflight (journal (faultyPass 5 fun _ => false).2) ∧
      ((journal (faultyPass 5 fun _ => false).2).1.entry ⟨1⟩).map OutboxEntry.status =
        some .succeeded :=
  ⟨(drained_none_inflight_iff (faultyPass_ran 5 fun _ => false)).mpr (by decide), by decide⟩

end RepoLink
