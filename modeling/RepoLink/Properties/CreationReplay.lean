import RepoLink.Ports.Handler
import RepoLink.Sync.CreationCalls

/-!
Replays of the two creations. A pass that breaks off between the provider's success and the write
of its result repeats the creation; nothing else does.
-/

namespace RepoLink

open Effects Program Relation OutboxDrainer

/-- A requeue at startup or a drain pass, broken off anywhere or carried through. The process that
made the claims before is gone. -/
inductive Session (creation : Creation) : Chronicle → Chronicle → Prop
  | requeue {before after : Chronicle}
      (ran : (query .requeueOrphanedInflight : Action Nat).CutOff (chronicled creation)
        (before.1, before.2.breakOff) after) : Session creation before after
  | drain {before after : Chronicle} {backoff : BackoffSchedule} {rounds : Nat}
      (ran : (drainOnce backoff rounds).CutOff (chronicled creation)
        (before.1, before.2.breakOff) after) : Session creation before after

/-- In every run of passes that break off anywhere, an entry creates something at most once more
often than it loses what it created. -/
theorem creations_repeat_when_lost {creation : Creation} {database : Database} {last : Chronicle}
    (run : ReflTransGen (Session creation) (database, .blank) last) (id : OutboxEntryId) :
    last.2.created.count id ≤ last.2.lost.count id + 1 := by
  have balanced : Balanced creation last := by
    induction run with
    | refl => exact .blank
    | tail _ session ih =>
        cases session with
        | requeue ran =>
            exact (survives_requeue ih.breakOff).cutOff ih.breakOff ran
        | drain ran =>
            exact (survives_drainOnce _ _ ⟨ih.breakOff, .inl rfl⟩).cutOff ih.breakOff ran
  exact balanced.bound id

def draftProvider : Provider
  | .createDraftIssue .. => .ok "PVTI_1"
  | op => obligingProvider op

def queuedDraft : Database :=
  let staged := after draftProvider .epoch (TaskService.stageForSync ⟨1⟩)
    (after draftProvider .epoch
      (TaskService.create { workspaceId := ⟨1⟩, repoId := some ⟨21⟩, title := "t" }) oneBoard)
  after draftProvider ⟨1⟩ (TaskService.complete ⟨1⟩) staged

def chroniclingHandler (creation : Creation) (provider : Provider) :
    Handler ports (Scene × Ledger) := fun op state =>
  let (answer, scene) := portHandler provider ⟨1⟩ op state.1
  (answer, scene, state.2.note creation op answer)

def chronicle (state : Scene × Ledger) : Chronicle := (state.1.database, state.2)

theorem chroniclingHandler_sound (creation : Creation) (provider : Provider) (op : PortOp)
    (state : Scene × Ledger) : chronicled creation op (chronicle state)
      (chroniclingHandler creation provider op state).1
      (chronicle (chroniclingHandler creation provider op state).2) :=
  ⟨portHandler_sound provider ⟨1⟩ op state.1, rfl⟩

def firstCalls {α : Type} (program : Action α) (count : Nat) (state : Scene × Ledger) :
    Scene × Ledger :=
  (program.advance (chroniclingHandler .draft draftProvider) count (state.1, state.2.breakOff)).2

theorem firstCalls_cutOff {α : Type} (program : Action α) (count : Nat) (state : Scene × Ledger) :
    program.CutOff (chronicled .draft) ((chronicle state).1, (chronicle state).2.breakOff)
      (chronicle (firstCalls program count state)) :=
  advance_cutOff (chroniclingHandler_sound .draft draftProvider) count program
    (state.1, state.2.breakOff)

def madeOnce : Scene × Ledger := firstCalls (drainOnce .standard 5) 5 (⟨queuedDraft, 0⟩, .blank)
def requeued : Scene × Ledger := firstCalls (query .requeueOrphanedInflight) 1 madeOnce
def madeTwice : Scene × Ledger := firstCalls (drainOnce .standard 5) 5 requeued

theorem madeTwice_run : ReflTransGen (Session .draft) (queuedDraft, .blank) (chronicle madeTwice) :=
  ReflTransGen.head (.drain (firstCalls_cutOff _ 5 (⟨queuedDraft, 0⟩, .blank)))
    (.head (.requeue (firstCalls_cutOff _ 1 madeOnce)) (.single (.drain (firstCalls_cutOff _ 5 requeued))))

/-- One entry has made two drafts. -/
theorem replay_makes_second_draft : ∃ last,
    ReflTransGen (Session .draft) (queuedDraft, .blank) last ∧ last.2.created.count ⟨1⟩ = 2 :=
  ⟨_, madeTwice_run, by decide⟩

theorem creations_repeat_when_lost_twice :
    (chronicle madeTwice).2.created.count ⟨1⟩ ≤ (chronicle madeTwice).2.lost.count ⟨1⟩ + 1 ∧
      (chronicle madeTwice).2.lost = [⟨1⟩] :=
  ⟨creations_repeat_when_lost madeTwice_run ⟨1⟩, by decide⟩

end RepoLink
