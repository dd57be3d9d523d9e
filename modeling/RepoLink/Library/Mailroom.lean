import Mathlib.Data.List.Nodup
import Mathlib.Data.List.Perm.Lattice

/-!
Letters that are sent exactly once. A round takes up the pending letters, sends one after the
other and files the receipt of each before it turns to the next; between its steps the files may
be replaced by any listing of receipts. No letter is sent twice or lost as long as each listing
shows the receipts that are filed and not the one that is outstanding.
-/

namespace Post

variable {ι ρ : Type}

structure Mailroom (ι ρ : Type) where
  submitted : List ι
  pending : List ι
  /-- What the last round took up. -/
  taken : List ι
  /-- What of it is not filed yet. -/
  queue : List ι
  /-- The receipt of the first letter of the queue, once it is sent. -/
  outstanding : Option ρ
  sent : List (ι × ρ)
  filed : List ρ
  /-- The receipts that the remote has given out, to anybody. -/
  issued : List ρ

theorem nodup_snoc {α : Type} {items : List α} {item : α} (distinct : items.Nodup)
    (absent : item ∉ items) : (items ++ [item]).Nodup := by
  rw [← List.concat_eq_append]
  exact distinct.concat absent

namespace Mailroom

def Timely (listing : List ρ) (room : Mailroom ι ρ) : Prop :=
  ∀ letter receipt, (letter, receipt) ∈ room.sent → (receipt ∈ listing ↔ letter ∉ room.pending)

instance [DecidableEq ι] [DecidableEq ρ] (listing : List ρ) (room : Mailroom ι ρ) :
    Decidable (room.Timely listing) :=
  decidable_of_iff (∀ entry ∈ room.sent, (entry.2 ∈ listing ↔ entry.1 ∉ room.pending))
    ⟨fun all letter receipt member => all (letter, receipt) member,
      fun timely entry member => timely entry.1 entry.2 member⟩

inductive Step : Mailroom ι ρ → Mailroom ι ρ → Prop
  | submit {room : Mailroom ι ρ} (letter : ι) (fresh : letter ∉ room.submitted) :
      Step room { room with
        submitted := room.submitted ++ [letter], pending := room.pending ++ [letter] }
  | takeUp {room : Mailroom ι ρ} (letters : List ι) (idle : room.outstanding = none)
      (distinct : letters.Nodup) (held : letters ⊆ room.pending) :
      Step room { room with taken := letters, queue := letters }
  | send {room : Mailroom ι ρ} {letter : ι} {rest : List ι} {issued : List ρ} (receipt : ρ)
      (idle : room.outstanding = none) (next : room.queue = letter :: rest)
      (fresh : receipt ∉ room.issued) (grown : room.issued ⊆ issued) (given : receipt ∈ issued) :
      Step room { room with
        outstanding := some receipt, sent := room.sent ++ [(letter, receipt)], issued }
  | file {room : Mailroom ι ρ} {letter : ι} {rest pending : List ι} {receipt : ρ}
      (next : room.queue = letter :: rest) (due : room.outstanding = some receipt)
      (distinct : pending.Nodup)
      (left : ∀ other, other ∈ pending ↔ other ∈ room.pending ∧ other ≠ letter) :
      Step room { room with
        pending, queue := rest, outstanding := none, filed := room.filed ++ [receipt] }
  | refile {room : Mailroom ι ρ} (listing : List ρ) (distinct : listing.Nodup)
      (known : listing ⊆ room.issued) (timely : room.Timely listing) :
      Step room { room with filed := listing }
  | issue {room : Mailroom ι ρ} {issued : List ρ} (grown : room.issued ⊆ issued) :
      Step room { room with issued }

/-- What a sent letter has come to: its receipt is outstanding, or on file. -/
def Settled (room : Mailroom ι ρ) (letter : ι) (receipt : ρ) : Prop :=
  (letter ∈ room.pending ∧ receipt ∉ room.filed ∧ room.outstanding = some receipt ∧
      room.queue.head? = some letter) ∨
    (letter ∉ room.pending ∧ receipt ∈ room.filed)

structure Sound (room : Mailroom ι ρ) : Prop where
  submittedOnce : room.submitted.Nodup
  pendingOnce : room.pending.Nodup
  known : room.pending ⊆ room.submitted
  queued : room.queue ⊆ room.pending
  queuedOnce : room.queue.Nodup
  takenKnown : room.taken ⊆ room.submitted
  takenQueued : ∀ letter ∈ room.taken, letter ∈ room.pending → letter ∈ room.queue
  filedOnce : room.filed.Nodup
  filedIssued : room.filed ⊆ room.issued
  sentOnce : (room.sent.map Prod.fst).Nodup
  receiptsOnce : (room.sent.map Prod.snd).Nodup
  sentIssued : ∀ letter receipt, (letter, receipt) ∈ room.sent →
    letter ∈ room.submitted ∧ receipt ∈ room.issued
  settled : ∀ letter receipt, (letter, receipt) ∈ room.sent → room.Settled letter receipt
  kept : ∀ letter ∈ room.submitted, letter ∈ room.pending ∨ letter ∈ room.sent.map Prod.fst
  due : ∀ receipt, room.outstanding = some receipt →
    ∃ letter rest, room.queue = letter :: rest ∧ (letter, receipt) ∈ room.sent

/-- The letter is not pending any more, and the receipt it was given is on file once. -/
def Delivered [DecidableEq ρ] (room : Mailroom ι ρ) (letter : ι) : Prop :=
  letter ∉ room.pending ∧ ∃ receipt, (letter, receipt) ∈ room.sent ∧ room.filed.count receipt = 1

/-- No letter is sent twice, each is delivered or pending, and at most about to be filed, and a
round that has come to its end has delivered what it took up. -/
structure ExactlyOnce [DecidableEq ρ] (room : Mailroom ι ρ) : Prop where
  sentOnce : (room.sent.map Prod.fst).Nodup
  accounted : ∀ letter ∈ room.submitted, room.Delivered letter ∨ letter ∈ room.pending ∧
    ∀ receipt, (letter, receipt) ∈ room.sent → room.outstanding = some receipt
  completed : room.queue = [] → ∀ letter ∈ room.taken, room.Delivered letter

variable {before after room : Mailroom ι ρ}

theorem Sound.unsent (sound : room.Sound) (idle : room.outstanding = none) {letter : ι}
    (pending : letter ∈ room.pending) : letter ∉ room.sent.map Prod.fst := by
  intro member
  obtain ⟨⟨_, receipt⟩, sent, rfl⟩ := List.mem_map.mp member
  rcases sound.settled _ receipt sent with ⟨_, _, due, _⟩ | ⟨absent, _⟩
  · cases idle.symm.trans due
  · exact absent pending

theorem Sound.outstanding_head (sound : room.Sound) {letter : ι} {rest : List ι} {receipt : ρ}
    (next : room.queue = letter :: rest) (due : room.outstanding = some receipt) :
    (letter, receipt) ∈ room.sent ∧ letter ∈ room.pending ∧ receipt ∉ room.filed := by
  obtain ⟨head, tail, queued, sent⟩ := sound.due receipt due
  cases next.symm.trans queued
  have pending : letter ∈ room.pending := sound.queued (next ▸ List.mem_cons_self)
  rcases sound.settled letter receipt sent with ⟨_, unfiled, _⟩ | ⟨absent, _⟩
  · exact ⟨sent, pending, unfiled⟩
  · exact (absent pending).elim

theorem Sound.submit (sound : room.Sound) {letter : ι} (fresh : letter ∉ room.submitted) :
    ({ room with submitted := room.submitted ++ [letter], pending := room.pending ++ [letter] } :
      Mailroom ι ρ).Sound := by
  exact {
    sound with
    submittedOnce := nodup_snoc sound.submittedOnce fresh
    pendingOnce := nodup_snoc sound.pendingOnce fun member => fresh (sound.known member)
    known := List.append_subset.mpr
      ⟨fun _ member => List.mem_append_left _ (sound.known member), List.subset_append_right _ _⟩
    queued := fun _ member => List.mem_append_left _ (sound.queued member)
    takenKnown := fun _ member => List.mem_append_left _ (sound.takenKnown member)
    takenQueued := by
      intro other taken member
      rcases List.mem_append.mp member with stored | added
      · exact sound.takenQueued other taken stored
      · exact (fresh (List.mem_singleton.mp added ▸ sound.takenKnown taken)).elim
    sentIssued := fun other receipt sent =>
      ⟨List.mem_append_left _ (sound.sentIssued other receipt sent).1,
        (sound.sentIssued other receipt sent).2⟩
    settled := by
      intro other receipt sent
      have different : other ≠ letter :=
        fun same => fresh (same ▸ (sound.sentIssued other receipt sent).1)
      refine (sound.settled other receipt sent).imp (fun out => ?_) fun done => ?_
      · exact ⟨List.mem_append_left _ out.1, out.2⟩
      · refine ⟨fun member => ?_, done.2⟩
        rcases List.mem_append.mp member with stored | added
        · exact done.1 stored
        · exact different (List.mem_singleton.mp added)
    kept := by
      intro other member
      rcases List.mem_append.mp member with stored | added
      · exact (sound.kept other stored).imp_left (List.mem_append_left _)
      · exact .inl (List.mem_append_right _ added) }

theorem Sound.takeUp (sound : room.Sound) {letters : List ι} (idle : room.outstanding = none)
    (distinct : letters.Nodup) (held : letters ⊆ room.pending) :
    ({ room with taken := letters, queue := letters } : Mailroom ι ρ).Sound := by
  have nothingDue : ∀ receipt, room.outstanding ≠ some receipt :=
    fun receipt due => nomatch idle.symm.trans due
  exact {
    sound with
    queued := held
    queuedOnce := distinct
    takenKnown := fun _ member => sound.known (held member)
    takenQueued := fun _ member _ => member
    settled := fun letter receipt sent => (sound.settled letter receipt sent).imp_left
      fun out => (nothingDue receipt out.2.2.1).elim
    due := fun receipt due => (nothingDue receipt due).elim }

theorem Sound.send (sound : room.Sound) {letter : ι} {rest : List ι} {issued : List ρ} {receipt : ρ}
    (idle : room.outstanding = none) (next : room.queue = letter :: rest)
    (fresh : receipt ∉ room.issued) (grown : room.issued ⊆ issued) (given : receipt ∈ issued) :
    ({ room with outstanding := some receipt, sent := room.sent ++ [(letter, receipt)], issued } :
      Mailroom ι ρ).Sound := by
  have pending : letter ∈ room.pending := sound.queued (next ▸ List.mem_cons_self)
  have unsent := sound.unsent idle pending
  have unissued : ∀ other, (other, receipt) ∉ room.sent :=
    fun other sent => fresh (sound.sentIssued other receipt sent).2
  exact {
    sound with
    filedIssued := fun _ member => grown (sound.filedIssued member)
    sentOnce := by
      rw [List.map_append]
      exact nodup_snoc sound.sentOnce unsent
    receiptsOnce := by
      rw [List.map_append]
      refine nodup_snoc sound.receiptsOnce fun member => ?_
      obtain ⟨⟨earlier, _⟩, sent, rfl⟩ := List.mem_map.mp member
      exact unissued earlier sent
    sentIssued := by
      intro other otherReceipt member
      rcases List.mem_append.mp member with earlier | added
      · exact ⟨(sound.sentIssued _ _ earlier).1, grown (sound.sentIssued _ _ earlier).2⟩
      · cases List.mem_singleton.mp added
        exact ⟨sound.known pending, given⟩
    settled := by
      intro other otherReceipt member
      rcases List.mem_append.mp member with earlier | added
      · refine (sound.settled _ _ earlier).imp_left fun out => ?_
        cases idle.symm.trans out.2.2.1
      · cases List.mem_singleton.mp added
        refine .inl ⟨pending, fun filed => fresh (sound.filedIssued filed), rfl, ?_⟩
        rw [next]
        rfl
    kept := fun other member => (sound.kept other member).imp_right fun sent => by
      rw [List.map_append]
      exact List.mem_append_left _ sent
    due := by
      intro other due
      cases due
      exact ⟨letter, rest, next, List.mem_append_right _ (List.mem_singleton_self _)⟩ }

theorem Sound.file (sound : room.Sound) {letter : ι} {rest pending : List ι} {receipt : ρ}
    (next : room.queue = letter :: rest) (due : room.outstanding = some receipt)
    (distinct : pending.Nodup)
    (left : ∀ other, other ∈ pending ↔ other ∈ room.pending ∧ other ≠ letter) :
    ({ room with
        pending, queue := rest, outstanding := none, filed := room.filed ++ [receipt] } :
      Mailroom ι ρ).Sound := by
  obtain ⟨sent, wasPending, unfiled⟩ := sound.outstanding_head next due
  have queuedOnce := sound.queuedOnce
  rw [next, List.nodup_cons] at queuedOnce
  exact {
    sound with
    pendingOnce := distinct
    known := fun other member => sound.known ((left other).mp member).1
    queued := by
      intro other member
      refine (left other).mpr ⟨sound.queued (next ▸ List.mem_cons_of_mem _ member), ?_⟩
      rintro rfl
      exact queuedOnce.1 member
    queuedOnce := queuedOnce.2
    takenQueued := by
      intro other taken member
      obtain ⟨stored, different⟩ := (left other).mp member
      have queued := sound.takenQueued other taken stored
      rw [next] at queued
      exact (List.mem_cons.mp queued).resolve_left different
    filedOnce := nodup_snoc sound.filedOnce unfiled
    filedIssued := by
      intro other member
      rcases List.mem_append.mp member with stored | added
      · exact sound.filedIssued stored
      · rw [List.mem_singleton.mp added]
        exact (sound.sentIssued letter receipt sent).2
    settled := by
      intro other otherReceipt member
      refine .inr ?_
      rcases sound.settled other otherReceipt member with ⟨_, _, otherDue, _⟩ | ⟨absent, filed⟩
      · have same : receipt = otherReceipt := Option.some.inj (due.symm.trans otherDue)
        subst same
        have sameLetter : other = letter := congrArg Prod.fst
          (List.inj_on_of_nodup_map sound.receiptsOnce member sent rfl)
        exact ⟨fun pendingStill => ((left other).mp pendingStill).2 sameLetter,
          List.mem_append_right _ (List.mem_singleton_self _)⟩
      · exact ⟨fun pendingStill => absent ((left other).mp pendingStill).1,
          List.mem_append_left _ filed⟩
    kept := by
      intro other member
      rcases sound.kept other member with stored | wasSent
      · by_cases same : other = letter
        · exact .inr (same ▸ List.mem_map_of_mem sent)
        · exact .inl ((left other).mpr ⟨stored, same⟩)
      · exact .inr wasSent
    due := fun _ same => nomatch same }

theorem Sound.refile (sound : room.Sound) {listing : List ρ} (distinct : listing.Nodup)
    (known : listing ⊆ room.issued) (timely : room.Timely listing) :
    ({ room with filed := listing } : Mailroom ι ρ).Sound := by
  exact {
    sound with
    filedOnce := distinct
    filedIssued := known
    settled := by
      intro letter receipt sent
      refine (sound.settled letter receipt sent).imp (fun out => ?_) fun done => ?_
      · exact ⟨out.1, fun listed => (timely letter receipt sent).mp listed out.1, out.2.2⟩
      · exact ⟨done.1, (timely letter receipt sent).mpr done.1⟩ }

theorem Sound.step (sound : before.Sound) (step : Step before after) : after.Sound := by
  cases step with
  | submit letter fresh => exact sound.submit fresh
  | takeUp letters idle distinct held => exact sound.takeUp idle distinct held
  | send receipt idle next fresh grown given => exact sound.send idle next fresh grown given
  | file next due distinct left => exact sound.file next due distinct left
  | refile listing distinct known timely => exact sound.refile distinct known timely
  | issue grown =>
      exact {
        sound with
        filedIssued := fun _ member => grown (sound.filedIssued member)
        sentIssued := fun letter receipt sent =>
          ⟨(sound.sentIssued letter receipt sent).1, grown (sound.sentIssued letter receipt sent).2⟩ }

theorem Sound.delivered [DecidableEq ρ] (sound : room.Sound) {letter : ι}
    (submitted : letter ∈ room.submitted) (absent : letter ∉ room.pending) :
    room.Delivered letter := by
  obtain ⟨⟨_, receipt⟩, sent, rfl⟩ :=
    List.mem_map.mp ((sound.kept letter submitted).resolve_left absent)
  rcases sound.settled _ receipt sent with out | done
  · exact (absent out.1).elim
  · exact ⟨absent, receipt, sent, List.count_eq_one_of_mem sound.filedOnce done.2⟩

theorem Sound.exactlyOnce [DecidableEq ι] [DecidableEq ρ] (sound : room.Sound) :
    room.ExactlyOnce := by
  refine ⟨sound.sentOnce, fun letter submitted => ?_, fun ended letter taken => ?_⟩
  · by_cases pending : letter ∈ room.pending
    · refine .inr ⟨pending, fun receipt sent => ?_⟩
      rcases sound.settled letter receipt sent with out | done
      · exact out.2.2.1
      · exact (done.1 pending).elim
    · exact .inl (sound.delivered submitted pending)
  · refine sound.delivered (sound.takenKnown taken) fun pending => ?_
    have queued := sound.takenQueued letter taken pending
    rw [ended] at queued
    cases queued

end Mailroom

end Post
