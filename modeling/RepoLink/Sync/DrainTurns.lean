import RepoLink.Library.Potential
import RepoLink.Library.Recall
import RepoLink.Sync.DrainCalls

/-!
The turns of a drain pass: an entry is claimed, applied and resolved, with every call on record.
Applying leaves the stored entries as they are, and the resolution moves the claimed one on, or
fails and leaves it where the claim has put it.
-/

namespace RepoLink

open Effects Program

theorem OutboxTable.claimNextEligible_none {outbox : OutboxTable} {now flipAt : Timestamp}
    (idle : (outbox.claimNextEligible now flipAt).1 = none) :
    (outbox.claimNextEligible now flipAt).2 = outbox := by
  unfold claimNextEligible at idle ⊢
  split at idle
  · rfl
  · cases idle

abbrev Journal := Database × List (Call ports)

def journaled : Semantics ports Journal := fun op before answer after =>
  portMeaning op before.1 answer after.1 ∧ after.2 = before.2 ++ [⟨op, answer⟩]

theorem unjournaled {ε α : Type} {program : Service ε α} {before after : Journal}
    {result : Except ε α} (ran : program.Runs journaled before result after) :
    program.Runs portMeaning before.1 result after.1 :=
  @Runs.project _ _ _ _ _ journaled portMeaning Prod.fst (fun _ _ _ _ => And.left) _ _ _ _ ran

def claimOf : Call ports → Option OutboxEntry
  | ⟨.store (.claimNextEligible _), answer⟩ =>
    (answer : Except PortError (Option OutboxEntry)).toOption.join
  | _ => none

def claims (calls : List (Call ports)) : List OutboxEntry := calls.filterMap claimOf

def refused : Call ports → Bool
  | ⟨.store op, answer⟩ => !(answer : Except PortError op.Answer).isOk
  | _ => false

def TaskWrite.surfaces (write : TaskWrite) : Bool :=
  write.task.sync = .conflict && write.basis.any fun basis => basis.sync ≠ .conflict

/-- The calls that close a claimed entry: the stamp, the save of a conflict, and the statements
that move the entry on. -/
def PortOp.closes : PortOp → Bool
  | .store (.cacheSyncedAt ..) => true
  | .store (.saveAll writes _) => writes.any TaskWrite.surfaces
  | .store op => op.resolves.isSome
  | _ => false

def PortOp.applies : PortOp → Prop
  | .store op => op.reads = true ∨ (∃ entry, op = .enqueue entry) ∨
      (∃ id expected, op = .clearIssueTypePending id expected) ∨
      ∃ write, op = .saveAll [write] [] ∧ write.surfaces = false
  | _ => True

theorem claims_append (earlier later : List (Call ports)) :
    claims (earlier ++ later) = claims earlier ++ claims later := List.filterMap_append

theorem claims_singleton {call : Call ports} (claimless : claimOf call = none) :
    claims [call] = [] := List.filterMap_cons_none claimless

theorem Task.markConflicted_surfaces {now : Timestamp} {task after : Task}
    (marks : (task.markConflicted now).attempt = .ok after) :
    TaskWrite.surfaces ⟨some task, after, .localEdit⟩ = true := by
  unfold markConflicted at marks
  split at marks <;> cases marks <;> simp_all [TaskWrite.surfaces, touch]

theorem PortOp.applies_closes {op : PortOp} (applies : op.applies) : op.closes = false := by
  cases op with
  | store op =>
      obtain reads | ⟨entry, rfl⟩ | ⟨id, expected, rfl⟩ | ⟨write, rfl, kept⟩ := applies
      · cases op <;> first | rfl | cases reads
      · rfl
      · rfl
      · exact (Bool.or_false _).trans kept
  | _ => rfl

theorem PortOp.applies_claimOf {op : PortOp} (applies : op.applies) (answer : op.Answer) :
    claimOf ⟨op, answer⟩ = none := by
  cases op with
  | store op =>
      obtain reads | ⟨entry, rfl⟩ | ⟨id, expected, rfl⟩ | ⟨write, rfl, _⟩ := applies
      · cases op <;> first | rfl | cases reads
      · rfl
      · rfl
      · rfl
  | _ => rfl

theorem PortOp.applies_entry {op : PortOp} (applies : op.applies) {before after : Database}
    {answer : op.Answer} (answered : portMeaning op before answer after) {id : OutboxEntryId}
    {entry : OutboxEntry} (stored : before.entry id = some entry) :
    after.entry id = some entry := by
  cases op with
  | store op =>
      rcases answered with ⟨instant, performed⟩ | ⟨_, _, same⟩
      · have plain : (∀ taskId, op ≠ .deletePendingAddItems taskId) ∧
            (∀ now, op ≠ .claimNextEligible now) ∧ op ≠ .requeueOrphanedInflight ∧
            op.resolves = none := by
          obtain reads | ⟨entry, rfl⟩ | ⟨id, expected, rfl⟩ | ⟨write, rfl, _⟩ := applies
          · cases op <;>
              first | exact absurd reads Bool.false_ne_true | exact ⟨nofun, nofun, nofun, rfl⟩
          all_goals exact ⟨nofun, nofun, nofun, rfl⟩
        obtain ⟨next, nextStored, _, _, step⟩ := StoreOp.perform_entry performed plain.1 stored
        cases step with
        | same unchanged => rw [nextStored, unchanged]
        | claimed byClaim => exact (plain.2.1 _ byClaim).elim
        | requeued byRequeue => exact (plain.2.2.1 byRequeue).elim
        | resolved names =>
            rw [plain.2.2.2] at names
            cases names
      · rw [same, stored]
  | _ =>
      obtain rfl : after = before := by
        first | exact answered | exact answered.2
      exact stored

structure Aside (before after : Journal) : Prop where
  calls : ∃ later, after.2 = before.2 ++ later ∧ ∀ call ∈ later, call.1.applies
  entries : ∀ id entry, before.1.entry id = some entry → after.1.entry id = some entry

theorem aside_runs {ε α : Type} {program : Service ε α} (all : program.Every PortOp.applies)
    {before after : Journal} {result : Except ε α}
    (ran : program.Runs journaled before result after) : Aside before after := by
  refine all.runs Aside (fun _ => ⟨⟨[], by simp, by simp⟩, fun _ _ stored => stored⟩)
    (fun {first second third} earlier later => ?_) (fun op applies before answer after ran => ?_) ran
  · obtain ⟨firstCalls, firstEq, firstAll⟩ := earlier.calls
    obtain ⟨nextCalls, nextEq, nextAll⟩ := later.calls
    refine ⟨⟨firstCalls ++ nextCalls, by rw [nextEq, firstEq, List.append_assoc], ?_⟩,
      fun id entry stored => later.entries id entry (earlier.entries id entry stored)⟩
    exact List.forall_mem_append.mpr ⟨firstAll, nextAll⟩
  · exact ⟨⟨_, ran.2, List.forall_mem_singleton.mpr applies⟩,
      fun _ _ stored => PortOp.applies_entry applies ran.1 stored⟩

theorem Aside.claims {before after : Journal} (aside : Aside before after) :
    claims after.2 = RepoLink.claims before.2 := by
  obtain ⟨later, called, applies⟩ := aside.calls
  rw [called, claims_append, show RepoLink.claims later = [] from
    List.filterMap_eq_nil_iff.mpr fun call member => PortOp.applies_claimOf (applies call member) _,
    List.append_nil]

inductive Claim (before : Journal) (entry : OutboxEntry) (after : Journal) : Prop
  | claimed {now instant : Timestamp}
      (found : (before.1.outbox.claimNextEligible now instant).1 = some entry)
      (flipped : after.1 = { before.1 with
        outbox := (before.1.outbox.claimNextEligible now instant).2 })
      (called : after.2 = before.2 ++
        [⟨.now, now⟩, ⟨.store (.claimNextEligible now), .ok (some entry)⟩])

namespace Claim

variable {before after : Journal} {entry : OutboxEntry}

theorem claims (claim : Claim before entry after) :
    claims after.2 = RepoLink.claims before.2 ++ [entry] := by
  obtain ⟨_, _, called⟩ := claim
  rw [called, claims_append]
  rfl

theorem updates (claim : Claim before entry after) : ∃ stored flipAt,
    before.1.outbox.entry entry.id = some stored ∧ stored.status = .pending ∧
    entry = { stored with status := .inflight, updatedAt := flipAt } ∧
    after.1.outbox = before.1.outbox.updateEntry entry.id
      (fun entry => { entry with status := .inflight, updatedAt := flipAt }) fun _ => rfl := by
  obtain ⟨found, flipped, _⟩ := claim
  rw [flipped]
  unfold OutboxTable.claimNextEligible at found ⊢
  split at found
  · cases found
  · rename_i row eligible
    cases found
    obtain ⟨member, ready⟩ := OutboxTable.nextEligible_some eligible
    exact ⟨row.entry, _, OutboxTable.entry_of_row member, OutboxTable.eligible_pending ready, rfl,
      rfl⟩

theorem inflight (claim : Claim before entry after) :
    after.1.entry entry.id = some entry ∧ entry.status = .inflight := by
  obtain ⟨stored, flipAt, found, _, entryEq, updated⟩ := claim.updates
  refine ⟨?_, entryEq ▸ rfl⟩
  unfold Database.entry
  rw [updated, OutboxTable.entry_updateEntry, if_pos rfl, found, Option.map_some, ← entryEq]

theorem others (claim : Claim before entry after) {id : OutboxEntryId} (other : id ≠ entry.id) :
    after.1.entry id = before.1.entry id := by
  obtain ⟨stored, flipAt, _, _, _, updated⟩ := claim.updates
  unfold Database.entry
  rw [updated, OutboxTable.entry_updateEntry, if_neg other]

end Claim

/-- What a claimed entry may become: terminal, or pending with one more attempt below the cap. -/
def Released (backoff : BackoffSchedule) (entry next : OutboxEntry) : Prop :=
  next.id = entry.id ∧ next.mutation = entry.mutation ∧
    (next.status.isTerminal = true ∨ next.status = .pending ∧
      next.attempts = entry.attempts + 1 ∧ next.attempts < backoff.maxAttempts)

structure Passes (before after : Journal) : Prop where
  calls : ∃ later, after.2 = before.2 ++ later ∧ claims later = [] ∧
    ∀ call ∈ later, call.1.closes = true → refused call = false
  outbox : after.1.outbox = before.1.outbox

inductive Closing (backoff : BackoffSchedule) (entry : OutboxEntry) (before : Journal) :
    Except SyncError Unit → Journal → Prop
  | moved {after : Journal} {later : List (Call ports)} {change : OutboxEntry → OutboxEntry}
      {keeps : ∀ entry, (change entry).id = entry.id} (called : after.2 = before.2 ++ later)
      (claimless : claims later = [])
      (passed : ∀ call ∈ later, call.1.closes = true → refused call = false)
      (updated : after.1.outbox = before.1.outbox.updateEntry entry.id change keeps)
      (released : Released backoff entry (change entry)) : Closing backoff entry before (.ok ()) after
  | stuck {after : Journal} {later : List (Call ports)} {error : SyncError}
      (called : after.2 = before.2 ++ later) (claimless : claims later = [])
      (blocked : ∃ call ∈ later, call.1.closes = true ∧ refused call = true)
      (same : after.1.outbox = before.1.outbox) : Closing backoff entry before (.error error) after

theorem Closing.others {backoff : BackoffSchedule} {entry : OutboxEntry} {before after : Journal}
    {result : Except SyncError Unit} (closes : Closing backoff entry before result after)
    {id : OutboxEntryId} (other : id ≠ entry.id) : after.1.entry id = before.1.entry id := by
  unfold Database.entry
  cases closes with
  | moved called claimless passed updated =>
      rw [updated, OutboxTable.entry_updateEntry, if_neg other]
  | stuck called claimless blocked unmoved => rw [unmoved]

section Resolution

variable {backoff : BackoffSchedule} {entry : OutboxEntry} {before middle after : Journal}
  {result : Except SyncError Unit}

theorem Passes.closing (passes : Passes before middle)
    (closing : Closing backoff entry middle result after) :
    Closing backoff entry before result after := by
  obtain ⟨⟨first, firstEq, firstClaims, firstPassed⟩, sameOutbox⟩ := passes
  cases closing with
  | moved called claimless passed updated released =>
      rw [firstEq, List.append_assoc] at called
      rw [sameOutbox] at updated
      exact .moved called (by rw [claims_append, firstClaims, claimless]; rfl)
        (List.forall_mem_append.mpr ⟨firstPassed, passed⟩) updated released
  | stuck called claimless blocked same =>
      rw [firstEq, List.append_assoc] at called
      obtain ⟨call, member, failed⟩ := blocked
      exact .stuck called (by rw [claims_append, firstClaims, claimless]; rfl)
        ⟨call, List.mem_append_right _ member, failed⟩ (same.trans sameOutbox)

theorem Passes.call {op : PortOp} {answer : op.Answer} (answered : journaled op before answer after)
    (claimless : claimOf ⟨op, answer⟩ = none)
    (passed : op.closes = true → refused ⟨op, answer⟩ = false)
    (outbox : after.1.outbox = before.1.outbox) : Passes before after :=
  ⟨⟨_, answered.2, claims_singleton claimless,
    List.forall_mem_singleton.mpr passed⟩, outbox⟩

theorem Passes.trans (first : Passes before middle) (second : Passes middle after) :
    Passes before after := by
  obtain ⟨⟨earlier, earlierEq, earlierClaims, earlierPassed⟩, earlierOutbox⟩ := first
  obtain ⟨⟨later, laterEq, laterClaims, laterPassed⟩, laterOutbox⟩ := second
  exact ⟨⟨earlier ++ later, by rw [laterEq, earlierEq, List.append_assoc],
    by rw [claims_append, earlierClaims, laterClaims]; rfl,
    List.forall_mem_append.mpr ⟨earlierPassed, laterPassed⟩⟩, laterOutbox.trans earlierOutbox⟩

theorem journal_query {ε : Type} [OfPortError ε] {op : StoreOp} {outcome : Except ε op.Answer}
    (ran : (query op).Runs journaled before outcome after) :
    (∃ value instant, outcome = .ok value ∧
      op.perform instant before.1 = (.ok value, after.1) ∧
      after.2 = before.2 ++ [⟨.store op, .ok value⟩]) ∨
    ∃ error failure, outcome = .error error ∧ after.1 = before.1 ∧
      after.2 = before.2 ++ [⟨.store op, .error failure⟩] := by
  obtain ⟨answer, last, ⟨performs, called⟩, rest⟩ := ran
  cases answer with
  | ok value =>
      obtain ⟨rfl, rfl⟩ := rest
      rcases performs with ⟨instant, performed⟩ | ⟨_, failed, _⟩
      · exact .inl ⟨value, instant, rfl, performed, called⟩
      · cases failed
  | error failure =>
      obtain ⟨rfl, rfl⟩ := rest
      refine .inr ⟨_, failure, rfl, ?_, called⟩
      rcases performs with ⟨instant, performed⟩ | ⟨_, _, same⟩
      · exact StoreOp.perform_error performed
      · exact same

theorem closing_query {op : StoreOp}
    (unclaimed : ∀ answer : Except PortError op.Answer, claimOf ⟨.store op, answer⟩ = none)
    (closes : (PortOp.store op).closes = true)
    (moves : ∀ instant database, ∃ change keeps, (op.perform instant database).2.outbox =
      database.outbox.updateEntry entry.id change keeps ∧ Released backoff entry (change entry))
    {outcome : Except SyncError op.Answer} (ran : (query op).Runs journaled before outcome after) :
    Closing backoff entry before (outcome.map fun _ => ()) after := by
  rcases journal_query ran with
    ⟨value, instant, rfl, performed, called⟩ | ⟨error, failure, rfl, same, called⟩
  · obtain ⟨change, keeps, updated, released⟩ := moves instant before.1
    rw [performed] at updated
    exact .moved called (claims_singleton (unclaimed _))
      (List.forall_mem_singleton.mpr fun _ => rfl) updated released
  · exact .stuck called (claims_singleton (unclaimed _))
      ⟨_, List.mem_singleton_self _, closes, rfl⟩ (same ▸ rfl)

theorem passes_query {op : StoreOp}
    (unclaimed : ∀ answer : Except PortError op.Answer, claimOf ⟨.store op, answer⟩ = none)
    (closes : (PortOp.store op).closes = true)
    (keeps : ∀ instant database value after, op.perform instant database = (.ok value, after) →
      after.outbox = database.outbox)
    {outcome : Except SyncError op.Answer} (ran : (query op).Runs journaled before outcome after) :
    (∃ value, outcome = .ok value ∧ Passes before after) ∨
      ∃ error, outcome = .error error ∧ Closing backoff entry before (.error error) after := by
  rcases journal_query ran with
    ⟨value, instant, rfl, performed, called⟩ | ⟨error, failure, rfl, same, called⟩
  · exact .inl ⟨value, rfl, ⟨_, called, claims_singleton (unclaimed _),
      List.forall_mem_singleton.mpr fun _ => rfl⟩, keeps _ _ _ _ performed⟩
  · exact .inr ⟨error, rfl, .stuck called (claims_singleton (unclaimed _))
      ⟨_, List.mem_singleton_self _, closes, rfl⟩ (same ▸ rfl)⟩

namespace OutboxDrainer

theorem surfaceConflict_closing (backoff : BackoffSchedule) (entry : OutboxEntry) {taskId : TaskId}
    (ran : (surfaceConflict taskId).Runs journaled before result after) :
    (result = .ok () ∧ Passes before after) ∨
      ∃ error, result = .error error ∧ Closing backoff entry before (.error error) after := by
  obtain ⟨answer, read, loaded, ran⟩ := ran
  have readPasses : Passes before read := .call loaded rfl nofun
    (congrArg Database.outbox
      (@PortOp.quiet_meaning (.store (.getTask taskId)) rfl _ _ _ loaded.1))
  cases answer with
  | error failure =>
      obtain ⟨rfl, rfl⟩ := ran
      exact .inl ⟨rfl, readPasses⟩
  | ok task =>
      obtain ⟨(now : Timestamp), timed, clocked, ran⟩ := ran
      have timedPasses : Passes before timed := readPasses.trans
        (.call clocked rfl nofun (congrArg Database.outbox clocked.1))
      change Runs journaled ((Program.done now : Action Timestamp).bind _) _ _ _ at ran
      rw [done_bind] at ran
      split at ran
      · obtain ⟨rfl, rfl⟩ := ran
        exact .inl ⟨rfl, timedPasses⟩
      · rename_i conflicted marks
        have closes : (PortOp.store (.saveAll [⟨some task, conflicted, .localEdit⟩] [])).closes =
            true := (Bool.or_false _).trans (Task.markConflicted_surfaces marks)
        rcases @passes_query backoff entry timed after _ (fun _ => rfl) closes (fun instant database value last saved => by
            obtain ⟨tasks, outbox, _, inserted, rfl⟩ :=
              Database.saveAll_ok (StoreOp.perform_saveAll_ok saved)
            cases inserted
            rfl) result ran with ⟨value, rfl, saved⟩ | ⟨error, rfl, closing⟩
        · exact .inl ⟨rfl, timedPasses.trans saved⟩
        · exact .inr ⟨error, rfl, timedPasses.closing closing⟩

theorem markFailed_closing {error : String}
    (ran : (query (.markFailed entry.id error) : Action Unit).Runs journaled before result after) :
    Closing backoff entry before result after := by
  have closing : Closing backoff entry before (result.map fun _ => ()) after := by
    refine @closing_query backoff entry before after (.markFailed entry.id error) (fun _ => rfl) rfl
      (fun instant database => ?_) result ran
    exact ⟨fun entry => { entry with
      status := .failed, lastError := some error, attempts := entry.attempts + 1
      updatedAt := instant }, fun _ => rfl, rfl, rfl, rfl, .inl rfl⟩
  cases result <;> exact closing

theorem reschedule_closing {error : SyncError}
    (ran : (reschedule backoff entry error).Runs journaled before result after) :
    Closing backoff entry before result after := by
  by_cases below : entry.attempts + 1 < backoff.maxAttempts
  · simp only [reschedule, below, ↓reduceIte] at ran
    obtain ⟨(now : Timestamp), timed, clocked, ran⟩ := ran
    have timedPasses : Passes before timed :=
      .call clocked rfl (fun closes => by cases closes) (congrArg Database.outbox clocked.1)
    refine timedPasses.closing ?_
    have closing : Closing backoff entry timed (result.map fun _ => ()) after := by
      refine @closing_query backoff entry timed after (.recordRetry entry.id error.message
        ⟨now.nanos + backoff.delayFor (entry.attempts + 1)⟩) (fun _ => rfl) rfl
        (fun instant database => ?_) result ran
      exact ⟨fun entry => { entry with
        status := .pending, lastError := some error.message, attempts := entry.attempts + 1
        nextAttemptAt := some _, updatedAt := instant }, fun _ => rfl, rfl, rfl, rfl,
        .inr ⟨rfl, rfl, below⟩⟩
    cases result <;> exact closing
  · simp only [reschedule, below, ↓reduceIte] at ran
    exact markFailed_closing ran

/-- Whatever the outcome: the entry is moved on, or a call of the resolution has failed. -/
theorem resolve_closing {outcome : Except SyncError ApplyDisposition}
    (ran : (resolve backoff entry outcome).Runs journaled before result after) :
    Closing backoff entry before result after := by
  unfold resolve at ran
  split at ran
  · obtain ⟨(now : Timestamp), timed, clocked, ran⟩ := ran
    have timedPasses : Passes before timed :=
      .call clocked rfl nofun (congrArg Database.outbox clocked.1)
    refine timedPasses.closing ?_
    change Runs _ ((query (.cacheSyncedAt entry.taskId now .push)).bind fun _ =>
      query (.markSucceeded entry.id)) _ _ _ at ran
    have stamp := fun outcome last => @passes_query backoff entry timed last
      (.cacheSyncedAt entry.taskId now .push) (fun _ => rfl) rfl
      (fun _ _ _ _ performed => by cases performed; rfl) outcome
    rcases runs_bind.mp ran with ⟨_, middle, stamped, marked⟩ | ⟨error, failed, rfl⟩
    · rcases stamp _ _ stamped with ⟨_, _, passes⟩ | ⟨_, failed, _⟩
      · refine passes.closing ?_
        have closing : Closing backoff entry middle (result.map fun _ => ()) after := by
          refine @closing_query backoff entry middle after (.markSucceeded entry.id) (fun _ => rfl)
            rfl (fun instant database => ?_) result marked
          exact ⟨fun entry => { entry with
            status := .succeeded, lastError := none, updatedAt := instant }, fun _ => rfl, rfl, rfl,
            rfl, .inl rfl⟩
        cases result <;> exact closing
      · cases failed
    · rcases stamp _ _ failed with ⟨_, failed, _⟩ | ⟨_, same, closing⟩
      · cases failed
      · cases same
        exact closing
  · rcases runs_bind.mp ran with ⟨_, middle, surfaced, marked⟩ | ⟨error, failed, rfl⟩
    · rcases surfaceConflict_closing backoff entry surfaced with ⟨_, passes⟩ | ⟨_, failed, _⟩
      · exact passes.closing (markFailed_closing marked)
      · cases failed
    · rcases surfaceConflict_closing backoff entry failed with ⟨failed, _⟩ | ⟨_, same, closing⟩
      · cases failed
      · cases same
        exact closing
  · exact reschedule_closing ran
  · exact reschedule_closing ran

end OutboxDrainer

end Resolution

namespace OutboxDrainer

theorem enqueues_applies : Enqueues PortOp.applies :=
  ⟨fun _ => .inl, trivial, trivial, fun entry _ => .inr (.inl ⟨entry, rfl⟩)⟩

theorem works_applies : Works PortOp.applies := by
  refine ⟨⟨fun _ => .inl rfl, fun _ _ => trivial, trivial, fun write applied => ?_⟩,
    fun id expected => .inr (.inr (.inl ⟨id, expected, rfl⟩))⟩
  refine .inr (.inr (.inr ⟨write, rfl, Bool.eq_false_iff.mpr fun surfaces => ?_⟩))
  obtain ⟨flipped, was⟩ := Bool.and_eq_true_iff.mp surfaces
  obtain ⟨basis, basisEq, conflicted⟩ := applied.2 (of_decide_eq_true flipped)
  rw [basisEq] at was
  exact of_decide_eq_true was conflicted

theorem apply_applies (entry : OutboxEntry) : (apply entry).Every PortOp.applies :=
  apply_every works_applies enqueues_applies entry fun _ _ => trivial

inductive Turn (backoff : BackoffSchedule) (before : Journal) (entry : OutboxEntry)
    (closing : Except SyncError Unit) (after : Journal) : Prop
  | turn {claimed applied : Journal} {outcome : Except SyncError ApplyDisposition}
      (claim : Claim before entry claimed)
      (applies : (apply entry).Runs journaled claimed outcome applied)
      (closes : Closing backoff entry applied closing after)

inductive Idles (before : Journal) : Except SyncError Unit → Journal → Prop
  | drained {now : Timestamp} {after : Journal} (same : after.1 = before.1)
      (called : after.2 = before.2 ++ [⟨.now, now⟩, ⟨.store (.claimNextEligible now), .ok none⟩]) :
      Idles before (.ok ()) after
  | refused {now : Timestamp} {after : Journal} {error : SyncError} {failure : PortError}
      (same : after.1 = before.1)
      (called : after.2 = before.2 ++
        [⟨.now, now⟩, ⟨.store (.claimNextEligible now), .error failure⟩]) :
      Idles before (.error error) after

/-- The claim loop is turns until nothing is handed out or a resolution fails. -/
theorem runs_drainLoop {backoff : BackoffSchedule} {rounds : Nat} {before after : Journal}
    {result : Except SyncError Unit}
    (ran : (drainLoop backoff (rounds + 1)).Runs journaled before result after) :
    Idles before result after ∨ ∃ entry closing middle, Turn backoff before entry closing middle ∧
      ((closing = .ok () ∧ (drainLoop backoff rounds).Runs journaled middle result after) ∨
        (∃ error, closing = .error error) ∧ result = closing ∧ after = middle) := by
  obtain ⟨(now : Timestamp), timed, ⟨stayed, clocked⟩, ran⟩ := ran
  change Runs _ ((query (.claimNextEligible now)).bind _) _ _ _ at ran
  rcases runs_bind.mp ran with ⟨answer, claimed, asked, rest⟩ | ⟨error, failed, rfl⟩
  · rcases journal_query asked with ⟨value, instant, same, performed, called⟩ | ⟨_, _, failed, _⟩
    · cases same
      rw [clocked, List.append_assoc] at called
      dsimp only [StoreOp.perform] at performed
      obtain ⟨found, flipped⟩ := Prod.mk.inj performed
      rw [stayed] at found flipped
      cases answer with
      | none =>
          obtain ⟨rfl, rfl⟩ := rest
          refine .inl (.drained ?_ called)
          rw [← flipped]
          exact congrArg (StoreOp.overOutbox before.1)
            (OutboxTable.claimNextEligible_none (Except.ok.inj found))
      | some entry =>
          change Runs _ ((apply entry).attempt.bind fun outcome =>
            (resolve backoff entry outcome).bind fun _ => drainLoop backoff rounds) _ _ _ at rest
          have claim : Claim before entry claimed :=
            .claimed (Except.ok.inj found) flipped.symm called
          rcases runs_bind.mp rest with ⟨outcome, applied, attempted, rest⟩ | ⟨_, failed, _⟩
          · obtain ⟨inner, applies, same⟩ := runs_attempt.mp attempted
            cases same
            rcases runs_bind.mp rest with ⟨_, middle, resolved, rest⟩ | ⟨error, failed, rfl⟩
            · exact .inr ⟨entry, .ok (), middle, .turn claim applies (resolve_closing resolved),
                .inl ⟨rfl, rest⟩⟩
            · exact .inr ⟨entry, .error error, after, .turn claim applies (resolve_closing failed),
                .inr ⟨⟨error, rfl⟩, rfl, rfl⟩⟩
          · obtain ⟨_, _, failed⟩ := runs_attempt.mp failed
            cases failed
    · cases failed
  · rcases journal_query failed with ⟨_, _, failed, _⟩ | ⟨_, failure, same, kept, called⟩
    · cases failed
    · cases same
      rw [clocked, List.append_assoc] at called
      exact .inl (.refused (kept.trans stayed) called)

end OutboxDrainer

end RepoLink
