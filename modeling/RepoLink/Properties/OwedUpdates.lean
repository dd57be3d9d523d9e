import RepoLink.Properties.Rebaseline
import RepoLink.Properties.UpdateAddress
import RepoLink.TaskService.UpdateCalls

/-!
Whether a dirty task has an entry that will push it. An update is planned when an edit dirties a
clean task; a rollback that leaves the task dirty plans none, and an edit of a dirty copy relies
on an entry that a drain may have settled meanwhile.
-/

namespace RepoLink

open Effects Program KeyedTable

/-- The stored task differs from what its issue was told, and the issue has an address. -/
def Database.dirty (id : TaskId) (database : Database) : Bool :=
  (database.stored id).any fun task => task.sync = .dirtyLocal &&
    !task.diffAgainstBaseline.isEmpty && (database.address task).isSome

def Database.pushing (among : OutboxStatus → Bool) (id : TaskId) (database : Database) : Bool :=
  database.outbox.rows.any fun row => row.entry.pushes id && among row.entry.status

/-- An `UpdateRemote` entry of the task is pending, inflight or dead-lettered. -/
def Database.owed : TaskId → Database → Bool := Database.pushing fun status => status ≠ .succeeded

/-- One is pending or dead-lettered, so no drain is at work on it. -/
def Database.waiting : TaskId → Database → Bool :=
  Database.pushing fun status => status = .pending || status = .failed

def PortOp.saved : PortOp → List TaskWrite
  | .store op => op.writes
  | _ => []

/-- What a call dirties is dirty before, has an entry that waits, or is dirtied by an edit of a
copy that was loaded clean. -/
def Timely (op : PortOp) (before after : Database) : Prop :=
  ∀ record ∈ after.tasks.rows, after.dirty record.id = true →
    before.dirty record.id = true ∨ before.waiting record.id = true ∨
      ∃ write ∈ op.saved, write.task.id = record.id ∧ write.fresh = true

instance (op : PortOp) (before after : Database) : Decidable (Timely op before after) :=
  inferInstanceAs (Decidable (∀ record ∈ after.tasks.rows, _))

def Database.Cleared (id : TaskId) (database : Database) : Prop :=
  database.dirty id = true → database.waiting id = true

structure Routed.Pledged (start : Database) (world : Routed) : Prop where
  settings : world.database.SameSettings start
  held : ∀ number entry, (number, entry) ∈ world.inHand →
    world.database.entry entry.id = some entry ∧ entry.status = .inflight
  apart : ∀ number other entry another, (number, entry) ∈ world.inHand →
    (other, another) ∈ world.inHand → entry.id = another.id → number = other
  owed : ∀ id, world.database.dirty id = true → world.database.owed id = true

/-- The calls of the operations and of a drain: a drain settles only what it holds, and it ends an
update only when the task is clean or has another entry. -/
inductive Lawful (start : Database) (sender : Sender) (world : Routed) : PortOp → Prop
  | calls {op : PortOp} (call : UpdateCall start op) : Lawful start sender world op
  | enqueues (entry : OutboxEntry) : Lawful start sender world (.store (.enqueue entry))
  | clears (id : TaskId) (expected : Option IssueType) :
      Lawful start sender world (.store (.clearIssueTypePending id expected))
  | stamps (id : TaskId) (instant : Timestamp) (source : SyncedSource) :
      Lawful start sender world (.store (.cacheSyncedAt id instant source))
  | claims {number : Nat} (drain : sender = .drain number) (now : Timestamp) :
      Lawful start sender world (.store (.claimNextEligible now))
  | settles {number : Nat} {entry : OutboxEntry} {op : StoreOp} {status : OutboxStatus}
      (drain : sender = .drain number) (mine : (number, entry) ∈ world.inHand)
      (names : op.resolves = some (entry.id, status))
      (cleared : status = .succeeded → entry.mutation.target.isSome = true →
        world.database.Cleared entry.taskId) : Lawful start sender world (.store op)

section Entries

theorem Database.dirty_iff {database : Database} {id : TaskId} : database.dirty id = true ↔
    ∃ task, database.stored id = some task ∧ task.sync = .dirtyLocal ∧
      task.diffAgainstBaseline.isEmpty = false ∧ (database.address task).isSome = true := by
  simp [dirty, Option.any_eq_true, and_assoc]

theorem Database.pushing_iff {among : OutboxStatus → Bool} {database : Database} {id : TaskId} :
    database.pushing among id = true ↔ ∃ key entry, database.entry key = some entry ∧
      entry.pushes id = true ∧ among entry.status = true := by
  simp only [pushing, List.any_eq_true, Bool.and_eq_true]
  constructor
  · rintro ⟨row, member, facts⟩
    exact ⟨row.entry.id, row.entry, OutboxTable.entry_of_row member, facts⟩
  · rintro ⟨key, entry, found, facts⟩
    obtain ⟨row, rowFound, rfl⟩ := Option.map_eq_some_iff.mp found
    exact ⟨row, Table.find_mem rowFound, facts⟩

theorem OutboxTable.claim_alone {outbox : OutboxTable} {now flipAt : Timestamp}
    {key : OutboxEntryId} {entry next : OutboxEntry} (found : outbox.entry key = some entry)
    (was : entry.status = .pending)
    (claimed : (outbox.claimNextEligible now flipAt).2.entry key = some next)
    (is : next.status = .inflight) {other : OutboxEntry} {otherKey : OutboxEntryId}
    (stored : outbox.entry otherKey = some other) (sibling : other.taskId = entry.taskId) :
    other.status ≠ .inflight := by
  have unflipped : outbox.entry key ≠ some next := by
    intro same
    rw [found] at same
    cases same
    rw [was] at is
    cases is
  unfold claimNextEligible at claimed
  split at claimed
  · exact (unflipped claimed).elim
  · rename_i row eligible
    rw [entry_updateEntry] at claimed
    split at claimed
    · rename_i same
      obtain ⟨member, ready⟩ := nextEligible_some eligible
      have rowFound := entry_of_row member
      rw [← same, found] at rowFound
      cases rowFound
      intro inflight
      obtain ⟨otherRow, otherFound, rfl⟩ := Option.map_eq_some_iff.mp stored
      have holds : holdsBack row otherRow = true := by
        simp [holdsBack, sibling, inflight]
      have blocked : outbox.rows.any (holdsBack row) = true :=
        List.any_eq_true.mpr ⟨otherRow, Table.find_mem otherFound, holds⟩
      simp [OutboxTable.eligible, blocked] at ready
    · exact (unflipped claimed).elim

/-- What a lawful call makes of an entry. -/
inductive Fate (sender : Sender) (world : Routed) (op : PortOp) (entry next : OutboxEntry) : Prop
  | same (unchanged : next = entry)
  | claimed {now : Timestamp} (claims : op = .store (.claimNextEligible now))
      (was : entry.status = .pending) (is : next.status = .inflight)
      (alone : ∀ key other, world.database.entry key = some other →
        other.taskId = entry.taskId → other.status ≠ .inflight)
  | settled {number : Nat} (drain : sender = .drain number) (mine : (number, entry) ∈ world.inHand)
      (lets : op.letsGo = true ∧ ∀ answer : op.Answer, claimOf ⟨op, answer⟩ = none)
      (busy : entry.status = .inflight)
      (cleared : next.status = .succeeded → entry.mutation.target.isSome = true →
        world.database.Cleared entry.taskId)

variable {start : Database} {sender : Sender} {before after : Routed} {op : PortOp}
  {answer : op.Answer}

theorem UpdateCall.resolves {op : StoreOp} (call : UpdateCall start (.store op)) :
    op.resolves = none := by
  cases op <;> first | rfl | cases call

/-- No lawful call takes entries away, ends claims or changes a workspace. -/
def StoreOp.lenient : StoreOp → Bool
  | .deletePendingAddItems _ | .requeueOrphanedInflight | .saveWorkspace _ => false
  | _ => true

theorem Lawful.lenient {op : StoreOp} (lawful : Lawful start sender before (.store op)) :
    op.lenient = true := by
  cases lawful with
  | calls call => cases op <;> first | rfl | cases call
  | settles drain mine names cleared => cases op <;> first | rfl | cases names
  | _ => rfl

theorem StoreOp.resolves_lets {op : StoreOp} {names : OutboxEntryId × OutboxStatus}
    (resolves : op.resolves = some names) : (PortOp.store op).letsGo = true ∧
      ∀ answer : (PortOp.store op).Answer, claimOf ⟨.store op, answer⟩ = none := by
  cases op <;> first | exact ⟨rfl, fun _ => rfl⟩ | cases resolves

theorem StoreOp.resolves_writes {op : StoreOp} {names : OutboxEntryId × OutboxStatus}
    (resolves : op.resolves = some names) : op.writes = [] := by
  cases op <;> first | rfl | cases resolves

theorem Lawful.fate (lawful : Lawful start sender before op) (pledged : before.Pledged start)
    (answered : portMeaning op before.database answer after.database) {key : OutboxEntryId}
    {entry : OutboxEntry} (found : before.database.entry key = some entry) :
    ∃ next, after.database.entry key = some next ∧ next.taskId = entry.taskId ∧
      next.mutation = entry.mutation ∧ Fate sender before op entry next := by
  have stays : after.database = before.database → ∃ next, after.database.entry key = some next ∧
      next.taskId = entry.taskId ∧ next.mutation = entry.mutation ∧
      Fate sender before op entry next :=
    fun same => ⟨entry, same ▸ found, rfl, rfl, .same rfl⟩
  cases op with
  | store op =>
      rcases answered with ⟨instant, performed⟩ | ⟨_, _, same⟩
      · obtain ⟨next, nextFound, sameTask, sameMutation, step⟩ :=
          StoreOp.perform_entry performed (fun _ deletes => by cases deletes ▸ lawful.lenient) found
        refine ⟨next, nextFound, sameTask, sameMutation, ?_⟩
        cases step with
        | same unchanged => exact .same unchanged
        | claimed claims was is =>
            subst claims
            have flipped := congrArg Prod.snd performed
            change StoreOp.overOutbox before.database _ = after.database at flipped
            rw [← flipped] at nextFound
            exact .claimed rfl was is fun _ _ =>
              OutboxTable.claim_alone found was nextFound is
        | requeued requeues => cases requeues ▸ lawful.lenient
        | resolved names =>
            have lets := StoreOp.resolves_lets names
            cases lawful with
            | settles drain mine mineNames cleared =>
                rw [names] at mineNames
                obtain ⟨sameId, sameStatus⟩ := Prod.mk.inj (Option.some.inj mineNames)
                obtain ⟨stored, busy⟩ := pledged.held _ _ mine
                rw [← sameId, OutboxTable.entry_id found, found] at stored
                cases stored
                exact .settled drain mine lets busy fun succeeded =>
                  cleared (sameStatus.symm.trans succeeded)
            | calls call => cases names.symm.trans call.resolves
            | _ => cases names
      · exact stays same
  | _ =>
      refine stays ?_
      first | exact answered | exact answered.2

theorem waiting_kept (lawful : Lawful start sender before op) (pledged : before.Pledged start)
    (answered : portMeaning op before.database answer after.database) {id : TaskId}
    (unclaimed : (∀ now, op ≠ .store (.claimNextEligible now)) ∨ ∃ key entry,
      before.database.entry key = some entry ∧ entry.taskId = id ∧ entry.status = .inflight)
    (waiting : before.database.waiting id = true) : after.database.waiting id = true := by
  obtain ⟨key, entry, found, pushes, waits⟩ := Database.pushing_iff.mp waiting
  obtain ⟨next, nextFound, sameTask, sameMutation, fate⟩ := lawful.fate pledged answered found
  refine Database.pushing_iff.mpr ⟨key, next, nextFound, ?_, ?_⟩
  · rw [OutboxEntry.pushes, sameTask, sameMutation]
    exact pushes
  · cases fate with
    | same unchanged => rw [unchanged, waits]
    | claimed claims was is alone =>
        rcases unclaimed with never | ⟨otherKey, other, stored, sibling, inflight⟩
        · exact (never _ claims).elim
        · have mine : entry.taskId = id := by
            simp only [OutboxEntry.pushes, Bool.and_eq_true, decide_eq_true_eq] at pushes
            exact pushes.1
          exact (alone otherKey other stored (sibling.trans mine.symm) inflight).elim
    | settled drain mine lets busy cleared =>
        rw [busy] at waits
        cases waits

theorem owed_of_waiting {database : Database} {id : TaskId} (waiting : database.waiting id = true) :
    database.owed id = true := by
  obtain ⟨key, entry, found, pushes, waits⟩ := Database.pushing_iff.mp waiting
  refine Database.pushing_iff.mpr ⟨key, entry, found, pushes, decide_eq_true fun ended => ?_⟩
  rw [ended] at waits
  cases waits

end Entries

section Steps

theorem OutboxTable.unsuppressed {entry : OutboxEntry}
    (target : entry.mutation.target.isSome = true) (outbox : OutboxTable) :
    outbox.suppressed entry = false := by
  unfold suppressed
  cases mutation : entry.mutation with
  | updateRemote => rfl
  | _ =>
      rw [mutation] at target
      cases target

theorem Database.entry_insertEntries_mem {entry : OutboxEntry}
    (target : entry.mutation.target.isSome = true) :
    ∀ {entries : List OutboxEntry} {outbox inserted : OutboxTable},
      insertEntries entries outbox = .ok inserted → entry ∈ entries →
      inserted.entry entry.id = some entry := by
  intro entries
  induction entries with
  | nil => exact fun _ member => (List.not_mem_nil member).elim
  | cons first rest ih =>
      intro outbox inserted done member
      obtain ⟨middle, inserts, later⟩ := insertEntries_cons_ok done
      rcases List.mem_cons.mp member with rfl | member
      · rw [OutboxTable.insertOutboxInTx, OutboxTable.unsuppressed target,
          if_neg Bool.false_ne_true] at inserts
        refine entry_insertEntries_kept later ?_
        rw [OutboxTable.entry_insertRow inserts, if_pos rfl]
      · exact ih later member

theorem TaskRecord.load_write_address (database : Database) (instant : Timestamp)
    (source : SnapshotSource) (task : Task) (stored : Option TaskRecord) :
    database.address (write instant source task stored).load = database.address task := by
  cases stored <;> rfl

variable {start : Database} {sender : Sender} {before after : Routed} {op : PortOp}
  {answer : op.Answer}

theorem Lawful.settings (lawful : Lawful start sender before op) (pledged : before.Pledged start)
    (answered : portMeaning op before.database answer after.database) :
    after.database.SameSettings start := by
  have stays : after.database = before.database → after.database.SameSettings start :=
    fun same => same ▸ pledged.settings
  cases op with
  | store op =>
      rcases answered with ⟨instant, performed⟩ | ⟨_, _, same⟩
      · obtain ⟨origins, instances⟩ := StoreOp.perform_config performed
        have workspaces := StoreOp.perform_workspaces performed fun _ saves => by
          cases saves ▸ lawful.lenient
        exact ⟨workspaces.trans pledged.settings.workspaces,
          origins.trans pledged.settings.origins, instances.trans pledged.settings.instances⟩
      · exact stays same
  | _ =>
      refine stays ?_
      first | exact answered | exact answered.2

theorem Lawful.saved (lawful : Lawful start sender before op) {write : TaskWrite}
    (member : write ∈ op.saved) : ∃ entries, op = .store (.saveAll [write] entries) ∧
      (write.fresh = true → write.task.sync = .dirtyLocal →
        (start.address write.task).isSome = true →
        ∃ entry ∈ entries, entry.pushes write.task.id = true ∧ entry.status = .pending) := by
  cases lawful with
  | calls call =>
      cases op with
      | store op =>
          cases op with
          | saveAll writes entries =>
              obtain ⟨only, rfl, pushes⟩ := call
              cases List.mem_singleton.mp member
              exact ⟨entries, rfl, pushes⟩
          | _ => cases member
      | _ => cases member
  | settles drain mine names cleared =>
      rw [PortOp.saved, StoreOp.resolves_writes names] at member
      cases member
  | _ => cases member

/-- What is dirty after a call was dirty before it, or has an entry that waits. -/
theorem Timely.dirty (timely : Timely op before.database after.database)
    (lawful : Lawful start sender before op) (pledged : before.Pledged start)
    (answered : portMeaning op before.database answer after.database) {id : TaskId}
    (dirty : after.database.dirty id = true) : before.database.dirty id = true ∨
      before.database.waiting id = true ∨ after.database.waiting id = true := by
  obtain ⟨task, stored, sync, differs, addressed⟩ := Database.dirty_iff.mp dirty
  obtain ⟨record, recordFound, rfl⟩ := Option.map_eq_some_iff.mp stored
  have sameId : record.id = id := Table.find_key recordFound
  rcases timely record (Table.find_mem recordFound) (sameId ▸ dirty) with
    was | waits | ⟨write, member, written, fresh⟩
  · exact .inl (sameId ▸ was)
  · exact .inr (.inl (sameId ▸ waits))
  · have settings := lawful.settings pledged answered
    obtain ⟨entries, rfl, pushes⟩ := lawful.saved member
    rcases answered with ⟨instant, performed⟩ | ⟨_, _, same⟩
    · cases answer with
      | error error => exact .inl (StoreOp.perform_error performed ▸ dirty)
      | ok value =>
          have saved := StoreOp.perform_saveAll_ok performed
          have loaded := Database.saveAll_single saved id
          rw [if_pos (sameId.symm.trans written.symm),
            show after.database.record id = some record from recordFound] at loaded
          cases loaded
          have columns := TaskRecord.write_row_columns instant write.source write.task
            (before.database.record write.task.id)
          rw [TaskRecord.load_write_address, settings.address] at addressed
          obtain ⟨entry, queued, pushing, pending⟩ :=
            pushes fresh (columns.1.symm.trans sync) addressed
          obtain ⟨tasks, outbox, _, inserted, afterEq⟩ := Database.saveAll_ok saved
          have target : entry.mutation.target.isSome = true := (Bool.and_eq_true_iff.mp pushing).2
          have queuedAt := Database.entry_insertEntries_mem target inserted queued
          refine .inr (.inr (Database.pushing_iff.mpr ⟨entry.id, entry, ?_, ?_, ?_⟩))
          · rw [afterEq]
            exact queuedAt
          · rw [← written.trans sameId]
            exact pushing
          · rw [pending]
            rfl
    · exact .inl (same ▸ dirty)

theorem OutboxTable.claimed_pending {outbox : OutboxTable} {now flipAt : Timestamp}
    {entry : OutboxEntry} (claim : (outbox.claimNextEligible now flipAt).1 = some entry) :
    ∃ stored, outbox.entry entry.id = some stored ∧ stored.status = .pending := by
  unfold claimNextEligible at claim
  split at claim
  · cases claim
  · rename_i row eligible
    cases claim
    obtain ⟨member, ready⟩ := nextEligible_some eligible
    exact ⟨row.entry, entry_of_row member, eligible_pending ready⟩

theorem claimed_stored (answered : portMeaning op before.database answer after.database)
    {entry : OutboxEntry} (claims : claimOf ⟨op, answer⟩ = some entry) :
    after.database.entry entry.id = some entry ∧ entry.status = .inflight ∧
      ∃ stored, before.database.entry entry.id = some stored ∧ stored.status = .pending := by
  cases op with
  | store op =>
      cases op with
      | claimNextEligible now =>
          rcases answered with ⟨instant, performed⟩ | ⟨_, failed, _⟩
          · obtain ⟨answerEq, afterEq⟩ := Prod.mk.inj performed
            subst answerEq
            obtain ⟨stored, inflight⟩ := OutboxTable.entry_claimed claims
            exact ⟨afterEq ▸ stored, inflight, OutboxTable.claimed_pending claims⟩
          · rw [failed] at claims
            cases claims
      | _ => cases claims
  | _ => cases claims

theorem holds_lets {made : Call ports} {inHand : List (Nat × OutboxEntry)} {number other : Nat}
    {entry : OutboxEntry} (lets : made.1.letsGo = true) (claimless : claimOf made = none)
    (held : (other, entry) ∈ (Sender.drain number).holds made inHand) : other ≠ number := by
  unfold Sender.holds at held
  split at held
  · cases held
  · rename_i same _
    cases same
    rw [claimless, if_pos lets] at held
    exact of_decide_eq_true (List.mem_filter.mp held).2
  · rename_i same _
    cases same

theorem Routed.Pledged.step (pledged : before.Pledged start)
    (lawful : Lawful start sender before op)
    (timely : Timely op before.database after.database)
    (answered : portMeaning op before.database answer after.database)
    (held : after.inHand = sender.holds ⟨op, answer⟩ before.inHand) : after.Pledged start where
  settings := lawful.settings pledged answered
  held := by
    intro number entry inHand
    rw [held] at inHand
    rcases holds_source inHand with earlier | ⟨_, claims⟩
    · obtain ⟨found, busy⟩ := pledged.held number entry earlier
      obtain ⟨next, nextFound, _, _, fate⟩ := lawful.fate pledged answered found
      cases fate with
      | same unchanged => exact ⟨unchanged ▸ nextFound, busy⟩
      | claimed claims was =>
          rw [busy] at was
          cases was
      | settled drain mine lets =>
          rw [drain] at inHand
          exact absurd (pledged.apart _ _ _ _ earlier mine rfl)
            (holds_lets lets.1 (lets.2 answer) inHand)
    · exact ⟨(claimed_stored answered claims).1, (claimed_stored answered claims).2.1⟩
  apart := by
    intro number other entry another inHand otherInHand sameId
    rw [held] at inHand otherInHand
    have claimedAnew : ∀ {number entry another}, (number, entry) ∈ before.inHand →
        claimOf ⟨op, answer⟩ = some another → entry.id ≠ another.id := by
      intro number entry another earlier claims same
      obtain ⟨found, busy⟩ := pledged.held number entry earlier
      obtain ⟨_, _, stored, storedFound, pending⟩ := claimed_stored answered claims
      rw [same, storedFound] at found
      cases found
      rw [busy] at pending
      cases pending
    rcases holds_source inHand with earlier | ⟨sender, claims⟩
    · rcases holds_source otherInHand with otherEarlier | ⟨_, otherClaims⟩
      · exact pledged.apart _ _ _ _ earlier otherEarlier sameId
      · exact absurd sameId (claimedAnew earlier otherClaims)
    · rcases holds_source otherInHand with otherEarlier | ⟨otherSender, _⟩
      · exact absurd sameId.symm (claimedAnew otherEarlier claims)
      · exact Sender.drain.inj (sender.symm.trans otherSender)
  owed := by
    intro id dirty
    have origin := timely.dirty lawful pledged answered dirty
    have owedBefore : before.database.owed id = true ∨ after.database.waiting id = true := by
      rcases origin with was | waits | new
      · exact .inl (pledged.owed id was)
      · exact .inl (owed_of_waiting waits)
      · exact .inr new
    rcases owedBefore with owed | new
    · obtain ⟨key, entry, found, pushes, unpushed⟩ := Database.pushing_iff.mp owed
      obtain ⟨next, nextFound, sameTask, sameMutation, fate⟩ := lawful.fate pledged answered found
      by_cases ended : next.status = .succeeded
      · cases fate with
        | same unchanged =>
            rw [← unchanged, ended] at unpushed
            cases unpushed
        | claimed claims was is =>
            rw [is] at ended
            cases ended
        | settled drain mine lets busy cleared =>
            -- a drain has ended this one, so another waits if the task is dirty
            obtain ⟨sameId, target⟩ := Bool.and_eq_true_iff.mp pushes
            obtain rfl := of_decide_eq_true sameId
            have unclaimed : ∀ now, op ≠ .store (.claimNextEligible now) := by
              rintro now rfl
              cases lets.2 (.ok (some entry))
            have keeps : before.database.waiting entry.taskId = true →
                after.database.waiting entry.taskId = true :=
              waiting_kept lawful pledged answered (.inl unclaimed)
            rcases origin with was | waits | new
            · exact owed_of_waiting (keeps (cleared ended target was))
            · exact owed_of_waiting (keeps waits)
            · exact owed_of_waiting new
      · refine Database.pushing_iff.mpr ⟨key, next, nextFound, ?_, decide_eq_true ended⟩
        rw [OutboxEntry.pushes, sameTask, sameMutation]
        exact pushes
    · exact owed_of_waiting new

theorem cleared_step (pledged : before.Pledged start) (lawful : Lawful start sender before op)
    (timely : Timely op before.database after.database)
    (answered : portMeaning op before.database answer after.database) {number : Nat}
    {entry : OutboxEntry} (mine : (number, entry) ∈ before.inHand)
    (cleared : before.database.Cleared entry.taskId) : after.database.Cleared entry.taskId := by
  intro dirty
  obtain ⟨found, busy⟩ := pledged.held number entry mine
  have keeps := waiting_kept lawful pledged answered (.inr ⟨_, entry, found, rfl, busy⟩)
  rcases timely.dirty lawful pledged answered dirty with was | waits | new
  · exact keeps (cleared was)
  · exact keeps waits
  · exact new

theorem holds_kept (lawful : Lawful start sender before op) {number : Nat} {entry : OutboxEntry}
    (mine : (number, entry) ∈ before.inHand) (keeps : sender ≠ .drain number ∨ op.letsGo = false) :
    (number, entry) ∈ sender.holds ⟨op, answer⟩ before.inHand := by
  unfold Sender.holds
  split
  · rename_i same
    cases same
    cases lawful.lenient
  · rename_i drain _
    refine List.mem_append_right _ ?_
    rcases keeps with others | keeps
    · split
      · exact List.mem_filter.mpr ⟨mine, decide_eq_true fun same => others (same ▸ rfl)⟩
      · exact mine
    · rw [keeps, if_neg Bool.false_ne_true]
      exact mine
  · exact mine

end Steps

/-- What the others leave of what a drain holds. -/
def StaysHeld (number : Nat) (before after : Routed) : Prop :=
  ∀ entry, (number, entry) ∈ before.inHand → (number, entry) ∈ after.inHand ∧
    (before.database.Cleared entry.taskId → after.database.Cleared entry.taskId)

def pledging (start : Database) (admits : PortOp → Database → Database → Prop) :
    Discipline ports Routed Sender where
  meaning sender op before answer after := admits op before.database after.database ∧
    portMeaning op before.database answer after.database ∧
    after.inHand = sender.holds ⟨op, answer⟩ before.inHand
  inv := Routed.Pledged start
  rely sender before after := ∀ number, sender = .drain number → StaysHeld number before after
  guarantee sender before after :=
    ∀ number, sender ≠ .drain number → StaysHeld number before after
  must _ _ _ := True

section Drains

variable {start : Database} {sender : Sender} {number : Nat} {entry : OutboxEntry}

theorem pledging_step {op : PortOp} {before after : Routed} {answer : op.Answer}
    (pledged : before.Pledged start) (lawful : Lawful start sender before op)
    (answered : (pledging start Timely).meaning sender op before answer after) :
    after.Pledged start ∧ (pledging start Timely).guarantee sender before after := by
  obtain ⟨timely, performed, held⟩ := answered
  refine ⟨pledged.step lawful timely performed held, fun number others entry mine => ⟨?_, ?_⟩⟩
  · rw [held]
    exact holds_kept lawful mine (.inl others)
  · exact cleared_step pledged lawful timely performed mine

/-- The calls of a drain that settle nothing. -/
def PortOp.working (start : Database) (op : PortOp) : Prop :=
  (∀ number world, Lawful start (.drain number) world op) ∧ op.letsGo = false

theorem StaysHeld.trans {before middle after : Routed} (first : StaysHeld number before middle)
    (second : StaysHeld number middle after) : StaysHeld number before after := by
  intro entry mine
  obtain ⟨kept, cleared⟩ := first entry mine
  exact ⟨(second entry kept).1, fun was => (second entry kept).2 (cleared was)⟩

theorem staysHeld_steps {before after : Routed}
    (steps : Relation.ReflTransGen ((pledging start Timely).rely (.drain number)) before after) :
    StaysHeld number before after := by
  induction steps with
  | refl => exact fun _ mine => ⟨mine, id⟩
  | tail _ last ih => exact ih.trans (last number rfl)

theorem working_kept {ε α : Type} {program : Service ε α} {world : Routed}
    (working : program.Every (PortOp.working start)) :
    program.Safe (pledging start Timely) (.drain number)
      (fun _ later => StaysHeld number world later) world := by
  refine Safe.keeping ?_ ?_ working fun _ mine => ⟨mine, id⟩
  · exact fun before after others kept => kept.trans (others number rfl)
  · rintro op ⟨lawful, keeps⟩ before pledged kept
    refine ⟨trivial, fun answer after answered => ?_⟩
    obtain ⟨pledgedAfter, guaranteed⟩ := pledging_step pledged (lawful number before) answered
    refine ⟨pledgedAfter, guaranteed, kept.trans fun entry mine => ⟨?_, ?_⟩⟩
    · rw [answered.2.2]
      exact holds_kept (lawful number before) mine (.inr keeps)
    · exact cleared_step pledged (lawful number before) answered.1 answered.2.1 mine

theorem working_then {ε α β : Type} {program : Service ε α} {next : α → Service ε β}
    {world : Routed} (pledged : world.Pledged start) (working : program.Every (PortOp.working start))
    (rest : ∀ value later, later.Pledged start → StaysHeld number world later →
      (next value).Safe (pledging start Timely) (.drain number) (fun _ _ => True) later) :
    (program.bind next).Safe (pledging start Timely) (.drain number) (fun _ _ => True) world := by
  refine Safe.bind pledged ((working_kept working).mono fun result later laterPledged kept => ?_)
  cases result with
  | ok value => exact rest value later laterPledged kept
  | error error => exact fun _ _ _ => trivial

theorem working_quiet {op : PortOp} (quiet : op.quiet) (keeps : op.letsGo = false) :
    op.working start := ⟨fun _ _ => .calls (.ofQuiet quiet), keeps⟩

theorem drainWrite_stale {write : TaskWrite} (drains : OutboxDrainer.DrainWrite write)
    (fresh : write.fresh = true) : write.task.sync ≠ .dirtyLocal := by
  cases drains with
  | confirmed admitted confirms =>
      rw [Task.confirm_own_diff confirms]
      decide
  | attached task itemId =>
      rw [show task.sync = .synced from TaskWrite.fresh_clean fresh rfl]
      decide
  | converted task remote =>
      rw [show task.sync = .synced from TaskWrite.fresh_clean fresh rfl]
      decide
  | surfaced marks =>
      have conflicted := (Bool.and_eq_true_iff.mp (Task.markConflicted_surfaces marks)).1
      rw [of_decide_eq_true conflicted]
      decide

theorem working_save {write : TaskWrite} (drains : OutboxDrainer.DrainWrite write) :
    PortOp.working start (.store (.saveAll [write] [])) :=
  ⟨fun _ _ => .calls ⟨write, rfl, fun fresh dirty =>
    absurd dirty (drainWrite_stale drains fresh)⟩, rfl⟩

theorem settle_safe {op : StoreOp} {status : OutboxStatus} {world : Routed}
    (names : op.resolves = some (entry.id, status)) (mine : (number, entry) ∈ world.inHand)
    (cleared : status = .succeeded → entry.mutation.target.isSome = true →
      world.database.Cleared entry.taskId) :
    (query op : Service SyncError op.Answer).Safe (pledging start Timely) (.drain number)
      (fun _ _ => True) world := by
  intro later steps pledged
  obtain ⟨kept, stays⟩ := staysHeld_steps steps entry mine
  refine ⟨trivial, fun answer after answered => ?_⟩
  have lawful : Lawful start (.drain number) later (.store op) :=
    .settles rfl kept names fun succeeded target => stays (cleared succeeded target)
  obtain ⟨pledgedAfter, guaranteed⟩ := pledging_step pledged lawful answered
  refine ⟨pledgedAfter, guaranteed, ?_⟩
  cases answer <;> exact fun _ _ _ => trivial

theorem works_working : OutboxDrainer.Works (PortOp.working start) :=
  ⟨⟨fun _ => working_quiet rfl rfl, fun _ _ => working_quiet trivial rfl, working_quiet trivial rfl,
    fun _ applied => working_save applied.1⟩, fun _ _ => ⟨fun _ _ => .clears _ _, rfl⟩⟩

theorem enqueues_working : OutboxDrainer.Enqueues (PortOp.working start) := by
  refine ⟨fun op reads => working_quiet reads ?_, working_quiet trivial rfl,
    working_quiet trivial rfl, fun entry _ => ⟨fun _ _ => .enqueues entry, rfl⟩⟩
  cases op <;> first | rfl | cases reads

theorem apply_working (entry : OutboxEntry) :
    (OutboxDrainer.apply entry).Every (PortOp.working start) :=
  OutboxDrainer.apply_every works_working enqueues_working entry fun _ _ =>
    working_quiet trivial rfl

theorem surfaceConflict_working (taskId : TaskId) :
    (OutboxDrainer.surfaceConflict taskId).Every (PortOp.working start) := by
  unfold OutboxDrainer.surfaceConflict
  refine every_bind (every_callPort (working_quiet rfl rfl)) fun answer => ?_
  split
  · trivial
  · refine every_bind (every_clock (working_quiet trivial rfl)) fun now => ?_
    split
    · trivial
    · rename_i marks
      exact every_query (working_save (.surfaced marks))

def Stamps (number : Nat) (entry : OutboxEntry) (result : Except SyncError ApplyDisposition)
    (world : Routed) : Prop :=
  (number, entry) ∈ world.inHand ∧ (result = .ok .stamped → world.database.Cleared entry.taskId)

theorem Stamps.stays {world : Routed} {result : Except SyncError ApplyDisposition}
    (stamps : Stamps number entry result world) : ∀ later,
      Relation.ReflTransGen ((pledging start Timely).rely (.drain number)) world later →
      (pledging start Timely).inv later → Stamps number entry result later := by
  intro later steps _
  obtain ⟨kept, cleared⟩ := staysHeld_steps steps entry stamps.1
  exact ⟨kept, fun stamped => cleared (stamps.2 stamped)⟩

theorem sendUpdate_unstamped (update : Option RemoteTaskUpdate) :
    (OutboxDrainer.sendUpdate update).Yields fun early => early ≠ some .stamped := by
  unfold OutboxDrainer.sendUpdate
  split
  · exact nofun
  · refine (yields_any _).bind fun answer _ => ?_
    split
    · exact nofun
    · split <;> exact nofun

theorem safe_confirm {task : Task} {world : Routed} (pledged : world.Pledged start)
    (mine : (number, entry) ∈ world.inHand) (sameId : task.id = entry.taskId)
    (admitted : OutboxDrainer.confirmable task.sync = true) :
    (do
      let now ← clock
      let confirmed ← settled (task.confirmSyncedFields now .push task.diffAgainstBaseline).attempt
      OutboxDrainer.saveTask task confirmed .push
      return .stamped : OutboxDrainer.Action ApplyDisposition).Safe (pledging start Timely)
        (.drain number) (Stamps number entry) world := by
  refine Safe.bind pledged ((working_kept (every_clock (working_quiet trivial rfl))).mono ?_)
  intro result timed timedPledged kept
  have held := (kept entry mine).1
  obtain error | now : Except SyncError Timestamp := result
  · exact Stamps.stays ⟨held, nofun⟩
  dsimp only
  cases confirms : (task.confirmSyncedFields now .push task.diffAgainstBaseline).attempt with
  | error error => exact Stamps.stays ⟨held, nofun⟩
  | ok confirmed =>
      intro later steps laterPledged
      refine ⟨trivial, fun answer saved answered => ?_⟩
      have lawful : Lawful start (.drain number) later
          (.store (.saveAll [⟨some task, confirmed, .push⟩] [])) :=
        (working_save (.confirmed admitted confirms)).1 number later
      obtain ⟨savedPledged, guaranteed⟩ := pledging_step laterPledged lawful answered
      refine ⟨savedPledged, guaranteed, ?_⟩
      have heldStill : (number, entry) ∈ saved.inHand := by
        rw [answered.2.2]
        exact holds_kept lawful (staysHeld_steps steps entry held).1 (.inr rfl)
      cases answer with
      | error error => exact Stamps.stays ⟨heldStill, nofun⟩
      | ok value =>
          refine Stamps.stays ⟨heldStill, fun _ dirty => ?_⟩
          rcases answered.2.1 with ⟨instant, performed⟩ | ⟨_, failed, _⟩
          · have found :=
              Database.saveAll_single (StoreOp.perform_saveAll_ok performed) entry.taskId
            obtain ⟨_, _, _, frame⟩ := Task.confirmSyncedFields_frame confirms
            have confirmedId : entry.taskId = confirmed.id := by rw [frame, ← sameId]
            rw [if_pos confirmedId] at found
            obtain ⟨other, stored, sync, _⟩ := Database.dirty_iff.mp dirty
            rw [Database.stored, found, Option.map_some] at stored
            cases stored
            have columns := TaskRecord.write_row_columns instant .push confirmed
              (later.database.record confirmed.id)
            cases (sync.symm.trans (columns.1.trans (Task.confirm_own_diff confirms)))
          · cases failed

/-- An update is stamped only when its task was not dirty, or has been confirmed. -/
theorem stamped_cleared {world : Routed} (canonicalRepo remoteId : String)
    (mine : (number, entry) ∈ world.inHand) :
    (OutboxDrainer.applyUpdateRemote entry.taskId canonicalRepo remoteId).Safe
      (pledging start Timely) (.drain number) (Stamps number entry) world := by
  intro later steps laterPledged
  refine ⟨trivial, fun answer loaded answered => ?_⟩
  have reads : Lawful start (.drain number) later (.store (.getTask entry.taskId)) :=
    .calls (.ofQuiet rfl)
  obtain ⟨pledged, guaranteed⟩ := pledging_step laterPledged reads answered
  refine ⟨pledged, guaranteed, ?_⟩
  have held : (number, entry) ∈ loaded.inHand := by
    rw [answered.2.2]
    exact holds_kept reads (staysHeld_steps steps entry mine).1 (.inr rfl)
  obtain error | task : Except PortError Task := answer
  · exact Stamps.stays ⟨held, nofun⟩
  have stored : loaded.database.stored entry.taskId = some task := by
    rcases answered.2.1 with ⟨instant, performed⟩ | ⟨_, failed, _⟩
    · rw [StoreOp.perform_answer rfl] at performed
      obtain ⟨found, same⟩ := Prod.mk.inj performed
      exact same ▸ Database.getTask_ok found
    · cases failed
  change Safe _ _ (if !OutboxDrainer.confirmable task.sync then .done ApplyDisposition.stamped
    else (OutboxDrainer.sendUpdate _).bind fun early => _) _ _
  split
  · rename_i settled
    refine Stamps.stays ⟨held, fun _ dirty => ?_⟩
    obtain ⟨other, found, sync, _⟩ := Database.dirty_iff.mp dirty
    rw [stored] at found
    cases found
    simp [OutboxDrainer.confirmable, sync] at settled
  · rename_i admitted
    have sends : (OutboxDrainer.sendUpdate (buildUpdateFromPatch task.diffAgainstBaseline
        canonicalRepo remoteId)).Every (PortOp.working start) :=
      OutboxDrainer.sendUpdate_every fun _ _ => working_quiet trivial rfl
    refine Safe.bind pledged (((working_kept sends).yielding (sendUpdate_unstamped _)).mono ?_)
    rintro result sent sentPledged ⟨kept, unstamped⟩
    have heldStill := (kept entry held).1
    cases result with
    | error error => exact Stamps.stays ⟨heldStill, nofun⟩
    | ok early =>
        cases early with
        | some disposition =>
            refine Stamps.stays ⟨heldStill, fun stamped => ?_⟩
            exact (unstamped _ rfl (congrArg some (Except.ok.inj stamped))).elim
        | none =>
            exact safe_confirm sentPledged heldStill (Database.stored_id stored)
              (by simpa using admitted)

theorem safe_applying {world : Routed} (mine : (number, entry) ∈ world.inHand) :
    (OutboxDrainer.apply entry).Safe (pledging start Timely) (.drain number) (fun result later =>
      (number, entry) ∈ later.inHand ∧ (result = .ok .stamped →
        entry.mutation.target.isSome = true → later.database.Cleared entry.taskId)) world := by
  cases target : entry.mutation.target with
  | none =>
      refine (working_kept (apply_working entry)).mono fun result later _ kept => ?_
      exact ⟨(kept entry mine).1, nofun⟩
  | some coords =>
      have updates : ∃ canonicalRepo remoteId, OutboxDrainer.apply entry =
          OutboxDrainer.applyUpdateRemote entry.taskId canonicalRepo remoteId := by
        unfold OutboxDrainer.apply
        cases mutation : entry.mutation with
        | updateRemote canonicalRepo remoteId => exact ⟨canonicalRepo, remoteId, rfl⟩
        | _ =>
            rw [mutation] at target
            cases target
      obtain ⟨canonicalRepo, remoteId, same⟩ := updates
      rw [same]
      exact (stamped_cleared canonicalRepo remoteId mine).mono fun result later _ facts =>
        ⟨facts.1, fun stamped _ => facts.2 stamped⟩

theorem safe_reschedule {world : Routed} (pledged : world.Pledged start)
    (mine : (number, entry) ∈ world.inHand) (backoff : BackoffSchedule) (error : SyncError) :
    (OutboxDrainer.reschedule backoff entry error).Safe (pledging start Timely) (.drain number)
      (fun _ _ => True) world := by
  by_cases below : entry.attempts + 1 < backoff.maxAttempts
  · simp only [OutboxDrainer.reschedule, below, ↓reduceIte]
    refine working_then pledged (every_clock (working_quiet trivial rfl)) fun now later _ kept => ?_
    exact settle_safe rfl (kept entry mine).1 fun ended => absurd ended (by decide)
  · simp only [OutboxDrainer.reschedule, below, ↓reduceIte]
    exact settle_safe rfl mine fun ended => absurd ended (by decide)

theorem safe_resolve {world : Routed} (pledged : world.Pledged start)
    (mine : (number, entry) ∈ world.inHand) (backoff : BackoffSchedule)
    {outcome : Except SyncError ApplyDisposition}
    (cleared : outcome = .ok .stamped → entry.mutation.target.isSome = true →
      world.database.Cleared entry.taskId) :
    (OutboxDrainer.resolve backoff entry outcome).Safe (pledging start Timely) (.drain number)
      (fun _ _ => True) world := by
  unfold OutboxDrainer.resolve
  split
  · refine working_then pledged (every_clock (working_quiet trivial rfl)) ?_
    intro now timed timedPledged timedKept
    refine working_then timedPledged (every_query ⟨fun _ _ => .stamps _ _ _, rfl⟩) ?_
    intro _ stamped _ stampedKept
    obtain ⟨kept, stays⟩ := (timedKept.trans stampedKept) entry mine
    exact settle_safe rfl kept fun _ target => stays (cleared rfl target)
  · refine working_then pledged (surfaceConflict_working _) fun _ later _ kept => ?_
    exact settle_safe rfl (kept entry mine).1 nofun
  · exact safe_reschedule pledged mine backoff _
  · exact safe_reschedule pledged mine backoff _

theorem safe_drains (number : Nat) (backoff : BackoffSchedule) :
    ∀ (rounds : Nat) (world : Routed), world.Pledged start →
      (OutboxDrainer.drainLoop backoff rounds).Safe (pledging start Timely) (.drain number)
        (fun _ _ => True) world := by
  intro rounds
  induction rounds with
  | zero => exact fun _ _ _ _ _ => trivial
  | succ rounds ih =>
      intro world pledged
      refine working_then pledged (every_clock (working_quiet trivial rfl)) fun now asked _ _ => ?_
      intro later _ laterPledged
      refine ⟨trivial, fun answer claimed answered => ?_⟩
      obtain ⟨claimedPledged, guaranteed⟩ :=
        pledging_step laterPledged (.claims rfl now) answered
      refine ⟨claimedPledged, guaranteed, ?_⟩
      obtain error | found : Except PortError (Option OutboxEntry) := answer
      · exact fun _ _ _ => trivial
      cases found with
      | none => exact fun _ _ _ => trivial
      | some entry =>
          have mine : (number, entry) ∈ claimed.inHand := by
            rw [answered.2.2]
            exact List.mem_append_left _ List.mem_cons_self
          change Safe _ _ ((OutboxDrainer.apply entry).attempt.bind fun outcome =>
            (OutboxDrainer.resolve backoff entry outcome).bind fun _ =>
              OutboxDrainer.drainLoop backoff rounds) _ _
          have applies : ((OutboxDrainer.apply entry).attempt : OutboxDrainer.Action _).Safe
              (pledging start Timely) (.drain number) (fun result later => ∀ outcome,
                result = .ok outcome → (number, entry) ∈ later.inHand ∧ (outcome = .ok .stamped →
                  entry.mutation.target.isSome = true →
                    later.database.Cleared entry.taskId)) claimed :=
            Safe.attempt ((safe_applying mine).mono fun _ _ _ facts _ same => by
              cases same
              exact facts)
          refine Safe.bind claimedPledged (applies.mono ?_)
          intro result applied appliedPledged facts
          cases result with
          | error error => exact fun _ _ _ => trivial
          | ok outcome =>
              obtain ⟨held, cleared⟩ := facts outcome rfl
              exact (safe_resolve appliedPledged held backoff cleared).followed appliedPledged
                fun _ settled settledPledged => ih settled settledPledged

end Drains

/-- The operations of the service and drain passes. -/
inductive Edits : Routed → Proc ports Empty Sender → Prop
  | edit {world : Routed} {program : TaskService.Action Task}
      (edit : TaskService.FieldEdit program) : Edits world ⟨.client, program.detached⟩
  | rollback {world : Routed} (id : TaskId) (version : Nat) :
      Edits world ⟨.client, (TaskService.rollback id version).detached⟩
  | drain {world : Routed} (number : Nat) (backoff : BackoffSchedule) (rounds : Nat) :
      Edits world ⟨.drain number, (OutboxDrainer.drainOnce backoff rounds).detached⟩

theorem client_pledged {start : Database} {program : Program ports Empty Unit} (world : Routed)
    (under : program.Under (Located start) (UpdateCall start) fun _ => True) :
    program.Safe (pledging start Timely) .client (fun _ _ => True) world := by
  refine under.safe ?_ ?_ world
  · intro op before answer after (pledged : before.Pledged start) answered
    exact located_of_performs pledged.settings answered.2.1
  · exact fun op call before pledged =>
      ⟨trivial, fun _ _ answered => pledging_step pledged (.calls call) answered⟩

theorem edits_safe {start : Database} (world : Routed) (proc : Proc ports Empty Sender)
    (pledged : world.Pledged start) (begins : Edits world proc) :
    proc.program.Safe (pledging start Timely) proc.kind (fun _ _ => True) world := by
  cases begins with
  | edit edit => exact client_pledged world edit.pushes.detached
  | rollback id version =>
      exact client_pledged world (TaskService.rollback_pushes id version).detached
  | drain number backoff rounds =>
      refine Safe.detached ?_
      exact working_then pledged (OutboxDrainer.enqueuePendingIssueTypes_every enqueues_working)
        fun _ later laterPledged _ => safe_drains number backoff rounds later laterPledged

/-- In every timely run of edits, rollbacks and drain passes a dirty task has an entry. -/
theorem dirty_owed {start : Database}
    (owed : ∀ id, start.dirty id = true → start.owed id = true)
    {pool : Pool ports Routed Empty Sender}
    (run : Pool.Run (pledging start Timely) unmixed Edits ⟨⟨start, []⟩, []⟩ pool) (id : TaskId)
    (dirty : pool.shared.database.dirty id = true) : pool.shared.database.owed id = true := by
  have pledged : (⟨start, []⟩ : Routed).Pledged start :=
    ⟨⟨rfl, rfl, rfl⟩, fun _ _ member => (List.not_mem_nil member).elim,
      fun _ _ _ _ member => (List.not_mem_nil member).elim, owed⟩
  have first : Pool.Sound (pledging start Timely) unmixed
      (⟨⟨start, []⟩, []⟩ : Pool ports Routed Empty Sender) :=
    ⟨pledged, fun _ member => (List.not_mem_nil member).elim, .nil⟩
  have compatible : ∀ actor other, unmixed actor other → ∀ before after,
      (pledging start Timely).inv before → (pledging start Timely).inv after →
      (pledging start Timely).guarantee actor before after →
      (pledging start Timely).rely other before after := by
    intro actor other apart before after _ _ guaranteed number named
    refine guaranteed number fun same => ?_
    have client := apart (same.trans named.symm)
    rw [same] at client
    cases client
  exact (first.run compatible edits_safe run).inv.owed id dirty

theorem owed_of_rows {start : Database} (rows : ∀ record ∈ start.tasks.rows,
    start.dirty record.id = true → start.owed record.id = true) (id : TaskId)
    (dirty : start.dirty id = true) : start.owed id = true := by
  obtain ⟨task, stored, _⟩ := Database.dirty_iff.mp dirty
  obtain ⟨record, found, _⟩ := Option.map_eq_some_iff.mp stored
  have sameId : record.id = id := Table.find_key found
  exact sameId ▸ rows record (Table.find_mem found) (sameId ▸ dirty)

abbrev tookOn (proc : Proc ports Empty Sender) (count : Nat) (state : Routing) :
    Program ports Empty Unit × Routing :=
  proc.program.advance (routingHandler retitledProvider proc.kind) count state

theorem run_takesOn {admits : PortOp → Database → Database → Prop} {start : Database}
    {proc : Proc ports Empty Sender} {others : List (Proc ports Empty Sender)} {state : Routing}
    {count : Nat} {check : PortOp → Routing → Bool}
    (checked : ∀ op state, check op state = true → admits op (routed state).database
      (routed (routingHandler retitledProvider proc.kind op state).2).database)
    (begins : Edits (routed state) proc)
    (beside : ∀ other ∈ others, unmixed proc.kind other.kind ∧ unmixed other.kind proc.kind)
    (passed : proc.program.passes check (routingHandler retitledProvider proc.kind) count state =
      true) :
    Pool.Run (pledging start admits) unmixed Edits ⟨routed state, others⟩
      ⟨routed (tookOn proc count state).2, ⟨proc.kind, (tookOn proc count state).1⟩ :: others⟩ :=
  Pool.run_started (fun op state passed =>
    @routingHandler_sound (fun _ op before after => admits op before.database after.database)
      retitledProvider proc.kind op state (checked op state passed)) begins beside passed

abbrev titleEdit : Proc ports Empty Sender := ⟨.client, retitleOne⟩

abbrev rewriteEdit : Proc ports Empty Sender :=
  ⟨.client, (TaskService.update { taskId := ⟨1⟩, body := some "b" }).detached⟩

abbrev rollbackThree : Proc ports Empty Sender := ⟨.client, (TaskService.rollback ⟨1⟩ 3).detached⟩

abbrev titled : Program ports Empty Unit × Routing := tookOn titleEdit 12 (⟨filedApart, 0⟩, [])

abbrev besideTitle : List (Proc ports Empty Sender) := [⟨.client, titled.1⟩]

abbrev drainedBy (count : Nat) : Program ports Empty Unit × Routing :=
  tookOn drainOne count titled.2

abbrev besideDrain (count : Nat) : List (Proc ports Empty Sender) :=
  ⟨.drain 1, (drainedBy count).1⟩ :: besideTitle

def checksTimely (sender : Sender) (op : PortOp) (state : Routing) : Bool :=
  Timely op (routed state).database
    (routed (routingHandler retitledProvider sender op state).2).database

theorem titleEdit_begins {world : Routed} : Edits world titleEdit := .edit (.update _)

theorem filedApart_clean : ∀ record ∈ filedApart.tasks.rows,
    filedApart.dirty record.id = true → filedApart.owed record.id = true := by decide

/-- Two edits, the second while a drain is about to send the first: the entry is inflight. -/
theorem dirty_owed_edited_twice : ∃ pool : Pool ports Routed Empty Sender,
    Pool.Run (pledging filedApart Timely) unmixed Edits ⟨⟨filedApart, []⟩, []⟩ pool ∧
      pool.shared.database.dirty ⟨1⟩ = true ∧ pool.shared.database.waiting ⟨1⟩ = false ∧
      pool.shared.database.owed ⟨1⟩ = true := by
  have checked : ∀ sender op state, checksTimely sender op state = true →
      Timely op (routed state).database
        (routed (routingHandler retitledProvider sender op state).2).database :=
    fun _ _ _ => of_decide_eq_true
  have first := @run_takesOn Timely filedApart titleEdit [] (⟨filedApart, 0⟩, []) 12
    (checksTimely .client) (checked .client) titleEdit_begins
    (fun _ member => (List.not_mem_nil member).elim) (by decide)
  have second := @run_takesOn Timely filedApart drainOne besideTitle titled.2 4
    (checksTimely (.drain 1)) (checked (.drain 1)) (.drain 1 .standard 5)
    (fun other member => by cases List.mem_singleton.mp member; exact ⟨nofun, nofun⟩) (by decide)
  have third := @run_takesOn Timely filedApart rewriteEdit (besideDrain 4) (drainedBy 4).2 12
    (checksTimely .client) (checked .client) (.edit (.update _))
    (fun other member => ⟨fun _ => rfl, fun same => same⟩) (by decide)
  have run := (first.trans second).trans third
  have dirty : (routed (tookOn rewriteEdit 12 (drainedBy 4).2).2).database.dirty ⟨1⟩ = true := by
    decide
  exact ⟨_, run, dirty, by decide, dirty_owed (owed_of_rows filedApart_clean) run ⟨1⟩ dirty⟩

/-- An edit is drained and rolled back: the task is dirty, and nothing will ever push it. -/
theorem rollback_strands_edit : (∀ id, filedApart.dirty id = true → filedApart.owed id = true) ∧
    ∃ pool : Pool ports Routed Empty Sender,
      Pool.Run (pledging filedApart fun _ _ _ => True) unmixed Edits ⟨⟨filedApart, []⟩, []⟩ pool ∧
      pool.procs.all (fun proc => !proc.program.isCall) = true ∧
      pool.shared.database.dirty ⟨1⟩ = true ∧ pool.shared.database.owed ⟨1⟩ = false := by
  have first := @run_takesOn (fun _ _ _ => True) filedApart titleEdit [] (⟨filedApart, 0⟩, []) 12
    (fun _ _ => true) (fun _ _ _ => trivial) titleEdit_begins
    (fun _ member => (List.not_mem_nil member).elim) (by decide)
  have second := @run_takesOn (fun _ _ _ => True) filedApart drainOne besideTitle titled.2 12
    (fun _ _ => true) (fun _ _ _ => trivial) (.drain 1 .standard 5)
    (fun other member => by cases List.mem_singleton.mp member; exact ⟨nofun, nofun⟩) (by decide)
  have third := @run_takesOn (fun _ _ _ => True) filedApart rollbackThree (besideDrain 12)
    (drainedBy 12).2 8 (fun _ _ => true) (fun _ _ _ => trivial) (.rollback ⟨1⟩ 3)
    (fun other member => ⟨fun _ => rfl, fun same => same⟩) (by decide)
  exact ⟨owed_of_rows filedApart_clean, _, (first.trans second).trans third, by decide, by decide,
    by decide⟩

end RepoLink
