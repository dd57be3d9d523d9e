import RepoLink.Library.Amidst
import RepoLink.Ports.Entries
import RepoLink.Ports.Handler
import RepoLink.Sync.Inbound
import RepoLink.TaskService.Service

/-!
A transfer beside the drainer. It asks the outbox for the pending entries of the task, asks the
provider whether the issue has moved, and then moves it. An entry that was inflight when it asked
is applied to the issue that the transfer leaves behind.
-/

namespace RepoLink

open Effects Program KeyedTable

def OutboxMutation.addressedTo (nodeId canonical remoteId : String) : OutboxMutation → Bool
  | .updateRemote canonicalRepo number .. => canonicalRepo = canonical && number = remoteId
  | .addItem _ issueNodeId | .setIssueType issueNodeId .. => issueNodeId = nodeId
  | .addSubIssue parentCanonical parentRemoteId childCanonical childRemoteId
  | .removeSubIssue parentCanonical parentRemoteId childCanonical childRemoteId
  | .addBlockedBy parentCanonical parentRemoteId childCanonical childRemoteId
  | .removeBlockedBy parentCanonical parentRemoteId childCanonical childRemoteId =>
    (parentCanonical = canonical && parentRemoteId = remoteId) ||
      (childCanonical = canonical && childRemoteId = remoteId)
  | _ => false

structure OutboxEntry.Owed (addressed : OutboxMutation → Prop) (id : TaskId)
    (entry : OutboxEntry) : Prop where
  task : entry.taskId = id
  address : addressed entry.mutation
  unsettled : entry.status.isTerminal = false

instance {addressed : OutboxMutation → Prop} [DecidablePred addressed] (id : TaskId)
    (entry : OutboxEntry) : Decidable (entry.Owed addressed id) :=
  decidable_of_iff (entry.taskId = id ∧ addressed entry.mutation ∧ entry.status.isTerminal = false)
    ⟨fun ⟨task, address, unsettled⟩ => ⟨task, address, unsettled⟩,
      fun owed => ⟨owed.task, owed.address, owed.unsettled⟩⟩

namespace Database

def Owes (addressed : OutboxMutation → Prop) (id : TaskId) (database : Database) : Prop :=
  ∃ entryId entry, database.entry entryId = some entry ∧ entry.Owed addressed id

def OwesInflight (addressed : OutboxMutation → Prop) (id : TaskId) (database : Database) : Prop :=
  ∃ entryId entry, database.entry entryId = some entry ∧ entry.Owed addressed id ∧
    entry.status = .inflight

theorem owes_iff_rows {addressed : OutboxMutation → Prop} {id : TaskId} {database : Database} :
    database.Owes addressed id ↔ ∃ row ∈ database.outbox.rows, row.entry.Owed addressed id := by
  constructor
  · rintro ⟨entryId, entry, stored, owed⟩
    obtain ⟨row, found, rfl⟩ := Option.map_eq_some_iff.mp stored
    exact ⟨row, Table.find_mem found, owed⟩
  · rintro ⟨row, member, owed⟩
    exact ⟨row.entry.id, row.entry, OutboxTable.entry_of_row member, owed⟩

instance {addressed : OutboxMutation → Prop} [DecidablePred addressed] (id : TaskId)
    (database : Database) : Decidable (database.Owes addressed id) :=
  decidable_of_iff _ owes_iff_rows.symm

end Database

/-- A call of the transfer or of another process, with the databases around it. -/
abbrev PortMove := Move ports Database

/-- The call queues an entry of the task for the address, or puts a settled one back. -/
def PortMove.Queues (addressed : OutboxMutation → Prop) (id : TaskId) (move : PortMove) : Prop :=
  (∃ entry ∈ PortOp.queued move.call.1, entry.Owed addressed id) ∨
    ∃ store entryId entry, move.call.1 = .store store ∧
      store.resolves = some (entryId, .pending) ∧ move.before.entry entryId = some entry ∧
      entry.taskId = id ∧ addressed entry.mutation ∧ entry.status.isTerminal = true

def PortMove.Settles (move : PortMove) : Prop :=
  ∃ store, move.call.1 = .store store ∧
    ((∃ entryId status, store.resolves = some (entryId, status) ∧ status.isTerminal = true) ∨
      ∃ taskId, store = .deletePendingAddItems taskId)

def PortOp.transfersIssue : PortOp → Bool
  | .provider (.transferIssue ..) => true
  | _ => false

/-- The look at the outbox that a transfer took last, and what has gone on since: its own calls
are questions to the provider. -/
structure LookedAt (id : TaskId) (earlier : List PortMove) (look : PortMove)
    (since : List PortMove) : Prop where
  journal : ∃ front, earlier = front ++ look :: since
  own : look.own = true
  looks : look.call.1 = .store (.listPending id)
  asks : ∀ move ∈ since, move.own = true → ∃ request, move.call.1 = .provider request

section Moves

variable {addressed : OutboxMutation → Prop} {id : TaskId} {move : PortMove}

theorem move_entry (answered : portMeaning move.call.1 move.before move.call.2 move.after) :
    move.after = move.before ∨ ∃ store instant answer, move.call.1 = .store store ∧
      store.perform instant move.before = (answer, move.after) := by
  obtain ⟨own, ⟨op, answer⟩, before, after⟩ := move
  cases op with
  | store store =>
      rcases answered with ⟨instant, performed⟩ | ⟨_, _, same⟩
      · exact .inr ⟨store, instant, answer, rfl, performed⟩
      · exact .inl same
  | freshTaskId => exact .inl answered.2
  | _ => exact .inl answered

theorem owes_source (answered : portMeaning move.call.1 move.before move.call.2 move.after)
    (unqueued : ¬move.Queues addressed id) (owes : move.after.Owes addressed id) :
    move.before.Owes addressed id := by
  rcases move_entry answered with same | ⟨store, instant, answer, opEq, performed⟩
  · exact same ▸ owes
  obtain ⟨entryId, next, found, owed⟩ := owes
  rcases StoreOp.perform_entry_source performed found with
    queued | ⟨entry, stored, sameTask, sameMutation, step⟩
  · exact (unqueued (.inl ⟨next, opEq ▸ queued, owed⟩)).elim
  have task : entry.taskId = id := sameTask.symm.trans owed.task
  have address : addressed entry.mutation := sameMutation ▸ owed.address
  refine ⟨entryId, entry, stored, task, address, ?_⟩
  cases step with
  | same unchanged => exact unchanged ▸ owed.unsettled
  | claimed _ pending _ => rw [pending]; rfl
  | requeued _ inflight _ => rw [inflight]; rfl
  | resolved names =>
      -- only a retry leaves an entry unsettled
      by_contra settled
      have retried : next.status = .pending := by
        have open_ := owed.unsettled
        cases store with
        | markSucceeded | markFailed | recordRetry =>
            obtain ⟨_, status⟩ := Prod.mk.inj (Option.some.inj names)
            rw [← status] at open_
            first | exact status.symm | cases open_
        | _ => cases names
      rw [retried, OutboxTable.entry_id stored] at names
      exact unqueued (.inr ⟨store, entryId, entry, opEq, names, stored, task, address,
        Bool.eq_true_of_not_eq_false settled⟩)

theorem owes_kept (answered : portMeaning move.call.1 move.before move.call.2 move.after)
    (unsettled : ¬move.Settles) (owes : move.before.Owes addressed id) :
    move.after.Owes addressed id := by
  rcases move_entry answered with same | ⟨store, instant, answer, opEq, performed⟩
  · exact same.symm ▸ owes
  obtain ⟨entryId, entry, stored, owed⟩ := owes
  obtain ⟨next, found, sameTask, sameMutation, step⟩ := StoreOp.perform_entry performed
    (fun taskId deletes => unsettled ⟨store, opEq, .inr ⟨taskId, deletes⟩⟩) stored
  refine ⟨entryId, next, found, sameTask.trans owed.task, sameMutation.symm ▸ owed.address, ?_⟩
  cases step with
  | same unchanged => exact unchanged.symm ▸ owed.unsettled
  | claimed _ _ inflight => rw [inflight]; rfl
  | requeued _ _ pending => rw [pending]; rfl
  | resolved names =>
      by_contra settled
      exact unsettled ⟨store, opEq, .inl ⟨_, _, names, Bool.eq_true_of_not_eq_false settled⟩⟩

theorem unowed_since {allowed : List (Call ports) → PortOp → Prop} {seen : List (Call ports)}
    {first last : Database} {since : List PortMove}
    (lawful : Lawful portMeaning allowed seen first since last)
    (unqueued : ∀ move ∈ since, ¬move.Queues addressed id) (free : ¬first.Owes addressed id) :
    ¬last.Owes addressed id :=
  @Lawful.keeps _ _ _ _ (fun database => ¬database.Owes addressed id) _ _ _ _ lawful
    (fun move member answered => mt (owes_source answered (unqueued move member))) free

theorem owed_since {allowed : List (Call ports) → PortOp → Prop} {seen : List (Call ports)}
    {first last : Database} {since : List PortMove}
    (lawful : Lawful portMeaning allowed seen first since last)
    (unsettled : ∀ move ∈ since, ¬move.Settles) (owes : first.Owes addressed id) :
    last.Owes addressed id :=
  lawful.keeps (fun move member answered => owes_kept answered (unsettled move member)) owes

theorem owes_iff_inflight {before after : Database} {instant : Timestamp}
    (looked : (StoreOp.listPending id).perform instant before = (.ok [], after)) :
    before.Owes addressed id ↔ before.OwesInflight addressed id := by
  constructor
  swap
  · rintro ⟨entryId, entry, stored, owed, _⟩
    exact ⟨entryId, entry, stored, owed⟩
  rintro ⟨entryId, entry, stored, owed⟩
  refine ⟨entryId, entry, stored, owed, ?_⟩
  have nothing : before.outbox.listPending id = [] := Except.ok.inj (congrArg Prod.fst looked)
  obtain ⟨row, rowFound, rfl⟩ := Option.map_eq_some_iff.mp stored
  cases status : row.entry.status with
  | inflight => rfl
  | pending =>
      have listed : row.entry ∈ before.outbox.listPending id := by
        unfold OutboxTable.listPending
        rw [List.mem_insertionSort]
        refine List.mem_map_of_mem (List.mem_filter.mpr ⟨Table.find_mem rowFound, ?_⟩)
        simp [owed.task, status]
      rw [nothing] at listed
      cases listed
  | succeeded | failed =>
      have open_ := owed.unsettled
      rw [status] at open_
      cases open_

end Moves

def asksProvider (call : Call ports) : Prop := ∃ request, call.1 = .provider request

def Cleared (id : TaskId) (seen : List (Call ports)) : Prop :=
  ∃ front back, seen = front ++ ⟨.store (.listPending id), .ok []⟩ :: back ∧
    ∀ call ∈ back, asksProvider call

def AfterLook (id : TaskId) (seen : List (Call ports)) (op : PortOp) : Prop :=
  op.transfersIssue = true → Cleared id seen

def PortOp.stays (op : PortOp) : Prop := op.transfersIssue = false

theorem PortOp.stays.afterLook {op : PortOp} (stays : op.stays) (id : TaskId)
    (seen : List (Call ports)) : AfterLook id seen op := fun moves => by
  rw [stays] at moves
  cases moves

abbrev anyAnswer : (op : PortOp) → op.Answer → Prop := fun _ _ => True

theorem recalls_stays {α : Type} {id : TaskId} {program : SyncService.Action α}
    (stays : program.Every PortOp.stays) (seen : List (Call ports)) :
    program.Recalls (transcript anyAnswer) (AfterLook id) (fun _ _ => True) seen :=
  Recalls.ofEvery (fun _ stays => stays.afterLook id) stays (yields_any _) seen

theorem Cleared.asked {id : TaskId} {seen : List (Call ports)} (cleared : Cleared id seen)
    (request : ProviderOp) (answer : Except PortError request.Answer) :
    Cleared id (seen ++ [⟨.provider request, answer⟩]) := by
  obtain ⟨front, back, rfl, asks⟩ := cleared
  refine ⟨front, back ++ [⟨.provider request, answer⟩], by simp, ?_⟩
  exact List.forall_mem_append.mpr ⟨asks, List.forall_mem_singleton.mpr ⟨request, rfl⟩⟩

namespace SyncService

theorem recalls_question {id : TaskId} {request : ProviderOp} (stays : PortOp.stays (.provider request))
    {seen : List (Call ports)} (cleared : Cleared id seen) :
    (remote request : Action request.Answer).Recalls (transcript anyAnswer) (AfterLook id)
      (fun _ later => Cleared id later) seen := by
  refine ⟨stays.afterLook id seen, fun answer _ => ?_⟩
  have asked := cleared.asked request answer
  obtain error | value : Except PortError request.Answer := answer
  · trivial
  · exact asked

theorem recalls_transferNodeId {id : TaskId} (currentFiling : String) (current : RemoteRef)
    {seen : List (Call ports)} (cleared : Cleared id seen) :
    (transferNodeId currentFiling current).Recalls (transcript anyAnswer) (AfterLook id)
      (fun _ later => Cleared id later) seen := by
  unfold transferNodeId
  cases current.nodeId with
  | some nodeId => exact cleared
  | none =>
      have asks : PortOp.stays (.provider (.fetchRemote currentFiling current.remoteId)) := rfl
      refine (recalls_question asks cleared).bind fun snap later _ clearedLater => ?_
      cases snap.nodeId with
      | some nodeId => exact clearedLater
      | none => trivial

theorem transfer_recalls (taskId : TaskId) (dstCanonical : String) :
    (transfer taskId dstCanonical).Recalls (transcript anyAnswer) (AfterLook taskId)
      (fun _ _ => True) [] := by
  have saved : ∀ task moved entries, ((saveTask task moved .link entries).bind fun _ =>
      (.done moved : Action Task)).Every PortOp.stays := fun _ _ _ =>
    every_bind (@every_query _ _ _ (.saveAll ..) rfl) fun _ => trivial
  refine (recalls_stays (@every_query _ _ _ (.getTask _) rfl) _).bind fun task seen _ _ => ?_
  refine (recalls_stays (ensureNotArchived_every task) _).bind fun _ seen _ _ => ?_
  cases task.remote with
  | none => trivial
  | some current =>
      dsimp only
      split
      · trivial
      refine (recalls_stays (@every_query _ _ _ (.findByCanonicalUrl ..) rfl) _).bind
        fun binding seen _ _ => ?_
      cases binding with
      | none => trivial
      | some binding =>
          refine (recalls_stays (requiredFilingCanonical_every (fun _ _ => rfl) task) _).bind
            fun currentFiling seen _ _ => ?_
          split
          · trivial
          refine ⟨nofun, fun answer _ => ?_⟩
          obtain error | pending : Except PortError (List OutboxEntry) := answer
          · trivial
          cases pending with
          | cons entry rest => trivial
          | nil =>
              have cleared : Cleared taskId (seen ++ [⟨.store (.listPending taskId), .ok []⟩]) :=
                ⟨seen, [], rfl, fun _ member => (List.not_mem_nil member).elim⟩
              refine (@recalls_question _ (.discoverMoveTarget ..) rfl _ cleared).bind
                fun target seen _ cleared => ?_
              cases target with
              | some target => trivial
              | none =>
                  refine (recalls_transferNodeId currentFiling current cleared).bind
                    fun issueNodeId seen _ cleared => ?_
                  refine ⟨fun _ => cleared, fun answer _ => ?_⟩
                  obtain error | ⟨newNodeId, newNumber⟩ : Except PortError (String × Nat) := answer
                  · trivial
                  -- what is left moves no issue again
                  refine recalls_stays (every_bind (every_clock rfl) fun now => ?_) _
                  refine every_bind (@every_query _ _ _ (.getWorkspace _) rfl) fun workspace => ?_
                  refine every_bind (projectForWorkspace_every (fun _ _ => rfl) workspace) ?_
                  intro project
                  cases project with
                  | none => exact saved task _ []
                  | some project =>
                      refine every_bind ?_ fun entry => saved task _ [entry]
                      refine every_bind (every_callPort rfl) fun entryId => ?_
                      exact every_bind (every_clock rfl) fun _ => trivial

end SyncService

/-- Every request to move the issue comes after a look at the outbox. When nothing is queued for
the address in between, the task owes nothing to it at the request if no owed entry was inflight
at the look; when nothing is settled in between either, exactly then. -/
theorem transfer_waits_iff {taskId : TaskId} {dstCanonical : String} {start : Database}
    {result : Except SyncError Task} {last : Journaled ports Database}
    (addressed : OutboxMutation → Prop)
    (ran : (SyncService.transfer taskId dstCanonical).Runs (amidst portMeaning) ⟨start, []⟩
      result last)
    {earlier later : List PortMove} {request : PortMove}
    (journal : last.moves = earlier ++ request :: later) (own : request.own = true)
    (transfers : request.call.1.transfersIssue = true) :
    ∃ look since, LookedAt taskId earlier look since ∧
      ((∀ move ∈ since, ¬move.Queues addressed taskId) →
        (¬look.before.OwesInflight addressed taskId → ¬request.before.Owes addressed taskId) ∧
        ((∀ move ∈ since, ¬move.Settles) →
          (¬request.before.Owes addressed taskId ↔
            ¬look.before.OwesInflight addressed taskId))) := by
  have begun : Lawful portMeaning (AfterLook taskId) []
    start (⟨start, []⟩ : Journaled ports Database).moves start := rfl
  have lawful := Recalls.amidst (fun _ _ _ _ _ => trivial)
    (SyncService.transfer_recalls taskId dstCanonical) begun ran
  rw [journal] at lawful
  obtain ⟨early, _, permits, _⟩ := lawful.split
  obtain ⟨front, back, notes, asks⟩ : Cleared taskId (ownCalls earlier) := permits own transfers
  obtain ⟨before, look, since, rfl, lookOwn, lookCall, sinceOwn⟩ := ownCalls_split notes
  obtain ⟨_, looked, _, onward⟩ := early.split
  refine ⟨look, since, ⟨⟨before, rfl⟩, lookOwn, congrArg Sigma.fst lookCall, ?_⟩, ?_⟩
  · intro move member moveOwn
    refine asks move.call ?_
    rw [← sinceOwn]
    exact call_mem_ownCalls member moveOwn
  · obtain ⟨_, call, atLook, afterLook⟩ := look
    cases lookCall
    have inert : atLook = afterLook :=
      (@PortOp.quiet_meaning (.store (.listPending taskId)) rfl _ _ _ looked).symm
    subst inert
    obtain ⟨instant, performed⟩ | ⟨_, failed, _⟩ := looked
    swap
    · cases failed
    have inflight := @owes_iff_inflight addressed taskId _ _ _ performed
    intro unqueued
    have spared : ¬atLook.OwesInflight addressed taskId → ¬request.before.Owes addressed taskId :=
      fun clear => unowed_since onward unqueued (mt inflight.mp clear)
    refine ⟨spared, fun unsettled => ⟨fun free owes => ?_, spared⟩⟩
    exact free (owed_since onward unsettled (inflight.mpr owes))

abbrev issueSeven (mutation : OutboxMutation) : Prop :=
  mutation.addressedTo "I_7" "github.com/acme/one" "7" = true

def claimingHandler : Handler ports (Scene × List PortMove)
  | .store (.listPending id), (scene, moves) =>
    let (claimed, between) :=
      portHandler obligingProvider .epoch (.store (.claimNextEligible .epoch)) scene
    let (answer, next) := portHandler obligingProvider .epoch (.store (.listPending id)) between
    (answer, next, moves ++
      [⟨false, ⟨.store (.claimNextEligible .epoch), claimed⟩, scene.database, between.database⟩] ++
      [⟨true, ⟨.store (.listPending id), answer⟩, between.database, next.database⟩])
  | op, (scene, moves) =>
    let (answer, next) := portHandler obligingProvider .epoch op scene
    (answer, next, moves ++ [⟨true, ⟨op, answer⟩, scene.database, next.database⟩])

def withMoves (state : Scene × List PortMove) : Journaled ports Database :=
  ⟨state.1.database, state.2⟩

theorem claimingHandler_sound (op : PortOp) (state : Scene × List PortMove) :
    amidst portMeaning op (withMoves state) (claimingHandler op state).1
      (withMoves (claimingHandler op state).2) := by
  obtain ⟨scene, moves⟩ := state
  have alone : ∀ op : PortOp, amidst portMeaning op (withMoves (scene, moves))
      (portHandler obligingProvider .epoch op scene).1
      ⟨(portHandler obligingProvider .epoch op scene).2.database, moves ++
        [⟨true, ⟨op, (portHandler obligingProvider .epoch op scene).1⟩, scene.database,
          (portHandler obligingProvider .epoch op scene).2.database⟩]⟩ := fun op =>
    ⟨_, .refl, portHandler_sound obligingProvider .epoch op scene, rfl⟩
  cases op with
  | store op =>
      cases op with
      | listPending id =>
          have claims := portHandler_sound obligingProvider .epoch
            (.store (.claimNextEligible .epoch)) scene
          refine ⟨⟨_, moves ++ [⟨false, ⟨_, _⟩, _, _⟩]⟩, .single ⟨_, _, claims, rfl⟩, ?_, rfl⟩
          exact portHandler_sound obligingProvider .epoch (.store (.listPending id)) _
      | _ => exact alone _
  | _ => exact alone _

def overtaking (database : Database) : Except SyncError Task × Scene × List PortMove :=
  (SyncService.transfer ⟨1⟩ "github.com/acme/two").exec claimingHandler (⟨database, 0⟩, [])

theorem overtaking_ran (database : Database) :
    (SyncService.transfer ⟨1⟩ "github.com/acme/two").Runs (amidst portMeaning) ⟨database, []⟩
      (overtaking database).1 (withMoves (overtaking database).2) :=
  @exec_runs _ _ _ _ _ (amidst portMeaning) claimingHandler withMoves claimingHandler_sound _
    (⟨database, 0⟩, [])

def typedTask : Database :=
  let created := after obligingProvider .epoch
    (TaskService.create { workspaceId := ⟨1⟩, repoId := some ⟨21⟩, title := "t" }) twoRepos
  let promoted := after obligingProvider .epoch (SyncService.promote ⟨1⟩) created
  after obligingProvider .epoch
    (TaskService.update { taskId := ⟨1⟩, issueType := some (some "Bug") }) promoted

def untypedTask : Database :=
  after obligingProvider .epoch (TaskService.update { taskId := ⟨1⟩, issueType := some none })
    typedTask

/-- The entry is inflight while the issue that it is addressed to is moved away. -/
theorem transfer_overtakes_claim :
    (SyncService.transfer ⟨1⟩ "github.com/acme/two").Runs (amidst portMeaning) ⟨untypedTask, []⟩
      (overtaking untypedTask).1 (withMoves (overtaking untypedTask).2) ∧
      ∃ request ∈ (overtaking untypedTask).2.2, request.own = true ∧
        request.call.1.transfersIssue = true ∧ request.before.Owes issueSeven ⟨1⟩ :=
  ⟨overtaking_ran untypedTask, by decide +kernel⟩

theorem transfer_waits_drained :
    ∃ request ∈ (overtaking typedTask).2.2, request.own = true ∧
      request.call.1.transfersIssue = true ∧ ¬request.before.Owes issueSeven ⟨1⟩ := by
  obtain ⟨request, member, own, transfers⟩ : ∃ request ∈ (overtaking typedTask).2.2,
      request.own = true ∧ request.call.1.transfersIssue = true := by decide +kernel
  have idle : ∀ move ∈ (overtaking typedTask).2.2,
      PortOp.queued move.call.1 = [] ∧ move.before.outbox.rows = [] := by decide +kernel
  obtain ⟨earlier, later, split⟩ := List.append_of_mem member
  obtain ⟨look, since, ⟨⟨front, rfl⟩, _, _, _⟩, waits⟩ :=
    transfer_waits_iff issueSeven (overtaking_ran typedTask) split own transfers
  have unstored : ∀ move ∈ (overtaking typedTask).2.2, ∀ entryId entry,
      move.before.entry entryId ≠ some entry := by
    intro move inJournal entryId entry stored
    obtain ⟨row, found, _⟩ := Option.map_eq_some_iff.mp stored
    have rows : row ∈ move.before.outbox.rows := Table.find_mem found
    rw [(idle move inJournal).2] at rows
    cases rows
  refine ⟨request, member, own, transfers, (waits fun move inSince => ?_).1 ?_⟩
  · have inJournal : move ∈ (overtaking typedTask).2.2 := by simp [split, inSince]
    rintro (⟨entry, queued, _⟩ | ⟨_, entryId, entry, _, _, stored, _⟩)
    · rw [(idle move inJournal).1] at queued
      cases queued
    · exact unstored move inJournal entryId entry stored
  · rintro ⟨entryId, entry, stored, _⟩
    exact unstored look (by simp [split]) entryId entry stored

end RepoLink
