import RepoLink.Properties.DrainPass

/-!
A drain pass ends. An entry may be tried as often as the schedule leaves it tries, and it may put
three follow-ups into the queue each time, which spawn nothing: every turn pays for itself out of
what the outbox holds.
-/

namespace RepoLink

open Effects Program KeyedTable OutboxDrainer

namespace OutboxTable

def weigh (weight : OutboxEntry → Nat) (outbox : OutboxTable) : Nat :=
  (outbox.rows.map fun row => weight row.entry).sum

theorem weigh_updateEntry {weight : OutboxEntry → Nat} {outbox : OutboxTable}
    {change : OutboxEntry → OutboxEntry} {keeps : ∀ entry, (change entry).id = entry.id}
    {id : OutboxEntryId} {entry : OutboxEntry} (stored : outbox.entry id = some entry) :
    (outbox.updateEntry id change keeps).weigh weight + weight entry =
      outbox.weigh weight + weight (change entry) := by
  obtain ⟨row, found, rfl⟩ := Option.map_eq_some_iff.mp stored
  have keyEq : row.id = id := Table.find_key found
  have elsewhere : ∀ other : OutboxRow, other.id ≠ row.id →
      weight (if other.entry.id = id then change other.entry else other.entry) =
        weight other.entry := fun other different => by
    rw [if_neg fun same => different (same.trans keyEq.symm)]
  have swapped := Table.sum_one_changed (Table.find_mem found) elsewhere
  rw [if_pos (show row.entry.id = id from keyEq)] at swapped
  have updated : (outbox.updateEntry id change keeps).rows = outbox.table.rows.map fun row =>
      { row with entry := if row.entry.id = id then change row.entry else row.entry } := rfl
  unfold weigh
  rw [updated, List.map_map]
  exact swapped

theorem weigh_insertRow {weight : OutboxEntry → Nat} {outbox inserted : OutboxTable}
    {entry : OutboxEntry} (done : outbox.insertRow entry = .ok inserted) :
    inserted.weigh weight = outbox.weigh weight + weight entry := by
  unfold weigh
  rw [insertRow_rows done, List.map_append, List.sum_append]
  rfl

theorem weigh_enqueue {weight : OutboxEntry → Nat} {outbox inserted : OutboxTable}
    {entry : OutboxEntry} (done : outbox.enqueue entry = .ok inserted) :
    inserted.weigh weight ≤ outbox.weigh weight + weight entry := by
  unfold enqueue insertOutboxInTx at done
  split at done
  · cases done
    exact Nat.le_add_right _ _
  · exact Nat.le_of_eq (weigh_insertRow done)

end OutboxTable

namespace BackoffSchedule

def triesLeft (attempts : Nat) (backoff : BackoffSchedule) : Nat :=
  max 1 (backoff.maxAttempts - attempts)

def cost (mutation : OutboxMutation) (backoff : BackoffSchedule) : Nat :=
  if mutation.spawns then 3 * backoff.triesLeft 0 + 1 else 1

def owed (backoff : BackoffSchedule) (entry : OutboxEntry) : Nat :=
  if entry.status = .pending then backoff.triesLeft entry.attempts * backoff.cost entry.mutation
  else 0

theorem triesLeft_pos (attempts : Nat) (backoff : BackoffSchedule) :
    0 < backoff.triesLeft attempts := Nat.le_max_left _ _

theorem triesLeft_le (attempts : Nat) (backoff : BackoffSchedule) :
    backoff.triesLeft attempts ≤ backoff.triesLeft 0 := by
  unfold triesLeft
  omega

theorem triesLeft_succ {attempts : Nat} {backoff : BackoffSchedule}
    (below : attempts + 1 < backoff.maxAttempts) :
    backoff.triesLeft (attempts + 1) + 1 = backoff.triesLeft attempts := by
  unfold triesLeft
  omega

theorem owed_pending {backoff : BackoffSchedule} {entry : OutboxEntry}
    (pending : entry.status = .pending) :
    backoff.owed entry = backoff.triesLeft entry.attempts * backoff.cost entry.mutation :=
  if_pos pending

theorem owed_other {backoff : BackoffSchedule} {entry : OutboxEntry}
    (other : entry.status ≠ .pending) : backoff.owed entry = 0 := if_neg other

theorem owed_leaf {backoff : BackoffSchedule} {entry : OutboxEntry}
    (leaf : entry.mutation.spawns = false) : backoff.owed entry ≤ backoff.triesLeft 0 := by
  unfold owed cost
  rw [leaf]
  have within := triesLeft_le entry.attempts backoff
  split
  · simpa using within
  · exact Nat.zero_le _

theorem owed_released {backoff : BackoffSchedule} {entry next : OutboxEntry}
    (released : Released backoff entry next) : backoff.owed next + backoff.cost entry.mutation ≤
      backoff.triesLeft entry.attempts * backoff.cost entry.mutation := by
  obtain ⟨_, sameMutation, terminal | ⟨pending, attempts, below⟩⟩ := released
  · rw [owed_other (by rintro isPending; rw [isPending] at terminal; cases terminal), Nat.zero_add]
    exact Nat.le_mul_of_pos_left _ (triesLeft_pos ..)
  · rw [attempts] at below
    rw [owed_pending pending, sameMutation, attempts, ← triesLeft_succ below, Nat.succ_mul]

end BackoffSchedule

def budget (backoff : BackoffSchedule) (database : Database) : Nat :=
  database.outbox.weigh backoff.owed

def PortOp.leaf (op : PortOp) : Prop := op.applies ∧ op.queued = []

theorem PortOp.leaf_reads {op : StoreOp} (reads : op.reads = true) : (PortOp.store op).leaf := by
  refine ⟨.inl reads, ?_⟩
  cases op <;> first | rfl | cases reads

theorem PortOp.leaf_outbox {op : PortOp} (leaf : op.leaf) {before after : Database}
    {answer : op.Answer} (answered : portMeaning op before answer after) :
    after.outbox = before.outbox := by
  cases op with
  | store op =>
      obtain ⟨reads | ⟨entry, rfl⟩ | ⟨id, expected, rfl⟩ | ⟨write, rfl, _⟩, unqueued⟩ := leaf
      · rw [@PortOp.quiet_meaning (.store op) reads _ _ _ answered]
      · cases unqueued
      · rcases answered with ⟨instant, performed⟩ | ⟨_, _, same⟩
        · cases performed
          rfl
        · rw [same]
      · rcases answered with ⟨instant, performed⟩ | ⟨_, _, same⟩
        · cases answer with
          | ok value =>
              obtain ⟨tasks, outbox, _, inserted, rfl⟩ :=
                Database.saveAll_ok (StoreOp.perform_saveAll_ok performed)
              cases inserted
              rfl
          | error error => rw [StoreOp.perform_error performed]
        · rw [same]
  | freshTaskId => rw [answered.2]
  | _ => rw [show after = before from answered]

namespace OutboxDrainer

theorem works_leaf : Works PortOp.leaf where
  loads _ := PortOp.leaf_reads rfl
  asks _ _ := ⟨trivial, rfl⟩
  now := ⟨trivial, rfl⟩
  saves write applied := ⟨works_applies.saves write applied, rfl⟩
  clears id expected := ⟨works_applies.clears id expected, rfl⟩

theorem apply_leaf {entry : OutboxEntry} (leaf : entry.mutation.spawns = false) :
    (apply entry).Every PortOp.leaf := by
  unfold apply
  split
  · exact applyUpdateRemote_every works_leaf.toHandles _ fun _ _ _ => ⟨trivial, rfl⟩
  · rename_i same
    rw [same] at leaf
    cases leaf
  · rename_i same
    rw [same] at leaf
    cases leaf
  · exact applyUpdateDraftIssue_every works_leaf.toHandles ..
  · rename_i same
    rw [same] at leaf
    cases leaf
  · exact applySetProjectStatus_every (works_leaf.asks _ rfl)
  · exact stampedOrRetry_every (works_leaf.asks _ rfl)
  · exact applyTypeRail_every (works_leaf.asks _ rfl) (works_leaf.clears _)
  · exact applyTypeRail_every (works_leaf.asks _ rfl) (works_leaf.clears _)
  all_goals exact stampedOrRetry_every (works_leaf.asks _ rfl)

theorem apply_follow_ups (entry : OutboxEntry) : (apply entry).Every fun op : PortOp =>
    ∀ follow ∈ op.queued, (apply follow).Every fun inner : PortOp => inner.queued = [] := by
  have follows : ∀ {op : PortOp}, op.queued = [] →
      ∀ follow ∈ op.queued, (apply follow).Every fun inner : PortOp => inner.queued = [] :=
    fun unqueued follow member => absurd (unqueued ▸ member) List.not_mem_nil
  refine apply_every ?_ ?_ entry fun _ _ => follows rfl
  · exact ⟨⟨fun _ => follows rfl, fun _ _ => follows rfl, follows rfl, fun _ _ => follows rfl⟩,
      fun _ _ => follows rfl⟩
  · refine ⟨fun op reads => follows (PortOp.leaf_reads reads).2, follows rfl, follows rfl,
      fun entry leaf follow member => ?_⟩
    obtain rfl := List.mem_singleton.mp member
    exact (apply_leaf leaf).mono fun _ inner => inner.2

theorem statusFollowUps_length (project : Project) (itemId : String) (task : Task) :
    (statusFollowUps project itemId task).length ≤ 3 := by
  have atMostOne : ∀ mutation : Option OutboxMutation, mutation.toList.length ≤ 1 := by
    intro mutation
    cases mutation <;> simp
  unfold statusFollowUps
  rw [List.length_append, List.length_append]
  exact Nat.add_le_add (Nat.add_le_add (atMostOne _) (atMostOne _)) (atMostOne _)

section Spending

variable {backoff : BackoffSchedule}

theorem raises_leaf {ε α : Type} {program : Service ε α} (all : program.Every PortOp.leaf) :
    program.Raises portMeaning (budget backoff) 0 :=
  .ofEvery (fun op leaf before answer after answered => by
    unfold budget
    rw [PortOp.leaf_outbox leaf answered]) all

theorem enqueueMutation_raises (taskId : TaskId) {mutation : OutboxMutation}
    (leaf : mutation.spawns = false) :
    (enqueueMutation taskId mutation).Raises portMeaning (budget backoff) (backoff.triesLeft 0) := by
  have minted : (newEntry taskId mutation : Action OutboxEntry).Every PortOp.leaf :=
    every_bind (every_callPort ⟨trivial, rfl⟩) fun id =>
      every_bind (every_clock ⟨trivial, rfl⟩) fun _ => trivial
  have inserts : ∀ entry : OutboxEntry, entry.mutation = mutation →
      (query (.enqueue entry) : Action Unit).Raises portMeaning (budget backoff)
        (backoff.triesLeft 0) := by
    intro entry same before result after ran
    cases result with
    | ok value =>
        obtain ⟨instant, performed⟩ := runs_query ran
        obtain ⟨outbox, inserted, rfl⟩ := StoreOp.perform_enqueue_ok performed
        have grown := @OutboxTable.weigh_enqueue backoff.owed _ _ _ inserted
        have within : backoff.owed entry ≤ _ := BackoffSchedule.owed_leaf (same ▸ leaf)
        exact Nat.le_trans grown (Nat.add_le_add_left within _)
    | error error =>
        rw [runs_query_error ran]
        exact Nat.le_add_right _ _
  exact (raises_leaf minted).after (newEntry_yields taskId mutation) inserts

theorem enqueueStatusFollowUp_raises (taskId : TaskId) (projectNodeId itemId : String) :
    (enqueueStatusFollowUp taskId projectNodeId itemId).Raises portMeaning (budget backoff)
      (3 * backoff.triesLeft 0) := by
  have reads : ∀ op : StoreOp, op.reads = true → (query op : Action op.Answer).Raises portMeaning
      (budget backoff) 0 := fun op reads => raises_leaf (every_query (PortOp.leaf_reads reads))
  refine (reads (.getTask taskId) rfl).after (yields_any _) fun task _ => ?_
  refine (reads (.getWorkspace _) rfl).after (yields_any _) fun workspace _ => ?_
  split
  · exact raises_done () _
  · refine (reads (.getProject _) rfl).after (yields_any _) fun project _ => ?_
    split
    · exact raises_done () _
    · refine (Raises.foldEach (fun _ mutation member =>
        enqueueMutation_raises taskId (statusFollowUps_spawns member)) ()).mono ?_
      exact Nat.mul_le_mul_right _ (statusFollowUps_length ..)

theorem enqueueIssueTypeFollowUp_raises (taskId : TaskId) (filingCanonical : String) :
    (enqueueIssueTypeFollowUp taskId filingCanonical).Raises portMeaning (budget backoff)
      (backoff.triesLeft 0) := by
  refine (raises_leaf (every_query (PortOp.leaf_reads rfl))).after (yields_any _) fun task _ => ?_
  split
  · exact raises_done () _
  · refine (raises_leaf (resolveProjectTolerant_every (fun _ => PortOp.leaf_reads) task)).after
      (yields_any _) fun project _ => ?_
    refine (raises_leaf (resolveTypeProjection_every (fun _ => PortOp.leaf_reads) ..)).after
      (resolveTypeProjection_rail ..) fun mutation rail => ?_
    split
    · exact raises_done () _
    · exact enqueueMutation_raises taskId (OutboxMutation.isTypeRail_spawns (rail _ rfl))

theorem request_raises (request : ProviderOp) : (tryRemote request : Action _).Raises portMeaning
    (budget backoff) 0 := raises_leaf (every_callPort ⟨trivial, rfl⟩)

theorem loadTask_raises (taskId : TaskId) : (loadTask taskId).Raises portMeaning
    (budget backoff) 0 := raises_leaf (every_query (PortOp.leaf_reads rfl))

theorem applyAddItem_raises (taskId : TaskId) (projectNodeId issueNodeId : String) :
    (applyAddItem taskId projectNodeId issueNodeId).Raises portMeaning (budget backoff)
      (3 * backoff.triesLeft 0) := by
  refine (request_raises _).after (yields_any _) fun answer _ => ?_
  split
  · exact raises_done _ _
  · dsimp only
    split
    · exact raises_done _ _
    · refine (raises_leaf (workspaceStillTargetsProject_every (fun _ => PortOp.leaf_reads) ..)).after
        (yields_any _) fun targets _ => ?_
      split
      · refine (raises_leaf (writeBackProjectItem_every works_leaf.toHandles ..)).after (yields_any _)
          fun _ _ => ?_
        exact (enqueueStatusFollowUp_raises _ _ _).bind (yields_any _) fun _ _ => raises_done _ 0
      · exact raises_done _ _

theorem applyCreateDraftIssue_raises (taskId : TaskId) (projectNodeId title body : String) :
    (applyCreateDraftIssue taskId projectNodeId title body).Raises portMeaning (budget backoff)
      (3 * backoff.triesLeft 0) := by
  refine (loadTask_raises taskId).after (yields_any _) fun task _ => ?_
  split
  · exact (enqueueStatusFollowUp_raises _ _ _).bind (yields_any _) fun _ _ => raises_done _ 0
  · refine (request_raises _).after (yields_any _) fun answer _ => ?_
    split
    · exact raises_done _ _
    · dsimp only
      split
      · exact raises_done _ _
      · refine (raises_leaf (writeBackProjectItem_every works_leaf.toHandles ..)).after (yields_any _)
          fun _ _ => ?_
        exact (enqueueStatusFollowUp_raises _ _ _).bind (yields_any _) fun _ _ => raises_done _ 0

theorem applyConvertDraftToIssue_raises (taskId : TaskId) (itemNodeId repoNodeId : String) :
    (applyConvertDraftToIssue taskId itemNodeId repoNodeId).Raises portMeaning (budget backoff)
      (backoff.triesLeft 0) := by
  refine (loadTask_raises taskId).after (yields_any _) fun task _ => ?_
  split
  · exact (enqueueIssueTypeFollowUp_raises _ _).bind (yields_any _) fun _ _ => raises_done _ 0
  · refine (request_raises _).after (yields_any _) fun answer _ => ?_
    split
    · exact raises_done _ _
    · split
      split
      · exact raises_done _ _
      · refine (raises_leaf (writeBackConvertedIssue_every works_leaf.toHandles ..)).after (yields_any _)
          fun _ _ => ?_
        exact (enqueueIssueTypeFollowUp_raises _ _).bind (yields_any _) fun _ _ => raises_done _ 0

theorem apply_raises (entry : OutboxEntry) : (apply entry).Raises portMeaning (budget backoff)
    (backoff.cost entry.mutation - 1) := by
  cases spawns : entry.mutation.spawns with
  | false => exact (raises_leaf (apply_leaf spawns)).mono (Nat.zero_le _)
  | true =>
      rw [BackoffSchedule.cost, if_pos spawns, Nat.add_sub_cancel]
      unfold apply
      split
      case h_2 => exact applyAddItem_raises _ _ _
      case h_3 => exact applyCreateDraftIssue_raises _ _ _ _
      case h_5 =>
        exact (applyConvertDraftToIssue_raises _ _ _).mono (Nat.le_mul_of_pos_left _ (by decide))
      all_goals
        rename_i same
        rw [same] at spawns
        cases spawns

theorem Turn.spends {before after : Journal} {entry : OutboxEntry}
    {closing : Except SyncError Unit} (turn : Turn backoff before entry closing after) :
    budget backoff after.1 + 1 ≤ budget backoff before.1 := by
  obtain ⟨claim, applies, closes⟩ := turn
  obtain ⟨stored, flipAt, found, pending, entryEq, flipped⟩ := claim.updates
  have held := (aside_runs (apply_applies entry) applies).entries _ _ claim.inflight.1
  have free : backoff.owed entry = 0 :=
    BackoffSchedule.owed_other (by rw [claim.inflight.2]; decide)
  have taken := @OutboxTable.weigh_updateEntry backoff.owed _
    (fun entry => { entry with status := .inflight, updatedAt := flipAt }) (fun _ => rfl) _ _ found
  rw [← flipped, ← entryEq, free, BackoffSchedule.owed_pending pending] at taken
  have sameTry : stored.attempts = entry.attempts ∧ stored.mutation = entry.mutation :=
    ⟨entryEq ▸ rfl, entryEq ▸ rfl⟩
  rw [sameTry.1, sameTry.2] at taken
  have queued := @apply_raises backoff entry _ _ _
    (unjournaled applies)
  have positive : 0 < backoff.cost entry.mutation := by
    unfold BackoffSchedule.cost
    split <;> omega
  have afford : backoff.cost entry.mutation ≤
      backoff.triesLeft entry.attempts * backoff.cost entry.mutation :=
    Nat.le_mul_of_pos_left _ (BackoffSchedule.triesLeft_pos ..)
  unfold budget at queued ⊢
  cases closes with
  | moved called claimless passed updated released =>
      have left := BackoffSchedule.owed_released released
      have moved := @OutboxTable.weigh_updateEntry backoff.owed _ _ ‹_› _ _ held
      rw [updated]
      omega
  | stuck called claimless blocked same =>
      rw [same]
      omega

theorem sweepTask_raises (task : Task) : (sweepTask () task).Raises portMeaning (budget backoff)
    (backoff.triesLeft 0) := by
  unfold sweepTask
  split
  · exact raises_done () _
  · refine (raises_leaf (planPendingIssueType_every (fun _ => PortOp.leaf_reads) task)).after
      (planPendingIssueType_rail task) fun mutation rail => ?_
    split
    · exact raises_done () _
    · exact enqueueMutation_raises task.id (OutboxMutation.isTypeRail_spawns (rail _ rfl))

/-- What a whole pass may cost: the outbox, and a type projection for every task that waits. -/
def passBudget (backoff : BackoffSchedule) (database : Database) : Nat :=
  budget backoff database +
    (database.listTasks { issueTypePending := true }).length * backoff.triesLeft 0

theorem enqueuePendingIssueTypes_spends {before after : Database} {result : Except SyncError Unit}
    (ran : enqueuePendingIssueTypes.Runs portMeaning before result after) :
    budget backoff after ≤ passBudget backoff before := by
  rcases runs_bind.mp ran with ⟨pending, middle, listed, swept⟩ | ⟨error, failed, _⟩
  · obtain ⟨instant, performed⟩ := runs_query listed
    cases performed
    exact Raises.foldEach (fun _ task _ => sweepTask_raises task) () before result after swept
  · rw [runs_query_error failed]
    exact Nat.le_add_right _ _

theorem Turn.claims {before after : Journal} {entry : OutboxEntry}
    {closing : Except SyncError Unit} (turn : Turn backoff before entry closing after) :
    claims after.2 = RepoLink.claims before.2 ++ [entry] := by
  obtain ⟨claim, applies, closes⟩ := turn
  have aside := aside_runs (apply_applies entry) applies
  cases closes with
  | moved called claimless =>
      rw [called, claims_append, claimless, List.append_nil, aside.claims, claim.claims]
  | stuck called claimless =>
      rw [called, claims_append, claimless, List.append_nil, aside.claims, claim.claims]

theorem Idles.claims {before after : Journal} {result : Except SyncError Unit}
    (idles : Idles before result after) : claims after.2 = RepoLink.claims before.2 := by
  cases idles with
  | drained _ called => rw [called, claims_append]; exact List.append_nil _
  | refused _ called => rw [called, claims_append]; exact List.append_nil _

theorem Idles.database {before after : Journal} {result : Except SyncError Unit}
    (idles : Idles before result after) : after.1 = before.1 := by
  cases idles <;> assumption

theorem drainLoop_spends {potential : Database → Nat} {tally : List OutboxEntry → Nat}
    (pays : ∀ before entry closing after, Turn backoff before entry closing after →
      tally (claims before.2 ++ [entry]) + potential after.1 ≤
        tally (claims before.2) + potential before.1) :
    ∀ {rounds : Nat} {before after : Journal} {result : Except SyncError Unit},
      (drainLoop backoff rounds).Runs journaled before result after →
      tally (claims after.2) + potential after.1 ≤ tally (claims before.2) + potential before.1 := by
  intro rounds
  induction rounds with
  | zero =>
      rintro before after result ⟨_, rfl⟩
      exact Nat.le_refl _
  | succ rounds ih =>
      intro before after result ran
      rcases runs_drainLoop ran with
        idles | ⟨entry, closing, middle, turn, ⟨_, rest⟩ | ⟨_, _, rfl⟩⟩
      · rw [idles.claims, idles.database]
      · have paid := pays before entry closing middle turn
        rw [← turn.claims] at paid
        exact Nat.le_trans (ih rest) paid
      · have paid := pays before entry closing after turn
        rw [← turn.claims] at paid
        exact paid

theorem drainLoop_ends : ∀ {rounds : Nat} {before after : Journal},
    (drainLoop backoff rounds).Runs journaled before (.ok ()) after →
    (∃ now, after.2.getLast? = some ⟨.store (.claimNextEligible now), .ok none⟩) ∨
      (claims after.2).length = (claims before.2).length + rounds := by
  intro rounds
  induction rounds with
  | zero =>
      rintro before after ⟨_, rfl⟩
      exact .inr rfl
  | succ rounds ih =>
      intro before after ran
      rcases runs_drainLoop ran with
        idles | ⟨entry, closing, middle, turn, ⟨_, rest⟩ | ⟨⟨error, rfl⟩, failed, _⟩⟩
      · cases idles with
        | drained _ called => exact .inl ⟨_, by rw [called, List.getLast?_append]; rfl⟩
      · refine (ih rest).imp_right fun counted => ?_
        rw [counted, turn.claims, List.length_append, List.length_singleton]
        omega
      · cases failed

def triesOf (backoff : BackoffSchedule) (id : OutboxEntryId) (database : Database) : Nat :=
  match database.entry id with
  | none => backoff.triesLeft 0
  | some entry => if entry.status = .pending then backoff.triesLeft entry.attempts else 0

theorem triesOf_le (backoff : BackoffSchedule) (id : OutboxEntryId) (database : Database) :
    triesOf backoff id database ≤ backoff.triesLeft 0 := by
  unfold triesOf
  split
  · exact Nat.le_refl _
  · split
    · exact BackoffSchedule.triesLeft_le ..
    · exact Nat.zero_le _

theorem Aside.triesOf {before after : Journal} (aside : Aside before after) (id : OutboxEntryId) :
    triesOf backoff id after.1 ≤ OutboxDrainer.triesOf backoff id before.1 := by
  cases stored : before.1.entry id with
  | none =>
      have whole : OutboxDrainer.triesOf backoff id before.1 = backoff.triesLeft 0 := by
        rw [OutboxDrainer.triesOf, stored]
      rw [whole]
      exact triesOf_le ..
  | some entry =>
      have kept := aside.entries id entry stored
      unfold OutboxDrainer.triesOf
      rw [stored, kept]

/-- A turn uses up one try of its entry, and none of the others. -/
theorem Turn.tries {before after : Journal} {entry : OutboxEntry} {closing : Except SyncError Unit}
    (turn : Turn backoff before entry closing after) (id : OutboxEntryId) :
    triesOf backoff id after.1 + (if entry.id = id then 1 else 0) ≤ triesOf backoff id before.1 := by
  obtain ⟨claim, applies, closes⟩ := turn
  have aside := aside_runs (apply_applies entry) applies
  by_cases same : entry.id = id
  · subst same
    obtain ⟨stored, flipAt, found, pending, entryEq, _⟩ := claim.updates
    have held := aside.entries _ _ claim.inflight.1
    have had : triesOf backoff entry.id before.1 = backoff.triesLeft entry.attempts := by
      rw [triesOf, show before.1.entry entry.id = some stored from found]
      dsimp only
      rw [if_pos pending, entryEq]
    rw [had, if_pos rfl]
    have positive := BackoffSchedule.triesLeft_pos entry.attempts backoff
    cases closes with
    | @moved after later change keeps called claimless passed updated released =>
        have moved : after.1.entry entry.id = some (change entry) := by
          unfold Database.entry
          rw [updated, OutboxTable.entry_updateEntry, if_pos rfl,
            show OutboxTable.entry _ entry.id = some entry from held, Option.map_some]
        rw [triesOf, moved]
        dsimp only
        obtain ⟨_, _, terminal | ⟨pending, attempts, below⟩⟩ := released
        · rw [if_neg (by rintro isPending; rw [isPending] at terminal; cases terminal)]
          omega
        · rw [attempts] at below
          rw [if_pos pending, attempts, BackoffSchedule.triesLeft_succ below]
    | stuck called claimless blocked unmoved =>
        have left : after.1.entry entry.id = some entry := by
          unfold Database.entry
          rw [unmoved]
          exact held
        rw [triesOf, left]
        dsimp only
        rw [if_neg (by rw [claim.inflight.2]; decide)]
        omega
  · have others : triesOf backoff id after.1 ≤ triesOf backoff id before.1 := by
      have still : after.1.entry id = _ := closes.others fun sameId => same sameId.symm
      have claimed := claim.others fun sameId => same sameId.symm
      have applied := @Aside.triesOf backoff _ _ aside id
      unfold triesOf at applied ⊢
      rw [still]
      rw [claimed] at applied
      exact applied
    rw [if_neg same]
    exact others

/-- A pass ends after finitely many claims, whatever the provider answers, the clock says and the
store refuses: a pass that is given more rounds than its budget is never cut off. No entry is tried
more often than the schedule leaves it tries, and follow-ups queue no further entries. -/
theorem drain_pass_bounded {rounds : Nat} {database : Database} {after : Journal}
    {result : Except SyncError Unit}
    (ran : (drainOnce backoff rounds).Runs journaled (database, []) result after) :
    (claims after.2).length ≤ passBudget backoff database ∧
      (passBudget backoff database < rounds → result = .ok () →
        ∃ now, after.2.getLast? = some ⟨.store (.claimNextEligible now), .ok none⟩) ∧
      (∀ id, ((claims after.2).map OutboxEntry.id).count id ≤
        max 1 (backoff.maxAttempts - ((database.entry id).elim 0 OutboxEntry.attempts))) ∧
      ∀ entry, (apply entry).Every fun op : PortOp => ∀ follow ∈ op.queued,
        (apply follow).Every fun inner : PortOp => inner.queued = [] := by
  have lone : ∀ middle, Aside (database, []) middle → claims middle.2 = [] := fun _ aside =>
    aside.claims
  have sweep := @aside_runs SyncError Unit _ (enqueuePendingIssueTypes_every enqueues_applies)
  have tries : ∀ id, triesOf backoff id database ≤
      max 1 (backoff.maxAttempts - ((database.entry id).elim 0 OutboxEntry.attempts)) := by
    intro id
    unfold triesOf
    cases database.entry id with
    | none => exact Nat.le_refl _
    | some entry =>
        dsimp only
        split
        · exact Nat.le_refl _
        · exact Nat.zero_le _
  suffices bounded : (claims after.2).length ≤ passBudget backoff database ∧
      (result = .ok () → (∃ now, after.2.getLast? =
        some ⟨.store (.claimNextEligible now), .ok none⟩) ∨ (claims after.2).length = rounds) ∧
      ∀ id, ((claims after.2).map OutboxEntry.id).count id ≤ triesOf backoff id database by
    refine ⟨bounded.1, fun enough ended => ?_, fun id => (bounded.2.2 id).trans (tries id),
      apply_follow_ups⟩
    rcases bounded.2.1 ended with drained | cutOff
    · exact drained
    · exact absurd bounded.1 (by omega)
  rcases runs_bind.mp ran with ⟨_, middle, swept, looped⟩ | ⟨error, failed, rfl⟩
  · have aside := sweep swept
    have prepared : budget backoff middle.1 ≤ passBudget backoff database :=
      enqueuePendingIssueTypes_spends (unjournaled swept)
    have unclaimed := lone middle aside
    have spent := @drainLoop_spends backoff (budget backoff) List.length
      (fun _ _ _ _ turn => by
        have paid := turn.spends
        rw [List.length_append, List.length_singleton]
        omega) _ _ _ _ looped
    refine ⟨?_, fun ended => ?_, fun id => ?_⟩
    · rw [unclaimed, List.length_nil] at spent
      omega
    · subst ended
      have ends := drainLoop_ends looped
      rw [unclaimed, List.length_nil, Nat.zero_add] at ends
      exact ends
    · have paid := @drainLoop_spends backoff (triesOf backoff id)
        (fun entries => (entries.map OutboxEntry.id).count id) (fun _ _ _ _ turn => by
          have tried := turn.tries id
          rw [List.map_append, List.count_append, List.map_singleton, List.count_singleton]
          simp only [beq_iff_eq] at tried ⊢
          omega) _ _ _ _ looped
      have before : _ ≤ triesOf backoff id database := @Aside.triesOf backoff _ _ aside id
      rw [unclaimed] at paid
      simp only [List.map_nil, List.count_nil, Nat.zero_add] at paid
      omega
  · have aside := sweep failed
    rw [lone after aside]
    exact ⟨Nat.zero_le _, nofun, fun _ => Nat.zero_le _⟩

end Spending

end OutboxDrainer

theorem drain_pass_bounded_draft : passBudget .standard queuedDraft = 80 ∧
    (claims (journal (faultyPass 81 fun _ => false).2).2).length ≤ 80 ∧
    ∃ now, (journal (faultyPass 81 fun _ => false).2).2.getLast? =
      some ⟨.store (.claimNextEligible now), .ok none⟩ := by
  have budgetEq : passBudget .standard queuedDraft = 80 := by decide
  have bounded := drain_pass_bounded (faultyPass_ran 81 fun _ => false)
  rw [budgetEq] at bounded
  exact ⟨budgetEq, bounded.1, bounded.2.1 (by decide) (by decide)⟩

end RepoLink
