import RepoLink.Properties.OwedUpdates

/-!
The durable intent to project an issue type. Only a compare-and-clear ends it, right after the
type was sent, and until then nobody else sends a type for the task: a task has one entry inflight
at a time, and an orphan is put back when no drain is running.
-/

namespace RepoLink

open Effects Program KeyedTable

/-- The provider call by which a `Set*Type` mutation is applied. -/
def OutboxMutation.sets : OutboxMutation → ProviderOp → Bool
  | .setProjectType projectNodeId itemNodeId typeFieldId optionId _ _,
    .setSingleSelectOption project item field option =>
    project = projectNodeId && item = itemNodeId && field = typeFieldId && option = optionId
  | .setIssueType issueNodeId issueTypeId _ _, .setIssueType node typeId =>
    node = issueNodeId && typeId = issueTypeId
  | _, _ => false

/-- The local issue type that a mutation carries, where it is recorded. -/
def OutboxMutation.carried : OutboxMutation → Option (Option IssueType)
  | .setProjectType _ _ _ _ localIssueType true | .setIssueType _ _ localIssueType true =>
    some (localIssueType.map IssueType.ofString)
  | _ => none

inductive Worker where
  | drain (number : Nat)
  | client
  | restart
deriving DecidableEq, Repr

namespace Worker

def sender : Worker → Sender
  | .drain number => .drain number
  | .client | .restart => .client

/-- What a call sends of the types that its drain holds, with whether it succeeded. -/
def sends : Worker → Call ports → List (Nat × OutboxEntry) → List (OutboxEntry × Bool)
  | .drain number, ⟨.provider op, answer⟩, inHand =>
    (inHand.filter fun held => held.1 = number && held.2.mutation.sets op).map fun held =>
      (held.2, (answer : Except PortError op.Answer).isOk)
  | _, _, _ => []

/-- A restart puts back what drains that have stopped left inflight, so no drain is running. -/
def beside : Worker → Worker → Prop
  | .drain number, .drain other => number ≠ other
  | .drain _, .restart | .restart, .drain _ => False
  | _, _ => True

end Worker

/-- The claims that are held, and every type that was sent, the last one first. -/
structure Typed extends Routed where
  sent : List (OutboxEntry × Bool)

def Typed.lastSent (id : TaskId) (world : Typed) : Option (OutboxEntry × Bool) :=
  world.sent.find? fun sent => sent.1.taskId = id

structure Typed.Sole (world : Typed) : Prop where
  held : ∀ number entry, (number, entry) ∈ world.inHand →
    world.database.entry entry.id = some entry ∧ entry.status = .inflight
  sole : ∀ number other entry another, (number, entry) ∈ world.inHand →
    (other, another) ∈ world.inHand → entry.taskId = another.taskId → number = other

/-- The calls that neither claim, settle nor send a type. -/
def PortOp.modest : PortOp → Prop
  | .store (.claimNextEligible _) | .store .requeueOrphanedInflight
  | .store (.clearIssueTypePending ..) | .store (.deletePendingAddItems _)
  | .provider (.setSingleSelectOption ..) | .provider (.setIssueType ..) => False
  | .store op => op.resolves = none
  | _ => True

/-- A drain ends an intent only when the last type sent for the task is the one that it carries. -/
inductive Typed.Lawful (world : Typed) : Worker → PortOp → Prop
  | modest {worker : Worker} {op : PortOp} (modest : op.modest) : Lawful world worker op
  | requeues : Lawful world .restart (.store .requeueOrphanedInflight)
  | claims (number : Nat) (now : Timestamp) :
      Lawful world (.drain number) (.store (.claimNextEligible now))
  | asks {number : Nat} {entry : OutboxEntry} {op : ProviderOp}
      (mine : (number, entry) ∈ world.inHand)
      (own : entry.mutation.isTypeRail = true → entry.mutation.sets op = true) :
      Lawful world (.drain number) (.provider op)
  | clears {number : Nat} {entry : OutboxEntry} {expected : Option IssueType}
      (carried : entry.mutation.carried = some expected)
      (applied : world.lastSent entry.taskId = some (entry, true)) :
      Lawful world (.drain number) (.store (.clearIssueTypePending entry.taskId expected))
  | settles {number : Nat} {entry : OutboxEntry} {op : StoreOp} {status : OutboxStatus}
      (mine : (number, entry) ∈ world.inHand) (names : op.resolves = some (entry.id, status)) :
      Lawful world (.drain number) (.store op)

/-- What the others leave of what a drain holds. -/
structure Leaves (number : Nat) (before after : Typed) : Prop where
  hand : ∀ entry, (number, entry) ∈ after.inHand ↔ (number, entry) ∈ before.inHand
  sent : ∀ entry, (number, entry) ∈ before.inHand →
    after.lastSent entry.taskId = before.lastSent entry.taskId

def intending : Discipline ports Typed Worker where
  meaning worker op before answer after :=
    portMeaning op before.database answer after.database ∧
    after.inHand = worker.sender.holds ⟨op, answer⟩ before.inHand ∧
    after.sent = worker.sends ⟨op, answer⟩ before.inHand ++ before.sent
  inv := Typed.Sole
  rely worker before after := ∀ number, worker = .drain number → Leaves number before after
  guarantee worker before after := worker ≠ .restart →
    ∀ number, worker ≠ .drain number → Leaves number before after
  must worker op world := world.Lawful worker op

/-- Edits, rollbacks, saves of any copies, drains, and restarts that put orphans back. -/
inductive TypeWork : Typed → Proc ports Empty Worker → Prop
  | client {world : Typed} {program : Program ports Empty Unit}
      (modest : program.Every PortOp.modest) : TypeWork world ⟨.client, program⟩
  | drain {world : Typed} (number : Nat) (backoff : BackoffSchedule) (rounds : Nat) :
      TypeWork world ⟨.drain number, (OutboxDrainer.drainOnce backoff rounds).detached⟩
  | restart {world : Typed} {program : Program ports Empty Unit}
      (restores : program.Every fun op : PortOp =>
        op = .store .requeueOrphanedInflight ∨ op.modest) : TypeWork world ⟨.restart, program⟩

section Steps

variable {worker : Worker} {op : PortOp} {before after : Typed} {answer : op.Answer}

theorem PortOp.modest_resolves {op : StoreOp} (modest : (PortOp.store op).modest) :
    op.resolves = none := by
  cases op <;> first | rfl | exact modest

theorem PortOp.modest_letsGo {op : PortOp} (modest : op.modest) : op.letsGo = false := by
  cases op with
  | store op => cases op <;> first | rfl | exact modest.elim | cases modest
  | _ => rfl

theorem holds_calm {sender : Sender} {op : PortOp} (keeps : op.letsGo = false)
    (requeues : op ≠ .store .requeueOrphanedInflight) (answer : op.Answer)
    (inHand : List (Nat × OutboxEntry)) : sender.holds ⟨op, answer⟩ inHand = inHand := by
  have claimless : claimOf ⟨op, answer⟩ = none := by
    cases op with
    | store op => cases op <;> first | rfl | cases keeps
    | _ => rfl
  unfold Sender.holds
  split
  · rename_i same
    exact (requeues (congrArg Sigma.fst same)).elim
  · rw [claimless, keeps, if_neg Bool.false_ne_true]
    rfl
  · rfl

theorem PortOp.modest_requeues {op : PortOp} (modest : op.modest) :
    op ≠ .store .requeueOrphanedInflight := by
  rintro rfl
  exact modest

theorem claimed_alone (answered : portMeaning op before.database answer after.database)
    {claimed other : OutboxEntry} (claims : claimOf ⟨op, answer⟩ = some claimed)
    {key : OutboxEntryId} (stored : before.database.entry key = some other)
    (busy : other.status = .inflight) : other.taskId ≠ claimed.taskId := by
  obtain ⟨isStored, inflight, earlier, earlierStored, pending⟩ := claimed_stored answered claims
  cases op with
  | store op =>
      cases op with
      | claimNextEligible now =>
          rcases answered with ⟨instant, performed⟩ | ⟨_, failed, _⟩
          · obtain ⟨next, nextFound, sameTask, _⟩ :=
              StoreOp.perform_entry performed nofun earlierStored
            rw [isStored] at nextFound
            cases nextFound
            have flipped := congrArg Prod.snd performed
            change StoreOp.overOutbox before.database _ = after.database at flipped
            rw [← flipped] at isStored
            exact fun sibling => OutboxTable.claim_alone earlierStored pending isStored inflight
              stored (sibling.trans sameTask) busy
          · rw [failed] at claims
            cases claims
      | _ => cases claims
  | _ => cases claims

theorem Typed.Lawful.stores {op : StoreOp} (lawful : before.Lawful worker (.store op)) :
    ∀ id, op ≠ .deletePendingAddItems id := by
  rintro id rfl
  cases lawful with
  | modest modest => exact modest
  | settles mine names => cases names

/-- A held entry stays as it is, unless its own drain settles it or a restart ends every claim. -/
theorem Typed.Sole.kept (sole : before.Sole) (lawful : before.Lawful worker op)
    (answered : intending.meaning worker op before answer after) {number : Nat}
    {entry : OutboxEntry} (mine : (number, entry) ∈ before.inHand)
    (still : (number, entry) ∈ after.inHand) : after.database.entry entry.id = some entry := by
  obtain ⟨performed, held, _⟩ := answered
  obtain ⟨found, busy⟩ := sole.held number entry mine
  have stays : after.database = before.database → after.database.entry entry.id = some entry :=
    fun same => same ▸ found
  cases op with
  | store op =>
      rcases performed with ⟨instant, performed⟩ | ⟨_, _, same⟩
      · obtain ⟨next, nextFound, _, _, step⟩ :=
          StoreOp.perform_entry performed lawful.stores found
        cases step with
        | same unchanged => exact unchanged ▸ nextFound
        | claimed byClaim was is => cases busy.symm.trans was
        | requeued byRequeue was is =>
            subst byRequeue
            obtain ⟨answerEq, _⟩ := Prod.mk.inj performed
            subst answerEq
            rw [held] at still
            cases worker <;> cases still
        | resolved names =>
            cases lawful with
            | modest modest => cases names.symm.trans (PortOp.modest_resolves modest)
            | requeues | claims | clears => cases names
            | @settles owner other _ status otherMine otherNames =>
                rw [names] at otherNames
                have sameId := (Prod.mk.inj (Option.some.inj otherNames)).1
                obtain ⟨otherFound, _⟩ := sole.held owner other otherMine
                rw [← sameId, found] at otherFound
                cases otherFound
                have lets := StoreOp.resolves_lets names
                rw [held] at still
                exact absurd (sole.sole _ _ _ _ mine otherMine rfl)
                  (holds_lets lets.1 (lets.2 answer) still)
      · exact stays same
  | _ =>
      refine stays ?_
      first | exact performed | exact performed.2

theorem Typed.Sole.step (sole : before.Sole) (lawful : before.Lawful worker op)
    (answered : intending.meaning worker op before answer after) : after.Sole where
  held := by
    intro number entry inHand
    rcases holds_source (answered.2.1 ▸ inHand) with earlier | ⟨_, claims⟩
    · exact ⟨sole.kept lawful answered earlier inHand, (sole.held number entry earlier).2⟩
    · exact ⟨(claimed_stored answered.1 claims).1, (claimed_stored answered.1 claims).2.1⟩
  sole := by
    intro number other entry another inHand otherInHand sameTask
    -- no entry of the task is inflight when one of them is claimed
    have alone : ∀ {number entry another}, (number, entry) ∈ before.inHand →
        claimOf ⟨op, answer⟩ = some another → entry.taskId ≠ another.taskId := by
      intro number entry another earlier claims same
      obtain ⟨found, busy⟩ := sole.held number entry earlier
      exact claimed_alone answered.1 claims found busy same
    rcases holds_source (answered.2.1 ▸ inHand) with earlier | ⟨mine, claims⟩
    · rcases holds_source (answered.2.1 ▸ otherInHand) with otherEarlier | ⟨_, otherClaims⟩
      · exact sole.sole _ _ _ _ earlier otherEarlier sameTask
      · exact absurd sameTask (alone earlier otherClaims)
    · rcases holds_source (answered.2.1 ▸ otherInHand) with otherEarlier | ⟨others, _⟩
      · exact absurd sameTask.symm (alone otherEarlier claims)
      · exact Sender.drain.inj (mine.symm.trans others)

theorem sends_held {number : Nat} {made : Call ports} {inHand : List (Nat × OutboxEntry)}
    {sent : OutboxEntry × Bool} (member : sent ∈ (Worker.drain number).sends made inHand) :
    (number, sent.1) ∈ inHand := by
  unfold Worker.sends at member
  split at member
  · rename_i same
    cases same
    obtain ⟨⟨other, entry⟩, kept, rfl⟩ := List.mem_map.mp member
    obtain ⟨mine, sends⟩ := List.mem_filter.mp kept
    obtain rfl := of_decide_eq_true (Bool.and_eq_true_iff.mp sends).1
    exact mine
  · cases member

theorem holds_others {sender : Sender} {made : Call ports} {inHand : List (Nat × OutboxEntry)}
    {number : Nat} (others : sender ≠ .drain number)
    (requeues : made.1 ≠ .store .requeueOrphanedInflight) (entry : OutboxEntry) :
    (number, entry) ∈ sender.holds made inHand ↔ (number, entry) ∈ inHand := by
  constructor
  · exact fun held => (holds_source held).resolve_right fun claims => others claims.1
  · intro mine
    unfold Sender.holds
    split
    · exact (requeues rfl).elim
    · rename_i owner _
      refine List.mem_append_right _ ?_
      split
      · exact List.mem_filter.mpr ⟨mine, decide_eq_true fun same => others (same ▸ rfl)⟩
      · exact mine
    · exact mine

theorem Typed.Lawful.requeues_restart (lawful : before.Lawful worker op)
    (running : worker ≠ .restart) : op ≠ .store .requeueOrphanedInflight := by
  rintro rfl
  cases lawful with
  | modest modest => exact modest
  | requeues => exact running rfl
  | settles mine names => cases names

theorem Typed.Sole.leaves (sole : before.Sole) (lawful : before.Lawful worker op)
    (answered : intending.meaning worker op before answer after) :
    intending.guarantee worker before after := by
  intro running number others
  obtain ⟨_, held, sent⟩ := answered
  have otherSender : worker.sender ≠ .drain number := by
    cases worker with
    | drain other => exact fun same => others (congrArg Worker.drain (Sender.drain.inj same))
    | client | restart => nofun
  constructor
  · intro entry
    rw [held]
    exact holds_others otherSender (lawful.requeues_restart running) entry
  · intro entry mine
    have apart : ∀ fresh ∈ worker.sends ⟨op, answer⟩ before.inHand,
        ¬decide (fresh.1.taskId = entry.taskId) = true := by
      intro fresh member same
      cases worker with
      | drain other =>
          have sole := sole.sole _ _ _ _ (sends_held member) mine (of_decide_eq_true same)
          exact others (congrArg Worker.drain sole)
      | client | restart => cases member
    rw [Typed.lastSent, sent, List.find?_append, List.find?_eq_none.mpr apart, Option.none_or]
    rfl

theorem intending_step (sole : before.Sole) (lawful : before.Lawful worker op)
    (answered : intending.meaning worker op before answer after) :
    after.Sole ∧ intending.guarantee worker before after :=
  ⟨sole.step lawful answered, sole.leaves lawful answered⟩

end Steps

section Drains

variable {number : Nat} {entry : OutboxEntry}

/-- A drain holds one entry. -/
def Typed.Mine (number : Nat) (entry : OutboxEntry) (world : Typed) : Prop :=
  (number, entry) ∈ world.inHand ∧ ∀ other, (number, other) ∈ world.inHand → other = entry

theorem Leaves.mine {before after : Typed} (leaves : Leaves number before after)
    (mine : before.Mine number entry) : after.Mine number entry :=
  ⟨(leaves.hand entry).mpr mine.1, fun other held => mine.2 other ((leaves.hand other).mp held)⟩

theorem mine_steps {before after : Typed}
    (steps : Relation.ReflTransGen (intending.rely (.drain number)) before after)
    (mine : before.Mine number entry) :
    after.Mine number entry ∧ after.lastSent entry.taskId = before.lastSent entry.taskId := by
  induction steps with
  | refl => exact ⟨mine, rfl⟩
  | tail _ last ih =>
      have leaves := last number rfl
      exact ⟨leaves.mine ih.1, (leaves.sent entry ih.1.1).trans ih.2⟩

theorem Typed.Mine.stays {world : Typed} (mine : world.Mine number entry) : ∀ later,
    Relation.ReflTransGen (intending.rely (.drain number)) world later → intending.inv later →
    later.Mine number entry := fun _ steps _ => (mine_steps steps mine).1

theorem Typed.Mine.calm {before after : Typed} {op : PortOp} {answer : op.Answer}
    (mine : before.Mine number entry)
    (held : after.inHand = (Sender.drain number).holds ⟨op, answer⟩ before.inHand)
    (keeps : op.letsGo = false) (requeues : op ≠ .store .requeueOrphanedInflight) :
    after.Mine number entry := by
  rw [Typed.Mine, held, holds_calm keeps requeues]
  exact mine

/-- The calls by which a drain handles what it holds. -/
def PortOp.handling (entry : OutboxEntry) (op : PortOp) : Prop :=
  op.modest ∨ ∃ request, op = .provider request ∧
    (entry.mutation.isTypeRail = true → entry.mutation.sets request = true)

theorem handling_lawful {world : Typed} {op : PortOp} (handling : op.handling entry)
    (mine : world.Mine number entry) : world.Lawful (.drain number) op := by
  rcases handling with modest | ⟨request, rfl, own⟩
  · exact .modest modest
  · exact .asks mine.1 own

theorem handling_calm {op : PortOp} (handling : op.handling entry) :
    op.letsGo = false ∧ op ≠ .store .requeueOrphanedInflight := by
  rcases handling with modest | ⟨request, rfl, _⟩
  · exact ⟨PortOp.modest_letsGo modest, PortOp.modest_requeues modest⟩
  · exact ⟨rfl, nofun⟩

theorem safe_handling {ε α : Type} {program : Service ε α} {world : Typed}
    (handling : program.Every (PortOp.handling entry)) (mine : world.Mine number entry) :
    program.Safe intending (.drain number) (fun _ later => later.Mine number entry) world := by
  refine Safe.keeping ?_ ?_ handling mine
  · exact fun before after leaves mine => (leaves number rfl).mine mine
  · intro op handling before sole mine
    have lawful := handling_lawful handling mine
    refine ⟨lawful, fun answer after answered => ?_⟩
    obtain ⟨keeps, requeues⟩ := handling_calm handling
    exact ⟨sole.step lawful answered, sole.leaves lawful answered,
      mine.calm answered.2.1 keeps requeues⟩

theorem handling_then {ε α β : Type} {program : Service ε α} {next : α → Service ε β}
    {world : Typed} (sole : world.Sole) (handling : program.Every (PortOp.handling entry))
    (mine : world.Mine number entry)
    (rest : ∀ value later, later.Sole → later.Mine number entry →
      (next value).Safe intending (.drain number) (fun _ _ => True) later) :
    (program.bind next).Safe intending (.drain number) (fun _ _ => True) world := by
  refine Safe.bind sole ((safe_handling handling mine).mono fun result later laterSole kept => ?_)
  cases result with
  | ok value => exact rest value later laterSole kept
  | error error => exact fun _ _ _ => trivial

theorem handling_modest {ε α : Type} {program : Service ε α}
    (modest : program.Every PortOp.modest) : program.Every (PortOp.handling entry) :=
  modest.mono fun _ => .inl

theorem modest_reads {op : StoreOp} (reads : op.reads = true) : (PortOp.store op).modest := by
  cases op <;> first | rfl | cases reads

theorem enqueues_modest : OutboxDrainer.Enqueues PortOp.modest :=
  ⟨fun _ => modest_reads, trivial, trivial, fun _ _ => rfl⟩

theorem handles_other (other : entry.mutation.isTypeRail = false) :
    OutboxDrainer.Handles (PortOp.handling entry) := by
  refine ⟨fun _ => .inl rfl, fun request _ => .inr ⟨request, rfl, fun rail => ?_⟩, .inl trivial,
    fun _ _ => .inl rfl⟩
  cases other.symm.trans rail

theorem lastSent_sent {before after : Typed} {request : ProviderOp}
    {answer : (PortOp.provider request).Answer} (mine : before.Mine number entry)
    (sets : entry.mutation.sets request = true)
    (answered : intending.meaning (.drain number) (.provider request) before answer after) :
    after.lastSent entry.taskId =
      some (entry, (answer : Except PortError request.Answer).isOk) := by
  have first : ((Worker.drain number).sends ⟨.provider request, answer⟩ before.inHand).find?
      (fun sent => sent.1.taskId = entry.taskId) =
      some (entry, (answer : Except PortError request.Answer).isOk) := by
    have found : ∃ sent, ((Worker.drain number).sends ⟨.provider request, answer⟩
        before.inHand).find? (fun sent => sent.1.taskId = entry.taskId) = some sent := by
      have sent : (entry, (answer : Except PortError request.Answer).isOk) ∈
          (Worker.drain number).sends ⟨.provider request, answer⟩ before.inHand :=
        List.mem_map.mpr ⟨(number, entry), List.mem_filter.mpr ⟨mine.1, by simp [sets]⟩, rfl⟩
      exact Option.isSome_iff_exists.mp (List.find?_isSome.mpr ⟨_, sent, decide_eq_true rfl⟩)
    obtain ⟨⟨other, ok⟩, found⟩ := found
    have member := List.mem_of_find?_eq_some found
    obtain ⟨held, _, same⟩ := List.mem_map.mp member
    rw [found, mine.2 other (sends_held member)]
    exact congrArg (fun ok => some (entry, ok)) (congrArg Prod.snd same).symm
  rw [Typed.lastSent, answered.2.2, List.find?_append, first, Option.some_or]

theorem safe_typeRail {world : Typed} {request : ProviderOp} {localIssueType : Option String}
    {recorded : Bool} (mine : world.Mine number entry)
    (sets : entry.mutation.sets request = true)
    (carried : recorded = true →
      entry.mutation.carried = some (localIssueType.map IssueType.ofString)) :
    (OutboxDrainer.applyTypeRail entry.taskId request localIssueType recorded).Safe intending
      (.drain number) (fun _ later => later.Mine number entry) world := by
  intro later steps sole
  have mine := (mine_steps steps mine).1
  have lawful : later.Lawful (.drain number) (.provider request) := .asks mine.1 fun _ => sets
  refine ⟨lawful, fun answer sent answered => ?_⟩
  obtain ⟨sentSole, guaranteed⟩ := intending_step sole lawful answered
  refine ⟨sentSole, guaranteed, ?_⟩
  have sentMine : sent.Mine number entry := mine.calm answered.2.1 rfl nofun
  have last := lastSent_sent mine sets answered
  obtain error | value : Except PortError request.Answer := answer
  · exact sentMine.stays
  · change Safe _ _ (if recorded then _ else _ : OutboxDrainer.Action ApplyDisposition) _ _
    split
    · rename_i isRecorded
      intro cleared steps clearedSole
      obtain ⟨clearedMine, same⟩ := mine_steps steps sentMine
      have lawful : cleared.Lawful (.drain number)
          (.store (.clearIssueTypePending entry.taskId (localIssueType.map IssueType.ofString))) :=
        .clears (carried isRecorded) (same.trans last)
      refine ⟨lawful, fun answer settled answered => ?_⟩
      obtain ⟨settledSole, guaranteed⟩ := intending_step clearedSole lawful answered
      refine ⟨settledSole, guaranteed, ?_⟩
      have settledMine : settled.Mine number entry := clearedMine.calm answered.2.1 rfl nofun
      cases answer with
      | error error => exact settledMine.stays
      | ok value => exact settledMine.stays
    · exact sentMine.stays

theorem safe_applies {world : Typed} (mine : world.Mine number entry) :
    (OutboxDrainer.apply entry).Safe intending (.drain number)
      (fun _ later => later.Mine number entry) world := by
  cases rail : entry.mutation.isTypeRail with
  | false =>
      have handles := handles_other rail
      refine safe_handling (OutboxDrainer.apply_every_of handles ?_ entry ?_ ?_) mine
      · exact ⟨fun op reads => .inl (modest_reads reads), .inl trivial, .inl trivial,
          fun _ _ => .inl rfl⟩
      · exact fun request _ => .inr ⟨_, rfl, fun isRail => nomatch rail.symm.trans isRail⟩
      · exact fun isRail => nomatch rail.symm.trans isRail
  | true =>
      unfold OutboxDrainer.apply
      split
      all_goals rename_i same
      all_goals first
        | (rw [same] at rail; cases rail; done)
        | (refine safe_typeRail mine (by rw [same]; simp [OutboxMutation.sets]) fun isRecorded => ?_
           rw [same, isRecorded]
           rfl)

theorem safe_settles {op : StoreOp} {status : OutboxStatus} {world : Typed}
    (mine : world.Mine number entry) (names : op.resolves = some (entry.id, status)) :
    (query op : Service SyncError op.Answer).Safe intending (.drain number) (fun _ _ => True)
      world := by
  intro later steps sole
  have lawful : later.Lawful (.drain number) (.store op) :=
    .settles (mine_steps steps mine).1.1 names
  refine ⟨lawful, fun answer after answered => ?_⟩
  obtain ⟨afterSole, guaranteed⟩ := intending_step sole lawful answered
  refine ⟨afterSole, guaranteed, ?_⟩
  cases answer <;> exact fun _ _ _ => trivial

theorem surfaceConflict_modest (taskId : TaskId) :
    (OutboxDrainer.surfaceConflict taskId).Every PortOp.modest := by
  unfold OutboxDrainer.surfaceConflict
  refine every_bind (every_callPort rfl) fun answer => ?_
  split
  · trivial
  · refine every_bind (every_clock trivial) fun now => ?_
    split
    · trivial
    · exact every_query rfl

theorem safe_reschedules {world : Typed} (sole : world.Sole) (mine : world.Mine number entry)
    (backoff : BackoffSchedule) (error : SyncError) :
    (OutboxDrainer.reschedule backoff entry error).Safe intending (.drain number)
      (fun _ _ => True) world := by
  by_cases below : entry.attempts + 1 < backoff.maxAttempts
  · simp only [OutboxDrainer.reschedule, below, ↓reduceIte]
    exact handling_then sole (handling_modest (every_clock trivial)) mine
      fun _ _ _ mine => safe_settles mine rfl
  · simp only [OutboxDrainer.reschedule, below, ↓reduceIte]
    exact safe_settles mine rfl

theorem safe_resolves {world : Typed} (sole : world.Sole) (mine : world.Mine number entry)
    (backoff : BackoffSchedule) (outcome : Except SyncError ApplyDisposition) :
    (OutboxDrainer.resolve backoff entry outcome).Safe intending (.drain number)
      (fun _ _ => True) world := by
  unfold OutboxDrainer.resolve
  split
  · refine handling_then sole (handling_modest (every_clock trivial)) mine ?_
    intro now timed timedSole mine
    refine handling_then timedSole (handling_modest (every_query rfl)) mine ?_
    exact fun _ _ _ mine => safe_settles mine rfl
  · exact handling_then sole (handling_modest (surfaceConflict_modest _)) mine
      fun _ _ _ mine => safe_settles mine rfl
  · exact safe_reschedules sole mine backoff _
  · exact safe_reschedules sole mine backoff _

theorem safe_modest {ε α : Type} {worker : Worker} {program : Service ε α}
    (modest : program.Every PortOp.modest) (world : Typed) :
    program.Safe intending worker (fun _ _ => True) world := by
  refine Safe.ofEvery (fun op modest before sole => ?_) (fun _ _ _ => trivial) modest world
  have lawful : before.Lawful worker op := .modest modest
  exact ⟨lawful, fun _ _ answered => intending_step sole lawful answered⟩

theorem claimed_mine {before after : Typed} {now : Timestamp}
    (answered : intending.meaning (.drain number) (.store (.claimNextEligible now)) before
      (.ok (some entry)) after) : after.Mine number entry := by
  rw [Typed.Mine, answered.2.1]
  exact ⟨List.mem_append_left _ List.mem_cons_self, claimed_only⟩

theorem drains_safely (number : Nat) (backoff : BackoffSchedule) :
    ∀ (rounds : Nat) (world : Typed), world.Sole →
      (OutboxDrainer.drainLoop backoff rounds).Safe intending (.drain number)
        (fun _ _ => True) world := by
  intro rounds
  induction rounds with
  | zero => exact fun _ _ _ _ _ => trivial
  | succ rounds ih =>
      intro world sole
      refine (safe_modest (every_clock trivial) world).followed sole fun now asked askedSole => ?_
      intro later _ laterSole
      refine ⟨.claims number now, fun answer claimed answered => ?_⟩
      obtain ⟨claimedSole, guaranteed⟩ := intending_step laterSole (.claims number now) answered
      refine ⟨claimedSole, guaranteed, ?_⟩
      obtain error | found : Except PortError (Option OutboxEntry) := answer
      · exact fun _ _ _ => trivial
      cases found with
      | none => exact fun _ _ _ => trivial
      | some entry =>
          have mine : claimed.Mine number entry := claimed_mine answered
          change Safe _ _ ((OutboxDrainer.apply entry).attempt.bind fun outcome =>
            (OutboxDrainer.resolve backoff entry outcome).bind fun _ =>
              OutboxDrainer.drainLoop backoff rounds) _ _
          have applies : ((OutboxDrainer.apply entry).attempt : OutboxDrainer.Action _).Safe
              intending (.drain number) (fun _ later => later.Mine number entry) claimed :=
            Safe.attempt (safe_applies mine)
          refine Safe.bind claimedSole (applies.mono fun result applied appliedSole mine => ?_)
          cases result with
          | error error => exact fun _ _ _ => trivial
          | ok outcome =>
              exact (safe_resolves appliedSole mine backoff outcome).followed appliedSole
                fun _ resolved resolvedSole => ih resolved resolvedSole

theorem typeWork_safe (world : Typed) (proc : Proc ports Empty Worker) (sole : world.Sole)
    (begins : TypeWork world proc) :
    proc.program.Safe intending proc.kind (fun _ _ => True) world := by
  cases begins with
  | client modest => exact safe_modest modest world
  | drain number backoff rounds =>
      refine Safe.detached ?_
      exact (safe_modest (OutboxDrainer.enqueuePendingIssueTypes_every enqueues_modest)
        world).followed sole fun _ => drains_safely number backoff rounds
  | restart restores =>
      refine Safe.ofEvery (fun op restores before sole => ?_) (fun _ _ _ => trivial) restores world
      have lawful : before.Lawful .restart op := by
        rcases restores with rfl | modest
        · exact .requeues
        · exact .modest modest
      exact ⟨lawful, fun _ _ answered => intending_step sole lawful answered⟩

end Drains

section Operations

theorem plans_modest : Plans PortOp.modest := ⟨fun _ => modest_reads, trivial, trivial⟩

theorem TaskService.FieldEdit.modest {program : TaskService.Action Task}
    (edit : TaskService.FieldEdit program) : program.Every PortOp.modest := by
  have saves : ∀ writes entries, (PortOp.store (.saveAll writes entries)).modest :=
    fun _ _ => rfl
  cases edit with
  | update cmd => exact TaskService.update_every plans_modest saves cmd
  | start id => exact TaskService.transitionMirror_every plans_modest saves id _
  | complete id => exact TaskService.transitionMirror_every plans_modest saves id _
  | reopen id => exact TaskService.transitionMirror_every plans_modest saves id _
  | archive id => exact TaskService.transitionMirror_every plans_modest saves id _

theorem TaskService.rollback_modest (id : TaskId) (version : Nat) :
    (TaskService.rollback id version).Every PortOp.modest :=
  TaskService.rollback_every plans_modest (fun _ _ => rfl) id version

end Operations

section Intent

theorem IssueType.stored_ofString (text : String) :
    (IssueType.ofString text).stored = .ofString text := by
  cases known : IssueType.wellKnown text with
  | none => simp [ofString, known, stored, display]
  | some found =>
      have same : ofString text = found := by simp [ofString, known]
      rw [same]
      unfold wellKnown at known
      split at known
      · cases known
        decide
      · split at known
        · cases known
          decide
        · split at known
          · cases known
            decide
          · cases known

theorem OutboxMutation.carried_stored {mutation : OutboxMutation} {expected : Option IssueType}
    (carried : mutation.carried = some expected) :
    expected.map IssueType.stored = expected := by
  unfold OutboxMutation.carried at carried
  split at carried
  · cases carried
    rw [Option.map_map]
    exact Option.map_congr fun text _ => IssueType.stored_ofString text
  · cases carried
    rw [Option.map_map]
    exact Option.map_congr fun text _ => IssueType.stored_ofString text
  · cases carried

theorem StoreOp.retouch_cleared {op : StoreOp} {record : TaskRecord}
    (pending : record.row.issueTypePending = true)
    (cleared : (op.retouch record).row.issueTypePending = false) {id : TaskId}
    (targets : op.target = some id) : ∃ expected, op = .clearIssueTypePending id expected ∧
      (op.retouch record).row.issueType = expected.map IssueType.stored := by
  cases op with
  | clearIssueTypePending target expected =>
      cases targets
      simp only [retouch, pending, Bool.true_and, decide_eq_false_iff_not, not_not] at cleared
      exact ⟨expected, rfl, cleared⟩
  | _ => exact (Bool.false_ne_true (cleared.symm.trans pending)).elim

/-- Only a compare-and-clear ends an intent, and it names the type that is stored. -/
theorem StoreOp.perform_cleared {op : StoreOp} {instant : Timestamp} {before after : Database}
    {answer : Except PortError op.Answer} (performed : op.perform instant before = (answer, after))
    {id : TaskId} {record next : TaskRecord} (found : before.record id = some record)
    (pending : record.row.issueTypePending = true) (stored : after.record id = some next)
    (cleared : next.row.issueTypePending = false) :
    ∃ expected, op = .clearIssueTypePending id expected ∧
      next.row.issueType = expected.map IssueType.stored := by
  rcases StoreOp.perform_record performed with ⟨writes, entries, rfl, saved⟩ | frame
  · have keeps : ∃ last, after.record id = some last ∧ last.row.issueTypePending = true := by
      rw [Database.saveAll_record saved]
      refine @Database.afterWrites_induct instant id
        (fun record => ∃ last, record = some last ∧ last.row.issueTypePending = true) writes _
        ⟨record, found, pending⟩ ?_
      rintro write _ _ _ ⟨earlier, rfl, pending⟩
      exact ⟨_, rfl, by simp [TaskRecord.write, TaskRecord.mergeColumns, pending]⟩
    obtain ⟨last, lastStored, pending⟩ := keeps
    rw [stored] at lastStored
    cases lastStored
    cases cleared.symm.trans pending
  · rw [frame, found] at stored
    split at stored
    · rename_i targets
      cases stored
      exact StoreOp.retouch_cleared pending cleared targets
    · cases stored
      cases cleared.symm.trans pending

/-- In every run, whoever ends the intent of a task, the last type sent for it has succeeded and
carries the type that the task has. -/
theorem cleared_type_was_sent {start : Database} {pool : Pool ports Typed Empty Worker}
    (run : Pool.Run intending Worker.beside TypeWork ⟨⟨⟨start, []⟩, []⟩, []⟩ pool)
    {worker : Worker} {op : PortOp} {next : op.Answer → Program ports Empty Unit}
    (member : ⟨worker, .call op next⟩ ∈ pool.procs) {answer : op.Answer} {after : Typed}
    (answered : intending.meaning worker op pool.shared answer after) {id : TaskId}
    {task later : Task} (before : pool.shared.database.stored id = some task)
    (pending : task.issueTypePending = true) (stored : after.database.stored id = some later)
    (cleared : later.issueTypePending = false) :
    ∃ entry, after.lastSent id = some (entry, true) ∧
      entry.mutation.carried = some later.issueType := by
  have first : Pool.Sound intending Worker.beside
      (⟨⟨⟨start, []⟩, []⟩, []⟩ : Pool ports Typed Empty Worker) :=
    ⟨⟨fun _ _ held => (List.not_mem_nil held).elim, fun _ _ _ _ held =>
      (List.not_mem_nil held).elim⟩, fun _ held => (List.not_mem_nil held).elim, .nil⟩
  have compatible : ∀ actor other, actor.beside other → ∀ before after,
      intending.inv before → intending.inv after → intending.guarantee actor before after →
      intending.rely other before after := by
    rintro actor _ beside before after _ _ guaranteed number rfl
    refine guaranteed ?_ number ?_
    · rintro rfl
      exact beside
    · rintro rfl
      exact beside rfl
  have lawful := (first.run compatible typeWork_safe run).owed member
  obtain ⟨record, found, rfl⟩ := Option.map_eq_some_iff.mp before
  obtain ⟨last, lastFound, rfl⟩ := Option.map_eq_some_iff.mp stored
  have unchanged : after.database = pool.shared.database → False := by
    intro same
    rw [same, found] at lastFound
    cases lastFound
    cases cleared.symm.trans pending
  obtain ⟨performs, _, sent⟩ := answered
  cases op with
  | store op =>
      rcases performs with ⟨instant, performed⟩ | ⟨_, _, same⟩
      · obtain ⟨expected, rfl, named⟩ :=
          StoreOp.perform_cleared performed found pending lastFound cleared
        cases lawful with
        | modest modest => exact modest.elim
        | settles mine names => cases names
        | @clears number entry _ carried applied =>
            refine ⟨entry, ?_, ?_⟩
            · rw [Typed.lastSent, sent]
              exact applied
            · have typed : last.row.issueType = expected :=
                named.trans (OutboxMutation.carried_stored carried)
              change _ = some (last.row.issueType.map IssueType.stored)
              rw [typed, OutboxMutation.carried_stored carried, carried]
      · exact (unchanged same).elim
  | _ =>
      refine (unchanged ?_).elim
      first | exact performs | exact performs.2

abbrev Typing := Scene × List (Nat × OutboxEntry) × List (OutboxEntry × Bool)

def typed (state : Typing) : Typed := ⟨⟨state.1.database, state.2.1⟩, state.2.2⟩

def typingProvider : Provider
  | .setIssueType .. => .ok ()
  | op => obligingProvider op

def typingHandler (worker : Worker) : Handler ports Typing :=
  fun op state =>
    let (answer, scene) := portHandler typingProvider .epoch op state.1
    (answer, scene, worker.sender.holds ⟨op, answer⟩ state.2.1,
      worker.sends ⟨op, answer⟩ state.2.1 ++ state.2.2)

theorem typingHandler_sound (worker : Worker) (op : PortOp) (state : Typing) :
    intending.meaning worker op (typed state) (typingHandler worker op state).1
      (typed (typingHandler worker op state).2) :=
  ⟨portHandler_sound typingProvider .epoch op state.1, rfl, rfl⟩

abbrev typedBy (proc : Proc ports Empty Worker) (count : Nat) (state : Typing) :
    Program ports Empty Unit × Typing :=
  proc.program.advance (typingHandler proc.kind) count state

theorem run_types {proc : Proc ports Empty Worker} {others : List (Proc ports Empty Worker)}
    {state : Typing} {count : Nat} (begins : TypeWork (typed state) proc)
    (apart : ∀ other ∈ others, proc.kind.beside other.kind ∧ other.kind.beside proc.kind)
    (passed : proc.program.passes (fun _ _ => true) (typingHandler proc.kind) count state = true) :
    Pool.Run intending Worker.beside TypeWork ⟨typed state, others⟩
      ⟨typed (typedBy proc count state).2, ⟨proc.kind, (typedBy proc count state).1⟩ :: others⟩ :=
  Pool.run_started (fun op state _ => typingHandler_sound proc.kind op state) begins apart passed

abbrev retype (name : String) : Proc ports Empty Worker :=
  ⟨.client, (TaskService.update { taskId := ⟨1⟩, issueType := some (some name) }).detached⟩

theorem retype_begins {world : Typed} (name : String) : TypeWork world (retype name) :=
  .client (every_detached (TaskService.FieldEdit.modest (.update _)))

theorem client_beside (worker : Worker) :
    Worker.client.beside worker ∧ worker.beside .client := by
  cases worker <;> exact ⟨trivial, trivial⟩

abbrev typeDrain : Proc ports Empty Worker :=
  ⟨.drain 1, (OutboxDrainer.drainOnce .standard 5).detached⟩

def registered : Database := { filedApart with
  orgIssueTypes := [⟨"acme", [⟨"IT_1", "bug"⟩, ⟨"IT_2", "feature"⟩]⟩] }

abbrev bugged : Program ports Empty Unit × Typing :=
  typedBy (retype "bug") 12 (⟨registered, 0⟩, [], [])

abbrev bugSent : Program ports Empty Unit × Typing := typedBy typeDrain 12 bugged.2

abbrev featured : Program ports Empty Unit × Typing := typedBy (retype "feature") 12 bugSent.2

abbrev buggedAgain : Program ports Empty Unit × Typing := typedBy (retype "bug") 12 featured.2

def clearOf {ε α : Type} : Service ε α → Option (TaskId × Option IssueType)
  | .call (.store (.clearIssueTypePending id expected)) _ => some (id, expected)
  | _ => none

theorem clearOf_some {ε α : Type} {program : Service ε α} {id : TaskId}
    {expected : Option IssueType} (clears : clearOf program = some (id, expected)) :
    ∃ next, program = .call (.store (.clearIssueTypePending id expected)) next := by
  unfold clearOf at clears
  split at clears
  · cases clears
    exact ⟨_, rfl⟩
  · cases clears

/-- Bug, sent; then feature, and bug again, before the drain ends the intent. -/
theorem cleared_type_was_sent_again : ∃ (pool : Pool ports Typed Empty Worker) (after : Typed)
    (entry : OutboxEntry) (later : Task),
    Pool.Run intending Worker.beside TypeWork ⟨⟨⟨registered, []⟩, []⟩, []⟩ pool ∧
      (pool.shared.database.stored ⟨1⟩).map Task.issueTypePending = some true ∧
      after.database.stored ⟨1⟩ = some later ∧ later.issueTypePending = false ∧
      later.issueType = some .bug ∧ after.lastSent ⟨1⟩ = some (entry, true) ∧
      entry.mutation.carried = some later.issueType := by
  have first := @run_types (retype "bug") [] (⟨registered, 0⟩, [], []) 12 (retype_begins _)
    (fun _ member => (List.not_mem_nil member).elim) (by decide)
  have second := @run_types typeDrain [⟨.client, bugged.1⟩] bugged.2 12 (.drain 1 .standard 5)
    (fun other member => by cases List.mem_singleton.mp member; exact ⟨trivial, trivial⟩)
    (by decide)
  have third := @run_types (retype "feature") [⟨.drain 1, bugSent.1⟩, ⟨.client, bugged.1⟩]
    bugSent.2 12 (retype_begins _) (fun other _ => client_beside other.kind) (by decide)
  have fourth := @run_types (retype "bug")
    [⟨.client, featured.1⟩, ⟨.drain 1, bugSent.1⟩, ⟨.client, bugged.1⟩]
    featured.2 12 (retype_begins _) (fun other _ => client_beside other.kind) (by decide)
  have run := ((first.trans second).trans third).trans fourth
  obtain ⟨next, clears⟩ :=
    clearOf_some (show clearOf bugSent.1 = some (⟨1⟩, some .bug) by decide)
  have member : ⟨.drain 1, .call (.store (.clearIssueTypePending ⟨1⟩ (some .bug))) next⟩ ∈
      ([⟨.client, buggedAgain.1⟩, ⟨.client, featured.1⟩, ⟨.drain 1, bugSent.1⟩,
        ⟨.client, bugged.1⟩] : List (Proc ports Empty Worker)) := by
    rw [clears]
    simp
  have answered := typingHandler_sound (.drain 1)
    (.store (.clearIssueTypePending ⟨1⟩ (some .bug))) buggedAgain.2
  have pending : ((typed buggedAgain.2).database.stored ⟨1⟩).map Task.issueTypePending =
      some true := by decide
  have cleared : ((typed (typingHandler (.drain 1) (.store (.clearIssueTypePending ⟨1⟩
      (some .bug))) buggedAgain.2).2).database.stored ⟨1⟩).map (fun task =>
        (task.issueTypePending, task.issueType)) = some (false, some .bug) := by decide
  obtain ⟨task, before, wasPending⟩ := Option.map_eq_some_iff.mp pending
  obtain ⟨later, stored, facts⟩ := Option.map_eq_some_iff.mp cleared
  obtain ⟨isCleared, isBug⟩ := Prod.mk.inj facts
  obtain ⟨entry, sent, carried⟩ :=
    cleared_type_was_sent run member answered before wasPending stored isCleared
  exact ⟨_, _, entry, later, run, pending, stored, isCleared, isBug, sent, carried⟩

end Intent

end RepoLink
