import RepoLink.Daemon.Startup
import RepoLink.Library.RelyGuarantee
import RepoLink.Properties.RemoteDrift
import RepoLink.Properties.TransferQueue
import RepoLink.Sync.Address
import RepoLink.Sync.DrainTurns

/-!
Where a drained update goes. The address is frozen into the entry when it is queued, the content
is read when it is applied: between the two the task may be pointed at another issue, and the
daemon's start queues the address of the bound repo instead of the one the task is filed in.
-/

namespace RepoLink

open Effects Program KeyedTable

def Database.addressOf (id : TaskId) (database : Database) : Option IssueCoords :=
  (database.stored id).bind database.address

/-- The database, with the entry that each drain has claimed and not settled yet. -/
structure Routed where
  database : Database
  inHand : List (Nat × OutboxEntry)

inductive Sender where
  | drain (number : Nat)
  | client
deriving DecidableEq, Repr

def PortOp.letsGo : PortOp → Bool
  | .store (.claimNextEligible _) => true
  | .store op => op.resolves.isSome
  | _ => false

/-- A drain holds what it claims until it settles it; a start of the daemon ends every claim. -/
def Sender.holds : Sender → Call ports → List (Nat × OutboxEntry) → List (Nat × OutboxEntry)
  | _, ⟨.store .requeueOrphanedInflight, .ok _⟩, _ => []
  | .drain number, made, inHand => (claimOf made).toList.map (Prod.mk number) ++
    if made.1.letsGo then inHand.filter fun held => held.1 ≠ number else inHand
  | .client, _, inHand => inHand

def OutboxEntry.routed (entry : OutboxEntry) : Option (TaskId × IssueCoords) :=
  entry.mutation.target.map (Prod.mk entry.taskId)

/-- The updates that are owed: pending, inflight or in the hands of a drain. -/
def Routed.owed (world : Routed) : List (TaskId × IssueCoords) :=
  (((world.database.outbox.rows.map OutboxRow.entry).filter fun entry =>
    !entry.status.isTerminal) ++ world.inHand.map Prod.snd).filterMap OutboxEntry.routed

/-- The settled entries that a call puts back. -/
def PortOp.revives : PortOp → Database → List OutboxEntry
  | .store (.recordRetry id _ _), database =>
    (database.entry id).toList.filter fun entry => entry.status.isTerminal
  | _, _ => []

def Sender.entitled : Sender → PortOp → List (Nat × OutboxEntry) → Bool
  | .drain number, .provider (.updateRemote _), inHand => inHand.any fun held => held.1 = number
  | _, _, _ => true

/-- What is queued carries the address of its task, which stays as long as the update is owed, and
a drain sends nothing for an entry that a start has taken from it. -/
structure Careful (sender : Sender) (op : PortOp) (before after : Routed) : Prop where
  queues : ∀ route ∈ (op.queued ++ op.revives before.database).filterMap OutboxEntry.routed,
    route ∈ after.owed → after.database.addressOf route.1 = some route.2
  stays : ∀ route ∈ before.owed,
    after.database.addressOf route.1 = before.database.addressOf route.1
  sends : sender.entitled op before.inHand = true

instance (sender : Sender) (op : PortOp) (before after : Routed) :
    Decidable (Careful sender op before after) :=
  decidable_of_iff ((∀ route ∈ (op.queued ++ op.revives before.database).filterMap
      OutboxEntry.routed, route ∈ after.owed → after.database.addressOf route.1 = some route.2) ∧
    (∀ route ∈ before.owed,
      after.database.addressOf route.1 = before.database.addressOf route.1) ∧
    sender.entitled op before.inHand = true)
    ⟨fun ⟨queues, stays, sends⟩ => ⟨queues, stays, sends⟩,
      fun careful => ⟨careful.queues, careful.stays, careful.sends⟩⟩

def Routed.Right (world : Routed) : Prop :=
  ∀ route ∈ world.owed, world.database.addressOf route.1 = some route.2

theorem OutboxEntry.routed_eq_some {entry : OutboxEntry} {id : TaskId} {coords : IssueCoords} :
    entry.routed = some (id, coords) ↔ entry.taskId = id ∧ entry.mutation.target = some coords := by
  unfold routed
  cases entry.mutation.target <;> simp [and_comm]

theorem mem_owed {world : Routed} {id : TaskId} {coords : IssueCoords} :
    (id, coords) ∈ world.owed ↔ world.database.Owes (fun mutation => mutation.target = some coords)
      id ∨ ∃ number entry, (number, entry) ∈ world.inHand ∧ entry.taskId = id ∧
        entry.mutation.target = some coords := by
  simp only [Routed.owed, List.mem_filterMap, List.mem_append, or_and_right, exists_or,
    OutboxEntry.routed_eq_some]
  refine or_congr ?_ ?_
  · rw [Database.owes_iff_rows]
    constructor
    · rintro ⟨entry, member, same, target⟩
      obtain ⟨inRows, unsettled⟩ := List.mem_filter.mp member
      obtain ⟨row, rowMember, rfl⟩ := List.mem_map.mp inRows
      exact ⟨row, rowMember, same, target, by simpa using unsettled⟩
    · rintro ⟨row, member, same, target, unsettled⟩
      refine ⟨row.entry, List.mem_filter.mpr ⟨List.mem_map_of_mem member, ?_⟩, same, target⟩
      simp [unsettled]
  · constructor
    · rintro ⟨entry, member, facts⟩
      obtain ⟨⟨number, held⟩, inHand, rfl⟩ := List.mem_map.mp member
      exact ⟨number, held, inHand, facts⟩
    · rintro ⟨number, entry, inHand, facts⟩
      exact ⟨entry, List.mem_map.mpr ⟨_, inHand, rfl⟩, facts⟩

theorem holds_source {sender : Sender} {made : Call ports} {inHand : List (Nat × OutboxEntry)}
    {number : Nat} {entry : OutboxEntry} (held : (number, entry) ∈ sender.holds made inHand) :
    (number, entry) ∈ inHand ∨ sender = .drain number ∧ claimOf made = some entry := by
  unfold Sender.holds at held
  split at held
  · cases held
  · rename_i drain _ _
    rcases List.mem_append.mp held with claimed | kept
    · obtain ⟨_, claims, same⟩ := List.mem_map.mp claimed
      cases same
      exact .inr ⟨rfl, Option.mem_toList.mp claims⟩
    · split at kept
      · exact .inl (List.mem_of_mem_filter kept)
      · exact .inl kept
  · exact .inl held

section Steps

variable {sender : Sender} {op : PortOp} {before after : Routed} {answer : op.Answer}
  {id : TaskId} {coords : IssueCoords}

theorem queues_routed {move : PortMove}
    (queues : move.Queues (fun mutation => mutation.target = some coords) id) :
    (id, coords) ∈ (PortOp.queued move.call.1 ++ PortOp.revives move.call.1 move.before).filterMap
      OutboxEntry.routed := by
  rw [List.mem_filterMap]
  rcases queues with ⟨entry, queued, owed⟩ |
    ⟨store, entryId, entry, opEq, names, stored, same, target, settled⟩
  · exact ⟨entry, List.mem_append_left _ queued,
      OutboxEntry.routed_eq_some.mpr ⟨owed.task, owed.address⟩⟩
  · refine ⟨entry, List.mem_append_right _ ?_, OutboxEntry.routed_eq_some.mpr ⟨same, target⟩⟩
    rw [opEq]
    cases store with
    | recordRetry _ _ _ =>
        cases names
        simp [PortOp.revives, stored, settled]
    | _ => cases names

theorem claimed_owes (answered : portMeaning op before.database answer after.database)
    {entry : OutboxEntry} (claims : claimOf ⟨op, answer⟩ = some entry)
    (target : entry.mutation.target = some coords) :
    after.database.Owes (fun mutation => mutation.target = some coords) entry.taskId := by
  cases op with
  | store op =>
      cases op with
      | claimNextEligible now =>
          rcases answered with ⟨instant, performed⟩ | ⟨_, failed, _⟩
          · obtain ⟨answerEq, afterEq⟩ := Prod.mk.inj performed
            subst answerEq
            obtain ⟨stored, inflight⟩ := OutboxTable.entry_claimed claims
            refine ⟨entry.id, entry, afterEq ▸ stored, rfl, target, ?_⟩
            rw [inflight]
            rfl
          · rw [failed] at claims
            cases claims
      | _ => cases claims
  | _ => cases claims

theorem Routed.Right.step (right : before.Right) (careful : Careful sender op before after)
    (answered : portMeaning op before.database answer after.database)
    (held : after.inHand = sender.holds ⟨op, answer⟩ before.inHand) : after.Right := by
  have kept : ∀ {route}, route ∈ before.owed →
      after.database.addressOf route.1 = some route.2 := fun member =>
    (careful.stays _ member).trans (right _ member)
  have inOutbox : ∀ {id coords},
      after.database.Owes (fun mutation => mutation.target = some coords) id →
      after.database.addressOf id = some coords := by
    intro id coords owes
    by_cases queues : PortMove.Queues (fun mutation => mutation.target = some coords) id
        ⟨true, ⟨op, answer⟩, before.database, after.database⟩
    · exact careful.queues _ (queues_routed queues) (mem_owed.mpr (.inl owes))
    · exact kept (mem_owed.mpr (.inl (owes_source answered queues owes)))
  rintro ⟨id, coords⟩ member
  rcases mem_owed.mp member with owes | ⟨number, entry, inHand, rfl, target⟩
  · exact inOutbox owes
  · rw [held] at inHand
    rcases holds_source inHand with earlier | ⟨_, claims⟩
    · exact kept (mem_owed.mpr (.inr ⟨number, entry, earlier, rfl, target⟩))
    · exact inOutbox (claimed_owes answered claims target)

end Steps

/-- A drain owes that what it sends goes where its entry says. -/
def routing (admits : Sender → PortOp → Routed → Routed → Prop) :
    Discipline ports Routed Sender where
  meaning sender op before answer after := admits sender op before after ∧
    portMeaning op before.database answer after.database ∧
    after.inHand = sender.holds ⟨op, answer⟩ before.inHand
  inv := Routed.Right
  rely sender before after := ∀ number, sender = .drain number →
    ∀ entry, (number, entry) ∈ after.inHand → (number, entry) ∈ before.inHand
  guarantee sender before after := ∀ number, sender ≠ .drain number →
    ∀ entry, (number, entry) ∈ after.inHand → (number, entry) ∈ before.inHand
  must sender op world := ∀ number request, sender = .drain number →
    op = .provider (.updateRemote request) → ∀ entry, (number, entry) ∈ world.inHand →
      entry.mutation.target = some (request.canonicalRepo, request.remoteId)

/-- Drains that run at once have different numbers. -/
def unmixed (sender other : Sender) : Prop := sender = other → sender = .client

section Safety

variable {sender : Sender} {op : PortOp} {before after : Routed} {answer : op.Answer}

def PortOp.unsending : PortOp → Prop
  | .provider request => request.updates = false
  | _ => True

theorem PortOp.unsending.must {op : PortOp} (unsending : op.unsending) (sender : Sender)
    (world : Routed) :
    (routing Careful).must sender op world := by
  rintro number request _ rfl
  cases unsending

/-- The calls of an apply. -/
def PortOp.applying (entry : OutboxEntry) (op : PortOp) : Prop :=
  (∀ request, op = .provider (.updateRemote request) →
    entry.mutation.target = some (request.canonicalRepo, request.remoteId)) ∧
  ∀ answer : op.Answer, claimOf ⟨op, answer⟩ = none

theorem claimed_only {number : Nat} {entry : OutboxEntry} {now : Timestamp}
    {inHand : List (Nat × OutboxEntry)} :
    ∀ other, (number, other) ∈ (Sender.drain number).holds
      ⟨.store (.claimNextEligible now), .ok (some entry)⟩ inHand → other = entry := by
  intro other held
  rcases List.mem_append.mp held with claimed | kept
  · cases List.mem_singleton.mp claimed
    rfl
  · obtain ⟨_, apart⟩ := List.mem_filter.mp kept
    simp at apart

end Safety

namespace TaskService

theorem planMutations_target {task : Task} {project : Option Project}
    {filingCanonical : Option String} {contentChanged : Bool} {mutation : OutboxMutation}
    {canonical remoteId : String}
    (planned : mutation ∈ planMutations task project filingCanonical contentChanged)
    (target : mutation.target = some (canonical, remoteId)) :
    filingCanonical = some canonical ∧ task.remote.map RemoteRef.remoteId = some remoteId := by
  unfold planMutations at planned
  split at planned
  · cases planned
  rcases List.mem_append.mp planned with content | board
  · split at content
    · split at content
      · rename_i remote _ _ remoteEq
        cases List.mem_singleton.mp content
        cases target
        exact ⟨rfl, congrArg (Option.map RemoteRef.remoteId) remoteEq⟩
      · cases content
    · split at content
      · cases List.mem_singleton.mp content
        cases target
      · cases content
  · split at board
    · cases board
    · split at board
      · obtain ⟨item, _, rest⟩ := Option.bind_eq_some_iff.mp (Option.mem_toList.mp board)
        obtain ⟨field, _, rest⟩ := Option.bind_eq_some_iff.mp rest
        obtain ⟨option, _, same⟩ := Option.bind_eq_some_iff.mp rest
        cases same
        cases target
      · split at board
        · cases List.mem_singleton.mp board
          cases target
        · obtain ⟨nodeId, _, rfl⟩ := Option.map_eq_some_iff.mp (Option.mem_toList.mp board)
          cases target

theorem planMirrorMutations_addressed {now : Timestamp} {task planned : Task}
    {contentChanged : Bool} {mutations : List OutboxMutation} {before after : Database}
    (ran : (planMirrorMutations now task contentChanged).Runs portMeaning before
      (.ok (mutations, planned)) after) {mutation : OutboxMutation} (member : mutation ∈ mutations)
    {coords : IssueCoords} (target : mutation.target = some coords) :
    before.address planned = some coords := by
  unfold planMirrorMutations at ran
  split at ran
  · cases ran.1
    cases member
  obtain ⟨workspace, _, ran⟩ := runs_quiet_bind (query_quiet _ rfl) ran
  obtain ⟨project, _, ran⟩ := runs_quiet_bind (projectForWorkspace_quiet workspace) ran
  obtain ⟨filed, _, ran⟩ := runs_quiet_bind (recordBoardFiling_quiet now workspace project task) ran
  obtain ⟨filingCanonical, resolved, ran⟩ := runs_quiet_bind (filingCanonicalFor_quiet filed) ran
  cases ran.1
  obtain ⟨canonicalEq, remoteEq⟩ := planMutations_target member target
  rw [canonicalEq] at resolved
  exact Database.address_eq_some.mpr ⟨(runs_filingCanonicalFor.mp resolved).2, remoteEq⟩

/-- What an edit plans is addressed to the issue of the task that it is about to save. -/
theorem planUpdateMutations_addressed {now : Timestamp} {task planned : Task}
    {syncBefore : SyncState} {converted : Bool} {mutations : List OutboxMutation}
    {before after : Database}
    (ran : (planUpdateMutations now task syncBefore converted).Runs portMeaning before
      (.ok (mutations, planned)) after) {mutation : OutboxMutation} (member : mutation ∈ mutations)
    {coords : IssueCoords} (target : mutation.target = some coords) :
    before.address planned = some coords := by
  unfold planUpdateMutations at ran
  split at ran
  · cases ran.1
    cases member
  · split at ran
    · obtain ⟨filingCanonical, _, ran⟩ := runs_quiet_bind (filingCanonicalFor_quiet task) ran
      cases ran.1
      rcases List.mem_append.mp member with content | convert
      · split at content
        · cases List.mem_singleton.mp content
          cases target
        · cases content
      · cases List.mem_singleton.mp convert
        cases target
    · split at ran
      · cases ran.1
        cases member
      · exact planMirrorMutations_addressed ran member target

end TaskService

abbrev Routing := Scene × List (Nat × OutboxEntry)

def routed (state : Routing) : Routed := ⟨state.1.database, state.2⟩

def routingHandler (provider : Provider) (sender : Sender) : Handler ports Routing :=
  fun op state =>
    let (answer, scene) := portHandler provider .epoch op state.1
    (answer, scene, sender.holds ⟨op, answer⟩ state.2)

theorem routingHandler_sound {admits : Sender → PortOp → Routed → Routed → Prop}
    {provider : Provider} {sender : Sender} {op : PortOp} {state : Routing}
    (admitted : admits sender op (routed state)
      (routed (routingHandler provider sender op state).2)) :
    (routing admits).meaning sender op (routed state) (routingHandler provider sender op state).1
      (routed (routingHandler provider sender op state).2) :=
  ⟨admitted, portHandler_sound provider .epoch op state.1, rfl⟩

abbrev drainOne : Proc ports Empty Sender :=
  ⟨.drain 1, (OutboxDrainer.drainOnce .standard 5).detached⟩

def filedApart : Database :=
  let filing : Database := { twoRepos with
    workspaces := ⟨[⟨⟨1⟩, .active, none, some ⟨12⟩, none, none⟩], by decide⟩ }
  let created := after obligingProvider .epoch
    (TaskService.create { workspaceId := ⟨1⟩, repoId := some ⟨21⟩, title := "t" }) filing
  after obligingProvider .epoch (SyncService.promote ⟨1⟩) created

abbrev retitleOne : Program ports Empty Unit :=
  (TaskService.update { taskId := ⟨1⟩, title := some "u" }).detached

end RepoLink
