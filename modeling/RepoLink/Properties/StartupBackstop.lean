import RepoLink.Daemon.Startup
import RepoLink.Ports.Unfailing
import RepoLink.Store.OutboxFifo
import RepoLink.Sync.Service
import RepoLink.TaskService.Service

/-!
The outbox after a daemon start: nothing is inflight any more, every dirty mirror of a bound repo
is spoken for, and a second start finds nothing to do.
-/

namespace RepoLink

open Effects Program KeyedTable

namespace Daemon

variable {answers : Provider} {draws : Database → String → Prop} {start state : Database}
  {outbox : OutboxTable} {task : Task} {done : List Task} {count : Nat}

theorem blocksReconcile_iff {id : TaskId} : outbox.blocksReconcile id = true ↔
    ∃ row ∈ outbox.rows, row.entry.taskId = id ∧ row.entry.status ≠ .succeeded := by
  simp only [OutboxTable.blocksReconcile, List.any_eq_true, Bool.and_eq_true, Bool.or_eq_true,
    decide_eq_true_eq]
  refine exists_congr fun row => and_congr_right fun _ => and_congr_right fun _ => ?_
  cases row.entry.status <;> simp

def owed (database : Database) (task : Task) : Option OutboxMutation :=
  match task.remote, task.repoId with
  | some remote, some repoId =>
    ((database.instances.find repoId).bind database.bindingView).map fun view =>
      .updateRemote view.instanceRow.canonicalUrl remote.remoteId (some task.title)
        (some task.body) none
  | _, _ => none

structure Speaks (start : Database) (task : Task) (entry : OutboxEntry) : Prop where
  taskId : entry.taskId = task.id
  mutation : owed start task = some entry.mutation
  status : entry.status = .pending
  attempts : entry.attempts = 0
  due : entry.nextAttemptAt = none
  silent : start.outbox.blocksReconcile task.id = false

structure Caught (start : Database) (done : List Task) (count : Nat) (state : Database) :
    Prop where
  rest : state = { start with outbox := state.outbox }
  rows : ∃ added : List OutboxRow, state.outbox.rows = start.outbox.rows ++ added ∧
    added.length = count ∧ (added.map fun row => row.entry.taskId).Nodup ∧
    ∀ row ∈ added, ∃ task ∈ done, Speaks start task row.entry
  covered : ∀ task ∈ done, owed start task ≠ none →
    state.outbox.blocksReconcile task.id = true

theorem Caught.nothing : Caught start [] 0 start where
  rest := rfl
  rows := ⟨[], by simp⟩
  covered task member := (List.not_mem_nil member).elim

theorem Caught.pass (caught : Caught start done count state)
    (covered : owed start task ≠ none → state.outbox.blocksReconcile task.id = true) :
    Caught start (done ++ [task]) count state where
  rest := caught.rest
  rows := by
    obtain ⟨added, rows, length, once, speak⟩ := caught.rows
    refine ⟨added, rows, length, once, fun row member => ?_⟩
    obtain ⟨other, among, speaks⟩ := speak row member
    exact ⟨other, List.mem_append_left _ among, speaks⟩
  covered other member owes := by
    rcases List.mem_append.mp member with before | last
    · exact caught.covered other before owes
    · cases List.mem_singleton.mp last
      exact covered owes

/-- A task that gets its entry. -/
theorem Caught.add (caught : Caught start done count state) {row : OutboxRow} {later : OutboxTable}
    (silent : state.outbox.blocksReconcile task.id = false)
    (taskId : row.entry.taskId = task.id) (mutation : owed start task = some row.entry.mutation)
    (fresh : row.entry.status = .pending ∧ row.entry.attempts = 0 ∧ row.entry.nextAttemptAt = none)
    (rows : later.rows = state.outbox.rows ++ [row]) :
    Caught start (done ++ [task]) (count + 1) { state with outbox := later } := by
  obtain ⟨added, grown, length, once, speak⟩ := caught.rows
  have quiet : ∀ old ∈ state.outbox.rows, old.entry.taskId = task.id →
      old.entry.status = .succeeded := by
    intro old member same
    by_contra unsettled
    exact absurd (blocksReconcile_iff.mpr ⟨old, member, same, unsettled⟩) (by simp [silent])
  have startSilent : start.outbox.blocksReconcile task.id = false := by
    rw [← Bool.not_eq_true, blocksReconcile_iff]
    rintro ⟨old, member, same, unsettled⟩
    exact unsettled (quiet old (grown ▸ List.mem_append_left _ member) same)
  refine ⟨?_, ⟨added ++ [row], ?_, ?_, ?_, ?_⟩, ?_⟩
  · rw [caught.rest]
  · rw [rows, grown, List.append_assoc]
  · rw [List.length_append, length, List.length_singleton]
  · rw [List.map_append, List.nodup_append]
    refine ⟨once, List.nodup_singleton _, fun id among other last same => ?_⟩
    obtain ⟨old, oldMember, oldId⟩ := List.mem_map.mp among
    obtain ⟨earlier, _, speaks⟩ := speak old oldMember
    have succeeded := quiet old (grown ▸ List.mem_append_right _ oldMember)
      ((oldId.trans (same.trans (List.mem_singleton.mp last))).trans taskId)
    rw [speaks.status] at succeeded
    cases succeeded
  · intro other member
    rcases List.mem_append.mp member with old | last
    · obtain ⟨earlier, among, speaks⟩ := speak other old
      exact ⟨earlier, List.mem_append_left _ among, speaks⟩
    · cases List.mem_singleton.mp last
      exact ⟨task, List.mem_append_right _ (List.mem_singleton_self _),
        ⟨taskId, mutation, fresh.1, fresh.2.1, fresh.2.2, startSilent⟩⟩
  · intro other member owes
    have kept : ∀ id, state.outbox.blocksReconcile id = true →
        later.blocksReconcile id = true := by
      intro id blocked
      obtain ⟨old, oldMember, facts⟩ := blocksReconcile_iff.mp blocked
      exact blocksReconcile_iff.mpr ⟨old, rows ▸ List.mem_append_left _ oldMember, facts⟩
    rcases List.mem_append.mp member with old | last
    · exact kept _ (caught.covered other old owes)
    · cases List.mem_singleton.mp last
      refine blocksReconcile_iff.mpr ⟨row, ?_, taskId, by simp [fresh.1]⟩
      rw [rows]
      exact List.mem_append_right _ (List.mem_singleton_self _)

theorem perform_enqueueIfAbsent {entry : OutboxEntry} (instant : Timestamp)
    (fresh : entry.id ∉ state.outbox.rows.map OutboxRow.id) :
    (state.outbox.blocksReconcile entry.taskId = true ∧
      (StoreOp.enqueueIfAbsent entry).perform instant state = (.ok false, state)) ∨
    (state.outbox.blocksReconcile entry.taskId = false ∧ ∃ outbox : OutboxTable,
      outbox.rows = state.outbox.rows ++ [⟨state.outbox.nextRowid, entry⟩] ∧
      (StoreOp.enqueueIfAbsent entry).perform instant state =
        (.ok true, { state with outbox })) := by
  simp only [StoreOp.perform, OutboxTable.enqueueIfAbsent, OutboxTable.insertRow, dif_neg fresh]
  cases blocked : state.outbox.blocksReconcile entry.taskId with
  | true => exact .inl ⟨rfl, rfl⟩
  | false => exact .inr ⟨rfl, _, rfl, rfl⟩

/-- One round. -/
theorem ensures_enqueueDirty (caught : Caught start done count state) :
    (enqueueDirty count task).Ensures (unfailingPorts answers draws) (fun _ _ => False)
      (Caught start (done ++ [task])) state := by
  have outside : ∀ other, owed state other = owed start other := by
    intro other
    rw [caught.rest]
    rfl
  unfold enqueueDirty
  split
  · rename_i remote repoId mirrored homed
    rintro answer middle ⟨instant, performed⟩
    obtain ⟨rfl, rfl⟩ := Prod.mk.inj performed
    have owes : owed start task =
        ((state.instances.find repoId).bind state.bindingView).map fun view =>
          .updateRemote view.instanceRow.canonicalUrl remote.remoteId (some task.title)
            (some task.body) none := by
      rw [← outside, owed, mirrored, homed]
    unfold Database.getBinding
    cases bound : (state.instances.find repoId).bind state.bindingView with
    | none =>
        rw [bound] at owes
        exact caught.pass fun owing => absurd owes owing
    | some view =>
        rw [bound, Option.map_some] at owes
        rintro id later ⟨fresh, laterEq⟩ now last lastEq
        rw [lastEq, laterEq]
        let entry := OutboxEntry.new now id task.id
          (.updateRemote view.instanceRow.canonicalUrl remote.remoteId (some task.title)
            (some task.body) none)
        have inserts : (query (.enqueueIfAbsent entry) : Service PortError Bool).Ensures
            (unfailingPorts answers draws) (fun _ _ => False)
            (fun (inserted : Bool) after => Caught start (done ++ [task])
              (if inserted then count + 1 else count) after) state := by
          refine @ensures_query answers draws PortError _ state _ (.enqueueIfAbsent entry) _ ?_
          intro instant
          rcases @perform_enqueueIfAbsent state entry instant fresh with
            ⟨blocked, ran⟩ | ⟨silent, outbox, rows, ran⟩
          · exact ⟨false, state, ran, caught.pass fun _ => blocked⟩
          · exact ⟨true, _, ran, caught.add silent rfl owes ⟨rfl, rfl, rfl⟩ rows⟩
        have told : (outboxCall (.enqueueIfAbsent entry)).Ensures (unfailingPorts answers draws)
            (fun _ _ => False) _ state := inserts.mapError fun _ _ never => never
        exact told.bind fun inserted after held => held
  · rename_i unhomed
    refine caught.pass fun owing => absurd ?_ owing
    unfold owed
    split
    · rename_i remote repoId mirrored homed
      exact absurd homed (unhomed remote repoId mirrored)
    · rfl

theorem ensures_reconcile : reconcileDirtyIntoOutbox.Ensures (unfailingPorts answers draws)
    (fun _ _ => False)
    (Caught start (start.listTasks { syncState := some .dirtyLocal })) start := by
  have listed : Gives answers draws (fun _ _ => False)
      (query (.listTasks { syncState := some .dirtyLocal }) : Service StartupError (List Task))
      start (start.listTasks { syncState := some .dirtyLocal }) :=
    @gives_query answers draws StartupError _ start _
      (.listTasks { syncState := some .dirtyLocal }) _ fun _ => rfl
  refine listed.bind ?_
  exact Ensures.foldEach (fun done task count state _ caught => ensures_enqueueDirty caught)
    (fun _ member => member) .nothing

def recovered (instant : Timestamp) (row : OutboxRow) : OutboxRow :=
  if row.entry.status = .inflight then
    { row with entry := { row.entry with
        status := .pending, nextAttemptAt := none, updatedAt := instant } }
  else row

theorem requeue_rows (instant : Timestamp) :
    (outbox.requeueOrphanedInflight instant).2.rows = outbox.rows.map (recovered instant) := by
  simp only [OutboxTable.requeueOrphanedInflight, OutboxTable.mapEntries, OutboxTable.rows,
    Table.mapRows]
  refine List.map_congr_left fun row _ => ?_
  unfold recovered
  split <;> rfl

theorem ensures_requeue : requeueOrphanedInflight.Ensures (unfailingPorts answers draws)
    (fun _ _ => False) (fun _ after => ∃ instant,
      after = { start with outbox := (start.outbox.requeueOrphanedInflight instant).2 }) start := by
  have requeues : (query .requeueOrphanedInflight : Service PortError Nat).Ensures
      (unfailingPorts answers draws) (fun _ _ => False) (fun _ after => ∃ instant,
        after = { start with outbox := (start.outbox.requeueOrphanedInflight instant).2 })
      start := by
    refine @ensures_query answers draws PortError _ start _ .requeueOrphanedInflight _ ?_
    exact fun instant => ⟨_, _, rfl, instant, rfl⟩
  exact requeues.mapError fun _ _ never => never

theorem blocksReconcile_recovered {later : OutboxTable} {instant : Timestamp}
    (rows : later.rows = outbox.rows.map (recovered instant)) (id : TaskId) :
    later.blocksReconcile id = outbox.blocksReconcile id := by
  have same : ∀ row : OutboxRow, ((recovered instant row).entry.taskId = row.entry.taskId) ∧
      ((recovered instant row).entry.status ≠ .succeeded ↔ row.entry.status ≠ .succeeded) := by
    intro row
    unfold recovered
    split
    · rename_i inflight
      exact ⟨rfl, by simp [inflight]⟩
    · exact ⟨rfl, Iff.rfl⟩
  rw [Bool.eq_iff_iff, blocksReconcile_iff, blocksReconcile_iff, rows]
  constructor
  · rintro ⟨_, member, taskId, unsettled⟩
    obtain ⟨row, inRows, rfl⟩ := List.mem_map.mp member
    exact ⟨row, inRows, (same row).1.symm.trans taskId, (same row).2.mp unsettled⟩
  · rintro ⟨row, inRows, taskId, unsettled⟩
    exact ⟨_, List.mem_map_of_mem inRows, (same row).1.trans taskId, (same row).2.mpr unsettled⟩

theorem mem_dirty {listed : Task} :
    listed ∈ start.listTasks { syncState := some .dirtyLocal } ↔
      ∃ task, start.stored task.id = some task ∧ task.sync = .dirtyLocal ∧
        listed = { task with comments := [] } := by
  have matched : ∀ record : TaskRecord,
      start.matchesFilter { syncState := some .dirtyLocal } record = true ↔
        record.row.sync = .dirtyLocal := by
    intro record
    simp [Database.matchesFilter, Database.inWindow]
  rw [Database.mem_listTasks rfl rfl]
  constructor
  · rintro ⟨record, inRows, holds, rfl⟩
    have found : start.record record.id = some record := Table.find_of_mem inRows
    refine ⟨record.load, ?_, (matched record).mp holds, rfl⟩
    rw [Database.stored, TaskRecord.load_id, found, Option.map_some]
  · rintro ⟨task, stored, dirty, rfl⟩
    obtain ⟨record, found, rfl⟩ := Option.map_eq_some_iff.mp stored
    exact ⟨record, Table.find_mem found, (matched record).mpr dirty, rfl⟩

/-- What one start does: the requeue, then one entry for every task that owes an update. -/
structure Started (before after : Database) (instant : Timestamp) (added : List OutboxRow) :
    Prop where
  rest : after = { before with outbox := after.outbox }
  rows : after.outbox.rows = before.outbox.rows.map (recovered instant) ++ added
  once : (added.map fun row => row.entry.taskId).Nodup
  fresh : ∀ row ∈ added, row.entry.status = .pending ∧ row.entry.attempts = 0 ∧
    row.entry.nextAttemptAt = none
  speaks : ∀ id mutation,
    (∃ row ∈ added, row.entry.taskId = id ∧ row.entry.mutation = mutation) ↔
      ∃ task, before.stored id = some task ∧ task.sync = .dirtyLocal ∧
        owed before task = some mutation ∧ before.outbox.blocksReconcile id = false
  covered : ∀ id task, before.stored id = some task → task.sync = .dirtyLocal →
    owed before task ≠ none → after.outbox.blocksReconcile id = true

theorem started_of_caught {middle after : Database} {instant : Timestamp}
    (requeued : middle =
      { start with outbox := (start.outbox.requeueOrphanedInflight instant).2 })
    (caught : Caught middle (middle.listTasks { syncState := some .dirtyLocal }) count after) :
    ∃ added, Started start after instant added := by
  have middleRows : middle.outbox.rows = start.outbox.rows.map (recovered instant) := by
    rw [requeued]
    exact requeue_rows instant
  have stored : ∀ id, middle.stored id = start.stored id := by
    intro id
    rw [requeued]
    rfl
  have owes : ∀ task, owed middle task = owed start task := by
    intro task
    rw [requeued]
    rfl
  have spoken := @blocksReconcile_recovered start.outbox middle.outbox instant middleRows
  obtain ⟨added, rows, _, once, speak⟩ := caught.rows
  refine ⟨added, ?_, rows.trans (middleRows ▸ rfl), once, ?_, ?_, ?_⟩
  · rw [caught.rest, requeued]
  · intro row member
    obtain ⟨_, _, speaks⟩ := speak row member
    exact ⟨speaks.status, speaks.attempts, speaks.due⟩
  · intro id mutation
    constructor
    · rintro ⟨row, member, rfl, rfl⟩
      obtain ⟨listed, among, speaks⟩ := speak row member
      obtain ⟨task, found, dirty, rfl⟩ := mem_dirty.mp among
      rw [speaks.taskId]
      refine ⟨task, (stored _).symm.trans found, dirty, ?_, ?_⟩
      · exact (owes task).symm.trans speaks.mutation
      · exact (spoken _).symm.trans speaks.silent
    · rintro ⟨task, found, dirty, owing, silent⟩
      have taskId := Database.stored_id found
      subst taskId
      have among : { task with comments := [] } ∈
          middle.listTasks { syncState := some .dirtyLocal } :=
        mem_dirty.mpr ⟨task, (stored _).trans found, dirty, rfl⟩
      have owing : owed middle { task with comments := [] } = some mutation :=
        (owes task).trans owing
      obtain ⟨row, inRows, same, unsettled⟩ := blocksReconcile_iff.mp
        (caught.covered _ among (by simp [owing]))
      rcases List.mem_append.mp (rows ▸ inRows) with old | new
      · have blocked := blocksReconcile_iff.mpr ⟨row, old, same, unsettled⟩
        rw [spoken, silent] at blocked
        cases blocked
      · obtain ⟨listed, listedAmong, speaks⟩ := speak row new
        obtain ⟨other, otherFound, _, rfl⟩ := mem_dirty.mp listedAmong
        have ids : other.id = task.id := speaks.taskId.symm.trans same
        rw [ids, stored, found] at otherFound
        cases otherFound
        exact ⟨row, new, same, Option.some.inj (speaks.mutation.symm.trans owing)⟩
  · intro id task found dirty owing
    have taskId := Database.stored_id found
    subst taskId
    exact caught.covered { task with comments := [] }
      (mem_dirty.mpr ⟨task, (stored _).trans found, dirty, rfl⟩)
      (by rw [show owed middle { task with comments := [] } = owed middle task from rfl, owes]
          exact owing)

theorem ensures_startup : startup.Ensures (unfailingPorts answers draws) (fun _ _ => False)
    (fun _ after => ∃ instant added, Started start after instant added) start := by
  have first : (requeueOrphanedInflight.attempt : Service StartupError _).Ensures
      (unfailingPorts answers draws) (fun _ _ => False) _ start := ensures_requeue.attempt
  refine first.bind fun _ middle ended => ?_
  rcases ended with ⟨_, _, instant, requeued⟩ | ⟨_, _, never⟩
  · have second : (reconcileDirtyIntoOutbox.attempt : Service StartupError _).Ensures
        (unfailingPorts answers draws) (fun _ _ => False) _ middle := ensures_reconcile.attempt
    refine second.bind fun _ after ended => ?_
    rcases ended with ⟨_, _, caught⟩ | ⟨_, _, never⟩
    · obtain ⟨added, started⟩ := started_of_caught requeued caught
      exact ⟨instant, added, started⟩
    · exact never.elim
  · exact never.elim

theorem Started.calm {before after : Database} {instant : Timestamp} {added : List OutboxRow}
    (started : Started before after instant added) :
    ∀ row ∈ after.outbox.rows, row.entry.status ≠ .inflight := by
  intro row member inflight
  rw [started.rows] at member
  rcases List.mem_append.mp member with old | new
  · obtain ⟨was, _, rfl⟩ := List.mem_map.mp old
    unfold recovered at inflight
    split at inflight
    · cases inflight
    · rename_i calm
      exact calm inflight
  · rw [(started.fresh row new).1] at inflight
    cases inflight

theorem Started.again {before after last : Database} {instant later : Timestamp}
    {added more : List OutboxRow} (started : Started before after instant added)
    (second : Started after last later more) : last = after := by
  have nothing : more = [] := by
    rw [List.eq_nil_iff_forall_not_mem]
    intro row member
    obtain ⟨task, found, dirty, owing, silent⟩ :=
      (second.speaks row.entry.taskId row.entry.mutation).mp ⟨row, member, rfl, rfl⟩
    rw [started.rest] at found owing
    have covered := started.covered _ task found dirty
      (by rw [show owed before task = some _ from owing]; simp)
    rw [covered] at silent
    cases silent
  have rows : last.outbox.rows = after.outbox.rows := by
    rw [second.rows, nothing, List.append_nil]
    refine (List.map_congr_left fun row member => ?_).trans (List.map_id _)
    exact if_neg (started.calm row member)
  have same : last.outbox = after.outbox := by
    cases left : last.outbox with
    | mk table rowids =>
        cases right : after.outbox with
        | mk other otherRowids =>
            rw [left, right] at rows
            cases Table.ext rows
            rfl
  rw [second.rest, same]

/-- After a start nothing is inflight. Every entry that was there is kept, and the new ones are
these: one update for each dirty mirror of a bound repo that had neither an open entry nor a dead
letter. So each of those mirrors is spoken for, and a second start changes nothing. -/
theorem startup_backstop {before after : Database} {result : Except StartupError Unit}
    (ran : startup.Runs (unfailingPorts answers draws) before result after) :
    result = .ok () ∧ (∃ instant added, Started before after instant added) ∧
      (∀ row ∈ after.outbox.rows, row.entry.status ≠ .inflight) ∧
      ∀ again last, startup.Runs (unfailingPorts answers draws) after again last →
        again = .ok () ∧ last = after := by
  obtain ⟨settled, never⟩ := ensures_iff.mp (@ensures_startup answers draws before) result after ran
  cases result with
  | error error => exact (never error rfl).elim
  | ok value =>
      obtain ⟨instant, added, started⟩ := settled value rfl
      refine ⟨rfl, ⟨instant, added, started⟩, started.calm, fun again last ranAgain => ?_⟩
      obtain ⟨settledAgain, neverAgain⟩ :=
        ensures_iff.mp (@ensures_startup answers draws after) again last ranAgain
      cases again with
      | error error => exact (neverAgain error rfl).elim
      | ok value =>
          obtain ⟨_, _, second⟩ := settledAgain value rfl
          exact ⟨rfl, started.again second⟩

def legacyMirror : Database :=
  let created := after obligingProvider .epoch
    (TaskService.create { workspaceId := ⟨1⟩, repoId := some ⟨21⟩, title := "t" }) twoRepos
  let promoted := after obligingProvider .epoch (SyncService.promote ⟨1⟩) created
  { after obligingProvider .epoch
      (TaskService.update { taskId := ⟨1⟩, title := some "u" }) promoted with outbox := .empty }

theorem startup_backstop_legacy : ∃ after : Database, (∃ row ∈ after.outbox.rows,
      row.entry.taskId = ⟨1⟩ ∧ row.entry.mutation =
        .updateRemote "github.com/acme/one" "7" (some "u") (some "") none) ∧
    ∀ again last, startup.Runs (unfailingPorts obligingProvider fun _ _ => True) after again last →
      again = .ok () ∧ last = after := by
  obtain ⟨result, after, ran⟩ := exists_runs
    (@unfailingPorts_total obligingProvider (fun _ _ => True) fun _ => ⟨"", trivial⟩)
    startup legacyMirror
  obtain ⟨_, ⟨instant, added, started⟩, _, again⟩ := startup_backstop ran
  have stored : (legacyMirror.stored ⟨1⟩).isSome = true := by decide
  obtain ⟨task, found⟩ := Option.isSome_iff_exists.mp stored
  have dirty : (legacyMirror.stored ⟨1⟩).map Task.sync = some .dirtyLocal := by decide
  have owing : (legacyMirror.stored ⟨1⟩).bind (owed legacyMirror) =
      some (.updateRemote "github.com/acme/one" "7" (some "u") (some "") none) := by decide
  rw [found] at dirty owing
  obtain ⟨row, member, facts⟩ := (started.speaks ⟨1⟩ _).mpr
    ⟨task, found, Option.some.inj dirty, owing, by decide⟩
  exact ⟨after, ⟨row, started.rows ▸ List.mem_append_right _ member, facts⟩, again⟩

end Daemon

end RepoLink
