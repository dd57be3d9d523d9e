import RepoLink.Ports.Handler
import RepoLink.Properties.CreationReplay
import RepoLink.Properties.RemoteDrift
import RepoLink.Sync.AttachCalls
import RepoLink.WorkspaceService.Service

/-!
A detach that sticks. Drains and detaches interleave call by call; once a detach is complete no
drain puts a task of the workspace back on a board, as long as each row that a drain saves is
still current in its item, and each new item rests on a look at the workspace that is.
-/

namespace RepoLink

open Effects Program KeyedTable OutboxDrainer

/-- The database, with the fact that a detach is complete. -/
structure Detaching where
  database : Database
  detached : Bool

def PortOp.completes (workspaceId : WorkspaceId) : (op : PortOp) → op.Answer → Bool
  | .store (.saveWorkspace workspace), .ok _ =>
    workspace.id = workspaceId && workspace.projectId.isNone
  | _, _ => false

def detachMeaning (workspaceId : WorkspaceId) : Semantics ports Detaching :=
  fun op before answer after =>
    portMeaning op before.database answer after.database ∧
      after.detached = (before.detached || op.completes workspaceId answer)

def Database.stillAt (database : Database) (workspaceId : WorkspaceId) (seen : Workspace) : Bool :=
  seen.id = workspaceId &&
    (database.workspaces.find workspaceId).any fun current => current.projectId = seen.projectId

/-- An item that a write carries on is the stored one; a new one rests on a current look at the
workspace. -/
def TaskWrite.timely (workspaceId : WorkspaceId) (seen : List Glimpse) (database : Database)
    (write : TaskWrite) : Bool :=
  if write.attaches then (lastSeen seen).any (database.stillAt workspaceId)
  else write.task.projectItemId.isNone ||
    (database.stored write.task.id).bind (·.projectItemId) = write.task.projectItemId

/-- Once the detach is complete every row of the workspace is saved in time. -/
def PortOp.timely (workspaceId : WorkspaceId) (seen : List Glimpse) :
    PortOp → Detaching → Bool
  | .store op, state => !state.detached || op.writes.all fun write =>
    write.task.workspaceId ≠ workspaceId || write.timely workspaceId seen state.database
  | _, _ => true

def Detaching.Left (workspaceId : WorkspaceId) (state : Detaching) : Prop :=
  state.detached = true → ∀ workspace, state.database.workspaces.find workspaceId = some workspace →
    workspace.projectId = none

def StaysOff (workspaceId : WorkspaceId) (before after : Database) : Prop :=
  ∀ id task, after.stored id = some task → task.workspaceId = workspaceId →
    task.projectItemId = none ∨
      (before.stored id).bind (·.projectItemId) = task.projectItemId

abbrev detachRules (workspaceId : WorkspaceId)
    (admits : List Glimpse → PortOp → Detaching → Prop) :
    Discipline ports (Recorded Detaching Glimpse) Nat :=
  recordingRules glimpses (detachMeaning workspaceId) admits Guarded (Detaching.Left workspaceId)

/-- The programs that run, each with fresh notes: drains, and detaches of any workspace. -/
inductive DetachStarts : Recorded Detaching Glimpse → Proc ports Empty Nat → Prop
  | drain {world : Recorded Detaching Glimpse} {pid : Nat} (fresh : world.notes pid = [])
      (backoff : BackoffSchedule) (rounds : Nat) :
      DetachStarts world ⟨pid, (drainOnce backoff rounds).detached⟩
  | detach {world : Recorded Detaching Glimpse} {pid : Nat} (fresh : world.notes pid = [])
      (workspaceId : WorkspaceId) :
      DetachStarts world ⟨pid, (WorkspaceService.setProject workspaceId none).detached⟩

section Calls

theorem scrubTask_harmless (task : Task) :
    (WorkspaceService.scrubTask () task).Every Harmless := by
  refine every_bind (every_query (Guarded.writeless (by nofun) rfl)) fun _ => ?_
  cases task.projectItemId with
  | none => trivial
  | some itemId => exact every_query (Guarded.ofWrite (by simp [TaskWrite.attaches]))

theorem setProject_none (workspaceId : WorkspaceId) :
    WorkspaceService.setProject workspaceId none =
      (query (.getWorkspace workspaceId)).bind fun workspace =>
        (WorkspaceService.rejectReassignment workspace.projectId none).bind fun _ =>
          (WorkspaceService.scrubItems workspaceId).bind fun _ =>
            (query (.saveWorkspace { workspace with projectId := none })).bind fun _ =>
              .done { workspace with projectId := none } := rfl

theorem detach_harmless (workspaceId : WorkspaceId) :
    (WorkspaceService.setProject workspaceId none).Every Harmless := by
  rw [setProject_none]
  refine every_bind (every_query fun _ => Guarded.ofReads rfl _) fun workspace => ?_
  refine every_bind ?_ fun _ => every_bind ?_ fun _ =>
    every_bind (every_query fun _ => rfl) fun _ => trivial
  · unfold WorkspaceService.rejectReassignment
    split <;> trivial
  · refine every_bind (every_query fun _ => Guarded.ofReads rfl _) fun tasks => ?_
    exact every_foldEach (fun _ task => scrubTask_harmless task) tasks ()

theorem detachStarts_glimpses {world : Recorded Detaching Glimpse} {proc : Proc ports Empty Nat}
    (begins : DetachStarts world proc) :
    proc.program.Recalls glimpses Guarded (fun _ _ => True) (world.notes proc.kind) := by
  cases begins with
  | drain fresh backoff rounds => exact (glimpses_drainOnce backoff rounds _).detached
  | detach fresh workspaceId => exact (glimpses_harmless (detach_harmless workspaceId) _).detached

end Calls

section Steps

variable {workspaceId : WorkspaceId}

theorem left_step {seen : List Glimpse} {op : PortOp} {before after : Detaching}
    {answer : op.Answer} (guarded : Guarded seen op) (left : before.Left workspaceId)
    (answered : detachMeaning workspaceId op before answer after) : after.Left workspaceId := by
  obtain ⟨performed, detachedEq⟩ := answered
  have untouched : op.completes workspaceId answer = false →
      after.database.workspaces = before.database.workspaces → after.Left workspaceId := by
    intro incomplete same detached workspace found
    rw [detachedEq, incomplete, Bool.or_false] at detached
    rw [same] at found
    exact left detached workspace found
  cases op with
  | store op =>
      rcases performed with ⟨instant, performed⟩ | ⟨message, rfl, same⟩
      · by_cases saves : ∃ workspace, op = .saveWorkspace workspace
        · obtain ⟨saved, rfl⟩ := saves
          have afterEq : before.database.saveWorkspace saved = after.database :=
            congrArg Prod.snd performed
          have answerEq : (.ok () : Except PortError Unit) = answer := congrArg Prod.fst performed
          subst answerEq
          intro detached workspace found
          have unassigned : saved.projectId = none := guarded
          rw [← afterEq, Database.saveWorkspace, Table.find_upsert] at found
          split at found
          · have same : saved = workspace := by
              cases stored : before.database.workspaces.find workspaceId <;>
                simpa [stored] using found
            exact same ▸ unassigned
          · rename_i different
            have incomplete : decide (saved.id = workspaceId) = false :=
              decide_eq_false fun same => different same.symm
            simp only [PortOp.completes, incomplete, Bool.false_and, Bool.or_false] at detachedEq
            exact left (detachedEq ▸ detached) workspace found
        · have other : ∀ workspace, op ≠ .saveWorkspace workspace :=
            fun workspace same => saves ⟨workspace, same⟩
          refine untouched ?_ (StoreOp.perform_workspaces performed other)
          cases op with
          | saveWorkspace workspace => exact (other workspace rfl).elim
          | _ => rfl
      · refine untouched ?_ (by rw [same])
        cases op <;> rfl
  | freshTaskId => exact untouched rfl (by rw [performed.2])
  | _ => exact untouched rfl (congrArg Database.workspaces performed)

theorem StoreOp.retouch_place (op : StoreOp) (record : TaskRecord) :
    (op.retouch record).row.projectItemId = record.row.projectItemId := by
  cases op <;> simp [retouch, Database.dirtiedRemotely]

theorem TaskRecord.write_place (instant : Timestamp) (source : SnapshotSource) (task : Task)
    (stored : Option TaskRecord) :
    (write instant source task stored).row.workspaceId = task.workspaceId ∧
      (write instant source task stored).row.projectItemId = task.projectItemId := by
  cases stored <;> exact ⟨rfl, rfl⟩

theorem write_timely {seen : List Glimpse} {writes : List TaskWrite} {entries : List OutboxEntry}
    {state : Detaching} (guarded : Guarded seen (.store (.saveAll writes entries)))
    (left : state.Left workspaceId)
    (timely : (PortOp.store (.saveAll writes entries)).timely workspaceId seen state = true)
    (detached : state.detached = true) {write : TaskWrite} (member : write ∈ writes)
    (ofWorkspace : write.task.workspaceId = workspaceId) :
    write.task.projectItemId = none ∨
      (state.database.stored write.task.id).bind (·.projectItemId) = write.task.projectItemId := by
  simp only [PortOp.timely, detached, Bool.not_true, Bool.false_or] at timely
  have inTime := List.all_eq_true.mp timely write member
  simp only [ofWorkspace, ne_eq, not_true_eq_false, decide_false, Bool.false_or,
    TaskWrite.timely] at inTime
  split at inTime
  · rename_i attaches
    obtain ⟨workspace, seenLast, current⟩ := (Option.any_eq_true _ _).mp inTime
    simp only [Database.stillAt, Bool.and_eq_true] at current
    obtain ⟨stored, found, same⟩ := (Option.any_eq_true _ _).mp current.2
    have onBoard := guarded write member attaches workspace seenLast
    rw [← of_decide_eq_true same, left detached stored found] at onBoard
    cases onBoard
  · simpa using inTime

/-- One call that is guarded and timely, after the detach is complete. -/
theorem staysOff_step {seen : List Glimpse} {op : PortOp} {before after : Detaching}
    {answer : op.Answer} (guarded : Guarded seen op) (left : before.Left workspaceId)
    (timely : op.timely workspaceId seen before = true) (detached : before.detached = true)
    (answered : detachMeaning workspaceId op before answer after) :
    StaysOff workspaceId before.database after.database := by
  obtain ⟨performed, _⟩ := answered
  have untouched : after.database = before.database →
      StaysOff workspaceId before.database after.database := by
    intro same id task found _
    rw [same] at found
    exact .inr (by rw [found]; rfl)
  cases op with
  | store op =>
      rcases performed with ⟨instant, performed⟩ | ⟨_, _, same⟩
      · rcases StoreOp.perform_record performed with ⟨writes, entries, rfl, saved⟩ | retouched
        · intro id task found
          obtain ⟨record, recordFound, rfl⟩ := Option.map_eq_some_iff.mp found
          rw [Database.saveAll_record saved] at recordFound
          refine @Database.afterWrites_induct _ _ (fun stored => ∀ record, stored = some record →
            record.row.workspaceId = workspaceId → record.row.projectItemId = none ∨
              (before.database.stored id).bind (·.projectItemId) = record.row.projectItemId)
            _ _ ?_ ?_ record recordFound
          · intro earlier earlierFound _
            exact .inr (by rw [Database.stored, earlierFound]; rfl)
          · rintro write member rfl earlier _ _ same ofWorkspace
            cases same
            obtain ⟨ofWorkspaceEq, itemEq⟩ :=
              TaskRecord.write_place instant write.source write.task earlier
            rw [itemEq]
            exact write_timely guarded left timely detached member (ofWorkspaceEq ▸ ofWorkspace)
        · intro id task found _
          obtain ⟨record, recordFound, rfl⟩ := Option.map_eq_some_iff.mp found
          rw [retouched] at recordFound
          refine .inr ?_
          split at recordFound
          · obtain ⟨earlier, earlierFound, rfl⟩ := Option.map_eq_some_iff.mp recordFound
            rw [Database.stored, earlierFound]
            exact (op.retouch_place earlier).symm
          · rw [Database.stored, recordFound]
            rfl
      · exact untouched same
  | freshTaskId => exact untouched performed.2
  | _ => exact untouched performed

end Steps

/-- In every timely run, once the detach is complete no call puts a task of the workspace on a
board. -/
theorem detach_sticks {workspaceId : WorkspaceId} {start : Database} {notes : Nat → List Glimpse}
    {pool : Pool ports (Recorded Detaching Glimpse) Empty Nat}
    (run : Pool.Run (detachRules workspaceId fun seen op state =>
      op.timely workspaceId seen state = true) apart DetachStarts ⟨⟨⟨start, false⟩, notes⟩, []⟩ pool)
    {pid : Nat} {op : PortOp} {next : op.Answer → Program ports Empty Unit}
    (member : ⟨pid, .call op next⟩ ∈ pool.procs) {answer : op.Answer}
    {after : Recorded Detaching Glimpse}
    (answered : (detachRules workspaceId fun seen op state =>
      op.timely workspaceId seen state = true).meaning pid op pool.shared answer after)
    (detached : pool.shared.state.detached = true) :
    StaysOff workspaceId pool.shared.state.database after.state.database := by
  have left : (Detaching.mk start false).Left workspaceId := nofun
  have possible : ∀ op before answer after, detachMeaning workspaceId op before answer after →
      glimpses.possible op answer := fun _ _ _ _ _ => trivial
  have step : ∀ seen op before answer after, Guarded seen op → before.Left workspaceId →
      op.timely workspaceId seen before = true → detachMeaning workspaceId op before answer after →
      after.Left workspaceId := fun _ _ _ _ _ guarded held _ => left_step guarded held
  have starts : ∀ world proc, DetachStarts world proc →
      proc.program.Recalls glimpses Guarded (fun _ _ => True) (world.notes proc.kind) :=
    fun _ _ => detachStarts_glimpses
  have sound := recorded_run possible step starts left run
  obtain ⟨timely, performed, _⟩ := answered
  exact staysOff_step (sound.owed member) sound.inv timely detached performed

abbrev Watch := (Scene × Bool) × (Nat → List Glimpse)

def watchingHandler (provider : Provider) (pid : Nat) : Handler ports Watch :=
  recordingHandler glimpses (fun op state =>
    let (answer, scene) := portHandler provider ⟨1⟩ op state.1
    (answer, scene, state.2 || op.completes ⟨1⟩ answer)) pid

def watched (state : Watch) : Recorded Detaching Glimpse :=
  ⟨⟨state.1.1.database, state.1.2⟩, state.2⟩

theorem watchingHandler_sound {admits : List Glimpse → PortOp → Detaching → Prop}
    (provider : Provider) {pid : Nat} {op : PortOp} {state : Watch}
    (admitted : admits (state.2 pid) op ⟨state.1.1.database, state.1.2⟩) :
    (detachRules ⟨1⟩ admits).meaning pid op (watched state)
      (watchingHandler provider pid op state).1
      (watched (watchingHandler provider pid op state).2) :=
  ⟨admitted, ⟨portHandler_sound provider ⟨1⟩ op state.1.1, rfl⟩, rfl⟩

abbrev detachProc : Proc ports Empty Nat :=
  ⟨0, (WorkspaceService.setProject ⟨1⟩ none).detached⟩

abbrev drainingProc : Proc ports Empty Nat := ⟨1, (drainOnce .standard 5).detached⟩

def beforeDetach (database : Database) : Watch := ((⟨database, 0⟩, false), fun _ => [])

def leftDraft : Program ports Empty Unit × Watch :=
  detachProc.program.advance (watchingHandler draftProvider 0) 4 (beforeDetach queuedDraft)

def draftMade : Program ports Empty Unit × Watch :=
  drainingProc.program.advance (watchingHandler draftProvider 1) 6 leftDraft.2

/-- The task is put on the board that its workspace has left. -/
theorem draft_reattaches : ∃ pool pid op next answer after,
    (queuedDraft.workspaces.find ⟨1⟩).bind (·.projectId) = some ⟨"PVT_1"⟩ ∧
    Pool.Run (detachRules ⟨1⟩ fun _ _ _ => True) apart DetachStarts
      ⟨watched (beforeDetach queuedDraft), []⟩ pool ∧
    ⟨pid, .call op next⟩ ∈ pool.procs ∧
    (detachRules ⟨1⟩ fun _ _ _ => True).meaning pid op pool.shared answer after ∧
    pool.shared.state.detached = true ∧
    ¬StaysOff ⟨1⟩ pool.shared.state.database after.state.database := by
  have detaching : Pool.Run (detachRules ⟨1⟩ fun _ _ _ => True) apart DetachStarts
      ⟨watched (beforeDetach queuedDraft), []⟩ ⟨watched leftDraft.2, [⟨0, leftDraft.1⟩]⟩ :=
    @Pool.run_started _ _ _ _ _ _ _ _ (fun _ _ => true) (watchingHandler draftProvider 0) watched
      detachProc [] (beforeDetach queuedDraft) 4 (fun _ _ _ => watchingHandler_sound draftProvider trivial)
      (.detach rfl _) (fun _ member => (List.not_mem_nil member).elim) (by decide)
  have draining : Pool.Run (detachRules ⟨1⟩ fun _ _ _ => True) apart DetachStarts
      ⟨watched leftDraft.2, [⟨0, leftDraft.1⟩]⟩
      ⟨watched draftMade.2, [⟨1, draftMade.1⟩, ⟨0, leftDraft.1⟩]⟩ := by
    refine @Pool.run_started _ _ _ _ _ _ _ _ (fun _ _ => true) (watchingHandler draftProvider 1)
      watched drainingProc _ leftDraft.2 6 (fun _ _ _ => watchingHandler_sound draftProvider trivial)
      (.drain rfl ..) ?_ (by decide)
    intro other member
    rw [List.mem_singleton.mp member]
    exact ⟨Nat.one_ne_zero, Nat.zero_ne_one⟩
  obtain ⟨op, next, callEq, ended, _⟩ := @advance_succ _ _ _ _ (watchingHandler draftProvider 1) 6
    drainingProc.program leftDraft.2 (show draftMade.1.isCall = true by decide)
  change draftMade.1 = .call op next at callEq
  refine ⟨_, 1, op, next, _, _, rfl, detaching.trans draining, callEq ▸ List.mem_cons_self,
    watchingHandler_sound draftProvider trivial, by decide, ?_⟩
  intro off
  change StaysOff ⟨1⟩ draftMade.2.1.1.database
    (watchingHandler draftProvider 1 op draftMade.2).2.1.1.database at off
  change (drainingProc.program.advance (watchingHandler draftProvider 1) 7 leftDraft.2).2 =
    (watchingHandler draftProvider 1 op draftMade.2).2 at ended
  rw [← ended] at off
  rcases off ⟨1⟩ _ rfl rfl with none | same
  · exact absurd none (by decide)
  · exact absurd same (by decide)

def queuedAttach : Database :=
  after retitledProvider .epoch (TaskService.update { taskId := ⟨1⟩, title := some "u" })
    (after retitledProvider .epoch (SyncService.promote ⟨1⟩)
      (after retitledProvider .epoch
        (TaskService.create { workspaceId := ⟨1⟩, repoId := some ⟨21⟩, title := "t" }) oneBoard))

def itemAdded : Program ports Empty Unit × Watch :=
  drainingProc.program.advance (watchingHandler retitledProvider 1) 13 (beforeDetach queuedAttach)

def leftItem : Program ports Empty Unit × Watch :=
  detachProc.program.advance (watchingHandler retitledProvider 0) 4 itemAdded.2

def turnedAway : Program ports Empty Unit × Watch :=
  itemAdded.1.advance (watchingHandler retitledProvider 1) 3 leftItem.2

theorem detach_sticks_turned_away : ∃ pool, ∃ after : Recorded Detaching Glimpse,
    Pool.Run (detachRules ⟨1⟩ fun seen op state => op.timely ⟨1⟩ seen state = true) apart
      DetachStarts ⟨watched (beforeDetach queuedAttach), []⟩ pool ∧
    pool.shared.state.detached = true ∧
    StaysOff ⟨1⟩ pool.shared.state.database after.state.database ∧
    (after.state.database.stored ⟨1⟩).map (·.projectItemId) = some none := by
  let timely (pid : Nat) (op : PortOp) (state : Watch) : Bool :=
    op.timely ⟨1⟩ (state.2 pid) ⟨state.1.1.database, state.1.2⟩
  let rules := detachRules ⟨1⟩ fun seen op state => op.timely ⟨1⟩ seen state = true
  have sound : ∀ pid op state, timely pid op state = true → rules.meaning pid op (watched state)
      (watchingHandler retitledProvider pid op state).1
      (watched (watchingHandler retitledProvider pid op state).2) :=
    fun _ _ _ checked => watchingHandler_sound retitledProvider checked
  have draining : Pool.Run rules apart DetachStarts ⟨watched (beforeDetach queuedAttach), []⟩
      ⟨watched itemAdded.2, [⟨1, itemAdded.1⟩]⟩ :=
    @Pool.run_started _ _ _ _ _ _ _ _ (timely 1) (watchingHandler retitledProvider 1) watched
      drainingProc [] (beforeDetach queuedAttach) 13 (sound 1) (.drain rfl ..)
      (fun _ member => (List.not_mem_nil member).elim) (by decide)
  have detaching : Pool.Run rules apart DetachStarts ⟨watched itemAdded.2, [⟨1, itemAdded.1⟩]⟩
      ⟨watched leftItem.2, [⟨0, leftItem.1⟩, ⟨1, itemAdded.1⟩]⟩ := by
    refine @Pool.run_started _ _ _ _ _ _ _ _ (timely 0) (watchingHandler retitledProvider 0)
      watched detachProc _ itemAdded.2 4 (sound 0) (.detach rfl _) ?_ (by decide)
    intro other member
    rw [List.mem_singleton.mp member]
    exact ⟨Nat.zero_ne_one, Nat.one_ne_zero⟩
  have turning : Pool.Run rules apart DetachStarts
      ⟨watched leftItem.2, [⟨0, leftItem.1⟩, ⟨1, itemAdded.1⟩]⟩
      ⟨watched turnedAway.2, [⟨0, leftItem.1⟩, ⟨1, turnedAway.1⟩]⟩ :=
    @Pool.run_advances _ _ _ _ _ _ _ _ (timely 1) (watchingHandler retitledProvider 1) watched 1
      [⟨0, leftItem.1⟩] [] (sound 1) 3 itemAdded.1 leftItem.2 (by decide)
  obtain ⟨op, next, callEq, ended, checked⟩ := @advance_succ _ _ _ _
    (watchingHandler retitledProvider 1) 3 itemAdded.1 leftItem.2
    (show turnedAway.1.isCall = true by decide)
  change turnedAway.1 = .call op next at callEq
  have run := (draining.trans detaching).trans turning
  have answered := sound 1 op turnedAway.2 (checked (timely 1) (by decide))
  have member : ⟨1, .call op next⟩ ∈
      ([⟨0, leftItem.1⟩, ⟨1, turnedAway.1⟩] : List (Proc ports Empty Nat)) :=
    List.mem_cons_of_mem _ (callEq ▸ List.mem_cons_self)
  have off := detach_sticks run member answered (by decide)
  change (itemAdded.1.advance (watchingHandler retitledProvider 1) 4 leftItem.2).2 =
    (watchingHandler retitledProvider 1 op turnedAway.2).2 at ended
  rw [← ended] at off
  exact ⟨_, _, run, by decide, off, by decide⟩

end RepoLink
