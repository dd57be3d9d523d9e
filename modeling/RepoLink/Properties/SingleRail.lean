import RepoLink.Properties.BoardColumn
import RepoLink.Properties.PromoteBaseline
import RepoLink.TaskService.RailCalls

/-!
One rail for each issue type. Edits, rollbacks, promotes and drains interleave call by call while
the boards stand still; all of them choose the rail of a task by the board of its workspace.
-/

namespace RepoLink

open Effects Program KeyedTable

section Promote

open SyncService

variable {plan : BoardPlan}

theorem stageForPromote_placed {now : Timestamp} {before staged : Task}
    {filing : Option RepoOriginId} (placed : plan.Placed before)
    (stages : stageForPromote now before filing = .ok staged) :
    plan.Placed staged ∧ staged.workspaceId = before.workspaceId := by
  have filed : ∀ task : Task,
      (task.setFilingRepoId now (filing.map RepoOriginId.toRepoId)).attempt = .ok staged →
      staged.id = task.id ∧ staged.workspaceId = task.workspaceId := by
    intro task files
    unfold Task.setFilingRepoId at files
    split at files
    · cases files
      exact ⟨rfl, rfl⟩
    · split at files
      · cases files
      · cases files
        exact ⟨rfl, rfl⟩
  obtain ⟨sameId, sameWorkspace⟩ : staged.id = before.id ∧
      staged.workspaceId = before.workspaceId := by
    unfold stageForPromote at stages
    split at stages
    · rename_i fresh
      simp only [Task.stageForSync, fresh] at stages
      have kept := filed _ stages
      exact kept
    · exact filed before stages
  refine ⟨?_, sameWorkspace⟩
  rw [BoardPlan.Placed, sameId, sameWorkspace]
  exact placed

theorem promoteToRemote_placed {now : Timestamp} {staged promoted : Task} {remote : RemoteRef}
    (placed : plan.Placed staged)
    (promotes : (staged.promoteToRemote now remote).attempt = .ok promoted) :
    plan.Placed promoted ∧ promoted.id = staged.id := by
  unfold Task.promoteToRemote at promotes
  split at promotes
  · cases promotes
  · cases promotes
    exact ⟨placed, rfl⟩

theorem relationBackfillEntries_fits (task : Task) (ownCoords : IssueCoords) :
    ∀ relations, (relationBackfillEntries task ownCoords relations).Yields fun entries =>
      ∀ entry ∈ entries, plan.Fits entry := by
  intro relations
  induction relations with
  | nil => exact fun _ member => (List.not_mem_nil member).elim
  | cons relation rest ih =>
      refine (yields_any _).bind fun neighbor _ => (yields_any _).bind fun coords _ => ?_
      dsimp only
      split
      · exact ih.bind fun entries fits => fits
      · rename_i mutation planned
        obtain ⟨neighborCoords, _, planned⟩ := Option.bind_eq_some_iff.mp planned
        intro id now
        refine ih.bind fun entries fits => ?_
        exact List.forall_mem_cons.mpr ⟨.ofOther (relationMutation_typeless planned) _, fits⟩

theorem stampDefaultType_fits {now : Timestamp} {workspace : Workspace} {project : Option Project}
    {filingCanonical : String} {task : Task} (chosen : plan.Chosen task.id project) :
    (stampDefaultType now workspace project filingCanonical task).Yields fun typed =>
      ∀ entry ∈ typed.2, plan.Fits entry := by
  have nothing : ∀ entry ∈ ([] : List OutboxEntry), plan.Fits entry :=
    fun _ member => (List.not_mem_nil member).elim
  unfold stampDefaultType
  dsimp only
  generalize (if task.issueType.isNone = true then
    deriveDefaultIssueType task workspace.defaultIssueType workspace.defaultSubIssueType
    else none) = derived
  split
  · refine (resolveTypeProjection_fits _ _ chosen).bind fun mutation fits => ?_
    cases mutation with
    | none => dsimp only; split <;> exact nothing
    | some mutation =>
        intro id stampedAt
        exact List.forall_mem_singleton.mpr (fits mutation rfl)
  · simp only [pure_eq, bind_eq, done_bind]
    split <;> exact nothing

theorem findPromotedOrphan_calls (task : Task) (filingCanonical : String)
    (filingOrigin : Option RepoOriginId) :
    (findPromotedOrphan task filingCanonical filingOrigin).Every plan.Calls := by
  unfold findPromotedOrphan
  split
  · trivial
  · refine every_bind (every_clock trivial) fun now => ?_
    refine every_bind (every_remote trivial) fun listed => ?_
    dsimp only
    split
    · trivial
    · refine every_bind (@every_query _ _ plan.Calls (.trackedRemoteIds ..) trivial) ?_
      intro tracked
      split <;> trivial

theorem saveTask_fits {basis task : Task} {source : SnapshotSource} {entries : List OutboxEntry}
    (placed : plan.Placed task) (fits : ∀ entry ∈ entries, plan.Fits entry) :
    (saveTask basis task source entries).Under plan.Tells plan.Calls fun _ => True :=
  under_saveAll (List.forall_mem_singleton.mpr placed) fits

theorem recordIssue_fits {basis staged : Task} {workspace : Workspace} {filingCanonical : String}
    (snap : RemoteTaskSnapshot) (placed : plan.Placed staged)
    (board : workspace.projectId = plan.boardOf staged.workspaceId) :
    (do
      let promotedAt ← clock
      let promoted ← settled (staged.promoteToRemote promotedAt
        ⟨providerLabel filingCanonical, snap.remoteId, snap.nodeId⟩).attempt
      let relations ← relationBackfillEntries promoted (filingCanonical, snap.remoteId)
        promoted.relations
      let project ← projectForWorkspace workspace
      let (typed, typeEntries) ← stampDefaultType promotedAt workspace project filingCanonical
        promoted
      saveTask basis typed .promote (relations ++ typeEntries)
      return typed : Action Task).Under plan.Tells plan.Calls fun _ => True := by
  refine (under_quiet (every_clock trivial) (yields_any _)).bind fun promotedAt _ => ?_
  refine (under_quiet (settled_quiet _) (settled_yields _)).bind fun promoted promotes => ?_
  obtain ⟨promotedPlaced, sameId⟩ := promoteToRemote_placed placed promotes
  have quiet {α : Type} {program : Action α} (glances : program.Every PortOp.glances) :
      program.Every PortOp.quiet := glances.mono fun _ => PortOp.glances_quiet
  refine (under_quiet (quiet (relationBackfillEntries_glances promoted _ _))
    (@relationBackfillEntries_fits plan promoted _ _)).bind fun relations relationFits => ?_
  have boardEq : workspace.projectId = plan.boardOf (plan.placed promoted.id) := by
    rw [sameId, ← placed]
    exact board
  refine (projectForWorkspace_chosen boardEq).bind fun project chosen => ?_
  refine (under_quiet (quiet (stampDefaultType_glances promotedAt workspace project filingCanonical
    promoted)) ((stampDefaultType_yields promotedAt workspace project filingCanonical promoted).both
      (stampDefaultType_fits chosen))).bind ?_
  rintro ⟨typed, typeEntries⟩ ⟨⟨issueType, updatedAt, typedEq⟩, typeFits⟩
  dsimp only at typedEq typeFits ⊢
  have typedPlaced : plan.Placed typed := by
    rw [typedEq]
    exact promotedPlaced
  exact (saveTask_fits typedPlaced (List.forall_mem_append.mpr ⟨relationFits, typeFits⟩)).bind
    fun _ _ => trivial

theorem promote_fits (taskId : TaskId) :
    (promote taskId).Under plan.Tells plan.Calls fun _ => True := by
  refine (under_getTask taskId).bind ?_
  rintro before ⟨rfl, placed⟩
  have unarchived : (ensureNotArchived before).Every plan.Calls := by
    unfold ensureNotArchived
    split <;> trivial
  refine (Under.ofEvery unarchived).bind fun _ _ => ?_
  split
  · trivial
  refine (under_quiet (every_clock trivial) (yields_any _)).bind fun now _ => ?_
  refine (under_getWorkspace before.workspaceId).bind fun workspace board => ?_
  refine (under_quiet (logicalOriginFor_quiet before) (yields_any _)).bind fun logical _ => ?_
  dsimp only
  refine (under_quiet (settled_quiet _) (settled_yields _)).bind fun staged stages => ?_
  refine (under_quiet (requiredFilingCanonical_quiet staged) (yields_any _)).bind
    fun filingCanonical _ => ?_
  obtain ⟨stagedPlaced, sameWorkspace⟩ := stageForPromote_placed placed stages
  rw [← sameWorkspace] at board
  have creates : (remote (.createRemote
      { canonicalRepo := filingCanonical, title := staged.title, body := staged.body,
        assignees := staged.assignees, labels := [] }) :
      Action _).Under plan.Tells plan.Calls fun _ => True := .ofEvery (every_remote trivial)
  -- The draft may be saved before the remote is asked.
  refine Under.bindIf
    (saveTask_fits stagedPlaced fun _ member => (List.not_mem_nil member).elim) ?_
  split
  · refine (Under.ofEvery (findPromotedOrphan_calls ..)).bind fun adopted _ => ?_
    cases adopted with
    | some snap => exact recordIssue_fits snap stagedPlaced board
    | none => exact creates.bind fun snap _ => recordIssue_fits snap stagedPlaced board
  · exact creates.bind fun snap _ => recordIssue_fits snap stagedPlaced board

end Promote

section Store

def Database.boardPlan (database : Database) : BoardPlan where
  placed id := ((database.stored id).map Task.workspaceId).getD ⟨0⟩
  boardOf id := (database.workspaces.find id).bind (·.projectId)
  typed id := (database.projects.find id).any fun project => project.typeFieldId.isSome

/-- The store is configured as the plan says. -/
structure Database.Follows (plan : BoardPlan) (database : Database) : Prop where
  placed : ∀ id task, database.stored id = some task → plan.Placed task
  boards : ∀ id, (database.workspaces.find id).bind (·.projectId) = plan.boardOf id
  fields : ∀ id, ((database.projects.find id).any fun project => project.typeFieldId.isSome) =
    plan.typed id

theorem Database.follows_boardPlan (database : Database) :
    database.Follows database.boardPlan := by
  refine ⟨fun id task found => ?_, fun _ => rfl, fun _ => rfl⟩
  rw [BoardPlan.Placed, stored_id found]
  change _ = ((database.stored id).map Task.workspaceId).getD ⟨0⟩
  rw [found]
  rfl

variable {plan : BoardPlan} {before after : Database}

theorem follows_tells {op : PortOp} {answer : op.Answer} (follows : before.Follows plan)
    (answered : portMeaning op before answer after) : plan.Tells op answer := by
  cases op with
  | store op =>
      rcases answered with ⟨instant, performed⟩ | ⟨message, rfl, _⟩
      · have answerEq := congrArg Prod.fst performed
        cases op with
        | getTask id =>
            change before.getTask id = answer at answerEq
            cases answer with
            | error error => trivial
            | ok task =>
                have found := Database.getTask_ok answerEq
                exact ⟨Database.stored_id found, follows.placed id task found⟩
        | listTasks filter =>
            cases answerEq
            intro task listed
            obtain ⟨record, member, _, rfl⟩ := Database.listed_record listed
            exact follows.placed record.id record.load
              (congrArg (Option.map TaskRecord.load) (Table.find_of_mem member))
        | getWorkspace id =>
            change before.getWorkspace id = answer at answerEq
            unfold Database.getWorkspace at answerEq
            have board := follows.boards id
            split at answerEq <;> rename_i found <;> cases answerEq <;> rw [found] at board
            · exact board.symm
            · exact board
        | getProject id =>
            change before.getProject id = answer at answerEq
            unfold Database.getProject at answerEq
            have field := follows.fields id
            split at answerEq <;> rename_i found <;> cases answerEq <;> rw [found] at field
            · exact field.symm
            · exact field
        | _ => trivial
      · cases op <;> trivial
  | _ => trivial

theorem StoreOp.retouch_workspaceId (op : StoreOp) (record : TaskRecord) :
    (op.retouch record).row.workspaceId = record.row.workspaceId := by
  cases op <;> simp [retouch, Database.dirtiedRemotely]

/-- A call that the plan permits leaves the store configured as it was. -/
theorem follows_step {op : PortOp} {answer : op.Answer} (permitted : plan.Calls op)
    (follows : before.Follows plan) (answered : portMeaning op before answer after) :
    after.Follows plan := by
  cases op with
  | store op =>
      rcases answered with ⟨instant, performed⟩ | ⟨_, _, rfl⟩
      · have fixed : ∀ workspace, op ≠ .saveWorkspace workspace := by
          rintro workspace rfl
          exact permitted
        refine ⟨?_, ?_, ?_⟩
        · intro id task found
          obtain ⟨record, recordFound, rfl⟩ := Option.map_eq_some_iff.mp found
          rcases StoreOp.perform_record performed with ⟨writes, entries, rfl, saved⟩ | retouched
          · rw [Database.saveAll_record saved] at recordFound
            refine @Database.afterWrites_induct _ _ (fun stored => ∀ record, stored = some record →
              plan.Placed record.load) _ _ ?_ ?_ record recordFound
            · intro earlier earlierFound
              exact follows.placed id earlier.load
                (congrArg (Option.map TaskRecord.load) earlierFound)
            · rintro write member rfl earlier _ _ same
              cases same
              have place :=
                (TaskRecord.load_write_place instant write.source write.task earlier).1
              rw [BoardPlan.Placed, place, TaskRecord.load_id, TaskRecord.write_id]
              exact permitted.1 write member
          · rw [retouched] at recordFound
            split at recordFound
            · obtain ⟨earlier, earlierFound, rfl⟩ := Option.map_eq_some_iff.mp recordFound
              have placed := follows.placed id earlier.load
                (congrArg (Option.map TaskRecord.load) earlierFound)
              change (op.retouch earlier).row.workspaceId = plan.placed (op.retouch earlier).id
              rw [op.retouch_workspaceId, op.retouch_id]
              exact placed
            · exact follows.placed id record.load
                (congrArg (Option.map TaskRecord.load) recordFound)
        · rw [StoreOp.perform_workspaces performed fixed]
          exact follows.boards
        · rw [(StoreOp.perform_settings performed).2.2]
          exact follows.fields
      · exact follows
  | freshTaskId =>
      rw [answered.2]
      exact follows
  | _ =>
      cases answered
      exact follows

end Store

/-- The database, with all entries that any process has enqueued so far, also those that the outbox
did not take. -/
structure Enqueuing where
  database : Database
  queued : List OutboxEntry

def enqueuing : Semantics ports Enqueuing := fun op before answer after =>
  portMeaning op before.database answer after.database ∧ after.queued = before.queued ++ op.queued

def Enqueuing.OnRails (plan : BoardPlan) (state : Enqueuing) : Prop :=
  state.database.Follows plan ∧ ∀ entry ∈ state.queued, plan.Fits entry

abbrev railRules (plan : BoardPlan) : Discipline ports Enqueuing Unit :=
  steadyRules enqueuing plan.Calls (Enqueuing.OnRails plan)

/-- Edits of fields, lifecycles and relations, rollbacks, promotes and the drains that attach,
convert and sweep. -/
inductive RailStarts : Enqueuing → Proc ports Empty Unit → Prop
  | edit {state : Enqueuing} {program : TaskService.Action Task}
      (edit : TaskService.Edit program) : RailStarts state ⟨(), program.detached⟩
  | stage {state : Enqueuing} (id : TaskId) :
      RailStarts state ⟨(), (TaskService.stageForSync id).detached⟩
  | rollback {state : Enqueuing} (id : TaskId) (toVersion : Nat) :
      RailStarts state ⟨(), (TaskService.rollback id toVersion).detached⟩
  | promote {state : Enqueuing} (id : TaskId) :
      RailStarts state ⟨(), (SyncService.promote id).detached⟩
  | drain {state : Enqueuing} (backoff : BackoffSchedule) (rounds : Nat) :
      RailStarts state ⟨(), (OutboxDrainer.drainOnce backoff rounds).detached⟩

theorem railStarts_fits {plan : BoardPlan} {state : Enqueuing} {proc : Proc ports Empty Unit}
    (begins : RailStarts state proc) :
    proc.program.Under plan.Tells plan.Calls fun _ => True := by
  cases begins with
  | edit edit => exact edit.fits.detached
  | stage id => exact (TaskService.stageForSync_fits id).detached
  | rollback id toVersion => exact (TaskService.rollback_fits id toVersion).detached
  | promote id => exact (promote_fits id).detached
  | drain backoff rounds => exact (OutboxDrainer.drainOnce_fits backoff rounds).detached

theorem queued_fits {plan : BoardPlan} {op : PortOp} (permitted : plan.Calls op) :
    ∀ entry ∈ op.queued, plan.Fits entry := by
  cases op with
  | store op =>
      cases op with
      | saveAll writes entries => exact permitted.2
      | enqueue entry => exact List.forall_mem_singleton.mpr permitted
      | enqueueIfAbsent entry => exact List.forall_mem_singleton.mpr permitted
      | _ => exact fun _ member => (List.not_mem_nil member).elim
  | _ => exact fun _ member => (List.not_mem_nil member).elim

theorem onRails_step {plan : BoardPlan} {op : PortOp} {before after : Enqueuing}
    {answer : op.Answer} (permitted : plan.Calls op) (held : before.OnRails plan)
    (answered : enqueuing op before answer after) : after.OnRails plan := by
  obtain ⟨performed, grown⟩ := answered
  refine ⟨follows_step permitted held.1 performed, ?_⟩
  rw [grown]
  exact List.forall_mem_append.mpr ⟨held.2, queued_fits permitted⟩

def OutboxMutation.setsProjectType : OutboxMutation → Bool
  | .setProjectType .. => true
  | _ => false

def OutboxMutation.setsIssueType : OutboxMutation → Bool
  | .setIssueType .. => true
  | _ => false

theorem OutboxMutation.FitsRail.board {mutation : OutboxMutation}
    (fits : mutation.FitsRail true) : mutation.setsIssueType = false := by
  cases mutation with
  | setIssueType => cases fits
  | _ => rfl

theorem OutboxMutation.FitsRail.native {mutation : OutboxMutation}
    (fits : mutation.FitsRail false) : mutation.setsProjectType = false := by
  cases mutation with
  | setProjectType => cases fits
  | _ => rfl

/-- Over every run, of the two type mutations at most one is ever enqueued for a task. -/
theorem type_rail_single {start : Database} {pool : Pool ports Enqueuing Empty Unit}
    (run : Pool.Run (railRules start.boardPlan) (fun _ _ => True) RailStarts ⟨⟨start, []⟩, []⟩ pool)
    (id : TaskId) :
    (∀ entry ∈ pool.shared.queued, entry.taskId = id → entry.mutation.setsIssueType = false) ∨
      ∀ entry ∈ pool.shared.queued, entry.taskId = id → entry.mutation.setsProjectType = false := by
  have onRails : Enqueuing.OnRails start.boardPlan ⟨start, []⟩ :=
    ⟨start.follows_boardPlan, fun _ member => (List.not_mem_nil member).elim⟩
  have tells : ∀ op before answer after, Enqueuing.OnRails start.boardPlan before →
      enqueuing op before answer after → start.boardPlan.Tells op answer :=
    fun _ _ _ _ held answered => follows_tells held.1 answered.1
  have sound := steady_run tells (fun _ _ _ _ => onRails_step) (fun _ _ => railStarts_fits)
    onRails run
  obtain ⟨_, fits⟩ : pool.shared.OnRails start.boardPlan := sound.inv
  cases rail : start.boardPlan.custom id with
  | true =>
      refine .inl fun entry queued taskId => ?_
      have entryFits := fits entry queued
      rw [BoardPlan.Fits, taskId, rail] at entryFits
      exact entryFits.board
  | false =>
      refine .inr fun entry queued taskId => ?_
      have entryFits := fits entry queued
      rw [BoardPlan.Fits, taskId, rail] at entryFits
      exact entryFits.native

def typeBoard : Project := { columnBoard with
  fields := ⟨"F_2", "Type", .type, [⟨"T_1", "Bug", 0⟩]⟩ :: columnBoard.fields }

def typedCard : Database := { cardedBoard with projects := ⟨[typeBoard], by decide⟩ }

abbrev Queueing := Scene × List OutboxEntry

def Queueing.enqueuing (state : Queueing) : Enqueuing := ⟨state.1.database, state.2⟩

def queueingHandler : Handler ports Queueing := fun op state =>
  ((portHandler obligingProvider ⟨1⟩ op state.1).1,
    (portHandler obligingProvider ⟨1⟩ op state.1).2, state.2 ++ op.queued)

theorem queueingHandler_sound (op : PortOp) (state : Queueing) :
    enqueuing op state.enqueuing (queueingHandler op state).1
      (queueingHandler op state).2.enqueuing :=
  ⟨portHandler_sound obligingProvider ⟨1⟩ op state.1, rfl⟩

theorem run_queueing {plan : BoardPlan} {program : Program ports Empty Unit} {state : Queueing}
    (begins : RailStarts state.enqueuing ⟨(), program⟩) :
    Pool.Run (railRules plan) (fun _ _ => True) RailStarts ⟨state.enqueuing, []⟩
      ⟨(program.exec queueingHandler state).2.enqueuing, []⟩ := by
  have ran := @exec_runs _ _ _ _ _ enqueuing queueingHandler Queueing.enqueuing
    queueingHandler_sound program state
  cases result : (program.exec queueingHandler state).1 with
  | error error => exact error.elim
  | ok value =>
      rw [result] at ran
      exact Pool.run_whole begins (fun _ member => (List.not_mem_nil member).elim) ran

def retypedCard : Queueing :=
  ((TaskService.update { taskId := ⟨1⟩, issueType := some (some "bug") }).detached :
    Program ports Empty Unit).exec queueingHandler (⟨typedCard, 0⟩, []) |>.2

def drainedCard : Queueing :=
  ((OutboxDrainer.drainOnce .standard 5).detached :
    Program ports Empty Unit).exec queueingHandler retypedCard |>.2

theorem run_drainedCard : Pool.Run (railRules typedCard.boardPlan) (fun _ _ => True) RailStarts
    ⟨⟨typedCard, []⟩, []⟩ ⟨drainedCard.enqueuing, []⟩ := by
  have edits := @run_queueing typedCard.boardPlan _ (⟨typedCard, 0⟩, [])
    (.edit (.update { taskId := ⟨1⟩, issueType := some (some "bug") }))
  exact edits.trans (run_queueing (.drain .standard 5))

theorem type_rail_single_typed :
    (∃ entry ∈ drainedCard.2, entry.taskId = ⟨1⟩ ∧ entry.mutation.setsProjectType = true) ∧
      ∀ entry ∈ drainedCard.2, entry.taskId = ⟨1⟩ → entry.mutation.setsIssueType = false := by
  have onBoard : ∃ entry ∈ drainedCard.2,
      entry.taskId = ⟨1⟩ ∧ entry.mutation.setsProjectType = true := by decide
  refine ⟨onBoard, (type_rail_single run_drainedCard ⟨1⟩).resolve_right fun native => ?_⟩
  obtain ⟨entry, queued, taskId, sets⟩ := onBoard
  rw [native entry queued taskId] at sets
  cases sets

end RepoLink
