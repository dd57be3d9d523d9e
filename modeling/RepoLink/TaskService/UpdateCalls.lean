import RepoLink.Library.Under
import RepoLink.Sync.Address
import RepoLink.Sync.DrainCalls
import RepoLink.TaskService.Edits

/-!
The update that an edit plans. The address is read off settings that stand still meanwhile, so a
task that an edit has dirtied gets an entry for its issue. A rollback plans none.
-/

namespace RepoLink

open Effects Program

section Lifecycle

@[simp] theorem Task.reconcileDirtyAgainstBaseline_lifecycle (task : Task) :
    task.reconcileDirtyAgainstBaseline.lifecycle = task.lifecycle := by
  unfold reconcileDirtyAgainstBaseline
  split <;> rfl

@[simp] theorem Task.setBody_lifecycle (now : Timestamp) (body : String) (task : Task) :
    (task.setBody now body).lifecycle = task.lifecycle := by
  simp [setBody, touch]

@[simp] theorem Task.setAssignees_lifecycle (now : Timestamp) (assignees : List String)
    (task : Task) : (task.setAssignees now assignees).lifecycle = task.lifecycle := by
  simp [setAssignees, touch]

@[simp] theorem Task.setPriority_lifecycle (now : Timestamp) (priority : Priority) (task : Task) :
    (task.setPriority now priority).lifecycle = task.lifecycle := by
  unfold setPriority
  split <;> rfl

@[simp] theorem Task.setIssueType_lifecycle (now : Timestamp) (issueType : Option IssueType)
    (task : Task) : (task.setIssueType now issueType).lifecycle = task.lifecycle := by
  unfold setIssueType
  split <;> rfl

theorem Task.setTitle_lifecycle {now : Timestamp} {title : String} {task titled : Task}
    (set : (task.setTitle now title).attempt = .ok titled) :
    titled.lifecycle = task.lifecycle := by
  unfold setTitle at set
  split at set
  · cases set
  · cases set
    simp [touch]

theorem Task.setRepoId_lifecycle {now : Timestamp} {repoId : Option RepoId} {task moved : Task}
    (set : (task.setRepoId now repoId).attempt = .ok moved) :
    moved.lifecycle = task.lifecycle := by
  unfold setRepoId at set
  split at set
  · cases set
    rfl
  · split at set
    · cases set
    · cases set
      rfl

theorem Task.setFilingRepoId_lifecycle {now : Timestamp} {filing : Option RepoId}
    {task filed : Task} (set : (task.setFilingRepoId now filing).attempt = .ok filed) :
    filed.lifecycle = task.lifecycle := by
  unfold setFilingRepoId at set
  split at set
  · cases set
    rfl
  · split at set
    · cases set
    · cases set
      rfl

theorem elim_lifecycle {α : Type} {task : Task} {change : α → Task}
    (each : ∀ value, (change value).lifecycle = task.lifecycle) (choice : Option α) :
    (choice.elim task change).lifecycle = task.lifecycle := by
  cases choice with
  | none => rfl
  | some value => exact each value

theorem elim_ok_lifecycle {α ε : Type} {task after : Task} {change : α → Except ε Task}
    {choice : Option α} (result : choice.elim (.ok task) change = .ok after)
    (each : ∀ value after, change value = .ok after → after.lifecycle = task.lifecycle) :
    after.lifecycle = task.lifecycle := by
  cases choice with
  | none =>
      cases result
      rfl
  | some value => exact each value after result

namespace TaskService

theorem editFields_lifecycle {now : Timestamp} {cmd : UpdateTaskCmd} {task edited : Task}
    (result : editFields now cmd task = .ok edited) : edited.lifecycle = task.lifecycle := by
  obtain ⟨titled, titling, result⟩ := editFields_ok result
  have first := elim_ok_lifecycle titling fun _ _ => Task.setTitle_lifecycle
  refine (elim_ok_lifecycle result fun _ _ => Task.setRepoId_lifecycle).trans ?_
  refine (elim_lifecycle (fun _ => Task.setAssignees_lifecycle ..) _).trans ?_
  refine (elim_lifecycle (fun _ => Task.setPriority_lifecycle ..) _).trans ?_
  exact (elim_lifecycle (fun _ => Task.setBody_lifecycle ..) _).trans first

theorem overrideFiling_lifecycle (now : Timestamp) (handle : Option RepoId) (task : Task) :
    (overrideFiling now handle task).Yields fun filed => filed.lifecycle = task.lifecycle := by
  unfold overrideFiling
  split
  · exact rfl
  · refine (yields_any _).bind fun origin _ => (settled_yields _).mono fun _ => ?_
    exact Task.setFilingRepoId_lifecycle

theorem recordFiling_lifecycle (now : Timestamp) (filing : Option RepoId) (task : Task) :
    (recordFiling now filing task).Yields fun filed => filed.lifecycle = task.lifecycle := by
  unfold recordFiling
  split
  · exact (settled_yields _).mono fun _ => Task.setFilingRepoId_lifecycle
  · exact rfl

theorem editTask_lifecycle (now : Timestamp) (cmd : UpdateTaskCmd) (before : Task) :
    (editTask now cmd before).Yields fun edited => edited.1.lifecycle = before.lifecycle := by
  refine (settled_yields _).bind fun edited editedEq => ?_
  refine (overrideFiling_lifecycle now cmd.filingRepoOverride edited).bind ?_
  intro filed filedEq
  have typed := elim_lifecycle (fun name => Task.setIssueType_lifecycle now
    (name.map IssueType.ofString) filed) cmd.issueType
  refine (yields_any _).bind fun filing _ => ?_
  refine (recordFiling_lifecycle now filing _).bind fun recorded recordedEq => ?_
  exact recordedEq.trans (typed.trans (filedEq.trans (editFields_lifecycle editedEq)))

end TaskService

end Lifecycle

section Located

structure Database.SameSettings (left right : Database) : Prop where
  workspaces : left.workspaces = right.workspaces
  origins : left.origins = right.origins
  instances : left.instances = right.instances

namespace Database.SameSettings

variable {left right : Database}

theorem binding (same : left.SameSettings right) : left.binding = right.binding := by
  have view : left.bindingView = right.bindingView := by
    funext row
    simp only [bindingView, same.origins]
  funext id
  simp only [Database.binding, same.instances, view]

theorem address (same : left.SameSettings right) : left.address = right.address := by
  funext task
  simp only [Database.address, filingCanonical, filingOrigin, filingDefault, logicalOrigin,
    same.binding, same.workspaces, same.origins]

end Database.SameSettings

def PortOp.locates : PortOp → Prop
  | .store op => op.locates = true
  | _ => False

/-- What a read that locates an issue may answer, as long as the settings are those of `start`. -/
def Located (start : Database) : (op : PortOp) → op.Answer → Prop
  | .store op, answer => op.locates = true →
    answer = op.answer start ∨ ∃ message, answer = .error (.backend message)
  | _, _ => True

variable {start : Database} {ε : Type} {allowed : PortOp → Prop}

theorem located_of_performs {op : PortOp} {before after : Database} {answer : op.Answer}
    (same : before.SameSettings start) (answered : portMeaning op before answer after) :
    Located start op answer := by
  cases op with
  | store op =>
      intro locates
      rcases answered with ⟨instant, performed⟩ | ⟨message, failed, _⟩
      · rw [StoreOp.perform_answer (StoreOp.reads_of_locates locates)] at performed
        refine .inl ((congrArg Prod.fst performed).symm.trans ?_)
        cases op with
        | getWorkspace id =>
            change before.getWorkspace id = start.getWorkspace id
            rw [Database.getWorkspace, Database.getWorkspace, same.workspaces]
        | getBinding id =>
            have found : (before.instances.find id).bind before.bindingView =
                (start.instances.find id).bind start.bindingView := congrFun same.binding id
            change before.getBinding id = start.getBinding id
            rw [Database.getBinding, Database.getBinding, found]
        | getOrigin id =>
            change before.getOrigin id = start.getOrigin id
            rw [Database.getOrigin, Database.getOrigin, same.origins]
        | _ => cases locates
      · exact .inr ⟨message, failed⟩
  | _ => trivial

/-- What such reads come to is what they come to over `start` alone. -/
theorem under_located (reads : ∀ op, PortOp.locates op → allowed op) {α : Type}
    {program : Service ε α} (locates : program.Every PortOp.locates) :
    program.Under (Located start) allowed fun value =>
      program.Runs portMeaning start (.ok value) start := by
  induction program with
  | done value => exact ⟨rfl, rfl⟩
  | fail error => trivial
  | call op next ih =>
      obtain ⟨found, rest⟩ := locates
      refine ⟨reads op found, fun answer told => (ih answer (rest answer)).mono ?_⟩
      intro value ran
      refine ⟨answer, start, ?_, ran⟩
      cases op with
      | store op =>
          rcases told found with same | failed
          · exact .inl ⟨.epoch, same ▸ StoreOp.perform_answer (StoreOp.reads_of_locates found) _ _⟩
          · exact .inr (failed.imp fun message answerEq => ⟨answerEq, rfl⟩)
      | _ => cases found

theorem under_filingCanonicalFor [OfPortError ε] (reads : ∀ op, PortOp.locates op → allowed op)
    (task : Task) : (filingCanonicalFor task : Service ε (Option String)).Under (Located start)
      allowed fun found => ∀ canonical, start.filingCanonical task = some canonical →
        found = some canonical := by
  refine (under_located reads (filingCanonicalFor_every (fun _ found => found) task)).mono ?_
  intro found ran canonical filed
  have answered := (runs_filingCanonicalFor_ok.mp ran).2
  rw [Database.filed_some.mpr (by rw [Option.map_bind]; exact filed)] at answered
  exact (Except.ok.inj answered).symm

end Located

/-- An edit of a copy that was loaded clean, or a lifecycle verb: what dirties a task anew. -/
def TaskWrite.fresh (write : TaskWrite) : Bool :=
  write.source ≠ .rollback && write.basis.any fun basis =>
    basis.sync = .synced || basis.lifecycle ≠ write.task.lifecycle

theorem TaskWrite.fresh_clean {basis task : Task} {source : SnapshotSource}
    (fresh : TaskWrite.fresh ⟨some basis, task, source⟩ = true)
    (kept : task.lifecycle = basis.lifecycle) : basis.sync = .synced := by
  have clean : source ≠ .rollback ∧ basis.sync = .synced := by
    simpa [TaskWrite.fresh, kept] using fresh
  exact clean.2

def OutboxEntry.pushes (id : TaskId) (entry : OutboxEntry) : Bool :=
  entry.taskId = id && entry.mutation.target.isSome

/-- A call of an operation: it looks, or it saves one row, and what it dirties anew it pushes. -/
def UpdateCall (start : Database) : PortOp → Prop
  | .store (.saveAll writes entries) => ∃ write, writes = [write] ∧
      (write.fresh = true → write.task.sync = .dirtyLocal →
        (start.address write.task).isSome = true →
        ∃ entry ∈ entries, entry.pushes write.task.id = true ∧ entry.status = .pending)
  | op => op.quiet

theorem UpdateCall.ofQuiet {start : Database} {op : PortOp} (quiet : op.quiet) :
    UpdateCall start op := by
  cases op with
  | store op => cases op <;> first
    | exact quiet
    | cases quiet
  | _ => trivial

theorem PortOp.locates.quiet {op : PortOp} (locates : op.locates) : op.quiet := by
  cases op with
  | store op => exact StoreOp.reads_of_locates locates
  | _ => trivial

theorem planMutations_pushes {task : Task} {project : Option Project} {canonical : String}
    (mirror : task.isMirror = true) (backed : task.remote.isSome = true) (contentChanged : Bool) :
    ∃ mutation ∈ planMutations task project (some canonical) contentChanged,
      mutation.target.isSome = true := by
  obtain ⟨remote, remoteEq⟩ := Option.isSome_iff_exists.mp backed
  refine ⟨.updateRemote canonical remote.remoteId (some task.title) (some task.body) none, ?_, rfl⟩
  unfold planMutations
  rw [mirror, Bool.not_true, if_neg Bool.false_ne_true]
  refine List.mem_append_left _ ?_
  rw [Task.isIssueBacked, if_pos backed, remoteEq]
  exact List.mem_singleton_self _

namespace TaskService

variable {start : Database}

theorem under_calm {α : Type} {post : α → Prop} {program : Action α}
    (quiet : program.Every PortOp.quiet) (yields : program.Yields post) :
    program.Under (Located start) (UpdateCall start) post :=
  .of (quiet.mono fun _ => UpdateCall.ofQuiet) yields

theorem isMirror_of_dirty {task : Task} (dirty : task.sync = .dirtyLocal) :
    task.isMirror = true := by
  rw [Task.isMirror, dirty]
  rfl

theorem planMirrorMutations_pushes (now : Timestamp) (task : Task) (contentChanged : Bool) :
    (planMirrorMutations now task contentChanged).Under (Located start) (UpdateCall start)
      fun planned => planned.2.sync = .dirtyLocal → (start.address planned.2).isSome = true →
        ∃ mutation ∈ planned.1, mutation.target.isSome = true := by
  unfold planMirrorMutations
  split
  · rename_i unmirrored
    intro dirty
    rw [isMirror_of_dirty dirty] at unmirrored
    cases unmirrored
  · refine (under_calm (query_quiet (.getWorkspace _) rfl) (yields_any _)).bind ?_
    intro workspace _
    refine (under_calm (projectForWorkspace_quiet _) (yields_any _)).bind fun project _ => ?_
    refine (under_calm (recordBoardFiling_quiet ..) (yields_any _)).bind fun filed _ => ?_
    refine (under_filingCanonicalFor (fun _ locates => .ofQuiet locates.quiet) filed).bind ?_
    intro found located dirty addressed
    obtain ⟨⟨canonical, remoteId⟩, address⟩ := Option.isSome_iff_exists.mp addressed
    obtain ⟨canonicalEq, remoteEq⟩ := Database.address_eq_some.mp address
    obtain ⟨remote, backed, _⟩ := Option.map_eq_some_iff.mp remoteEq
    rw [located canonical canonicalEq]
    exact planMutations_pushes (isMirror_of_dirty dirty)
      (Option.isSome_iff_exists.mpr ⟨remote, backed⟩) contentChanged

theorem planUpdateMutations_pushes (now : Timestamp) (task : Task) (syncBefore : SyncState)
    {converted : Bool} (drafts : converted = true → task.remote = none) :
    (planUpdateMutations now task syncBefore converted).Under (Located start) (UpdateCall start)
      fun planned => syncBefore ≠ .dirtyLocal → planned.2.sync = .dirtyLocal →
        (start.address planned.2).isSome = true →
        ∃ mutation ∈ planned.1, mutation.target.isSome = true := by
  unfold planUpdateMutations
  split
  · rename_i unmirrored
    intro _ dirty
    rw [isMirror_of_dirty dirty] at unmirrored
    cases unmirrored
  · split
    · rename_i draft
      refine (under_calm (filingCanonicalFor_quiet task) (yields_any _)).bind fun canonical _ => ?_
      intro _ _ addressed
      rw [Database.address, drafts draft] at addressed
      cases addressed
    · split
      · rename_i same
        exact fun clean dirty => absurd (same.symm.trans dirty) clean
      · exact (planMirrorMutations_pushes now task true).mono fun _ pushes _ => pushes

theorem recordBoardFiling_lifecycle (now : Timestamp) (workspace : Workspace)
    (project : Option Project) (task : Task) :
    (recordBoardFiling now workspace project task).Yields fun filed =>
      filed.lifecycle = task.lifecycle := by
  unfold recordBoardFiling
  split
  · exact (yields_any _).bind fun _ _ => (settled_yields _).mono fun _ =>
      Task.setFilingRepoId_lifecycle
  · exact rfl

theorem planMirrorMutations_lifecycle (now : Timestamp) (task : Task) (contentChanged : Bool) :
    (planMirrorMutations now task contentChanged).Yields fun planned =>
      planned.2.lifecycle = task.lifecycle := by
  unfold planMirrorMutations
  split
  · exact rfl
  · refine (yields_any _).bind fun workspace _ => (yields_any _).bind fun project _ => ?_
    refine (recordBoardFiling_lifecycle now workspace project task).bind fun filed filedEq => ?_
    exact (yields_any _).bind fun _ _ => filedEq

theorem planUpdateMutations_lifecycle (now : Timestamp) (task : Task) (syncBefore : SyncState)
    (converted : Bool) : (planUpdateMutations now task syncBefore converted).Yields
      fun planned => planned.2.lifecycle = task.lifecycle := by
  unfold planUpdateMutations
  split
  · exact rfl
  · split
    · exact (yields_any _).bind fun _ _ => rfl
    · split
      · exact rfl
      · exact planMirrorMutations_lifecycle now task true

theorem editTask_drafts (now : Timestamp) (cmd : UpdateTaskCmd) (before : Task) :
    (editTask now cmd before).Yields fun edited =>
      edited.2.isSome = true → before.remote = none := by
  refine (yields_any _).bind fun edited _ => (yields_any _).bind fun filed _ => ?_
  have drafts : ∀ typed, (firstFiling before typed).Yields fun filing =>
      filing.isSome = true → before.remote = none := by
    intro typed
    unfold firstFiling
    dsimp only
    split
    · rename_i orphan
      refine (yields_any _).bind fun workspace _ => (yields_any _).bind fun logical _ => ?_
      simp only [isDraftBacked, Bool.and_eq_true, Option.isNone_iff_eq_none] at orphan
      exact fun _ => orphan.1.1.1
    · exact nofun
  exact (drafts _).bind fun filing resolved => (yields_any _).bind fun _ _ => resolved

theorem intoEntries_pushes (taskId : TaskId) : ∀ mutations : List OutboxMutation,
    (intoEntries taskId mutations).Yields fun entries =>
      (∃ mutation ∈ mutations, mutation.target.isSome = true) →
        ∃ entry ∈ entries, entry.pushes taskId = true ∧ entry.status = .pending := by
  intro mutations
  induction mutations with
  | nil => exact fun ⟨_, member, _⟩ => (List.not_mem_nil member).elim
  | cons mutation rest ih =>
      intro id now
      refine ih.bind fun entries pushes => ?_
      rintro ⟨planned, member, target⟩
      rcases List.mem_cons.mp member with rfl | member
      · exact ⟨_, List.mem_cons_self, by simp [OutboxEntry.pushes, OutboxEntry.new, target], rfl⟩
      · obtain ⟨entry, inRest, facts⟩ := pushes ⟨planned, member, target⟩
        exact ⟨entry, List.mem_cons_of_mem _ inRest, facts⟩

theorem saveWithOutbox_pushes {basis : Option Task} {task : Task} {source : SnapshotSource}
    {entries : List OutboxEntry}
    (pushes : TaskWrite.fresh ⟨basis, task, source⟩ = true → task.sync = .dirtyLocal →
      (start.address task).isSome = true →
        ∃ entry ∈ entries, entry.pushes task.id = true ∧ entry.status = .pending) :
    (saveWithOutbox basis task source entries).Under (Located start) (UpdateCall start)
      fun _ => True :=
  .ofEvery (@every_query _ _ (UpdateCall start) (.saveAll _ entries) ⟨_, rfl, pushes⟩)

theorem update_pushes (cmd : UpdateTaskCmd) :
    (update cmd).Under (Located start) (UpdateCall start) fun _ => True := by
  refine (under_calm (getTask_quiet _) (yields_any _)).bind fun before _ => ?_
  refine (under_calm (every_clock trivial) (yields_any _)).bind fun now _ => ?_
  refine (under_calm (editTask_quiet now cmd before)
    (((editTask_retouched now cmd before).both (editTask_lifecycle now cmd before)).both
      (editTask_drafts now cmd before))).bind ?_
  rintro ⟨edited, filing⟩ ⟨⟨retouched, editedLifecycle⟩, drafts⟩
  refine ((planUpdateMutations_pushes now edited before.sync fun converted =>
    retouched.remote.trans (drafts converted)).both (planUpdateMutations_lifecycle ..)).bind ?_
  rintro ⟨mutations, planned⟩ ⟨pushes, plannedLifecycle⟩
  refine (under_calm (intoEntries_quiet ..) (intoEntries_pushes ..)).bind fun entries queued => ?_
  refine (under_calm (railEntries_quiet ..) (yields_any _)).bind fun rails _ => ?_
  refine (saveWithOutbox_pushes fun fresh dirty addressed => ?_).bind fun _ _ => trivial
  have loaded := TaskWrite.fresh_clean fresh (plannedLifecycle.trans editedLifecycle)
  have clean : before.sync ≠ .dirtyLocal := fun same => nomatch loaded.symm.trans same
  obtain ⟨entry, member, facts⟩ := queued (pushes clean dirty addressed)
  exact ⟨entry, List.mem_append_left _ member, facts⟩

theorem transitionMirror_pushes (taskId : TaskId) (op : Timestamp → Task → Mutation) :
    (transitionMirror taskId op).Under (Located start) (UpdateCall start) fun _ => True := by
  refine (under_calm (getTask_quiet _) (yields_any _)).bind fun before _ => ?_
  refine (under_calm (every_clock trivial) (yields_any _)).bind fun now _ => ?_
  refine (under_calm (settled_quiet _) (yields_any _)).bind fun after _ => ?_
  split
  · trivial
  · refine (planMirrorMutations_pushes now after false).bind ?_
    rintro ⟨mutations, planned⟩ pushes
    refine (under_calm (intoEntries_quiet ..) (intoEntries_pushes ..)).bind fun entries queued => ?_
    refine (saveWithOutbox_pushes fun _ dirty addressed => ?_).bind fun _ _ => trivial
    exact queued (pushes dirty addressed)

theorem FieldEdit.pushes {program : Action Task} (edit : FieldEdit program) :
    program.Under (Located start) (UpdateCall start) fun _ => True := by
  cases edit with
  | update cmd => exact update_pushes cmd
  | start id => exact transitionMirror_pushes id _
  | complete id => exact transitionMirror_pushes id _
  | reopen id => exact transitionMirror_pushes id _
  | archive id => exact transitionMirror_pushes id _

theorem rollback_pushes (taskId : TaskId) (toVersion : Nat) :
    (rollback taskId toVersion).Under (Located start) (UpdateCall start) fun _ => True := by
  refine (under_calm (getTask_quiet _) (yields_any _)).bind fun before _ => ?_
  refine (under_calm (getSnapshot_quiet _ _) (yields_any _)).bind fun snapshot _ => ?_
  refine (under_calm (every_clock trivial) (yields_any _)).bind fun now _ => ?_
  refine (under_calm (railEntries_quiet ..) (yields_any _)).bind fun rails _ => ?_
  refine (saveWithOutbox_pushes fun fresh => ?_).bind fun _ _ => trivial
  simp [TaskWrite.fresh] at fresh

end TaskService

end RepoLink
