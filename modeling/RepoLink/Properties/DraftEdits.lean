import RepoLink.Properties.BoardColumn
import RepoLink.Properties.CreationReplay
import RepoLink.Sync.DraftCalls

/-!
Edits of a draft between drains: whether what is stored of it was sent to the board, or waits in
the outbox to be sent. An edit of a draft plans no update, since no baseline makes it dirty.
-/

namespace RepoLink

open Effects Program

def UpdateTaskCmd.redraft (cmd : UpdateTaskCmd) (text : String × String) : String × String :=
  (cmd.title.getD text.1, cmd.body.getD text.2)

structure Task.Drafted (title body : String) (sync : SyncState) (task : Task) : Prop where
  title : task.title = title
  body : task.body = body
  sync : task.sync = sync
  unconfirmed : task.syncedBaseline = none

namespace Task.Drafted

variable {title body : String} {sync : SyncState} {task : Task}

theorem reconciled (drafted : task.Drafted title body sync) :
    task.reconcileDirtyAgainstBaseline.Drafted title body sync := by
  unfold reconcileDirtyAgainstBaseline
  rw [drafted.unconfirmed]
  exact drafted

theorem setTitle {now : Timestamp} {newTitle : String} {titled : Task}
    (drafted : task.Drafted title body sync)
    (set : (task.setTitle now newTitle).attempt = .ok titled) :
    titled.Drafted newTitle body sync := by
  unfold Task.setTitle at set
  split at set
  · cases set
  · cases set
    exact reconciled ⟨rfl, drafted.body, drafted.sync, drafted.unconfirmed⟩

theorem setBody (drafted : task.Drafted title body sync) (now : Timestamp) (newBody : String) :
    (task.setBody now newBody).Drafted title newBody sync :=
  reconciled ⟨drafted.title, rfl, drafted.sync, drafted.unconfirmed⟩

theorem setAssignees (drafted : task.Drafted title body sync) (now : Timestamp)
    (assignees : List String) : (task.setAssignees now assignees).Drafted title body sync :=
  reconciled ⟨drafted.title, drafted.body, drafted.sync, drafted.unconfirmed⟩

theorem setPriority (drafted : task.Drafted title body sync) (now : Timestamp)
    (priority : Priority) : (task.setPriority now priority).Drafted title body sync := by
  unfold Task.setPriority
  split
  · exact ⟨drafted.title, drafted.body, drafted.sync, drafted.unconfirmed⟩
  · exact drafted

theorem setIssueType (drafted : task.Drafted title body sync) (now : Timestamp)
    (issueType : Option IssueType) : (task.setIssueType now issueType).Drafted title body sync := by
  unfold Task.setIssueType
  split
  · exact ⟨drafted.title, drafted.body, drafted.sync, drafted.unconfirmed⟩
  · exact drafted

theorem setRepoId {now : Timestamp} {repoId : Option RepoId} {moved : Task}
    (drafted : task.Drafted title body sync)
    (set : (task.setRepoId now repoId).attempt = .ok moved) : moved.Drafted title body sync := by
  unfold Task.setRepoId at set
  split at set
  · cases set
    exact drafted
  · split at set
    · cases set
    · cases set
      exact ⟨drafted.title, drafted.body, drafted.sync, drafted.unconfirmed⟩

theorem setFilingRepoId {now : Timestamp} {filing : Option RepoId} {filed : Task}
    (drafted : task.Drafted title body sync)
    (set : (task.setFilingRepoId now filing).attempt = .ok filed) :
    filed.Drafted title body sync := by
  unfold Task.setFilingRepoId at set
  split at set
  · cases set
    exact drafted
  · split at set
    · cases set
    · cases set
      exact ⟨drafted.title, drafted.body, drafted.sync, drafted.unconfirmed⟩

theorem elim {α : Type} {change : α → Task} (drafted : task.Drafted title body sync)
    (each : ∀ value, (change value).Drafted title body sync) (choice : Option α) :
    (choice.elim task change).Drafted title body sync := by
  cases choice with
  | none => exact drafted
  | some value => exact each value

end Task.Drafted

namespace TaskService

theorem editFields_drafted {now : Timestamp} {cmd : UpdateTaskCmd} {task edited : Task}
    {title body : String} {sync : SyncState} (drafted : task.Drafted title body sync)
    (result : editFields now cmd task = .ok edited) :
    edited.Drafted (cmd.title.getD title) (cmd.body.getD body) sync := by
  obtain ⟨titled, titling, result⟩ := editFields_ok result
  have retitled : titled.Drafted (cmd.title.getD title) body sync := by
    cases asked : cmd.title with
    | none =>
        rw [asked] at titling
        cases titling
        exact drafted
    | some newTitle =>
        rw [asked] at titling
        exact drafted.setTitle titling
  have described : (cmd.body.elim titled fun body => titled.setBody now body).Drafted
      (cmd.title.getD title) (cmd.body.getD body) sync := by
    cases cmd.body with
    | none => exact retitled
    | some newBody => exact retitled.setBody now newBody
  have ranked := described.elim (described.setPriority now) cmd.priority
  have assigned := ranked.elim (ranked.setAssignees now) cmd.assignees
  cases asked : cmd.repoId with
  | none =>
      rw [asked] at result
      exact Except.ok.inj result ▸ assigned
  | some repoId =>
      rw [asked] at result
      exact assigned.setRepoId result

theorem overrideFiling_drafted {now : Timestamp} {handle : Option RepoId} {task : Task}
    {title body : String} {sync : SyncState} (drafted : task.Drafted title body sync) :
    (overrideFiling now handle task).Yields fun filed => filed.Drafted title body sync := by
  unfold overrideFiling
  split
  · exact drafted
  · exact (yields_any _).bind fun origin _ => (settled_yields _).mono fun _ => drafted.setFilingRepoId

theorem editTask_drafted {now : Timestamp} {cmd : UpdateTaskCmd} {before : Task}
    (unconfirmed : before.syncedBaseline = none) : (editTask now cmd before).Yields fun edited =>
      edited.1.Drafted (cmd.title.getD before.title) (cmd.body.getD before.body) before.sync := by
  refine (settled_yields _).bind fun edited editedEq => ?_
  have text := editFields_drafted ⟨rfl, rfl, rfl, unconfirmed⟩ editedEq
  refine (overrideFiling_drafted text).bind fun filed filedText => ?_
  have typed := filedText.elim (fun name => filedText.setIssueType now
    (name.map IssueType.ofString)) cmd.issueType
  refine (yields_any _).bind fun filing _ => ?_
  refine Program.Yields.bind ?_ fun recorded recordedText => recordedText
  unfold recordFiling
  split
  · exact (settled_yields _).mono fun _ => typed.setFilingRepoId
  · exact typed

theorem planUpdateMutations_drafts {now : Timestamp} {task : Task} {syncBefore : SyncState}
    (same : task.sync = syncBefore) (converted : Bool) :
    (planUpdateMutations now task syncBefore converted).Yields fun planned =>
      planned.2 = task ∧ ∀ mutation ∈ planned.1, mutation.updatesDraft = none := by
  unfold planUpdateMutations
  split
  · exact ⟨rfl, nofun⟩
  · split
    · refine (yields_any _).bind fun filingCanonical _ => ⟨rfl, fun mutation member => ?_⟩
      rw [if_neg (not_not_intro same), List.nil_append] at member
      rw [List.mem_singleton.mp member]
      rfl
    · exact ⟨rfl, nofun⟩

structure DraftPlan (cmd : UpdateTaskCmd) (task planned : Task) (entries : List OutboxEntry) : Prop
    where
  retouched : task.Retouched planned
  text : task.syncedBaseline = none → planned.draftText = cmd.redraft task.draftText
  entries : task.syncedBaseline = none → ∀ entry ∈ entries, entry.mutation.updatesDraft = none

/-- An edit fails and does nothing, or saves such a plan. -/
theorem runs_update {cmd : UpdateTaskCmd} {before after : Database}
    {result : Except ServiceError Task}
    (ran : (update cmd).Runs portMeaning before result after) :
    (after = before ∧ ∃ error, result = .error error) ∨ ∃ task planned entries instant,
      before.stored cmd.taskId = some task ∧ DraftPlan cmd task planned entries ∧
        before.saveAll instant [⟨some task, planned, .localEdit⟩] entries = .ok after := by
  rcases runs_quiet_cases (getTask_quiet _) ran with ⟨(task : Task), ranLoad, ran⟩ | failed
  swap
  · exact .inl failed
  rcases runs_quiet_cases (every_clock trivial) ran with ⟨now, _, ran⟩ | failed
  swap
  · exact .inl failed
  rcases runs_quiet_cases (editTask_quiet now cmd task) ran with
    ⟨⟨edited, filing⟩, ranEdit, ran⟩ | failed
  swap
  · exact .inl failed
  have retouched := (editTask_retouched now cmd task).runs ranEdit
  dsimp only at ran
  rcases runs_quiet_cases (planUpdateMutations_quiet ..) ran with
    ⟨⟨mutations, planned⟩, ranPlan, ran⟩ | failed
  swap
  · exact .inl failed
  have planRetouched := (planUpdateMutations_retouched ..).runs ranPlan
  rcases runs_quiet_cases (intoEntries_quiet ..) ran with ⟨entries, ranEntries, ran⟩ | failed
  swap
  · exact .inl failed
  obtain ⟨_, rfl⟩ := (intoEntries_yields _ _).runs ranEntries
  rcases runs_quiet_cases (railEntries_quiet ..) ran with ⟨rails, ranRails, ran⟩ | failed
  swap
  · exact .inl failed
  have railed := (railEntries_yields _ _).runs ranRails
  rcases runs_bind.mp ran with ⟨_, last, ranSave, ended⟩ | ⟨error, failed, resultEq⟩
  swap
  · exact .inl ⟨runs_query_error failed, error, resultEq⟩
  obtain ⟨instant, saved⟩ := runs_saveAll ranSave
  obtain ⟨_, rfl⟩ := ended
  refine .inr ⟨task, planned, _, instant, runs_getTask ranLoad, ⟨retouched.trans planRetouched,
    fun unconfirmed => ?_, fun unconfirmed entry member => ?_⟩, saved⟩
  all_goals
    have drafted := (editTask_drafted unconfirmed).runs ranEdit
    obtain ⟨same, still⟩ := (planUpdateMutations_drafts drafted.sync _).runs ranPlan
  · dsimp only at same
    rw [same, Task.draftText, drafted.title, drafted.body]
    rfl
  · rcases List.mem_append.mp member with planned | rail
    · exact still _ (List.mem_map_of_mem planned)
    · have rail := (railed entry rail).2
      cases mutation : entry.mutation <;> first
        | rfl
        | (rw [mutation] at rail; cases rail)

end TaskService

theorem Database.DraftUpdateWaits.earlier {draft : DraftRef} {instant : Timestamp}
    {writes : List TaskWrite} {entries : List OutboxEntry} {before after : Database}
    (still : ∀ entry ∈ entries, entry.mutation.updatesDraft = none)
    (saved : before.saveAll instant writes entries = .ok after)
    (waits : after.DraftUpdateWaits draft) : before.DraftUpdateWaits draft := by
  obtain ⟨id, entry, found, owner, updates, unapplied⟩ := waits
  obtain ⟨tasks, outbox, _, inserted, rfl⟩ := Database.saveAll_ok saved
  obtain ⟨added, rows, behind, _⟩ := insertEntries_added inserted
  obtain ⟨row, rowFound, rfl⟩ := Option.map_eq_some_iff.mp found
  have member : row ∈ outbox.rows := KeyedTable.Table.find_mem rowFound
  rw [rows] at member
  rcases List.mem_append.mp member with old | new
  · have same : row.entry.id = id := OutboxTable.entry_id found
    exact ⟨id, row.entry, same ▸ OutboxTable.entry_of_row old, owner, updates, unapplied⟩
  · rw [still _ (behind row new).1] at updates
    cases updates

def PortOp.unsent : PortOp → Prop
  | .provider _ | .store (.claimNextEligible _) => False
  | _ => True

theorem update_unsent (cmd : UpdateTaskCmd) : (TaskService.update cmd).Every PortOp.unsent := by
  have plans : Plans PortOp.unsent := by
    refine ⟨fun op reads => ?_, trivial, trivial⟩
    cases op <;> trivial
  exact TaskService.update_every plans (fun _ _ => trivial) cmd

section Edits

variable {draft : DraftRef} {text : String × String} {cmd : UpdateTaskCmd}
  {before after : DraftWorld} {result : Except ServiceError Task}

theorem runs_update_book (ran : (TaskService.update cmd).Runs (drafted draft) before result after) :
    after.2 = before.2 := by
  refine (update_unsent cmd).runs (fun before after : DraftWorld => after.2 = before.2)
    (fun _ => rfl) ?_ ?_ ran
  · intro first second third earlier later
    exact later.trans earlier
  · intro op unsent before answer after ran
    refine ran.2.trans ?_
    cases op with
    | store op => cases op <;> first | rfl | exact unsent.elim
    | provider => exact unsent.elim
    | _ => rfl

theorem runs_update_draft (keeps : KeepsDraft draft text before)
    (ran : (TaskService.update cmd).Runs (drafted draft) before result after) :
    ∃ next, (∃ task, after.1.stored draft.taskId = some task ∧ task.draftText = next ∧
        task.projectItemId.isSome = true ∧ task.syncedBaseline = none) ∧
      (before.1.DraftUpdateWaits draft → after.1.DraftUpdateWaits draft) ∧
      (next = text ∨ cmd.taskId = draft.taskId ∧ next = cmd.redraft text) ∧
      (result.isOk = true → cmd.taskId = draft.taskId → next = cmd.redraft text ∧
        (after.1.DraftUpdateWaits draft → before.1.DraftUpdateWaits draft)) := by
  obtain ⟨current, stored, shown, item, unconfirmed⟩ := keeps.stored
  rcases TaskService.runs_update (undrafted ran) with
    ⟨same, error, rfl⟩ | ⟨task, planned, entries, instant, found, plan, saved⟩
  · refine ⟨text, ⟨current, same ▸ stored, shown, item, unconfirmed⟩, ?_, .inl rfl, nofun⟩
    exact fun waits => same ▸ waits
  · have kept : before.1.DraftUpdateWaits draft → after.1.DraftUpdateWaits draft := by
      rintro ⟨id, entry, entryFound, rest⟩
      obtain ⟨tasks, outbox, _, inserted, afterEq⟩ := Database.saveAll_ok saved
      exact ⟨id, entry, afterEq ▸ Database.entry_insertEntries_kept inserted entryFound, rest⟩
    have taskId : planned.id = cmd.taskId :=
      plan.retouched.id.trans (Database.stored_id found)
    have written := Database.saveAll_single saved draft.taskId
    by_cases own : cmd.taskId = draft.taskId
    · rw [own, stored] at found
      cases found
      rw [if_pos (taskId.trans own).symm, taskId.trans own] at written
      obtain ⟨record, recordFound, rfl⟩ := Option.map_eq_some_iff.mp stored
      rw [recordFound] at written
      refine ⟨cmd.redraft text, ⟨_, congrArg (Option.map TaskRecord.load) written, ?_, ?_, ?_⟩,
        kept, .inr ⟨own, rfl⟩, fun _ _ => ⟨rfl, .earlier (plan.entries unconfirmed) saved⟩⟩
      · rw [← shown]
        exact plan.text unconfirmed
      · exact plan.retouched.projectItemId ▸ item
      · exact (TaskRecord.write_localEdit_baseline ..).trans unconfirmed
    · rw [if_neg fun same => own (taskId.symm.trans same.symm)] at written
      refine ⟨text, ⟨current, ?_, shown, item, unconfirmed⟩, kept, .inl rfl,
        fun _ same => (own same).elim⟩
      exact (congrArg (Option.map TaskRecord.load) written).trans stored

end Edits

/-- A mirror that is a draft on the board and was never confirmed. -/
structure Task.DraftMirror (item : String) (task : Task) : Prop where
  mirror : task.isMirror = true
  remote : task.remote = none
  item : task.projectItemId = some item
  unconfirmed : task.syncedBaseline = none

/-- What is stored of the draft was sent last, or an update of it is still to be applied. -/
def DraftCovered (draft : DraftRef) (world : DraftWorld) : Prop :=
  ∀ task, world.1.stored draft.taskId = some task →
    task.draftText = world.2.sent ∨ world.1.DraftUpdateWaits draft

/-- The edit is of another task, leaves the title and the body, or meets an update that is still
to be applied. -/
def UpdateTaskCmd.SparesDraft (draft : DraftRef) (cmd : UpdateTaskCmd) (database : Database) :
    Prop :=
  cmd.taskId = draft.taskId → database.DraftUpdateWaits draft ∨
    ∀ task, database.stored draft.taskId = some task → cmd.redraft task.draftText = task.draftText

/-- Edits one after the other, with drains between them that may break off anywhere. -/
inductive DraftRun (allowed : UpdateTaskCmd → Database → Prop) (draft : DraftRef)
    (start : DraftWorld) : DraftWorld → Prop
  | start : DraftRun allowed draft start start
  | updated {before after : DraftWorld} {result : Except ServiceError Task}
      (run : DraftRun allowed draft start before) (cmd : UpdateTaskCmd)
      (allows : allowed cmd before.1)
      (ran : (TaskService.update cmd).Runs (drafted draft) before result after) :
      DraftRun allowed draft start after
  | drained {before after : DraftWorld} {backoff : BackoffSchedule} {rounds : Nat}
      (run : DraftRun allowed draft start before)
      (ran : (OutboxDrainer.drainOnce backoff rounds).CutOff (drafted draft) before after) :
      DraftRun allowed draft start after

section Runs

variable {draft : DraftRef} {text : String × String} {start last : DraftWorld}

theorem KeepsDraft.covers {world : DraftWorld} (keeps : KeepsDraft draft text world) :
    DraftCovered draft world := by
  intro task stored
  obtain ⟨current, found, rfl, _⟩ := keeps.stored
  rw [stored] at found
  cases found
  exact keeps.covered

theorem KeepsDraft.spares_iff {database : Database} {book : DraftBook} {cmd : UpdateTaskCmd}
    (keeps : KeepsDraft draft text (database, book)) : cmd.SparesDraft draft database ↔
      (cmd.taskId = draft.taskId → database.DraftUpdateWaits draft ∨ cmd.redraft text = text) := by
  obtain ⟨current, found, rfl, _⟩ := keeps.stored
  refine forall_congr' fun own => or_congr_right ⟨fun all => all current found, ?_⟩
  intro same task stored
  rw [show database.stored draft.taskId = some current from found] at stored
  cases stored
  exact same

theorem KeepsDraft.updated {before after : DraftWorld} {cmd : UpdateTaskCmd}
    {result : Except ServiceError Task} (keeps : KeepsDraft draft text before)
    (spares : cmd.SparesDraft draft before.1)
    (ran : (TaskService.update cmd).Runs (drafted draft) before result after) :
    ∃ next, KeepsDraft draft next after := by
  obtain ⟨next, stored, waits, moved, _⟩ := runs_update_draft keeps ran
  refine ⟨next, stored, ?_⟩
  rw [runs_update_book ran]
  have kept : next = text → next = before.2.sent ∨ after.1.DraftUpdateWaits draft := by
    rintro rfl
    exact keeps.covered.imp_right waits
  rcases moved with same | ⟨own, asked⟩
  · exact kept same
  · rcases keeps.spares_iff.mp spares own with waiting | same
    · exact .inr (waits waiting)
    · exact kept (asked.trans same)

theorem DraftRun.keeps (run : DraftRun (UpdateTaskCmd.SparesDraft draft) draft start last)
    (keeps : KeepsDraft draft text start) : ∃ next, KeepsDraft draft next last := by
  induction run with
  | start => exact ⟨text, keeps⟩
  | updated run cmd allows ran ih =>
      obtain ⟨current, held⟩ := ih
      exact held.updated allows ran
  | drained run ran ih =>
      obtain ⟨current, held⟩ := ih
      exact ⟨current, (OutboxDrainer.drainOnce_survives _ _ held).cutOff held ran⟩

/-- While every edit spares the draft, what is stored was sent or waits. The next edit that goes
through keeps it so exactly if it spares the draft too. -/
theorem draft_edits_covered_iff {task : Task} (stored : start.1.stored draft.taskId = some task)
    (mirror : task.DraftMirror draft.item) (covered : DraftCovered draft start)
    (run : DraftRun (UpdateTaskCmd.SparesDraft draft) draft start last) :
    DraftCovered draft last ∧ ∀ cmd edited after,
      (TaskService.update cmd).Runs (drafted draft) last (.ok edited) after →
      (DraftCovered draft after ↔ cmd.SparesDraft draft last.1) := by
  have item : task.projectItemId.isSome = true := mirror.item ▸ rfl
  have begins : KeepsDraft draft task.draftText start :=
    ⟨⟨task, stored, rfl, item, mirror.unconfirmed⟩, covered task stored⟩
  obtain ⟨text, keeps⟩ := run.keeps begins
  refine ⟨keeps.covers, fun cmd edited after ran => ⟨fun still => ?_, fun spares => ?_⟩⟩
  · refine keeps.spares_iff.mpr fun own => ?_
    obtain ⟨next, ⟨copy, found, shown, _⟩, _, _, asked⟩ := runs_update_draft keeps ran
    obtain ⟨redrafted, earlier⟩ := asked rfl own
    rcases still copy found with sent | waits
    · rcases keeps.covered with same | waiting
      · right
        rw [← redrafted, ← shown, sent, runs_update_book ran, ← same]
      · exact .inl waiting
    · exact .inl (earlier waits)
  · obtain ⟨next, kept⟩ := keeps.updated spares ran
    exact kept.covers

end Runs

def boardProvider : Provider
  | .updateDraftIssue .. => .ok ()
  | op => draftProvider op

def boardDraft : DraftRef := ⟨⟨1⟩, "PVTI_1"⟩

def draftHandler : Handler ports (Scene × DraftBook) := fun op state =>
  let (answer, scene) := portHandler boardProvider ⟨1⟩ op state.1
  (answer, scene, state.2.note boardDraft op answer)

def draftWorld (state : Scene × DraftBook) : DraftWorld := (state.1.database, state.2)

theorem draftHandler_sound (op : PortOp) (state : Scene × DraftBook) :
    drafted boardDraft op (draftWorld state) (draftHandler op state).1
      (draftWorld (draftHandler op state).2) :=
  ⟨portHandler_sound boardProvider ⟨1⟩ op state.1, rfl⟩

def retitle (title : String) : UpdateTaskCmd := { taskId := ⟨1⟩, title := some title }

def afterEdit (cmd : UpdateTaskCmd) (state : Scene × DraftBook) : Scene × DraftBook :=
  ((TaskService.update cmd).exec draftHandler state).2

def afterDrain (state : Scene × DraftBook) : Scene × DraftBook :=
  ((OutboxDrainer.drainOnce .standard 3).advance draftHandler 40 state).2

theorem afterEdit_ran (cmd : UpdateTaskCmd) (state : Scene × DraftBook) :
    (TaskService.update cmd).Runs (drafted boardDraft) (draftWorld state)
      ((TaskService.update cmd).exec draftHandler state).1 (draftWorld (afterEdit cmd state)) :=
  @exec_runs _ _ _ _ _ (drafted boardDraft) _ draftWorld draftHandler_sound _ state

theorem afterDrain_ran (state : Scene × DraftBook) :
    (OutboxDrainer.drainOnce .standard 3).CutOff (drafted boardDraft) (draftWorld state)
      (draftWorld (afterDrain state)) := advance_cutOff draftHandler_sound 40 _ state

def mintedDraft : Scene × DraftBook := afterDrain (⟨queuedDraft, 0⟩, ⟨none, ("", "")⟩)

/-- The new title of a draft is stored, was not sent and does not wait to be sent. -/
theorem draft_edit_stays_local : ∃ task last,
    (draftWorld mintedDraft).1.stored boardDraft.taskId = some task ∧
      task.DraftMirror boardDraft.item ∧ DraftCovered boardDraft (draftWorld mintedDraft) ∧
      DraftRun (fun _ _ => True) boardDraft (draftWorld mintedDraft) last ∧
      ¬DraftCovered boardDraft last := by
  have run : DraftRun (fun _ _ => True) boardDraft (draftWorld mintedDraft) _ :=
    .updated .start (retitle "u") trivial (afterEdit_ran (retitle "u") mintedDraft)
  refine ⟨_, draftWorld (afterEdit (retitle "u") mintedDraft), rfl, ?_, ?_, run, fun covered => ?_⟩
  · exact ⟨by decide, by decide, by decide, by decide⟩
  · intro task stored
    cases stored
    exact .inl (by decide)
  · rcases covered _ rfl with sent | ⟨id, entry, found, _, updates, _⟩
    · exact absurd sent (by decide)
    · obtain ⟨row, rowFound, rfl⟩ := Option.map_eq_some_iff.mp found
      have none : ∀ row ∈ (afterEdit (retitle "u") mintedDraft).1.database.outbox.rows,
          row.entry.mutation.updatesDraft = none := by decide
      rw [none row (KeyedTable.Table.find_mem rowFound)] at updates
      cases updates

def queuedUpdate : Scene × DraftBook :=
  ((OutboxDrainer.enqueueMutation ⟨1⟩ (.updateDraftIssue "PVTI_1" (some "t") (some ""))).exec
    draftHandler mintedDraft).2

theorem draft_edits_covered_drained :
    DraftCovered boardDraft (draftWorld (afterDrain (afterEdit (retitle "u") queuedUpdate))) ∧
      (draftWorld (afterDrain (afterEdit (retitle "u") queuedUpdate))).2.sent = ("u", "") := by
  have spares : (retitle "u").SparesDraft boardDraft (draftWorld queuedUpdate).1 :=
    fun _ => .inl ⟨⟨2⟩, _, rfl, by decide, by decide, by decide⟩
  have run := DraftRun.drained (.updated .start (retitle "u") spares (afterEdit_ran _ queuedUpdate))
    (afterDrain_ran _)
  have mirror : ∃ task, (draftWorld queuedUpdate).1.stored boardDraft.taskId = some task ∧
      task.DraftMirror boardDraft.item := ⟨_, rfl, by decide, by decide, by decide, by decide⟩
  obtain ⟨task, stored, mirror⟩ := mirror
  refine ⟨(draft_edits_covered_iff stored mirror (fun _ _ => ?_) run).1, by decide⟩
  exact .inr ⟨⟨2⟩, _, rfl, by decide, by decide, by decide⟩

end RepoLink
