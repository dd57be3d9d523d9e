import RepoLink.Ports.Handler
import RepoLink.Store.OutboxFifo
import RepoLink.TaskService.UpdateCalls

/-!
The board column of a task through lifecycle verbs, edits and rollbacks by one writer. The option
of a card move is fixed when it is enqueued, so the last move has to follow the last flip of the
open/closed bit.
-/

namespace RepoLink

open Effects Program KeyedTable

def OutboxMutation.cardMove : OutboxMutation → Option String
  | .setProjectStatus _ _ _ optionId => some optionId
  | _ => none

def cardMoves (entries : List OutboxEntry) : List String :=
  entries.filterMap fun entry => entry.mutation.cardMove

theorem cardMoves_cons (entry : OutboxEntry) (entries : List OutboxEntry) :
    cardMoves (entry :: entries) = entry.mutation.cardMove.toList ++ cardMoves entries := by
  rw [cardMoves, List.filterMap_cons]
  cases entry.mutation.cardMove <;> rfl

theorem cardMoves_append (left right : List OutboxEntry) :
    cardMoves (left ++ right) = cardMoves left ++ cardMoves right := List.filterMap_append ..

def Database.LastMove (database : Database) (id : TaskId) (optionId : String) : Prop :=
  ∃ row ∈ database.outbox.rows, row.entry.taskId = id ∧
    row.entry.mutation.cardMove = some optionId ∧
    ∀ other ∈ database.outbox.rows, other.entry.taskId = id →
      other.entry.mutation.cardMove.isSome = true → other = row ∨
        (other.rowid < row.rowid ∧
          (other.entry.enqueuedAt ≤ row.entry.enqueuedAt → OutboxTable.precedes other row))

/-- The task is on the board of its workspace, and the board has a column for either bit. -/
structure Database.OnBoard (database : Database) (id : TaskId) (project : Project) : Prop where
  attached : ∃ task workspace, database.stored id = some task ∧ task.projectItemId.isSome = true ∧
    database.workspaces.find task.workspaceId = some workspace ∧
    workspace.projectId = some project.id
  board : database.projects.find project.id = some project
  field : project.statusFieldId.isSome = true
  columns : ∀ isOpen, (boardOptionForLifecycle project isOpen).isSome = true

inductive BoardOp where
  | complete
  | archive
  | reopen
  | update (cmd : UpdateTaskCmd)
  | rollback (version : Nat)

def BoardOp.program (id : TaskId) : BoardOp → TaskService.Action Task
  | .complete => TaskService.complete id
  | .archive => TaskService.archive id
  | .reopen => TaskService.reopen id
  | .update cmd => TaskService.update { cmd with taskId := id }
  | .rollback version => TaskService.rollback id version

/-- One writer at work on the task; `flipped` says whether the open/closed bit has changed. -/
inductive BoardRun (allowed : BoardOp → Database → Prop) (id : TaskId) (start : Database) :
    Bool → Database → Prop
  | start : BoardRun allowed id start false start
  | step {flipped : Bool} {before after : Database} {result : Except ServiceError Task}
      (run : BoardRun allowed id start flipped before) (op : BoardOp) (allows : allowed op before)
      (ran : (op.program id).Runs portMeaning before result after) :
      BoardRun allowed id start
        (flipped || (before.stored id).map Task.isOpen ≠ (after.stored id).map Task.isOpen) after

section Outbox

theorem suppressed_cardMove {outbox : OutboxTable} {entry : OutboxEntry}
    (suppressed : outbox.suppressed entry = true) : entry.mutation.cardMove = none := by
  unfold OutboxTable.suppressed at suppressed
  cases mutation : entry.mutation with
  | setProjectStatus =>
      rw [mutation] at suppressed
      simp [OutboxMutation.kind] at suppressed
  | _ => rfl

theorem precedes_of_rowid {older newer : OutboxRow} (rowid : older.rowid < newer.rowid)
    (stamped : older.entry.enqueuedAt ≤ newer.entry.enqueuedAt) :
    OutboxTable.precedes older newer := by
  simp only [OutboxTable.precedes, Bool.or_eq_true, Bool.and_eq_true, decide_eq_true_eq]
  rw [Timestamp.le_def] at stamped
  rw [Timestamp.lt_def]
  rcases Int.lt_or_eq_of_le stamped with before | same
  · exact .inl before
  · refine .inr ⟨?_, rowid⟩
    cases olderStamp : older.entry.enqueuedAt
    cases newerStamp : newer.entry.enqueuedAt
    rw [olderStamp, newerStamp] at same
    exact congrArg Timestamp.mk same

theorem insertEntries_added : ∀ {entries : List OutboxEntry} {before after : OutboxTable},
    Database.insertEntries entries before = .ok after →
    ∃ added, after.rows = before.rows ++ added ∧
      (∀ row ∈ added, row.entry ∈ entries ∧ ∀ old ∈ before.rows, old.rowid < row.rowid) ∧
      cardMoves (added.map OutboxRow.entry) = cardMoves entries := by
  intro entries
  induction entries with
  | nil =>
      intro before after inserted
      cases inserted
      exact ⟨[], (List.append_nil _).symm, fun _ member => absurd member List.not_mem_nil, rfl⟩
  | cons entry rest ih =>
      intro before after inserted
      obtain ⟨middle, first, inserted⟩ := Database.insertEntries_cons_ok inserted
      obtain ⟨added, rows, behind, moves⟩ := ih inserted
      unfold OutboxTable.insertOutboxInTx at first
      split at first
      · rename_i suppressed
        cases first
        refine ⟨added, rows, fun row member => ?_, ?_⟩
        · exact ⟨List.mem_cons_of_mem _ (behind row member).1, (behind row member).2⟩
        · rw [moves, cardMoves_cons, suppressed_cardMove suppressed]
          rfl
      · have inserted := OutboxTable.insertRow_rows first
        refine ⟨⟨before.nextRowid, entry⟩ :: added, ?_, ?_, ?_⟩
        · rw [rows, inserted, List.append_assoc]
          rfl
        · intro row member
          rcases List.mem_cons.mp member with rfl | member
          · exact ⟨List.mem_cons_self, fun old => OutboxTable.rowid_lt_nextRowid⟩
          · refine ⟨List.mem_cons_of_mem _ (behind row member).1, fun old stored => ?_⟩
            refine (behind row member).2 old ?_
            rw [inserted]
            exact List.mem_append_left _ stored
        · rw [List.map_cons, cardMoves_cons, cardMoves_cons, moves]

theorem insertEntries_lastMove {database : Database} {id : TaskId} {entries : List OutboxEntry}
    {optionId : String} {outbox : OutboxTable} {tasks : TaskTable}
    (inserted : Database.insertEntries entries database.outbox = .ok outbox)
    (owned : ∀ entry ∈ entries, entry.taskId = id) (moves : cardMoves entries = [optionId]) :
    Database.LastMove { database with tasks, outbox } id optionId := by
  obtain ⟨added, rows, behind, sameMoves⟩ := insertEntries_added inserted
  rw [moves, cardMoves, List.filterMap_map, List.filterMap_eq_cons_iff] at sameMoves
  obtain ⟨front, row, back, split, frontless, moved, backless⟩ := sameMoves
  have member : row ∈ added := by
    rw [split]
    exact List.mem_append_right _ List.mem_cons_self
  refine ⟨row, ?_, owned _ (behind row member).1, moved, ?_⟩
  · change row ∈ outbox.rows
    rw [rows]
    exact List.mem_append_right _ member
  · intro other otherMember _ otherMoves
    change other ∈ outbox.rows at otherMember
    rw [rows] at otherMember
    rcases List.mem_append.mp otherMember with old | new
    · have rowid := (behind row member).2 other old
      exact .inr ⟨rowid, precedes_of_rowid rowid⟩
    · -- the rest of the batch moves no card
      have still : ∀ list : List OutboxRow, (∀ x ∈ list, x.entry.mutation.cardMove = none) →
          other ∉ list := by
        intro list none inList
        rw [none other inList] at otherMoves
        cases otherMoves
      rw [split] at new
      rcases List.mem_append.mp new with inFront | inRest
      · exact (still front frontless inFront).elim
      · rcases List.mem_cons.mp inRest with same | inBack
        · exact .inl same
        · exact (still back (List.filterMap_eq_nil_iff.mp backless) inBack).elim

theorem insertEntries_sameMove {database : Database} {id : TaskId} {entries : List OutboxEntry}
    {optionId : String} {outbox : OutboxTable} {tasks : TaskTable}
    (inserted : Database.insertEntries entries database.outbox = .ok outbox)
    (moves : cardMoves entries = []) (last : database.LastMove id optionId) :
    Database.LastMove { database with tasks, outbox } id optionId := by
  obtain ⟨added, rows, _, sameMoves⟩ := insertEntries_added inserted
  rw [moves, cardMoves, List.filterMap_map, List.filterMap_eq_nil_iff] at sameMoves
  obtain ⟨row, member, task, moved, latest⟩ := last
  refine ⟨row, ?_, task, moved, ?_⟩
  · change row ∈ outbox.rows
    rw [rows]
    exact List.mem_append_left _ member
  · intro other otherMember otherTask otherMoves
    change other ∈ outbox.rows at otherMember
    rw [rows] at otherMember
    rcases List.mem_append.mp otherMember with old | new
    · exact latest other old otherTask otherMoves
    · have still : other.entry.mutation.cardMove = none := sameMoves other new
      rw [still] at otherMoves
      cases otherMoves

end Outbox

def Database.CardFollows (database : Database) (id : TaskId) (project : Project) : Prop :=
  ∃ task optionId, database.stored id = some task ∧
    boardOptionForLifecycle project task.isOpen = some optionId ∧ database.LastMove id optionId

structure CardPlan (project : Project) (task planned : Task) (entries : List OutboxEntry) : Prop
    where
  id : planned.id = task.id
  workspaceId : planned.workspaceId = task.workspaceId
  projectItemId : planned.projectItemId = task.projectItemId
  owned : ∀ entry ∈ entries, entry.taskId = task.id
  moves : (cardMoves entries = [] ∧ planned.isOpen = task.isOpen) ∨
    ∃ optionId, boardOptionForLifecycle project planned.isOpen = some optionId ∧
      cardMoves entries = [optionId]

structure BoardStep (id : TaskId) (project : Project) (before after : Database) : Prop where
  onBoard : after.OnBoard id project
  flips : (before.stored id).map Task.isOpen ≠ (after.stored id).map Task.isOpen →
    after.CardFollows id project
  keeps : before.CardFollows id project → after.CardFollows id project

theorem BoardStep.refl {id : TaskId} {project : Project} {database : Database}
    (board : database.OnBoard id project) : BoardStep id project database database :=
  ⟨board, fun flipped => absurd rfl flipped, fun follows => follows⟩

theorem TaskRecord.load_write_isOpen (instant : Timestamp) (source : SnapshotSource) (task : Task)
    (stored : Option TaskRecord) : (write instant source task stored).load.isOpen = task.isOpen := by
  cases stored <;> rfl

theorem TaskRecord.load_write_place (instant : Timestamp) (source : SnapshotSource) (task : Task)
    (stored : Option TaskRecord) :
    (write instant source task stored).load.workspaceId = task.workspaceId ∧
      (write instant source task stored).load.projectItemId = task.projectItemId := by
  cases stored <;> exact ⟨rfl, rfl⟩

/-- A save that follows such a plan is such a step. -/
theorem CardPlan.boardStep {project : Project} {id : TaskId} {task planned : Task}
    {entries : List OutboxEntry} {basis : Option Task} {source : SnapshotSource}
    {instant : Timestamp} {before after : Database} (plan : CardPlan project task planned entries)
    (board : before.OnBoard id project) (found : before.stored id = some task)
    (saved : before.saveAll instant [⟨basis, planned, source⟩] entries = .ok after) :
    BoardStep id project before after := by
  have taskId := Database.stored_id found
  have plannedId : planned.id = id := plan.id.trans taskId
  have record := Database.saveAll_single saved id
  rw [if_pos plannedId.symm] at record
  have stored : after.stored id = some (TaskRecord.write instant source planned
      (before.record planned.id)).load := by
    rw [Database.stored, record, Option.map_some]
  have bit := TaskRecord.load_write_isOpen instant source planned (before.record planned.id)
  obtain ⟨tasks, outbox, _, inserted, rfl⟩ := Database.saveAll_ok saved
  have owned : ∀ entry ∈ entries, entry.taskId = id := fun entry member =>
    (plan.owned entry member).trans taskId
  have follows : ∀ {optionId : String},
      boardOptionForLifecycle project planned.isOpen = some optionId →
      cardMoves entries = [optionId] →
      Database.CardFollows { before with tasks, outbox } id project := by
    intro optionId option moves
    exact ⟨_, optionId, stored, bit.symm ▸ option, insertEntries_lastMove inserted owned moves⟩
  constructor
  · obtain ⟨old, workspace, oldFound, item, workspaceFound, projectEq⟩ := board.attached
    rw [found] at oldFound
    cases oldFound
    obtain ⟨workspaceEq, itemEq⟩ :=
      TaskRecord.load_write_place instant source planned (before.record planned.id)
    refine { board with attached := ⟨_, workspace, stored, ?_, ?_, projectEq⟩ }
    · rw [itemEq, plan.projectItemId]
      exact item
    · rw [workspaceEq, plan.workspaceId]
      exact workspaceFound
  · intro flipped
    rw [found, stored, Option.map_some, Option.map_some, bit] at flipped
    rcases plan.moves with ⟨_, same⟩ | ⟨optionId, option, moves⟩
    · exact absurd (congrArg some same.symm) flipped
    · exact follows option moves
  · rintro ⟨old, oldOption, oldFound, optionEq, last⟩
    rw [found] at oldFound
    cases oldFound
    rcases plan.moves with ⟨noMoves, same⟩ | ⟨optionId, option, moves⟩
    · refine ⟨_, oldOption, stored, ?_, insertEntries_sameMove inserted noMoves last⟩
      rw [bit, same]
      exact optionEq
    · exact follows option moves

section Planning

namespace TaskService

theorem intoEntries_moves (taskId : TaskId) (mutations : List OutboxMutation) :
    (intoEntries taskId mutations).Yields fun entries =>
      (∀ entry ∈ entries, entry.taskId = taskId) ∧
        cardMoves entries = mutations.filterMap OutboxMutation.cardMove := by
  refine (intoEntries_yields taskId mutations).mono ?_
  rintro entries ⟨owned, rfl⟩
  refine ⟨owned, ?_⟩
  rw [List.filterMap_map]
  rfl

theorem railEntries_moves (before task : Task) : (railEntries before task).Yields fun entries =>
    (∀ entry ∈ entries, entry.taskId = task.id) ∧ cardMoves entries = [] := by
  refine (railEntries_yields before task).mono fun entries rails => ?_
  refine ⟨fun entry member => (rails entry member).1, List.filterMap_eq_nil_iff.mpr ?_⟩
  intro entry member
  have rail := (rails entry member).2
  cases mutation : entry.mutation <;> first
    | rfl
    | (rw [mutation] at rail; cases rail)

end TaskService

theorem planMutations_cardMove {project : Project} {task : Task} {optionId : String}
    (mirror : task.isMirror = true) (item : task.projectItemId.isSome = true)
    (field : project.statusFieldId.isSome = true)
    (option : boardOptionForLifecycle project task.isOpen = some optionId)
    (filingCanonical : Option String) (contentChanged : Bool) :
    (planMutations task (some project) filingCanonical contentChanged).filterMap
      OutboxMutation.cardMove = [optionId] := by
  obtain ⟨itemNodeId, itemEq⟩ := Option.isSome_iff_exists.mp item
  obtain ⟨fieldId, fieldEq⟩ := Option.isSome_iff_exists.mp field
  have status : setProjectStatusMutation project task =
      some (.setProjectStatus project.id.value itemNodeId fieldId optionId) := by
    rw [setProjectStatusMutation, itemEq, fieldEq, option]
    rfl
  unfold planMutations
  rw [mirror, itemEq, Bool.not_true, if_neg Bool.false_ne_true]
  dsimp only
  rw [status, List.filterMap_append]
  have content : ∀ {content : List OutboxMutation}, (∀ mutation ∈ content,
      mutation.cardMove = none) → content.filterMap OutboxMutation.cardMove = [] :=
    List.filterMap_eq_nil_iff.mpr
  rw [content]
  · rfl
  · intro mutation member
    split at member
    · split at member
      · rw [List.mem_singleton.mp member]
        rfl
      · cases member
    · split at member
      · rw [List.mem_singleton.mp member]
        rfl
      · cases member

namespace TaskService

theorem runs_planMirrorMutations {project : Project} {task planned : Task} {now : Timestamp}
    {contentChanged : Bool} {mutations : List OutboxMutation} {workspace : Workspace}
    {before after : Database} (mirror : task.isMirror = true)
    (item : task.projectItemId.isSome = true)
    (workspaceFound : before.workspaces.find task.workspaceId = some workspace)
    (projectEq : workspace.projectId = some project.id)
    (board : before.projects.find project.id = some project)
    (ran : (planMirrorMutations now task contentChanged).Runs portMeaning before
      (.ok (mutations, planned)) after) :
    planned = task ∧ ∃ filingCanonical,
      mutations = planMutations task (some project) filingCanonical contentChanged := by
  unfold planMirrorMutations at ran
  rw [mirror, Bool.not_true, if_neg Bool.false_ne_true] at ran
  obtain ⟨found, ranWorkspace, ran⟩ := runs_quiet_bind (query_quiet (.getWorkspace _) rfl) ran
  obtain ⟨_, foundEq⟩ := (runs_query_ok rfl).mp ranWorkspace
  change before.getWorkspace task.workspaceId = .ok found at foundEq
  rw [Database.getWorkspace, workspaceFound] at foundEq
  cases foundEq
  obtain ⟨read, ranProject, ran⟩ := runs_quiet_bind (projectForWorkspace_quiet _) ran
  rw [projectForWorkspace, projectEq] at ranProject
  obtain ⟨stored, ranStored, readEq⟩ :=
    runs_quiet_bind (query_quiet (.getProject _) rfl) ranProject
  obtain ⟨_, storedEq⟩ := (runs_query_ok rfl).mp ranStored
  change before.getProject project.id = .ok stored at storedEq
  rw [Database.getProject, board] at storedEq
  cases storedEq
  cases readEq.1
  obtain ⟨filed, ranFiled, ran⟩ := runs_quiet_bind (recordBoardFiling_quiet ..) ran
  have attached : task.projectItemId.isNone = false := by
    rw [Option.isNone_eq_false_iff]
    exact item
  unfold recordBoardFiling at ranFiled
  rw [attached, Bool.and_false, Bool.false_and, if_neg Bool.false_ne_true] at ranFiled
  cases ranFiled.1
  obtain ⟨filingCanonical, _, ran⟩ := runs_quiet_bind (filingCanonicalFor_quiet _) ran
  cases ran.1
  exact ⟨rfl, filingCanonical, rfl⟩

end TaskService

end Planning

/-- The operations that plan a card move whenever they change the bit: a rollback never does, and
a verb does so on a mirror only. -/
def BoardOp.Moves (id : TaskId) : BoardOp → Database → Prop
  | .complete, database | .archive, database =>
    ∀ task, database.stored id = some task → task.isMirror = true ∨ task.isOpen = false
  | .reopen, database =>
    ∀ task, database.stored id = some task → task.isMirror = true ∨ task.isOpen = true
  | .update _, _ => True
  | .rollback version, database => ∀ record snapshot, database.record id = some record →
    record.snapshots.get version = some snapshot → snapshot.lifecycle.isOpen = record.row.isOpen

section Steps

theorem SyncState.EditsTo.localOnly_iff {before after : SyncState} (edits : before.EditsTo after) :
    after = .localOnly ↔ before = .localOnly := by
  cases edits <;> simp

theorem Task.Edited.isMirror {before after : Task} (edited : before.Edited after) :
    after.isMirror = before.isMirror := by
  have same := edited.sync.localOnly_iff
  rw [Task.isMirror, Task.isMirror, Bool.eq_iff_iff, bne_iff_ne, bne_iff_ne]
  exact not_congr same

@[simp] theorem Task.setLifecycle_lifecycle (now : Timestamp) (lifecycle : Lifecycle) (task : Task) :
    (task.setLifecycle now lifecycle).lifecycle = lifecycle := by
  unfold setLifecycle
  split
  · rename_i same
    exact same
  · simp [touch]

namespace TaskService

variable {id : TaskId} {project : Project} {before after : Database} {result : Except ServiceError Task}

theorem planMirrorMutations_moves {task next planned : Task} {now : Timestamp}
    {contentChanged : Bool} {mutations : List OutboxMutation} (board : before.OnBoard id project)
    (found : before.stored id = some task) (retouched : task.Retouched next)
    (ran : (planMirrorMutations now next contentChanged).Runs portMeaning before
      (.ok (mutations, planned)) after) :
    planned = next ∧ (next.isMirror = false → mutations = []) ∧
      (next.isMirror = true → ∃ optionId,
        boardOptionForLifecycle project next.isOpen = some optionId ∧
        mutations.filterMap OutboxMutation.cardMove = [optionId]) := by
  cases mirror : next.isMirror with
  | false =>
      unfold planMirrorMutations at ran
      rw [mirror, Bool.not_false, if_pos rfl] at ran
      cases ran.1
      exact ⟨rfl, fun _ => rfl, nofun⟩
  | true =>
      obtain ⟨old, workspace, oldFound, item, workspaceFound, projectEq⟩ := board.attached
      rw [found] at oldFound
      cases oldFound
      rw [← retouched.projectItemId] at item
      rw [← retouched.workspaceId] at workspaceFound
      obtain ⟨rfl, filingCanonical, rfl⟩ :=
        runs_planMirrorMutations mirror item workspaceFound projectEq board.board ran
      obtain ⟨optionId, option⟩ := Option.isSome_iff_exists.mp (board.columns planned.isOpen)
      refine ⟨rfl, nofun, fun _ => ⟨optionId, option, ?_⟩⟩
      exact planMutations_cardMove mirror item board.field option filingCanonical contentChanged

theorem transitionMirror_boardStep {lifecycle : Lifecycle} {op : Timestamp → Task → Mutation}
    (sets : ∀ now task, op now task = (.ok (), task.setLifecycle now lifecycle))
    (board : before.OnBoard id project)
    (moves : ∀ task, before.stored id = some task →
      task.isMirror = true ∨ task.isOpen = lifecycle.isOpen)
    (ran : (transitionMirror id op).Runs portMeaning before result after) :
    BoardStep id project before after := by
  rcases runs_quiet_first (getTask_quiet id) ran with ⟨(task : Task), ranLoad, ran⟩ | rfl
  swap
  · exact .refl board
  have found := runs_getTask ranLoad
  rcases runs_quiet_first (every_clock trivial) ran with ⟨now, _, ran⟩ | rfl
  swap
  · exact .refl board
  rcases runs_quiet_first (settled_quiet _) ran with ⟨next, ranSet, ran⟩ | rfl
  swap
  · exact .refl board
  have set := (settled_yields _).runs ranSet
  rw [sets] at set
  cases set
  split at ran
  · rw [ran.2]
    exact .refl board
  have retouched := Task.Retouched.setLifecycle now lifecycle task
  rcases runs_quiet_first (planMirrorMutations_quiet ..) ran with ⟨⟨mutations, planned⟩, ranPlan, ran⟩ | rfl
  swap
  · exact .refl board
  obtain ⟨rfl, unmirrored, mirrored⟩ := planMirrorMutations_moves board found retouched ranPlan
  rcases runs_quiet_first (intoEntries_quiet ..) ran with ⟨entries, ranEntries, ran⟩ | rfl
  swap
  · exact .refl board
  obtain ⟨owned, entryMoves⟩ := (intoEntries_moves _ _).runs ranEntries
  have ends : ∀ _ : Unit, (done (task.setLifecycle now lifecycle) : Action Task).Every
      PortOp.quiet := fun _ => trivial
  rcases runs_saveAll_first ends ran with ⟨instant, saved⟩ | rfl
  swap
  · exact .refl board
  refine CardPlan.boardStep ?_ board found saved
  refine ⟨retouched.id, retouched.workspaceId, retouched.projectItemId, ?_, ?_⟩
  · exact fun entry member => (owned entry member).trans retouched.id
  · rw [entryMoves]
    cases mirror : task.isMirror with
    | true => exact .inr (mirrored (retouched.isMirror.trans mirror))
    | false =>
        rw [unmirrored (retouched.isMirror.trans mirror)]
        refine .inl ⟨rfl, ?_⟩
        have same := (moves task found).resolve_left (by rw [mirror]; nofun)
        rw [same, Task.isOpen, Task.setLifecycle_lifecycle]

theorem planUpdateMutations_moves {task edited planned : Task} {now : Timestamp}
    {syncBefore : SyncState} {converted : Bool} {mutations : List OutboxMutation}
    (board : before.OnBoard id project) (found : before.stored id = some task)
    (retouched : task.Retouched edited)
    (ran : (planUpdateMutations now edited syncBefore converted).Runs portMeaning before
      (.ok (mutations, planned)) after) :
    planned = edited ∧ (mutations.filterMap OutboxMutation.cardMove = [] ∨ ∃ optionId,
      boardOptionForLifecycle project edited.isOpen = some optionId ∧
      mutations.filterMap OutboxMutation.cardMove = [optionId]) := by
  unfold planUpdateMutations at ran
  split at ran
  · cases ran.1
    exact ⟨rfl, .inl rfl⟩
  · rename_i mirror
    split at ran
    · obtain ⟨filingCanonical, _, ran⟩ := runs_quiet_bind (filingCanonicalFor_quiet edited) ran
      cases ran.1
      refine ⟨rfl, .inl ?_⟩
      split <;> rfl
    · split at ran
      · cases ran.1
        exact ⟨rfl, .inl rfl⟩
      · obtain ⟨same, _, moves⟩ := planMirrorMutations_moves board found retouched ran
        exact ⟨same, .inr (moves (by simpa using mirror))⟩

theorem update_boardStep {cmd : UpdateTaskCmd} (taskId : cmd.taskId = id)
    (board : before.OnBoard id project)
    (ran : (update cmd).Runs portMeaning before result after) :
    BoardStep id project before after := by
  subst taskId
  rcases runs_quiet_first (getTask_quiet _) ran with ⟨(task : Task), ranLoad, ran⟩ | rfl
  swap
  · exact .refl board
  have found := runs_getTask ranLoad
  rcases runs_quiet_first (every_clock trivial) ran with ⟨now, _, ran⟩ | rfl
  swap
  · exact .refl board
  rcases runs_quiet_first (editTask_quiet now cmd task) ran with ⟨⟨edited, filing⟩, ranEdit, ran⟩ | rfl
  swap
  · exact .refl board
  have retouched := (editTask_retouched now cmd task).runs ranEdit
  have lifecycle := (editTask_lifecycle now cmd task).runs ranEdit
  dsimp only at ran
  rcases runs_quiet_first (planUpdateMutations_quiet ..) ran with
    ⟨⟨mutations, planned⟩, ranPlan, ranSave⟩ | rfl
  swap
  · exact .refl board
  obtain ⟨rfl, moves⟩ := planUpdateMutations_moves board found retouched ranPlan
  rcases runs_quiet_first (intoEntries_quiet ..) ranSave with ⟨entries, ranEntries, ran⟩ | rfl
  swap
  · exact .refl board
  obtain ⟨owned, entryMoves⟩ := (intoEntries_moves _ _).runs ranEntries
  rcases runs_quiet_first (railEntries_quiet ..) ran with ⟨rails, ranRails, ran⟩ | rfl
  swap
  · exact .refl board
  obtain ⟨railsOwned, railMoves⟩ := (railEntries_moves _ _).runs ranRails
  have ends : ∀ _ : Unit, (done planned : Action Task).Every PortOp.quiet := fun _ => trivial
  rcases runs_saveAll_first ends ran with ⟨instant, saved⟩ | rfl
  swap
  · exact .refl board
  refine CardPlan.boardStep ?_ board found saved
  refine ⟨retouched.id, retouched.workspaceId, retouched.projectItemId, ?_, ?_⟩
  · intro entry member
    refine Eq.trans ?_ retouched.id
    exact (List.mem_append.mp member).elim (owned entry) (railsOwned entry)
  · rw [cardMoves_append, railMoves, List.append_nil, entryMoves]
    exact moves.imp_left fun none => ⟨none, congrArg Lifecycle.isOpen lifecycle⟩

@[simp] theorem restoreVersion_lifecycle (now : Timestamp) (snapshot : TaskSnapshot) (task : Task) :
    (restoreVersion now snapshot task).lifecycle = snapshot.lifecycle := by
  unfold restoreVersion
  rw [Task.reconcileDirtyAgainstBaseline_lifecycle]
  dsimp only
  split <;> simp

theorem rollback_boardStep {version : Nat} (board : before.OnBoard id project)
    (sameBit : ∀ record snapshot, before.record id = some record →
      record.snapshots.get version = some snapshot → snapshot.lifecycle.isOpen = record.row.isOpen)
    (ran : (rollback id version).Runs portMeaning before result after) :
    BoardStep id project before after := by
  rcases runs_quiet_first (getTask_quiet id) ran with ⟨(task : Task), ranLoad, ran⟩ | rfl
  swap
  · exact .refl board
  have found := runs_getTask ranLoad
  rcases runs_quiet_first (getSnapshot_quiet ..) ran with
    ⟨(snapshot : TaskSnapshot), ranSnapshot, ran⟩ | rfl
  swap
  · exact .refl board
  rcases runs_quiet_first (every_clock trivial) ran with ⟨now, _, ran⟩ | rfl
  swap
  · exact .refl board
  rcases runs_quiet_first (railEntries_quiet ..) ran with ⟨rails, ranRails, ran⟩ | rfl
  swap
  · exact .refl board
  obtain ⟨owned, moves⟩ := (railEntries_moves _ _).runs ranRails
  have ends : ∀ _ : Unit, (done (restoreVersion now snapshot task) : Action Task).Every
      PortOp.quiet := fun _ => trivial
  rcases runs_saveAll_first ends ran with ⟨instant, saved⟩ | rfl
  swap
  · exact .refl board
  obtain ⟨idEq, workspaceEq, itemEq⟩ := restoreVersion_place now snapshot task
  refine CardPlan.boardStep ⟨idEq, workspaceEq, itemEq, ?_, .inl ⟨moves, ?_⟩⟩ board found saved
  · exact fun entry member => (owned entry member).trans idEq
  · obtain ⟨record, recordFound, rfl⟩ := Option.map_eq_some_iff.mp found
    obtain ⟨stored, storedFound, versionFound⟩ := runs_getSnapshot ranSnapshot
    have idEq : record.load.id = id := Database.record_id recordFound
    rw [idEq, recordFound] at storedFound
    cases storedFound
    rw [Task.isOpen, restoreVersion_lifecycle]
    exact sameBit record snapshot recordFound versionFound

end TaskService

theorem BoardOp.boardStep {op : BoardOp} {id : TaskId} {project : Project}
    {before after : Database} {result : Except ServiceError Task}
    (board : before.OnBoard id project) (moves : op.Moves id before)
    (ran : (op.program id).Runs portMeaning before result after) :
    BoardStep id project before after := by
  cases op with
  | complete =>
      have sets : ∀ now task, Task.complete now task = (.ok (), task.setLifecycle now .completed) :=
        fun _ _ => rfl
      exact TaskService.transitionMirror_boardStep sets board moves ran
  | archive =>
      have sets : ∀ now task, Task.archive now task = (.ok (), task.setLifecycle now .notPlanned) :=
        fun _ _ => rfl
      exact TaskService.transitionMirror_boardStep sets board moves ran
  | reopen =>
      have sets : ∀ now task, Task.reopen now task = (.ok (), task.setLifecycle now .reopened) :=
        fun _ _ => rfl
      exact TaskService.transitionMirror_boardStep sets board moves ran
  | update cmd => exact TaskService.update_boardStep rfl board ran
  | rollback version => exact TaskService.rollback_boardStep board moves ran

end Steps

theorem BoardRun.tracks {id : TaskId} {project : Project} {start last : Database} {flipped : Bool}
    (board : start.OnBoard id project)
    (run : BoardRun (fun op => op.Moves id) id start flipped last) :
    last.OnBoard id project ∧ (flipped = true → last.CardFollows id project) := by
  induction run with
  | start => exact ⟨board, nofun⟩
  | step run op moves ran ih =>
      have step := op.boardStep ih.1 moves ran
      refine ⟨step.onBoard, fun flips => ?_⟩
      rcases (Bool.or_eq_true _ _).mp flips with earlier | now
      · exact step.keeps (ih.2 earlier)
      · exact step.flips (of_decide_eq_true now)

/-- In a run whose rollbacks keep the bit, the last card move is to the column of the bit once the
bit has changed. -/
theorem card_follows_lifecycle {id : TaskId} {project : Project} {start last : Database}
    (board : start.OnBoard id project)
    (run : BoardRun (fun op => op.Moves id) id start true last) : last.CardFollows id project :=
  (run.tracks board).2 rfl

def columnBoard : Project :=
  ⟨⟨"PVT_1"⟩, "board", [⟨"F_1", "Status", .status, [⟨"O_1", "Todo", 0⟩, ⟨"O_2", "Done", 1⟩]⟩],
    [⟨true, "O_1"⟩, ⟨false, "O_2"⟩], []⟩

def cardedTask : Task where
  id := ⟨1⟩
  workspaceId := ⟨1⟩
  repoId := some ⟨21⟩
  filingRepoId := some ⟨11⟩
  title := "t"
  body := ""
  lifecycle := .open
  sync := .synced
  priority := .p3
  issueType := none
  issueTypePending := false
  assignees := []
  remote := some ⟨"github", "7", none⟩
  relations := []
  comments := []
  projectItemId := some "PVTI_1"
  projectStatusOptionId := some "O_1"
  syncedAt := none
  hash := "aaa"
  createdAt := .epoch
  updatedAt := .epoch
  syncedBaseline := none

def cardedBoard : Database := { oneBoard with
  tasks := ⟨[.write .epoch .pull cardedTask none], by decide⟩
  projects := ⟨[columnBoard], by decide⟩ }

def completedCard : Database := after obligingProvider ⟨1⟩ (TaskService.complete ⟨1⟩) cardedBoard
def reopenedCard : Database := after obligingProvider ⟨2⟩ (TaskService.rollback ⟨1⟩ 1) completedCard

theorem cardedBoard_onBoard : cardedBoard.OnBoard ⟨1⟩ columnBoard where
  attached := ⟨_, _, rfl, rfl, rfl, rfl⟩
  board := rfl
  field := rfl
  columns isOpen := by cases isOpen <;> rfl

theorem completedCard_run {allowed : BoardOp → Database → Prop}
    (allows : allowed .complete cardedBoard) : BoardRun allowed ⟨1⟩ cardedBoard true completedCard := by
  have ran := runs_after obligingProvider ⟨1⟩ (TaskService.complete ⟨1⟩) cardedBoard
  have run := BoardRun.step .start .complete allows ran
  have flips : (false || decide ((cardedBoard.stored ⟨1⟩).map Task.isOpen ≠
      (completedCard.stored ⟨1⟩).map Task.isOpen)) = true := by decide
  exact flips ▸ run

/-- The rollback reopens the task and leaves its card bound for the closed column. -/
theorem rollback_leaves_card_behind : ∃ last, cardedBoard.OnBoard ⟨1⟩ columnBoard ∧
    (cardedBoard.stored ⟨1⟩).map Task.isMirror = some true ∧
    BoardRun (fun _ _ => True) ⟨1⟩ cardedBoard true last ∧
    (last.stored ⟨1⟩).map Task.isOpen = some true ∧ ¬last.CardFollows ⟨1⟩ columnBoard := by
  refine ⟨reopenedCard, cardedBoard_onBoard, by decide, ?_, by decide, ?_⟩
  · have ran := runs_after obligingProvider ⟨2⟩ (TaskService.rollback ⟨1⟩ 1) completedCard
    exact .step (completedCard_run trivial) (.rollback 1) trivial ran
  · rintro ⟨task, optionId, stored, option, row, member, _, moved, _⟩
    have opened : task.isOpen = true := by
      have bit : (reopenedCard.stored ⟨1⟩).map Task.isOpen = some true := by decide
      rw [stored] at bit
      exact Option.some.inj bit
    rw [opened] at option
    cases option
    have closing : ∀ row ∈ reopenedCard.outbox.rows,
        row.entry.mutation.cardMove ≠ some "O_1" := by decide
    exact closing row member moved

theorem card_follows_lifecycle_completed : completedCard.CardFollows ⟨1⟩ columnBoard := by
  refine card_follows_lifecycle cardedBoard_onBoard (completedCard_run ?_)
  intro task stored
  have mirror : (cardedBoard.stored ⟨1⟩).map Task.isMirror = some true := by decide
  rw [stored] at mirror
  exact .inl (Option.some.inj mirror)

end RepoLink
