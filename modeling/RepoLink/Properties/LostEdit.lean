import RepoLink.Library.RelyGuarantee
import RepoLink.Ports.Handler
import RepoLink.Sync.DrainCalls
import RepoLink.Sync.Service
import RepoLink.TaskService.Edits

/-!
The drainer's `UpdateRemote` beside edits of the same task. The drainer reads the task, calls the
remote and saves the whole row that it read; edits commit in between. An edit survives the save
exactly when the fields stored at the save are those that the drainer had read.
-/

namespace RepoLink

open Effects Program KeyedTable

structure UserFields where
  title : String
  body : String
  assignees : List String
  lifecycle : Lifecycle
  priority : Priority
  issueType : Option IssueType
  relations : List TaskRelation
deriving DecidableEq, Repr

def Task.userFields (task : Task) : UserFields :=
  ⟨task.title, task.body, task.assignees, task.lifecycle, task.priority, task.issueType,
    task.relations⟩

def Database.userFields (id : TaskId) (database : Database) : Option UserFields :=
  (database.stored id).map Task.userFields

theorem TaskRecord.load_write_userFields {instant : Timestamp} {source : SnapshotSource}
    {stored : Option TaskRecord} {task : Task} {record : TaskRecord}
    (same : task.userFields = record.load.userFields) :
    (TaskRecord.write instant source task stored).load.userFields = record.load.userFields := by
  obtain ⟨_, _, _, _, _, title, body, lifecycle, assignees, priority, issueType⟩ :=
    TaskRecord.write_row_columns instant source task stored
  have relations : (TaskRecord.write instant source task stored).relations = task.relations := rfl
  simp only [Task.userFields, TaskRecord.load, UserFields.mk.injEq] at same ⊢
  obtain ⟨sameTitle, sameBody, sameAssignees, sameLifecycle, samePriority, sameType, sameRelations⟩ :=
    same
  refine ⟨title.trans sameTitle, body.trans sameBody, assignees.trans sameAssignees,
    lifecycle.trans sameLifecycle, priority.trans samePriority, ?_, ?_⟩
  · rw [issueType, sameType]
    cases record.row.issueType <;> simp [IssueType.stored_stored]
  · rw [relations, sameRelations]
    exact List.Pairwise.insertionSort_eq (List.pairwise_insertionSort _ _)

abbrev EditPool := Pool ports Database Empty Unit

inductive StartsEdit : Database → Proc ports Empty Unit → Prop
  | edit {database : Database} {program : Service ServiceError Task}
      (edit : TaskService.Edit program) : StartsEdit database ⟨(), program.detached⟩

def editRules : Discipline ports Database Unit where
  meaning _ := portMeaning
  inv _ := True
  rely _ _ _ := True
  guarantee _ _ _ := True
  must _ _ _ := True

abbrev EditRun : EditPool → EditPool → Prop :=
  Pool.Run editRules (fun _ _ => True) StartsEdit

structure Moment where
  op : PortOp
  before : Database
  after : Database

def Moment.saves (moment : Moment) : Prop :=
  ∃ writes entries, moment.op = .store (.saveAll writes entries)

/-- The edits beside the drainer, and the calls that the drainer has made. -/
structure Beside where
  edits : EditPool
  calls : List Moment

def amidEdits : Semantics ports Beside := fun op start answer last =>
  ∃ pool database, EditRun start.edits pool ∧ portMeaning op pool.shared answer database ∧
    last = ⟨{ pool with shared := database }, start.calls ++ [⟨op, pool.shared, database⟩]⟩

/-- What is committed when the drainer saves is still there after its save. -/
def EditsSurvive (id : TaskId) (calls : List Moment) : Prop :=
  ∀ save ∈ calls, save.saves → save.after.userFields id = save.before.userFields id

/-- The fields stored when the drainer saves are those stored when it read the task. -/
def UnchangedSinceRead (id : TaskId) (calls : List Moment) : Prop :=
  ∀ read ∈ calls, read.op = .store (.getTask id) → ∀ save ∈ calls, save.saves →
    save.before.userFields id = read.before.userFields id

def PortOp.aside : PortOp → Prop
  | .store _ => False
  | _ => True

theorem amid_aside {ε α : Type} {program : Service ε α} (aside : program.Every PortOp.aside)
    {start last : Beside} {result : Except ε α} (ran : program.Runs amidEdits start result last) :
    ∃ more, last.calls = start.calls ++ more ∧ ∀ moment ∈ more, moment.op.aside := by
  refine aside.runs (fun first second : Beside => ∃ more, second.calls = first.calls ++ more ∧
    ∀ moment ∈ more, moment.op.aside) ?_ ?_ ?_ ran
  · exact fun state => ⟨[], (List.append_nil _).symm, fun _ member => (List.not_mem_nil member).elim⟩
  · rintro first second third ⟨more, eq, each⟩ ⟨later, laterEq, laterEach⟩
    refine ⟨more ++ later, by rw [laterEq, eq, List.append_assoc], ?_⟩
    exact fun moment member => (List.mem_append.mp member).elim (each moment) (laterEach moment)
  · rintro op allowed first answer second ⟨pool, database, _, _, rfl⟩
    exact ⟨_, rfl, fun moment member => List.mem_singleton.mp member ▸ allowed⟩

theorem amid_query {ε : Type} [OfPortError ε] {op : StoreOp} {start last : Beside}
    {value : op.Answer}
    (ran : (query op : Service ε op.Answer).Runs amidEdits start (.ok value) last) :
    ∃ moment : Moment, moment.op = .store op ∧ last.calls = start.calls ++ [moment] ∧
      ∃ instant, op.perform instant moment.before = (.ok value, moment.after) := by
  obtain ⟨answer, middle, ⟨pool, database, _, performed, rfl⟩, rest⟩ := ran
  cases answer with
  | error error => cases rest.1
  | ok answered =>
      obtain ⟨valueEq, rfl⟩ := rest
      cases valueEq
      refine ⟨_, rfl, rfl, ?_⟩
      rcases performed with done | ⟨_, failed, _⟩
      · exact done
      · cases failed

theorem amid_query_error {ε : Type} [OfPortError ε] {op : StoreOp} {start last : Beside} {error : ε}
    (ran : (query op : Service ε op.Answer).Runs amidEdits start (.error error) last) :
    ∃ moment : Moment, moment.op = .store op ∧ last.calls = start.calls ++ [moment] ∧
      moment.after = moment.before := by
  obtain ⟨answer, middle, ⟨pool, database, _, performed, rfl⟩, rest⟩ := ran
  cases answer with
  | ok value => cases rest.1
  | error failure =>
      obtain ⟨_, rfl⟩ := rest
      refine ⟨_, rfl, rfl, ?_⟩
      rcases performed with ⟨instant, failed⟩ | ⟨_, _, same⟩
      · exact StoreOp.perform_error failed
      · exact same

theorem confirmed_userFields {now : Timestamp} {source : SnapshotSource} {patch : MirrorPatch}
    {task confirmed : Task}
    (confirms : (task.confirmSyncedFields now source patch).attempt = .ok confirmed) :
    confirmed.id = task.id ∧ confirmed.userFields = task.userFields := by
  obtain ⟨_, _, _, rfl⟩ := Task.confirmSyncedFields_frame confirms
  exact ⟨rfl, rfl⟩

theorem Moment.aside_not_saves {moment : Moment} (aside : moment.op.aside) : ¬moment.saves := by
  rintro ⟨writes, entries, opEq⟩
  rw [opEq] at aside
  exact aside

theorem Moment.read_not_saves {moment : Moment} {id : TaskId}
    (reads : moment.op = .store (.getTask id)) : ¬moment.saves := by
  rintro ⟨writes, entries, opEq⟩
  rw [reads] at opEq
  cases opEq

theorem sendUpdate_aside (update : Option RemoteTaskUpdate) :
    (OutboxDrainer.sendUpdate update).Every PortOp.aside := by
  unfold OutboxDrainer.sendUpdate
  split
  · trivial
  · refine every_bind (every_callPort trivial) fun answer => ?_
    split
    · trivial
    · split <;> trivial

theorem settled_aside (result : Except DomainError Task) :
    (settled result : Service SyncError Task).Every PortOp.aside := by
  cases result <;> trivial

theorem runs_settled_amid {result : Except DomainError Task} {start last : Beside} {task : Task}
    (ran : (settled result : Service SyncError Task).Runs amidEdits start (.ok task) last) :
    result = .ok task := (settled_yields result).runs ran

inductive ApplyCalls (id : TaskId) : Except SyncError ApplyDisposition → List Moment → Prop
  | unsaved {result : Except SyncError ApplyDisposition} {calls : List Moment}
      (none : ∀ call ∈ calls, ¬call.saves) : ApplyCalls id result calls
  | failed {error : SyncError} {calls : List Moment}
      (inert : ∀ call ∈ calls, call.saves → call.after = call.before) :
      ApplyCalls id (.error error) calls
  | saved {read save : Moment} {aside : List Moment} {disposition : ApplyDisposition}
      (reads : read.op = .store (.getTask id)) (between : ∀ call ∈ aside, call.op.aside)
      (saves : save.saves) (restored : save.after.userFields id = read.before.userFields id) :
      ApplyCalls id (.ok disposition) (read :: aside ++ [save])

theorem confirmed_save_restores {id : TaskId} {instant now : Timestamp} {task confirmed : Task}
    {patch : MirrorPatch} {read before after : Database}
    (loaded : read.stored id = some task)
    (confirms : (task.confirmSyncedFields now .push patch).attempt = .ok confirmed)
    (saved : before.saveAll instant [⟨some task, confirmed, .push⟩] [] = .ok after) :
    after.userFields id = read.userFields id := by
  obtain ⟨record, found, rfl⟩ := Option.map_eq_some_iff.mp loaded
  obtain ⟨idEq, fieldsEq⟩ := confirmed_userFields confirms
  have taskId : confirmed.id = id := idEq.trans (Database.record_id found)
  have stored := Database.saveAll_single saved id
  rw [if_pos taskId.symm] at stored
  unfold Database.userFields Database.stored
  rw [stored, found]
  exact congrArg some (TaskRecord.load_write_userFields fieldsEq)

structure HasRead (id : TaskId) (task : Task) (read : Moment) (aside : List Moment) : Prop where
  reads : read.op = .store (.getTask id)
  loaded : read.before.stored id = some task
  between : ∀ call ∈ aside, call.op.aside

theorem HasRead.unsaved {id : TaskId} {task : Task} {read : Moment} {aside : List Moment}
    (hasRead : HasRead id task read aside) {result : Except SyncError ApplyDisposition} :
    ApplyCalls id result (read :: aside) := by
  refine .unsaved fun call member => ?_
  rcases List.mem_cons.mp member with rfl | inAside
  · exact Moment.read_not_saves hasRead.reads
  · exact Moment.aside_not_saves (hasRead.between call inAside)

theorem HasRead.aside_bind {α : Type} {id : TaskId} {task : Task} {read : Moment}
    {aside : List Moment} (hasRead : HasRead id task read aside)
    {program : Service SyncError α} {next : α → Service SyncError ApplyDisposition}
    (each : program.Every PortOp.aside) {start last : Beside}
    {result : Except SyncError ApplyDisposition} (startEq : start.calls = read :: aside)
    (ran : (program.bind next).Runs amidEdits start result last) :
    (∃ value middle more, program.Runs amidEdits start (.ok value) middle ∧
        HasRead id task read more ∧ middle.calls = read :: more ∧
        (next value).Runs amidEdits middle result last) ∨ ApplyCalls id result last.calls := by
  have longer : ∀ {more : List Moment}, (∀ call ∈ more, call.op.aside) →
      HasRead id task read (aside ++ more) := fun moreAside =>
    ⟨hasRead.reads, hasRead.loaded, fun call member =>
      (List.mem_append.mp member).elim (hasRead.between call) (moreAside call)⟩
  rcases runs_bind.mp ran with ⟨value, middle, first, rest⟩ | ⟨error, failed, _⟩
  · obtain ⟨more, callsEq, moreAside⟩ := amid_aside each first
    rw [startEq, List.cons_append] at callsEq
    exact .inl ⟨value, middle, _, first, longer moreAside, callsEq, rest⟩
  · obtain ⟨more, callsEq, moreAside⟩ := amid_aside each failed
    rw [startEq, List.cons_append] at callsEq
    exact .inr (callsEq ▸ (longer moreAside).unsaved)

theorem applyUpdateRemote_calls {id : TaskId} {canonicalRepo remoteId : String}
    {start : EditPool} {result : Except SyncError ApplyDisposition} {last : Beside}
    (ran : (OutboxDrainer.applyUpdateRemote id canonicalRepo remoteId).Runs amidEdits ⟨start, []⟩
      result last) : ApplyCalls id result last.calls := by
  rcases runs_bind.mp ran with ⟨task, atRead, loading, rest⟩ | ⟨error, failed, _⟩
  swap
  · obtain ⟨read, reads, callsEq, _⟩ := amid_query_error failed
    refine .unsaved fun call member => @Moment.read_not_saves _ id ?_
    rw [callsEq] at member
    exact List.mem_singleton.mp member ▸ reads
  obtain ⟨read, reads, readEq, instant, performed⟩ := amid_query loading
  have hasRead : HasRead id task read [] :=
    ⟨reads, Database.getTask_ok (congrArg Prod.fst performed), fun _ member =>
      (List.not_mem_nil member).elim⟩
  split at rest
  · obtain ⟨_, rfl⟩ := rest
    exact readEq ▸ hasRead.unsaved
  rcases hasRead.aside_bind (sendUpdate_aside _) readEq rest with
    ⟨early, sent, sendingCalls, _, hasSent, sentEq, rest⟩ | ended
  swap
  · exact ended
  cases early with
  | some disposition =>
      obtain ⟨_, rfl⟩ := rest
      exact sentEq ▸ hasSent.unsaved
  | none =>
      rcases hasSent.aside_bind (every_clock trivial) sentEq rest with
        ⟨now, clocked, clockCalls, _, hasClocked, clockedEq, rest⟩ | ended
      swap
      · exact ended
      rcases hasClocked.aside_bind (settled_aside _) clockedEq rest with
        ⟨confirmed, atSave, aside, settling, hasSettled, atSaveEq, rest⟩ | ended
      swap
      · exact ended
      have confirms := runs_settled_amid settling
      rcases runs_bind.mp rest with ⟨_, saved, saving, rest⟩ | ⟨error, failed, rfl⟩
      · obtain ⟨rfl, rfl⟩ := rest
        obtain ⟨save, saves, savedEq, instant, performed⟩ := amid_query saving
        rw [savedEq, atSaveEq]
        exact .saved hasSettled.reads hasSettled.between ⟨_, _, saves⟩
          (confirmed_save_restores hasSettled.loaded confirms
            (StoreOp.perform_saveAll_ok performed))
      · obtain ⟨save, saves, savedEq, inert⟩ := amid_query_error failed
        refine .failed fun call member saving => ?_
        rw [savedEq, atSaveEq] at member
        rcases List.mem_append.mp member with earlier | isSave
        · cases @HasRead.unsaved id task read aside hasSettled (.error error) with
          | unsaved none => exact absurd saving (none call earlier)
          | failed inert => exact inert call earlier saving
        · exact List.mem_singleton.mp isSave ▸ inert

/-- An apply amid edits: no committed edit is overwritten exactly when the fields that are stored
at its save are those that it read. An apply that fails overwrites nothing. -/
theorem drained_update_keeps_edits_iff {id : TaskId} {canonicalRepo remoteId : String}
    {start : EditPool} {result : Except SyncError ApplyDisposition} {last : Beside}
    (ran : (OutboxDrainer.applyUpdateRemote id canonicalRepo remoteId).Runs amidEdits ⟨start, []⟩
      result last) :
    (result.isOk = false → EditsSurvive id last.calls) ∧
      (result.isOk = true → (EditsSurvive id last.calls ↔ UnchangedSinceRead id last.calls)) := by
  have calls := applyUpdateRemote_calls ran
  generalize last.calls = made at calls
  cases calls with
  | unsaved none =>
      have survive : EditsSurvive id made := fun save member saves =>
        absurd saves (none save member)
      refine ⟨fun _ => survive, fun _ => ⟨fun _ => ?_, fun _ => survive⟩⟩
      exact fun _ _ _ save member saves => absurd saves (none save member)
  | failed inert =>
      refine ⟨fun _ save member saves => ?_, nofun⟩
      rw [inert save member saves]
  | @saved read save aside disposition reads between saves restored =>
      refine ⟨nofun, fun _ => ?_⟩
      have among : ∀ call ∈ read :: aside ++ [save], call = read ∨ call.op.aside ∨ call = save := by
        simp only [List.mem_append, List.mem_cons, List.not_mem_nil, or_false]
        rintro call ((isRead | inAside) | isSave)
        · exact .inl isRead
        · exact .inr (.inl (between call inAside))
        · exact .inr (.inr isSave)
      have onlyRead : ∀ call ∈ read :: aside ++ [save], call.op = .store (.getTask id) →
          call = read := by
        intro call member isRead
        rcases among call member with same | inAside | rfl
        · exact same
        · rw [isRead] at inAside
          exact inAside.elim
        · exact (Moment.read_not_saves isRead saves).elim
      have onlySave : ∀ call ∈ read :: aside ++ [save], call.saves → call = save := by
        intro call member callSaves
        rcases among call member with rfl | inAside | same
        · exact (Moment.read_not_saves reads callSaves).elim
        · exact (Moment.aside_not_saves inAside callSaves).elim
        · exact same
      constructor
      · intro survive other otherMember isRead call callMember callSaves
        rw [onlyRead other otherMember isRead, onlySave call callMember callSaves, ← restored]
        exact (survive save (by simp) saves).symm
      · intro unchanged call callMember callSaves
        rw [onlySave call callMember callSaves, restored]
        exact (unchanged read (by simp) reads save (by simp) saves).symm

def confirmingProvider : Provider
  | .updateRemote request =>
    .ok ⟨request.remoteId, none, request.title.getD "", request.body.getD "", false, .epoch,
      request.assignees.getD [], []⟩
  | op => obligingProvider op

def amidHandler (edit : Service ServiceError Task) :
    Handler ports (Scene × List Moment)
  | .provider op, (scene, calls) =>
    let database := after confirmingProvider .epoch edit scene.database
    (confirmingProvider op, { scene with database },
      calls ++ [⟨.provider op, database, database⟩])
  | op, (scene, calls) =>
    let (answer, next) := portHandler confirmingProvider .epoch op scene
    (answer, next, calls ++ [⟨op, scene.database, next.database⟩])

def besides (state : Scene × List Moment) : Beside := ⟨⟨state.1.database, []⟩, state.2⟩

theorem amidHandler_sound {edit : Service ServiceError Task} (edits : TaskService.Edit edit)
    (op : PortOp) (state : Scene × List Moment) :
    amidEdits op (besides state) (amidHandler edit op state).1
      (besides (amidHandler edit op state).2) := by
  obtain ⟨scene, calls⟩ := state
  cases op with
  | provider op =>
      refine ⟨⟨after confirmingProvider .epoch edit scene.database, []⟩, _, ?_, rfl, rfl⟩
      exact Pool.run_whole (.edit edits) (fun _ member => (List.not_mem_nil member).elim)
        (runs_detached (runs_after confirmingProvider .epoch edit scene.database))
  | _ => exact ⟨_, _, .refl, portHandler_sound confirmingProvider .epoch _ scene, rfl⟩

def retitledTask : Database :=
  let created := after confirmingProvider .epoch
    (TaskService.create { workspaceId := ⟨1⟩, repoId := some ⟨21⟩, title := "t" }) twoRepos
  let promoted := after confirmingProvider .epoch (SyncService.promote ⟨1⟩) created
  after confirmingProvider .epoch (TaskService.update { taskId := ⟨1⟩, title := some "u" }) promoted

abbrev bodyEdit : Service ServiceError Task :=
  TaskService.update { taskId := ⟨1⟩, body := some "b" }

abbrev retitledScene : Scene × List Moment := (⟨retitledTask, 0⟩, [])

def overlapped : Except SyncError ApplyDisposition × Scene × List Moment :=
  (OutboxDrainer.applyUpdateRemote ⟨1⟩ "github.com/acme/one" "7").exec (amidHandler bodyEdit)
    retitledScene

theorem overlapped_ran :
    (OutboxDrainer.applyUpdateRemote ⟨1⟩ "github.com/acme/one" "7").Runs amidEdits
      ⟨⟨retitledTask, []⟩, []⟩ overlapped.1 (besides overlapped.2) := by
  have sound := @amidHandler_sound bodyEdit (.update _)
  exact @exec_runs ports Beside _ _ _ amidEdits (amidHandler bodyEdit) besides sound _ retitledScene

/-- The body that was committed during the remote call is gone after the save. -/
theorem drained_update_loses_edit :
    (OutboxDrainer.applyUpdateRemote ⟨1⟩ "github.com/acme/one" "7").Runs amidEdits
      ⟨⟨retitledTask, []⟩, []⟩ overlapped.1 (besides overlapped.2) ∧
    ¬EditsSurvive ⟨1⟩ (besides overlapped.2).calls := by
  refine ⟨overlapped_ran, ?_⟩
  intro survive
  obtain ⟨save, found, saves, lost⟩ : ∃ save, overlapped.2.2[3]? = some save ∧ save.saves ∧
      save.after.userFields ⟨1⟩ ≠ save.before.userFields ⟨1⟩ :=
    ⟨_, rfl, ⟨_, _, rfl⟩, by decide⟩
  exact lost (survive save (List.mem_of_getElem? found) saves)

theorem drained_update_keeps_edits_iff_overlapped :
    EditsSurvive ⟨1⟩ (besides overlapped.2).calls ↔
      UnchangedSinceRead ⟨1⟩ (besides overlapped.2).calls :=
  (drained_update_keeps_edits_iff overlapped_ran).2 (by decide)

end RepoLink
