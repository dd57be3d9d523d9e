import RepoLink.Library.Recall
import RepoLink.Library.RelyGuarantee
import RepoLink.Properties.PromoteBaseline
import RepoLink.TaskService.UpdateCalls

/-!
One issue for a task. A promote that may have run before looks for the issue that it left behind;
it looks only when the task is still staged, and it does not ask whether the task has a remote.
-/

namespace RepoLink

open Effects Program KeyedTable

/-- An issue that a promote has filed, whether or not the answer arrived. -/
structure FiledIssue where
  taskId : TaskId
  request : RemoteTaskCreate
  remoteId : String
  filedAt : Timestamp

def FiledIssue.coords (issue : FiledIssue) : IssueCoords :=
  (issue.request.canonicalRepo, issue.remoteId)

/-- The listing has the issue, with the title and the body as they were sent. -/
def FiledIssue.shownIn (issue : FiledIssue) (listed : List RemoteTaskSnapshot) : Bool :=
  listed.any fun snap => snap.remoteId = issue.remoteId && snap.title = issue.request.title &&
    snap.body = issue.request.body

structure Filings where
  database : Database
  filed : List FiledIssue

def Database.tracked (among : TaskId → Bool) (coords : IssueCoords) (database : Database) : Bool :=
  database.tasks.rows.any fun record =>
    among record.id && database.address record.load = some coords

namespace Filings

/-- The issues filed for the task that no other task tracks. -/
def strays (id : TaskId) (world : Filings) : List FiledIssue :=
  world.filed.filter fun issue =>
    issue.taskId = id && !world.database.tracked (fun other => other ≠ id) issue.coords

def unfiled (id : TaskId) (world : Filings) : Bool :=
  ((world.database.stored id).all fun task => task.remote.isNone) && (world.strays id).isEmpty

/-- The issues filed for the task that no task tracks, with the content and the repo that the
task has now. -/
def adoptable (task : Task) (world : Filings) : List FiledIssue :=
  world.filed.filter fun issue => issue.taskId = task.id &&
    issue.request.title = task.title && issue.request.body = task.body &&
    world.database.filingCanonical task = some issue.request.canonicalRepo &&
    !world.database.tracked (fun _ => true) issue.coords

/-- Nothing is filed yet, or a listing from that instant on shows an issue to adopt. -/
def recoverable (id : TaskId) (since : Timestamp) (world : Filings) : Bool :=
  world.unfiled id || (world.database.stored id).any fun task =>
    (world.adoptable task).any fun issue => since ≤ issue.filedAt

/-- A promote of a task that is not staged yet looks for nothing. -/
def ready (id : TaskId) (world : Filings) : Bool :=
  world.unfiled id || (world.database.stored id).all fun task =>
    task.sync ≠ .localOnly || task.lifecycle = .notPlanned

end Filings

inductive Verb where
  | edit
  | promote (id : TaskId)
deriving DecidableEq, Repr

namespace Verb

/-- What a call leaves of the issues: `create_remote` files one, also where its answer is lost. -/
def files : Verb → Call ports → List FiledIssue → List FiledIssue → Prop
  | .promote id, ⟨.provider (.createRemote request), .ok snap⟩, before, after =>
    ∃ filedAt, after = ⟨id, request, snap.remoteId, filedAt⟩ :: before
  | .promote id, ⟨.provider (.createRemote request), .error _⟩, before, after =>
    after = before ∨ ∃ remoteId filedAt, after = ⟨id, request, remoteId, filedAt⟩ :: before
  | _, _, before, after => after = before

end Verb

/-- A listing shows all that was filed in its repo and its window. -/
def ListsWhole (filed : List FiledIssue) : Call ports → Prop
  | ⟨.provider (.listChangedSince canonical since), .ok listed⟩ => ∀ issue ∈ filed,
    issue.request.canonicalRepo = canonical → since ≤ issue.filedAt →
      issue.shownIn listed = true
  | _ => True

/-- A single writer: nothing runs beside anything else. -/
def alone (_ _ : Verb) : Prop := False

section Calls

variable {admits : Verb → PortOp → Filings → Bool} {verb : Verb} {world : Filings}

def PortOp.filesNothing : PortOp → Prop
  | .provider (.createRemote _) => False
  | _ => True

end Calls

section Strays

variable {database : Database} {id : TaskId} {world after : Filings}

theorem Database.tracked_iff {among : TaskId → Bool} {coords : IssueCoords} :
    database.tracked among coords = true ↔ ∃ other task, among other = true ∧
      database.stored other = some task ∧ database.address task = some coords := by
  simp only [tracked, List.any_eq_true, Bool.and_eq_true, decide_eq_true_eq]
  constructor
  · rintro ⟨record, member, isAmong, address⟩
    have found : database.record record.id = some record := Table.find_of_mem member
    exact ⟨record.id, record.load, isAmong, congrArg (Option.map TaskRecord.load) found, address⟩
  · rintro ⟨other, task, isAmong, stored, address⟩
    obtain ⟨record, found, rfl⟩ := Option.map_eq_some_iff.mp stored
    exact ⟨record, Table.find_mem found, by rwa [record_id found], address⟩

theorem TaskRecord.load_write_content (instant : Timestamp) (source : SnapshotSource) (task : Task)
    (stored : Option TaskRecord) :
    (write instant source task stored).load.remote = task.remote ∧
      (write instant source task stored).load.title = task.title ∧
      (write instant source task stored).load.body = task.body ∧
      (write instant source task stored).load.filingRepoId = task.filingRepoId := by
  cases stored <;> exact ⟨rfl, rfl, rfl, rfl⟩

theorem Database.address_of_mirrors {origin : RepoOriginId} {provider remoteId canonical : String}
    {record : TaskRecord} (mirrors : mirrors origin provider remoteId record = true)
    (located : (database.origins.table.find origin).map RepoOrigin.canonicalUrl = some canonical) :
    database.address record.load = some (canonical, remoteId) := by
  simp only [Database.mirrors, Bool.and_eq_true, decide_eq_true_eq, Option.any_eq_true] at mirrors
  obtain ⟨filed, remote, remoteEq, _, sameId⟩ := mirrors
  have recorded : record.load.filingRepoId = some origin.toRepoId := filed
  refine Database.address_eq_some.mpr ⟨(filingCanonical_recorded recorded).trans located, ?_⟩
  change record.row.remote.map RemoteRef.remoteId = some remoteId
  rw [remoteEq, Option.map_some, sameId]

end Strays

section Promote

open SyncService

variable {id : TaskId} {world : Filings} {staged : Task} {filing : Option RepoOriginId}
  {canonical : String}

/-- The task that a promote has staged, as it is stored, with the repo in which it is filed. -/
structure Filings.Resolves (id : TaskId) (staged : Task) (filing : Option RepoOriginId)
    (canonical : String) (world : Filings) : Prop where
  stored : ∃ task, world.database.stored id = some task ∧ task.title = staged.title ∧
    task.body = staged.body ∧ world.database.filingCanonical task = some canonical
  located : ∃ origin, filing = some origin ∧
    (world.database.origins.table.find origin).map RepoOrigin.canonicalUrl = some canonical

/-- A listing that reaches back shows an issue which is taken for an orphan. -/
theorem Filings.Resolves.orphan {origin : RepoOriginId} {since : Timestamp}
    {listed : List RemoteTaskSnapshot}
    (resolves : world.Resolves id staged (some origin) canonical)
    (recoverable : world.recoverable id since = true)
    (whole : ListsWhole world.filed ⟨.provider (.listChangedSince canonical since), .ok listed⟩) :
    world.unfiled id = true ∨ ∃ snap ∈ listed.filter (correlates staged), ∀ provider,
      world.database.tasks.rows.any (Database.mirrors origin provider snap.remoteId) = false := by
  rcases Bool.or_eq_true_iff.mp recoverable with unfiled | adoptable
  · exact .inl unfiled
  refine .inr ?_
  obtain ⟨task, stored, sameTitle, sameBody, filed⟩ := resolves.stored
  obtain ⟨_, sameOrigin, located⟩ := resolves.located
  cases sameOrigin
  obtain ⟨_, found, adoptable⟩ := (Option.any_eq_true _ _).mp adoptable
  cases stored.symm.trans found
  obtain ⟨issue, member, recent⟩ := List.any_eq_true.mp adoptable
  obtain ⟨inFiled, facts⟩ := List.mem_filter.mp member
  simp only [Bool.and_eq_true, decide_eq_true_eq, Bool.not_eq_true'] at facts
  obtain ⟨⟨⟨⟨_, issueTitle⟩, issueBody⟩, issueRepo⟩, untracked⟩ := facts
  have inRepo : issue.request.canonicalRepo = canonical :=
    Option.some.inj (issueRepo.symm.trans filed)
  obtain ⟨snap, snapListed, shown⟩ := List.any_eq_true.mp
    (whole issue inFiled inRepo (of_decide_eq_true recent))
  simp only [Bool.and_eq_true, decide_eq_true_eq] at shown
  obtain ⟨⟨sameId, snapTitle⟩, snapBody⟩ := shown
  have correlated : correlates staged snap = true := by
    simp [correlates, snapTitle, snapBody, issueTitle, issueBody, sameTitle, sameBody]
  refine ⟨snap, List.mem_filter.mpr ⟨snapListed, correlated⟩, fun provider => ?_⟩
  by_contra mirrored
  obtain ⟨record, recordMember, mirrors⟩ :=
    List.any_eq_true.mp (Bool.eq_true_of_not_eq_false mirrored)
  have address := Database.address_of_mirrors mirrors located
  rw [sameId, ← inRepo] at address
  have tracked : world.database.tracked (fun _ => true) issue.coords = true :=
    Database.tracked_iff.mpr ⟨record.id, record.load, rfl,
      congrArg (Option.map TaskRecord.load) (Table.find_of_mem recordMember), address⟩
  rw [untracked] at tracked
  cases tracked

/-- What staging sets: the filing repo. What it leaves: the address of the task and its issue. -/
structure StagedFrom (task : Task) (filing : Option RepoOriginId) (staged : Task) : Prop where
  content : staged.SameContent task
  remote : staged.remote = task.remote
  workspaceId : staged.workspaceId = task.workspaceId
  repoId : staged.repoId = task.repoId
  filingRepoId : staged.filingRepoId = filing.map RepoOriginId.toRepoId

theorem StagedFrom.filingOrigin {database : Database} {task : Task}
    (fromTask : StagedFrom task filing staged) (resolved : filing = database.filingOrigin task) :
    database.filingOrigin staged = filing := by
  unfold Database.filingOrigin Database.logicalOrigin at resolved ⊢
  rw [fromTask.workspaceId, fromTask.repoId, fromTask.filingRepoId]
  cases filing with
  | some origin => simp [resolveFilingRepo]
  | none =>
      have nowhere := resolved.symm
      simp only [resolveFilingRepo, Option.or_eq_none_iff] at nowhere
      simp [resolveFilingRepo, nowhere]

theorem StagedFrom.resolves {task : Task} (fromTask : StagedFrom task filing staged)
    (stored : world.database.stored id = some task)
    (resolved : filing = world.database.filingOrigin task)
    (filed : world.database.filingCanonical staged = some canonical) :
    world.Resolves id staged filing canonical := by
  have located := filed
  rw [Database.filingCanonical, fromTask.filingOrigin resolved] at located
  obtain ⟨origin, originEq, found⟩ := Option.bind_eq_some_iff.mp located
  refine ⟨⟨task, stored, fromTask.content.title.symm, fromTask.content.body.symm, ?_⟩,
    origin, originEq, found⟩
  rwa [Database.filingCanonical, ← resolved]

/-- A world in which the staged row is saved, and nothing else has changed. -/
structure Filings.Saves (task staged : Task) (before after : Filings) : Prop where
  saved : ∃ instant, before.database.saveAll instant [⟨some task, staged, .localEdit⟩] [] =
    .ok after.database
  settings : after.database.SameSettings before.database
  filed : after.filed = before.filed

theorem Filings.Resolves.saved {task : Task} {after : Filings}
    (resolves : world.Resolves id staged filing canonical)
    (fromTask : StagedFrom task filing staged) (sameId : staged.id = id)
    (saves : world.Saves task staged after) : after.Resolves id staged filing canonical := by
  obtain ⟨instant, saved⟩ := saves.saved
  obtain ⟨origin, rfl, located⟩ := resolves.located
  rw [← saves.settings.origins] at located
  have written := (Database.saveAll_single saved id).trans (if_pos sameId.symm)
  have content := TaskRecord.load_write_content instant .localEdit staged
    (world.database.record staged.id)
  have recorded := content.2.2.2.trans fromTask.filingRepoId
  exact ⟨⟨_, congrArg (Option.map TaskRecord.load) written, content.2.1, content.2.2.1,
    (Database.filingCanonical_recorded recorded).trans located⟩, origin, rfl, located⟩

end Promote

section Runs

theorem plans_filesNothing : Plans PortOp.filesNothing :=
  ⟨fun _ _ => trivial, trivial, trivial⟩

theorem TaskService.FieldEdit.filesNothing {program : TaskService.Action Task}
    (edit : TaskService.FieldEdit program) : program.Every PortOp.filesNothing := by
  cases edit with
  | update cmd => exact TaskService.update_every plans_filesNothing (fun _ _ => trivial) cmd
  | start id | complete id | reopen id | archive id =>
      exact TaskService.transitionMirror_every plans_filesNothing (fun _ _ => trivial) id _

end Runs

abbrev FilingScene := Scene × List FiledIssue

def filings (state : FilingScene) : Filings := ⟨state.1.database, state.2⟩

def FiledIssue.shown (issue : FiledIssue) : RemoteTaskSnapshot :=
  ⟨issue.remoteId, none, issue.request.title, issue.request.body, false, issue.filedAt,
    issue.request.assignees, []⟩

def filingHandler (verb : Verb) : Handler ports FilingScene
  | .provider (.createRemote request), (scene, filed) =>
    match verb with
    | .edit => (.error (.network "offline"), scene, filed)
    | .promote id =>
      let issue : FiledIssue := ⟨id, request, if filed.isEmpty then "7" else "8", .epoch⟩
      (.ok issue.shown, scene, issue :: filed)
  | .provider (.listChangedSince canonical since), (scene, filed) =>
    (.ok ((filed.filter fun issue => issue.request.canonicalRepo = canonical &&
      since ≤ issue.filedAt).map FiledIssue.shown), scene, filed)
  | op, (scene, filed) =>
    let (answer, next) := portHandler obligingProvider .epoch op scene
    (answer, next, filed)

abbrev wrote (proc : Proc ports Empty Verb) (count : Nat) (state : FilingScene) :
    Program ports Empty Unit × FilingScene :=
  proc.program.advance (filingHandler proc.kind) count state

section Commands

variable {admits : Verb → PortOp → Filings → Bool} {starts : TaskId → Filings → Bool}

end Commands

end RepoLink
