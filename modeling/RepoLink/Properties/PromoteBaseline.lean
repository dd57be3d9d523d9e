import RepoLink.Ports.Handler
import RepoLink.Sync.Planning
import RepoLink.Sync.Service
import RepoLink.TaskService.Service

/-!
The baseline that a promote records. It is the local content of the moment, so it tells the truth
about the issue exactly if the issue that was created or adopted has that content.
-/

namespace RepoLink

open Effects Program

def MirrorField.tells (field : MirrorField) (version : TaskSnapshot) (issue : RemoteTaskSnapshot) :
    Bool :=
  match field with
  | .title => version.title = issue.title
  | .body => version.body = issue.body
  | .status => version.lifecycle.isOpen = !issue.closed
  | .assignees => version.assignees.all issue.assignees.contains &&
      issue.assignees.all version.assignees.contains

def MirrorPatch.carries (field : MirrorField) (patch : MirrorPatch) : Bool :=
  match field with
  | .title => patch.title.isSome
  | .body => patch.body.isSome
  | .status => patch.status.isSome
  | .assignees => patch.assignees.isSome

/-- Every field in which the stored baseline and the issue disagree is still to be pushed. -/
def Database.TellsTruth (database : Database) (taskId : TaskId) (issue : RemoteTaskSnapshot) :
    Prop :=
  ∃ task baseline, database.stored taskId = some task ∧ task.syncedBaseline = some baseline ∧
    ∀ field : MirrorField, field.tells baseline issue = false →
      task.diffAgainstBaseline.carries field = true

def RemoteTaskSnapshot.mirrors (issue : RemoteTaskSnapshot) (task : Task) : Bool :=
  issue.title = task.title && issue.body = task.body && issue.closed != task.isOpen &&
    (task.assignees.all issue.assignees.contains && issue.assignees.all task.assignees.contains)

/-- The database with the issues that a promote was shown: a listing, and one it created. -/
structure Promotion where
  database : Database
  listed : List RemoteTaskSnapshot
  created : Option RemoteTaskSnapshot

def promotion : Semantics ports Promotion
  | .provider (.createRemote _), before, answer, after =>
    after = { before with created := answer.toOption }
  | .provider (.listChangedSince ..), before, answer, after =>
    after = { before with listed := answer.toOption.getD [] }
  | op, before, answer, after =>
    ∃ database, portMeaning op before.database answer database ∧ after = { before with database }

/-- The issue of a promoted task: the created one, else the listed one that was adopted. -/
def Promotion.issueOf (promoted : Task) (state : Promotion) : Option RemoteTaskSnapshot :=
  state.created.or (state.listed.find? fun snap =>
    SyncService.correlates promoted snap &&
      promoted.remote.any fun remote => remote.remoteId = snap.remoteId)

def PortOp.glances : PortOp → Prop
  | .store op => op.reads = true
  | .provider _ => False
  | _ => True

section Runs

theorem PortOp.glances_quiet {op : PortOp} (glances : op.glances) : op.quiet := by
  cases op with
  | store op => exact glances
  | _ => trivial

theorem glances_reads : ∀ op : StoreOp, op.reads = true → (PortOp.store op).glances :=
  fun _ reads => reads

theorem glances_locates : ∀ op : StoreOp, op.locates = true → (PortOp.store op).glances :=
  fun _ => StoreOp.reads_of_locates

theorem promotion_store {op : StoreOp} {before after : Promotion}
    {answer : Except PortError op.Answer} (answered : promotion (.store op) before answer after) :
    portMeaning (.store op) before.database answer after.database ∧
      after = { before with database := after.database } := by
  obtain ⟨database, performed, rfl⟩ := answered
  exact ⟨performed, rfl⟩

theorem glances_meaning {op : PortOp} (glances : op.glances) {before after : Promotion}
    {answer : op.Answer} (answered : promotion op before answer after) : after = before := by
  cases op with
  | provider op => exact glances.elim
  | _ =>
      obtain ⟨database, performed, rfl⟩ := answered
      have same : database = before.database :=
        PortOp.quiet_meaning (PortOp.glances_quiet glances) performed
      rw [same]

theorem runs_glances {ε α : Type} {program : Service ε α} (glances : program.Every PortOp.glances)
    {before after : Promotion} {result : Except ε α}
    (ran : program.Runs promotion before result after) : after = before :=
  Every.runs (fun before after => after = before) (fun _ => rfl)
    (fun first second => second.trans first)
    (fun _ permitted _ _ _ => glances_meaning permitted) glances ran

theorem runs_glances_bind {ε α β : Type} {program : Service ε α} {next : α → Service ε β}
    (glances : program.Every PortOp.glances) {post : α → Prop} (yields : program.Yields post)
    {before after : Promotion} {value : β}
    (ran : (program.bind next).Runs promotion before (.ok value) after) :
    ∃ first, post first ∧ (next first).Runs promotion before (.ok value) after := by
  obtain ⟨first, middle, ranFirst, rest⟩ := runs_bind_ok.mp ran
  have same := runs_glances glances ranFirst
  subst same
  exact ⟨first, yields.runs ranFirst, rest⟩

section Parts

open SyncService

theorem settled_glances {α : Type} (result : Except DomainError α) :
    (settled result : Action α).Every PortOp.glances := by
  cases result <;> trivial

theorem relationBackfillEntries_glances (task : Task) (ownCoords : IssueCoords) :
    ∀ relations, (relationBackfillEntries task ownCoords relations).Every PortOp.glances := by
  intro relations
  induction relations with
  | nil => trivial
  | cons relation rest ih =>
      refine every_bind (@every_query _ _ _ (.getTask _) rfl) fun neighbor => ?_
      refine every_bind (cachedRelationCoords_every glances_locates neighbor) fun coords => ?_
      have goesOn : ∀ entry : List OutboxEntry, ((relationBackfillEntries task ownCoords rest).bind
          fun entries => (.done (entry ++ entries) : Action (List OutboxEntry))).Every
          PortOp.glances := fun _ => every_bind ih fun _ => trivial
      dsimp only
      split
      · exact goesOn []
      · exact ⟨trivial, fun _ => ⟨trivial, fun _ => goesOn _⟩⟩

theorem stampDefaultType_glances (now : Timestamp) (workspace : Workspace)
    (project : Option Project) (filingCanonical : String) (task : Task) :
    (stampDefaultType now workspace project filingCanonical task).Every PortOp.glances := by
  unfold stampDefaultType
  dsimp only
  generalize (if task.issueType.isNone = true then
    deriveDefaultIssueType task workspace.defaultIssueType workspace.defaultSubIssueType
    else none) = derived
  split
  · refine every_bind (@resolveTypeProjection_every SyncError _ _ glances_reads ..) fun mutation => ?_
    cases mutation with
    | none => dsimp only; split <;> trivial
    | some mutation => exact ⟨trivial, fun _ => ⟨trivial, fun _ => trivial⟩⟩
  · simp only [pure_eq, bind_eq, done_bind]
    split <;> trivial

def Task.Retyped (typed task : Task) : Prop :=
  ∃ issueType updatedAt, typed = { task with issueType, updatedAt }

theorem stampDefaultType_yields (now : Timestamp) (workspace : Workspace)
    (project : Option Project) (filingCanonical : String) (task : Task) :
    (stampDefaultType now workspace project filingCanonical task).Yields
      fun typed => typed.1.Retyped task := by
  unfold stampDefaultType
  dsimp only
  generalize (if task.issueType.isNone = true then
    deriveDefaultIssueType task workspace.defaultIssueType workspace.defaultSubIssueType
    else none) = derived
  have stamped : (derived.elim task fun issueType => task.setIssueTypeDefault now issueType).Retyped
      task := by
    cases derived with
    | none => exact ⟨_, _, rfl⟩
    | some issueType =>
        simp only [Option.elim, Task.setIssueTypeDefault]
        split <;> exact ⟨_, _, rfl⟩
  have reverted : ({ derived.elim task (fun issueType => task.setIssueTypeDefault now issueType) with
      issueType := none } : Task).Retyped task := by
    obtain ⟨issueType, updatedAt, same⟩ := stamped
    exact ⟨none, updatedAt, by rw [same]⟩
  split
  · refine (yields_any _).bind fun mutation _ => ?_
    cases mutation with
    | none =>
        dsimp only
        split
        · exact reverted
        · exact stamped
    | some mutation => exact fun _ _ => stamped
  · simp only [pure_eq, bind_eq, done_bind]
    split
    · exact reverted
    · exact stamped

theorem adopted_unique {task : Task} {listed : List RemoteTaskSnapshot} {tracked : List String}
    {orphan : RemoteTaskSnapshot}
    (single : (listed.filter (correlates task)).filter
      (fun snap => !tracked.contains snap.remoteId) = [orphan]) :
    correlates task orphan = true ∧
      listed.find? (fun snap => correlates task snap && orphan.remoteId = snap.remoteId) =
        some orphan := by
  have untracked : ∀ snap, snap = orphan ↔
      (snap ∈ listed ∧ correlates task snap = true) ∧ tracked.contains snap.remoteId = false := by
    intro snap
    rw [← List.mem_singleton, ← single, List.mem_filter, List.mem_filter, Bool.not_eq_true']
  obtain ⟨⟨member, correlated⟩, free⟩ := (untracked orphan).mp rfl
  refine ⟨correlated, ?_⟩
  cases found : listed.find? fun snap => correlates task snap && orphan.remoteId = snap.remoteId with
  | none =>
      have absent := List.find?_eq_none.mp found orphan member
      simp [correlated] at absent
  | some snap =>
      have passes := List.find?_some found
      simp only [Bool.and_eq_true, decide_eq_true_eq] at passes
      have listedSnap := List.mem_of_find?_eq_some found
      exact congrArg some ((untracked snap).mpr ⟨⟨listedSnap, passes.1⟩, passes.2 ▸ free⟩)

theorem runs_findPromotedOrphan {task : Task} {filingCanonical : String}
    {filingOrigin : Option RepoOriginId} {before after : Promotion}
    {found : Option RemoteTaskSnapshot}
    (ran : (findPromotedOrphan task filingCanonical filingOrigin).Runs promotion before (.ok found)
      after) :
    after.database = before.database ∧ after.created = before.created ∧
      ∀ orphan, found = some orphan → correlates task orphan = true ∧
        after.listed.find? (fun snap => correlates task snap && orphan.remoteId = snap.remoteId) =
          some orphan := by
  unfold findPromotedOrphan at ran
  cases filingOrigin with
  | none =>
      obtain ⟨foundEq, rfl⟩ := ran
      cases foundEq
      exact ⟨rfl, rfl, nofun⟩
  | some origin =>
      obtain ⟨now, asked, ⟨_, clockRead, rfl⟩, answer, listing, rfl, ran⟩ := ran
      have sameDatabase : _ = before.database := clockRead
      subst sameDatabase
      obtain error | listed : Except PortError (List RemoteTaskSnapshot) := answer
      · cases ran.1
      · change Runs promotion (if (listed.filter (correlates task)).isEmpty then _ else _) _ _ _ at ran
        split at ran
        · obtain ⟨foundEq, rfl⟩ := ran
          cases foundEq
          exact ⟨rfl, rfl, nofun⟩
        · obtain ⟨tracked, middle, ranTracked, rest⟩ := runs_bind_ok.mp ran
          have same := runs_glances (@every_query _ _ _ (.trackedRemoteIds ..) rfl) ranTracked
          subst same
          dsimp only at rest
          split at rest
          · obtain ⟨foundEq, rfl⟩ := rest
            cases foundEq
            exact ⟨rfl, rfl, nofun⟩
          · rename_i orphan single
            obtain ⟨foundEq, rfl⟩ := rest
            cases foundEq
            refine ⟨rfl, rfl, fun other same => ?_⟩
            cases same
            exact adopted_unique single
          · cases rest.1

structure Task.SameContent (left right : Task) : Prop where
  id : left.id = right.id
  title : left.title = right.title
  body : left.body = right.body
  lifecycle : left.lifecycle = right.lifecycle
  assignees : left.assignees = right.assignees

theorem Task.SameContent.trans {first second third : Task} (left : first.SameContent second)
    (right : second.SameContent third) : first.SameContent third :=
  ⟨left.id.trans right.id, left.title.trans right.title, left.body.trans right.body,
    left.lifecycle.trans right.lifecycle, left.assignees.trans right.assignees⟩

theorem stageForPromote_content {now : Timestamp} {before staged : Task}
    {filing : Option RepoOriginId} (stages : stageForPromote now before filing = .ok staged) :
    staged.SameContent before := by
  have filed : ∀ task : Task, (task.setFilingRepoId now (filing.map RepoOriginId.toRepoId)).attempt =
      .ok staged → staged.SameContent task := by
    intro task files
    unfold Task.setFilingRepoId at files
    split at files
    · cases files
      exact ⟨rfl, rfl, rfl, rfl, rfl⟩
    · split at files
      · cases files
      · cases files
        exact ⟨rfl, rfl, rfl, rfl, rfl⟩
  unfold stageForPromote at stages
  split at stages
  · rename_i fresh
    simp only [Task.stageForSync, fresh] at stages
    exact (filed _ stages).trans ⟨rfl, rfl, rfl, rfl, rfl⟩
  · exact filed before stages

theorem promoteToRemote_content {now : Timestamp} {staged promoted : Task} {remote : RemoteRef}
    (promotes : (staged.promoteToRemote now remote).attempt = .ok promoted) :
    promoted.SameContent staged ∧ promoted.remote = some remote := by
  unfold Task.promoteToRemote at promotes
  split at promotes
  · cases promotes
  · cases promotes
    exact ⟨⟨rfl, rfl, rfl, rfl, rfl⟩, rfl⟩

theorem Task.Retyped.content {typed task : Task} (retyped : typed.Retyped task) :
    typed.SameContent task ∧ typed.remote = task.remote := by
  obtain ⟨_, _, rfl⟩ := retyped
  exact ⟨⟨rfl, rfl, rfl, rfl, rfl⟩, rfl⟩

theorem runs_promotion_query {op : StoreOp} {before after : Promotion}
    {result : Except SyncError op.Answer}
    (ran : (query op : Action op.Answer).Runs promotion before result after) :
    (query op : Action op.Answer).Runs portMeaning before.database result after.database ∧
      after = { before with database := after.database } := by
  obtain ⟨answer, middle, answered, rest⟩ := ran
  obtain ⟨performed, middleEq⟩ := promotion_store answered
  have ended : after = middle := by
    cases answer with
    | ok value => exact rest.2
    | error error => exact rest.2
  subst ended
  refine ⟨⟨answer, after.database, performed, ?_⟩, middleEq⟩
  cases answer with
  | ok value => exact ⟨rest.1, rfl⟩
  | error error => exact ⟨rest.1, rfl⟩

/-- What a promote does once it has an issue, created or adopted. -/
abbrev recordIssue (task staged : Task) (workspace : Workspace) (filingCanonical : String)
    (snap : RemoteTaskSnapshot) : Action Task := do
  let promotedAt ← clock
  let promoted ← settled (staged.promoteToRemote promotedAt
    ⟨providerLabel filingCanonical, snap.remoteId, snap.nodeId⟩).attempt
  let relations ← relationBackfillEntries promoted (filingCanonical, snap.remoteId)
    promoted.relations
  let project ← projectForWorkspace workspace
  let (typed, typeEntries) ← stampDefaultType promotedAt workspace project filingCanonical promoted
  saveTask task typed .promote (relations ++ typeEntries)
  return typed

theorem runs_recordIssue {task staged : Task} {workspace : Workspace} {filingCanonical : String}
    {snap : RemoteTaskSnapshot} {before after : Promotion} {promoted : Task}
    (ran : (recordIssue task staged workspace filingCanonical snap).Runs promotion before
      (.ok promoted) after) :
    promoted.SameContent staged ∧
      promoted.remote = some ⟨providerLabel filingCanonical, snap.remoteId, snap.nodeId⟩ ∧
      after = { before with database := after.database } ∧
      ∃ instant, after.database.record promoted.id =
        some (.write instant .promote promoted (before.database.record promoted.id)) := by
  obtain ⟨promotedAt, _, ran⟩ := runs_glances_bind (every_clock trivial) (yields_any _) ran
  obtain ⟨recorded, records, ran⟩ := runs_glances_bind (settled_glances _) (settled_yields _) ran
  obtain ⟨relations, _, ran⟩ := runs_glances_bind (relationBackfillEntries_glances recorded _ _)
    (yields_any _) ran
  obtain ⟨project, _, ran⟩ := runs_glances_bind (projectForWorkspace_every glances_reads workspace)
    (yields_any _) ran
  obtain ⟨⟨typed, typeEntries⟩, retyped, ran⟩ := runs_glances_bind
    (stampDefaultType_glances promotedAt workspace project filingCanonical recorded)
    (stampDefaultType_yields promotedAt workspace project filingCanonical recorded) ran
  dsimp only at retyped ran
  obtain ⟨_, saved, ranSave, ran⟩ := runs_bind_ok.mp ran
  obtain ⟨promotedEq, rfl⟩ := ran
  cases promotedEq
  obtain ⟨ranSave, sameIssues⟩ := runs_promotion_query ranSave
  obtain ⟨instant, saved⟩ := runs_saveAll ranSave
  obtain ⟨content, sameRemote⟩ := promoteToRemote_content records
  exact ⟨retyped.content.1.trans content, retyped.content.2.trans sameRemote, sameIssues, instant,
    (Database.saveAll_single saved _).trans (if_pos rfl)⟩

theorem runs_promote {taskId : TaskId} {before : Database} {promoted : Task} {after : Promotion}
    (ran : (promote taskId).Runs promotion ⟨before, [], none⟩ (.ok promoted) after) :
    ∃ task issue instant stored, before.stored taskId = some task ∧
      after.issueOf promoted = some issue ∧ promoted.SameContent task ∧
      after.database.record taskId = some (.write instant .promote promoted stored) := by
  unfold promote at ran
  obtain ⟨task, loaded, ranLoad, ran⟩ := runs_bind_ok.mp ran
  have taskStored := runs_getTask (runs_promotion_query ranLoad).1
  have sameLoaded := runs_glances (@every_query _ _ _ (.getTask _) rfl) ranLoad
  subst sameLoaded
  have unarchived : (ensureNotArchived task).Every PortOp.glances := by
    unfold ensureNotArchived
    split <;> trivial
  obtain ⟨_, _, ran⟩ := runs_glances_bind unarchived (yields_any _) ran
  split at ran
  · cases ran.1
  obtain ⟨now, _, ran⟩ := runs_glances_bind (every_clock trivial) (yields_any _) ran
  obtain ⟨workspace, _, ran⟩ := runs_glances_bind (@every_query _ _ _ (.getWorkspace _) rfl)
    (yields_any _) ran
  obtain ⟨logical, _, ran⟩ := runs_glances_bind (logicalOriginFor_every glances_locates task)
    (yields_any _) ran
  dsimp only at ran
  obtain ⟨staged, stages, ran⟩ := runs_glances_bind (settled_glances _) (settled_yields _) ran
  obtain ⟨filingCanonical, _, ran⟩ := runs_glances_bind
    (requiredFilingCanonical_every glances_locates staged) (yields_any _) ran
  have content := stageForPromote_content stages
  have sameId : ∀ {typed : Task}, typed.SameContent staged → typed.id = taskId := fun same =>
    (same.trans content).id.trans (Database.stored_id taskStored)
  -- The draft may be saved before the remote is asked; no issue is seen by that.
  obtain ⟨saved, sameSaved, ran⟩ : ∃ saved : Promotion, saved.created = none ∧
      Runs promotion _ saved (.ok promoted) after := by
    split at ran
    · obtain ⟨_, saved, ranSave, ran⟩ := runs_bind_ok.mp ran
      exact ⟨saved, by rw [(runs_promotion_query ranSave).2], ran⟩
    · exact ⟨_, rfl, ran⟩
  obtain ⟨adopted, listed, uncreated, found, ran⟩ : ∃ (adopted : Option RemoteTaskSnapshot)
      (listed : Promotion), listed.created = none ∧
      (∀ orphan, adopted = some orphan → correlates staged orphan = true ∧
        listed.listed.find? (fun snap => correlates staged snap && orphan.remoteId = snap.remoteId) =
          some orphan) ∧
      Runs promotion _ listed (.ok promoted) after := by
    split at ran
    · obtain ⟨adopted, listed, ranFind, ran⟩ := runs_bind_ok.mp ran
      obtain ⟨_, sameCreated, found⟩ := runs_findPromotedOrphan ranFind
      exact ⟨adopted, listed, sameCreated.trans sameSaved, found, ran⟩
    · exact ⟨none, saved, sameSaved, nofun, ran⟩
  cases adopted with
  | some orphan =>
      obtain ⟨same, sameRemote, sameIssues, instant, written⟩ := runs_recordIssue ran
      rw [sameId same] at written
      refine ⟨task, orphan, instant, _, taskStored, ?_, same.trans content, written⟩
      have correlated : correlates promoted = correlates staged := by
        funext snap
        simp only [correlates, same.title, same.body]
      rw [sameIssues, Promotion.issueOf, uncreated, Option.none_or, correlated, sameRemote]
      exact (found orphan rfl).2
  | none =>
      obtain ⟨snap, created, ranCreate, ran⟩ := runs_bind_ok.mp ran
      obtain ⟨same, _, sameIssues, instant, written⟩ := runs_recordIssue ran
      rw [sameId same] at written
      obtain ⟨answer, middle, rfl, ranCreate⟩ := ranCreate
      cases answer with
      | error error => cases ranCreate.1
      | ok answered =>
          obtain ⟨snapEq, rfl⟩ := ranCreate
          cases snapEq
          refine ⟨task, snap, instant, _, taskStored, ?_, same.trans content, written⟩
          rw [sameIssues]
          rfl

end Parts

theorem tells_iff_mirrors {version : TaskSnapshot} {issue : RemoteTaskSnapshot} {task : Task}
    (title : version.title = task.title) (body : version.body = task.body)
    (lifecycle : version.lifecycle = task.lifecycle)
    (assignees : version.assignees = task.assignees) :
    (∀ field : MirrorField, field.tells version issue = true) ↔ issue.mirrors task = true := by
  simp only [RemoteTaskSnapshot.mirrors, Task.isOpen, Bool.and_eq_true, decide_eq_true_eq,
    ← title, ← body, ← lifecycle, ← assignees]
  have opened : ∀ isOpen closed : Bool, isOpen = !closed ↔ (closed != isOpen) = true := by decide
  constructor
  · intro told
    have sameTitle := of_decide_eq_true (told .title)
    have sameBody := of_decide_eq_true (told .body)
    have sameStatus := of_decide_eq_true (told .status)
    have sameAssignees := Bool.and_eq_true_iff.mp (told .assignees)
    exact ⟨⟨⟨sameTitle.symm, sameBody.symm⟩, (opened _ _).mp sameStatus⟩, sameAssignees⟩
  · rintro ⟨⟨⟨sameTitle, sameBody⟩, sameStatus⟩, sameAssignees⟩ field
    cases field with
    | title => exact decide_eq_true sameTitle.symm
    | body => exact decide_eq_true sameBody.symm
    | status => exact decide_eq_true ((opened _ _).mpr sameStatus)
    | assignees => exact Bool.and_eq_true_iff.mpr sameAssignees

theorem tellsTruth_written {database : Database} {taskId : TaskId} {issue : RemoteTaskSnapshot}
    {instant : Timestamp} {promoted task : Task} {stored : Option TaskRecord}
    (content : promoted.SameContent task)
    (written : database.record taskId = some (.write instant .promote promoted stored)) :
    database.TellsTruth taskId issue ↔ issue.mirrors task = true := by
  have aligned : (TaskRecord.snapshotRow instant .promote promoted).isBaseline = true := rfl
  have kept : database.stored taskId = some (TaskRecord.write instant .promote promoted stored).load :=
    congrArg (Option.map TaskRecord.load) written
  have agree := @tells_iff_mirrors { TaskRecord.snapshotRow instant .promote promoted with
      version := (stored.elim SnapshotLog.empty (·.snapshots)).nextVersion } issue task
    content.title content.body content.lifecycle content.assignees
  rw [← agree]
  constructor
  · rintro ⟨saved, baseline, savedStored, hasBaseline, pending⟩ field
    cases kept.symm.trans savedStored
    cases (TaskRecord.write_baseline aligned stored).symm.trans hasBaseline
    by_contra differs
    have carried := pending field (Bool.eq_false_of_not_eq_true differs)
    rw [TaskRecord.write_aligned aligned] at carried
    cases field <;> cases carried
  · intro told
    exact ⟨_, _, kept, TaskRecord.write_baseline aligned stored, fun field differs =>
      absurd (told field) (ne_true_of_eq_false differs)⟩

/-- The baseline of a promoted task hides no difference exactly if the issue that was created or
adopted has the content of the task. -/
theorem promote_tells_truth_iff {taskId : TaskId} {before : Database} {promoted : Task}
    {after : Promotion}
    (ran : (SyncService.promote taskId).Runs promotion ⟨before, [], none⟩ (.ok promoted) after) :
    ∃ task issue, before.stored taskId = some task ∧ after.issueOf promoted = some issue ∧
      (after.database.TellsTruth taskId issue ↔ issue.mirrors task = true) := by
  obtain ⟨task, issue, instant, stored, taskStored, issueFound, content, written⟩ :=
    runs_promote ran
  exact ⟨task, issue, taskStored, issueFound, tellsTruth_written content written⟩

end Runs

def promotionHandler : Handler ports (Scene × List RemoteTaskSnapshot × Option RemoteTaskSnapshot)
  | .provider (.createRemote request), (scene, listed, _) =>
    let answer := obligingProvider (.createRemote request)
    (answer, scene, listed, answer.toOption)
  | .provider (.listChangedSince canonical since), (scene, _, created) =>
    let answer := obligingProvider (.listChangedSince canonical since)
    (answer, scene, answer.toOption.getD [], created)
  | op, (scene, shown) =>
    let (answer, next) := portHandler obligingProvider .epoch op scene
    (answer, next, shown)

def shownIssues (state : Scene × List RemoteTaskSnapshot × Option RemoteTaskSnapshot) : Promotion :=
  ⟨state.1.database, state.2.1, state.2.2⟩

theorem promotionHandler_sound (op : PortOp)
    (state : Scene × List RemoteTaskSnapshot × Option RemoteTaskSnapshot) :
    promotion op (shownIssues state) (promotionHandler op state).1
      (shownIssues (promotionHandler op state).2) := by
  obtain ⟨scene, listed, created⟩ := state
  have sound := portHandler_sound obligingProvider .epoch op scene
  cases op with
  | provider op => cases op <;> first | rfl | exact ⟨_, sound, rfl⟩
  | _ => exact ⟨_, sound, rfl⟩

def completedDraft : Database :=
  after obligingProvider ⟨1⟩ (TaskService.complete ⟨1⟩) (after obligingProvider .epoch
    (TaskService.create { workspaceId := ⟨1⟩, repoId := some ⟨21⟩, title := "t" }) twoRepos)

def promotedClosed : Except SyncError Task × Scene × List RemoteTaskSnapshot ×
    Option RemoteTaskSnapshot :=
  (SyncService.promote ⟨1⟩).exec promotionHandler (⟨completedDraft, 0⟩, [], none)

theorem promotedClosed_ran :
    ∃ promoted, (SyncService.promote ⟨1⟩).Runs promotion ⟨completedDraft, [], none⟩ (.ok promoted)
      (shownIssues promotedClosed.2) := by
  have ran := @exec_runs ports Promotion _ _ _ promotion promotionHandler shownIssues
    promotionHandler_sound (SyncService.promote ⟨1⟩) (⟨completedDraft, 0⟩, [], none)
  change Runs promotion _ _ promotedClosed.1 _ at ran
  obtain ⟨promoted, succeeded⟩ : ∃ promoted, promotedClosed.1 = .ok promoted := ⟨_, rfl⟩
  rw [succeeded] at ran
  exact ⟨promoted, ran⟩

/-- The issue of a completed draft is created open, and the baseline says that it is closed. -/
theorem promoted_baseline_lies :
    ∃ promoted issue, (SyncService.promote ⟨1⟩).Runs promotion ⟨completedDraft, [], none⟩
        (.ok promoted) (shownIssues promotedClosed.2) ∧
      (shownIssues promotedClosed.2).issueOf promoted = some issue ∧
      ¬(shownIssues promotedClosed.2).database.TellsTruth ⟨1⟩ issue := by
  obtain ⟨promoted, ran⟩ := promotedClosed_ran
  refine ⟨promoted, _, ran, rfl, ?_⟩
  rintro ⟨task, baseline, stored, baselined, pending⟩
  cases stored
  cases baselined
  exact absurd (pending .status (by decide)) (by decide)

theorem promote_tells_truth_iff_completed :
    ∃ promoted task issue, completedDraft.stored ⟨1⟩ = some task ∧
      (shownIssues promotedClosed.2).issueOf promoted = some issue ∧
      ((shownIssues promotedClosed.2).database.TellsTruth ⟨1⟩ issue ↔
        issue.mirrors task = true) := by
  obtain ⟨promoted, ran⟩ := promotedClosed_ran
  exact ⟨promoted, promote_tells_truth_iff ran⟩

end RepoLink
