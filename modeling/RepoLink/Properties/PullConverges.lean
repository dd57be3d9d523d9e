import RepoLink.Properties.PullBaseline
import RepoLink.Properties.RemoteDrift

/-!
A pull that adopts the remote: what it leaves in the row, in the baseline and in the history, what
it names as superseded, and that a second pull of the same issue changes none of it.
-/

namespace RepoLink

open Effects Program SyncService

structure TaskRecord.SameContent (left right : TaskRecord) : Prop where
  snapshots : left.snapshots = right.snapshots
  title : left.row.title = right.row.title
  body : left.row.body = right.row.body
  lifecycle : left.row.lifecycle = right.row.lifecycle
  assignees : left.row.assignees = right.row.assignees
  sync : left.row.sync = right.row.sync

theorem TaskRecord.SameContent.refl (record : TaskRecord) : record.SameContent record :=
  ⟨rfl, rfl, rfl, rfl, rfl, rfl⟩

theorem TaskRecord.SameContent.trans {first second third : TaskRecord}
    (left : second.SameContent first) (right : third.SameContent second) :
    third.SameContent first :=
  ⟨right.snapshots.trans left.snapshots, right.title.trans left.title, right.body.trans left.body,
    right.lifecycle.trans left.lifecycle, right.assignees.trans left.assignees,
    right.sync.trans left.sync⟩

def SparesContent (before after : Database) : Prop := ∀ id record,
  before.record id = some record → ∃ kept, after.record id = some kept ∧ kept.SameContent record

theorem SparesContent.refl (database : Database) : SparesContent database database :=
  fun _ record found => ⟨record, found, .refl record⟩

theorem SparesContent.trans {first second third : Database} (left : SparesContent first second)
    (right : SparesContent second third) : SparesContent first third := by
  intro id record found
  obtain ⟨middle, middleFound, middleSame⟩ := left id record found
  obtain ⟨last, lastFound, lastSame⟩ := right id middle middleFound
  exact ⟨last, lastFound, middleSame.trans lastSame⟩

def PortOp.spares : PortOp → Prop
  | .store (.markRemoteDirty _) => False
  | .store op => op.writes = []
  | _ => True

theorem StoreOp.retouch_sameContent {op : StoreOp} (spares : (PortOp.store op).spares)
    (record : TaskRecord) : (op.retouch record).SameContent record := by
  cases op with
  | markRemoteDirty => cases spares
  | _ => exact ⟨rfl, rfl, rfl, rfl, rfl, rfl⟩

theorem PortOp.spares_meaning {op : PortOp} {before after : Database} {answer : op.Answer}
    (spares : op.spares) (answered : portMeaning op before answer after) :
    SparesContent before after := by
  cases op with
  | store op =>
      rcases answered with ⟨instant, performed⟩ | ⟨_, _, rfl⟩
      · rcases StoreOp.perform_record performed with ⟨writes, entries, rfl, saved⟩ | retouched
        · obtain ⟨_, _, written, _, rfl⟩ := Database.saveAll_ok saved
          have none : writes = [] := spares
          subst none
          cases written
          exact .refl _
        · intro id record found
          rw [retouched id, found]
          split
          · exact ⟨_, rfl, op.retouch_sameContent spares record⟩
          · exact ⟨record, rfl, .refl record⟩
      · exact .refl _
  | freshTaskId => exact answered.2 ▸ .refl _
  | now | freshEntryId | freshHash | provider => exact answered ▸ .refl _

theorem runs_spares {ε α : Type} {program : Service ε α} {before after : Database}
    {result : Except ε α} (all : program.Every PortOp.spares)
    (ran : program.Runs portMeaning before result after) : SparesContent before after :=
  all.runs SparesContent .refl .trans
    (fun _ spares _ _ _ answered => PortOp.spares_meaning spares answered) ran

/-- The task shows the content of the issue and is aligned with it. -/
structure Task.Shows (snap : RemoteTaskSnapshot) (lifecycle : Lifecycle) (task : Task) : Prop where
  title : task.title = snap.title
  body : task.body = snap.body
  assignees : task.assignees = snap.assignees
  lifecycle : task.lifecycle = lifecycle
  sync : task.sync = .synced

def TaskRecord.newestPrePull (record : TaskRecord) : Option TaskSnapshot :=
  record.snapshots.newestFirst.find? fun snapshot => snapshot.source = .prePull

/-- The snapshot holds the content of the task. -/
structure TaskSnapshot.Holds (task : Task) (snapshot : TaskSnapshot) : Prop where
  title : snapshot.title = task.title
  body : snapshot.body = task.body
  lifecycle : snapshot.lifecycle = task.lifecycle
  assignees : snapshot.assignees = task.assignees

structure Converged (snap : RemoteTaskSnapshot) (prior : Task) (record : TaskRecord) : Prop where
  row : record.row.Shows snap (remoteStateToLifecycle snap.closed prior.lifecycle)
  baseline : ∃ baseline, record.snapshots.latestBaseline = some baseline ∧ baseline.Holds record.row
  undo : ∃ undo, record.newestPrePull = some undo ∧ undo.Holds prior ∧ undo.syncState = prior.sync

variable {snap : RemoteTaskSnapshot} {prior : Task} {record : TaskRecord}

theorem Converged.shows (converged : Converged snap prior record) :
    record.load.Shows snap (remoteStateToLifecycle snap.closed prior.lifecycle) :=
  ⟨converged.row.title, converged.row.body, converged.row.assignees, converged.row.lifecycle,
    converged.row.sync⟩

theorem Converged.congr {kept : TaskRecord} (converged : Converged snap prior record)
    (same : kept.SameContent record) : Converged snap prior kept := by
  obtain ⟨⟨title, body, assignees, lifecycle, sync⟩, ⟨baseline, found, holds⟩, undo⟩ := converged
  refine ⟨⟨same.title.trans title, same.body.trans body, same.assignees.trans assignees,
    same.lifecycle.trans lifecycle, same.sync.trans sync⟩,
    ⟨baseline, same.snapshots ▸ found, ?_⟩, ?_⟩
  · exact ⟨holds.title.trans same.title.symm, holds.body.trans same.body.symm,
      holds.lifecycle.trans same.lifecycle.symm, holds.assignees.trans same.assignees.symm⟩
  · unfold TaskRecord.newestPrePull
    rw [same.snapshots]
    exact undo

theorem Converged.write {instant : Timestamp} {task : Task}
    (shows : task.Shows snap (remoteStateToLifecycle snap.closed prior.lifecycle))
    (undo : ∃ undo, record.newestPrePull = some undo ∧ undo.Holds prior ∧
      undo.syncState = prior.sync) :
    Converged snap prior (.write instant .pull task (some record)) := by
  obtain ⟨sync, _, _, _, _, title, body, lifecycle, assignees, _⟩ :=
    TaskRecord.write_row_columns instant .pull task (some record)
  refine ⟨⟨title.trans shows.title, body.trans shows.body, assignees.trans shows.assignees,
    lifecycle.trans shows.lifecycle, sync.trans shows.sync⟩, ?_, undo⟩
  exact ⟨_, @TaskRecord.write_baseline instant .pull task rfl (some record),
    title.symm, body.symm, lifecycle.symm, assignees.symm⟩

theorem newestPrePull_write (instant : Timestamp) (task : Task) (record : TaskRecord) :
    ∃ undo, (TaskRecord.write instant .prePull task (some record)).newestPrePull = some undo ∧
      undo.Holds task ∧ undo.syncState = task.sync :=
  ⟨_, rfl, ⟨rfl, rfl, rfl, rfl⟩, rfl⟩

theorem adopted_shows {now : Timestamp} {task adopted : Task}
    (adopts : ((copyInboundMirrorFromSnap snap task).adoptAlignedState now .pull).attempt =
      .ok adopted) :
    adopted.Shows snap (remoteStateToLifecycle snap.closed task.lifecycle) := by
  unfold Task.adoptAlignedState at adopts
  split at adopts
  · cases adopts
  · split at adopts
    all_goals first
      | cases adopts; exact ⟨rfl, rfl, rfl, rfl, rfl⟩
      | cases adopts

theorem remoteMirrorsBaseline_of_holds {task : Task} {baseline : TaskSnapshot} {current : Lifecycle}
    (shows : task.Shows snap (remoteStateToLifecycle snap.closed current))
    (holds : baseline.Holds task) : remoteMirrorsBaseline snap baseline = true := by
  unfold remoteMirrorsBaseline inboundMirrorsBaseline
  rw [holds.title, holds.body, holds.assignees, holds.lifecycle, shows.title, shows.body,
    shows.assignees, shows.lifecycle, isOpen_remoteStateToLifecycle, assigneesEqual_self]
  simp

theorem Converged.decides_noop (converged : Converged snap prior record) (force : Bool) :
    pullDecision force record.load snap = .noop := by
  obtain ⟨baseline, found, holds⟩ := converged.baseline
  have aligned : record.load.syncedBaseline = some baseline := found
  have synced : record.load.sync = .synced := converged.row.sync
  unfold pullDecision
  rw [aligned, synced]
  simp [remoteMirrorsBaseline_of_holds converged.row holds, SyncState.decide]


theorem withNodeId_content (nodeId : Option String) (task : Task) :
    (withNodeId nodeId task).title = task.title ∧ (withNodeId nodeId task).body = task.body ∧
      (withNodeId nodeId task).lifecycle = task.lifecycle ∧
      (withNodeId nodeId task).assignees = task.assignees := by
  unfold withNodeId
  split <;> exact ⟨rfl, rfl, rfl, rfl⟩

theorem Task.Shows.withNodeId {lifecycle : Lifecycle} {task : Task}
    (shows : task.Shows snap lifecycle) (nodeId : Option String) :
    (withNodeId nodeId task).Shows snap lifecycle := by
  obtain ⟨title, body, state, assignees⟩ := withNodeId_content nodeId task
  exact ⟨title.trans shows.title, body.trans shows.body, assignees.trans shows.assignees,
    state.trans shows.lifecycle, (withNodeId_sync nodeId task).trans shows.sync⟩

theorem Converged.of_withNodeId {nodeId : Option String}
    (converged : Converged snap (withNodeId nodeId prior) record) :
    Converged snap prior record := by
  obtain ⟨title, body, lifecycle, assignees⟩ := withNodeId_content nodeId prior
  obtain ⟨row, baseline, undo, found, holds, sync⟩ := converged
  exact ⟨lifecycle ▸ row, baseline, undo, found, ⟨holds.title.trans title, holds.body.trans body,
    holds.lifecycle.trans lifecycle, holds.assignees.trans assignees⟩,
    sync.trans (withNodeId_sync nodeId prior)⟩

def Database.Converges (database : Database) (snap : RemoteTaskSnapshot) (prior : Task) : Prop :=
  ∃ record, database.record prior.id = some record ∧ Converged snap prior record

theorem Database.Converges.spared {before after : Database}
    (converges : before.Converges snap prior) (spares : SparesContent before after) : after.Converges snap prior := by
  obtain ⟨record, found, converged⟩ := converges
  obtain ⟨kept, keptFound, same⟩ := spares prior.id record found
  exact ⟨kept, keptFound, converged.congr same⟩

theorem runs_adoptRemote {basis task pulled : Task} {before after : Database}
    (present : before.record task.id = some record)
    (ran : (adoptRemote basis task snap).Runs portMeaning before (.ok pulled) after) :
    pulled.Shows snap (remoteStateToLifecycle snap.closed task.lifecycle) ∧
      after.Converges snap task := by
  obtain ⟨_, kept, ranPrePull, ran⟩ := runs_bind_ok.mp ran
  obtain ⟨instant, saved⟩ := runs_saveAll ranPrePull
  obtain ⟨(now : Timestamp), clocked, rfl, ran⟩ := ran
  change Program.Runs portMeaning
    ((settled ((copyInboundMirrorFromSnap snap task).adoptAlignedState now .pull).attempt).bind
      fun adopted => (saveTask basis adopted .pull []).bind fun _ => .done adopted)
    clocked (.ok pulled) after at ran
  cases adopts : ((copyInboundMirrorFromSnap snap task).adoptAlignedState now .pull).attempt with
  | error error =>
      rw [adopts] at ran
      cases ran.1
  | ok adopted =>
      rw [adopts] at ran
      change Program.Runs portMeaning ((saveTask basis adopted .pull []).bind
        fun _ => .done adopted) clocked (.ok pulled) after at ran
      obtain ⟨_, last, ranPull, ended⟩ := runs_bind_ok.mp ran
      obtain ⟨same, rfl⟩ := ended
      cases same
      obtain ⟨later, savedLater⟩ := runs_saveAll ranPull
      have shows := adopted_shows adopts
      have sameId : pulled.id = task.id := (adopted_samePlace adopts).id
      have before := Database.saveAll_single saved task.id
      have recorded := Database.saveAll_single savedLater task.id
      rw [if_pos rfl, present] at before
      rw [if_pos sameId.symm, sameId, before] at recorded
      exact ⟨shows, _, recorded, .write shows (newestPrePull_write instant task record)⟩


theorem finishPull_spares (id : TaskId) (filingCanonical remoteId : String) (pulled : Task)
    (nodeId : Option String) : ((remote (.fetchComments filingCanonical remoteId) :
      SyncService.Action (List RemoteComment)).bind fun comments =>
        (query (.replaceComments id comments)).bind fun _ => (backfillNodeId id nodeId).bind
          fun _ => .done pulled).Every PortOp.spares := by
  refine every_bind (@every_remote _ _ _ (.fetchComments ..) trivial) fun comments => ?_
  refine every_bind (@every_query _ _ _ (.replaceComments ..) rfl) fun _ => ?_
  refine every_bind ?_ fun _ => trivial
  cases nodeId with
  | none => trivial
  | some nodeId => exact @every_query _ _ _ (.cacheRemoteNodeId ..) rfl

theorem runs_pullSnapshot_adopts {force : Bool} {pulled : Task} {canonical : String}
    {current : RemoteRef} {before after : Database}
    (decides : pullDecision force prior snap = .pullRemote)
    (present : before.record prior.id = some record)
    (ran : (pullSnapshot force prior canonical current snap).Runs portMeaning before (.ok pulled)
      after) :
    pulled.Shows snap (remoteStateToLifecycle snap.closed prior.lifecycle) ∧
      after.Converges snap prior := by
  obtain ⟨observedAt, _, ran⟩ := runs_quiet_bind (every_clock trivial) ran
  obtain ⟨_, stamped, ranStamp, ran⟩ := runs_bind_ok.mp ran
  have spared := runs_spares (@every_query _ _ _ (.cacheSyncedAt prior.id observedAt .pull) rfl)
    ranStamp
  obtain ⟨kept, keptFound, _⟩ := spared prior.id record present
  dsimp only at ran
  rw [pullDecision_withNodeId, decides] at ran
  obtain ⟨adopted, middle, ranAdopt, ran⟩ := runs_bind_ok.mp ran
  have place := withNodeId_samePlace (nodeIdBackfill current snap) prior
  obtain ⟨shows, converges⟩ := runs_adoptRemote (place.id ▸ keptFound) ranAdopt
  rw [(withNodeId_content _ prior).2.2.1] at shows
  obtain ⟨found, recorded, converged⟩ := converges
  have spares := runs_spares (finishPull_spares prior.id canonical current.remoteId adopted _) ran
  have last : after.Converges snap prior :=
    Database.Converges.spared ⟨found, place.id ▸ recorded, converged.of_withNodeId⟩ spares
  have returns : ∀ nodeId, ((remote (.fetchComments canonical current.remoteId) :
      SyncService.Action (List RemoteComment)).bind fun comments =>
        (query (.replaceComments prior.id comments)).bind fun _ => (backfillNodeId prior.id
          nodeId).bind fun _ => .done adopted).Yields fun pulled => pulled = adopted := fun _ =>
    (yields_any _).bind fun _ _ => (yields_any _).bind fun _ _ => (yields_any _).bind fun _ _ => rfl
  exact ⟨(returns _).runs ran ▸ shows, last⟩

theorem pullSnapshot_spares {force : Bool} {task : Task} {canonical : String} {current : RemoteRef}
    (decides : pullDecision force task snap = .noop) :
    (pullSnapshot force task canonical current snap).Every PortOp.spares := by
  refine every_bind (every_clock trivial) fun observedAt => ?_
  refine every_bind (@every_query _ _ _ (.cacheSyncedAt task.id observedAt .pull) rfl) fun _ => ?_
  dsimp only
  rw [pullDecision_withNodeId, decides]
  exact finishPull_spares ..


theorem Follows.converges {far : TaskId → Prop} {pulled basis : Task} {state : Reconciliation}
    {instant : Timestamp} {database after : Database} (follows : Follows database pulled far state)
    (sameId : pulled.id = prior.id)
    (shows : pulled.Shows snap (remoteStateToLifecycle snap.closed prior.lifecycle))
    (converges : database.Converges snap prior)
    (saved : database.saveAll instant (state.writes basis) [] = .ok after) :
    after.Converges snap prior := by
  unfold Database.Converges
  rw [Database.saveAll_record saved]
  refine @Database.afterWrites_induct instant prior.id (fun stored => ∃ record,
    stored = some record ∧ Converged snap prior record) (state.writes basis) _ converges ?_
  rintro write member named _ ⟨earlier, rfl, converged⟩
  rcases List.mem_cons.mp member with rfl | member
  · obtain ⟨relations, updatedAt, taskEq⟩ := follows.subject
    have shown : state.task.Shows snap (remoteStateToLifecycle snap.closed prior.lifecycle) :=
      taskEq ▸ ⟨shows.title, shows.body, shows.assignees, shows.lifecycle, shows.sync⟩
    exact ⟨_, rfl, .write shown converged.undo⟩
  · obtain ⟨neighbor, neighborMember, rfl⟩ := List.mem_map.mp member
    obtain ⟨_, _, apart, relations, updatedAt, currentEq⟩ := follows.loaded neighbor neighborMember
    have named : prior.id = neighbor.loaded.id := named.trans (by rw [currentEq])
    exact absurd (named.symm.trans sameId.symm) apart

theorem runs_reconcileRelationsInbound_converges {provider : Provider} {basis pulled : Task}
    {canonical remoteId : String} {before after : Database}
    {result : Except SyncError Reconciliation} (sameId : pulled.id = prior.id)
    (shows : pulled.Shows snap (remoteStateToLifecycle snap.closed prior.lifecycle))
    (converges : before.Converges snap prior)
    (ran : (reconcileRelationsInbound basis pulled canonical remoteId).Runs (portsOf provider)
      before result after) : after.Converges snap prior := by
  rcases runs_reconcileRelationsInbound ran with ⟨_, rfl⟩ |
    ⟨state, _, _, _, _, _, _, _, follows, ⟨_, rfl⟩ | ⟨_, instant, saved⟩⟩
  · exact converges
  · exact converges
  · exact Follows.converges follows sameId shows converges saved

def Fetches (provider : Provider) (database : Database) (task : Task) (snap : RemoteTaskSnapshot) :
    Prop :=
  ∃ canonical remoteId, database.address task = some (canonical, remoteId) ∧
    provider (.fetchRemote canonical remoteId) = .ok snap

/-- A pull stops before it stores anything, or goes on with the issue that it fetched. -/
theorem runs_pullOutcome {provider : Provider} {force : Bool} {id : TaskId} {task : Task}
    {before after : Database} {result : Except SyncError PullOutcome}
    (stored : before.stored id = some task) (fetches : Fetches provider before task snap)
    (ran : (pullOutcome id force).Runs (portsOf provider) before result after) :
    ((∃ error, result = .error error) ∧ after = before) ∨ ∃ canonical current,
      before.address task = some (canonical, current.remoteId) ∧
      provider (.fetchRemote canonical current.remoteId) = .ok snap ∧
      ((pullSnapshot force task canonical current snap).bind fun pulled =>
        (reconcileRelationsInbound task pulled canonical current.remoteId).bind fun reconciled =>
          .done ⟨task.sync, pullDecision force task snap,
            pullNote (withNodeId (nodeIdBackfill current snap) task) snap
              (pullDecision force task snap), reconciled⟩).Runs (portsOf provider) before result
                after := by
  have stop : ∀ {α : Type} {program : SyncService.Action α}
      {next : α → SyncService.Action PullOutcome}, program.Every PortOp.quiet →
      (program.bind next).Runs (portsOf provider) before result after →
      (∃ first, program.Runs (portsOf provider) before (.ok first) before ∧
          (next first).Runs (portsOf provider) before result after) ∨
        ((∃ error, result = .error error) ∧ after = before) :=
    fun quiet ran => runs_quiet_bind_portsOf quiet ran
  rcases stop (getTask_quiet id) ran with ⟨loaded, ranLoad, ran⟩ | failed
  swap
  · exact .inl failed
  cases (runs_getTask (runs_portsOf ranLoad)).symm.trans stored
  rcases stop (ensureNotArchived_quiet task) ran with ⟨_, _, ran⟩ | failed
  swap
  · exact .inl failed
  rcases stop (requiredFilingCanonical_quiet task) ran with ⟨canonical, ranCanonical, ran⟩ | failed
  swap
  · exact .inl failed
  have canonicalEq := runs_requiredFilingCanonical (runs_portsOf ranCanonical)
  cases remoteEq : task.remote with
  | none =>
      rw [remoteEq] at ran
      exact .inl ⟨⟨_, ran.1⟩, ran.2⟩
  | some current =>
      rw [remoteEq] at ran
      have addressed : before.address task = some (canonical, current.remoteId) :=
        Database.address_eq_some.mpr ⟨canonicalEq, by rw [remoteEq]; rfl⟩
      rcases stop (every_remote trivial) ran with ⟨found, ranFetch, ran⟩ | failed
      swap
      · exact .inl failed
      obtain ⟨_, _, sameAddress, answered⟩ := fetches
      cases addressed.symm.trans sameAddress
      cases (runs_remote ranFetch).symm.trans answered
      dsimp only at ran
      rw [pullDecision_withNodeId] at ran
      exact .inr ⟨canonical, current, addressed, answered, ran⟩


/-- The names stand for the mirrored fields that differ between the two tasks. -/
structure Supersedes (fields : List String) (before after : Task) : Prop where
  title : "title" ∈ fields ↔ before.title ≠ after.title
  body : "body" ∈ fields ↔ before.body ≠ after.body
  status : "status" ∈ fields ↔ before.lifecycle ≠ after.lifecycle
  assignees : "assignees" ∈ fields ↔ assigneesEqual before.assignees after.assignees = false
  only : ∀ field ∈ fields, field ∈ ["title", "body", "status", "assignees"]

theorem supersededInboundFields_supersedes {task pulled : Task}
    (shows : pulled.Shows snap (remoteStateToLifecycle snap.closed task.lifecycle)) :
    Supersedes (supersededInboundFields snap task) task pulled := by
  unfold supersededInboundFields
  rw [← shows.lifecycle, ← shows.title, ← shows.body, ← shows.assignees]
  have named : ∀ {holds : Prop} [Decidable holds] {name field : String},
      field ∈ (if holds then [name] else []) ↔ holds ∧ field = name := by
    intro holds _ name field
    split <;> simp_all
  refine ⟨?_, ?_, ?_, ?_, ?_⟩
  all_goals simp only [List.mem_append, named]
  · simp
  · simp
  · simp
  · simp
  · rintro field (((⟨_, rfl⟩ | ⟨_, rfl⟩) | ⟨_, rfl⟩) | ⟨_, rfl⟩) <;> simp

/-- The mirrored fields of the task are those of the issue. -/
structure Task.Mirrors (snap : RemoteTaskSnapshot) (task : Task) : Prop where
  title : task.title = snap.title
  body : task.body = snap.body
  assignees : ∀ login, login ∈ task.assignees ↔ login ∈ snap.assignees
  isOpen : task.isOpen = !snap.closed
  sync : task.sync = .synced

/-- The same mirrored fields and sync state, over baselines with the same content. -/
structure SameMirror (before after : Task) : Prop where
  title : after.title = before.title
  body : after.body = before.body
  lifecycle : after.lifecycle = before.lifecycle
  assignees : after.assignees = before.assignees
  sync : after.sync = before.sync
  baseline : ∃ old new, before.syncedBaseline = some old ∧ after.syncedBaseline = some new ∧
    new.title = old.title ∧ new.body = old.body ∧ new.lifecycle = old.lifecycle ∧
    new.assignees = old.assignees

theorem Converged.sameMirror {first second : TaskRecord} (converged : Converged snap prior first)
    (later : Converged snap prior second) : SameMirror first.load second.load := by
  obtain ⟨⟨title, body, assignees, lifecycle, sync⟩, ⟨old, oldFound, oldHolds⟩, _⟩ := converged
  obtain ⟨⟨title', body', assignees', lifecycle', sync'⟩, ⟨new, newFound, newHolds⟩, _⟩ := later
  have sameTitle := title'.trans title.symm
  have sameBody := body'.trans body.symm
  have sameLifecycle := lifecycle'.trans lifecycle.symm
  have sameAssignees := assignees'.trans assignees.symm
  refine ⟨sameTitle, sameBody, sameLifecycle, sameAssignees, sync'.trans sync.symm,
    old, new, oldFound, newFound, ?_, ?_, ?_, ?_⟩
  · exact newHolds.title.trans (sameTitle.trans oldHolds.title.symm)
  · exact newHolds.body.trans (sameBody.trans oldHolds.body.symm)
  · exact newHolds.lifecycle.trans (sameLifecycle.trans oldHolds.lifecycle.symm)
  · exact newHolds.assignees.trans (sameAssignees.trans oldHolds.assignees.symm)

theorem pullNote_withNodeId (nodeId : Option String) (task : Task) (decision : SyncDecision) :
    pullNote (withNodeId nodeId task) snap decision = pullNote task snap decision := by
  unfold withNodeId
  split <;> rfl

theorem runs_pullOutcome_adopts {provider : Provider} {force : Bool} {id : TaskId}
    {before after : Database} {outcome : PullOutcome} (stored : before.stored id = some prior)
    (fetches : Fetches provider before prior snap)
    (decides : pullDecision force prior snap = .pullRemote)
    (ran : (pullOutcome id force).Runs (portsOf provider) before (.ok outcome) after) :
    after.Converges snap prior ∧ outcome.note = pullNote prior snap .pullRemote := by
  obtain ⟨⟨_, failed⟩, _⟩ | ⟨canonical, current, _, _, ran⟩ := runs_pullOutcome stored fetches ran
  · cases failed
  obtain ⟨pulled, middle, ranContent, ran⟩ := runs_bind_ok.mp ran
  obtain ⟨reconciled, last, ranReconcile, ended⟩ := runs_bind_ok.mp ran
  obtain ⟨same, rfl⟩ := ended
  cases same
  obtain ⟨record, found, rfl⟩ := Option.map_eq_some_iff.mp stored
  obtain ⟨shows, converges⟩ := runs_pullSnapshot_adopts decides
    (Database.record_id found ▸ found) (runs_portsOf ranContent)
  have place := (Yields.runs
    (pullSnapshot_yields force record.load canonical current snap) ranContent).1
  refine ⟨runs_reconcileRelationsInbound_converges place.id shows converges ranReconcile, ?_⟩
  rw [decides]
  exact pullNote_withNodeId (nodeIdBackfill current snap) record.load .pullRemote

/-- A pull of an issue that the task already shows. -/
theorem runs_pullOutcome_converged {provider : Provider} {force : Bool} {id : TaskId}
    {before after : Database} {result : Except SyncError PullOutcome} (named : prior.id = id)
    (found : before.record id = some record) (converged : Converged snap prior record)
    (fetches : Fetches provider before record.load snap)
    (ran : (pullOutcome id force).Runs (portsOf provider) before result after) :
    (∀ outcome, result = .ok outcome → outcome.decision = .noop) ∧ ∃ last,
      after.record id = some last ∧ Converged snap prior last ∧
        (pullRewires provider before record.load = [] → last.snapshots = record.snapshots) := by
  have stored : before.stored id = some record.load := congrArg (Option.map TaskRecord.load) found
  have noop := converged.decides_noop force
  obtain ⟨⟨_, rfl⟩, rfl⟩ | ⟨canonical, current, addressed, fetched, ran⟩ :=
    runs_pullOutcome stored fetches ran
  · exact ⟨fun _ ended => (by cases ended), record, found, converged, fun _ => rfl⟩
  have sameId : record.load.id = prior.id := (Database.record_id found).trans named.symm
  have kept : ∀ {result : Except SyncError Task} {middle : Database},
      (pullSnapshot force record.load canonical current snap).Runs (portsOf provider) before result
        middle → ∃ kept, middle.record id = some kept ∧ kept.SameContent record :=
    fun ranContent =>
      runs_spares (pullSnapshot_spares noop) (runs_portsOf ranContent) id record found
  rcases runs_bind.mp ran with ⟨pulled, middle, ranContent, ran⟩ | ⟨error, failed, rfl⟩
  swap
  · obtain ⟨last, lastFound, same⟩ := kept failed
    exact ⟨fun _ ended => (by cases ended), last, lastFound, converged.congr same,
      fun _ => same.snapshots⟩
  obtain ⟨later, laterFound, same⟩ := kept ranContent
  obtain ⟨place, pulledEq⟩ := Yields.runs
    (pullSnapshot_yields force record.load canonical current snap) ranContent
  have pulledIs := pulledEq (by rw [noop]; exact SyncDecision.noConfusion)
  have shows : pulled.Shows snap (remoteStateToLifecycle snap.closed prior.lifecycle) :=
    pulledIs ▸ converged.shows.withNodeId _
  have converges : middle.Converges snap prior :=
    ⟨later, named ▸ laterFound, converged.congr same⟩
  have rewired : ∀ {last : Database} {reconciled : Except SyncError Reconciliation},
      (reconcileRelationsInbound record.load pulled canonical current.remoteId).Runs
        (portsOf provider) middle reconciled last →
      ∃ final, last.record id = some final ∧ Converged snap prior final ∧
        (pullRewires provider before record.load = [] → final.snapshots = record.snapshots) := by
    intro last reconciled ranReconcile
    obtain ⟨final, finalFound, finalConverged⟩ := runs_reconcileRelationsInbound_converges
      (place.id.trans sameId) shows converges ranReconcile
    rw [named] at finalFound
    refine ⟨final, finalFound, finalConverged, fun none => ?_⟩
    suffices untouched : last = middle by
      subst untouched
      cases finalFound.symm.trans laterFound
      exact same.snapshots
    rcases runs_reconcileRelationsInbound ranReconcile with ⟨_, rfl⟩ |
      ⟨state, subs, blockers, parents, _, subsEq, blockersEq, parentsEq, follows,
        ⟨_, rfl⟩ | ⟨changed, _⟩⟩
    · rfl
    · rfl
    · obtain ⟨far, member⟩ := follows.changed.mp changed
      have sameStored : before.stored record.load.id = some record.load := by
        rw [sameId, named, stored]
      have first := runs_pullSnapshot sameStored addressed fetched ranContent
      rw [inboundChanges_congr first.same place.id place.workspaceId place.relations] at member
      simp only [pullRewires, addressed, subsEq, blockersEq, parentsEq] at none
      exact (List.not_mem_nil (none ▸ member)).elim
  rcases runs_bind.mp ran with ⟨reconciled, last, ranReconcile, rfl, rfl⟩ | ⟨error, failed, rfl⟩
  · exact ⟨fun _ ended => by cases ended; exact noop, rewired ranReconcile⟩
  · exact ⟨fun _ ended => (by cases ended), rewired failed⟩

theorem runs_pull_converged {provider : Provider} {force : Bool} {id : TaskId}
    {before after : Database} {result : Except SyncError SyncSummary} (named : prior.id = id)
    (found : before.record id = some record) (converged : Converged snap prior record)
    (fetches : Fetches provider before record.load snap)
    (ran : (pullInnerSummary id force).Runs (portsOf provider) before result after) :
    (∀ summary, result = .ok summary → summary.decision = .noop) ∧
      ∃ last, after.stored id = some last ∧ SameMirror record.load last ∧
        (pullRewires provider before record.load = [] →
          last.syncedBaseline = record.load.syncedBaseline) := by
  have ended : ∀ {result' : Except SyncError PullOutcome},
      (pullOutcome id force).Runs (portsOf provider) before result' after →
      ∃ last, after.stored id = some last ∧ SameMirror record.load last ∧
        (pullRewires provider before record.load = [] →
          last.syncedBaseline = record.load.syncedBaseline) := by
    intro result' ranOutcome
    obtain ⟨_, last, lastFound, later, snapshots⟩ :=
      runs_pullOutcome_converged named found converged fetches ranOutcome
    exact ⟨last.load, congrArg (Option.map TaskRecord.load) lastFound, converged.sameMirror later,
      fun none => congrArg SnapshotLog.latestBaseline (snapshots none)⟩
  rcases runs_bind.mp ran with ⟨outcome, last, ranOutcome, rfl, rfl⟩ | ⟨error, failed, rfl⟩
  · refine ⟨fun summary same => ?_, ended ranOutcome⟩
    cases same
    exact (runs_pullOutcome_converged named found converged fetches ranOutcome).1 _ rfl
  · exact ⟨fun _ same => (by cases same), ended failed⟩

/-- A pull that decides to adopt the remote converges: the mirrored fields are those of the issue,
the replaced content is the newest undo target, the superseded fields are exactly those that
changed, and a second pull of the same issue has nothing to do. -/
theorem pull_converges {provider : Provider} {force : Bool} {id : TaskId} {task : Task}
    {before middle : Database} {summary : SyncSummary}
    (stored : before.stored id = some task) (fetches : Fetches provider before task snap)
    (decides : pullDecision force task snap = .pullRemote)
    (ran : (pullInnerSummary id force).Runs (portsOf provider) before (.ok summary) middle) :
    ∃ pulled, middle.stored id = some pulled ∧ pulled.Mirrors snap ∧
      (∃ undo, (middle.record id).bind TaskRecord.newestPrePull = some undo ∧ undo.Holds task) ∧
      Supersedes (supersededInboundFields snap task) task pulled ∧
      summary.note = pullNote task snap .pullRemote ∧
      ∀ {again : Provider} {force : Bool} {after : Database} {result},
        Fetches again middle pulled snap →
        (pullInnerSummary id force).Runs (portsOf again) middle result after →
        pullDecision force pulled snap = .noop ∧
        (∀ summary, result = .ok summary → summary.decision = .noop) ∧
        ∃ last, after.stored id = some last ∧ SameMirror pulled last ∧
          (pullRewires again middle pulled = [] →
            last.syncedBaseline = pulled.syncedBaseline) := by
  obtain ⟨outcome, last, ranOutcome, same, rfl⟩ := runs_bind_ok.mp ran
  cases same
  obtain ⟨⟨record, found, converged⟩, note⟩ :=
    runs_pullOutcome_adopts stored fetches decides ranOutcome
  have sameId : task.id = id := Database.stored_id stored
  rw [sameId] at found
  have shows := converged.shows
  obtain ⟨undo, undoFound, holds, _⟩ := converged.undo
  refine ⟨record.load, congrArg (Option.map TaskRecord.load) found, ?_,
    ⟨undo, by rw [found]; exact undoFound, holds⟩, supersededInboundFields_supersedes shows, note,
    fun fetches ran => ?_⟩
  · refine ⟨shows.title, shows.body, fun login => by rw [shows.assignees], ?_, shows.sync⟩
    unfold Task.isOpen
    rw [shows.lifecycle, isOpen_remoteStateToLifecycle]
  · exact ⟨converged.decides_noop _, runs_pull_converged sameId found converged fetches ran⟩

def closedIssue : RemoteTaskSnapshot :=
  ⟨"8", none, "remote", "", true, .epoch, ["ann", "bob"], []⟩

def closingProvider : Provider
  | .fetchRemote .. => .ok closedIssue
  | op => parentProvider op

theorem pull_converges_editedNeighbor : ∃ task summary pulled,
    editedNeighbor.stored ⟨2⟩ = some task ∧ task.sync = .dirtyLocal ∧
    (pullInnerSummary ⟨2⟩ false).Runs (portsOf closingProvider) editedNeighbor (.ok summary)
      (after closingProvider .epoch (pullInnerSummary ⟨2⟩ false) editedNeighbor) ∧
    pulled.Mirrors closedIssue ∧
    Supersedes (supersededInboundFields closedIssue task) task pulled := by
  obtain ⟨summary, ran⟩ := runs_portsOf_of_ok (show (ending closingProvider .epoch
    (pullInnerSummary ⟨2⟩ false) editedNeighbor).1.isOk = true by decide)
  obtain ⟨task, stored, dirty, fetches, decides⟩ : ∃ task, editedNeighbor.stored ⟨2⟩ = some task ∧
      task.sync = .dirtyLocal ∧ Fetches closingProvider editedNeighbor task closedIssue ∧
      pullDecision false task closedIssue = .pullRemote :=
    ⟨_, rfl, by decide, ⟨"github.com/acme/one", "8", by decide, rfl⟩, by decide⟩
  obtain ⟨pulled, _, mirrors, _, supersedes, _⟩ := pull_converges stored fetches decides ran
  exact ⟨task, summary, pulled, stored, dirty, ran, mirrors, supersedes⟩

end RepoLink
