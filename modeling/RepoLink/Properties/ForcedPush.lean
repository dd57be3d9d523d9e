import RepoLink.Properties.DrainPass
import RepoLink.Properties.Rebaseline
import RepoLink.Properties.RemoteIdentity
import RepoLink.Sync.CarriedCalls
import RepoLink.Sync.Service

/-!
A forced push out of `Conflict`: when the local content becomes the resolution, and when the
confirmation refuses after the update has gone out.
-/

namespace RepoLink

open Effects Program SyncService

def Database.admits (database : Database) (task : Task) : Bool :=
  !database.tasks.hashTaken task && database.references task && decide task.relations.Nodup &&
    database.tasks.relationsResolve task && !database.tasks.mappingTaken task

theorem TaskTable.writeTaskInTx_isOk (references : Task → Bool) (instant : Timestamp)
    (source : SnapshotSource) (task : Task) (tasks : TaskTable) :
    (tasks.writeTaskInTx references instant source task).isOk =
      (!tasks.hashTaken task && references task && decide task.relations.Nodup &&
        tasks.relationsResolve task && !tasks.mappingTaken task) := by
  unfold writeTaskInTx
  cases tasks.hashTaken task
  · cases references task
    · rfl
    · by_cases distinct : task.relations.Nodup
      · cases resolve : tasks.relationsResolve task
        · simp [distinct]; rfl
        · cases mapped : tasks.mappingTaken task <;> simp [distinct] <;> rfl
      · simp [distinct]; rfl
  · rfl

theorem Database.saveAll_admits (database : Database) (instant : Timestamp) (write : TaskWrite) :
    (database.saveAll instant [write] []).isOk = database.admits write.task := by
  unfold admits
  rw [← TaskTable.writeTaskInTx_isOk database.references instant write.source]
  unfold saveAll
  simp only [writeTasks]
  cases database.tasks.writeTaskInTx database.references instant write.source write.task <;> rfl

theorem Task.confirm_full {now : Timestamp} {task : Task} {prior : TaskSnapshot}
    (conflict : task.sync = .conflict) (held : task.syncedBaseline = some prior) :
    ∃ syncedBaseline, (task.confirmSyncedFields now .push task.fullMirrorPatch).attempt =
      .ok { task with syncedBaseline, sync := .synced, updatedAt := now } := by
  have confirms : task.confirmSyncedFields now .push task.fullMirrorPatch = (.ok (),
      (task.rebased now .push task.fullMirrorPatch prior).reconcileDirtyAgainstBaseline) := by
    unfold confirmSyncedFields confirmable
    rw [conflict, held]
    rfl
  have rebaselined := reconcile_rebaselined now .push task.fullMirrorPatch prior task
  have aligned : (task.rebased now .push task.fullMirrorPatch
      prior).reconcileDirtyAgainstBaseline.sync = .synced := by
    have empty : (task.rebased now .push task.fullMirrorPatch
        prior).reconcileDirtyAgainstBaseline.diffAgainstBaseline.isEmpty = true := by
      unfold MirrorPatch.isEmpty
      rw [rebaselined.diffTitle, rebaselined.diffBody, rebaselined.diffStatus,
        rebaselined.diffAssignees, rebaselined.title, rebaselined.body, rebaselined.lifecycle,
        rebaselined.assignees]
      simp [fullMirrorPatch, assigneesEqual_self]
    rw [rebaselined.sync, empty, if_pos rfl]
  refine ⟨some (mergeBaseline .push task.fullMirrorPatch prior), ?_⟩
  rw [confirms]
  exact congrArg Except.ok (by rw [rebaselined.frame, aligned])

theorem Task.confirm_baseless {now : Timestamp} {task : Task}
    (conflict : task.sync = .conflict) (baseless : task.syncedBaseline = none) :
    ∃ error, (task.confirmSyncedFields now .push task.fullMirrorPatch).attempt = .error error := by
  unfold confirmSyncedFields confirmable
  rw [conflict, baseless]
  exact ⟨_, rfl⟩

def PortOp.comments : PortOp → Bool
  | .provider (.createComment ..) => true
  | .store (.markCommentsPushed ..) => true
  | _ => false

def PortOp.updatesRemote : PortOp → Bool
  | .provider (.updateRemote _) => true
  | _ => false

structure LocalWins (task last : Task) : Prop where
  synced : last.sync = .synced
  title : last.title = task.title
  body : last.body = task.body
  lifecycle : last.lifecycle = task.lifecycle
  assignees : last.assignees = task.assignees
  baseline : ∃ baseline, last.syncedBaseline = some baseline ∧ baseline.title = last.title ∧
    baseline.body = last.body ∧ baseline.lifecycle = last.lifecycle ∧
    baseline.assignees = last.assignees

theorem LocalWins.of_sansComments {task last last' : Task} (wins : LocalWins task last)
    (same : { last' with comments := [] } = { last with comments := [] }) :
    LocalWins task last' := by
  obtain ⟨synced, title, body, lifecycle, assignees, baseline⟩ := wins
  cases last
  cases last'
  cases same
  exact ⟨synced, title, body, lifecycle, assignees, baseline⟩

def SameButComments (before after : Journal) : Prop := ∀ id,
  (after.1.stored id).map (fun task => { task with comments := [] }) =
    (before.1.stored id).map fun task => { task with comments := [] }

theorem Database.stored_changedComments (change : CommentTable → CommentTable) (target id : TaskId)
    (database : Database) :
    ((database.updateRecord target
      (fun record => { record with comments := change record.comments })
      fun _ => rfl).stored id).map (fun task => { task with comments := [] }) =
      (database.stored id).map fun task => { task with comments := [] } := by
  have found : (database.updateRecord target
      (fun record => { record with comments := change record.comments }) fun _ => rfl).record id =
        if id = target then (database.record id).map fun record =>
          { record with comments := change record.comments } else database.record id :=
    record_updateRecord target _ _ database id
  unfold stored
  rw [found]
  by_cases same : id = target
  · rw [if_pos same]
    cases database.record id <;> rfl
  · rw [if_neg same]

theorem carriedOut_sameButComments {op : PortOp} (comments : op.comments = true)
    {before after : Journal} {answer : op.Answer} (answered : carriedOut op before answer after) :
    SameButComments before after := by
  intro id
  cases op with
  | provider op =>
      cases op with
      | createComment => rw [answered.1]
      | _ => cases comments
  | store op =>
      cases op with
      | markCommentsPushed target drained pushed =>
          obtain ⟨⟨instant, performed⟩, _⟩ := answered
          rw [StoreOp.perform_commentChange rfl performed]
          exact Database.stored_changedComments _ target id before.1
      | _ => cases comments
  | _ => cases comments

theorem drainComments_comments (taskId : TaskId) (canonical : String) (current : RemoteRef)
    (task : Task) :
    (drainComments taskId canonical current task).Every fun op : PortOp => op.comments = true := by
  refine every_foldEach (fun _ comment => ?_) _ _
  unfold drainComment
  split
  · trivial
  · exact every_bind (@every_remote _ _ _ (.createComment ..) rfl) fun pushed =>
      @every_query _ _ _ (.markCommentsPushed ..) rfl

theorem strict_done {ε α : Type} (value : α) : Strict (.done value : Service ε α) := trivial

theorem drainComments_strict (taskId : TaskId) (canonical : String) (current : RemoteRef)
    (task : Task) : Strict (drainComments taskId canonical current task) := by
  refine Strict.foldEach (fun _ comment => ?_) _ _
  unfold drainComment
  split
  · trivial
  · exact (strict_remote _).bind fun pushed => strict_query _

theorem carried_calls {ε α : Type} {program : Service ε α} {before after : Journal}
    {outcome : Except ε α} (ran : program.Runs carriedOut before outcome after) :
    ∃ later, after.2 = before.2 ++ later := by
  induction program generalizing before with
  | done | fail => exact ⟨[], by rw [ran.2, List.append_nil]⟩
  | call op next ih =>
      obtain ⟨answer, middle, answered, rest⟩ := ran
      obtain ⟨later, calls⟩ := ih answer rest
      exact ⟨_, by rw [calls, carriedOut_calls answered, List.append_assoc]⟩

theorem carried_saveTask {basis task : Task} {source : SnapshotSource} {before after : Journal}
    {outcome : Except SyncError Unit}
    (ran : (saveTask basis task source []).Runs carriedOut before outcome after) :
    (before.1.admits task = true ∧ outcome = .ok () ∧
        ∃ instant, before.1.saveAll instant [⟨some basis, task, source⟩] [] = .ok after.1) ∨
      (before.1.admits task = false ∧ ∃ error, outcome = .error error) := by
  obtain ⟨instant, answer, performed, rfl, _⟩ := carried_query ran
  have admitted := before.1.saveAll_admits instant ⟨some basis, task, source⟩
  change StoreOp.committing _ before.1 = _ at performed
  cases saved : before.1.saveAll instant [⟨some basis, task, source⟩] [] with
  | ok database =>
      rw [saved] at performed admitted
      obtain ⟨rfl, rfl⟩ := Prod.mk.inj performed
      exact .inl ⟨admitted.symm, rfl, instant, saved⟩
  | error error =>
      rw [saved] at performed admitted
      obtain ⟨rfl, _⟩ := Prod.mk.inj performed
      exact .inr ⟨admitted.symm, _, rfl⟩

theorem Database.saved_localWins {instant : Timestamp} {basis task : Task}
    {syncedBaseline : Option TaskSnapshot} {updatedAt : Timestamp} {before after : Database}
    (saved : before.saveAll instant
      [⟨basis, { task with syncedBaseline, sync := .synced, updatedAt }, .push⟩] [] = .ok after) :
    ∃ last, after.stored task.id = some last ∧ LocalWins task last := by
  have recorded := Database.saveAll_single saved task.id
  rw [if_pos rfl] at recorded
  refine ⟨_, congrArg (Option.map TaskRecord.load) recorded, ?_⟩
  have baseline := @TaskRecord.write_baseline instant .push
    { task with syncedBaseline, sync := .synced, updatedAt } rfl (before.record task.id)
  have columns := TaskRecord.write_row_columns instant .push
    { task with syncedBaseline, sync := .synced, updatedAt } (before.record task.id)
  obtain ⟨sync, _, _, _, _, title, body, lifecycle, assignees, _⟩ := columns
  exact ⟨sync, title, body, lifecycle, assignees, _, baseline, title.symm, body.symm,
    lifecycle.symm, assignees.symm⟩

theorem sendPatch_full (task : Task) (canonical remoteId : String) : ∃ update,
    sendPatch (buildUpdateFromPatch task.fullMirrorPatch canonical remoteId) =
      (remote (.updateRemote update)).bind fun _ => .done () := ⟨_, rfl⟩

/-- The snapshot axis of a forced push whose update is accepted. -/
theorem carried_pushSnapshot {task : Task} {canonical : String} {current : RemoteRef}
    {before after : Journal} {outcome : Except SyncError Task} (conflict : task.sync = .conflict)
    (ran : (pushSnapshot task task.fullMirrorPatch canonical current).Runs carriedOut before outcome
      after)
    (accepted : ∀ call ∈ after.2, call.1.updatesRemote = true → declined call = false) :
    ((∃ pushed, outcome = .ok pushed) ∧
        (task.syncedBaseline.isSome = true ∧ before.1.admits task = true) ∧
        ∃ last, after.1.stored task.id = some last ∧ LocalWins task last) ∨
      (∃ error, outcome = .error error) ∧
        ¬(task.syncedBaseline.isSome = true ∧ before.1.admits task = true) := by
  obtain ⟨update, sends⟩ := sendPatch_full task canonical current.remoteId
  rw [pushSnapshot, sends] at ran
  obtain ⟨answer, sent, ⟨same, called⟩, ran⟩ := ran
  obtain ⟨later, calls⟩ := carried_calls ran
  have taken : declined ⟨.provider (.updateRemote update), answer⟩ = false :=
    accepted _ (by rw [calls, called]; simp) rfl
  cases answer with
  | error error => cases taken
  | ok snap =>
      obtain ⟨(now : Timestamp), clocked, ⟨kept, _⟩, ran⟩ := ran
      change Program.Runs carriedOut
        ((settled (task.confirmSyncedFields now .push task.fullMirrorPatch).attempt).bind
          fun confirmed => (saveTask task confirmed .push []).bind fun _ => .done confirmed)
        clocked outcome after at ran
      cases held : task.syncedBaseline with
      | none =>
          obtain ⟨error, refused⟩ := @Task.confirm_baseless now task conflict held
          rw [refused] at ran
          exact .inr ⟨⟨_, ran.1⟩, fun both => Bool.false_ne_true both.1⟩
      | some prior =>
          obtain ⟨syncedBaseline, confirmed⟩ := @Task.confirm_full now task prior conflict held
          rw [confirmed] at ran
          change Program.Runs carriedOut ((saveTask task
            { task with syncedBaseline, sync := .synced, updatedAt := now } .push []).bind
              fun _ => .done _) clocked outcome after at ran
          have admits : clocked.1.admits
              { task with syncedBaseline, sync := .synced, updatedAt := now } =
                before.1.admits task := by rw [kept, same]; rfl
          rcases runs_bind.mp ran with ⟨_, saved, ranSave, ran⟩ | ⟨error, failed, rfl⟩
          · obtain ⟨admitted, _, instant, saves⟩ | ⟨_, _, refused⟩ := carried_saveTask ranSave
            · refine .inl ⟨⟨_, ran.1⟩, ⟨rfl, admits.symm.trans admitted⟩, ?_⟩
              rw [ran.2]
              exact Database.saved_localWins saves
            · cases refused
          · obtain ⟨_, completed, _⟩ | ⟨refused, _⟩ := carried_saveTask failed
            · cases completed
            · exact .inr ⟨⟨error, rfl⟩, fun both =>
                Bool.false_ne_true (refused.symm.trans (admits.trans both.2))⟩

/-- The push has ended with the local content as the resolution. -/
structure PushResolves (task : Task) (result : Except SyncError (Task × SyncDecision))
    (after : Journal) : Prop where
  ok : result.isOk = true
  wins : ∃ last, after.1.stored task.id = some last ∧ LocalWins task last
  late : result.isOk = false → ∀ call ∈ after.2, call.1.updatesRemote = false

def PortOp.silent (op : PortOp) : Prop := op.comments = false ∧ op.updatesRemote = false

theorem requiredFilingCanonical_silent (task : Task) :
    (requiredFilingCanonical task).Every PortOp.silent := by
  refine requiredFilingCanonical_every (fun op locates => ?_) task
  cases op with
  | markCommentsPushed => cases locates
  | _ => exact ⟨rfl, rfl⟩

theorem pushSnapshot_comments (task : Task) (patch : MirrorPatch) (canonical : String)
    (current : RemoteRef) : (pushSnapshot task patch canonical current).Every
      fun op : PortOp => op.comments = false := by
  have sends : ∀ update, (sendPatch update).Every fun op : PortOp => op.comments = false := by
    intro update
    cases update with
    | none => trivial
    | some update =>
        exact every_bind (@every_remote _ _ _ (.updateRemote update) rfl) fun _ => trivial
  refine every_bind (sends _) fun _ => every_bind (every_clock rfl) fun now => ?_
  refine every_bind ?_ fun confirmed =>
    every_bind (@every_query _ _ _ (.saveAll ..) rfl) fun _ => trivial
  cases (task.confirmSyncedFields now .push patch).attempt <;> trivial

/-- A forced push of a conflict, once the filing repo is known. -/
theorem carried_forcedPush {task : Task} {canonical : String} {current : RemoteRef}
    {before after : Journal} {outcome : Except SyncError (Task × SyncDecision)}
    (conflict : task.sync = .conflict)
    (unsent : ∀ call ∈ before.2, call.1.silent)
    (ran : ((pushSnapshot task task.fullMirrorPatch canonical current).bind fun pushed =>
      (drainComments task.id canonical current task).bind fun _ =>
        .done (pushed, SyncDecision.pushLocal)).Runs carriedOut before outcome after)
    (accepted : ∀ call ∈ after.2, call.1.updatesRemote = true → declined call = false) :
    PushResolves task outcome after ↔ (task.syncedBaseline.isSome = true ∧
      before.1.admits task = true) ∧ ∀ call ∈ after.2, call.1.comments = true →
        declined call = false := by
  rcases runs_bind.mp ran with ⟨pushed, middle, ranPush, ran⟩ | ⟨error, failed, rfl⟩
  · obtain ⟨drained, drainedCalls⟩ := carried_calls ran
    obtain ⟨_, both, last, storedLast, wins⟩ | ⟨⟨_, refused⟩, _⟩ :=
      carried_pushSnapshot conflict ranPush fun call member =>
        accepted call (drainedCalls ▸ List.mem_append_left _ member)
    swap
    · cases refused
    obtain ⟨snapshot, snapshotCalls, quiet⟩ :=
      (Calls.ofEvery (pushSnapshot_comments task _ canonical current) ranPush).calls
    have plain : ∀ call ∈ middle.2, call.1.comments = false := by
      rw [snapshotCalls]
      exact List.forall_mem_append.mpr ⟨fun call member => (unsent call member).1, quiet⟩
    obtain ⟨posted, postedCalls, ended⟩ := ((drainComments_strict task.id canonical current
      task).bind fun _ => strict_done (pushed, SyncDecision.pushLocal)).runs ran
    have drains := every_bind (drainComments_comments task.id canonical current task)
      fun _ => every_done (S := ports) (ε := SyncError) (pushed, SyncDecision.pushLocal)
    obtain ⟨posted', postedCalls', commenting⟩ := (Calls.ofEvery drains ran).calls
    obtain rfl : posted = posted' :=
      List.append_cancel_left (postedCalls.symm.trans postedCalls')
    have succeeds : outcome.isOk = true ↔
        ∀ call ∈ after.2, call.1.comments = true → declined call = false := by
      rw [ended, postedCalls, List.forall_mem_append]
      exact ⟨fun all => ⟨fun call member comments => absurd (plain call member)
          (by simp [comments]), fun call member _ => all call member⟩,
        fun all call member => all.2 call member (commenting call member)⟩
    have same : SameButComments middle after := drains.runs SameButComments (fun _ _ => rfl)
      (fun earlier later id => (later id).trans (earlier id))
      (fun _ comments _ _ _ => carriedOut_sameButComments comments) ran
    have storedAfter := same task.id
    rw [storedLast] at storedAfter
    obtain ⟨last', storedLast', sameTask⟩ := Option.map_eq_some_iff.mp storedAfter
    refine ⟨fun resolved => ⟨both, succeeds.mp resolved.ok⟩, fun met => ?_⟩
    have ok := succeeds.mpr met.2
    exact ⟨ok, ⟨last', storedLast', wins.of_sansComments sameTask⟩,
      fun failed => absurd (failed.symm.trans ok) Bool.false_ne_true⟩
  · obtain ⟨⟨_, completed⟩, _⟩ | ⟨_, unmet⟩ := carried_pushSnapshot conflict failed accepted
    · cases completed
    · exact iff_of_false (fun resolved => Bool.false_ne_true resolved.ok) fun met => unmet met.1

/-- A conflict is resolved by a forced push exactly if the task has a baseline to confirm against
(a bare link of a task without one has none), its filing repo resolves, its row can be stored, and
its pending comments go through. -/
theorem forced_push_resolves_iff {database : Database} {id : TaskId} {task : Task}
    (stored : database.stored id = some task) (conflict : task.sync = .conflict)
    (backed : task.remote.isSome = true) {result : Except SyncError (Task × SyncDecision)}
    {after : Journal} (ran : (pushAcceptLocal id).Runs carriedOut (database, []) result after)
    (accepted : ∀ call ∈ after.2, call.1.updatesRemote = true → declined call = false) :
    PushResolves task result after ↔ task.syncedBaseline.isSome = true ∧
      (database.filingCanonical task).isSome = true ∧ database.admits task = true ∧
      ∀ call ∈ after.2, call.1.comments = true → declined call = false := by
  obtain rfl : task.id = id := Database.stored_id stored
  obtain ⟨current, remote⟩ := Option.isSome_iff_exists.mp backed
  have loads : (StoreOp.getTask task.id).answer database = .ok task := by
    change database.getTask task.id = _
    unfold Database.getTask
    rw [stored]
    rfl
  unfold pushAcceptLocal pushInner at ran
  rcases runs_bind.mp ran with ⟨loaded, first, ranLoad, ran⟩ | ⟨error, failed, rfl⟩
  swap
  · have answered := (carried_read rfl failed).1
    rw [loads] at answered
    cases answered
  obtain ⟨answered, same⟩ := carried_read rfl ranLoad
  rw [loads] at answered
  cases answered
  rcases runs_bind.mp ran with ⟨canonical, filed, ranFiling, ran⟩ | ⟨error, failed, rfl⟩
  swap
  · obtain ⟨_, ⟨_, _, completed⟩ | ⟨missing, _⟩⟩ := carried_requiredFilingCanonical failed
    · cases completed
    · rw [same] at missing
      refine iff_of_false (fun resolved => Bool.false_ne_true resolved.ok) fun met => ?_
      rw [missing] at met
      exact Bool.false_ne_true met.2.1
  obtain ⟨kept, ⟨_, found, _⟩ | ⟨_, _, refused⟩⟩ := carried_requiredFilingCanonical ranFiling
  swap
  · cases refused
  simp only [remote, conflict, decide_true, Bool.and_self, Bool.or_true, Bool.not_true,
    Bool.false_and, if_true, patchToPush] at ran
  rw [if_neg Bool.false_ne_true] at ran
  have unsent : ∀ call ∈ filed.2, call.1.silent := by
    obtain ⟨looked, lookedCalls, lookedSilent⟩ :=
      (Calls.ofEvery (requiredFilingCanonical_silent task) ranFiling).calls
    obtain ⟨read, readCalls, readSilent⟩ :=
      (Calls.ofEvery (@every_query _ _ PortOp.silent (.getTask task.id) ⟨rfl, rfl⟩) ranLoad).calls
    rw [lookedCalls, readCalls]
    exact List.forall_mem_append.mpr ⟨readSilent, lookedSilent⟩
  rw [carried_forcedPush conflict unsent ran accepted, kept, same]
  rw [same] at found
  exact ⟨fun met => ⟨met.1.1, Option.isSome_of_mem found, met.1.2, met.2⟩,
    fun met => ⟨⟨met.1, met.2.2.1⟩, met.2.2.2⟩⟩

def acceptingProvider : Provider
  | .updateRemote update => .ok ⟨update.remoteId, none, "t", "", false, .epoch, [], []⟩
  | op => browsingProvider op

def carryingHandler : Handler ports (Scene × List (Call ports)) := fun op state =>
  let (answer, scene) := portHandler acceptingProvider .epoch op state.1
  (answer, scene, state.2 ++ [⟨op, answer⟩])

theorem carryingHandler_sound (op : PortOp) (state : Scene × List (Call ports)) :
    carriedOut op (journal state) (carryingHandler op state).1
      (journal (carryingHandler op state).2) := by
  cases op with
  | store op => exact ⟨⟨.epoch, rfl⟩, rfl⟩
  | freshTaskId => exact ⟨portHandler_sound acceptingProvider .epoch .freshTaskId state.1, rfl⟩
  | _ => exact ⟨rfl, rfl⟩

def forcedPush (database : Database) :
    Except SyncError (Task × SyncDecision) × Scene × List (Call ports) :=
  (pushAcceptLocal ⟨1⟩).exec carryingHandler (⟨database, 0⟩, [])

theorem forcedPush_ran (database : Database) :
    (pushAcceptLocal ⟨1⟩).Runs carriedOut (database, []) (forcedPush database).1
      (journal (forcedPush database).2) :=
  @exec_runs _ _ _ _ _ carriedOut _ journal carryingHandler_sound (pushAcceptLocal ⟨1⟩)
    (⟨database, 0⟩, [])

def linkedDraft : Database :=
  ran (SyncService.link ⟨1⟩ "github.com/acme/one" "5" false) (createdIn ⟨21⟩ "a" twoRepos)

def linkedMirror : Database :=
  ran (SyncService.link ⟨1⟩ "github.com/acme/two" "5" false)
    (ran (SyncService.promote ⟨1⟩) (createdIn ⟨21⟩ "a" twoRepos))

/-- The update is sent and accepted, then the confirmation refuses: the task is still a conflict. -/
theorem forced_push_of_link_fails : ∃ task result last, linkedDraft.stored ⟨1⟩ = some task ∧
    task.sync = .conflict ∧ task.remote.isSome = true ∧
    (pushAcceptLocal ⟨1⟩).Runs carriedOut (linkedDraft, []) result last ∧
    (∀ call ∈ last.2, declined call = false) ∧ (∃ call ∈ last.2, call.1.updatesRemote = true) ∧
    result.isOk = false ∧ ¬PushResolves task result last := by
  have failed : (forcedPush linkedDraft).1.isOk = false := by decide
  refine ⟨_, _, _, rfl, by decide, by decide, forcedPush_ran linkedDraft, by decide, by decide,
    failed, fun resolved => ?_⟩
  exact Bool.false_ne_true (failed.symm.trans resolved.ok)

theorem forced_push_resolves_iff_mirror : ∃ task, linkedMirror.stored ⟨1⟩ = some task ∧
    PushResolves task (forcedPush linkedMirror).1 (journal (forcedPush linkedMirror).2) := by
  refine ⟨_, rfl, (forced_push_resolves_iff rfl (by decide) (by decide)
    (forcedPush_ran linkedMirror) (by decide)).mpr (by decide)⟩

end RepoLink
