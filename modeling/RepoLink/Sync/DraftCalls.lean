import RepoLink.Library.Crash
import RepoLink.Ports.Entries
import RepoLink.Sync.StampCalls

/-!
A drain with an eye on one draft: what was sent for it last, against what is stored. Only the arm
that updates the draft succeeds an entry that edits it, and that arm sends the stored text.
-/

namespace RepoLink

open Effects Program

structure DraftRef where
  taskId : TaskId
  item : String
deriving DecidableEq, Repr

structure DraftBook where
  claimed : Option OutboxEntry
  sent : String × String
deriving DecidableEq, Repr

namespace DraftBook

def works (draft : DraftRef) (book : DraftBook) : Bool :=
  book.claimed.any fun entry => entry.taskId = draft.taskId

/-- A request for the item, made for an entry of its task, counts once it has succeeded. -/
def send (draft : DraftRef) (item title body : String) (book : DraftBook) : DraftBook :=
  if book.works draft && item = draft.item then { book with sent := (title, body) } else book

def note (draft : DraftRef) (op : PortOp) (answer : op.Answer) (book : DraftBook) : DraftBook :=
  match op, answer with
  | .store (.claimNextEligible _), .ok claimed => { book with claimed }
  | .provider (.createDraftIssue _ title body), .ok minted => book.send draft minted title body
  | .provider (.updateDraftIssue item (some title) (some body)), .ok _ =>
    book.send draft item title body
  | _, _ => book

end DraftBook

abbrev DraftWorld := Database × DraftBook

def drafted (draft : DraftRef) : Semantics ports DraftWorld := fun op before answer after =>
  portMeaning op before.1 answer after.1 ∧ after.2 = before.2.note draft op answer

theorem undrafted {ε α : Type} {draft : DraftRef} {program : Service ε α}
    {before after : DraftWorld} {result : Except ε α}
    (ran : program.Runs (drafted draft) before result after) :
    program.Runs portMeaning before.1 result after.1 :=
  @Runs.project _ _ _ _ _ (drafted draft) portMeaning Prod.fst (fun _ _ _ _ => And.left) _ _ _ _ ran

def Task.draftText (task : Task) : String × String := (task.title, task.body)

def OutboxMutation.updatesDraft : OutboxMutation → Option String
  | .updateDraftIssue itemNodeId _ _ => some itemNodeId
  | _ => none

/-- An `UpdateDraftIssue` entry of the draft that has not been applied successfully. -/
def Database.DraftUpdateWaits (database : Database) (draft : DraftRef) : Prop :=
  ∃ id entry, database.entry id = some entry ∧ entry.taskId = draft.taskId ∧
    entry.mutation.updatesDraft = some draft.item ∧ entry.status ≠ .succeeded

/-- The draft is stored with this text, was never confirmed, and the text was sent or waits. -/
structure KeepsDraft (draft : DraftRef) (text : String × String) (world : DraftWorld) : Prop where
  stored : ∃ task, world.1.stored draft.taskId = some task ∧ task.draftText = text ∧
    task.projectItemId.isSome = true ∧ task.syncedBaseline = none
  covered : text = world.2.sent ∨ world.1.DraftUpdateWaits draft

structure AppliesEntry (draft : DraftRef) (text : String × String) (entry : OutboxEntry)
    (world : DraftWorld) : Prop extends KeepsDraft draft text world where
  claimed : world.2.claimed = some entry
  row : ∃ stored, world.1.entry entry.id = some stored ∧ stored.taskId = entry.taskId ∧
    stored.mutation = entry.mutation

def DraftRef.Shows (draft : DraftRef) (text : String × String) (task : Task) : Prop :=
  task.id = draft.taskId → task.draftText = text ∧ task.projectItemId.isSome = true

def DraftRef.Admits (draft : DraftRef) (text : String × String) (write : TaskWrite) : Prop :=
  draft.Shows text write.task ∧ (write.task.id = draft.taskId → write.source = .localEdit)

def PortOp.sparesDraft (draft : DraftRef) (text : String × String) : PortOp → Prop
  | .store (.saveAll writes _) => ∃ write, writes = [write] ∧ draft.Admits text write
  | .store (.claimNextEligible _) | .store (.markSucceeded _) | .store (.deletePendingAddItems _) =>
    False
  | .provider (.createDraftIssue ..) | .provider (.updateDraftIssue ..) => False
  | _ => True

section Calls

variable {draft : DraftRef} {text : String × String} {entry : OutboxEntry} {op : PortOp}

theorem PortOp.sparesDraft_reads {op : StoreOp} (reads : op.reads = true) :
    (PortOp.store op).sparesDraft draft text := by
  cases op <;> trivial

theorem PortOp.sparesDraft_note (spares : op.sparesDraft draft text) (answer : op.Answer)
    (book : DraftBook) : book.note draft op answer = book := by
  cases op with
  | store op => cases op <;> first | rfl | exact spares.elim
  | provider op => cases op <;> first | rfl | exact spares.elim
  | _ => rfl

theorem entry_moves (kept : ∀ taskId, op ≠ .store (.deletePendingAddItems taskId))
    {before after : Database} {answer : op.Answer} (performed : portMeaning op before answer after)
    {id : OutboxEntryId} {stored : OutboxEntry} (found : before.entry id = some stored) :
    ∃ next, after.entry id = some next ∧ next.taskId = stored.taskId ∧
      next.mutation = stored.mutation ∧ (stored.status ≠ .succeeded →
        next.status = .succeeded → op = .store (.markSucceeded id)) := by
  have unchanged : after = before → ∃ next, after.entry id = some next ∧
      next.taskId = stored.taskId ∧ next.mutation = stored.mutation ∧
      (stored.status ≠ .succeeded → next.status = .succeeded → op = .store (.markSucceeded id)) :=
    fun same => ⟨stored, same ▸ found, rfl, rfl, fun open_ done => (open_ done).elim⟩
  cases op with
  | store op =>
      rcases performed with ⟨instant, performed⟩ | ⟨_, _, same⟩
      · obtain ⟨next, still, sameTask, sameMutation, step⟩ := StoreOp.perform_entry performed
          (fun taskId same => kept taskId (congrArg PortOp.store same)) found
        refine ⟨next, still, sameTask, sameMutation, fun open_ done => ?_⟩
        cases step with
        | same unmoved => exact (open_ (unmoved ▸ done)).elim
        | claimed _ _ is => rw [is] at done; cases done
        | requeued _ _ is => rw [is] at done; cases done
        | resolved names =>
            rw [done, OutboxTable.entry_id found] at names
            cases op <;> cases names
            rfl
      · exact unchanged same
  | freshTaskId => exact unchanged performed.2
  | _ => exact unchanged performed

theorem Database.DraftUpdateWaits.kept {before after : Database} {answer : op.Answer}
    (waits : before.DraftUpdateWaits draft)
    (kept : ∀ taskId, op ≠ .store (.deletePendingAddItems taskId))
    (open_ : ∀ id stored, op = .store (.markSucceeded id) → before.entry id = some stored →
      stored.taskId = draft.taskId → stored.mutation.updatesDraft ≠ some draft.item)
    (performed : portMeaning op before answer after) : after.DraftUpdateWaits draft := by
  obtain ⟨id, stored, found, owner, updates, unapplied⟩ := waits
  obtain ⟨next, still, sameTask, sameMutation, moves⟩ := entry_moves kept performed found
  refine ⟨id, next, still, sameTask.trans owner, sameMutation ▸ updates, fun done => ?_⟩
  exact open_ id stored (moves unapplied done) found owner updates

theorem TaskRecord.write_localEdit_baseline (instant : Timestamp) (task : Task)
    (record : TaskRecord) : (write instant .localEdit task (some record)).load.syncedBaseline =
      record.load.syncedBaseline := by
  have appended := SnapshotLog.latestBaseline_append (snapshotRow instant .localEdit task)
    record.snapshots
  exact appended.trans (if_neg Bool.false_ne_true)

theorem TaskRecord.retouch_draft (op : StoreOp) (record : TaskRecord) :
    (op.retouch record).load.draftText = record.load.draftText ∧
      (op.retouch record).load.projectItemId = record.load.projectItemId ∧
      (op.retouch record).load.syncedBaseline = record.load.syncedBaseline := by
  cases op <;> exact ⟨rfl, rfl, rfl⟩

theorem PortOp.sparesDraft_stored (spares : op.sparesDraft draft text) {before after : Database}
    {answer : op.Answer} (performed : portMeaning op before answer after) {task : Task}
    (stored : before.stored draft.taskId = some task) (shown : task.draftText = text)
    (item : task.projectItemId.isSome = true) (unconfirmed : task.syncedBaseline = none) :
    ∃ next, after.stored draft.taskId = some next ∧ next.draftText = text ∧
      next.projectItemId.isSome = true ∧ next.syncedBaseline = none := by
  have unchanged : after = before → ∃ next, after.stored draft.taskId = some next ∧
      next.draftText = text ∧ next.projectItemId.isSome = true ∧ next.syncedBaseline = none :=
    fun same => ⟨task, same ▸ stored, shown, item, unconfirmed⟩
  cases op with
  | store op =>
      rcases performed with ⟨instant, performed⟩ | ⟨_, _, same⟩
      · obtain ⟨record, found, rfl⟩ := Option.map_eq_some_iff.mp stored
        rcases StoreOp.perform_record performed with ⟨writes, entries, rfl, saved⟩ | retouched
        · obtain ⟨⟨basis, copy, source⟩, rfl, shows, local_⟩ := spares
          have written := Database.saveAll_single saved draft.taskId
          unfold Database.stored
          rw [written]
          split
          · rename_i same
            obtain ⟨copyShown, copyItem⟩ := shows same.symm
            obtain rfl : source = .localEdit := local_ same.symm
            rw [← same, found]
            exact ⟨_, rfl, copyShown, copyItem,
              (TaskRecord.write_localEdit_baseline ..).trans unconfirmed⟩
          · rw [found]
            exact ⟨_, rfl, shown, item, unconfirmed⟩
        · unfold Database.stored
          rw [retouched, found]
          split
          · obtain ⟨sameText, sameItem, sameBaseline⟩ := TaskRecord.retouch_draft op record
            exact ⟨_, rfl, sameText.trans shown, sameItem ▸ item, sameBaseline.trans unconfirmed⟩
          · exact ⟨_, rfl, shown, item, unconfirmed⟩
      · exact unchanged same
  | freshTaskId => exact unchanged performed.2
  | _ => exact unchanged performed

theorem KeepsDraft.spared {before after : DraftWorld} {answer : op.Answer}
    (keeps : KeepsDraft draft text before) (spares : op.sparesDraft draft text)
    (ran : drafted draft op before answer after) :
    KeepsDraft draft text after ∧ after.2 = before.2 := by
  obtain ⟨performed, noted⟩ := ran
  rw [PortOp.sparesDraft_note spares] at noted
  obtain ⟨task, stored, shown, item, unconfirmed⟩ := keeps.stored
  refine ⟨⟨PortOp.sparesDraft_stored spares performed stored shown item unconfirmed, ?_⟩, noted⟩
  rw [noted]
  refine keeps.covered.imp_right fun waits => waits.kept ?_ ?_ performed
  · rintro taskId rfl
    exact spares
  · rintro id _ rfl _ _ _
    exact spares

theorem AppliesEntry.spared {before after : DraftWorld} {answer : op.Answer}
    (applies : AppliesEntry draft text entry before) (spares : op.sparesDraft draft text)
    (ran : drafted draft op before answer after) :
    AppliesEntry draft text entry after ∧ after.2 = before.2 := by
  obtain ⟨keeps, same⟩ := applies.toKeepsDraft.spared spares ran
  obtain ⟨stored, found, owner, mutation⟩ := applies.row
  have kept : ∀ taskId, op ≠ .store (.deletePendingAddItems taskId) := by
    rintro taskId rfl
    exact spares
  obtain ⟨next, still, sameTask, sameMutation, _⟩ := entry_moves kept ran.1 found
  exact ⟨⟨keeps, same ▸ applies.claimed, next, still, sameTask.trans owner,
    sameMutation.trans mutation⟩, same⟩

theorem AppliesEntry.asked {request : ProviderOp} {answer : (PortOp.provider request).Answer}
    {before after : DraftWorld} (applies : AppliesEntry draft text entry before)
    (unnoted : before.2.note draft (.provider request) answer = before.2)
    (ran : drafted draft (.provider request) before answer after) :
    AppliesEntry draft text entry after := by
  obtain ⟨database, book⟩ := before
  obtain ⟨base, books⟩ := after
  obtain ⟨same, noted⟩ := ran
  obtain rfl : base = database := same
  obtain rfl : books = book := noted.trans unnoted
  exact applies

theorem AppliesEntry.send_other {world : DraftWorld} (applies : AppliesEntry draft text entry world)
    (other : entry.taskId ≠ draft.taskId) (item title body : String) :
    world.2.send draft item title body = world.2 := by
  unfold DraftBook.send DraftBook.works
  rw [applies.claimed]
  simp [other]

theorem AppliesEntry.send {world : DraftWorld} (applies : AppliesEntry draft text entry world)
    (own : entry.taskId = draft.taskId) (item : String) :
    AppliesEntry draft text entry (world.1, world.2.send draft item text.1 text.2) ∧
      (item = draft.item → text = (world.2.send draft item text.1 text.2).sent) := by
  have works : world.2.works draft = true := by
    unfold DraftBook.works
    rw [applies.claimed]
    simp [own]
  unfold DraftBook.send
  rw [works, Bool.true_and]
  by_cases named : item = draft.item
  · rw [if_pos (decide_eq_true named)]
    exact ⟨⟨⟨applies.stored, .inl rfl⟩, applies.claimed, applies.row⟩, fun _ => rfl⟩
  · rw [if_neg (by simpa using named)]
    exact ⟨applies, fun same => (named same).elim⟩

theorem KeepsDraft.loaded {id : TaskId} {task : Task} {before after : DraftWorld}
    (keeps : KeepsDraft draft text before)
    (ran : drafted draft (.store (.getTask id)) before (.ok task) after) :
    before.1.stored id = some task ∧ draft.Shows text task ∧
      (task.id = draft.taskId → task.syncedBaseline = none) := by
  have stored : before.1.stored id = some task := by
    rcases ran.1 with ⟨_, performed⟩ | ⟨_, failed, _⟩
    · exact Database.getTask_ok (congrArg Prod.fst performed)
    · cases failed
  have same : task.id = draft.taskId → task.draftText = text ∧
      task.projectItemId.isSome = true ∧ task.syncedBaseline = none := by
    intro own
    obtain ⟨current, currentStored, rest⟩ := keeps.stored
    have sameId : id = draft.taskId := (Database.stored_id stored).symm.trans own
    rw [← sameId, stored] at currentStored
    exact Option.some.inj currentStored ▸ rest
  exact ⟨stored, fun own => ⟨(same own).1, (same own).2.1⟩, fun own => (same own).2.2⟩

theorem KeepsDraft.claims {now : Timestamp} {before after : DraftWorld}
    {answer : (PortOp.store (.claimNextEligible now)).Answer} (keeps : KeepsDraft draft text before)
    (ran : drafted draft (.store (.claimNextEligible now)) before answer after) :
    KeepsDraft draft text after := by
  obtain ⟨performed, noted⟩ := ran
  have tasks : after.1.tasks = before.1.tasks := by
    rcases performed with ⟨instant, performed⟩ | ⟨_, _, same⟩
    · exact congrArg (fun result => Database.tasks result.2) performed.symm
    · rw [same]
  have sameSent : after.2.sent = before.2.sent := by
    rw [noted]
    obtain error | claimed : Except PortError (Option OutboxEntry) := answer <;> rfl
  refine ⟨?_, ?_⟩
  · unfold Database.stored Database.record
    rw [tasks]
    exact keeps.stored
  · rw [sameSent]
    exact keeps.covered.imp_right fun waits => waits.kept (fun _ same => (by cases same))
      (fun _ _ same => (by cases same)) performed

theorem KeepsDraft.applies {now : Timestamp} {before after : DraftWorld}
    (keeps : KeepsDraft draft text before)
    (ran : drafted draft (.store (.claimNextEligible now)) before (.ok (some entry)) after) :
    AppliesEntry draft text entry after := by
  refine ⟨keeps.claims ran, ?_, ?_⟩
  · rw [ran.2]
    rfl
  · rcases ran.1 with ⟨instant, performed⟩ | ⟨_, failed, _⟩
    · have found := congrArg Prod.fst performed
      have stored := congrArg Prod.snd performed
      dsimp only [StoreOp.perform] at found stored
      refine ⟨entry, ?_, rfl, rfl⟩
      rw [← stored]
      exact (OutboxTable.entry_claimed (Except.ok.inj found)).1
    · cases failed

theorem AppliesEntry.succeeded {before after : DraftWorld} {answer : Except PortError Unit}
    (applies : AppliesEntry draft text entry before) (covered : entry.taskId = draft.taskId →
      entry.mutation.updatesDraft = some draft.item → text = before.2.sent)
    (ran : drafted draft (.store (.markSucceeded entry.id)) before answer after) :
    KeepsDraft draft text after := by
  obtain ⟨performed, noted⟩ := ran
  have sameBook : after.2 = before.2 := noted
  have tasks : after.1.tasks = before.1.tasks := by
    rcases performed with ⟨instant, performed⟩ | ⟨_, _, same⟩
    · exact congrArg (fun result => Database.tasks result.2) performed.symm
    · rw [same]
  refine ⟨?_, ?_⟩
  · unfold Database.stored Database.record
    rw [tasks]
    exact applies.stored
  · rw [sameBook]
    rcases applies.covered with sent | waits
    · exact .inl sent
    · by_cases updates : entry.taskId = draft.taskId ∧
          entry.mutation.updatesDraft = some draft.item
      · exact .inl (covered updates.1 updates.2)
      · refine .inr (waits.kept (fun _ same => (by cases same)) (fun id stored named found owner same => ?_)
          performed)
        cases named
        obtain ⟨row, rowFound, rowOwner, rowMutation⟩ := applies.row
        rw [found] at rowFound
        cases rowFound
        exact updates ⟨rowOwner.symm.trans owner, rowMutation ▸ same⟩

end Calls

namespace OutboxDrainer

section Programs

variable {draft : DraftRef} {text : String × String} {entry : OutboxEntry} {α : Type}
  {program : Action α} {world : DraftWorld}

theorem survives_spared (spares : program.Every (PortOp.sparesDraft draft text))
    (applies : AppliesEntry draft text entry world) :
    program.Survives (drafted draft) (KeepsDraft draft text) (fun _ later =>
      AppliesEntry draft text entry later) world := by
  refine Survives.ofEvery (AppliesEntry draft text entry) ?_ spares applies
  intro op spares before answer after applies ran
  have kept := (applies.spared spares ran).1
  exact ⟨kept.toKeepsDraft, kept⟩

theorem survives_loaded {id : TaskId} {next : Task → Action α}
    (each : ∀ task, draft.Shows text task → (task.id = draft.taskId → task.syncedBaseline = none) →
      (next task).Every (PortOp.sparesDraft draft text))
    (applies : AppliesEntry draft text entry world) :
    ((loadTask id).bind next).Survives (drafted draft) (KeepsDraft draft text) (fun _ later =>
      AppliesEntry draft text entry later) world := by
  intro answer later ran
  have reads : (PortOp.store (.getTask id)).sparesDraft draft text := trivial
  obtain ⟨kept, _⟩ := applies.spared reads ran
  refine ⟨kept.toKeepsDraft, ?_⟩
  obtain error | task : Except PortError Task := answer
  · exact kept
  · obtain ⟨_, shows, unconfirmed⟩ := applies.loaded ran
    exact survives_spared (each task shows unconfirmed) kept

theorem saveTask_spares {basis task : Task} {source : SnapshotSource}
    (admits : draft.Admits text ⟨some basis, task, source⟩) :
    (saveTask basis task source).Every (PortOp.sparesDraft draft text) :=
  @every_query _ _ _ (.saveAll ..) ⟨_, rfl, admits⟩

theorem enqueues_spares : Enqueues (PortOp.sparesDraft draft text) where
  reads _ := PortOp.sparesDraft_reads
  now := trivial
  entryId := trivial
  enqueue _ _ := trivial

theorem writeBackProjectItem_survives (itemId : String) (id : TaskId)
    (applies : AppliesEntry draft text entry world) :
    (writeBackProjectItem id itemId).Survives (drafted draft) (KeepsDraft draft text)
      (fun _ later => AppliesEntry draft text entry later) world := by
  refine survives_loaded (fun task shows _ => ?_) applies
  split
  · exact saveTask_spares ⟨fun same => ⟨(shows same).1, rfl⟩, fun _ => rfl⟩
  · trivial

theorem writeBackConvertedIssue_survives (nodeId : String) (number : Nat) (id : TaskId)
    (applies : AppliesEntry draft text entry world) :
    (writeBackConvertedIssue id nodeId number).Survives (drafted draft) (KeepsDraft draft text)
      (fun _ later => AppliesEntry draft text entry later) world :=
  survives_loaded (fun _ shows _ => saveTask_spares ⟨shows, fun _ => rfl⟩) applies

/-- What an arm leaves: an entry that updates the draft is only stamped with the text sent. -/
def DraftApplied (draft : DraftRef) (text : String × String) (entry : OutboxEntry)
    (result : Except SyncError ApplyDisposition) (world : DraftWorld) : Prop :=
  AppliesEntry draft text entry world ∧ (result = .ok .stamped → entry.taskId = draft.taskId →
    entry.mutation.updatesDraft = some draft.item → text = world.2.sent)

theorem draftApplied_of_other (other : entry.mutation.updatesDraft = none)
    (applies : AppliesEntry draft text entry world) (result : Except SyncError ApplyDisposition) :
    DraftApplied draft text entry result world :=
  ⟨applies, fun _ _ updates => nomatch other.symm.trans updates⟩

theorem applyUpdateRemote_survives (id : TaskId) (canonicalRepo remoteId : String)
    (applies : AppliesEntry draft text entry world) :
    (applyUpdateRemote id canonicalRepo remoteId).Survives (drafted draft) (KeepsDraft draft text)
      (fun _ later => AppliesEntry draft text entry later) world := by
  refine survives_loaded (fun task _ unconfirmed => ?_) applies
  split
  · trivial
  · refine every_bind ?_ fun early => ?_
    · unfold sendUpdate
      split
      · trivial
      · refine every_bind (every_callPort trivial) fun answer => ?_
        split
        · trivial
        · split <;> trivial
    · split
      · trivial
      · refine every_bind (every_clock trivial) fun now => ?_
        cases confirms : (task.confirmSyncedFields now .push task.diffAgainstBaseline).attempt with
        | error error => trivial
        | ok confirmed =>
            -- without a baseline nothing is confirmed, so this is not the draft
            obtain ⟨baseline, sync, updatedAt, frame⟩ := Task.confirmSyncedFields_frame confirms
            have other : confirmed.id ≠ draft.taskId := by
              intro same
              rw [frame] at same
              have none := unconfirmed same
              unfold Task.confirmSyncedFields at confirms
              rw [none] at confirms
              split at confirms
              · cases confirms
              · split at confirms <;> cases confirms
            have stamps : ((saveTask task confirmed .push).bind
                fun _ => .done ApplyDisposition.stamped).Every (PortOp.sparesDraft draft text) :=
              every_bind (saveTask_spares ⟨fun same => (other same).elim,
                fun same => (other same).elim⟩) fun _ => trivial
            exact stamps

theorem applyAddItem_survives (id : TaskId) (projectNodeId issueNodeId : String)
    (applies : AppliesEntry draft text entry world) :
    (applyAddItem id projectNodeId issueNodeId).Survives (drafted draft) (KeepsDraft draft text)
      (fun _ later => AppliesEntry draft text entry later) world := by
  have asks : (PortOp.provider (.addItem projectNodeId issueNodeId)).sparesDraft draft text := trivial
  refine ((survives_spared (every_callPort asks) applies).mono ?_).bind
  rintro (error | answer) asked applies
  · exact applies
  · dsimp only
    split
    · exact applies
    · split
      · exact applies
      · refine ((survives_spared (workspaceStillTargetsProject_every
          (fun _ => PortOp.sparesDraft_reads) ..) applies).mono ?_).bind
        rintro (error | targets) checked applies
        · exact applies
        · dsimp only
          split
          · refine ((writeBackProjectItem_survives _ id applies).mono ?_).bind
            rintro (error | value) written applies
            · exact applies
            · exact survives_spared (every_bind (enqueueStatusFollowUp_every enqueues_spares ..)
                fun _ => trivial) applies
          · exact applies

theorem applyConvertDraftToIssue_survives (id : TaskId) (itemNodeId repoNodeId : String)
    (applies : AppliesEntry draft text entry world) :
    (applyConvertDraftToIssue id itemNodeId repoNodeId).Survives (drafted draft)
      (KeepsDraft draft text) (fun _ later => AppliesEntry draft text entry later) world := by
  have loads : (PortOp.store (.getTask id)).sparesDraft draft text := trivial
  refine ((survives_spared (every_query loads) applies).mono ?_).bind
  rintro (error | task) loaded applies
  · exact applies
  · have follows : ∀ {later}, AppliesEntry draft text entry later →
        (((enqueueIssueTypeFollowUp id repoNodeId).bind fun _ =>
          .done ApplyDisposition.stamped) : Action _).Survives (drafted draft)
          (KeepsDraft draft text) (fun _ later => AppliesEntry draft text entry later) later :=
      survives_spared (every_bind (enqueueIssueTypeFollowUp_every enqueues_spares ..)
        fun _ => trivial)
    dsimp only
    split
    · exact follows applies
    · have asks : (PortOp.provider (.convertDraftToIssue itemNodeId repoNodeId)).sparesDraft draft
          text := trivial
      refine ((survives_spared (every_callPort asks) applies).mono ?_).bind
      rintro (error | answer) asked applies
      · exact applies
      · dsimp only
        split
        · exact applies
        · split
          split
          · exact applies
          · refine ((writeBackConvertedIssue_survives _ _ id applies).mono ?_).bind
            rintro (error | value) written applies
            · exact applies
            · exact follows applies

/-- The draft is there, so that nothing is created for its own task. -/
theorem applyCreateDraftIssue_survives (projectNodeId title body : String)
    (applies : AppliesEntry draft text entry world) :
    (applyCreateDraftIssue entry.taskId projectNodeId title body).Survives (drafted draft)
      (KeepsDraft draft text) (fun _ later => AppliesEntry draft text entry later) world := by
  have follows : ∀ {item later}, AppliesEntry draft text entry later →
      (((enqueueStatusFollowUp entry.taskId projectNodeId item).bind fun _ =>
        .done ApplyDisposition.stamped) : Action _).Survives (drafted draft)
        (KeepsDraft draft text) (fun _ later => AppliesEntry draft text entry later) later :=
    survives_spared (every_bind (enqueueStatusFollowUp_every enqueues_spares ..) fun _ => trivial)
  intro answer loaded ran
  have loads : (PortOp.store (.getTask entry.taskId)).sparesDraft draft text := trivial
  have kept := (applies.spared loads ran).1
  refine ⟨kept.toKeepsDraft, ?_⟩
  obtain error | task : Except PortError Task := answer
  · exact kept
  · change Survives _ _ ((Program.done task : Action Task).bind _) _ _
    rw [done_bind]
    split
    · exact follows kept
    · rename_i missing
      have other : entry.taskId ≠ draft.taskId := by
        intro own
        obtain ⟨current, stored, _, item, _⟩ := applies.stored
        have found := (applies.loaded ran).1
        rw [own, stored] at found
        cases found
        rw [missing] at item
        cases item
      intro answer asked ran
      have keptAsked : AppliesEntry draft text entry asked := by
        refine kept.asked ?_ ran
        obtain error | minted : Except PortError String := answer
        · rfl
        · exact kept.send_other other minted title body
      refine ⟨keptAsked.toKeepsDraft, ?_⟩
      obtain error | minted : Except PortError String := answer
      · exact keptAsked
      · change Survives _ _ (if minted = "" then _ else _) _ _
        split
        · exact keptAsked
        · refine ((writeBackProjectItem_survives _ _ keptAsked).mono ?_).bind
          rintro (error | value) written applies
          · exact applies
          · exact follows applies

theorem applyUpdateDraftIssue_survives (item : String) (applies : AppliesEntry draft text entry world) :
    (applyUpdateDraftIssue entry.taskId item).Survives (drafted draft) (KeepsDraft draft text)
      (fun result later => AppliesEntry draft text entry later ∧ (result = .ok .stamped →
        entry.taskId = draft.taskId → item = draft.item → text = later.2.sent)) world := by
  intro answer loaded ran
  have loads : (PortOp.store (.getTask entry.taskId)).sparesDraft draft text := trivial
  have kept := (applies.spared loads ran).1
  refine ⟨kept.toKeepsDraft, ?_⟩
  obtain error | task : Except PortError Task := answer
  · exact ⟨kept, fun failed => nomatch failed⟩
  · intro answer asked ranAsk
    have found := (applies.loaded ran).1
    obtain error | sent : Except PortError Unit := answer
    · have keptAsked := kept.asked rfl ranAsk
      exact ⟨keptAsked.toKeepsDraft, keptAsked, fun failed => nomatch failed⟩
    · by_cases own : entry.taskId = draft.taskId
      · obtain ⟨current, stored, shown, _⟩ := applies.stored
        rw [own, stored] at found
        cases found
        subst shown
        obtain ⟨base, books⟩ := asked
        obtain ⟨same, noted⟩ := ranAsk
        obtain rfl : base = loaded.1 := same
        obtain rfl : books = loaded.2.send draft item task.title task.body := noted
        obtain ⟨keptAsked, covered⟩ := kept.send own item
        exact ⟨keptAsked.toKeepsDraft, keptAsked, fun _ _ => covered⟩
      · have unnoted : loaded.2.note draft (.provider (.updateDraftIssue item (some task.title)
            (some task.body))) (.ok sent) = loaded.2 :=
          kept.send_other own item task.title task.body
        have keptAsked := kept.asked unnoted ranAsk
        exact ⟨keptAsked.toKeepsDraft, keptAsked, fun _ owned => (own owned).elim⟩

theorem apply_survives (applies : AppliesEntry draft text entry world) :
    (apply entry).Survives (drafted draft) (KeepsDraft draft text) (DraftApplied draft text entry)
      world := by
  unfold apply
  cases mutation : entry.mutation with
  | updateDraftIssue item title body =>
      refine (applyUpdateDraftIssue_survives item applies).mono ?_
      rintro result later ⟨kept, covered⟩
      refine ⟨kept, fun stamped own updates => covered stamped own ?_⟩
      rw [mutation] at updates
      exact Option.some.inj updates
  | updateRemote canonicalRepo remoteId title body closed =>
      exact (applyUpdateRemote_survives _ _ _ applies).mono fun result _ kept =>
        draftApplied_of_other (mutation ▸ rfl) kept result
  | addItem projectNodeId issueNodeId =>
      exact (applyAddItem_survives _ _ _ applies).mono fun result _ kept =>
        draftApplied_of_other (mutation ▸ rfl) kept result
  | createDraftIssue projectNodeId title body =>
      exact (applyCreateDraftIssue_survives _ _ _ applies).mono fun result _ kept =>
        draftApplied_of_other (mutation ▸ rfl) kept result
  | convertDraftToIssue itemNodeId repoNodeId =>
      exact (applyConvertDraftToIssue_survives _ _ _ applies).mono fun result _ kept =>
        draftApplied_of_other (mutation ▸ rfl) kept result
  | _ =>
      refine (survives_spared ?_ applies).mono fun result _ kept =>
        draftApplied_of_other (mutation ▸ rfl) kept result
      first
        | exact applySetProjectStatus_every trivial
        | exact stampedOrRetry_every trivial
        | exact applyTypeRail_every trivial fun _ => trivial

theorem surfaceConflict_survives (id : TaskId) (applies : AppliesEntry draft text entry world) :
    (surfaceConflict id).Survives (drafted draft) (KeepsDraft draft text)
      (fun _ later => AppliesEntry draft text entry later) world := by
  intro answer loaded ran
  have loads : (PortOp.store (.getTask id)).sparesDraft draft text := trivial
  have kept := (applies.spared loads ran).1
  refine ⟨kept.toKeepsDraft, ?_⟩
  obtain error | task : Except PortError Task := answer
  · exact kept
  · obtain ⟨_, shows, _⟩ := applies.loaded ran
    change Survives _ _ ((clock : Action Timestamp).bind _) _ _
    refine survives_spared (every_bind (every_clock trivial) fun now => ?_) kept
    split
    · trivial
    · rename_i conflicted marks
      obtain ⟨sync, updatedAt, rfl⟩ := Task.markConflicted_frame marks
      exact saveTask_spares ⟨shows, fun _ => rfl⟩

theorem survives_stamping (spares : program.Every (PortOp.sparesDraft draft text))
    (sent : AppliesEntry draft text entry world ∧ (entry.taskId = draft.taskId →
      entry.mutation.updatesDraft = some draft.item → text = world.2.sent)) :
    program.Survives (drafted draft) (KeepsDraft draft text) (fun _ later =>
      AppliesEntry draft text entry later ∧ (entry.taskId = draft.taskId →
        entry.mutation.updatesDraft = some draft.item → text = later.2.sent)) world := by
  refine Survives.ofEvery (fun later => AppliesEntry draft text entry later ∧
    (entry.taskId = draft.taskId → entry.mutation.updatesDraft = some draft.item →
      text = later.2.sent)) ?_ spares sent
  rintro op spares before answer after ⟨applies, covered⟩ ran
  obtain ⟨kept, same⟩ := applies.spared spares ran
  exact ⟨kept.toKeepsDraft, kept, same ▸ covered⟩

/-- An entry is succeeded only after its arm was stamped. -/
theorem resolve_survives (backoff : BackoffSchedule)
    {outcome : Except SyncError ApplyDisposition}
    (applied : DraftApplied draft text entry outcome world) :
    (resolve backoff entry outcome).Survives (drafted draft) (KeepsDraft draft text)
      (fun _ later => KeepsDraft draft text later) world := by
  obtain ⟨applies, covered⟩ := applied
  have spared : ∀ {α : Type} {program : Action α} {later : DraftWorld},
      program.Every (PortOp.sparesDraft draft text) → AppliesEntry draft text entry later →
      program.Survives (drafted draft) (KeepsDraft draft text) (fun _ later =>
        KeepsDraft draft text later) later :=
    fun spares applies => (survives_spared spares applies).mono fun _ _ kept => kept.toKeepsDraft
  have reschedules : ∀ error, (reschedule backoff entry error).Every
      (PortOp.sparesDraft draft text) := by
    intro error
    by_cases below : entry.attempts + 1 < backoff.maxAttempts
    · simp only [reschedule, below, ↓reduceIte]
      exact every_bind (every_clock trivial) fun _ => @every_query _ _ _ (.recordRetry ..) trivial
    · simp only [reschedule, below, ↓reduceIte]
      exact @every_query _ _ _ (.markFailed ..) trivial
  unfold resolve
  split
  · have sent : AppliesEntry draft text entry world ∧ (entry.taskId = draft.taskId →
        entry.mutation.updatesDraft = some draft.item → text = world.2.sent) :=
      ⟨applies, covered rfl⟩
    refine ((survives_stamping (every_clock trivial) sent).mono ?_).bind
    rintro (error | now) clocked sent
    · exact sent.1.toKeepsDraft
    · refine ((survives_stamping (@every_query _ _ _ (.cacheSyncedAt ..) trivial) sent).mono ?_).bind
      rintro (error | value) stamped sent
      · exact sent.1.toKeepsDraft
      · intro answer last ran
        have kept := sent.1.succeeded sent.2 ran
        refine ⟨kept, ?_⟩
        obtain error | value : Except PortError Unit := answer <;> exact kept
  · refine ((surfaceConflict_survives entry.taskId applies).mono ?_).bind
    rintro (error | value) later applies
    · exact applies.toKeepsDraft
    · exact spared (@every_query _ _ _ (.markFailed ..) trivial) applies
  · exact spared (reschedules _) applies
  · exact spared (reschedules _) applies

theorem drainLoop_survives (backoff : BackoffSchedule) : ∀ (rounds : Nat) {world : DraftWorld},
    KeepsDraft draft text world → (drainLoop backoff rounds).Survives (drafted draft)
      (KeepsDraft draft text) (fun _ later => KeepsDraft draft text later) world := by
  intro rounds
  induction rounds with
  | zero => exact fun keeps => keeps
  | succ rounds ih =>
      intro world keeps now timed ranNow
      have ticks : PortOp.now.sparesDraft draft text := trivial
      have timedKeeps := (keeps.spared ticks ranNow).1
      refine ⟨timedKeeps, fun answer claimed ranClaim => ?_⟩
      have claimedKeeps := timedKeeps.claims ranClaim
      refine ⟨claimedKeeps, ?_⟩
      obtain error | found : Except PortError (Option OutboxEntry) := answer
      · exact claimedKeeps
      · cases found with
        | none => exact claimedKeeps
        | some entry =>
            change Survives _ _ ((apply entry).attempt.bind fun outcome =>
              (resolve backoff entry outcome).bind fun _ => drainLoop backoff rounds) _ _
            refine Survives.bind (Survives.attempt ((apply_survives ?_).mono ?_))
            · exact timedKeeps.applies ranClaim
            · rintro outcome applied ends
              refine Survives.bind ((resolve_survives backoff ends).mono ?_)
              rintro (error | value) last kept
              · exact kept
              · exact ih kept

theorem drainOnce_survives (backoff : BackoffSchedule) (rounds : Nat)
    (keeps : KeepsDraft draft text world) :
    (drainOnce backoff rounds).Survives (drafted draft) (KeepsDraft draft text)
      (fun _ later => KeepsDraft draft text later) world := by
  have sweeps := enqueuePendingIssueTypes_every
    (enqueues_spares : Enqueues (PortOp.sparesDraft draft text))
  refine Survives.bind ((Survives.ofEvery (KeepsDraft draft text) ?_ sweeps keeps).mono ?_)
  · intro op spares before answer after keeps ran
    have kept := (keeps.spared spares ran).1
    exact ⟨kept, kept⟩
  · rintro (error | value) later kept
    · exact kept
    · exact drainLoop_survives backoff rounds kept

end Programs

end OutboxDrainer

end RepoLink
