import RepoLink.Library.RelyGuarantee
import RepoLink.Ports.Handler
import RepoLink.Sync.PollCalls
import RepoLink.Sync.PullCalls
import RepoLink.TaskService.Edits

/-!
The remote-drift mark. Edits, drains, polls and pulls interleave call by call; a task marked
`DirtyRemote` keeps the mark, escalates to `Conflict` or adopts what a pull fetched, as long as no
whole row that was loaded earlier, and no confirmation of an update, is saved over the mark.
-/

namespace RepoLink

open Effects Program KeyedTable

structure Fetch where
  canonicalRepo : String
  remoteId : String
  snap : RemoteTaskSnapshot
deriving DecidableEq, Repr

/-- The database, with the issues that were fetched so far. -/
structure Observed where
  database : Database
  fetched : List Fetch

def PortOp.fetches : (op : PortOp) → op.Answer → List Fetch
  | .provider (.fetchRemote canonicalRepo remoteId), .ok snap => [⟨canonicalRepo, remoteId, snap⟩]
  | _, _ => []

def observing : Semantics ports Observed := fun op before answer after =>
  portMeaning op before.database answer after.database ∧
    after.fetched = before.fetched ++ PortOp.fetches op answer

def Fetch.adoptedBy (fetch : Fetch) (task : Task) : Prop :=
  task.remote.map RemoteRef.remoteId = some fetch.remoteId ∧ task.title = fetch.snap.title ∧
    task.body = fetch.snap.body ∧ task.assignees = fetch.snap.assignees ∧
    task.isOpen = !fetch.snap.closed

def SyncState.flagged (sync : SyncState) : Bool := sync = .dirtyRemote || sync = .conflict

def KeepsFlag (adopted : List Fetch) (write : TaskWrite) : Prop :=
  write.source ≠ .push → ∀ before, write.basis = some before → before.sync.flagged = true →
    write.task.sync.flagged = true ∨ ∃ fetch ∈ adopted, fetch.adoptedBy write.task

/-- No marked row is overwritten by a confirmed update or by a copy loaded without a flag. -/
def PortOp.careful : PortOp → Database → Bool
  | .store op, database => op.writes.all fun write =>
    !((database.record write.task.id).any fun record => record.row.sync = .dirtyRemote) ||
      (write.source ≠ .push && write.basis.any fun before => before.sync.flagged)
  | _, _ => true

inductive Party where
  | edit
  | drain
  | poll
  | pull
deriving DecidableEq, Repr

/-- A marked task keeps the mark or escalates to `Conflict`, or a pull adopts what it fetched. -/
def MarkKept (party : Party) (before after : Observed) : Prop :=
  ∀ id record, before.database.record id = some record → record.row.sync = .dirtyRemote →
    ∃ next, after.database.record id = some next ∧
      (next.row.sync = .dirtyRemote ∨ next.row.sync = .conflict ∨
        (party = .pull ∧ ∃ fetch ∈ after.fetched, fetch.adoptedBy next.row))

theorem StoreOp.retouch_marked (op : StoreOp) {record : TaskRecord}
    (marked : record.row.sync = .dirtyRemote) :
    (op.retouch record).row.sync = .dirtyRemote := by
  cases op <;> first
    | exact marked
    | simp [retouch, Database.dirtiedRemotely, marked]

theorem PortOp.careful_write {op : StoreOp} {database : Database} {record : TaskRecord}
    {write : TaskWrite} (careful : (PortOp.store op).careful database = true)
    (member : write ∈ op.writes) (found : database.record write.task.id = some record)
    (marked : record.row.sync = .dirtyRemote) :
    write.source ≠ .push ∧ ∃ before, write.basis = some before ∧ before.sync.flagged = true := by
  have admitted := List.all_eq_true.mp careful write member
  cases basisEq : write.basis with
  | none => simp [found, marked, basisEq] at admitted
  | some before =>
      simp [found, marked, basisEq] at admitted
      exact ⟨admitted.1, before, rfl, admitted.2⟩

theorem KeepsFlag.row {adopted : List Fetch} {write : TaskWrite} {instant : Timestamp}
    {stored : Option TaskRecord} (kept : write.task.sync.flagged = true ∨
      ∃ fetch ∈ adopted, fetch.adoptedBy write.task) :
    let row := (TaskRecord.write instant write.source write.task stored).row
    row.sync.flagged = true ∨ ∃ fetch ∈ adopted, fetch.adoptedBy row := by
  obtain ⟨sync, remote, _, _, _, title, body, lifecycle, assignees, _⟩ :=
    TaskRecord.write_row_columns instant write.source write.task stored
  simp only [Fetch.adoptedBy, Task.isOpen, sync, remote, title, body, lifecycle, assignees]
  exact kept

theorem mark_kept_of_saves {adopted : List Fetch} {op : PortOp} {before after : Database}
    {answer : op.Answer} (answered : portMeaning op before answer after)
    (careful : op.careful before = true) (saves : Saves (KeepsFlag adopted) op) {id : TaskId}
    {record : TaskRecord} (found : before.record id = some record)
    (marked : record.row.sync = .dirtyRemote) :
    ∃ next, after.record id = some next ∧
      (next.row.sync.flagged = true ∨ ∃ fetch ∈ adopted, fetch.adoptedBy next.row) := by
  have flagged : record.row.sync.flagged = true := by
    rw [marked]
    rfl
  have untouched : after = before → ∃ next, after.record id = some next ∧
      (next.row.sync.flagged = true ∨ ∃ fetch ∈ adopted, fetch.adoptedBy next.row) :=
    fun same => ⟨record, same ▸ found, .inl flagged⟩
  cases op with
  | store op =>
      rcases answered with ⟨instant, performed⟩ | ⟨_, _, same⟩
      · rcases StoreOp.perform_record performed with ⟨writes, entries, rfl, saved⟩ | retouched
        · rw [Database.saveAll_record saved]
          -- each write set of the transaction starts from a flagged copy
          have step : ∀ write ∈ writes, id = write.task.id → ∀ earlier : Option TaskRecord,
              (∃ next, earlier = some next ∧ (next.row.sync.flagged = true ∨
                ∃ fetch ∈ adopted, fetch.adoptedBy next.row)) →
              ∃ next, some (TaskRecord.write instant write.source write.task earlier) = some next ∧
                (next.row.sync.flagged = true ∨ ∃ fetch ∈ adopted, fetch.adoptedBy next.row) := by
            rintro write member rfl earlier _
            obtain ⟨notPush, basis, basisEq, basisFlagged⟩ :=
              PortOp.careful_write careful member found marked
            have kept := saves write member notPush basis basisEq basisFlagged
            exact ⟨_, rfl, KeepsFlag.row kept⟩
          exact Database.afterWrites_induct ⟨record, found, .inl flagged⟩ step
        · have next := retouched id
          split at next
          · rw [found, Option.map_some] at next
            refine ⟨_, next, .inl ?_⟩
            rw [StoreOp.retouch_marked op marked]
            rfl
          · exact ⟨record, next.trans found, .inl flagged⟩
      · exact untouched same
  | freshTaskId => exact untouched answered.2
  | now => exact untouched answered
  | freshEntryId => exact untouched answered
  | freshHash length => exact untouched answered
  | provider op => exact untouched answered

def driftRules (admits : PortOp → Database → Bool) : Discipline ports Observed Party where
  meaning _ op before answer after :=
    admits op before.database = true ∧ observing op before answer after
  inv _ := True
  rely _ before after := before.fetched ⊆ after.fetched
  guarantee party before after := before.fetched ⊆ after.fetched ∧ MarkKept party before after
  must _ _ _ := True

/-- The programs that run: any edit, drain, poll or pull. -/
inductive Starts : Observed → Proc ports Empty Party → Prop
  | edit {world : Observed} {program : Service ServiceError Task}
      (edit : TaskService.Edit program) : Starts world ⟨.edit, program.detached⟩
  | drain {world : Observed} (backoff : BackoffSchedule) (rounds : Nat) :
      Starts world ⟨.drain, (OutboxDrainer.drainOnce backoff rounds).detached⟩
  | poll {world : Observed} (watermarks : Watermarks) :
      Starts world ⟨.poll, (ProjectPoller.pollOnce watermarks).detached⟩
  | pull {world : Observed} (id : TaskId) (forceAcceptRemote : Bool) :
      Starts world ⟨.pull, (SyncService.pullInner id forceAcceptRemote).detached⟩

def anyTogether (_ _ : Party) : Prop := True

theorem careful_step {party : Party} (adopted : List Fetch) {op : PortOp} {before after : Observed}
    {answer : op.Answer} (allowed : party = .pull ∨ adopted = [])
    (known : adopted ⊆ before.fetched) (saves : Saves (KeepsFlag adopted) op)
    (answered : (driftRules PortOp.careful).meaning party op before answer after) :
    (driftRules PortOp.careful).guarantee party before after := by
  obtain ⟨careful, performed, fetchedEq⟩ := answered
  have grown : before.fetched ⊆ after.fetched := by
    rw [fetchedEq]
    exact List.subset_append_left _ _
  refine ⟨grown, ?_⟩
  intro id record found marked
  obtain ⟨next, nextFound, kept⟩ := mark_kept_of_saves performed careful saves found marked
  refine ⟨next, nextFound, ?_⟩
  rcases kept with flagged | ⟨fetch, member, adopts⟩
  · simp only [SyncState.flagged, Bool.or_eq_true, decide_eq_true_eq] at flagged
    exact flagged.imp_right .inl
  · rcases allowed with pulls | rfl
    · exact .inr (.inr ⟨pulls, fetch, grown (known member), adopts⟩)
    · cases member

theorem safe_of_saves {ε α : Type} {party : Party} {adopted : List Fetch}
    {program : Service ε α} (allowed : party = .pull ∨ adopted = [])
    (saves : program.Every (Saves (KeepsFlag adopted))) {world : Observed}
    (known : adopted ⊆ world.fetched) :
    program.Safe (driftRules PortOp.careful) party (fun _ _ => True) world := by
  induction program generalizing world with
  | done value => exact fun _ _ _ => trivial
  | fail error => exact fun _ _ _ => trivial
  | call op next ih =>
      intro later steps _
      have grown : ∀ {first last : Observed}, Relation.ReflTransGen
          ((driftRules PortOp.careful).rely party) first last → first.fetched ⊆ last.fetched := by
        intro first last run
        induction run with
        | refl => exact List.Subset.refl _
        | tail _ step more => exact List.Subset.trans more step
      have knownLater := List.Subset.trans known (grown steps)
      refine ⟨trivial, ?_⟩
      intro answer after answered
      have guaranteed := careful_step adopted allowed knownLater saves.1 answered
      exact ⟨trivial, guaranteed, ih answer (saves.2 answer) (List.Subset.trans knownLater guaranteed.1)⟩

theorem safe_quiet_bind {ε α β : Type} {party : Party} {program : Service ε α}
    {next : α → Service ε β} (quiet : program.Every PortOp.quiet)
    (rest : ∀ value world,
      (next value).Safe (driftRules PortOp.careful) party (fun _ _ => True) world)
    (world : Observed) :
    (program.bind next).Safe (driftRules PortOp.careful) party (fun _ _ => True) world := by
  induction program generalizing world with
  | done value => exact rest value world
  | fail error => exact fun _ _ _ => trivial
  | call op more ih =>
      intro later steps _
      refine ⟨trivial, fun answer after answered => ⟨trivial, ?_, ih answer (quiet.2 answer) after⟩⟩
      exact careful_step [] (.inr rfl) (List.nil_subset _) (Saves.ofQuiet quiet.1)
        answered

theorem safe_fetch_bind {ε β : Type} [OfPortError ε] {party : Party}
    {canonicalRepo remoteId : String} {next : RemoteTaskSnapshot → Service ε β} {world : Observed}
    (rest : ∀ snap later, ⟨canonicalRepo, remoteId, snap⟩ ∈ later.fetched →
      (next snap).Safe (driftRules PortOp.careful) party (fun _ _ => True) later) :
    ((remote (.fetchRemote canonicalRepo remoteId)).bind next).Safe (driftRules PortOp.careful)
      party (fun _ _ => True) world := by
  intro later steps _
  refine ⟨trivial, fun answer after answered => ⟨trivial, ?_, ?_⟩⟩
  · refine careful_step [] (.inr rfl) (List.nil_subset _) ?_ answered
    trivial
  · cases answer with
    | error error => exact fun _ _ _ => trivial
    | ok snap =>
        refine rest snap after ?_
        rw [answered.2.2]
        exact List.mem_append_right _ (List.mem_singleton_self _)

theorem EditWrite.keepsFlag {write : TaskWrite} (edits : TaskService.EditWrite write) :
    KeepsFlag [] write := by
  obtain ⟨_, before, basisEq, edited⟩ := edits
  intro _ basis basisEq' flagged
  rw [basisEq] at basisEq'
  cases basisEq'
  left
  have moves := edited.sync
  generalize before.sync = first at moves flagged
  generalize write.task.sync = last at moves ⊢
  cases moves <;> exact flagged

theorem DrainWrite.keepsFlag {write : TaskWrite} (drains : OutboxDrainer.DrainWrite write) :
    KeepsFlag [] write := by
  intro notPush basis basisEq flagged
  left
  cases drains with
  | confirmed => exact absurd rfl notPush
  | attached task itemId =>
      cases basisEq
      exact flagged
  | converted task remote =>
      cases basisEq
      exact flagged
  | @surfaced now task after marks =>
      unfold Task.markConflicted at marks
      split at marks <;> cases marks <;> rfl

theorem edit_saves {program : Service ServiceError Task} (edit : TaskService.Edit program) :
    program.Every (Saves (KeepsFlag [])) := by
  refine edit.calls.mono fun op call => ?_
  cases op with
  | store op =>
      cases op with
      | saveAll writes entries => exact fun write member => EditWrite.keepsFlag (call write member)
      | _ => exact Saves.ofQuiet call
  | _ => trivial

theorem drain_saves (backoff : BackoffSchedule) (rounds : Nat) :
    (OutboxDrainer.drainOnce backoff rounds).Every (Saves (KeepsFlag [])) := by
  refine (OutboxDrainer.drainOnce_drain backoff rounds).mono fun op call => ?_
  cases op with
  | store op => exact fun write member => DrainWrite.keepsFlag (call write member)
  | _ => trivial

theorem Fetch.adoptedBy_congr {fetch : Fetch} {left right : Task} (same : left.SameBut right)
    (adopts : fetch.adoptedBy right) : fetch.adoptedBy left := by
  obtain ⟨relations, updatedAt, rfl⟩ := same
  exact adopts

namespace SyncService

theorem pullDecision_flagged {force : Bool} {task : Task} {snap : RemoteTaskSnapshot}
    (flagged : task.sync.flagged = true) : pullDecision force task snap = .pullRemote := by
  unfold pullDecision
  cases syncEq : task.sync <;> simp_all [SyncState.flagged, SyncState.decide]

theorem isOpen_remoteStateToLifecycle (closed : Bool) (current : Lifecycle) :
    (remoteStateToLifecycle closed current).isOpen = !closed := by
  cases closed <;> cases current <;> rfl

theorem adopted_adoptedBy {fetch : Fetch} {now : Timestamp} {task adopted : Task}
    (named : task.remote.map RemoteRef.remoteId = some fetch.remoteId)
    (adopts : ((copyInboundMirrorFromSnap fetch.snap task).adoptAlignedState now .pull).attempt =
      .ok adopted) : fetch.adoptedBy adopted := by
  unfold Task.adoptAlignedState at adopts
  split at adopts
  · cases adopts
  · split at adopts
    all_goals first
      | cases adopts; exact ⟨named, rfl, rfl, rfl, isOpen_remoteStateToLifecycle _ _⟩
      | cases adopts

theorem adoptRemote_saves {fetch : Fetch} {before task : Task}
    (named : task.remote.map RemoteRef.remoteId = some fetch.remoteId)
    (sync : task.sync = before.sync) :
    (adoptRemote before task fetch.snap).Every (Saves (KeepsFlag [fetch])) := by
  refine every_bind (saveTask_saves [] ?_) fun _ => ?_
  · intro _ basis basisEq flagged
    cases basisEq
    exact .inl (sync ▸ flagged)
  · refine every_bind (every_clock trivial) fun now => ?_
    refine (settled_yields _).every_bind (saves_quietly (settled_quiet _)) fun adopted ok => ?_
    refine every_bind (saveTask_saves [] ?_) fun _ => trivial
    exact fun _ _ _ _ => .inr ⟨fetch, List.mem_singleton_self _, adopted_adoptedBy named ok⟩

theorem adoptRemote_resolved {fetch : Fetch} {before task : Task}
    (named : task.remote.map RemoteRef.remoteId = some fetch.remoteId) :
    (adoptRemote before task fetch.snap).Yields fetch.adoptedBy := by
  refine (yields_any _).bind fun _ _ => (yields_any _).bind fun now _ => ?_
  refine (settled_yields _).bind fun adopted ok => (yields_any _).bind fun _ _ => ?_
  exact adopted_adoptedBy named ok

theorem settlePull_saves {fetch : Fetch} {before task : Task} (force : Bool)
    (named : task.remote.map RemoteRef.remoteId = some fetch.remoteId)
    (sync : task.sync = before.sync) :
    (settlePull before task fetch.snap (pullDecision force task fetch.snap)).Every
      (Saves (KeepsFlag [fetch])) := by
  cases pullDecision force task fetch.snap with
  | noop => trivial
  | pushLocal => trivial
  | pullRemote => exact adoptRemote_saves named sync

theorem settlePull_resolved {fetch : Fetch} {before task : Task} (force : Bool)
    (named : task.remote.map RemoteRef.remoteId = some fetch.remoteId)
    (sync : task.sync = before.sync) :
    (settlePull before task fetch.snap (pullDecision force task fetch.snap)).Yields
      fun pulled => before.sync.flagged = true → fetch.adoptedBy pulled := by
  cases flagged : before.sync.flagged with
  | false => exact (yields_any _).mono fun _ _ => nofun
  | true =>
      rw [pullDecision_flagged (sync ▸ flagged)]
      exact (adoptRemote_resolved named).mono fun _ adopts _ => adopts

theorem pullSnapshot_saves (fetch : Fetch) {before : Task} {current : RemoteRef} (force : Bool)
    (filingCanonical : String) (remoteEq : before.remote = some current)
    (named : current.remoteId = fetch.remoteId) :
    (pullSnapshot force before filingCanonical current fetch.snap).Every
        (Saves (KeepsFlag [fetch])) ∧
      (pullSnapshot force before filingCanonical current fetch.snap).Yields
        fun pulled => before.sync.flagged = true → fetch.adoptedBy pulled := by
  have filledNamed : (withNodeId (nodeIdBackfill current fetch.snap) before).remote.map
      RemoteRef.remoteId = some fetch.remoteId := by
    rw [withNodeId_remoteId, remoteEq, Option.map_some, named]
  have filledSync := withNodeId_sync (nodeIdBackfill current fetch.snap) before
  constructor
  · refine every_bind (every_clock trivial) fun observedAt => ?_
    refine every_bind (saves_query (.cacheSyncedAt ..) rfl) fun _ => ?_
    refine every_bind (settlePull_saves force filledNamed filledSync) fun pulled => ?_
    refine every_bind (every_remote trivial) fun comments => ?_
    refine every_bind (saves_query (.replaceComments ..) rfl) fun _ => ?_
    exact every_bind (backfillNodeId_saves ..) fun _ => trivial
  · refine (yields_any _).bind fun _ _ => (yields_any _).bind fun _ _ => ?_
    refine (settlePull_resolved force filledNamed filledSync).bind fun pulled resolved => ?_
    refine (yields_any _).bind fun _ _ => (yields_any _).bind fun _ _ => ?_
    exact (yields_any _).bind fun _ _ => resolved

theorem reconcileRelationsInbound_saves {fetch : Fetch} {basis task : Task}
    (filingCanonical remoteId : String)
    (resolved : basis.sync.flagged = true → fetch.adoptedBy task) :
    (reconcileRelationsInbound basis task filingCanonical remoteId).Every
      (Saves (KeepsFlag [fetch])) := by
  refine (gatherInbound_amends task filingCanonical remoteId).every_bind
    (saves_quietly (gatherInbound_quiet task filingCanonical remoteId)) fun state amends => ?_
  split
  · refine every_bind (@every_query _ _ (Saves (KeepsFlag [fetch])) (.saveAll _ []) ?_)
      fun _ => trivial
    intro write member _ before basisEq flagged
    rcases List.mem_cons.mp member with rfl | inNeighbors
    · cases basisEq
      exact .inr ⟨fetch, List.mem_singleton_self _,
        Fetch.adoptedBy_congr amends.subject (resolved flagged)⟩
    · obtain ⟨neighbor, neighborMember, rfl⟩ := List.mem_map.mp inNeighbors
      cases basisEq
      obtain ⟨relations, updatedAt, same⟩ := amends.neighbors neighbor neighborMember
      exact .inl (same ▸ flagged)
  · trivial

theorem pullInner_safe (taskId : TaskId) (force : Bool) (world : Observed) :
    (pullInner taskId force).Safe (driftRules PortOp.careful) .pull (fun _ _ => True) world := by
  rw [pullInner_eq]
  refine safe_quiet_bind (@getTask_quiet SyncError _ taskId) (fun before world => ?_) world
  refine safe_quiet_bind (ensureNotArchived_quiet before) (fun _ world => ?_) world
  refine safe_quiet_bind (requiredFilingCanonical_quiet before)
    (fun filingCanonical world => ?_) world
  cases remoteEq : before.remote with
  | none => exact fun _ _ _ => trivial
  | some current =>
      refine safe_fetch_bind fun snap world known => ?_
      refine safe_of_saves (.inl rfl) ?_ (List.cons_subset.mpr ⟨known, List.nil_subset _⟩)
      obtain ⟨saves, yields⟩ := pullSnapshot_saves
        ⟨filingCanonical, current.remoteId, snap⟩ force filingCanonical remoteEq rfl
      refine yields.every_bind saves fun pulled resolved => ?_
      exact every_bind (reconcileRelationsInbound_saves filingCanonical current.remoteId resolved)
        fun _ => trivial

end SyncService

theorem start_safe {world : Observed} {proc : Proc ports Empty Party}
    (begins : Starts world proc) :
    proc.program.Safe (driftRules PortOp.careful) proc.kind (fun _ _ => True) world := by
  cases begins with
  | edit edit => exact (safe_of_saves (.inr rfl) (edit_saves edit) (List.nil_subset _)).detached
  | drain backoff rounds =>
      exact (safe_of_saves (.inr rfl) (drain_saves backoff rounds) (List.nil_subset _)).detached
  | poll watermarks =>
      exact (safe_of_saves (.inr rfl) (ProjectPoller.pollOnce_saves watermarks)
        (List.nil_subset _)).detached
  | pull id force => exact (SyncService.pullInner_safe id force world).detached

/-- In every careful run the next call of every process keeps the marks. -/
theorem remote_mark_kept {start : Observed} {pool : Pool ports Observed Empty Party}
    (run : Pool.Run (driftRules PortOp.careful) anyTogether Starts ⟨start, []⟩ pool)
    {party : Party} {op : PortOp} {next : op.Answer → Program ports Empty Unit}
    (member : ⟨party, .call op next⟩ ∈ pool.procs) {answer : op.Answer} {after : Observed}
    (answered : (driftRules PortOp.careful).meaning party op pool.shared answer after) :
    MarkKept party pool.shared after := by
  have first : Pool.Sound (driftRules PortOp.careful) anyTogether
      (⟨start, []⟩ : Pool ports Observed Empty Party) :=
    ⟨trivial, fun _ member => (List.not_mem_nil member).elim, .nil⟩
  have compatible : ∀ actor other, anyTogether actor other → ∀ before after,
      (driftRules PortOp.careful).inv before → (driftRules PortOp.careful).inv after →
      (driftRules PortOp.careful).guarantee actor before after →
      (driftRules PortOp.careful).rely other before after :=
    fun _ _ _ _ _ _ _ guaranteed => guaranteed.1
  have sound := first.run compatible (fun _ _ _ begins => start_safe begins) run
  exact (sound.guaranteed member answered).2

def retitledProvider : Provider
  | .addItem .. => .ok "PVTI_1"
  | .updateRemote request =>
    .ok ⟨request.remoteId, none, "", "", false, .epoch, request.assignees.getD [], []⟩
  | .pollProjectItems .. =>
    .ok ⟨[⟨"PVTI_1", none, none, none, "remote", "", false, none, [], ⟨5000000000⟩⟩], false⟩
  | .fetchRemote _ remoteId => .ok ⟨remoteId, none, "remote", "", false, ⟨5000000000⟩, [], []⟩
  | op => obligingProvider op

def revertedEdit : Database :=
  let titled (title : String) (database : Database) : Database :=
    after retitledProvider .epoch (TaskService.update { taskId := ⟨1⟩, title := some title }) database
  let created := after retitledProvider .epoch
    (TaskService.create { workspaceId := ⟨1⟩, repoId := some ⟨21⟩, title := "t" }) oneBoard
  let promoted := after retitledProvider .epoch (SyncService.promote ⟨1⟩) created
  let onBoard := after retitledProvider .epoch (OutboxDrainer.drainOnce .standard 5)
    (titled "u" promoted)
  titled "u" (titled "v" onBoard)

def observingHandler (provider : Provider) (now : Timestamp) : Handler ports (Scene × List Fetch) :=
  fun op state =>
    let (answer, scene) := portHandler provider now op state.1
    (answer, scene, state.2 ++ PortOp.fetches op answer)

def observed (state : Scene × List Fetch) : Observed := ⟨state.1.database, state.2⟩

theorem observingHandler_sound (admits : PortOp → Database → Bool) (provider : Provider)
    (now : Timestamp) (party : Party) (op : PortOp) (state : Scene × List Fetch)
    (admitted : admits op state.1.database = true) :
    (driftRules admits).meaning party op (observed state)
      (observingHandler provider now op state).1
      (observed (observingHandler provider now op state).2) :=
  ⟨admitted, portHandler_sound provider now op state.1, rfl⟩

abbrev pollProc : Proc ports Empty Party :=
  ⟨.poll, (ProjectPoller.pollOnce []).detached⟩

abbrev drainProc : Proc ports Empty Party :=
  ⟨.drain, (OutboxDrainer.drainOnce .standard 5).detached⟩

abbrev pullProc : Proc ports Empty Party := ⟨.pull, (SyncService.pull ⟨1⟩).detached⟩

abbrev retitled : Handler ports (Scene × List Fetch) := observingHandler retitledProvider ⟨1⟩

def polled : Scene × List Fetch := (pollProc.program.advance retitled 9 (⟨revertedEdit, 0⟩, [])).2

theorem run_polled (admits : PortOp → Database → Bool) (proc : Proc ports Empty Party)
    (count : Nat) (begins : Starts (observed polled) proc)
    (polls : pollProc.program.passes (fun op state => admits op state.1.database) retitled 9
      (⟨revertedEdit, 0⟩, []) = true)
    (passed : proc.program.passes (fun op state => admits op state.1.database) retitled count
      polled = true) :
    ∃ others, Pool.Run (driftRules admits) anyTogether Starts ⟨⟨revertedEdit, []⟩, []⟩
      ⟨observed (proc.program.advance retitled count polled).2,
        ⟨proc.kind, (proc.program.advance retitled count polled).1⟩ :: others⟩ := by
  have sound := observingHandler_sound admits retitledProvider ⟨1⟩
  have polling : Pool.Run (driftRules admits) anyTogether Starts
      ⟨observed (⟨revertedEdit, 0⟩, []), []⟩
      ⟨observed polled, [⟨.poll, (pollProc.program.advance retitled 9 _).1⟩]⟩ :=
    Pool.run_started (sound .poll) (.poll []) (fun _ member => (List.not_mem_nil member).elim) polls
  exact ⟨_, polling.trans (Pool.run_started (sound proc.kind) begins
    (fun _ _ => ⟨trivial, trivial⟩) passed)⟩

/-- The leftover entry of the reverted edit is drained: the mark is gone, nothing was fetched. -/
theorem drain_drops_remote_mark : ∃ pool op next answer after,
    Pool.Run (driftRules fun _ _ => true) anyTogether Starts ⟨⟨revertedEdit, []⟩, []⟩ pool ∧
    ⟨.drain, .call op next⟩ ∈ pool.procs ∧
    (driftRules fun _ _ => true).meaning .drain op pool.shared answer after ∧
    ¬MarkKept .drain pool.shared after := by
  obtain ⟨others, run⟩ := run_polled (fun _ _ => true) drainProc 5 (.drain .standard 5)
    (by decide) (by decide)
  obtain ⟨op, next, callEq, ended, _⟩ := advance_succ
    (show (drainProc.program.advance retitled 5 polled).1.isCall = true by decide)
  refine ⟨_, op, next, _, _, run, callEq ▸ List.mem_cons_self,
    observingHandler_sound _ retitledProvider ⟨1⟩ .drain op _ rfl, ?_⟩
  intro kept
  rw [← ended] at kept
  obtain ⟨record, found, marked⟩ : ∃ record,
      (drainProc.program.advance retitled 5 polled).2.1.database.record ⟨1⟩ = some record ∧
      record.row.sync = .dirtyRemote := ⟨_, rfl, by decide⟩
  obtain ⟨next, nextFound, synced⟩ : ∃ record,
      (drainProc.program.advance retitled 6 polled).2.1.database.record ⟨1⟩ = some record ∧
      record.row.sync = .synced := ⟨_, rfl, by decide⟩
  obtain ⟨row, rowFound, state⟩ := kept ⟨1⟩ record found marked
  cases nextFound.symm.trans rowFound
  rw [synced] at state
  rcases state with dropped | dropped | ⟨pulls, _⟩
  · cases dropped
  · cases dropped
  · cases pulls

theorem remote_mark_kept_pulled : ∃ pool after,
    Pool.Run (driftRules PortOp.careful) anyTogether Starts ⟨⟨revertedEdit, []⟩, []⟩ pool ∧
    MarkKept .pull pool.shared after ∧
    (pool.shared.database.stored ⟨1⟩).map Task.sync = some .dirtyRemote ∧
    (after.database.stored ⟨1⟩).map Task.sync = some .synced := by
  obtain ⟨others, run⟩ := run_polled PortOp.careful pullProc 9 (.pull ⟨1⟩ false)
    (by decide) (by decide)
  obtain ⟨op, next, callEq, ended, checked⟩ := advance_succ
    (show (pullProc.program.advance retitled 9 polled).1.isCall = true by decide)
  have admitted := checked (fun op state => op.careful state.1.database) (by decide)
  rw [callEq] at run
  have kept := remote_mark_kept run List.mem_cons_self
    (observingHandler_sound _ retitledProvider ⟨1⟩ .pull op _ admitted)
  rw [← ended] at kept
  exact ⟨_, _, run, kept, rfl, rfl⟩

end RepoLink
