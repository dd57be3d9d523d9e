import RepoLink.Sync.CreationLedger

/-!
A drain with its books: every call that it makes, alone with the database, keeps them balanced. Only
the two creating arms enter a creation, each while its guard shows none.
-/

namespace RepoLink

open Effects Program OutboxDrainer

def Ledger.Same (before after : Ledger) : Prop := after = before ∨ after = before.hinder

theorem Ledger.Same.cleared {before after : Ledger} (same : before.Same after)
    (cleared : before.Cleared) : after.Cleared := by
  rcases same with rfl | rfl
  · exact cleared
  · exact .inr rfl

theorem Ledger.Same.trans {first second third : Ledger} (left : first.Same second)
    (right : second.Same third) : first.Same third := by
  rcases left with rfl | rfl
  · exact right
  · rcases right with rfl | rfl
    · exact .inr rfl
    · exact .inr rfl

def PortOp.Still (creation : Creation) : PortOp → Prop
  | .store op => op.reads = true
  | .provider request => ∀ reply, creation.succeeds request reply = false
  | _ => True

def PortOp.Calm (creation : Creation) : PortOp → Prop
  | .store (.saveAll ..) | .store (.claimNextEligible _) | .store .requeueOrphanedInflight
  | .store (.markSucceeded _) | .store (.markFailed ..) | .store (.recordRetry ..)
  | .store (.deletePendingAddItems _) => False
  | .provider request => ∀ reply, creation.succeeds request reply = false
  | _ => True

section Calls

variable {creation : Creation} {op : PortOp} {before after : Chronicle} {answer : op.Answer}

theorem PortOp.Still.calm (still : op.Still creation) : op.Calm creation := by
  cases op with
  | store op => cases op <;> trivial
  | provider request => exact still
  | _ => trivial

theorem calm_note (calm : op.Calm creation) (ledger : Ledger) :
    ledger.Same (ledger.note creation op answer) := by
  cases op with
  | store op =>
      obtain error | value : Except PortError op.Answer := answer
      · exact .inr rfl
      · left
        cases op <;> first
          | exact calm.elim
          | (unfold Ledger.note Creation.records claimedBy
             cases ledger.claimed <;> rfl)
  | provider request =>
      left
      change (if creation.succeeds request answer then _ else ledger) = ledger
      rw [calm answer]
      rfl
  | _ =>
      left
      unfold Ledger.note Creation.records claimedBy
      cases ledger.claimed <;> rfl

theorem calm_careful (calm : op.Calm creation) (database : Database) :
    op.Careful creation database := by
  cases op with
  | store op => cases op <;> trivial
  | _ => trivial

theorem Balanced.same {database : Database} {ledger later : Ledger} (same : ledger.Same later)
    (balanced : Balanced creation (database, ledger)) : Balanced creation (database, later) := by
  rcases same with rfl | rfl
  · exact balanced
  · exact balanced.hinder

theorem InHand.same {entry : OutboxEntry} {database : Database} {ledger later : Ledger}
    (same : ledger.Same later) (inHand : InHand entry (database, ledger)) :
    InHand entry (database, later) := by
  rcases same with rfl | rfl
  · exact inHand
  · exact inHand

theorem calm_step (calm : op.Calm creation) (ran : chronicled creation op before answer after) :
    before.2.Same after.2 ∧ (Balanced creation before → Balanced creation after) ∧
      ∀ entry, InHand entry before → InHand entry after := by
  obtain ⟨performed, noted⟩ := ran
  have same : before.2.Same after.2 := noted ▸ calm_note calm before.2
  refine ⟨same, fun balanced => ?_, fun entry inHand => ?_⟩
  · exact Balanced.same same (balanced.kept (calm_careful calm before.1) performed)
  · refine InHand.same same (inHand.kept (calm_careful calm before.1) ?_ performed)
    rintro store rfl
    cases store <;> first | exact calm.elim | exact ⟨rfl, nofun⟩

theorem still_step (still : op.Still creation) (ran : chronicled creation op before answer after) :
    after.1 = before.1 ∧ before.2.Same after.2 := by
  refine ⟨PortOp.quiet_meaning ?_ ran.1, (calm_step still.calm ran).1⟩
  cases op with
  | store op => exact still
  | _ => trivial

end Calls

structure Holding (creation : Creation) (entry : OutboxEntry) (world : Chronicle) : Prop where
  balanced : Balanced creation world
  inHand : InHand entry world

section Programs

variable {creation : Creation} {entry : OutboxEntry} {α : Type} {program : Action α}
  {world : Chronicle}

theorem survives_still (still : program.Every (PortOp.Still creation))
    (balanced : Balanced creation world) :
    program.Survives (chronicled creation) (Balanced creation) (fun _ later =>
      later.1 = world.1 ∧ world.2.Same later.2) world := by
  refine (Survives.ofEvery (fun later => (later.1 = world.1 ∧ world.2.Same later.2) ∧
    Balanced creation later) ?_ still ⟨⟨rfl, .inl rfl⟩, balanced⟩).mono fun _ _ kept => kept.1
  rintro op still before answer after ⟨⟨sameBase, sameBooks⟩, balanced⟩ ran
  obtain ⟨base, books⟩ := still_step still ran
  have kept := (calm_step still.calm ran).2.1 balanced
  exact ⟨kept, ⟨base.trans sameBase, sameBooks.trans books⟩, kept⟩

theorem survives_calm (calm : program.Every (PortOp.Calm creation))
    (holding : Holding creation entry world) :
    program.Survives (chronicled creation) (Balanced creation) (fun _ later =>
      Holding creation entry later ∧ world.2.Same later.2) world := by
  refine Survives.ofEvery (fun later => Holding creation entry later ∧ world.2.Same later.2) ?_ calm
    ⟨holding, .inl rfl⟩
  rintro op calm before answer after ⟨holding, sameBooks⟩ ran
  obtain ⟨books, kept, stays⟩ := calm_step calm ran
  exact ⟨kept holding.balanced, ⟨kept holding.balanced, stays entry holding.inHand⟩,
    sameBooks.trans books⟩

theorem Holding.same {later : Chronicle} (holding : Holding creation entry world)
    (base : later.1 = world.1) (books : world.2.Same later.2) : Holding creation entry later := by
  obtain ⟨database, ledger⟩ := world
  obtain ⟨laterBase, laterLedger⟩ := later
  dsimp only at base books
  subst base
  exact ⟨holding.balanced.same books, holding.inHand.same books⟩

theorem survives_query {op : StoreOp} {post : Except SyncError op.Answer → Chronicle → Prop}
    (fails : ∀ error after, chronicled creation (.store op) world (.error error) after →
      Balanced creation after ∧ post (.error (ofPortError error)) after)
    (succeeds : ∀ value after, chronicled creation (.store op) world (.ok value) after →
      Balanced creation after ∧ post (.ok value) after) :
    (query op : Action op.Answer).Survives (chronicled creation) (Balanced creation) post world := by
  rintro answer after ran
  obtain error | value : Except PortError op.Answer := answer
  · exact fails error after ran
  · exact succeeds value after ran

theorem survives_loadTask (id : TaskId) (balanced : Balanced creation world) :
    (loadTask id).Survives (chronicled creation) (Balanced creation) (fun result later =>
      later.1 = world.1 ∧ world.2.Same later.2 ∧
        match result with
        | .ok task => world.1.stored id = some task
        | .error _ => later.2.hindered = true) world := by
  have still : PortOp.Still creation (.store (.getTask id)) := rfl
  refine survives_query (fun error after ran => ?_) fun task after ran => ?_
  · obtain ⟨base, books⟩ := still_step still ran
    refine ⟨(calm_step still.calm ran).2.1 balanced, base, books, ?_⟩
    rw [ran.2]
    rfl
  · obtain ⟨base, books⟩ := still_step still ran
    refine ⟨(calm_step still.calm ran).2.1 balanced, base, books, ?_⟩
    rcases ran.1 with ⟨_, performed⟩ | ⟨_, failed, _⟩
    · exact Database.getTask_ok (congrArg Prod.fst performed)
    · cases failed

/-- A saved copy of the task as it is stored. If it shows the creation, that is recorded. -/
theorem survives_saveTask {basis task : Task} {source : SnapshotSource}
    (holding : Holding creation entry world) (stored : world.1.stored task.id = some basis)
    (keeps : creation.shows basis = true → creation.shows task = true) :
    (saveTask basis task source).Survives (chronicled creation) (Balanced creation)
      (fun result later => Holding creation entry later ∧
        match result with
        | .ok _ => (later.2 = world.2 ∨ later.2 = world.2.record) ∧
            (task.id = entry.taskId → creation.shows task = true → later.2.owed = none)
        | .error _ => later.2.hindered = true) world := by
  obtain ⟨database, ledger⟩ := world
  have careful : PortOp.Careful creation database
      (.store (.saveAll [{ basis := some basis, task, source }] [])) := by
    refine ⟨_, rfl, fun current currentStored shown => keeps ?_⟩
    rw [stored] at currentStored
    exact Option.some.inj currentStored ▸ shown
  have claimed := holding.inHand.1
  have carried : ∀ {answer : Except PortError Unit} {after : Chronicle},
      chronicled creation (.store (.saveAll [{ basis := some basis, task, source }] []))
        (database, ledger) answer after → Holding creation entry (after.1, ledger) := by
    intro answer after ran
    refine ⟨holding.balanced.kept careful ran.1, holding.inHand.kept careful ?_ ran.1⟩
    rintro store same
    cases same
    exact ⟨rfl, nofun⟩
  refine survives_query (fun error after ran => ?_) fun value after ran => ?_
  · have held : Holding creation entry after := by
      obtain ⟨base, books⟩ := after
      obtain rfl : books = ledger.hinder := ran.2
      exact (carried ran).same rfl (.inr rfl)
    refine ⟨held.balanced, held, ?_⟩
    rw [ran.2]
    rfl
  · have held := carried ran
    obtain ⟨base, books⟩ := after
    by_cases recorded : task.id = entry.taskId ∧ creation.shows task = true
    · obtain rfl : books = ledger.record := by
        refine ran.2.trans ?_
        change (if ledger.claimed.any _ then ledger.record else ledger) = ledger.record
        rw [claimed]
        simp [Creation.records, recorded]
      obtain ⟨_, owes, row, rowFound, sameTask, inflight⟩ := held.inHand
      have settled : base.Settled creation entry.id := by
        refine ⟨row, rowFound, .inr ?_⟩
        rcases ran.1 with ⟨instant, performed⟩ | ⟨_, failed, _⟩
        · have written := Database.saveAll_single (StoreOp.perform_saveAll_ok performed) task.id
          rw [if_pos rfl] at written
          refine ⟨_, ?_, (creation.shows_write instant source task (database.record task.id)).trans
            recorded.2⟩
          rw [sameTask, ← recorded.1]
          exact congrArg (Option.map TaskRecord.load) written
        · cases failed
      have balanced : Balanced creation (base, ledger.record) :=
        held.balanced.record fun id owed => owes id owed ▸ settled
      exact ⟨balanced, ⟨balanced, claimed, nofun, row, rowFound, sameTask, inflight⟩, .inr rfl,
        fun _ _ => rfl⟩
    · obtain rfl : books = ledger := by
        refine ran.2.trans ?_
        change (if ledger.claimed.any _ then ledger.record else ledger) = ledger
        rw [claimed]
        simp only [Option.any_some, Creation.records, List.any_cons, List.any_nil, Bool.or_false]
        rw [if_neg]
        simpa using recorded
      exact ⟨held.balanced, held, .inl rfl, fun same shown => (recorded ⟨same, shown⟩).elim⟩

structure Clean (creation : Creation) (entry : OutboxEntry) (world : Chronicle) : Prop
    extends Holding creation entry world where
  cleared : world.2.Cleared

theorem Clean.same {later : Chronicle} (clean : Clean creation entry world)
    (base : later.1 = world.1) (books : world.2.Same later.2) : Clean creation entry later :=
  ⟨clean.toHolding.same base books, books.cleared clean.cleared⟩

theorem survives_clean (calm : program.Every (PortOp.Calm creation))
    (clean : Clean creation entry world) :
    program.Survives (chronicled creation) (Balanced creation)
      (fun _ later => Clean creation entry later) world :=
  (survives_calm calm clean.toHolding).mono fun _ _ kept =>
    ⟨kept.1, kept.2.cleared clean.cleared⟩

theorem enqueues_calm : Enqueues (PortOp.Calm creation) where
  reads op _ := by cases op <;> trivial
  now := trivial
  entryId := trivial
  enqueue _ _ := trivial

theorem InHand.unsettled {task : Task} (inHand : InHand entry world)
    (stored : world.1.stored entry.taskId = some task) (missing : creation.shows task = false) :
    ¬world.1.Settled creation entry.id := by
  obtain ⟨_, _, row, rowFound, sameTask, inflight⟩ := inHand
  rintro ⟨other, otherFound, ends⟩
  rw [rowFound] at otherFound
  cases otherFound
  rcases ends with terminal | ⟨shown, shownStored, shows⟩
  · rw [inflight] at terminal
    cases terminal
  · rw [sameTask, stored] at shownStored
    cases shownStored
    rw [missing] at shows
    cases shows

theorem survives_request {request : ProviderOp} {next : Except PortError request.Answer → Action α}
    {post : Except SyncError α → Chronicle → Prop} (holding : Holding creation entry world)
    (nothingOwed : world.2.owed = none)
    (open_ : (∃ reply, creation.succeeds request reply = true) →
      ¬world.1.Settled creation entry.id)
    (goesOn : ∀ reply later, later.1 = world.1 → Holding creation entry later →
      (creation.succeeds request reply = false → later.2.owed = none) →
      (next reply).Survives (chronicled creation) (Balanced creation) post later) :
    ((tryRemote request : Action _).bind next).Survives (chronicled creation) (Balanced creation)
      post world := by
  obtain ⟨database, ledger⟩ := world
  rintro reply ⟨base, books⟩ ⟨sameBase, noted⟩
  change base = database at sameBase
  change books = if creation.succeeds request reply then (ledger.claimed.map ledger.create).getD
    ledger else ledger at noted
  subst sameBase
  by_cases made : creation.succeeds request reply = true
  · rw [if_pos made, holding.inHand.1] at noted
    subst noted
    have balanced := holding.balanced.create nothingOwed (open_ ⟨reply, made⟩)
    refine ⟨balanced, goesOn reply _ rfl ⟨balanced, holding.inHand.1, ?_, holding.inHand.2.2⟩ ?_⟩
    · exact fun id owed => (Option.some.inj owed).symm
    · intro failed
      rw [made] at failed
      cases failed
  · rw [if_neg made] at noted
    subst noted
    exact ⟨holding.balanced, goesOn reply _ rfl holding fun _ => nothingOwed⟩

theorem survives_writeBackProjectItem {itemId : String} (holding : Holding creation entry world)
    (owes : world.2.Cleared ∨ creation = .draft ∧ ∀ task, world.1.stored entry.taskId = some task →
      task.projectItemId = none) :
    (writeBackProjectItem entry.taskId itemId).Survives (chronicled creation) (Balanced creation)
      (fun _ later => Clean creation entry later) world := by
  refine ((survives_loadTask entry.taskId holding.balanced).mono ?_).bind
  rintro (error | task) later ⟨base, books, outcome⟩
  · exact ⟨holding.same base books, .inr outcome⟩
  · have held := holding.same base books
    have sameId : task.id = entry.taskId := Database.stored_id outcome
    have stored : later.1.stored task.id = some task := by
      rw [base, sameId]
      exact outcome
    dsimp only
    split
    · refine (@survives_saveTask creation entry later task { task with projectItemId := some itemId } _
        held stored fun shown => ?_).mono ?_
      · cases creation with
        | draft => rfl
        | converted => exact shown
      · rintro (error | value) last ⟨lastHeld, outcomeLast⟩
        · exact ⟨lastHeld, .inr outcomeLast⟩
        · refine ⟨lastHeld, ?_⟩
          obtain ⟨recorded, settles⟩ := outcomeLast
          rcases owes with cleared | ⟨rfl, _⟩
          · rcases recorded with same | same
            · rw [same]
              exact books.cleared cleared
            · exact .inl (same ▸ rfl)
          · exact .inl (settles sameId rfl)
    · rename_i attached
      refine ⟨held, books.cleared (owes.resolve_right ?_)⟩
      rintro ⟨_, detached⟩
      rw [detached task outcome] at attached
      exact attached nofun

theorem survives_writeBackConvertedIssue {nodeId : String} {number : Nat}
    (holding : Holding creation entry world) (owes : world.2.Cleared ∨ creation = .converted) :
    (writeBackConvertedIssue entry.taskId nodeId number).Survives (chronicled creation)
      (Balanced creation) (fun _ later => Clean creation entry later) world := by
  refine ((survives_loadTask entry.taskId holding.balanced).mono ?_).bind
  rintro (error | task) later ⟨base, books, outcome⟩
  · exact ⟨holding.same base books, .inr outcome⟩
  · have held := holding.same base books
    have sameId : task.id = entry.taskId := Database.stored_id outcome
    have stored : later.1.stored task.id = some task := by
      rw [base, sameId]
      exact outcome
    refine (@survives_saveTask creation entry later task { task with
      remote := some ⟨task.remote.elim "github" fun remote => remote.provider, toString number,
        some nodeId⟩ } _ held stored fun shown => ?_).mono ?_
    · cases creation with
      | draft => exact shown
      | converted => rfl
    · rintro (error | value) last ⟨lastHeld, outcomeLast⟩
      · exact ⟨lastHeld, .inr outcomeLast⟩
      · refine ⟨lastHeld, ?_⟩
        obtain ⟨recorded, settles⟩ := outcomeLast
        rcases owes with cleared | rfl
        · rcases recorded with same | same
          · rw [same]
            exact books.cleared cleared
          · exact .inl (same ▸ rfl)
        · exact .inl (settles sameId rfl)

/-- The arms leave the entry in hand; only a conflict leaves a creation to be dead-lettered. -/
def Applied (creation : Creation) (entry : OutboxEntry)
    (result : Except SyncError ApplyDisposition) (world : Chronicle) : Prop :=
  Holding creation entry world ∧
    (world.2.Cleared ∨ ∃ kind, result = .ok (.conflict kind))

theorem Clean.applied {result : Except SyncError ApplyDisposition}
    (clean : Clean creation entry world) : Applied creation entry result world :=
  ⟨clean.toHolding, .inl clean.cleared⟩

theorem calm_request {creation : Creation} {request : ProviderOp}
    (plain : ∀ reply, creation.succeeds request reply = false) :
    (tryRemote request : Action _).Every (PortOp.Calm creation) := every_callPort plain

theorem sendUpdate_still (creation : Creation) (update : Option RemoteTaskUpdate) :
    (sendUpdate update).Every (PortOp.Still creation) := by
  unfold sendUpdate
  split
  · trivial
  · refine every_bind (every_callPort fun _ => by cases creation <;> rfl) fun answer => ?_
    split
    · trivial
    · split <;> trivial

theorem survives_applyUpdateRemote {canonicalRepo remoteId : String}
    (clean : Clean creation entry world) :
    (applyUpdateRemote entry.taskId canonicalRepo remoteId).Survives (chronicled creation)
      (Balanced creation) (Applied creation entry) world := by
  refine ((survives_loadTask entry.taskId clean.balanced).mono ?_).bind
  rintro (error | task) later ⟨base, books, outcome⟩
  · exact (clean.same base books).applied
  · have laterClean := clean.same base books
    dsimp only
    split
    · exact laterClean.applied
    · refine ((survives_still (sendUpdate_still creation _) laterClean.balanced).mono ?_).bind
      rintro (error | early) sent ⟨sentBase, sentBooks⟩
      · exact (laterClean.same sentBase sentBooks).applied
      · have sentClean := laterClean.same sentBase sentBooks
        dsimp only
        split
        · exact sentClean.applied
        · refine ((survives_still (every_clock trivial) sentClean.balanced).mono ?_).bind
          rintro (error | now) clocked ⟨clockedBase, clockedBooks⟩
          · exact (sentClean.same clockedBase clockedBooks).applied
          · have clockedClean := sentClean.same clockedBase clockedBooks
            dsimp only
            cases confirms :
                (task.confirmSyncedFields now .push task.diffAgainstBaseline).attempt with
            | error error => exact clockedClean.applied
            | ok confirmed =>
                obtain ⟨_, _, _, frame⟩ := Task.confirmSyncedFields_frame confirms
                have loadedId : task.id = entry.taskId := Database.stored_id outcome
                have sameId : confirmed.id = entry.taskId := by rw [frame, loadedId]
                have stored : clocked.1.stored confirmed.id = some task := by
                  rw [clockedBase, sentBase, base, sameId]
                  exact outcome
                refine ((survives_saveTask clockedClean.toHolding stored fun shown => ?_).mono
                  ?_).bind
                · rw [frame]
                  cases creation <;> exact shown
                · rintro (error | value) last ⟨lastHeld, outcomeLast⟩
                  · exact ⟨lastHeld, .inl (.inr outcomeLast)⟩
                  · refine ⟨lastHeld, .inl ?_⟩
                    rcases outcomeLast.1 with same | same
                    · rw [same]
                      exact clockedClean.cleared
                    · exact .inl (same ▸ rfl)

theorem survives_applyAddItem {projectNodeId issueNodeId : String}
    (clean : Clean creation entry world) :
    (applyAddItem entry.taskId projectNodeId issueNodeId).Survives (chronicled creation)
      (Balanced creation) (Applied creation entry) world := by
  refine ((survives_clean (calm_request fun _ => by cases creation <;> rfl) clean).mono ?_).bind
  rintro (error | answer) later laterClean
  · exact laterClean.applied
  · dsimp only
    split
    · exact laterClean.applied
    · split
      · exact laterClean.applied
      · refine ((survives_clean (workspaceStillTargetsProject_every
          (fun _ reads => PortOp.Still.calm reads) ..) laterClean).mono ?_).bind
        rintro (error | targets) asked askedClean
        · exact askedClean.applied
        · dsimp only
          split
          · refine ((survives_writeBackProjectItem askedClean.toHolding
              (.inl askedClean.cleared)).mono ?_).bind
            rintro (error | value) written writtenClean
            · exact writtenClean.applied
            · refine ((survives_clean (enqueueStatusFollowUp_every enqueues_calm ..)
                writtenClean).mono ?_).bind
              rintro (error | value) last lastClean <;> exact lastClean.applied
          · exact askedClean.applied

/-- The creation of a draft, guarded by the item that the task already has. -/
theorem survives_applyCreateDraftIssue {projectNodeId title body : String}
    (holding : Holding creation entry world) (nothingOwed : world.2.owed = none) :
    (applyCreateDraftIssue entry.taskId projectNodeId title body).Survives (chronicled creation)
      (Balanced creation) (Applied creation entry) world := by
  have clean : Clean creation entry world := ⟨holding, .inl nothingOwed⟩
  refine ((survives_loadTask entry.taskId clean.balanced).mono ?_).bind
  rintro (error | task) later ⟨base, books, outcome⟩
  · exact (clean.same base books).applied
  · have laterClean := clean.same base books
    have laterOwed : later.2.owed = none := by
      rcases books with same | same <;> rw [same] <;> exact nothingOwed
    have stored : later.1.stored entry.taskId = some task := base ▸ outcome
    dsimp only
    split
    · refine ((survives_clean (enqueueStatusFollowUp_every enqueues_calm ..) laterClean).mono
        ?_).bind
      rintro (error | value) last lastClean <;> exact lastClean.applied
    · rename_i detached
      refine survives_request laterClean.toHolding laterOwed ?_ fun reply asked base held owes => ?_
      · rintro ⟨reply, made⟩
        refine laterClean.inHand.unsettled stored ?_
        cases creation with
        | draft => exact congrArg Option.isSome detached
        | converted => cases made
      · obtain error | minted : Except PortError String := reply
        · exact ⟨held, .inl (.inl (owes (by cases creation <;> rfl)))⟩
        · dsimp only
          split
          · exact ⟨held, .inr ⟨_, rfl⟩⟩
          · refine ((survives_writeBackProjectItem held ?_).mono ?_).bind
            · cases creation with
              | draft =>
                  refine .inr ⟨rfl, fun current currentStored => ?_⟩
                  rw [base, stored] at currentStored
                  cases currentStored
                  exact detached
              | converted => exact .inl (.inl (owes rfl))
            · rintro (error | value) written writtenClean
              · exact writtenClean.applied
              · refine ((survives_clean (enqueueStatusFollowUp_every enqueues_calm ..)
                  writtenClean).mono ?_).bind
                rintro (error | value) last lastClean <;> exact lastClean.applied

/-- The conversion of a draft, guarded by the node id that the task already has. -/
theorem survives_applyConvertDraftToIssue {itemNodeId repoNodeId : String}
    (holding : Holding creation entry world) (nothingOwed : world.2.owed = none) :
    (applyConvertDraftToIssue entry.taskId itemNodeId repoNodeId).Survives (chronicled creation)
      (Balanced creation) (Applied creation entry) world := by
  have clean : Clean creation entry world := ⟨holding, .inl nothingOwed⟩
  refine ((survives_loadTask entry.taskId clean.balanced).mono ?_).bind
  rintro (error | task) later ⟨base, books, outcome⟩
  · exact (clean.same base books).applied
  · have laterClean := clean.same base books
    have laterOwed : later.2.owed = none := by
      rcases books with same | same <;> rw [same] <;> exact nothingOwed
    have stored : later.1.stored entry.taskId = some task := base ▸ outcome
    dsimp only
    split
    · refine ((survives_clean (enqueueIssueTypeFollowUp_every enqueues_calm ..) laterClean).mono
        ?_).bind
      rintro (error | value) last lastClean <;> exact lastClean.applied
    · rename_i unconverted
      refine survives_request laterClean.toHolding laterOwed ?_ fun reply asked base held owes => ?_
      · rintro ⟨reply, made⟩
        refine laterClean.inHand.unsettled stored ?_
        cases creation with
        | draft => cases made
        | converted => exact Bool.eq_false_iff.mpr unconverted
      · obtain error | converted : Except PortError (String × Nat) := reply
        · exact ⟨held, .inl (.inl (owes (by cases creation <;> rfl)))⟩
        · obtain ⟨nodeId, number⟩ := converted
          dsimp only
          split
          · exact ⟨held, .inr ⟨_, rfl⟩⟩
          · refine ((survives_writeBackConvertedIssue held ?_).mono ?_).bind
            · cases creation with
              | draft => exact .inl (.inl (owes rfl))
              | converted => exact .inr rfl
            · rintro (error | value) written writtenClean
              · exact writtenClean.applied
              · refine ((survives_clean (enqueueIssueTypeFollowUp_every enqueues_calm ..)
                  writtenClean).mono ?_).bind
                rintro (error | value) last lastClean <;> exact lastClean.applied

theorem stampedOrRetry_calm {request : ProviderOp}
    (plain : ∀ reply, creation.succeeds request reply = false) :
    (stampedOrRetry request).Every (PortOp.Calm creation) := by
  refine every_bind (calm_request plain) fun answer => ?_
  split <;> trivial

theorem applyTypeRail_calm {taskId : TaskId} {request : ProviderOp} {localIssueType : Option String}
    {recorded : Bool} (plain : ∀ reply, creation.succeeds request reply = false) :
    (applyTypeRail taskId request localIssueType recorded).Every (PortOp.Calm creation) := by
  refine every_bind (calm_request plain) fun answer => ?_
  split
  · trivial
  · split
    · exact every_bind (@every_query _ _ _ (.clearIssueTypePending ..) trivial) fun _ => trivial
    · trivial

theorem survives_apply (holding : Holding creation entry world) (nothingOwed : world.2.owed = none) :
    (apply entry).Survives (chronicled creation) (Balanced creation) (Applied creation entry)
      world := by
  have clean : Clean creation entry world := ⟨holding, .inl nothingOwed⟩
  have calmly : ∀ {arm : Action ApplyDisposition}, arm.Every (PortOp.Calm creation) →
      arm.Survives (chronicled creation) (Balanced creation) (Applied creation entry) world :=
    fun calm => (survives_clean calm clean).mono fun _ _ kept => kept.applied
  unfold apply
  split
  · exact survives_applyUpdateRemote clean
  · exact survives_applyAddItem clean
  · exact survives_applyCreateDraftIssue holding nothingOwed
  · refine calmly (every_bind (every_query trivial) fun task => ?_)
    refine every_bind (calm_request fun _ => by cases creation <;> rfl) fun answer => ?_
    split <;> trivial
  · exact survives_applyConvertDraftToIssue holding nothingOwed
  · refine calmly (every_bind (calm_request fun _ => by cases creation <;> rfl) fun answer => ?_)
    split <;> trivial
  · exact calmly (stampedOrRetry_calm fun _ => by cases creation <;> rfl)
  · exact calmly (applyTypeRail_calm fun _ => by cases creation <;> rfl)
  · exact calmly (applyTypeRail_calm fun _ => by cases creation <;> rfl)
  all_goals exact calmly (stampedOrRetry_calm fun _ => by cases creation <;> rfl)

theorem survives_surfaceConflict (holding : Holding creation entry world) :
    (surfaceConflict entry.taskId).Survives (chronicled creation) (Balanced creation)
      (fun _ later => Holding creation entry later) world := by
  have still : PortOp.Still creation (.store (.getTask entry.taskId)) := rfl
  rintro answer later ran
  obtain ⟨base, books⟩ := still_step still ran
  have held := holding.same base books
  refine ⟨held.balanced, ?_⟩
  obtain error | task : Except PortError Task := answer
  · exact held
  · have outcome : world.1.stored entry.taskId = some task := by
      rcases ran.1 with ⟨_, performed⟩ | ⟨_, failed, _⟩
      · exact Database.getTask_ok (congrArg Prod.fst performed)
      · cases failed
    refine ((survives_still (every_clock trivial) held.balanced).mono ?_).bind
    rintro (error | now) clocked ⟨clockedBase, clockedBooks⟩
    · exact held.same clockedBase clockedBooks
    · have clockedHeld := held.same clockedBase clockedBooks
      dsimp only
      split
      · exact clockedHeld
      · rename_i conflicted marks
        obtain ⟨_, _, frame⟩ := Task.markConflicted_frame marks
        have loadedId : task.id = entry.taskId := Database.stored_id outcome
        have sameId : conflicted.id = entry.taskId := by rw [frame, loadedId]
        have stored : clocked.1.stored conflicted.id = some task := by
          rw [clockedBase, base, sameId]
          exact outcome
        refine (survives_saveTask clockedHeld stored fun shown => ?_).mono fun _ _ kept => kept.1
        rw [frame]
        cases creation <;> exact shown

/-- Resolving the entry in hand: a dead letter records what it created. -/
theorem survives_resolution {op : StoreOp} {status : OutboxStatus}
    (resolves : op.resolves = some (entry.id, status)) (holding : Holding creation entry world)
    (owes : world.2.Cleared ∨ status = .failed) :
    (query op : Action op.Answer).Survives (chronicled creation) (Balanced creation)
      (fun _ later => Balanced creation later ∧ later.2.Cleared) world := by
  obtain ⟨database, ledger⟩ := world
  have claimed : ledger.claimed = some entry := holding.inHand.1
  obtain ⟨owesOnly, row, rowFound, sameTask, inflight⟩ := holding.inHand.2
  have careful : PortOp.Careful creation database (.store op) := by
    cases op with
    | recordRetry id error nextAttemptAt =>
        obtain ⟨idEq, _⟩ := Prod.mk.inj (Option.some.inj resolves)
        exact ⟨row, idEq ▸ rowFound, inflight⟩
    | markSucceeded id => trivial
    | markFailed id error => trivial
    | _ => cases resolves
  refine survives_query (fun error after ran => ?_) fun value after ran => ?_
  · obtain ⟨base, books⟩ := after
    obtain rfl : books = ledger.hinder := ran.2
    have balanced := (holding.balanced.kept careful ran.1).hinder
    exact ⟨balanced, balanced, .inr rfl⟩
  · obtain ⟨base, books⟩ := after
    have balanced := holding.balanced.kept careful ran.1
    cases op with
    | markSucceeded id =>
        obtain ⟨_, rfl⟩ := Prod.mk.inj (Option.some.inj resolves)
        obtain rfl : books = ledger := by
          refine ran.2.trans ?_
          change (if ledger.claimed.any _ then _ else ledger) = ledger
          rw [claimed]
          rfl
        exact ⟨balanced, balanced, owes.resolve_right nofun⟩
    | recordRetry id error nextAttemptAt =>
        obtain ⟨_, rfl⟩ := Prod.mk.inj (Option.some.inj resolves)
        obtain rfl : books = ledger := by
          refine ran.2.trans ?_
          change (if ledger.claimed.any _ then _ else ledger) = ledger
          rw [claimed]
          rfl
        exact ⟨balanced, balanced, owes.resolve_right nofun⟩
    | markFailed id error =>
        obtain ⟨rfl, _⟩ := Prod.mk.inj (Option.some.inj resolves)
        obtain rfl : books = ledger.record := by
          refine ran.2.trans ?_
          change (if ledger.claimed.any _ then ledger.record else _) = ledger.record
          rw [claimed]
          simp [Creation.records]
        have settled : base.Settled creation entry.id := by
          rcases ran.1 with ⟨instant, performed⟩ | ⟨_, failed, _⟩
          · cases performed
            obtain ⟨next, found, dead⟩ := OutboxTable.entry_markFailed instant error rowFound
            exact ⟨next, found, .inl (dead ▸ rfl)⟩
          · cases failed
        have recorded : Balanced creation (base, ledger.record) :=
          balanced.record fun id owed => owesOnly id owed ▸ settled
        exact ⟨recorded, recorded, .inl rfl⟩
    | _ => cases resolves

/-- What a claim needs: balanced books in which nothing is owed without an excuse. -/
structure Ready (creation : Creation) (world : Chronicle) : Prop where
  balanced : Balanced creation world
  cleared : world.2.Cleared

theorem survives_reschedule (backoff : BackoffSchedule) (error : SyncError)
    (clean : Clean creation entry world) :
    (reschedule backoff entry error).Survives (chronicled creation) (Balanced creation)
      (fun _ later => Ready creation later) world := by
  by_cases below : entry.attempts + 1 < backoff.maxAttempts
  · simp only [reschedule, below, ↓reduceIte]
    refine ((survives_clean (every_clock trivial) clean).mono ?_).bind
    rintro (error | now) clocked clockedClean
    · exact ⟨clockedClean.balanced, clockedClean.cleared⟩
    · exact (survives_resolution rfl clockedClean.toHolding (.inl clockedClean.cleared)).mono
        fun _ _ kept => ⟨kept.1, kept.2⟩
  · simp only [reschedule, below, ↓reduceIte]
    exact (survives_resolution rfl clean.toHolding (.inl clean.cleared)).mono
      fun _ _ kept => ⟨kept.1, kept.2⟩

theorem survives_resolve (backoff : BackoffSchedule)
    {outcome : Except SyncError ApplyDisposition} (applied : Applied creation entry outcome world) :
    (resolve backoff entry outcome).Survives (chronicled creation) (Balanced creation)
      (fun result later => Balanced creation later ∧
        ∀ value, result = .ok value → later.2.Cleared) world := by
  obtain ⟨holding, owes⟩ := applied
  have clean : (∀ kind, outcome ≠ .ok (.conflict kind)) → Clean creation entry world :=
    fun notConflict => ⟨holding, owes.resolve_right fun ⟨kind, same⟩ => notConflict kind same⟩
  unfold resolve
  split
  · refine ((survives_clean (every_clock trivial) (clean nofun)).mono ?_).bind
    rintro (error | now) clocked clockedClean
    · exact ⟨clockedClean.balanced, nofun⟩
    · refine ((survives_clean (@every_query _ _ _ (.cacheSyncedAt ..) trivial) clockedClean).mono
        ?_).bind
      rintro (error | value) stamped stampedClean
      · exact ⟨stampedClean.balanced, nofun⟩
      · exact (survives_resolution rfl stampedClean.toHolding (.inl stampedClean.cleared)).mono
          fun _ _ kept => ⟨kept.1, fun _ _ => kept.2⟩
  · refine ((survives_surfaceConflict holding).mono ?_).bind
    rintro (error | value) surfaced held
    · exact ⟨held.balanced, nofun⟩
    · exact (survives_resolution rfl held (.inr rfl)).mono fun _ _ kept => ⟨kept.1, fun _ _ => kept.2⟩
  · exact (survives_reschedule backoff _ (clean nofun)).mono
      fun _ _ ready => ⟨ready.balanced, fun _ _ => ready.cleared⟩
  · exact (survives_reschedule backoff _ (clean nofun)).mono
      fun _ _ ready => ⟨ready.balanced, fun _ _ => ready.cleared⟩

theorem survives_ready (calm : program.Every (PortOp.Calm creation))
    (ready : Ready creation world) :
    program.Survives (chronicled creation) (Balanced creation)
      (fun _ later => Ready creation later) world := by
  refine Survives.ofEvery (Ready creation) ?_ calm ready
  intro op calm before answer after ready ran
  obtain ⟨books, kept, _⟩ := calm_step calm ran
  exact ⟨kept ready.balanced, kept ready.balanced, books.cleared ready.cleared⟩

theorem survives_claim {now : Timestamp} {next : Option OutboxEntry → Action α}
    {post : Except SyncError α → Chronicle → Prop} (ready : Ready creation world)
    (fails : ∀ error later, Balanced creation later → post (.error error) later)
    (idle : ∀ later, Balanced creation later →
      (next none).Survives (chronicled creation) (Balanced creation) post later)
    (goesOn : ∀ entry later, Holding creation entry later → later.2.owed = none →
      (next (some entry)).Survives (chronicled creation) (Balanced creation) post later) :
    ((query (.claimNextEligible now) : Action _).bind next).Survives (chronicled creation)
      (Balanced creation) post world := by
  obtain ⟨database, ledger⟩ := world
  have careful : PortOp.Careful creation database (.store (.claimNextEligible now)) := trivial
  refine Survives.bind (survives_query (fun error after ran => ?_) fun claimed after ran => ?_)
  · obtain ⟨base, books⟩ := after
    obtain rfl : books = ledger.hinder := ran.2
    have balanced := (ready.balanced.kept careful ran.1).hinder
    exact ⟨balanced, fails _ _ balanced⟩
  · obtain ⟨base, books⟩ := after
    have balanced := ready.balanced.kept careful ran.1
    obtain _ | entry : Option OutboxEntry := claimed
    · obtain rfl : books = ledger := by
        refine ran.2.trans ?_
        change (if ledger.claimed.any _ then _ else ledger) = ledger
        cases ledger.claimed <;> rfl
      exact ⟨balanced, idle _ balanced⟩
    · obtain rfl : books = ledger.turnTo entry := ran.2
      have turned : Balanced creation (base, ledger.turnTo entry) := balanced.turnTo ready.cleared
      refine ⟨turned, goesOn entry _ ⟨turned, rfl, nofun, ?_⟩ rfl⟩
      rcases ran.1 with ⟨instant, performed⟩ | ⟨_, failed, _⟩
      · have claim : (database.outbox.claimNextEligible now instant).1 = some entry :=
          Except.ok.inj (congrArg Prod.fst performed)
        have baseEq : base.outbox = (database.outbox.claimNextEligible now instant).2 :=
          (congrArg (fun pair => (Prod.snd pair).outbox) performed).symm
        obtain ⟨found, inflight⟩ := OutboxTable.entry_claimed claim
        exact ⟨entry, (congrArg (·.entry entry.id) baseEq).trans found, rfl, inflight⟩
      · cases failed

theorem survives_requeue (balanced : Balanced creation world) :
    (query .requeueOrphanedInflight : Action Nat).Survives (chronicled creation)
      (Balanced creation) (fun _ later => Balanced creation later) world := by
  obtain ⟨database, ledger⟩ := world
  have careful : PortOp.Careful creation database (.store .requeueOrphanedInflight) := trivial
  refine survives_query (fun error after ran => ?_) fun requeued after ran => ?_
  · obtain ⟨base, books⟩ := after
    obtain rfl : books = ledger.hinder := ran.2
    have kept := (balanced.kept careful ran.1).hinder
    exact ⟨kept, kept⟩
  · obtain ⟨base, books⟩ := after
    obtain rfl : books = ledger := by
      refine ran.2.trans ?_
      change (if ledger.claimed.any _ then _ else ledger) = ledger
      cases ledger.claimed <;> rfl
    have kept := balanced.kept careful ran.1
    exact ⟨kept, kept⟩

theorem survives_drainLoop (backoff : BackoffSchedule) : ∀ (rounds : Nat) (world : Chronicle),
    Ready creation world → (drainLoop backoff rounds).Survives (chronicled creation)
      (Balanced creation) (fun _ later => Balanced creation later) world := by
  intro rounds
  induction rounds with
  | zero => exact fun world ready => ready.balanced
  | succ rounds ih =>
      intro world ready
      refine ((survives_ready (every_clock trivial) ready).mono ?_).bind
      rintro (error | now) clocked clockedReady
      · exact clockedReady.balanced
      · refine survives_claim clockedReady (fun _ _ balanced => balanced)
          (fun _ balanced => balanced) fun entry later held owed => ?_
        refine (Survives.attempt ((survives_apply held owed).mono ?_)).bind
        intro outcome applied holds
        refine ((survives_resolve backoff holds).mono ?_).bind
        rintro (error | value) resolved ⟨balanced, cleared⟩
        · exact balanced
        · exact ih resolved ⟨balanced, cleared value rfl⟩

theorem survives_drainOnce (backoff : BackoffSchedule) (rounds : Nat)
    (ready : Ready creation world) : (drainOnce backoff rounds).Survives (chronicled creation)
      (Balanced creation) (fun _ later => Balanced creation later) world := by
  refine ((survives_ready (enqueuePendingIssueTypes_every enqueues_calm) ready).mono ?_).bind
  rintro (error | value) swept sweptReady
  · exact sweptReady.balanced
  · exact survives_drainLoop backoff rounds swept sweptReady

end Programs

end RepoLink
