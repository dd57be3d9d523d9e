import RepoLink.Ports.Changes
import RepoLink.Properties.BoardColumn
import RepoLink.Properties.PollWatermark
import RepoLink.Sync.ObserveCalls

/-!
Items that the watermark of a board passes, over any sequence of polls. A task that follows such an
item has been reconciled with it where the pass held the task under the item and no statement about
the task failed; elsewhere the item is lost to every later filter.
-/

namespace RepoLink

open Effects Program KeyedTable

namespace ProjectPoller

structure PollWeather where
  provider : Provider
  outage : StoreOp → Prop
  clock : Timestamp → Prop

def PollWeather.meaning (weather : PollWeather) : Semantics ports Database
  | .provider op, before, answer, after => answer = weather.provider op ∧ after = before
  | .now, before, instant, after => weather.clock instant ∧ after = before
  | .store op, before, answer, after => (∃ instant, op.perform instant before = (answer, after)) ∨
    weather.outage op ∧ ∃ message, answer = .error (.backend message) ∧ after = before
  | op, before, answer, after => portMeaning op before answer after

def concerns : StoreOp → Option TaskId
  | .getTask id | .markRemoteDirty id | .listPending id | .applyPolledPriority id _
  | .cacheProjectStatus id _ => some id
  | _ => none

def PollWeather.Spares (weather : PollWeather) (id : TaskId) : Prop :=
  ∀ op, concerns op = some id → ¬weather.outage op

section Weather

variable {weather : PollWeather} {before after : Database}

theorem meaning_portsOf {op : PortOp} {answer : op.Answer}
    (answered : weather.meaning op before answer after) :
    portsOf weather.provider op before answer after := by
  cases op with
  | provider op => exact answered
  | now => exact answered.2
  | store op => exact answered.imp_right And.right
  | freshTaskId => exact answered
  | freshEntryId => exact answered
  | freshHash length => exact answered

theorem runs_provider {ε α : Type} {program : Service ε α} {result : Except ε α}
    (ran : program.Runs weather.meaning before result after) :
    program.Runs (portsOf weather.provider) before result after :=
  ran.mono fun _ _ _ _ => meaning_portsOf

theorem stored_answered {id : TaskId} {op : PortOp} {answer : op.Answer}
    (answered : portMeaning op before answer after)
    (stored : (before.record id).isSome = true) : (after.record id).isSome = true := by
  cases op with
  | store op =>
      rcases answered with ⟨instant, performed⟩ | ⟨_, _, rfl⟩
      · rcases StoreOp.perform_record performed with ⟨writes, entries, rfl, saved⟩ | records
        · rw [Database.saveAll_record saved]
          exact @Database.afterWrites_induct instant id (fun record => record.isSome = true) _ _
            stored fun _ _ _ _ _ => rfl
        · rw [records]
          split
          · rw [Option.isSome_map]
            exact stored
          · exact stored
      · exact stored
  | freshTaskId =>
      rw [answered.2]
      exact stored
  | now | freshEntryId | freshHash | provider =>
      have same : after = before := answered
      rw [same]
      exact stored

theorem stored_stays {ε α : Type} {id : TaskId} {program : Service ε α} {result : Except ε α}
    (ran : program.Runs weather.meaning before result after)
    (stored : (before.record id).isSome = true) : (after.record id).isSome = true := by
  induction program generalizing before with
  | done value => exact ran.2 ▸ stored
  | fail error => exact ran.2 ▸ stored
  | call op next ih =>
      obtain ⟨answer, middle, answered, rest⟩ := ran
      exact ih answer rest
        (stored_answered (portsOf_included (meaning_portsOf answered)) stored)

theorem runs_spared {ε : Type} {op : StoreOp} {id : TaskId} (spared : weather.Spares id)
    (about : concerns op = some id) {answer : Except PortError op.Answer}
    (ran : (tryQuery op : Service ε (Except PortError op.Answer)).Runs weather.meaning before
      (.ok answer) after) : ∃ instant, op.perform instant before = (answer, after) := by
  obtain ⟨given, middle, answered, rest⟩ := ran
  obtain ⟨same, rfl⟩ := rest
  cases same
  exact answered.resolve_right fun failed => spared op about failed.1

end Weather

section Items

variable {weather : PollWeather} {before after : Database} {item : RemoteProjectItem}
  {project : Project} {task : Task}

theorem reconcileContent_done (spared : weather.Spares task.id)
    (stored : (before.record task.id).isSome = true) {result : Outcome × Nat}
    (ran : (reconcileContent item task).Runs weather.meaning before (.ok result) after) :
    result.1.2 = true := by
  obtain ⟨answer, middle, loaded, rest⟩ := runs_bind_ok.mp ran
  obtain ⟨instant, performed⟩ := runs_spared spared rfl loaded
  obtain ⟨record, found⟩ := Option.isSome_iff_exists.mp stored
  have full : answer = .ok record.load := by
    have read : StoreOp.perform instant (.getTask task.id) before =
        (before.getTask task.id, before) := rfl
    rw [read, Database.getTask, Database.stored, found] at performed
    exact (Prod.mk.inj performed).1.symm
  subst full
  change (markDrift item task record.load).Runs _ _ _ _ at rest
  unfold markDrift at rest
  split at rest
  · split at rest
    · cases rest.1
      rfl
    · obtain ⟨marked, last, marking, rest⟩ := runs_bind_ok.mp rest
      obtain ⟨instant, performed⟩ := runs_spared spared rfl marking
      obtain ⟨rfl, _⟩ := Prod.mk.inj performed
      cases rest.1
      rfl
  · cases rest.1
    rfl

theorem reconcilePriority_done (spared : weather.Spares task.id) {result : Outcome}
    (ran : (reconcilePriority project item task).Runs weather.meaning before (.ok result) after) :
    result.2 = true := by
  unfold reconcilePriority at ran
  split at ran
  · cases ran.1
    rfl
  · obtain ⟨pending, middle, listing, rest⟩ := runs_bind_ok.mp ran
    have read : pending.2 = true := by
      obtain ⟨answer, last, listed, ended⟩ := runs_bind_ok.mp listing
      obtain ⟨instant, performed⟩ := runs_spared spared rfl listed
      obtain ⟨rfl, _⟩ := Prod.mk.inj performed
      cases ended.1
      rfl
    obtain ⟨owes, done⟩ := pending
    cases read
    dsimp only at rest
    split at rest
    · cases rest.1
      rfl
    · obtain ⟨applied, last, applying, rest⟩ := runs_bind_ok.mp rest
      obtain ⟨instant, performed⟩ := runs_spared spared rfl applying
      obtain ⟨rfl, _⟩ := Prod.mk.inj performed
      cases rest.1
      rfl

theorem reconcileStatus_done (spared : weather.Spares task.id) {result : Outcome}
    (ran : (reconcileStatus item task).Runs weather.meaning before (.ok result) after) :
    result.2 = true := by
  unfold reconcileStatus at ran
  split at ran
  · cases ran.1
    rfl
  · obtain ⟨cached, last, caching, rest⟩ := runs_bind_ok.mp ran
    obtain ⟨instant, performed⟩ := runs_spared spared rfl caching
    obtain ⟨rfl, _⟩ := Prod.mk.inj performed
    cases rest.1
    rfl

end Items

section Lookups

variable {itemId other : String} {task : Task} {tasks : WorkingSet}

theorem lookup_insert_self : (tasks.insert itemId task).lookup itemId = some task := by
  unfold WorkingSet.insert
  induction tasks with
  | nil => simp
  | cons entry rest ih =>
      by_cases same : entry.1 = itemId
      · rw [List.filter_cons_of_neg (by simpa using same)]
        exact ih
      · rw [List.filter_cons_of_pos (by simpa using same), List.cons_append]
        obtain ⟨key, held⟩ := entry
        rw [List.lookup_cons, beq_false_of_ne fun equal => same equal.symm]
        exact ih

theorem lookup_insert_other (different : other ≠ itemId) :
    (tasks.insert itemId task).lookup other = tasks.lookup other := by
  unfold WorkingSet.insert
  induction tasks with
  | nil =>
      rw [List.filter_nil, List.nil_append, List.lookup_cons, beq_false_of_ne different]
  | cons entry rest ih =>
      obtain ⟨key, held⟩ := entry
      by_cases same : key = itemId
      · rw [List.filter_cons_of_neg (by simpa using same), ih, List.lookup_cons,
          beq_false_of_ne fun equal => different (equal.trans same)]
      · rw [List.filter_cons_of_pos (by simpa using same), List.cons_append, List.lookup_cons,
          List.lookup_cons, ih]

def heldUnder (itemId : String) (tasks : WorkingSet) : Option TaskId :=
  (tasks.lookup itemId).map Task.id

end Lookups

section Boards

variable {weather : PollWeather} {before after : Database} {project : Project} {id : TaskId}
  {itemId : String}

theorem reconcileItem_done {item : RemoteProjectItem} {pass next : PollPass}
    (ran : (reconcileItem project pass item).Runs weather.meaning before (.ok next) after) :
    (∀ other, heldUnder other next.byItemId = heldUnder other pass.byItemId) ∧
      pass.reconciled ⊆ next.reconciled ∧
      (heldUnder item.itemNodeId pass.byItemId = some id → weather.Spares id →
        (before.record id).isSome = true → ⟨project.id, item, id⟩ ∈ next.reconciled) := by
  unfold reconcileItem at ran
  cases found : pass.byItemId.lookup item.itemNodeId with
  | none =>
      rw [found] at ran
      cases ran.1
      refine ⟨fun _ => rfl, List.Subset.refl _, fun held => ?_⟩
      rw [heldUnder, found] at held
      cases held
  | some task =>
      rw [found] at ran
      dsimp only at ran
      obtain ⟨first, second, content, rest⟩ := runs_bind_ok.mp ran
      have sameContent := (reconcileContent_same item task).runs content
      obtain ⟨⟨drifted, driftDone⟩, marked⟩ := first
      obtain ⟨ranking, third, priority, rest⟩ := runs_bind_ok.mp rest
      have samePriority := (reconcilePriority_same project item drifted).runs priority
      obtain ⟨ranked, priorityDone⟩ := ranking
      obtain ⟨settling, last, status, rest⟩ := runs_bind_ok.mp rest
      have sameStatus := (reconcileStatus_same item ranked).runs status
      obtain ⟨settled, statusDone⟩ := settling
      have sameRanked : ranked.id = task.id := samePriority.1.trans sameContent.1
      have sameId : settled.id = task.id := sameStatus.1.trans sameRanked
      cases rest.1
      refine ⟨fun other => ?_, List.subset_append_left _ _, fun held spared stored => ?_⟩
      · change heldUnder other (pass.byItemId.insert item.itemNodeId settled) = _
        unfold heldUnder
        by_cases same : other = item.itemNodeId
        · rw [same, lookup_insert_self, found, Option.map_some, Option.map_some, sameId]
        · rw [lookup_insert_other same]
      · rw [heldUnder, found] at held
        obtain rfl := Option.some.inj held
        have content := reconcileContent_done spared stored content
        have priority := reconcilePriority_done (sameContent.1 ▸ spared) priority
        have status := reconcileStatus_done (sameRanked ▸ spared) status
        dsimp only at content priority status
        rw [content, priority, status]
        exact List.mem_append_right _ (List.mem_singleton_self _)

theorem runs_items_done {items : List RemoteProjectItem} {pass last : PollPass}
    (spared : weather.Spares id) (stored : (before.record id).isSome = true)
    (ran : (foldEach (reconcileItem project) items pass).Runs weather.meaning before (.ok last)
      after)
    (held : heldUnder itemId pass.byItemId = some id) :
    heldUnder itemId last.byItemId = some id ∧ pass.reconciled ⊆ last.reconciled ∧
      ∀ item ∈ items, item.itemNodeId = itemId → ⟨project.id, item, id⟩ ∈ last.reconciled := by
  let holds (done : List RemoteProjectItem) (value : PollPass) (state : Database) : Prop :=
    (state.record id).isSome = true ∧ heldUnder itemId value.byItemId = some id ∧
      pass.reconciled ⊆ value.reconciled ∧
      ∀ item ∈ done, item.itemNodeId = itemId → ⟨project.id, item, id⟩ ∈ value.reconciled
  have start : holds [] pass before :=
    ⟨stored, held, List.Subset.refl _, fun _ none => (List.not_mem_nil none).elim⟩
  refine (@runs_foldEach ports Database SyncError _ _ weather.meaning _ holds items ?_ items [] pass
    last before after (List.Subset.refl _) start ran).2
  rintro done item value next first second _ ⟨stored, held, grown, all⟩ round
  obtain ⟨kept, more, reconciles⟩ := @reconcileItem_done _ _ _ _ id _ _ _ round
  refine ⟨stored_stays round stored, (kept itemId).trans held, fun _ member => more (grown member), ?_⟩
  intro other member same
  rcases List.mem_append.mp member with earlier | now
  · exact more (all other earlier same)
  · obtain rfl := List.mem_singleton.mp now
    exact reconciles (same ▸ held) spared stored

/-- One board: its changed items are reconciled. -/
theorem runs_board_done {pass next : PollPass} (spared : weather.Spares id)
    (stored : (before.record id).isSome = true) (held : heldUnder itemId pass.byItemId = some id)
    (ran : (pollProject pass project).Runs weather.meaning before (.ok next) after) :
    heldUnder itemId next.byItemId = some id ∧ pass.reconciled ⊆ next.reconciled ∧
      ∀ page, pageOf weather.provider project = some page →
        ∀ item ∈ changedSince (pass.watermarks.watermark project.id) page.items,
          item.itemNodeId = itemId → ⟨project.id, item, id⟩ ∈ next.reconciled := by
  unfold pollProject at ran
  cases field : project.statusFieldId with
  | none =>
      rw [field] at ran
      cases ran.1
      refine ⟨held, List.Subset.refl _, fun page shown => ?_⟩
      rw [pageOf, field] at shown
      cases shown
  | some statusFieldId =>
      rw [field] at ran
      obtain ⟨answer, middle, ⟨answered, rfl⟩, rest⟩ := ran
      have shown : pageOf weather.provider project = answer.toOption := by
        simp only [pageOf, field, ← answered]
        cases answer <;> rfl
      cases answer with
      | error error =>
          cases rest.1
          refine ⟨held, List.Subset.refl _, fun page read => ?_⟩
          rw [shown] at read
          cases read
      | ok page =>
          let page : PollPage := page
          change Program.Runs _ ((foldEach (reconcileItem project)
            (changedSince (pass.watermarks.watermark project.id) page.items) _).bind _) _ _ _ at rest
          obtain ⟨reconciled, last, folded, finished⟩ := runs_bind_ok.mp rest
          have done := runs_items_done spared stored folded held
          have advanced : ∀ since, (advance project.id since page reconciled).byItemId =
              reconciled.byItemId ∧ (advance project.id since page reconciled).reconciled =
                reconciled.reconciled := by
            intro since
            unfold advance
            split <;> exact ⟨rfl, rfl⟩
          obtain ⟨sameIndex, sameReconciled⟩ :=
            advanced (pass.watermarks.watermark project.id)
          cases finished.1
          rw [sameIndex, sameReconciled]
          refine ⟨done.1, done.2.1, fun other read item member => ?_⟩
          rw [shown] at read
          obtain rfl := Option.some.inj read
          exact done.2.2 item member

theorem runs_boards_done {projects : List Project} {first last : PollPass}
    (distinct : (projects.map Project.id).Nodup) (spared : weather.Spares id)
    (stored : (before.record id).isSome = true) (held : heldUnder itemId first.byItemId = some id)
    (ran : (foldEach pollProject projects first).Runs weather.meaning before (.ok last) after) :
    ∀ project ∈ projects, ∀ page, pageOf weather.provider project = some page →
      ∀ item ∈ changedSince (first.watermarks.watermark project.id) page.items,
        item.itemNodeId = itemId → ⟨project.id, item, id⟩ ∈ last.reconciled := by
  let holds (done : List Project) (pass : PollPass) (state : Database) : Prop :=
    (state.record id).isSome = true ∧ heldUnder itemId pass.byItemId = some id ∧
      (∀ other, (∀ project ∈ done, project.id ≠ other) →
        pass.watermarks.watermark other = first.watermarks.watermark other) ∧
      ∀ project ∈ done, ∀ page, pageOf weather.provider project = some page →
        ∀ item ∈ changedSince (first.watermarks.watermark project.id) page.items,
          item.itemNodeId = itemId → ⟨project.id, item, id⟩ ∈ pass.reconciled
  have start : holds [] first before :=
    ⟨stored, held, fun _ _ => rfl, fun _ member => (List.not_mem_nil member).elim⟩
  have ended := (runs_foldEach_exits holds (fun _ => True) ?_ start ran).1 last rfl
  · exact ended.2.2.2
  · rintro done board rest pass middle split ⟨stored, held, unmoved, all⟩
    refine ⟨fun next later round => ?_, fun _ _ _ => trivial⟩
    obtain ⟨kept, more, reconciles⟩ := runs_board_done spared stored held round
    have fresh : ∀ project ∈ done, project.id ≠ board.id := by
      intro project inDone
      rw [split, List.map_append, List.nodup_append] at distinct
      exact distinct.2.2 _ (List.mem_map_of_mem inDone) _
        (List.mem_map_of_mem List.mem_cons_self)
    refine ⟨stored_stays round stored, kept, fun other apart => ?_, ?_⟩
    · have different : other ≠ board.id := fun same =>
        apart board (List.mem_append_right _ (List.mem_singleton_self _)) same.symm
      rw [runs_pollProject (runs_provider round) other, if_neg different]
      exact unmoved other fun project member => apart project (List.mem_append_left _ member)
    · intro project member page shown item changed same
      rcases List.mem_append.mp member with earlier | now
      · exact more (all project earlier page shown item changed same)
      · obtain rfl := List.mem_singleton.mp now
        rw [← unmoved project.id fresh] at changed
        exact reconciles page shown item changed same

end Boards

def candidates (database : Database) (now : Timestamp) : WorkingSet :=
  indexByItem (database.listTasks { hasProjectItemId := true, pollableWorkspacesOnly := true
                                    syncedAtLt := some now, limit := some pollLimit })

theorem indexByItem_held {tasks : List Task} {itemId : String} {id : TaskId}
    (held : heldUnder itemId (indexByItem tasks) = some id) : ∃ task ∈ tasks, task.id = id := by
  obtain ⟨task, found, same⟩ := Option.map_eq_some_iff.mp held
  obtain ⟨front, back, split, _⟩ := List.lookup_eq_some_iff.mp found
  have inside : (itemId, task) ∈ indexByItem tasks :=
    split ▸ List.mem_append_right front List.mem_cons_self
  exact ⟨task, mem_indexByItem inside, same⟩

theorem candidate_stored {database : Database} {now : Timestamp} {itemId : String} {id : TaskId}
    (held : heldUnder itemId (candidates database now) = some id) :
    (database.record id).isSome = true := by
  obtain ⟨task, listed, rfl⟩ := indexByItem_held held
  obtain ⟨record, stored, _, rfl⟩ := Database.listed_record listed
  change (database.tasks.find record.id).isSome = true
  rw [Table.find_of_mem stored]
  rfl

section Passes

variable {weather : PollWeather} {before after : Database}

theorem runs_read {ε : Type} [OfPortError ε] {op : StoreOp} {answer : op.Answer}
    (ran : (query op : Service ε op.Answer).Runs weather.meaning before (.ok answer) after) :
    ∃ instant, op.perform instant before = (.ok answer, after) :=
  runs_query (runs_portsOf (runs_provider ran))

theorem runs_indexStaleCandidates {byItemId : WorkingSet}
    (ran : indexStaleCandidates.Runs weather.meaning before (.ok byItemId) after) :
    ∃ now, weather.clock now ∧ byItemId = candidates before now ∧ after = before := by
  obtain ⟨now, middle, ⟨_, _, ⟨reads, rfl⟩, same⟩, rest⟩ := runs_bind_ok.mp ran
  obtain ⟨same, rfl⟩ := same
  cases same
  obtain ⟨tasks, last, listed, finished⟩ := runs_bind_ok.mp rest
  obtain ⟨instant, performed⟩ := runs_read listed
  obtain ⟨answered, rfl⟩ := Prod.mk.inj performed
  obtain rfl := Except.ok.inj answered
  obtain ⟨built, rfl⟩ := finished
  exact ⟨now, reads, Except.ok.inj built, rfl⟩

theorem runs_pollOnce_done {watermarks : Watermarks} {pass : PollPass} {board : ProjectId}
    {id : TaskId} {item : RemoteProjectItem} (spared : weather.Spares id)
    (held : ∀ now, weather.clock now → heldUnder item.itemNodeId (candidates before now) = some id)
    {page : PollPage} (shown : pageShown weather.provider before board = some page)
    (changed : item ∈ changedSince (watermarks.watermark board) page.items)
    (ran : (pollOnce watermarks).Runs weather.meaning before (.ok pass) after) :
    ⟨board, item, id⟩ ∈ pass.reconciled := by
  obtain ⟨project, found, read⟩ := Option.bind_eq_some_iff.mp shown
  have member : project ∈ before.projects.rows := Table.find_mem found
  obtain rfl : project.id = board := Table.find_key found
  unfold pollOnce at ran
  obtain ⟨projects, middle, listed, rest⟩ := runs_bind_ok.mp ran
  obtain ⟨instant, performed⟩ := runs_read listed
  obtain ⟨answered, rfl⟩ := Prod.mk.inj performed
  obtain rfl := Except.ok.inj answered
  dsimp only at rest
  have boards : before.projects.rows.isEmpty = false :=
    List.isEmpty_eq_false_iff.mpr (List.ne_nil_of_mem member)
  rw [boards, if_neg Bool.false_ne_true] at rest
  obtain ⟨byItemId, second, indexed, rest⟩ := runs_bind_ok.mp rest
  obtain ⟨now, reads, rfl, rfl⟩ := runs_indexStaleCandidates indexed
  obtain ⟨polled, third, folded, rest⟩ := runs_bind_ok.mp rest
  obtain ⟨refreshed, last, _, finished⟩ := runs_bind_ok.mp rest
  cases finished.1
  exact runs_boards_done second.projects.distinct spared (candidate_stored (held now reads))
    (held now reads) folded project member page read item changed rfl

end Passes

structure PollRound where
  weather : PollWeather
  before : Database
  since : Watermarks

namespace PollRound

variable (round : PollRound) (board : ProjectId)

def page : Option PollPage := pageShown round.weather.provider round.before board

def Shows (item : RemoteProjectItem) : Prop :=
  ∃ page, round.page board = some page ∧ item ∈ page.items

def reaches : Timestamp := nextWatermark (round.since.watermark board) (round.page board)

def Attends (entry : Reconciled) : Prop :=
  (∃ page, round.page entry.project = some page ∧
    entry.item ∈ changedSince (round.since.watermark entry.project) page.items) ∧
  (∀ now, round.weather.clock now →
    heldUnder entry.item.itemNodeId (candidates round.before now) = some entry.taskId) ∧
  round.weather.Spares entry.taskId

end PollRound

def Tracks (database : Database) (id : TaskId) (itemId : String) : Prop :=
  ∃ task ∈ database.listTasks { pollableWorkspacesOnly := true },
    task.id = id ∧ task.projectItemId = some itemId

structure PollRound.Overtakes (round : PollRound) (earlier : List PollRound) (next : Timestamp)
    (entry : Reconciled) : Prop where
  shown : ∃ seen ∈ round :: earlier, seen.Shows entry.project entry.item
  above : round.since.watermark entry.project < entry.item.updatedAt
  below : entry.item.updatedAt ≤ next
  tracked : Tracks round.before entry.taskId entry.item.itemNodeId

/-- Whatever the watermarks overtake in this round has been attended, in it or before. -/
def AttendsOvertaken (earlier : List PollRound) (round : PollRound) : Prop :=
  ∀ entry, round.Overtakes earlier (round.reaches entry.project) entry →
    ∃ seen ∈ round :: earlier, seen.Attends entry

abbrev PollLog := List (PollRound × PollPass)

/-- Passes one after the other, each on any database and in any weather. A pass that fails has not
polled any board yet; a restart forgets the watermarks. -/
inductive PollHistory (admits : List PollRound → PollRound → Prop) : PollLog → Watermarks → Prop where
  | start : PollHistory admits [] []
  | polled {log : PollLog} {round : PollRound} {pass : PollPass} {after : Database}
      (earlier : PollHistory admits log round.since) (admitted : admits (log.map Prod.fst) round)
      (ran : (pollOnce round.since).Runs round.weather.meaning round.before (.ok pass) after) :
      PollHistory admits ((round, pass) :: log) pass.watermarks
  | restarted {log : PollLog} {watermarks : Watermarks}
      (earlier : PollHistory admits log watermarks) : PollHistory admits log []

def Overtaken (log : PollLog) (entry : Reconciled) : Prop :=
  ∃ round pass earlier, (round, pass) :: earlier <:+ log ∧ round.Overtakes (earlier.map Prod.fst)
    (pass.watermarks.watermark entry.project) entry

/-- The item was reconciled with the task, or the next pass sees it as changed. -/
def NotLost (log : PollLog) (watermarks : Watermarks) (entry : Reconciled) : Prop :=
  (∃ visit ∈ log, entry ∈ visit.2.reconciled) ∨
    watermarks.watermark entry.project < entry.item.updatedAt

theorem PollHistory.each {admits : List PollRound → PollRound → Prop} {log : PollLog}
    {watermarks : Watermarks} (history : PollHistory admits log watermarks) :
    ∀ round pass earlier, (round, pass) :: earlier <:+ log → admits (earlier.map Prod.fst) round ∧
      ∃ after, (pollOnce round.since).Runs round.weather.meaning round.before (.ok pass) after := by
  induction history with
  | start =>
      intro round pass earlier tail
      cases List.suffix_nil.mp tail
  | polled _ admitted ran ih =>
      intro round pass earlier tail
      rcases List.suffix_cons_iff.mp tail with same | inside
      · obtain ⟨pair, rfl⟩ := List.cons.inj same
        obtain ⟨rfl, rfl⟩ := Prod.mk.inj pair
        exact ⟨admitted, _, ran⟩
      · exact ih round pass earlier inside
  | restarted _ ih => exact ih

/-- Over any sequence of passes in which whatever the watermarks overtake has been attended, no
item that a watermark passed is lost to a task that followed it. -/
theorem overtaken_not_lost {log : PollLog} {watermarks : Watermarks}
    (history : PollHistory AttendsOvertaken log watermarks) (entry : Reconciled)
    (overtaken : Overtaken log entry) : NotLost log watermarks entry := by
  obtain ⟨round, pass, earlier, tail, overtakes⟩ := overtaken
  obtain ⟨attending, after, ran⟩ := history.each round pass earlier tail
  rw [runs_pollOnce (runs_provider ran)] at overtakes
  obtain ⟨seen, member, ⟨page, shown, changed⟩, held, spared⟩ := attending entry overtakes
  have visited : seen ∈ ((round, pass) :: earlier).map Prod.fst := member
  obtain ⟨⟨visit, result⟩, inTail, rfl⟩ := List.mem_map.mp visited
  obtain ⟨later, before, split⟩ := List.append_of_mem inTail
  have within : (visit, result) :: before <:+ log := by
    rw [split] at tail
    exact (List.suffix_append _ _).trans tail
  obtain ⟨_, last, reran⟩ := history.each visit result before within
  exact .inl ⟨(visit, result), tail.mem inTail,
    runs_pollOnce_done spared held shown changed reran⟩

def twoCards : Provider
  | .pollProjectItems .. => .ok ⟨[itemAt 5, { itemAt 11 with itemNodeId := "PVTI_2" }], false⟩
  | _ => .error (.network "offline")

def pollHandler (reads : Bool) : Handler ports Scene
  | .store (.getTask id), scene =>
    (if reads then scene.database.getTask id else .error (.backend "locked"), scene)
  | op, scene => portHandler twoCards .epoch op scene

def twoCardsRound (reads : Bool) : PollRound where
  weather := ⟨twoCards, fun op => reads = false ∧ ∃ id, op = .getTask id, fun now => now = .epoch⟩
  before := cardedBoard
  since := []

theorem pollHandler_sound (reads : Bool) (op : PortOp) (scene : Scene) :
    (twoCardsRound reads).weather.meaning op scene.database (pollHandler reads op scene).1
      (pollHandler reads op scene).2.database := by
  cases op with
  | store op =>
      cases op with
      | getTask id =>
          cases reads with
          | true => exact .inl ⟨.epoch, rfl⟩
          | false => exact .inr ⟨⟨rfl, id, rfl⟩, "locked", rfl, rfl⟩
      | _ => exact .inl ⟨.epoch, rfl⟩
  | provider op => exact ⟨rfl, rfl⟩
  | now => exact ⟨rfl, rfl⟩
  | freshTaskId => exact ⟨scene.database.nextTaskId_fresh, rfl⟩
  | freshEntryId => rfl
  | freshHash length => rfl

def twoCardsPass (reads : Bool) : Except SyncError PollPass :=
  ((pollOnce []).exec (pollHandler reads) ⟨cardedBoard, 0⟩).1

theorem twoCards_history {admits : List PollRound → PollRound → Prop} (reads : Bool)
    (admitted : admits [] (twoCardsRound reads)) : ∃ pass, twoCardsPass reads = .ok pass ∧
      PollHistory admits [(twoCardsRound reads, pass)] pass.watermarks := by
  have ran := exec_runs (pollHandler_sound reads) (pollOnce []) ⟨cardedBoard, 0⟩
  change Program.Runs _ _ _ (twoCardsPass reads) _ at ran
  have ended : (twoCardsPass reads).isOk = true := by cases reads <;> decide
  cases result : twoCardsPass reads with
  | error error =>
      rw [result] at ended
      cases ended
  | ok pass =>
      rw [result] at ran
      exact ⟨pass, rfl, .polled .start admitted ran⟩

def cardEntry : Reconciled := ⟨⟨"PVT_1"⟩, itemAt 5, ⟨1⟩⟩

theorem twoCards_overtaken {reads : Bool} {pass : PollPass}
    (ended : twoCardsPass reads = .ok pass) :
    Overtaken [(twoCardsRound reads, pass)] cardEntry := by
  have moved : (twoCardsPass reads).toOption.map (fun pass => pass.watermarks.watermark ⟨"PVT_1"⟩) =
      some ⟨10 * 1000000000⟩ := by cases reads <;> decide
  rw [ended] at moved
  refine ⟨_, pass, [], List.suffix_refl _, ?_, ?_, ?_, ?_⟩
  · exact ⟨_, List.mem_cons_self, _, rfl, List.mem_cons_self⟩
  · change Timestamp.epoch < (itemAt 5).updatedAt
    decide
  · rw [show pass.watermarks.watermark cardEntry.project = _ from Option.some.inj moved]
    decide
  · exact ⟨_, List.mem_cons_self, rfl, rfl⟩

theorem twoCards_attends : AttendsOvertaken [] (twoCardsRound true) := by
  rintro ⟨project, item, id⟩ ⟨⟨seen, member, page, shown, among⟩, _, _, task, listed, rfl, follows⟩
  obtain rfl := List.mem_singleton.mp member
  obtain ⟨board, found, read⟩ := Option.bind_eq_some_iff.mp shown
  obtain rfl := List.mem_singleton.mp (Table.find_mem found)
  obtain rfl : columnBoard.id = project := Table.find_key found
  obtain ⟨record, stored, _, rfl⟩ := Database.listed_record listed
  obtain rfl := List.mem_singleton.mp stored
  have own : item.itemNodeId = "PVTI_1" := (Option.some.inj follows).symm
  obtain rfl := Option.some.inj read
  have cards : item ∈ [itemAt 5, { itemAt 11 with itemNodeId := "PVTI_2" }] := among
  have card : item = itemAt 5 := by
    rcases List.mem_cons.mp cards with same | other
    · exact same
    · rw [List.mem_singleton.mp other] at own
      exact absurd own (by decide)
  subst card
  refine ⟨_, List.mem_cons_self, ⟨_, rfl, by decide⟩, ?_, ?_⟩
  · rintro now rfl
    decide
  · exact fun _ _ fails => Bool.noConfusion fails.1

theorem overtaken_not_lost_twoCards : ∃ pass, twoCardsPass true = .ok pass ∧
    NotLost [(twoCardsRound true, pass)] pass.watermarks cardEntry := by
  obtain ⟨pass, ended, history⟩ := twoCards_history true twoCards_attends
  exact ⟨pass, ended, overtaken_not_lost history cardEntry (twoCards_overtaken ended)⟩

/-- The read of the task failed, the watermark moved on to ten seconds, and the change of the card
at five seconds is neither reconciled nor seen again. -/
theorem failed_read_loses_change : ¬∀ log watermarks, PollHistory (fun _ _ => True) log watermarks →
    ∀ entry, Overtaken log entry → NotLost log watermarks entry := by
  intro kept
  obtain ⟨pass, ended, history⟩ := @twoCards_history (fun _ _ => True) false trivial
  have outcome : (twoCardsPass false).toOption.map (fun pass =>
      (pass.reconciled, pass.watermarks.watermark ⟨"PVT_1"⟩)) = some ([], ⟨10 * 1000000000⟩) := by
    decide
  rw [ended] at outcome
  obtain ⟨nothing, moved⟩ := Prod.mk.inj (Option.some.inj outcome)
  rcases kept _ _ history cardEntry (twoCards_overtaken ended) with ⟨visit, member, found⟩ | again
  · obtain rfl := List.mem_singleton.mp member
    rw [nothing] at found
    cases found
  · rw [show pass.watermarks.watermark cardEntry.project = _ from moved] at again
    revert again
    decide

end ProjectPoller

end RepoLink
