import RepoLink.Ports.Handler
import RepoLink.Query.Drift
import RepoLink.Sync.Address

/-!
A drift report and the cache of board statuses. A live read changes nothing but cached statuses,
and once all of them are written the cache answers as the live read did.
-/

namespace RepoLink

open Effects Program KeyedTable

abbrev WrittenStatuses := TaskId → Option (Option String)

namespace WrittenStatuses

def none : WrittenStatuses := fun _ => .none

def one (id : TaskId) (optionId : Option String) : WrittenStatuses :=
  fun wanted => if wanted = id then some optionId else .none

def followedBy (first second : WrittenStatuses) : WrittenStatuses :=
  fun id => (second id).or (first id)

end WrittenStatuses

def Task.recached (written : WrittenStatuses) (task : Task) : Task :=
  { task with projectStatusOptionId := (written task.id).getD task.projectStatusOptionId }

def TaskRecord.recached (written : WrittenStatuses) (record : TaskRecord) : TaskRecord :=
  { record with row := record.row.recached written }

/-- The databases differ in these cached statuses and in nothing else. -/
structure Recached (written : WrittenStatuses) (before after : Database) : Prop where
  rows : after.tasks.rows = before.tasks.rows.map (TaskRecord.recached written)
  others : after = { before with tasks := after.tasks }

namespace Recached

variable {first second written : WrittenStatuses} {before middle after : Database}

theorem refl (database : Database) : Recached .none database database :=
  ⟨(List.map_id _).symm, rfl⟩

theorem followed (left : Recached first before middle) (right : Recached second middle after) :
    Recached (first.followedBy second) before after := by
  refine ⟨?_, ?_⟩
  · rw [right.rows, left.rows, List.map_map]
    refine List.map_congr_left fun record _ => ?_
    simp only [Function.comp_apply, TaskRecord.recached, Task.recached,
      WrittenStatuses.followedBy]
    cases second record.row.id <;> rfl
  · rw [right.others, left.others]

theorem cacheProjectStatus (id : TaskId) (optionId : Option String) (database : Database) :
    Recached (.one id optionId) database (database.cacheProjectStatus id optionId) := by
  refine ⟨List.map_congr_left fun record _ => ?_, rfl⟩
  by_cases same : record.row.id = id
  · simp only [TaskRecord.recached, Task.recached, WrittenStatuses.one, TaskRecord.id, same, if_true]
    rfl
  · simp only [TaskRecord.recached, Task.recached, WrittenStatuses.one, TaskRecord.id, same, if_false]
    rfl

theorem listTasks (recached : Recached written before after) {filter : TaskFilter}
    (whole : filter.limit = none) (start : filter.offset = none) :
    after.listTasks filter = (before.listTasks filter).map (Task.recached written) := by
  have selected (record : TaskRecord) :
      after.matchesFilter filter (record.recached written) = before.matchesFilter filter record := by
    rw [recached.others]
    rfl
  have sorted := List.map_insertionSort (Database.listedBefore filter · ·)
    (Database.listedBefore filter · ·) (TaskRecord.recached written)
    (before.tasks.rows.filter (before.matchesFilter filter)) fun _ _ _ _ => Iff.rfl
  have selectedRows : after.tasks.rows.filter (after.matchesFilter filter) =
      (before.tasks.rows.filter (before.matchesFilter filter)).map (.recached written) := by
    rw [recached.rows, List.filter_map]
    exact congrArg _ (List.filter_congr fun record _ => selected record)
  unfold Database.listTasks Database.limitRows
  dsimp only
  rw [whole, start, selectedRows, ← sorted, Option.map_none, Option.getD_none, List.drop_zero,
    List.drop_zero, List.map_map, List.map_map]
  rfl

end Recached

namespace QueryService

variable {live : LiveStatuses} {before after : Database}

def FromLive (live : LiveStatuses) (candidates : List (Task × String))
    (written : WrittenStatuses) : Prop :=
  ∀ id optionId, written id = some optionId →
    ∃ task item, (task, item) ∈ candidates ∧ task.id = id ∧ live.get? item = some optionId

def Settles (live : LiveStatuses) (candidates : List (Task × String))
    (written : WrittenStatuses) : Prop :=
  ∀ task item, (task, item) ∈ candidates → ∀ optionId, live.get? item = some optionId →
    (written task.id).getD task.projectStatusOptionId = optionId

theorem FromLive.none {candidates : List (Task × String)} : FromLive live candidates .none :=
  fun _ _ absurd => nomatch absurd

theorem FromLive.untouched {candidates : List (Task × String)} {written : WrittenStatuses}
    (fromLive : FromLive live candidates written) {id : TaskId}
    (other : ∀ task item, (task, item) ∈ candidates → task.id ≠ id) : written id = .none := by
  cases wrote : written id with
  | none => rfl
  | some optionId =>
      obtain ⟨task, item, member, same, _⟩ := fromLive id optionId wrote
      exact absurd same (other task item member)

theorem FromLive.cons {candidates : List (Task × String)} {written : WrittenStatuses}
    (fromLive : FromLive live candidates written) (first : Task × String) :
    FromLive live (first :: candidates) written := by
  intro id optionId wrote
  obtain ⟨task, item, member, rest⟩ := fromLive id optionId wrote
  exact ⟨task, item, List.mem_cons_of_mem _ member, rest⟩

section Candidates

variable {task : Task} {item : String} {optionId : Option String}
  {rest : List (Task × String)} {written : WrittenStatuses}

/-- A candidate that the cache agrees with needs no write. -/
theorem Settles.cons (settles : Settles live rest written) (fromLive : FromLive live rest written)
    (others : ∀ other image, (other, image) ∈ rest → other.id ≠ task.id)
    (agrees : ∀ optionId, live.get? item = some optionId → task.projectStatusOptionId = optionId) :
    Settles live ((task, item) :: rest) written := by
  intro other image member optionId shown
  rcases List.mem_cons.mp member with same | inRest
  · cases same
    rw [fromLive.untouched others]
    exact agrees optionId shown
  · exact settles other image inRest optionId shown

theorem FromLive.followed (fromLive : FromLive live rest written)
    (shown : live.get? item = some optionId) :
    FromLive live ((task, item) :: rest)
      ((WrittenStatuses.one task.id optionId).followedBy written) := by
  intro id other wrote
  cases later : written id with
  | some value =>
      rw [WrittenStatuses.followedBy, later, Option.some_or] at wrote
      exact fromLive.cons _ id other (later.trans wrote)
  | none =>
      rw [WrittenStatuses.followedBy, later, Option.none_or, WrittenStatuses.one] at wrote
      split at wrote
      · rename_i sameId
        exact ⟨task, item, List.mem_cons_self, sameId.symm, shown.trans wrote⟩
      · cases wrote

theorem Settles.followed (settles : Settles live rest written)
    (fromLive : FromLive live rest written)
    (others : ∀ other image, (other, image) ∈ rest → other.id ≠ task.id)
    (shown : live.get? item = some optionId) :
    Settles live ((task, item) :: rest)
      ((WrittenStatuses.one task.id optionId).followedBy written) := by
  intro other image member value alsoShown
  rcases List.mem_cons.mp member with same | inRest
  · cases same
    rw [WrittenStatuses.followedBy, fromLive.untouched others, Option.none_or,
      WrittenStatuses.one, if_pos rfl, Option.getD_some]
    exact Option.some.inj (shown.symm.trans alsoShown)
  · rw [WrittenStatuses.followedBy, WrittenStatuses.one, if_neg (others other image inRest),
      Option.or_none]
    exact settles other image inRest value alsoShown

end Candidates

/-- Candidate by candidate: what is written is live, and an end without a notice settles them. -/
theorem runs_refreshCache : ∀ {candidates : List (Task × String)} {before after : Database}
    {notices : List QueryNotice}, (candidates.map fun entry => entry.1.id).Nodup →
    (refreshCache live candidates).Runs portMeaning before (.ok notices) after →
    ∃ written, Recached written before after ∧ FromLive live candidates written ∧
      (notices = [] ∧ Settles live candidates written ∨
        ∃ reason, notices = [.driftCacheNotRefreshed reason]) := by
  intro candidates
  induction candidates with
  | nil =>
      intro before after notices _ ran
      obtain ⟨noticesEq, rfl⟩ := ran
      cases noticesEq
      exact ⟨.none, .refl after, .none, .inl ⟨rfl, fun _ _ absurd => nomatch absurd⟩⟩
  | cons first rest ih =>
      obtain ⟨task, item⟩ := first
      intro before after notices distinct ran
      rw [List.map_cons, List.nodup_cons] at distinct
      have others : ∀ other image, (other, image) ∈ rest → other.id ≠ task.id :=
        fun other image member same => distinct.1 (List.mem_map.mpr ⟨_, member, same⟩)
      have skipped (ran : (refreshCache live rest).Runs portMeaning before (.ok notices) after)
          (agrees : ∀ optionId, live.get? item = some optionId →
            task.projectStatusOptionId = optionId) :
          ∃ written, Recached written before after ∧ FromLive live ((task, item) :: rest) written ∧
            (notices = [] ∧ Settles live ((task, item) :: rest) written ∨
              ∃ reason, notices = [.driftCacheNotRefreshed reason]) := by
        obtain ⟨written, recached, fromLive, ended⟩ := ih distinct.2 ran
        exact ⟨written, recached, fromLive.cons _,
          ended.imp_left fun ⟨silent, settles⟩ => ⟨silent, settles.cons fromLive others agrees⟩⟩
      rw [refreshCache] at ran
      cases shown : live.get? item with
      | none =>
          rw [shown] at ran
          exact skipped ran fun _ absurd => nomatch shown.symm.trans absurd
      | some optionId =>
          rw [shown] at ran
          by_cases same : optionId = task.projectStatusOptionId
          · simp only [same, if_true] at ran
            refine skipped ran fun other alsoShown => ?_
            rw [← same]
            exact Option.some.inj (shown.symm.trans alsoShown)
          · simp only [same, if_false] at ran
            obtain ⟨answer, middle, ⟨_, performed⟩ | ⟨message, rfl, rfl⟩, ran⟩ := ran
            · obtain ⟨rfl, rfl⟩ := Prod.mk.inj performed
              obtain ⟨written, recached, fromLive, ended⟩ := ih distinct.2 ran
              exact ⟨_, (Recached.cacheProjectStatus task.id optionId before).followed recached,
                fromLive.followed shown, ended.imp_left fun ⟨silent, settles⟩ =>
                  ⟨silent, settles.followed fromLive others shown⟩⟩
            · obtain ⟨noticesEq, rfl⟩ := ran
              cases noticesEq
              exact ⟨.none, .refl _, .none, .inr ⟨_, rfl⟩⟩

def readStatuses (read : LiveRead) (project : Option Project) (tasks : List Task) :
    LiveStatuses :=
  match read, project.bind Project.statusFieldId with
  | .provider fetchItemStatuses, some fieldId =>
    if (candidates tasks).isEmpty then Dict.empty
    else
      match fetchItemStatuses ((candidates tasks).map Prod.snd) fieldId with
      | .ok page => page.statuses
      | .error _ => Dict.empty
  | _, _ => Dict.empty

theorem mem_candidates {tasks : List Task} {task : Task} {item : String} :
    (task, item) ∈ candidates tasks ↔
      task ∈ tasks ∧ task.lifecycle ≠ .notPlanned ∧ task.projectItemId = some item := by
  simp only [candidates, List.mem_filterMap, List.mem_filter, Option.map_eq_some_iff,
    decide_eq_true_eq, Prod.mk.injEq]
  constructor
  · rintro ⟨other, ⟨member, open_⟩, image, shown, rfl, rfl⟩
    exact ⟨member, open_, shown⟩
  · rintro ⟨member, open_, shown⟩
    exact ⟨task, ⟨member, open_⟩, item, shown, rfl, rfl⟩

theorem candidates_distinct {tasks : List Task} (distinct : (tasks.map Task.id).Nodup) :
    ((candidates tasks).map fun entry => entry.1.id).Nodup := by
  have kept : ((tasks.filter fun task => task.lifecycle ≠ .notPlanned).map Task.id).Nodup :=
    (List.filter_sublist.map Task.id).nodup distinct
  unfold candidates
  generalize tasks.filter (fun task => task.lifecycle ≠ .notPlanned) = chosen at kept
  induction chosen with
  | nil => exact List.nodup_nil
  | cons task rest ih =>
      rw [List.map_cons, List.nodup_cons] at kept
      cases shown : task.projectItemId with
      | none =>
          rw [List.filterMap_cons_none (by rw [shown]; rfl)]
          exact ih kept.2
      | some item =>
          rw [List.filterMap_cons_some (by rw [shown]; rfl), List.map_cons, List.nodup_cons]
          refine ⟨fun member => kept.1 ?_, ih kept.2⟩
          obtain ⟨entry, inRest, same⟩ := List.mem_map.mp member
          obtain ⟨other, otherMember, shownOther⟩ := List.mem_filterMap.mp inRest
          obtain ⟨image, _, rfl⟩ := Option.map_eq_some_iff.mp shownOther
          exact List.mem_map.mpr ⟨other, otherMember, same⟩

theorem settled_empty {candidates : List (Task × String)} :
    Settles Dict.empty candidates .none :=
  fun _ _ _ _ absurd => nomatch absurd

theorem runs_liveStatuses {read : LiveRead} {project : Option Project} {tasks : List Task}
    {messages : List QueryNotice} (distinct : (tasks.map Task.id).Nodup)
    (ran : (liveStatuses read project tasks).Runs portMeaning before (.ok (live, messages))
      after) :
    live = readStatuses read project tasks ∧ ∃ written, Recached written before after ∧
      FromLive live (candidates tasks) written ∧
      ((∀ reason, .driftCacheNotRefreshed reason ∉ messages) →
        Settles live (candidates tasks) written) := by
  have unread {notices : List QueryNotice}
      (same : (.ok (live, messages) : Except QueryError _) = .ok (Dict.empty, notices))
      (state : after = before) (absent : readStatuses read project tasks = Dict.empty) :
      live = readStatuses read project tasks ∧ ∃ written, Recached written before after ∧
        FromLive live (candidates tasks) written ∧
        ((∀ reason, .driftCacheNotRefreshed reason ∉ messages) →
          Settles live (candidates tasks) written) := by
    cases same
    subst state
    exact ⟨absent.symm, .none, .refl after, .none, fun _ => settled_empty⟩
  cases read with
  | offline => exact unread ran.1 ran.2 rfl
  | unavailable reason => exact unread ran.1 ran.2 rfl
  | provider fetchItemStatuses =>
      simp only [liveStatuses] at ran
      simp only [readStatuses] at unread ⊢
      cases field : project.bind Project.statusFieldId with
      | none =>
          rw [field] at ran unread
          exact unread ran.1 ran.2 rfl
      | some fieldId =>
          rw [field] at ran unread
          by_cases nothing : (candidates tasks).isEmpty = true
          · simp only [nothing, if_true] at ran unread ⊢
            exact unread ran.1 ran.2 trivial
          · simp only [nothing, Bool.false_eq_true, if_false] at ran unread ⊢
            cases fetched : fetchItemStatuses ((candidates tasks).map Prod.snd) fieldId with
            | error error =>
                rw [fetched] at ran unread
                exact unread ran.1 ran.2 rfl
            | ok page =>
                rw [fetched] at ran
                obtain ⟨notices, middle, wrote, ended⟩ := runs_bind_ok.mp ran
                obtain ⟨same, rfl⟩ := ended
                cases same
                obtain ⟨written, recached, fromLive, outcome⟩ :=
                  runs_refreshCache (candidates_distinct distinct) wrote
                refine ⟨rfl, written, recached, fromLive, fun silent => ?_⟩
                rcases outcome with ⟨_, settles⟩ | ⟨reason, rfl⟩
                · exact settles
                · exact (silent reason (List.mem_append_right _ List.mem_cons_self)).elim

def dangling (database : Database) (task : Task) : Bool :=
  task.filingRepoId.any fun filing => (database.origins.table.find filing.toOrigin).isNone

theorem runs_filingDrifts {task : Task} {drifts : Bool} {database after : Database}
    (ran : (filingDrifts task).Runs portMeaning database (.ok drifts) after) :
    drifts = dangling database task ∧ after = database := by
  unfold filingDrifts at ran
  unfold dangling
  cases filed : task.filingRepoId with
  | none =>
      rw [filed] at ran
      exact ⟨Except.ok.inj ran.1, ran.2⟩
  | some filing =>
      rw [filed] at ran
      obtain ⟨origin, middle, looked, same, state⟩ := runs_bind_ok.mp ran
      cases same
      obtain ⟨unchanged, answered⟩ := (runs_lookup_ok
        (show (StoreOp.getOrigin filing.toOrigin).reads = true from rfl)).mp looked
      refine ⟨?_, state.trans unchanged⟩
      have asked : (StoreOp.getOrigin filing.toOrigin).answer database =
        database.getOrigin filing.toOrigin := rfl
      rw [asked, Database.getOrigin] at answered
      rw [Option.any_some]
      cases stored : database.origins.table.find filing.toOrigin with
      | none =>
          rw [stored] at answered
          exact congrArg Option.isNone answered
      | some row =>
          rw [stored] at answered
          exact congrArg Option.isNone answered

def rowOf (database : Database) (project : Option Project) (live : LiveStatuses) (task : Task) :
    Option DriftRow :=
  if task.lifecycle = .notPlanned then none
  else driftRow project live task (dangling database task)

theorem Recached.rowOf {written : WrittenStatuses} (recached : Recached written before after)
    (project : Option Project) : rowOf after project live = rowOf before project live := by
  funext task
  unfold QueryService.rowOf dangling
  rw [recached.others]

theorem runs_driftRows {project : Option Project} {tasks : List Task} {rows : List DriftRow}
    {database : Database}
    (ran : (driftRows project live tasks []).Runs portMeaning database (.ok rows) after) :
    rows = tasks.filterMap (rowOf database project live) ∧ after = database := by
  unfold driftRows at ran
  refine @runs_foldEach _ _ _ _ _ _ _ (fun done rows state =>
    rows = done.filterMap (rowOf database project live) ∧ state = database) tasks ?_ tasks []
    [] rows database after (List.Subset.refl tasks) ⟨rfl, rfl⟩ ran
  rintro done task value next before later _ ⟨rfl, rfl⟩ ran
  rw [List.filterMap_append]
  by_cases dropped : task.lifecycle = .notPlanned
  · simp only [dropped, if_true] at ran
    obtain ⟨same, rfl⟩ := ran
    cases same
    have noRow : rowOf later project live task = none := if_pos dropped
    rw [List.filterMap_cons_none noRow, List.filterMap_nil, List.append_nil]
    exact ⟨rfl, rfl⟩
  · simp only [dropped, if_false] at ran
    obtain ⟨drifts, middle, looked, same, rfl⟩ := runs_bind_ok.mp ran
    cases same
    obtain ⟨rfl, rfl⟩ := runs_filingDrifts looked
    have row : rowOf later project live task = driftRow project live task (dangling later task) :=
      if_neg dropped
    refine ⟨congrArg _ ?_, rfl⟩
    rw [← row]
    cases found : rowOf later project live task with
    | none => rw [List.filterMap_cons_none found, List.filterMap_nil, Option.toList_none]
    | some other => rw [List.filterMap_cons_some found, List.filterMap_nil, Option.toList_some]

def projectOf (id : WorkspaceId) (database : Database) : Option Project :=
  ((database.workspaces.find id).bind (·.projectId)).bind database.projects.find

theorem runs_getWorkspace {id : WorkspaceId} {workspace : Workspace} {database : Database}
    (ran : (query (.getWorkspace id) : Service QueryError Workspace).Runs portMeaning database
      (.ok workspace) after) :
    database.workspaces.find id = some workspace ∧ after = database := by
  obtain ⟨unchanged, answered⟩ := (runs_query_ok
    (show (StoreOp.getWorkspace id).reads = true from rfl)).mp ran
  refine ⟨?_, unchanged⟩
  have asked : database.getWorkspace id = .ok workspace := answered
  unfold Database.getWorkspace at asked
  cases found : database.workspaces.find id <;> rw [found] at asked <;> cases asked
  rfl

theorem runs_getProject {id : ProjectId} {project : Project} {database : Database}
    (ran : (query (.getProject id) : Service QueryError Project).Runs portMeaning database
      (.ok project) after) :
    database.projects.find id = some project ∧ after = database := by
  obtain ⟨unchanged, answered⟩ := (runs_query_ok
    (show (StoreOp.getProject id).reads = true from rfl)).mp ran
  refine ⟨?_, unchanged⟩
  have asked : database.getProject id = .ok project := answered
  unfold Database.getProject at asked
  cases found : database.projects.find id <;> rw [found] at asked <;> cases asked
  rfl

theorem runs_resolveProject {id : WorkspaceId} {project : Option Project} {database : Database}
    (ran : (resolveProject id).Runs portMeaning database (.ok project) after) :
    project = projectOf id database ∧ after = database := by
  obtain ⟨workspace, middle, first, rest⟩ := runs_bind_ok.mp ran
  obtain ⟨found, rfl⟩ := runs_getWorkspace first
  unfold projectOf
  rw [found]
  change project = workspace.projectId.bind middle.projects.find ∧ after = middle
  cases linked : workspace.projectId with
  | none =>
      rw [linked] at rest
      exact ⟨Except.ok.inj rest.1, rest.2⟩
  | some projectId =>
      rw [linked] at rest
      obtain ⟨shown, last, second, same, rfl⟩ := runs_bind_ok.mp rest
      cases same
      obtain ⟨found, rfl⟩ := runs_getProject second
      exact ⟨found.symm, rfl⟩

abbrev inWorkspace (id : WorkspaceId) : TaskFilter := { workspaceId := some id }

theorem runs_driftReport {id : WorkspaceId} {read : LiveRead} {report : DriftReport}
    (ran : (driftReport id read).Runs portMeaning before (.ok report) after) :
    let tasks := before.listTasks (inWorkspace id)
    let project := projectOf id before
    let live := readStatuses read project tasks
    report.rows = tasks.filterMap (rowOf before project live) ∧
      ∃ written, Recached written before after ∧ FromLive live (candidates tasks) written ∧
        ((∀ reason, .driftCacheNotRefreshed reason ∉ report.messages) →
          Settles live (candidates tasks) written) := by
  intro tasks project live
  obtain ⟨listed, first, listing, ran⟩ := runs_bind_ok.mp ran
  obtain ⟨rfl, answered⟩ := (runs_query_ok
    (show (StoreOp.listTasks (inWorkspace id)).reads = true from rfl)).mp listing
  cases answered
  obtain ⟨resolved, second, resolving, ran⟩ := runs_bind_ok.mp ran
  obtain ⟨rfl, rfl⟩ := runs_resolveProject resolving
  obtain ⟨⟨shown, messages⟩, third, reading, ran⟩ := runs_bind_ok.mp ran
  obtain ⟨rfl, written, recached, fromLive, settles⟩ :=
    runs_liveStatuses (Database.listTasks_distinct _ _) reading
  obtain ⟨rows, last, rowing, same, rfl⟩ := runs_bind_ok.mp ran
  cases same
  obtain ⟨rowsEq, rfl⟩ := runs_driftRows rowing
  refine ⟨?_, written, recached, fromLive, settles⟩
  rw [rowsEq, Recached.rowOf recached]

theorem resolveProject_quiet (id : WorkspaceId) : (resolveProject id).Every PortOp.quiet := by
  refine every_bind (query_quiet (.getWorkspace id) rfl) fun workspace => ?_
  split
  · trivial
  · exact every_bind (query_quiet _ rfl) fun _ => trivial

theorem driftRows_quiet (project : Option Project) (live : LiveStatuses) (tasks : List Task) :
    (driftRows project live tasks []).Every PortOp.quiet := by
  unfold driftRows
  refine every_foldEach (fun rows task => ?_) _ _
  split
  · trivial
  · refine every_bind ?_ fun _ => trivial
    unfold filingDrifts
    split
    · trivial
    · exact every_bind (every_lookup rfl) fun _ => trivial

theorem drift_quiet (id : WorkspaceId) : (drift id).Every PortOp.quiet := by
  refine every_bind ?_ fun _ => trivial
  refine every_bind (query_quiet (.listTasks (inWorkspace id)) rfl) fun tasks => ?_
  refine every_bind (resolveProject_quiet id) fun project => ?_
  refine every_bind (show (liveStatuses .offline project tasks).Every PortOp.quiet from trivial)
    fun ⟨live, messages⟩ => ?_
  exact every_bind (driftRows_quiet project live tasks) fun _ => trivial

/-- Why a task may be in a report. -/
inductive Drifts (database : Database) (project : Option Project) (live : LiveStatuses)
    (task : Task) : String → Prop where
  | sync (dirty : task.sync = .dirtyLocal ∨ task.sync = .dirtyRemote ∨ task.sync = .conflict) :
      Drifts database project live task "sync"
  | status {actual expected : String} (known : actualStatus live task = some actual)
      (mapped : (project.bind fun board => board.resolvedOptionIdFor task.isOpen) = some expected)
      (differ : actual ≠ expected) : Drifts database project live task "project_status"
  | filing {filing : RepoId} (filed : task.filingRepoId = some filing)
      (gone : database.origins.table.find filing.toOrigin = none) :
      Drifts database project live task "filing_repo"

/-- The row of a task, with the reasons why it is there. -/
structure RowFor (database : Database) (project : Option Project) (live : LiveStatuses)
    (task : Task) (row : DriftRow) : Prop where
  taskId : row.taskId = task.id
  title : row.title = task.title
  syncState : row.syncState = task.sync
  remoteId : row.remoteId = task.remote.map RemoteRef.remoteId
  lastRefreshedAt : row.lastRefreshedAt = task.syncedAt
  projectStatus : row.projectStatus =
    project.bind fun board => (actualStatus live task).bind board.optionNameFor
  projectStatusExpected : row.projectStatusExpected =
    project.bind fun board => (board.resolvedOptionIdFor task.isOpen).bind board.optionNameFor
  reasons : ∀ reason, reason ∈ row.reasons ↔ Drifts database project live task reason

section Rows

variable {database : Database} {project : Option Project} {task : Task}

theorem syncDrifts_iff : syncDrifts task = true ↔
    task.sync = .dirtyLocal ∨ task.sync = .dirtyRemote ∨ task.sync = .conflict := by
  unfold syncDrifts
  cases task.sync <;> simp

theorem projectAxis_drifts_iff {actualId : Option String} :
    (projectAxis project task actualId).2.2 = true ↔ ∃ actual expected, actualId = some actual ∧
      (project.bind fun board => board.resolvedOptionIdFor task.isOpen) = some expected ∧
      actual ≠ expected := by
  cases project with
  | none => exact ⟨nofun, fun ⟨_, _, _, absurd, _⟩ => nomatch absurd⟩
  | some board =>
      rw [Option.bind_some]
      simp only [projectAxis]
      cases actualId with
      | none => exact ⟨nofun, fun ⟨_, _, absurd, _⟩ => nomatch absurd⟩
      | some actual =>
          cases board.resolvedOptionIdFor task.isOpen with
          | none => exact ⟨nofun, fun ⟨_, _, _, absurd, _⟩ => nomatch absurd⟩
          | some expected =>
              refine decide_eq_true_iff.trans ⟨fun differ => ⟨actual, expected, rfl, rfl, differ⟩, ?_⟩
              rintro ⟨_, _, same, sameExpected, differ⟩
              cases same
              cases sameExpected
              exact differ

theorem dangling_iff : dangling database task = true ↔ ∃ filing,
    task.filingRepoId = some filing ∧ database.origins.table.find filing.toOrigin = none := by
  simp only [dangling, Option.any_eq_true, Option.isNone_iff_eq_none]

theorem drifts_iff {reason : String} : Drifts database project live task reason ↔
    syncDrifts task = true ∧ reason = "sync" ∨
      (projectAxis project task (actualStatus live task)).2.2 = true ∧ reason = "project_status" ∨
      dangling database task = true ∧ reason = "filing_repo" := by
  rw [syncDrifts_iff, projectAxis_drifts_iff, dangling_iff]
  constructor
  · rintro (dirty | ⟨known, mapped, differ⟩ | ⟨filed, gone⟩)
    · exact .inl ⟨dirty, rfl⟩
    · exact .inr (.inl ⟨⟨_, _, known, mapped, differ⟩, rfl⟩)
    · exact .inr (.inr ⟨⟨_, filed, gone⟩, rfl⟩)
  · rintro (⟨dirty, rfl⟩ | ⟨⟨_, _, known, mapped, differ⟩, rfl⟩ | ⟨⟨_, filed, gone⟩, rfl⟩)
    · exact .sync dirty
    · exact .status known mapped differ
    · exact .filing filed gone

theorem rowOf_some {row : DriftRow} (made : rowOf database project live task = some row) :
    task.lifecycle ≠ .notPlanned ∧ row.reasons ≠ [] ∧ RowFor database project live task row := by
  unfold rowOf at made
  split at made
  · cases made
  rename_i planned
  simp only [driftRow] at made
  split at made
  · cases made
  rename_i drifted
  cases made
  refine ⟨planned, ?_, rfl, rfl, rfl, rfl, rfl, by cases project <;> rfl, by cases project <;> rfl,
    fun reason => ?_⟩
  · intro empty
    simp only [List.append_eq_nil_iff] at empty
    revert drifted empty
    cases syncDrifts task <;> cases (projectAxis project task (actualStatus live task)).2.2 <;>
      cases dangling database task <;> decide
  · rw [drifts_iff]
    simp only [List.mem_append]
    cases syncDrifts task <;> cases (projectAxis project task (actualStatus live task)).2.2 <;>
      cases dangling database task <;> simp [or_assoc]

theorem rowOf_none (absent : rowOf database project live task = none)
    (planned : task.lifecycle ≠ .notPlanned) (reason : String) :
    ¬Drifts database project live task reason := by
  rw [drifts_iff]
  unfold rowOf at absent
  rw [if_neg planned] at absent
  simp only [driftRow] at absent
  split at absent
  · rename_i still
    simp only [Bool.and_eq_true, Bool.not_eq_true'] at still
    rw [still.1.1, still.1.2, still.2]
    simp
  · cases absent

end Rows

theorem filterMap_sublist {make : Task → Option DriftRow}
    (ids : ∀ task row, make task = some row → row.taskId = task.id) {tasks : List Task} :
    ((tasks.filterMap make).map DriftRow.taskId).Sublist (tasks.map Task.id) := by
  induction tasks with
  | nil => exact .slnil
  | cons task rest ih =>
      rw [List.map_cons]
      cases made : make task with
      | none =>
          rw [List.filterMap_cons_none made]
          exact ih.cons _
      | some row =>
          rw [List.filterMap_cons_some made, List.map_cons, ids task row made]
          exact ih.cons_cons _

theorem candidate_of_id {tasks : List Task} {task other : Task} {item : String}
    (distinct : (tasks.map Task.id).Nodup) (member : task ∈ tasks)
    (candidate : (other, item) ∈ candidates tasks) (same : other.id = task.id) :
    task.projectItemId = some item := by
  obtain ⟨otherMember, _, placed⟩ := mem_candidates.mp candidate
  rw [← List.inj_on_of_nodup_map distinct otherMember member same]
  exact placed

theorem rowOf_recached {written : WrittenStatuses} {project : Option Project} {tasks : List Task}
    {task : Task} (distinct : (tasks.map Task.id).Nodup) (member : task ∈ tasks)
    (recached : Recached written before after) (fromLive : FromLive live (candidates tasks) written)
    (settles : Settles live (candidates tasks) written) :
    rowOf after project Dict.empty (task.recached written) = rowOf before project live task := by
  rw [Recached.rowOf recached]
  unfold rowOf
  by_cases dropped : task.lifecycle = .notPlanned
  · rw [if_pos dropped]
    exact if_pos dropped
  have known : actualStatus Dict.empty (task.recached written) = actualStatus live task := by
    have cached : actualStatus Dict.empty (task.recached written) =
        (written task.id).getD task.projectStatusOptionId := by
      unfold actualStatus
      cases (task.recached written).projectItemId <;> rfl
    rw [cached]
    unfold actualStatus
    cases placed : task.projectItemId with
    | none =>
        rw [fromLive.untouched fun other item candidate same =>
          nomatch placed.symm.trans (candidate_of_id distinct member candidate same)]
        rfl
    | some item =>
        cases shown : live.get? item with
        | some optionId =>
            rw [Option.bind_some, shown, Option.getD_some]
            exact settles task item (mem_candidates.mpr ⟨member, dropped, placed⟩) optionId shown
        | none =>
            have unwritten : written task.id = none := by
              cases wrote : written task.id with
              | none => rfl
              | some optionId =>
                  obtain ⟨other, image, candidate, same, alsoShown⟩ := fromLive _ _ wrote
                  have sameItem := placed.symm.trans
                    (candidate_of_id distinct member candidate same)
                  cases sameItem
                  exact nomatch shown.symm.trans alsoShown
            rw [unwritten, Option.bind_some, shown]
  rw [if_neg dropped]
  refine (if_neg dropped).trans ?_
  unfold driftRow
  rw [known]
  rfl

/-- What `drift_report` tells and writes. The rows are the tasks of the workspace that are not
dropped and have a reason to be there, each with all of its reasons. Nothing is written but
statuses that the board has just shown, for tasks of the workspace, to the cache. If no notice says
that the cache is behind, an offline report that comes right after writes nothing and gives the
same rows. -/
theorem driftReport_faithful {id : WorkspaceId} {read : LiveRead} {report : DriftReport}
    (ran : (driftReport id read).Runs portMeaning before (.ok report) after) :
    let tasks := before.listTasks (inWorkspace id)
    let project := projectOf id before
    let live := readStatuses read project tasks
    ((report.rows.map DriftRow.taskId).Sublist (tasks.map Task.id) ∧
      (∀ task ∈ tasks, (∃ row ∈ report.rows, row.taskId = task.id) ↔
        task.lifecycle ≠ .notPlanned ∧ ∃ reason, Drifts before project live task reason) ∧
      ∀ row ∈ report.rows, ∃ task ∈ tasks, RowFor before project live task row) ∧
    (∃ written, Recached written before after ∧ FromLive live (candidates tasks) written) ∧
    ((∀ reason, .driftCacheNotRefreshed reason ∉ report.messages) →
      ∀ result last, (drift id).Runs portMeaning after result last →
        last = after ∧ ∀ rows, result = .ok rows → rows = report.rows) := by
  intro tasks project live
  obtain ⟨rowsEq, written, recached, fromLive, settles⟩ := runs_driftReport ran
  have distinct : (tasks.map Task.id).Nodup := Database.listTasks_distinct _ _
  refine ⟨⟨?_, fun task member => ?_, fun row member => ?_⟩, ⟨written, recached, fromLive⟩,
    fun silent result last again => ⟨runs_quiet (drift_quiet id) again, ?_⟩⟩
  · rw [rowsEq]
    exact filterMap_sublist fun task row made => (rowOf_some made).2.2.taskId
  · rw [rowsEq]
    constructor
    · rintro ⟨row, inRows, sameId⟩
      obtain ⟨other, otherMember, made⟩ := List.mem_filterMap.mp inRows
      obtain ⟨planned, some, rowFor⟩ := rowOf_some made
      cases List.inj_on_of_nodup_map distinct otherMember member (rowFor.taskId.symm.trans sameId)
      obtain ⟨reason, given⟩ := List.exists_mem_of_ne_nil _ some
      exact ⟨planned, reason, (rowFor.reasons reason).mp given⟩
    · rintro ⟨planned, reason, drifts⟩
      cases made : rowOf before project live task with
      | none => exact (rowOf_none made planned reason drifts).elim
      | some row =>
          exact ⟨row, List.mem_filterMap.mpr ⟨task, member, made⟩, (rowOf_some made).2.2.taskId⟩
  · rw [rowsEq] at member
    obtain ⟨task, inTasks, made⟩ := List.mem_filterMap.mp member
    exact ⟨task, inTasks, (rowOf_some made).2.2⟩
  · rintro rows rfl
    obtain ⟨offline, middle, reported, same, _⟩ := runs_bind_ok.mp again
    cases same
    have listed : after.listTasks (inWorkspace id) = tasks.map (Task.recached written) :=
      recached.listTasks rfl rfl
    have sameProject : projectOf id after = project := by
      rw [recached.others]
      rfl
    rw [(runs_driftReport reported).1, rowsEq, listed, sameProject, List.filterMap_map]
    exact List.filterMap_congr fun task member =>
      rowOf_recached distinct member recached fromLive (settles silent)

end QueryService

def twoColumns : Project :=
  ⟨⟨"PVT_1"⟩, "board", [⟨"F_1", "Status", .status, [⟨"O_1", "Todo", 0⟩, ⟨"O_2", "Done", 1⟩]⟩],
    [⟨true, "O_1"⟩, ⟨false, "O_2"⟩], []⟩

def driftTask (id : Nat) (lifecycle : Lifecycle) (sync : SyncState) (projectItemId : Option String)
    (hash : String) : Task where
  id := ⟨id⟩
  workspaceId := ⟨1⟩
  repoId := some ⟨21⟩
  filingRepoId := some ⟨11⟩
  title := "t"
  body := ""
  lifecycle
  sync
  priority := .p3
  issueType := none
  issueTypePending := false
  assignees := []
  remote := none
  relations := []
  comments := []
  projectItemId
  projectStatusOptionId := some "O_1"
  syncedAt := none
  hash
  createdAt := .epoch
  updatedAt := .epoch
  syncedBaseline := none

def driftingTasks : Database := { oneBoard with
  tasks := ⟨[.write .epoch .pull (driftTask 1 .open .synced (some "PVTI_1") "aaa") none,
    .write .epoch .pull (driftTask 2 .open .dirtyLocal none "bbb") none,
    .write .epoch .pull (driftTask 3 .notPlanned .conflict (some "PVTI_3") "ccc") none], by decide⟩
  projects := ⟨[twoColumns], by decide⟩ }

def movedCard : LiveRead :=
  .provider fun _ _ => .ok ⟨Dict.collect [("PVTI_1", some "O_2")], false⟩

namespace QueryService

theorem driftReport_faithful_movedCard : ∃ report last,
    (driftReport ⟨1⟩ movedCard).Runs portMeaning driftingTasks (.ok report) last ∧
      report.rows.map (fun row => (row.taskId, row.reasons)) =
        [(⟨1⟩, ["project_status"]), (⟨2⟩, ["sync"])] ∧
      ∀ result later, (drift ⟨1⟩).Runs portMeaning last result later →
        later = last ∧ ∀ rows, result = .ok rows → rows = report.rows := by
  obtain ⟨report, ended, rows, silent⟩ : ∃ report,
      (ending obligingProvider .epoch (driftReport ⟨1⟩ movedCard) driftingTasks).1 = .ok report ∧
      report.rows.map (fun row => (row.taskId, row.reasons)) =
        [(⟨1⟩, ["project_status"]), (⟨2⟩, ["sync"])] ∧ report.messages = [] :=
    ⟨_, rfl, by decide, rfl⟩
  have ran := runs_after obligingProvider .epoch (driftReport ⟨1⟩ movedCard) driftingTasks
  rw [ended] at ran
  refine ⟨report, _, ran, rows, (driftReport_faithful ran).2.2 ?_⟩
  intro reason
  rw [silent]
  exact List.not_mem_nil

end QueryService

end RepoLink
