import Mathlib.Data.List.ReduceOption
import RepoLink.Library.Traverse
import RepoLink.Ports.Handler
import RepoLink.Properties.ReadyForest
import RepoLink.Query.Views

/-!
What the three views of the open work call blocked. `blocked_tasks` and the flag of `assigned_to`
look at the direct blockers, the ready view at everything behind them; a blocker that is closed but
waits for something open itself makes the difference.
-/

namespace RepoLink

open KeyedTable Groves Relation Traversals

namespace QueryService

variable {database : Database} {order : ViewOrder} {id : TaskId} {task : Task}

def WaitsFor (database : Database) (id blocker : TaskId) : Prop :=
  ∃ task ∈ tasksForGlobalRelationGraph database, task.id = id ∧ blocker ∈ task.blockedBy

def StillOpen (database : Database) (id : TaskId) : Prop :=
  ∃ task ∈ tasksForGlobalRelationGraph database, task.id = id ∧ task.isOpen = true

def HeldDirectly (database : Database) (id : TaskId) : Prop :=
  ∃ blocker, WaitsFor database id blocker ∧ StillOpen database blocker

def Held (database : Database) (id : TaskId) : Prop :=
  ∃ blocker, TransGen (WaitsFor database) id blocker ∧ StillOpen database blocker

def parentIn (order : ViewOrder) (workspaceId : WorkspaceId) (database : Database) :
    TaskId → Option TaskId :=
  let all := tasksForGlobalRelationGraph database
  (kinship (workspaceTasks all [] workspaceId) (mapOf (order.tasks.iterate all))).parentOf

def ShownReady (view : List ReadyWorkspace) (workspaceId : WorkspaceId) (id : TaskId) : Prop :=
  ∃ entry ∈ view, entry.workspaceId = workspaceId ∧ ∃ forest, entry.tree = some forest ∧
    ∃ row ∈ Rose.labelsOfAll forest, row.taskId = id ∧ row.ready = true

section Graph

variable {tasks : List Task} (whole : tasks.Perm (tasksForGlobalRelationGraph database))

include whole

theorem get?_global : (mapOf tasks).get? id = some task ↔
    task ∈ tasksForGlobalRelationGraph database ∧ task.id = id := by
  have distinct : (tasks.map Task.id).Nodup :=
    (whole.map Task.id).nodup_iff.mpr (Database.listTasks_distinct {} database)
  rw [get?_mapOf distinct, whole.mem_iff]

theorem blockedBy_global : BlockedBy (mapOf tasks) = WaitsFor database := by
  funext id blocker
  refine propext (mem_blockersOf.trans ?_)
  simp only [get?_global whole, WaitsFor, and_assoc]

theorem opensIn_global : opensIn (mapOf tasks) id = true ↔ StillOpen database id := by
  rw [opensIn_iff]
  simp only [get?_global whole, StillOpen, and_assoc]

theorem isTransitivelyBlocked_global :
    isTransitivelyBlocked id (mapOf tasks) = true ↔ Held database id := by
  rw [isTransitivelyBlocked_iff, blockedBy_global whole]
  simp only [opensIn_global whole, Held]

theorem isReady_global (isOpen : task.isOpen = true) (settled : task.sync ≠ .conflict) :
    isReady (mapOf tasks) task = true ↔ ¬Held database task.id := by
  rw [isReady, isOpen, decide_eq_true settled, Bool.true_and, Bool.true_and, Bool.not_eq_true',
    Bool.eq_false_iff, Ne, isTransitivelyBlocked_global whole]

end Graph

theorem heldDirectly_iff (stored : task ∈ tasksForGlobalRelationGraph database) :
    HeldDirectly database task.id ↔ ∃ blocker ∈ task.blockedBy, StillOpen database blocker := by
  constructor
  · rintro ⟨blocker, ⟨other, member, same, names⟩, stillOpen⟩
    have distinct := Database.listTasks_distinct {} database
    obtain rfl := List.inj_on_of_nodup_map distinct member stored same
    exact ⟨blocker, names, stillOpen⟩
  · rintro ⟨blocker, names, stillOpen⟩
    exact ⟨blocker, ⟨task, stored, rfl, names⟩, stillOpen⟩

section Listings

variable {workspaceId : WorkspaceId}

theorem mem_openTasks {assignee : Option String} :
    task ∈ database.listTasks
        { workspaceId := some workspaceId, isOpen := some true, assignee := assignee } ↔
      task ∈ tasksForGlobalRelationGraph database ∧ task.workspaceId = workspaceId ∧
        task.isOpen = true ∧ ∀ wanted ∈ assignee, wanted ∈ task.assignees := by
  have matched : ∀ record : TaskRecord, database.matchesFilter
      { workspaceId := some workspaceId, isOpen := some true, assignee := assignee } record = true ↔
        record.loadListed.workspaceId = workspaceId ∧ record.loadListed.isOpen = true ∧
          ∀ wanted ∈ assignee, wanted ∈ record.loadListed.assignees := by
    intro record
    simp only [Database.matchesFilter, Database.inWindow, Option.all_none, Option.all_some,
      Option.all_eq_true, List.isEmpty_nil, Bool.not_false, Bool.true_or, Bool.and_true,
      Bool.true_and, Bool.and_eq_true, decide_eq_true_eq, and_assoc]
    rfl
  rw [tasksForGlobalRelationGraph, Database.mem_listTasks rfl rfl, Database.mem_listTasks rfl rfl]
  constructor
  · rintro ⟨record, member, holds, rfl⟩
    exact ⟨⟨record, member, rfl, rfl⟩, (matched record).mp holds⟩
  · rintro ⟨⟨record, member, _, rfl⟩, holds⟩
    exact ⟨record, member, (matched record).mpr holds, rfl⟩

theorem mem_openIds : id ∈ ((tasksForGlobalRelationGraph database).filter Task.isOpen).map Task.id ↔
    StillOpen database id := by
  simp only [List.mem_map, List.mem_filter, StillOpen, and_assoc]
  exact exists_congr fun _ => and_congr_right fun _ => and_comm

theorem blockedRow_shown {openIds : List TaskId} :
    (∃ row, blockedRow openIds task = some row ∧ row.taskId = id) ↔
      task.id = id ∧ ∃ blocker ∈ task.blockedBy, blocker ∈ openIds := by
  unfold blockedRow
  dsimp only
  by_cases free : task.blockedBy.filter (· ∈ openIds) = []
  · rw [if_pos free]
    constructor
    · rintro ⟨_, made, _⟩
      cases made
    · rintro ⟨_, blocker, names, isOpen⟩
      exact (List.filter_eq_nil_iff.mp free blocker names (decide_eq_true isOpen)).elim
  · rw [if_neg free]
    obtain ⟨blocker, member⟩ := List.exists_mem_of_ne_nil _ free
    obtain ⟨names, isOpen⟩ := List.mem_filter.mp member
    constructor
    · rintro ⟨row, made, rfl⟩
      cases made
      exact ⟨rfl, blocker, names, of_decide_eq_true isOpen⟩
    · rintro ⟨rfl, _⟩
      exact ⟨_, rfl, rfl⟩

theorem mem_blockedTasks (stored : task ∈ tasksForGlobalRelationGraph database)
    (isOpen : task.isOpen = true) :
    task.id ∈ (blockedTasks task.workspaceId {} database).map BlockedTaskRow.taskId ↔
      HeldDirectly database task.id := by
  have all : blockedTasks task.workspaceId {} database =
      (database.listTasks { workspaceId := some task.workspaceId, isOpen := some true }).filterMap
        (blockedRow (((tasksForGlobalRelationGraph database).filter Task.isOpen).map Task.id)) := rfl
  rw [all, heldDirectly_iff stored]
  simp only [List.mem_map, List.mem_filterMap]
  constructor
  · rintro ⟨row, ⟨other, listed, made⟩, same⟩
    obtain ⟨idEq, blocker, names, member⟩ := blockedRow_shown.mp ⟨row, made, same⟩
    have distinct := Database.listTasks_distinct {} database
    obtain rfl := List.inj_on_of_nodup_map distinct (mem_openTasks.mp listed).1 stored idEq
    exact ⟨blocker, names, mem_openIds.mp member⟩
  · rintro ⟨blocker, names, stillOpen⟩
    obtain ⟨row, made, same⟩ :=
      blockedRow_shown.mpr ⟨rfl, blocker, names, mem_openIds.mpr stillOpen⟩
    have listed : task ∈ database.listTasks
        { workspaceId := some task.workspaceId, isOpen := some true } :=
      mem_openTasks.mpr ⟨stored, rfl, isOpen, fun _ member => (Option.not_mem_none _ member).elim⟩
    exact ⟨row, ⟨task, listed, made⟩, same⟩

theorem assignedTo_shows {assignee : String} {project : Option Project}
    (home : resolveWorkspaceProject workspaceId database = .ok project) :
    ∃ rows, assignedTo workspaceId assignee {} database = .ok rows ∧ ∀ row, row ∈ rows ↔
      ∃ task ∈ tasksForGlobalRelationGraph database, task.workspaceId = workspaceId ∧
        task.isOpen = true ∧ assignee ∈ task.assignees ∧
        assignedRow (mapOf (tasksForGlobalRelationGraph database)) project task = row := by
  refine ⟨((database.listTasks
      { workspaceId := some workspaceId, isOpen := some true, assignee := some assignee }).map
    (assignedRow (mapOf (tasksForGlobalRelationGraph database)) project)).insertionSort
      (assignedBefore · ·), ?_, fun row => ?_⟩
  · unfold assignedTo
    rw [home]
    rfl
  · simp [List.mem_insertionSort, List.mem_map, mem_openTasks, and_assoc]

theorem assignedRow_blocked (stored : task ∈ tasksForGlobalRelationGraph database)
    (project : Option Project) :
    (assignedRow (mapOf (tasksForGlobalRelationGraph database)) project task).blocked = true ↔
      HeldDirectly database task.id := by
  rw [heldDirectly_iff stored, assignedRow, List.any_eq_true]
  simp only [opensIn_global (List.Perm.refl _)]

end Listings

section Frontier

variable {workspace : Workspace} {project : Option Project} {candidates : List Task}
  {repoIds : List RepoId} {byId : TaskMap}

theorem workspaceTasks_sublist {workspaceId : WorkspaceId} :
    (workspaceTasks candidates repoIds workspaceId).Sublist candidates :=
  List.filter_sublist.trans List.filter_sublist

theorem mem_workspaceTasks {workspaceId : WorkspaceId} :
    task ∈ workspaceTasks candidates [] workspaceId ↔
      task ∈ candidates ∧ task.workspaceId = workspaceId := by
  simp [workspaceTasks]

theorem mem_readyIds {wsTasks : List Task} {ids : HashOrder TaskId} :
    id ∈ ids.iterate ((selectReady byId wsTasks).map Task.id) ↔
      ∃ task ∈ wsTasks, task.id = id ∧ isReady byId task = true := by
  rw [(ids.perm _).mem_iff, selectReady]
  simp only [List.mem_map, List.mem_insertionSort, List.mem_filter, and_assoc]
  exact exists_congr fun _ => and_congr_right fun _ => and_comm

structure EntryShows (byId : TaskMap) (wsTasks : List Task) (workspaceId : WorkspaceId)
    (entry : Option ReadyWorkspace) : Prop where
  built : ∀ shown, entry = some shown →
    shown.workspaceId = workspaceId ∧ shown.tree.isSome = true
  shows : ∀ id, (∃ shown, entry = some shown ∧ ∃ forest, shown.tree = some forest ∧
      ∃ row ∈ Rose.labelsOfAll forest, row.taskId = id ∧ row.ready = true) ↔
    (∃ task ∈ wsTasks, task.id = id ∧ isReady byId task = true) ∧
      Ends (kinship wsTasks byId).parentOf id

theorem readyWorkspace_shows (order : ViewOrder) (distinct : (candidates.map Task.id).Nodup)
    (home : resolveWorkspaceProject workspace.id database = .ok project) :
    ∃ entry, readyWorkspace order byId candidates repoIds database workspace = .ok entry ∧
      EntryShows byId (workspaceTasks candidates repoIds workspace.id) workspace.id entry := by
  have distinct : ((workspaceTasks candidates repoIds workspace.id).map Task.id).Nodup :=
    (workspaceTasks_sublist.map Task.id).nodup distinct
  unfold readyWorkspace
  dsimp only
  generalize workspaceTasks candidates repoIds workspace.id = wsTasks at distinct ⊢
  have selected : ∀ id, id ∈ order.ids.iterate ((selectReady byId wsTasks).map Task.id) ↔
      ∃ task ∈ wsTasks, task.id = id ∧ isReady byId task = true := fun _ => mem_readyIds
  by_cases idle : (order.ids.iterate ((selectReady byId wsTasks).map Task.id)).isEmpty = true
  · rw [if_pos idle]
    refine ⟨none, rfl, fun _ absent => (by cases absent), fun id => ?_⟩
    constructor
    · rintro ⟨_, absent, _⟩
      cases absent
    · rintro ⟨ready, _⟩
      have member := (selected id).mpr ready
      rw [List.isEmpty_iff.mp idle] at member
      exact (List.not_mem_nil member).elim
  · rw [if_neg idle, home]
    have ids := @selectReady_ids _ byId distinct
    have same := order.ids.perm ((selectReady byId wsTasks).map Task.id)
    obtain ⟨forest, ctx, built, sameKin, sameReady, prepared, planted⟩ :=
      buildReadyTree_grows order.ids byId project distinct (same.nodup_iff.mpr ids.1)
        fun id member => ids.2 (same.mem_iff.mp member)
    refine ⟨some ⟨workspace.id, some forest⟩, by rw [← built]; rfl, ?_, fun id => ?_⟩
    · intro shown same
      cases same
      exact ⟨rfl, rfl⟩
    · rw [← selected, ← sameKin, ← sameReady, ← planted.shows_iff prepared]
      constructor
      · rintro ⟨shown, same, tree, isTree, found⟩
        cases same
        cases isTree
        exact found
      · intro found
        exact ⟨_, rfl, forest, rfl, found⟩

/-- The foreign key of `workspaces`: the project of a workspace is stored. -/
def ProjectsStored (database : Database) : Prop :=
  ∀ workspace ∈ database.workspaces.rows, ∀ projectId, workspace.projectId = some projectId →
    ∃ project, database.projects.find projectId = some project

theorem getWorkspace_ok {workspaceId : WorkspaceId} :
    database.getWorkspace workspaceId = .ok workspace ↔
      database.workspaces.find workspaceId = some workspace := by
  unfold Database.getWorkspace
  cases database.workspaces.find workspaceId with
  | none => exact iff_of_false (fun same => by cases same) fun same => by cases same
  | some found => exact ⟨fun same => by cases same; rfl, fun same => by cases same; rfl⟩

theorem mem_workspacesIn {scope : Option (List WorkspaceId)} {workspaces : List Workspace}
    (listed : workspacesIn scope database = .ok workspaces) (member : workspace ∈ workspaces) :
    workspace ∈ database.workspaces.rows := by
  cases scope with
  | none =>
      cases listed
      exact List.mem_of_mem_filter member
  | some ids =>
      obtain ⟨id, _, found⟩ := (exists_of_forall₂ (mapM_ok_iff.mp listed)).2 workspace member
      exact Table.find_mem (getWorkspace_ok.mp found)

theorem resolveWorkspaceProject_ends (keys : ProjectsStored database)
    (member : workspace ∈ database.workspaces.rows) :
    ∃ project, resolveWorkspaceProject workspace.id database = .ok project := by
  have found := getWorkspace_ok.mpr (Table.find_of_mem member)
  unfold resolveWorkspaceProject
  rw [found]
  obtain ⟨_, _, projectId, _, _, _⟩ := workspace
  cases projectId with
  | none => exact ⟨none, rfl⟩
  | some projectId =>
      obtain ⟨project, stored⟩ := keys _ member projectId rfl
      have loaded : database.getProject projectId = .ok project := by
        unfold Database.getProject
        rw [stored]
      refine ⟨some project, ?_⟩
      change (database.getProject projectId >>= _) = _
      rw [loaded]
      rfl

/-- What the whole view shows of a workspace that it spans. -/
theorem readyView_shows (order : ViewOrder) {scope : Option (List WorkspaceId)}
    {workspaces : List Workspace} (keys : ProjectsStored database)
    (listed : workspacesIn scope database = .ok workspaces) :
    ∃ view, readyView order scope [] {} database = .ok view ∧
      (∀ entry ∈ view, entry.tree.isSome = true) ∧
      ∀ workspace ∈ workspaces, ∀ id, ShownReady view workspace.id id ↔
        (∃ task ∈ tasksForGlobalRelationGraph database,
          task.workspaceId = workspace.id ∧ task.id = id ∧
          isReady (mapOf (order.tasks.iterate (tasksForGlobalRelationGraph database))) task =
            true) ∧
        Ends (parentIn order workspace.id database) id := by
  let all := tasksForGlobalRelationGraph database
  let byId := mapOf (order.tasks.iterate all)
  have each : ∀ workspace ∈ workspaces, ∃ entry,
      readyWorkspace order byId all [] database workspace = .ok entry ∧
        EntryShows byId (workspaceTasks all [] workspace.id) workspace.id entry := by
    intro workspace member
    obtain ⟨project, home⟩ := resolveWorkspaceProject_ends keys (mem_workspacesIn listed member)
    exact readyWorkspace_shows order (Database.listTasks_distinct {} database) home
  obtain ⟨entries, ran, pairs⟩ := mapM_ends each
  obtain ⟨entryOf, workspaceOf⟩ := exists_of_forall₂ pairs
  have narrowed : ∀ workspaceId id, (∃ task ∈ workspaceTasks all [] workspaceId,
      task.id = id ∧ isReady byId task = true) ↔ ∃ task ∈ all, task.workspaceId = workspaceId ∧
        task.id = id ∧ isReady byId task = true := by
    intro workspaceId id
    simp only [mem_workspaceTasks, and_assoc]
  refine ⟨entries.reduceOption, ?_, fun shown member => ?_, fun workspace member id => ?_⟩
  · unfold readyView
    rw [listed]
    change (workspaces.mapM (readyWorkspace order byId all [] database) >>= _) = _
    rw [ran]
    rfl
  · obtain ⟨_, _, good⟩ := workspaceOf _ (List.reduceOption_mem_iff.mp member)
    exact (good.built shown rfl).2
  · rw [← narrowed]
    constructor
    · rintro ⟨shown, inView, home, found⟩
      obtain ⟨other, _, good⟩ := workspaceOf _ (List.reduceOption_mem_iff.mp inView)
      rw [← (good.built shown rfl).1, home] at good
      exact (good.shows id).mp ⟨shown, rfl, found⟩
    · intro ready
      obtain ⟨entry, inEntries, good⟩ := entryOf workspace member
      obtain ⟨shown, rfl, found⟩ := (good.shows id).mpr ready
      exact ⟨shown, List.reduceOption_mem_iff.mpr inEntries, (good.built shown rfl).1, found⟩

end Frontier

/-- The three views of the open work, for an open task without a conflict. The ready view shows it
if nothing open can be reached over blockers, and its parents in the workspace come to an end;
`blocked_tasks` lists it if a direct blocker is open, and every row that `assigned_to` has for it
says the same. -/
theorem views_agree (order : ViewOrder) {scope : Option (List WorkspaceId)}
    {workspaces : List Workspace} (keys : ProjectsStored database)
    (listed : workspacesIn scope database = .ok workspaces)
    (stored : task ∈ tasksForGlobalRelationGraph database)
    (inScope : ∃ workspace ∈ workspaces, workspace.id = task.workspaceId)
    (isOpen : task.isOpen = true) (settled : task.sync ≠ .conflict) :
    (∃ view, readyView order scope [] {} database = .ok view ∧
      (∀ entry ∈ view, entry.tree.isSome = true) ∧
      (ShownReady view task.workspaceId task.id ↔
        ¬Held database task.id ∧ Ends (parentIn order task.workspaceId database) task.id)) ∧
    (task.id ∈ (blockedTasks task.workspaceId {} database).map BlockedTaskRow.taskId ↔
      HeldDirectly database task.id) ∧
    ∀ assignee ∈ task.assignees, ∃ rows,
      assignedTo task.workspaceId assignee {} database = .ok rows ∧
      (∃ row ∈ rows, row.taskId = task.id) ∧ ∀ row ∈ rows, row.taskId = task.id →
        (row.blocked = true ↔ task.id ∈
          (blockedTasks task.workspaceId {} database).map BlockedTaskRow.taskId) := by
  have unique : ∀ other ∈ tasksForGlobalRelationGraph database, other.id = task.id →
      other = task := fun other member same =>
    List.inj_on_of_nodup_map (Database.listTasks_distinct {} database) member stored same
  obtain ⟨workspace, member, home⟩ := inScope
  have blocked := mem_blockedTasks stored isOpen
  refine ⟨?_, blocked, fun assignee assigned => ?_⟩
  · obtain ⟨view, ran, built, shows⟩ := readyView_shows order keys listed
    refine ⟨view, ran, built, ?_⟩
    rw [← home, shows workspace member, ← isReady_global (order.tasks.perm _) isOpen settled]
    refine and_congr_left fun _ => ⟨?_, fun ready => ⟨task, stored, home.symm, rfl, ready⟩⟩
    rintro ⟨other, inStore, _, same, ready⟩
    rw [← unique other inStore same]
    exact ready
  · obtain ⟨project, resolved⟩ :=
      resolveWorkspaceProject_ends keys (mem_workspacesIn listed member)
    rw [home] at resolved
    obtain ⟨rows, ran, rowsOf⟩ := @assignedTo_shows database _ assignee _ resolved
    refine ⟨rows, ran, ⟨_, (rowsOf _).mpr ⟨task, stored, rfl, isOpen, assigned, rfl⟩, rfl⟩, ?_⟩
    intro row inRows same
    obtain ⟨other, inStore, _, _, _, rfl⟩ := (rowsOf row).mp inRows
    rw [unique other inStore same, blocked, assignedRow_blocked stored]

def viewedRecord (id : TaskId) (lifecycle : Lifecycle) (relations : List TaskRelation) :
    TaskRecord where
  row := { childTask id lifecycle [] with workspaceId := ⟨1⟩, assignees := ["alice"] }
  snapshots := .empty
  relations := relations
  comments := .empty
  mapping := none

def viewedStore : Database := { twoRepos with
  tasks := ⟨[viewedRecord ⟨1⟩ .open [⟨.blockedBy, ⟨2⟩⟩],
    viewedRecord ⟨2⟩ .completed [⟨.blockedBy, ⟨3⟩⟩], viewedRecord ⟨3⟩ .open [],
    viewedRecord ⟨4⟩ .open [⟨.childOf, ⟨5⟩⟩], viewedRecord ⟨5⟩ .open [⟨.childOf, ⟨4⟩⟩]],
    by decide⟩ }

def listedOrder : ViewOrder := ⟨.asListed, .asListed⟩

def viewedTask : Task := (viewedRecord ⟨1⟩ .open [⟨.blockedBy, ⟨2⟩⟩]).loadListed

theorem views_agree_viewed :
    (∃ view, readyView listedOrder (some [⟨1⟩]) [] {} viewedStore = .ok view ∧
      (∀ entry ∈ view, entry.tree.isSome = true) ∧
      (ShownReady view ⟨1⟩ ⟨1⟩ ↔
        ¬Held viewedStore ⟨1⟩ ∧ Ends (parentIn listedOrder ⟨1⟩ viewedStore) ⟨1⟩)) ∧
    (⟨1⟩ ∈ (blockedTasks ⟨1⟩ {} viewedStore).map BlockedTaskRow.taskId ↔
      HeldDirectly viewedStore ⟨1⟩) ∧
    ∀ assignee ∈ viewedTask.assignees, ∃ rows,
      assignedTo ⟨1⟩ assignee {} viewedStore = .ok rows ∧
      (∃ row ∈ rows, row.taskId = ⟨1⟩) ∧ ∀ row ∈ rows, row.taskId = ⟨1⟩ →
        (row.blocked = true ↔
          ⟨1⟩ ∈ (blockedTasks ⟨1⟩ {} viewedStore).map BlockedTaskRow.taskId) := by
  have listed : workspacesIn (some [⟨1⟩]) viewedStore =
      .ok [⟨⟨1⟩, .active, none, none, none, none⟩] := rfl
  have keys : ProjectsStored viewedStore := by
    intro workspace member projectId home
    obtain rfl := List.mem_singleton.mp member
    cases home
  have stored : viewedTask ∈ tasksForGlobalRelationGraph viewedStore := by decide
  exact views_agree listedOrder keys listed stored ⟨_, List.mem_cons_self, rfl⟩ rfl (by decide)

/-- Tasks 1 and 4 are open and without a conflict; neither is shown as ready, and neither is
listed as blocked. -/
theorem viewedStore_disagrees : ∃ view,
    readyView listedOrder (some [⟨1⟩]) [] {} viewedStore = .ok view ∧
      ∀ id ∈ [(⟨1⟩ : TaskId), ⟨4⟩],
        (∃ task ∈ tasksForGlobalRelationGraph viewedStore, task.id = id ∧
          task.workspaceId = ⟨1⟩ ∧ task.isOpen = true ∧ task.sync ≠ .conflict) ∧
        ¬(ShownReady view ⟨1⟩ id ↔
          id ∉ (blockedTasks ⟨1⟩ {} viewedStore).map BlockedTaskRow.taskId) := by
  let shown : ReadyNode := .node ⟨⟨3⟩, "task", true, some .open, some .p1, ["alice"], none, none⟩ []
  have onlyThird : ∀ id, ShownReady [⟨⟨1⟩, some [shown]⟩] ⟨1⟩ id → id = ⟨3⟩ := by
    rintro id ⟨entry, member, _, forest, isTree, row, inForest, rfl, _⟩
    obtain rfl := List.mem_singleton.mp member
    cases isTree
    exact congrArg ReadyRow.taskId (List.mem_singleton.mp inForest)
  have unlisted : blockedTasks ⟨1⟩ {} viewedStore = [] := by decide
  refine ⟨[⟨⟨1⟩, some [shown]⟩], rfl, fun id member => ⟨?_, fun agree => ?_⟩⟩
  · have isOpen : ∀ id ∈ [(⟨1⟩ : TaskId), ⟨4⟩], ∃ task ∈ tasksForGlobalRelationGraph viewedStore,
        task.id = id ∧ task.workspaceId = ⟨1⟩ ∧ task.isOpen = true ∧ task.sync ≠ .conflict := by
      decide
    exact isOpen id member
  · have absent : id ≠ ⟨3⟩ := by
      rintro rfl
      exact absurd member (by decide)
    rw [unlisted] at agree
    exact absent (onlyThird id (agree.mpr List.not_mem_nil))

end QueryService

end RepoLink
