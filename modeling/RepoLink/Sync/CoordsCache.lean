import RepoLink.Library.ReadThrough
import RepoLink.Sync.Address
import RepoLink.Sync.Service
import RepoLink.TaskService.Relations

/-!
The relation coordinates over the workspace cache of a loop, as `TaskService` has them for a clear
and `SyncService` for the backfill of a promote.
-/

namespace RepoLink

open Effects Program KeyedTable ReadThrough

abbrev WorkspaceCache := Dict WorkspaceId Workspace

def cachedWorkspace {ε : Type} [OfPortError ε] (id : WorkspaceId) (cache : WorkspaceCache) :
    Service ε (Option Workspace × WorkspaceCache) :=
  fetch id (lookup (.getWorkspace id)) cache

/-- `relation_remote_coords_cached`: the filing chain runs inline. -/
def TaskService.relationRemoteCoordsCached (task : Task) (cache : WorkspaceCache) :
    Action (Option IssueCoords × WorkspaceCache) := do
  let (found, cache) ← cachedWorkspace task.workspaceId cache
  match found with
  | none => return (none, cache)
  | some workspace =>
    match task.remote with
    | none => return (none, cache)
    | some remote =>
      let step1 := task.filingRepoId.map RepoId.toOrigin
      let wsDefault := workspace.filingRepoId.map RepoId.toOrigin
      let step3 ← (match task.repoId with
        | none => return none
        | some repoId => do
          let view ← lookup (.getBinding repoId)
          return view.map fun view => view.instanceRow.originId : Action (Option RepoOriginId))
      match resolveFilingRepo step1 wsDefault step3 with
      | none => return (none, cache)
      | some originId =>
        let origin ← query (.getOrigin originId)
        return (some (origin.canonicalUrl, remote.remoteId), cache)

def SyncService.relationRemoteCoords (task : Task) (cache : WorkspaceCache) :
    Action (Option IssueCoords × WorkspaceCache) := do
  let (found, cache) ← cachedWorkspace task.workspaceId cache
  match found with
  | none => return (none, cache)
  | some workspace =>
    match task.remote with
    | none => return (none, cache)
    | some remote =>
      let step1 := task.filingRepoId.map RepoId.toOrigin
      let wsDefault := workspace.filingRepoId.map RepoId.toOrigin
      let step3 ← logicalOriginFor task
      match resolveFilingRepo step1 wsDefault step3 with
      | none => return (none, cache)
      | some originId =>
        let origin ← query (.getOrigin originId)
        return (some (origin.canonicalUrl, remote.remoteId), cache)

/-- The far ends of `clear_relations`, over the cache of its loop. -/
def TaskService.loadFarEndsCached (now : Timestamp) (taskId : TaskId)
    (removed : List TaskRelation) : List TaskId → WorkspaceCache →
    Action ((List (TaskId × Option IssueCoords) × List TaskWrite) × WorkspaceCache)
  | [], cache => return (([], []), cache)
  | otherId :: rest, cache => do
    let other ← query (.getTask otherId)
    let (changed, stripped) := stripReciprocals now taskId removed other
    let (coords, cache) ← relationRemoteCoordsCached stripped cache
    let ((coordsRest, writesRest), cache) ← loadFarEndsCached now taskId removed rest cache
    let writes : List TaskWrite :=
      if changed then [{ basis := some other, task := stripped, source := .localEdit }] else []
    return (((other.id, coords) :: coordsRest, writes ++ writesRest), cache)

/-- `relation_backfill_entries` over the cache that it starts empty. -/
def SyncService.relationBackfillEntriesCached (task : Task) (thisCoords : IssueCoords) :
    List TaskRelation → WorkspaceCache → Action (List OutboxEntry × WorkspaceCache)
  | [], cache => return ([], cache)
  | relation :: rest, cache => do
    let neighbor ← loadTask relation.other
    let (coords, cache) ← relationRemoteCoords neighbor cache
    let mutation := coords.bind fun neighborCoords =>
      relationMutation relation.kind true thisCoords neighborCoords
    let entry ← match mutation with
      | none => pure []
      | some mutation => do
        let entry ← newEntry task.id mutation
        pure [entry]
    let (entries, cache) ← relationBackfillEntriesCached task thisCoords rest cache
    return (entry ++ entries, cache)

def Database.coords (database : Database) (task : Task) : Except PortError (Option IssueCoords) :=
  match task.remote with
  | none => .ok none
  | some remote =>
    database.filed (database.filingOrigin task) fun origin => (origin.canonicalUrl, remote.remoteId)

def Database.homedCoords (database : Database) (task : Task) :
    Except PortError (Option IssueCoords) :=
  if (database.workspaces.find task.workspaceId).isSome then database.coords task else .ok none

theorem Database.filed_map {α β : Type} {database : Database} {origin : Option RepoOriginId}
    (make : RepoOrigin → α) (change : α → β) :
    (database.filed origin make).map (Option.map change) =
      database.filed origin fun row => change (make row) := by
  cases origin with
  | none => rfl
  | some id =>
      simp only [filed]
      cases database.getOrigin id <;> rfl

section Resolvers

variable {ε : Type} [OfPortError ε] {task : Task} {database after : Database}
  {cache later : WorkspaceCache} {coords : Option IssueCoords}

theorem TaskService.runs_relationRemoteCoords :
    (TaskService.relationRemoteCoords task).Runs portMeaning database (.ok coords) after ↔
      after = database ∧ database.coords task = .ok coords := by
  unfold TaskService.relationRemoteCoords Database.coords
  cases task.remote with
  | none => exact runs_done_ok.trans (by simp [eq_comm])
  | some remote =>
      refine (runs_quiet_bind_ok (filingCanonicalFor_quiet task)).trans ?_
      simp only [runs_filingCanonicalFor_ok, true_and, pure_eq, runs_done_ok]
      rw [← Database.filed_map RepoOrigin.canonicalUrl fun canonical => (canonical, remote.remoteId)]
      cases database.filed (database.filingOrigin task) RepoOrigin.canonicalUrl with
      | error error => simp [Except.map]
      | ok canonical => simp [Except.map, eq_comm]

def coordsWithin (task : Task) (workspace : Workspace) : Service ε (Option IssueCoords) :=
  match task.remote with
  | none => .done none
  | some remote =>
    (logicalOriginFor task).bind fun logical =>
      match resolveFilingRepo (task.filingRepoId.map RepoId.toOrigin)
          (workspace.filingRepoId.map RepoId.toOrigin) logical with
      | none => .done none
      | some id => (query (.getOrigin id) : Service ε RepoOrigin).bind fun origin =>
        .done (some (origin.canonicalUrl, remote.remoteId))

theorem coordsWithin_quiet (task : Task) (workspace : Workspace) :
    (coordsWithin task workspace : Service ε (Option IssueCoords)).Every PortOp.quiet := by
  unfold coordsWithin
  cases task.remote with
  | none => exact every_done none
  | some remote =>
      refine every_bind (logicalOriginFor_quiet task) fun logical => ?_
      cases resolveFilingRepo (task.filingRepoId.map RepoId.toOrigin)
        (workspace.filingRepoId.map RepoId.toOrigin) logical with
      | none => exact every_done none
      | some id => exact every_bind (query_quiet (.getOrigin id) rfl) fun _ => every_done _

theorem runs_coordsWithin {workspace : Workspace}
    (found : database.workspaces.find task.workspaceId = some workspace) :
    (coordsWithin task workspace : Service ε (Option IssueCoords)).Runs portMeaning database
      (.ok coords) after ↔ after = database ∧ database.coords task = .ok coords := by
  unfold coordsWithin Database.coords
  cases task.remote with
  | none => exact runs_done_ok.trans (by simp [eq_comm])
  | some remote =>
      have default : database.filingDefault task.workspaceId =
          workspace.filingRepoId.map RepoId.toOrigin := by
        rw [Database.filingDefault, found, Option.bind_some]
      refine (runs_quiet_bind_ok (logicalOriginFor_quiet task)).trans ?_
      simp only [runs_logicalOriginFor, true_and, exists_eq_left]
      rw [Database.filingOrigin, default]
      exact runs_filed fun origin => (origin.canonicalUrl, remote.remoteId)

theorem runs_cachedRelationCoords :
    (cachedRelationCoords task : Service ε (Option IssueCoords)).Runs portMeaning database
      (.ok coords) after ↔ after = database ∧ database.homedCoords task = .ok coords := by
  refine (runs_lookup_bind rfl fun _ _ => runs_lookup_workspace).trans ?_
  unfold Database.homedCoords
  cases found : database.workspaces.find task.workspaceId with
  | none => exact runs_done_ok.trans (by simp [eq_comm])
  | some workspace => exact runs_coordsWithin found

theorem coordsWithin_bind (task : Task) (workspace : Workspace) (cache : WorkspaceCache) :
    (match task.remote with
      | none => .done (none, cache)
      | some remote => (logicalOriginFor task).bind fun logical =>
        match resolveFilingRepo (task.filingRepoId.map RepoId.toOrigin)
            (workspace.filingRepoId.map RepoId.toOrigin) logical with
        | none => .done (none, cache)
        | some id => (query (.getOrigin id) : Service ε RepoOrigin).bind fun origin =>
          .done (some (origin.canonicalUrl, remote.remoteId), cache) :
      Service ε (Option IssueCoords × WorkspaceCache)) =
    (coordsWithin task workspace).bind fun coords => .done (coords, cache) := by
  unfold coordsWithin
  cases task.remote with
  | none => rfl
  | some remote =>
      refine Eq.trans ?_ (bind_assoc ..).symm
      refine congrArg (Program.bind _) (funext fun logical => ?_)
      cases resolveFilingRepo (task.filingRepoId.map RepoId.toOrigin)
        (workspace.filingRepoId.map RepoId.toOrigin) logical with
      | none => rfl
      | some id =>
          refine Eq.trans ?_ (bind_assoc ..).symm
          rfl

def coordsThrough (task : Task) (cache : WorkspaceCache) :
    Service ε (Option IssueCoords × WorkspaceCache) :=
  (cachedWorkspace task.workspaceId cache).bind fun found =>
    (found.1.elim (.done none) (coordsWithin task)).bind fun coords => .done (coords, found.2)

theorem TaskService.relationRemoteCoordsCached_eq (task : Task) (cache : WorkspaceCache) :
    TaskService.relationRemoteCoordsCached task cache = coordsThrough task cache := by
  refine congrArg (Program.bind _) (funext fun found => ?_)
  obtain ⟨found, cache⟩ := found
  cases found with
  | none => rfl
  | some workspace => exact coordsWithin_bind task workspace cache

theorem SyncService.relationRemoteCoords_eq (task : Task) (cache : WorkspaceCache) :
    SyncService.relationRemoteCoords task cache = coordsThrough task cache := by
  refine congrArg (Program.bind _) (funext fun found => ?_)
  obtain ⟨found, cache⟩ := found
  cases found with
  | none => rfl
  | some workspace => exact coordsWithin_bind task workspace cache

theorem coordsThrough_transparent (truthful : Truthful database.workspaces.find cache) :
    Transparent portMeaning database database.workspaces.find
      (coordsThrough task cache : Service ε (Option IssueCoords × WorkspaceCache))
      (cachedRelationCoords task) := by
  have split : (cachedRelationCoords task : Service ε (Option IssueCoords)) =
      (lookup (.getWorkspace task.workspaceId)).bind fun found =>
        found.elim (.done none) (coordsWithin task) :=
    congrArg (Program.bind _) (funext fun found => by cases found <;> rfl)
  rw [split]
  refine (transparent_fetch truthful fun _ _ => runs_lookup_workspace).bind ?_
  intro found later truthfulLater
  refine transparent_kept truthfulLater fun coords after ran => runs_quiet ?_ ran
  cases found with
  | none => exact every_done none
  | some workspace => exact coordsWithin_quiet task workspace

theorem TaskService.relationRemoteCoordsCached_transparent
    (truthful : Truthful database.workspaces.find cache) :
    Transparent portMeaning database database.workspaces.find
      (TaskService.relationRemoteCoordsCached task cache) (cachedRelationCoords task) := by
  rw [TaskService.relationRemoteCoordsCached_eq]
  exact coordsThrough_transparent truthful

theorem SyncService.relationRemoteCoords_transparent
    (truthful : Truthful database.workspaces.find cache) :
    Transparent portMeaning database database.workspaces.find
      (SyncService.relationRemoteCoords task cache) (cachedRelationCoords task) := by
  rw [SyncService.relationRemoteCoords_eq]
  exact coordsThrough_transparent truthful

end Resolvers

variable {database : Database}

theorem TaskService.loadFarEndsCached_transparent (now : Timestamp) (taskId : TaskId)
    (removed : List TaskRelation) (others : List TaskId) :
    ∀ {cache : WorkspaceCache}, Truthful database.workspaces.find cache →
      Transparent portMeaning database database.workspaces.find
        (loadFarEndsCached now taskId removed others cache)
        (loadFarEnds now taskId removed others) := by
  induction others with
  | nil =>
      intro cache truthful
      exact transparent_done truthful ([], [])
  | cons otherId rest ih =>
      intro cache truthful
      refine Transparent.after (fun _ _ ran => runs_quiet (query_quiet _ rfl) ran) fun other => ?_
      refine (relationRemoteCoordsCached_transparent truthful).bind ?_
      intro coords later truthfulLater
      refine (ih truthfulLater).bind fun loaded last truthfulLast => ?_
      exact transparent_done truthfulLast _

theorem SyncService.relationBackfillEntriesCached_transparent (task : Task)
    (thisCoords : IssueCoords) (relations : List TaskRelation) :
    ∀ {cache : WorkspaceCache}, Truthful database.workspaces.find cache →
      Transparent portMeaning database database.workspaces.find
        (relationBackfillEntriesCached task thisCoords relations cache)
        (relationBackfillEntries task thisCoords relations) := by
  induction relations with
  | nil =>
      intro cache truthful
      exact transparent_done truthful []
  | cons relation rest ih =>
      intro cache truthful
      refine Transparent.after (fun _ _ ran => runs_quiet (getTask_quiet _) ran) fun neighbor => ?_
      refine (relationRemoteCoords_transparent truthful).bind fun coords later truthfulLater => ?_
      dsimp only
      cases coords.bind fun neighborCoords =>
          relationMutation relation.kind true thisCoords neighborCoords with
      | none =>
          refine (ih truthfulLater).bind fun entries last truthfulLast => ?_
          exact transparent_done truthfulLast _
      | some mutation =>
          have minted : (newEntry task.id mutation : Action OutboxEntry).Every PortOp.quiet :=
            ⟨trivial, fun _ => ⟨trivial, fun _ => trivial⟩⟩
          refine Transparent.after (fun _ _ ran => runs_quiet minted ran) fun entry => ?_
          refine (ih truthfulLater).bind fun entries last truthfulLast => ?_
          exact transparent_done truthfulLast _

end RepoLink
