import RepoLink.Properties.RemoteIdentity
import RepoLink.Sync.CoordsCache

/-!
Relate, clear and backfill resolve the ends of an edge alike, unless a workspace row is gone: then
the copies over a cache give up, and `filing_canonical_for` goes on without the workspace default.
-/

namespace RepoLink

open Effects Program ReadThrough

/-- The caches that a loop over one store comes to. -/
inductive Database.Filled (database : Database) : WorkspaceCache → Prop where
  | empty : database.Filled .empty
  | cleared {cache later : WorkspaceCache} {task : Task} {coords : Option IssueCoords}
      {after : Database} (filled : database.Filled cache)
      (ran : (TaskService.relationRemoteCoordsCached task cache).Runs portMeaning database
        (.ok (coords, later)) after) : database.Filled later
  | backfilled {cache later : WorkspaceCache} {task : Task} {coords : Option IssueCoords}
      {after : Database} (filled : database.Filled cache)
      (ran : (SyncService.relationRemoteCoords task cache).Runs portMeaning database
        (.ok (coords, later)) after) : database.Filled later

/-- The three resolvers return the same optional coordinates. -/
structure CoordsAgree (database : Database) (cache : WorkspaceCache) (task : Task) : Prop where
  cleared : ∀ coords,
    (∃ later, (TaskService.relationRemoteCoordsCached task cache).Runs portMeaning database
      (.ok (coords, later)) database) ↔
    (TaskService.relationRemoteCoords task).Runs portMeaning database (.ok coords) database
  backfilled : ∀ coords,
    (∃ later, (SyncService.relationRemoteCoords task cache).Runs portMeaning database
      (.ok (coords, later)) database) ↔
    (TaskService.relationRemoteCoords task).Runs portMeaning database (.ok coords) database

variable {database : Database} {cache : WorkspaceCache} {task : Task}

theorem Database.Filled.truthful (filled : database.Filled cache) :
    Truthful database.workspaces.find cache := by
  induction filled with
  | empty => exact truthful_empty
  | cleared _ ran ih =>
      exact ((TaskService.relationRemoteCoordsCached_transparent ih).keeps _ _ _ ran).2
  | backfilled _ ran ih =>
      exact ((SyncService.relationRemoteCoords_transparent ih).keeps _ _ _ ran).2

theorem relationRemoteCoordsCached_reads (filled : database.Filled cache)
    (coords : Option IssueCoords) :
    (∃ later, (TaskService.relationRemoteCoordsCached task cache).Runs portMeaning database
      (.ok (coords, later)) database) ↔ database.homedCoords task = .ok coords := by
  rw [(TaskService.relationRemoteCoordsCached_transparent filled.truthful).answers]
  simp [runs_cachedRelationCoords]

theorem syncRelationRemoteCoords_reads (filled : database.Filled cache)
    (coords : Option IssueCoords) :
    (∃ later, (SyncService.relationRemoteCoords task cache).Runs portMeaning database
      (.ok (coords, later)) database) ↔ database.homedCoords task = .ok coords := by
  rw [(SyncService.relationRemoteCoords_transparent filled.truthful).answers]
  simp [runs_cachedRelationCoords]

theorem relationRemoteCoords_reads (coords : Option IssueCoords) :
    (TaskService.relationRemoteCoords task).Runs portMeaning database (.ok coords) database ↔
      database.coords task = .ok coords := by
  simp [TaskService.runs_relationRemoteCoords]

theorem coordsAgree_iff_readings (filled : database.Filled cache) :
    CoordsAgree database cache task ↔
      ∀ coords, database.homedCoords task = .ok coords ↔ database.coords task = .ok coords := by
  constructor
  · intro agree coords
    have same := agree.cleared coords
    rw [relationRemoteCoordsCached_reads filled, relationRemoteCoords_reads] at same
    exact same
  · intro same
    constructor
    · intro coords
      rw [relationRemoteCoordsCached_reads filled, relationRemoteCoords_reads]
      exact same coords
    · intro coords
      rw [syncRelationRemoteCoords_reads filled, relationRemoteCoords_reads]
      exact same coords

theorem Database.filed_none {α : Type} {origin : Option RepoOriginId} {make : RepoOrigin → α} :
    database.filed origin make = .ok none ↔ origin = none := by
  cases origin with
  | none => simp [filed]
  | some id => cases found : database.getOrigin id <;> simp [filed, found, Except.map]

theorem Database.coords_none (away : database.workspaces.find task.workspaceId = none) :
    database.coords task = .ok none ↔ task.remote = none ∨
      task.filingRepoId = none ∧ task.repoId.bind database.binding = none := by
  cases remoteEq : task.remote with
  | none => simp [coords, remoteEq]
  | some remote =>
      have noDefault : database.filingDefault task.workspaceId = none := by
        rw [filingDefault, away, Option.bind_none, Option.map_none]
      simp only [coords, remoteEq, filed_none, filingOrigin, noDefault, logicalOrigin]
      cases task.filingRepoId <;> simp [resolveFilingRepo]

theorem relation_coords_agree_iff (filled : database.Filled cache) :
    CoordsAgree database cache task ↔
      task.remote = none ∨ (database.workspaces.find task.workspaceId).isSome = true ∨
        task.filingRepoId = none ∧ task.repoId.bind database.binding = none := by
  rw [coordsAgree_iff_readings filled]
  cases home : database.workspaces.find task.workspaceId with
  | some workspace => simp [Database.homedCoords, home]
  | none =>
      have gone : database.homedCoords task = .ok none := by simp [Database.homedCoords, home]
      simp only [gone, Option.isSome_none, Bool.false_eq_true, false_or]
      rw [← Database.coords_none home]
      constructor
      · intro same
        exact (same none).mp rfl
      · intro nowhere coords
        rw [nowhere]

def filedAtOne : Database :=
  ran (SyncService.promote ⟨1⟩) (createdIn ⟨21⟩ "a" twoRepos)

def homeless : Database := { filedAtOne with workspaces := .empty }

theorem relation_coords_agree_at_home :
    ∃ task, filedAtOne.stored ⟨1⟩ = some task ∧ CoordsAgree filedAtOne .empty task :=
  ⟨_, rfl, (relation_coords_agree_iff .empty).mpr (.inr (.inl (by decide)))⟩

/-- Linked by a relate, the edge of such a task is neither unlinked nor filled in. -/
theorem relation_coords_differ_homeless :
    ∃ task, homeless.stored ⟨1⟩ = some task ∧
      (TaskService.relationRemoteCoords task).Runs portMeaning homeless
        (.ok (some ("github.com/acme/one", "7"))) homeless ∧
      (∃ later, (TaskService.relationRemoteCoordsCached task .empty).Runs portMeaning homeless
        (.ok (none, later)) homeless) ∧
      (∃ later, (SyncService.relationRemoteCoords task .empty).Runs portMeaning homeless
        (.ok (none, later)) homeless) ∧
      ¬CoordsAgree homeless .empty task := by
  obtain ⟨task, stored, resolved, gone⟩ : ∃ task, homeless.stored ⟨1⟩ = some task ∧
      homeless.coords task = .ok (some ("github.com/acme/one", "7")) ∧
      homeless.homedCoords task = .ok none := ⟨_, rfl, rfl, rfl⟩
  refine ⟨task, stored, (relationRemoteCoords_reads _).mpr resolved,
    (relationRemoteCoordsCached_reads .empty none).mpr gone,
    (syncRelationRemoteCoords_reads .empty none).mpr gone, ?_⟩
  rw [coordsAgree_iff_readings .empty]
  intro same
  have wrong := (same none).mp gone
  rw [resolved] at wrong
  cases wrong

end RepoLink
