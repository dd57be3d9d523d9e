import Mathlib.Data.Prod.Lex
import Mathlib.Data.String.Basic
import Mathlib.Data.List.Dedup
import RepoLink.Library.Statements

/-!
The migration `20260629000001_shared_repo_identity.sql`, statement by statement: the identity of a
repo moves from its rows in the workspaces to one origin for each canonical URL, and the filing
ids of tasks, workspaces and remote mappings are rewritten to origins.
-/

namespace RepoLink

open Statements

namespace SharedIdentity

structure RepoRow where
  id : String
  workspaceId : String
  remoteUrl : String
  canonicalUrl : String
  trackedBranch : Option String
  createdAt : String
  updatedAt : String
  name : String
  aliases : List String
  repoPrefix : String
deriving DecidableEq, Repr

/-- A row of `repo_instances`, with the columns that are left. -/
structure InstanceRow where
  id : String
  workspaceId : String
  canonicalUrl : String
  trackedBranch : Option String
  createdAt : String
  updatedAt : String
  originId : Option String
deriving DecidableEq, Repr

structure OriginRow where
  id : String
  canonicalUrl : String
  remoteUrl : String
  originPrefix : String
  name : String
  aliases : List String
  createdAt : String
  updatedAt : String
deriving DecidableEq, Repr

/-- The columns of `tasks` that the migration reads and writes. -/
structure TaskRow where
  id : String
  repoInstanceId : Option String
  remoteId : Option String
  filingRepoId : Option String
deriving DecidableEq, Repr

structure WorkspaceRow where
  id : String
  filingRepoId : Option String
deriving DecidableEq, Repr

structure MappingRow where
  taskId : String
  filingRepoId : String
  provider : String
  remoteId : String
  lastRemoteUpdatedAt : Option String
  lastSyncedAt : Option String
deriving DecidableEq, Repr

structure Before where
  repos : List RepoRow
  tasks : List TaskRow
  workspaces : List WorkspaceRow
  mappings : List MappingRow

structure After where
  instances : List InstanceRow
  origins : List OriginRow
  tasks : List TaskRow
  workspaces : List WorkspaceRow
  mappings : List MappingRow

def age (repo : RepoRow) : String ×ₗ String := toLex (repo.createdAt, repo.id)

def survivor (repos : List RepoRow) (canonicalUrl : String) : Option RepoRow :=
  (repos.filter fun repo => repo.canonicalUrl = canonicalUrl).argmin age

def originOf (repo : RepoRow) : OriginRow where
  id := repo.id
  canonicalUrl := repo.canonicalUrl
  remoteUrl := repo.remoteUrl
  originPrefix := repo.repoPrefix
  name := repo.name
  aliases := repo.aliases
  createdAt := repo.createdAt
  updatedAt := repo.updatedAt

/-- The primary key, the unique URL and `idx_origins_prefix`, which leaves out empty prefixes. -/
def OriginRow.Clashes (left right : OriginRow) : Prop :=
  left.id = right.id ∨ left.canonicalUrl = right.canonicalUrl ∨
    left.originPrefix ≠ "" ∧ left.originPrefix = right.originPrefix

instance : DecidableRel OriginRow.Clashes := fun _ _ => inferInstanceAs (Decidable (_ ∨ _))

def insertOrigins (repos : List RepoRow) : Option (List OriginRow) :=
  insertAll OriginRow.Clashes []
    ((repos.filter fun repo => (survivor repos repo.canonicalUrl).map RepoRow.id = some repo.id).map
      originOf)

/-- Step 3b: the aliases of all rows and the names that did not become the origin's. The order in
which `UNION` hands them on is left open by SQL. -/
def unionAliases (repos : List RepoRow) (origin : OriginRow) : OriginRow :=
  let rows := repos.filter fun repo => repo.canonicalUrl = origin.canonicalUrl
  let names := (rows.map RepoRow.name).filter fun name => name ≠ "" ∧ name ≠ origin.name
  { origin with aliases := (rows.flatMap RepoRow.aliases ++ names).dedup }

def linkOrigin (origins : List OriginRow) (repo : RepoRow) : InstanceRow where
  id := repo.id
  workspaceId := repo.workspaceId
  canonicalUrl := repo.canonicalUrl
  trackedBranch := repo.trackedBranch
  createdAt := repo.createdAt
  updatedAt := repo.updatedAt
  originId :=
    (origins.find? fun origin => origin.canonicalUrl = repo.canonicalUrl).map OriginRow.id

/-- `(SELECT ri.origin_id FROM repo_instances ri WHERE ri.id = ..)`. -/
def originIdOf (instances : List InstanceRow) (id : String) : Option String :=
  (instances.find? fun row => row.id = id).bind InstanceRow.originId

def isInstance (instances : List InstanceRow) (id : String) : Bool :=
  instances.any fun row => row.id = id

def backfillStraggler (instances : List InstanceRow) (task : TaskRow) : TaskRow :=
  match task.remoteId, task.repoInstanceId with
  | some _, some repo =>
    if task.filingRepoId = none ∨ task.filingRepoId = some "" then
      { task with filingRepoId := originIdOf instances repo }
    else task
  | _, _ => task

def refile (instances : List InstanceRow) (filing : Option String) : Option String :=
  match filing with
  | some id => if id ≠ "" ∧ isInstance instances id then originIdOf instances id else some id
  | none => none

def refileTask (instances : List InstanceRow) (task : TaskRow) : TaskRow :=
  { task with filingRepoId := refile instances task.filingRepoId }

def refileWorkspace (instances : List InstanceRow) (workspace : WorkspaceRow) : WorkspaceRow :=
  { workspace with filingRepoId := refile instances workspace.filingRepoId }

/-- The order of step 7d: the later sync wins, and among equals the smaller task id. -/
def recency (mapping : MappingRow) : String ×ₗ Stringᵒᵈ :=
  toLex (mapping.lastSyncedAt.getD "", OrderDual.toDual mapping.taskId)

def Meets (instances : List InstanceRow) (left right : MappingRow) : Prop :=
  (originIdOf instances left.filingRepoId).isSome = true ∧
    originIdOf instances left.filingRepoId = originIdOf instances right.filingRepoId ∧
    left.provider = right.provider ∧ left.remoteId = right.remoteId

instance (instances : List InstanceRow) : DecidableRel (Meets instances) :=
  fun _ _ => inferInstanceAs (Decidable (_ ∧ _))

def losers (instances : List InstanceRow) (mappings : List MappingRow) : List String :=
  (mappings.filter fun mapping => ∃ other ∈ mappings, Meets instances mapping other ∧
    other.taskId ≠ mapping.taskId ∧
      (mapping.lastSyncedAt.getD "" < other.lastSyncedAt.getD "" ∨
        other.lastSyncedAt.getD "" = mapping.lastSyncedAt.getD "" ∧
          other.taskId < mapping.taskId)).map MappingRow.taskId

def MappingRow.Clashes (left right : MappingRow) : Prop :=
  left.taskId = right.taskId ∨
    left.filingRepoId = right.filingRepoId ∧ left.provider = right.provider ∧
      left.remoteId = right.remoteId

instance : DecidableRel MappingRow.Clashes := fun _ _ => inferInstanceAs (Decidable (_ ∨ _))

/-- The column is `NOT NULL`; an instance always has an origin by now. -/
def refileMapping (instances : List InstanceRow) (mapping : MappingRow) : MappingRow :=
  { mapping with
    filingRepoId := (refile instances (some mapping.filingRepoId)).getD mapping.filingRepoId }

def mergeMappings (instances : List InstanceRow) (mappings : List MappingRow) :
    Option (List MappingRow) :=
  let lost := losers instances mappings
  updateAll MappingRow.Clashes (refileMapping instances) []
    (mappings.filter fun mapping => mapping.taskId ∉ lost)

def migrate (before : Before) : Option After := do
  let inserted ← insertOrigins before.repos
  let origins := inserted.map (unionAliases before.repos)
  let instances := before.repos.map (linkOrigin origins)
  let mappings ← mergeMappings instances before.mappings
  return {
    instances, origins, mappings
    tasks := (before.tasks.map (backfillStraggler instances)).map (refileTask instances)
    workspaces := before.workspaces.map (refileWorkspace instances) }

end SharedIdentity

end RepoLink
