import RepoLink.RepoBindings.Origins

/-!
Handles of repo bindings: `resolve_by_handle` tries the prefix, then name and alias, and each
stage prefers active workspaces to archived ones.
-/

namespace RepoLink

open KeyedTable

structure BindingView where
  instanceRow : RepoInstance
  origin : OriginRow
deriving DecidableEq, Repr

/-- Workspaces, origins and instances, the rows of each in the order of their creation. -/
structure RepoRegistry where
  workspaces : Table Workspace.id
  origins : OriginBook
  instances : Table RepoInstance.id

namespace RepoRegistry

def view (registry : RepoRegistry) (instanceRow : RepoInstance) : Option BindingView :=
  (registry.origins.table.find instanceRow.originId).map fun origin => ⟨instanceRow, origin⟩

def listByWorkspace (id : WorkspaceId) (registry : RepoRegistry) : List BindingView :=
  (registry.instances.rows.filter fun row => row.workspaceId = id).filterMap registry.view

def findOriginByPrefix (text : String) (registry : RepoRegistry) : Option OriginRow :=
  if text = "" then none
  else registry.origins.table.rows.find? fun row => row.originPrefix = text

end RepoRegistry

def WorkspaceStatus.isActive (status : WorkspaceStatus) : Bool :=
  status ≠ .archived && status ≠ .deleted

namespace RepoBindingService

def matchesIn (registry : RepoRegistry) (statuses : WorkspaceStatus → Bool)
    (accepts : BindingView → Bool) : List BindingView :=
  (registry.workspaces.rows.filter fun workspace => statuses workspace.status).flatMap
    fun workspace => (registry.listByWorkspace workspace.id).filter accepts

def activeMatches (registry : RepoRegistry) (accepts : BindingView → Bool) : List BindingView :=
  matchesIn registry WorkspaceStatus.isActive accepts

def archivedMatches (registry : RepoRegistry) (accepts : BindingView → Bool) : List BindingView :=
  matchesIn registry (· = .archived) accepts

def toCandidate (view : BindingView) : AmbiguousCandidate :=
  ⟨view.instanceRow.id, view.instanceRow.workspaceId, view.instanceRow.canonicalUrl,
    view.origin.name⟩

def candidatesFor (registry : RepoRegistry) (accepts : BindingView → Bool) : List BindingView :=
  match activeMatches registry accepts with
  | [] => archivedMatches registry accepts
  | active => active

def resolveMatching (query : String) (registry : RepoRegistry) (accepts : BindingView → Bool) :
    Except RepoBindingError BindingView :=
  match candidatesFor registry accepts with
  | [] => .error (.bindingNotFound query)
  | [view] => .ok view
  | many => .error (.ambiguousHandle query (many.map toCandidate))

def namedBy (query : String) (view : BindingView) : Bool :=
  view.origin.name = query || view.origin.aliases.contains query

def resolveNamed (query : String) (registry : RepoRegistry) : Except RepoBindingError BindingView :=
  resolveMatching query registry (namedBy query)

def resolveByHandle (query : String) (registry : RepoRegistry) :
    Except RepoBindingError BindingView :=
  match registry.findOriginByPrefix query with
  | none => resolveNamed query registry
  | some origin =>
    match resolveMatching query registry fun view => view.origin.id = origin.id with
    -- the origin has no binding that is not deleted
    | .error (.bindingNotFound _) => resolveNamed query registry
    | resolved => resolved

end RepoBindingService

end RepoLink
