import RepoLink.RepoBindings.Registry

/-!
`RepoBindingService` call by call: every statement of the repositories is one atomic step, and
between two of them other processes may run. Any statement may fail without an effect.
-/

namespace RepoLink

open Effects Program KeyedTable

inductive BindingQuery where
  | getWorkspace (id : WorkspaceId)
  | listWorkspaces (includeArchived : Bool)
  | findOriginByCanonicalUrl (canonicalUrl : String)
  | findOriginByPrefix (text : String)
  | findByCanonicalUrl (workspaceId : WorkspaceId) (canonicalUrl : String)
  | listByWorkspace (id : WorkspaceId)
  | getInstance (id : RepoId)
  | saveOrigin (origin : OriginRow)
  | saveInstance (row : InstanceRow)
  | delete (id : RepoId)
  | pathExists (path : String)

namespace BindingQuery

abbrev Answer : BindingQuery → Type
  | .getWorkspace _ => Workspace
  | .listWorkspaces _ => List Workspace
  | .findOriginByCanonicalUrl _ => Option OriginRow
  | .findOriginByPrefix _ => Option OriginRow
  | .findByCanonicalUrl .. => Option BoundRepo
  | .listByWorkspace _ => List BoundRepo
  | .getInstance _ => BoundRepo
  | .saveOrigin _ => Unit
  | .saveInstance _ => Unit
  | .delete _ => Unit
  | .pathExists _ => Bool

def commits (result : Except PortError BindingStore) (before : BindingStore) :
    Except PortError Unit × BindingStore :=
  match result with
  | .ok after => (.ok (), after)
  | .error error => (.error error, before)

/-- What a statement answers, and leaves behind, when nothing fails; which paths exist is up to
the machine. -/
def perform (present : String → Bool) :
    (query : BindingQuery) → BindingStore → Except PortError query.Answer × BindingStore
  | .getWorkspace id, store =>
    ((store.workspaces.find id).elim
      (.error (.notFound ("workspace " ++ toString id.value))) .ok, store)
  | .listWorkspaces includeArchived, store =>
    (.ok (store.workspaces.rows.filter fun workspace =>
      includeArchived || (workspace.status ≠ .archived && workspace.status ≠ .deleted)), store)
  | .findOriginByCanonicalUrl url, store => (.ok (store.originWith url), store)
  | .findOriginByPrefix text, store => (.ok (store.originOfPrefix text), store)
  | .findByCanonicalUrl workspaceId url, store => (.ok (store.bound workspaceId url), store)
  | .listByWorkspace id, store => (.ok (store.boundIn id), store)
  | .getInstance id, store =>
    (((store.instances.table.find id).bind store.view).elim
      (.error (.notFound ("repo instance " ++ toString id.value))) .ok, store)
  | .saveOrigin origin, store => commits (store.saveOrigin origin) store
  | .saveInstance row, store => commits (store.saveInstance row) store
  | .delete id, store => (.ok (), { store with instances := store.instances.delete id })
  | .pathExists path, store => (.ok (present path), store)

end BindingQuery

/-- Calls of the service. The URL of `newOriginId` only labels the identifier. -/
inductive BindingOp where
  | now
  | newOriginId (canonicalUrl : String)
  | newInstanceId
  | query (statement : BindingQuery)

abbrev BindingOp.Answer : BindingOp → Type
  | .now => Timestamp
  | .newOriginId _ => RepoOriginId
  | .newInstanceId => RepoId
  | .query statement => Except PortError statement.Answer

abbrev bindingPorts : Signature := ⟨BindingOp, BindingOp.Answer⟩

def bindingMeaning : Semantics bindingPorts BindingStore
  | .now, before, _, after => after = before
  | .newOriginId canonicalUrl, before, id, after =>
    id ∉ before.originIds.map Prod.fst ∧
      after = { before with originIds := (id, canonicalUrl) :: before.originIds }
  | .newInstanceId, before, id, after =>
    id ∉ before.instanceIds ∧ after = { before with instanceIds := id :: before.instanceIds }
  | .query statement, before, answer, after =>
    ∃ present, (answer, after) = statement.perform present before

def failingMeaning : Semantics bindingPorts BindingStore
  | .query statement, before, answer, after =>
    bindingMeaning (.query statement) before answer after ∨
      (∃ error, answer = .error error) ∧ after = before
  | op, before, answer, after => bindingMeaning op before answer after

inductive RepoServiceError where
  | binding (error : RepoBindingError)
  | prefixTaken (text : String)
deriving DecidableEq, Repr

structure AttachRepoCmd where
  workspaceId : WorkspaceId
  remoteUrl : String
  canonicalUrl : String
  trackedBranch : Option String
  linkPath : Option String
  linkBranch : Option String
  originPrefix : Option String
deriving DecidableEq, Repr

structure RepoAttachOutcome where
  binding : BoundRepo
  merged : Bool
  worktreeAdded : Option String
deriving DecidableEq, Repr

namespace RepoBindings

abbrev Action := Program bindingPorts RepoServiceError

def plain (op : BindingOp) : Action op.Answer := @Program.perform bindingPorts _ op

def tryQuery (statement : BindingQuery) : Action (Except PortError statement.Answer) :=
  plain (.query statement)

def require (statement : BindingQuery) : Action statement.Answer :=
  (tryQuery statement).bind fun answer =>
    .ofExcept (answer.mapError fun error => .binding (.port error))

def checked {α : Type} (result : Except DomainError α) : Action α :=
  .ofExcept (result.mapError fun error => .binding (.domain error))

def mapPrefixConflict (text : String) (error : PortError) : RepoServiceError :=
  if error.conflictTarget = some "repo_origins.prefix" then .prefixTaken text
  else .binding (.port error)

section Attach

def findOrCreateOrigin (cmd : AttachRepoCmd) : Action OriginRow := do
  match ← require (.findOriginByCanonicalUrl cmd.canonicalUrl) with
  | some origin => return origin
  | none =>
    let now ← plain .now
    let id ← plain (.newOriginId cmd.canonicalUrl)
    checked (OriginRow.create id now cmd.remoteUrl cmd.canonicalUrl)

def applyPrefix (cmd : AttachRepoCmd) (origin : OriginRow) : Action OriginRow :=
  match cmd.originPrefix with
  | none => return origin
  | some text => do
    let now ← plain .now
    checked (origin.setPrefix now text)

def findOrCreateInstance (cmd : AttachRepoCmd) (origin : OriginRow) : Action (InstanceRow × Bool) := do
  match ← require (.findByCanonicalUrl cmd.workspaceId cmd.canonicalUrl) with
  | some existing => return (existing.checkout, true)
  | none =>
    let now ← plain .now
    let id ← plain .newInstanceId
    let created ← checked
      (InstanceRow.create id now cmd.workspaceId origin.id cmd.canonicalUrl cmd.trackedBranch)
    return (created, false)

def linkPath (cmd : AttachRepoCmd) (row : InstanceRow) : Action InstanceRow :=
  match cmd.linkPath with
  | none => return row
  | some path => do
    let now ← plain .now
    return row.linkWorktree now path cmd.linkBranch

def retryPrefix (base : String) : Nat → OriginRow → Action OriginRow
  | left, origin => do
    match ← tryQuery (.saveOrigin origin) with
    | .ok () => return origin
    | .error error =>
      if error.conflictTarget = some "repo_origins.prefix" then
        match left with
        | 0 => .fail (.binding (.port (.backend
            ("could not allocate unique repo prefix from base '" ++ base ++
              "' after 1000000 attempts"))))
        | left + 1 =>
          let now ← plain .now
          let renamed ← checked (origin.setPrefix now
            (RepoBindingService.candidate base (RepoBindingService.safetyCap - left)))
          retryPrefix base left renamed
      else .fail (.binding (.port error))

def saveWithUniquePrefix (origin : OriginRow) : Action OriginRow :=
  retryPrefix origin.originPrefix RepoBindingService.safetyCap origin

/-- A requested prefix is saved as it is; a derived one gets a suffix when it is taken. -/
def saveAttached (cmd : AttachRepoCmd) (origin : OriginRow) : Action OriginRow :=
  if cmd.originPrefix.isSome then do
    match ← tryQuery (.saveOrigin origin) with
    | .ok () => return origin
    | .error error => .fail (mapPrefixConflict origin.originPrefix error)
  else saveWithUniquePrefix origin

def attach (cmd : AttachRepoCmd) : Action RepoAttachOutcome := do
  let _ ← require (.getWorkspace cmd.workspaceId)
  let found ← findOrCreateOrigin cmd
  let origin ← applyPrefix cmd found
  let (row, merged) ← findOrCreateInstance cmd origin
  let linked ← linkPath cmd row
  let saved ← saveAttached cmd origin
  let _ ← require (.saveInstance linked)
  return ⟨⟨linked, saved⟩, merged, cmd.linkPath⟩

end Attach

section Handles

def toCandidate (view : BoundRepo) : AmbiguousCandidate :=
  ⟨view.checkout.id, view.checkout.workspaceId, view.checkout.canonicalUrl, view.origin.name⟩

def collectMatches (accepts : BoundRepo → Bool) (found : List BoundRepo × List BoundRepo)
    (workspace : Workspace) : Action (List BoundRepo × List BoundRepo) :=
  if workspace.status = .deleted then return found
  else do
    let views ← require (.listByWorkspace workspace.id)
    return if workspace.status = .archived then (found.1, found.2 ++ views.filter accepts)
      else (found.1 ++ views.filter accepts, found.2)

def pickMatch (query : String) : List BoundRepo → Action BoundRepo
  | [] => .fail (.binding (.bindingNotFound query))
  | [view] => return view
  | many => .fail (.binding (.ambiguousHandle query (many.map toCandidate)))

def resolveMatching (query : String) (accepts : BoundRepo → Bool) : Action BoundRepo := do
  let workspaces ← require (.listWorkspaces true)
  let found ← Program.foldEach (collectMatches accepts) workspaces ([], [])
  pickMatch query (if found.1.isEmpty then found.2 else found.1)

def resolveNamed (query : String) : Action BoundRepo :=
  resolveMatching query fun view => view.origin.name = query || view.origin.aliases.contains query

def resolveByHandle (query : String) : Action BoundRepo := do
  match ← require (.findOriginByPrefix query) with
  | none => resolveNamed query
  | some origin =>
    match ← (resolveMatching query fun view => view.origin.id = origin.id).attempt with
    | .ok view => return view
    -- the origin has no binding that is not deleted
    | .error (.binding (.bindingNotFound _)) => resolveNamed query
    | .error error => .fail error

def resolve (uuids : UuidFormat) (query : String) : Action BoundRepo :=
  match uuids.parse query with
  | some id => require (.getInstance ⟨id.value⟩)
  | none => resolveByHandle query

end Handles

section Changes

variable (uuids : UuidFormat)

def rename (query newName : String) : Action BoundRepo := do
  let view ← resolve uuids query
  let now ← plain .now
  let origin ← checked (view.origin.setName uuids now newName)
  let _ ← require (.saveOrigin origin)
  return { view with origin }

def setPrefix (query newPrefix : String) : Action BoundRepo := do
  let view ← resolve uuids query
  let now ← plain .now
  let origin ← checked (view.origin.setPrefix now newPrefix)
  match ← tryQuery (.saveOrigin origin) with
  | .ok () => return { view with origin }
  | .error error => .fail (mapPrefixConflict origin.originPrefix error)

def addAlias (query text : String) : Action BoundRepo := do
  let view ← resolve uuids query
  let now ← plain .now
  let added ← checked (view.origin.addAlias uuids now text)
  let _ ← require (.saveOrigin added.2)
  return { view with origin := added.2 }

def removeAlias (query text : String) : Action BoundRepo := do
  let view ← resolve uuids query
  let now ← plain .now
  let removed := view.origin.removeAlias now text
  if removed.1 then do
    let _ ← require (.saveOrigin removed.2)
    return { view with origin := removed.2 }
  else .fail (.binding (.domain (.validation ("alias '" ++ text ++ "' not found"))))

end Changes

section Worktrees

def changeInstance (id : RepoId) (change : Timestamp → InstanceRow → Except DomainError InstanceRow) :
    Action BoundRepo := do
  let view ← require (.getInstance id)
  let now ← plain .now
  let row ← checked (change now view.checkout)
  let _ ← require (.saveInstance row)
  return { view with checkout := row }

def linkWorktree (id : RepoId) (path : String) (branch : Option String) : Action BoundRepo :=
  changeInstance id fun now row => .ok (row.linkWorktree now path branch)

def unlinkWorktree (id : RepoId) (path : String) : Action BoundRepo :=
  changeInstance id fun now row => row.unlinkWorktree now path

def pruneMissing (id : RepoId) : Action BoundRepo :=
  changeInstance id fun now row => .ok (row.pruneMissing now).2

def detach (id : RepoId) : Action Unit := require (.delete id)

def probeLink (missing : List String) (link : LinkRow) : Action (List String) := do
  let present ← require (.pathExists link.path)
  return if present = false ∧ link.status ≠ .missingPath ∧ link.status ≠ .detached then
    missing ++ [link.path] else missing

def markMissing (row : InstanceRow) (path : String) : Action InstanceRow := do
  let now ← plain .now
  checked (row.markPathMissing now path)

def pruneMarked (prune : Bool) (row : InstanceRow) : Action (Nat × InstanceRow) :=
  if prune then do
    let now ← plain .now
    return row.pruneMissing now
  else return (0, row)

def reconcileInstance (prune : Bool) (summary : ReconcileSummary) (view : BoundRepo) :
    Action ReconcileSummary := do
  let missing ← Program.foldEach probeLink view.checkout.worktrees.rows []
  let marked ← Program.foldEach markMissing missing view.checkout
  let pruned ← pruneMarked prune marked
  let updated : ReconcileSummary := {
    reposChecked := summary.reposChecked + 1
    worktreesChecked := summary.worktreesChecked + view.checkout.worktrees.rows.length
    markedMissing := summary.markedMissing + missing.length
    pruned := summary.pruned + pruned.1 }
  if !missing.isEmpty || pruned.1 != 0 then do
    let _ ← require (.saveInstance pruned.2)
    return updated
  else return updated

def reconcileWorktrees (workspaceId : WorkspaceId) (prune : Bool) : Action ReconcileSummary := do
  let _ ← require (.getWorkspace workspaceId)
  let views ← require (.listByWorkspace workspaceId)
  Program.foldEach (reconcileInstance prune) views {}

end Worktrees

end RepoBindings

end RepoLink
