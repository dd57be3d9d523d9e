import RepoLink.Domain.Handles
import RepoLink.RepoBindings.Url
import RepoLink.TaskService.Relations

/-!
`rl sync import` of `app-cli`. The id that a fresh mirror is shown by resolves to its task, so a
parent is kept by its task id; the printed JSON is kept as the list of what was reported.
-/

namespace RepoLink

open Effects Program

/-- An `anyhow` error: a text of its own, or an error whose text it takes over. -/
inductive ImportError where
  | message (text : String)
  | port (error : PortError)
  | service (error : ServiceError)
deriving DecidableEq, Repr

instance : OfPortError ImportError := ⟨.port⟩

/-- A GitHub issue URL as `(canonical "github.com/owner/repo", number)`. -/
def parseIssueUrl (url : String) : Option (String × String) :=
  let trimmed :=
    ((url.toList.dropWhile isWhitespace).rdropWhile isWhitespace).rdropWhile (· == '/')
  let rest := ((stripPrefix trimmed "https://".toList).orElse fun _ =>
    stripPrefix trimmed "http://".toList).getD trimmed
  match rest.splitOn '/' with
  | [host, owner, repo, issues, number] =>
    if host ≠ "github.com".toList ∨ owner = [] ∨ repo = [] ∨ issues ≠ "issues".toList ∨
        number = [] ∨ !number.all isAsciiDigit then none
    else some (s!"github.com/{String.ofList owner}/{String.ofList repo}", .ofList number)
  | _ => none

example : [parseIssueUrl " https://github.com/acme/backend/issues/42/ ",
    parseIssueUrl "github.com/acme/backend/issues/1/foo"] =
      [some ("github.com/acme/backend", "42"), none] := by decide

namespace SyncImport

abbrev Action := Service ImportError

def provider : String := "github"

def maxDepth : Nat := 25

structure Target where
  workspaceId : WorkspaceId
  canonical : String
  repoId : RepoId
  filingOriginId : RepoOriginId
deriving DecidableEq, Repr

structure Entry where
  canonical : String
  number : String
  parentId : Option TaskId
  depth : Nat
deriving DecidableEq, Repr

inductive Report where
  | imported (remoteId : String) (taskId : TaskId) (title : String)
  | alreadyTracked (remoteId : String) (taskId : TaskId)
  | skippedCrossRepo (remoteId repo : String)
deriving DecidableEq, Repr

def mirrorCmd (target : Target) (number : String) (snap : RemoteTaskSnapshot) :
    ImportMirrorCmd where
  workspaceId := target.workspaceId
  repoId := some target.repoId
  provider
  remoteId := number
  title := snap.title
  body := snap.body
  assignees := snap.assignees
  closed := snap.closed

def findTracked (target : Target) (number : String) : Action (Option Task) :=
  query (.findByRemote target.filingOriginId provider number)

def resolveNode (target : Target) (canonical number : String) : Action (TaskId × Report) := do
  match ← findTracked target number with
  | some existing => return (existing.id, .alreadyTracked number existing.id)
  | none =>
    let snap ← remote (.fetchRemote canonical number)
    match ← (TaskService.importMirror (mirrorCmd target number snap)).attempt with
    | .ok task => return (task.id, .imported number task.id task.title)
    | .error (.port (.conflict _ _)) =>
      -- another writer came in between the lookup and the save
      match ← findTracked target number with
      | some existing => return (existing.id, .alreadyTracked number existing.id)
      | none => fail (.message s!"remote {number} conflicted on save but no local task found")
    | .error error => fail (.service error)

/-- The link is made however the node was resolved; `add_relation` drops what is there. -/
def linkParent (taskId : TaskId) : Option TaskId → Action Unit
  | none => return ()
  | some parent => do
    let _ ← (TaskService.addRelation taskId .childOf parent).mapError .service
    return ()

def listChildren (cascade : Bool) (entry : Entry) : Action (List RemoteChildIssue) :=
  if cascade && entry.depth < maxDepth then
    remote (.fetchSubIssues entry.canonical entry.number)
  else return []

def childEntries (target : Target) (taskId : TaskId) (depth : Nat)
    (children : List RemoteChildIssue) : List Entry :=
  (children.filter fun child => child.canonicalRepo = target.canonical).map fun child =>
    ⟨target.canonical, child.snapshot.remoteId, some taskId, depth + 1⟩

def skippedChildren (target : Target) (children : List RemoteChildIssue) : List Report :=
  (children.filter fun child => child.canonicalRepo ≠ target.canonical).map fun child =>
    .skippedCrossRepo child.snapshot.remoteId child.canonicalRepo

def visitNode (target : Target) (cascade : Bool) (entry : Entry) :
    Action (TaskId × Report × List RemoteChildIssue) := do
  let (taskId, report) ← resolveNode target entry.canonical entry.number
  linkParent taskId entry.parentId
  let children ← listChildren cascade entry
  return (taskId, report, children)

/-- `while let Some(..) = stack.pop()`: `none` if the fuel runs out. -/
def importLoop (target : Target) (cascade : Bool) :
    Nat → List Entry → List String → List Report → Action (Option (List Report))
  | 0, _, _, _ => return none
  | _ + 1, [], _, reports => return some reports
  | fuel + 1, entry :: stack, visited, reports =>
    if entry.number ∈ visited then importLoop target cascade fuel stack visited reports
    else do
      let (taskId, report, children) ← visitNode target cascade entry
      importLoop target cascade fuel
        ((childEntries target taskId entry.depth children).reverse ++ stack)
        (entry.number :: visited) (reports ++ report :: skippedChildren target children)

def targetOf (workspaceId : WorkspaceId) (canonical : String) (view : RepoBindingView) :
    Target where
  workspaceId
  canonical
  repoId := view.instanceRow.id
  filingOriginId := view.instanceRow.originId

def syncImport (fuel : Nat) (workspaceId : WorkspaceId) (url : String) (cascade : Bool) :
    Action (Option (List Report)) :=
  match parseIssueUrl url with
  | none => fail (.message s!"not a github issue url: {url}")
  | some (canonical, number) => do
    match ← query (.findByCanonicalUrl workspaceId canonical) with
    | none => fail (.message (s!"no repo binding for {canonical} in this workspace; " ++
        "attach it first with `rl repo attach`"))
    | some view =>
      importLoop (targetOf workspaceId canonical view) cascade fuel
        [⟨canonical, number, none, 0⟩] [] []

end SyncImport

end RepoLink
