import Mathlib.Algebra.GroupWithZero.Nat
import RepoLink.Library.Program
import RepoLink.Ports.Remote
import RepoLink.RepoBindings.Url

/-!
The list calls of the REST client. Its requests go through the HTTP client of `octocrab`, which
decodes a page or reports an error; the loops over the pages, the caps and the probes are the
client's own.
-/

namespace RepoLink

open Effects Program

namespace Octocrab

structure Issue where
  number : Nat
  nodeId : String
  title : String
  body : Option String
  closed : Bool
  updatedAt : Timestamp
  assignees : List String
  labels : List String
  repositoryUrl : String
  isPullRequest : Bool
deriving DecidableEq, Repr

structure Comment where
  id : Nat
  author : String
  body : Option String
  createdAt : Timestamp
deriving DecidableEq, Repr

/-- A response of GitHub with an error status, the errors of a GraphQL response, or any other
failure; `display` is what `to_string` writes. -/
inductive Error where
  | github (statusCode : Nat) (message : String)
  | graphql (source display : String)
  | other (display : String)
deriving DecidableEq, Repr

end Octocrab

inductive IssueRoute where
  /-- `/repos/{owner}/{repo}/issues?state=all&since={since}&sort=updated&direction=desc` -/
  | issues (owner repo since : String)
  /-- `/repos/{owner}/{repo}/issues/{number}/sub_issues` -/
  | subIssues (owner repo : String) (number : Nat)
  /-- `/repos/{owner}/{repo}/issues/{number}/dependencies/blocked_by` -/
  | blockedBy (owner repo : String) (number : Nat)
deriving DecidableEq, Repr

inductive RestRequest where
  | getIssue (owner repo : String) (number : Nat)
  | getIssues (route : IssueRoute) (perPage page : Nat)
  | listComments (owner repo : String) (number perPage page : Nat)
deriving DecidableEq, Repr

def RestRequest.Response : RestRequest → Type
  | .getIssue .. => Octocrab.Issue
  | .getIssues .. => List Octocrab.Issue
  | .listComments .. => List Octocrab.Comment

def restSignature : Signature where
  Op := RestRequest
  Answer request := Except Octocrab.Error request.Response

abbrev RestProgram (α : Type) := Program restSignature PortError α

def mapErr : Octocrab.Error → PortError
  | .github 404 message => .notFound message
  | .github 409 message => .conflict none message
  | .github 422 message => .conflict none message
  | .github code message => .network s!"github {code}: {message}"
  | .graphql _ display => .network display
  | .other display => .network display

section Addresses

def splitOwnerRepo (canonical : String) : Except PortError (String × String) :=
  match stripPrefix canonical.toList "github.com/".toList with
  | none => .error (.backend s!"not a github canonical url: {canonical}")
  | some stripped =>
    match stripped.splitOn '/' with
    | [owner, repo] =>
      if owner = [] ∨ repo = [] then
        .error (.backend s!"expected github.com/<owner>/<repo>, got {canonical}")
      else .ok (.ofList owner, .ofList repo)
    | _ => .error (.backend s!"expected github.com/<owner>/<repo>, got {canonical}")

/-- `text.parse::<u64>()`: digits, with a plus sign perhaps, of a value that fits. -/
def parseU64 (text : String) : Option Nat :=
  let digits := (stripPrefix text.toList ['+']).getD text.toList
  let value := Nat.ofDigitChars 10 digits 0
  if digits ≠ [] ∧ digits.all Char.isDigit ∧ value < 2 ^ 64 then some value else none

def parseIssueNumber (remoteId : String) : Except PortError Nat :=
  match parseU64 remoteId with
  | some number => .ok number
  | none => .error (.backend s!"invalid github issue number: {remoteId}")

def cutAt (mark : List Char) : List Char → List Char × Option (List Char)
  | [] => ([], none)
  | char :: rest =>
    match stripPrefix (char :: rest) mark with
    | some after => ([], some after)
    | none => (char :: (cutAt mark rest).1, (cutAt mark rest).2)

/-- The second of the parts between the marks `/repos/` starts with owner and repo. -/
def canonicalFromRepositoryUrl (url : String) : Option String := do
  let mark := "/repos/".toList
  let rest ← (cutAt mark url.toList).2
  match (cutAt mark rest).1.splitOn '/' with
  | owner :: repo :: _ =>
    if owner = [] ∨ repo = [] then none
    else some s!"github.com/{String.ofList owner}/{String.ofList repo}"
  | _ => none

example : [canonicalFromRepositoryUrl "https://api.github.com/repos/acme/backend",
    canonicalFromRepositoryUrl "https://example.com/x"] =
      [some "github.com/acme/backend", none] := by decide

def detectMoveFromIssue (expectedCanonical expectedRemoteId : String) (issue : Octocrab.Issue) :
    Option (String × String) := do
  let actualCanonical ← canonicalFromRepositoryUrl issue.repositoryUrl
  let actualRemoteId := toString issue.number
  if actualCanonical = expectedCanonical ∧ actualRemoteId = expectedRemoteId then none
  else some (actualCanonical, actualRemoteId)

end Addresses

section Mapping

def mapComment (comment : Octocrab.Comment) : RemoteComment where
  remoteId := toString comment.id
  author := comment.author
  body := comment.body.getD ""
  createdAt := comment.createdAt

def mapIssue (issue : Octocrab.Issue) : RemoteTaskSnapshot where
  remoteId := toString issue.number
  nodeId := some issue.nodeId
  title := issue.title
  body := issue.body.getD ""
  closed := issue.closed
  updatedAt := issue.updatedAt
  assignees := issue.assignees
  labels := issue.labels

def toChildIssue (fallbackCanonical : String) (issue : Octocrab.Issue) : RemoteChildIssue where
  canonicalRepo := (canonicalFromRepositoryUrl issue.repositoryUrl).getD fallbackCanonical
  snapshot := mapIssue issue

end Mapping

namespace RestClient

def perPage : Nat := 100

def maxPages : Nat := 50

def request (op : RestRequest) : RestProgram op.Response :=
  (perform (S := restSignature) op).bind fun answer => ofExcept (answer.mapError mapErr)

def discoverMoveTarget (canonicalRepo remoteId : String) :
    RestProgram (Option (String × String)) := do
  let (owner, repo) ← ofExcept (splitOwnerRepo canonicalRepo)
  let number ← ofExcept (parseIssueNumber remoteId)
  let issue ← request (.getIssue owner repo number)
  return detectMoveFromIssue canonicalRepo remoteId issue

def ensureNotMoved (canonicalRepo remoteId : String) : RestProgram Unit := do
  match ← discoverMoveTarget canonicalRepo remoteId with
  | some (toCanonical, toRemoteId) =>
    fail (.issueMoved canonicalRepo remoteId toCanonical toRemoteId)
  | none => return ()

def detectMoveOrMap {α : Type} (canonicalRepo remoteId : String) :
    Except Octocrab.Error α → RestProgram α
  | .ok value => .done value
  | .error (.github 301 _) => do
    match ← discoverMoveTarget canonicalRepo remoteId with
    | some (toCanonical, toRemoteId) =>
      fail (.issueMoved canonicalRepo remoteId toCanonical toRemoteId)
    | none => fail (.backend (s!"github reported 301 for {canonicalRepo}#{remoteId} but the " ++
        "issue endpoint no longer redirects"))
  | .error error => .fail (mapErr error)

variable {α β : Type}

/-- The loop over the pages from `page` on, with `left` more of them up to the cap: what was
collected, and whether the page at the cap was full. The page itself is measured, before
`convert` drops anything of it. -/
def pageThrough (ask : Nat → RestProgram (List α)) (convert : List α → List β) :
    (left page : Nat) → List β → RestProgram (List β × Bool)
  | 0, _, out => .done (out, false)
  | left + 1, page, out => do
    let batch ← ask page
    let out := out ++ convert batch
    if batch.length ≠ perPage then return (out, false)
    else if page = maxPages then return (out, true)
    else pageThrough ask convert left (page + 1) out

/-- `isoSeconds` is chrono's `format("%Y-%m-%dT%H:%M:%SZ")`. -/
def listIssues (isoSeconds : Timestamp → String) (canonicalRepo : String) (since : Timestamp) :
    RestProgram (List RemoteTaskSnapshot) := do
  let (owner, repo) ← ofExcept (splitOwnerRepo canonicalRepo)
  let sinceIso := isoSeconds since
  let (snapshots, capPageFull) ← pageThrough
    (fun page => request (.getIssues (.issues owner repo sinceIso) perPage page))
    (fun batch => (batch.filter fun issue => !issue.isPullRequest).map mapIssue)
    maxPages 1 []
  if capPageFull then
    fail (.backend (s!"{canonicalRepo} has more than {maxPages * perPage} issues updated since " ++
      s!"{sinceIso}; narrow the window with --since"))
  else return snapshots

/-- What the lists of one issue have in common: a full page at the cap is followed by a probe for
the next single item, and a list that goes on is refused. -/
def fetchPaged (canonicalRepo remoteId refusal : String)
    (ask : (owner repo : String) → (number perPage page : Nat) →
      RestProgram (Except Octocrab.Error (List α)))
    (convert : List α → List β) : RestProgram (List β) := do
  ensureNotMoved canonicalRepo remoteId
  let (owner, repo) ← ofExcept (splitOwnerRepo canonicalRepo)
  let number ← ofExcept (parseIssueNumber remoteId)
  let (out, capPageFull) ← pageThrough
    (fun page => (ask owner repo number perPage page).bind
      (detectMoveOrMap canonicalRepo remoteId)) convert maxPages 1 []
  if capPageFull then
    let probe ← (ask owner repo number 1 (maxPages * perPage + 1)).bind fun answer =>
      ofExcept (answer.mapError mapErr)
    if !probe.isEmpty then
      fail (.backend
        s!"issue {number} in {canonicalRepo} has more than {maxPages * perPage} {refusal}")
    else return out
  else return out

def fetchSubIssues (canonicalRepo remoteId : String) : RestProgram (List RemoteChildIssue) := do
  let issues ← fetchPaged canonicalRepo remoteId "sub-issues; refusing to import a truncated tree"
    (fun owner repo number perPage page =>
      perform (S := restSignature) (.getIssues (.subIssues owner repo number) perPage page)) id
  return issues.map (toChildIssue canonicalRepo)

def fetchBlockedBy (canonicalRepo remoteId : String) : RestProgram (List RemoteChildIssue) := do
  let issues ← fetchPaged canonicalRepo remoteId
    "blocked-by dependencies; refusing to reconcile a truncated set"
    (fun owner repo number perPage page =>
      perform (S := restSignature) (.getIssues (.blockedBy owner repo number) perPage page)) id
  return issues.map (toChildIssue canonicalRepo)

def fetchComments (canonicalRepo remoteId : String) : RestProgram (List RemoteComment) :=
  fetchPaged canonicalRepo remoteId "comments; refusing to mirror a truncated set"
    (fun owner repo number perPage page =>
      perform (S := restSignature) (.listComments owner repo number perPage page))
    (List.map mapComment)

end RestClient

end RepoLink
