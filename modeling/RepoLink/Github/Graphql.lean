import RepoLink.Github.Rest
import RepoLink.Library.Dict
import RepoLink.Library.Paging
import RepoLink.Search.Text

/-!
The GraphQL client. The board poll is a walk over the pages of a project's items by their end
cursors, with the mapping of each node to an item; the statuses of items that are known by their
ids are read chunk by chunk.
-/

namespace RepoLink

open Effects Program KeyedTable

structure FieldValueNode where
  optionId : Option String
  fieldId : Option String
deriving DecidableEq, Repr

structure ContentNode where
  typename : String
  id : Option String
  number : Option Nat
  title : Option String
  body : Option String
  state : Option String
  repository : Option String
deriving DecidableEq, Repr

structure ItemNode where
  id : String
  updatedAt : String
  fieldValues : List FieldValueNode
  content : Option ContentNode
deriving DecidableEq, Repr

structure PageInfo where
  hasNextPage : Bool
  endCursor : Option String
deriving DecidableEq, Repr

structure ItemsConn where
  pageInfo : PageInfo
  nodes : List ItemNode
deriving DecidableEq, Repr

structure PollData where
  node : Option ItemsConn
deriving DecidableEq, Repr

/-- The query `POLL_ITEMS` with its variables. -/
structure PollItems where
  projectId : String
  query : Option String
  first : Nat
  after : Option String
deriving DecidableEq, Repr

def graphqlSignature : Signature where
  Op := PollItems
  Answer _ := Except Octocrab.Error PollData

abbrev GraphqlProgram (α : Type) := Program graphqlSignature PortError α

def mapGqlErr : Octocrab.Error → PortError
  | .graphql source _ => .backend s!"github graphql: {source}"
  | .github 404 message => .notFound message
  | .github code message => .network s!"github {code}: {message}"
  | .other display => .network display

/-- How texts are read and shown: chrono's `parse_from_rfc3339`, and `{:?}` of a text. -/
structure TextFormats where
  parseFromRfc3339 : String → Except String Timestamp
  debug : String → String

namespace GraphqlClient

def maxPollPages : Nat := 20

def pollPageSize : Nat := 100

variable (formats : TextFormats)

def parseTs (text : String) : Except PortError Timestamp :=
  (formats.parseFromRfc3339 text).mapError fun error =>
    .backend s!"invalid updatedAt timestamp {formats.debug text}: {error}"

def singleSelect (value : FieldValueNode) : Option (String × String) := do
  let fieldId ← value.fieldId
  let optionId ← value.optionId
  return (fieldId, optionId)

/-- Content of a kind that is not modelled gives no item. -/
def mapPollItem (statusFieldId : String) (node : ItemNode) :
    Except PortError (Option RemoteProjectItem) := do
  let updatedAt ← parseTs formats node.updatedAt
  let singleSelectOptions := Dict.collect (node.fieldValues.filterMap singleSelect)
  let statusOptionId := singleSelectOptions.get? statusFieldId
  match node.content with
  | none => return none
  | some content =>
    if content.typename = "Issue" then
      return some {
        itemNodeId := node.id
        issueNodeId := content.id
        canonicalRepo := content.repository.map fun nameWithOwner => s!"github.com/{nameWithOwner}"
        number := content.number
        title := content.title.getD ""
        body := content.body.getD ""
        closed := content.state = some "CLOSED"
        statusOptionId
        singleSelectOptions := singleSelectOptions.rows
        updatedAt }
    else if content.typename = "DraftIssue" then
      return some {
        itemNodeId := node.id
        issueNodeId := none
        canonicalRepo := none
        number := none
        title := content.title.getD ""
        body := content.body.getD ""
        closed := false
        statusOptionId
        singleSelectOptions := singleSelectOptions.rows
        updatedAt }
    else return none

def mapPollItems (statusFieldId : String) :
    List ItemNode → List RemoteProjectItem → Except PortError (List RemoteProjectItem)
  | [], out => .ok out
  | node :: rest, out => do
    match ← mapPollItem formats statusFieldId node with
    | some item => mapPollItems statusFieldId rest (out ++ [item])
    | none => mapPollItems statusFieldId rest out

def queryArg (query : String) : Option String :=
  if trim query = "" then none else some (trim query)

/-- The walk with `left` more pages up to the cap. -/
def pollPages (projectNodeId statusFieldId query : String) :
    (left : Nat) → (after : Option String) → List RemoteProjectItem → GraphqlProgram PollPage
  | 0, _, out => return { items := out, truncated := true }
  | left + 1, after, out => do
    let answer ← perform (S := graphqlSignature)
      { projectId := projectNodeId, query := queryArg query, first := pollPageSize, after }
    let data ← ofExcept (answer.mapError mapGqlErr)
    match data.node with
    | none => fail (.notFound s!"project {projectNodeId}")
    | some items =>
      let out ← ofExcept (mapPollItems formats statusFieldId items.nodes out)
      if items.pageInfo.hasNextPage then
        match items.pageInfo.endCursor with
        -- more pages are claimed, but there is no cursor to fetch them with
        | none => return { items := out, truncated := true }
        | some cursor => pollPages projectNodeId statusFieldId query left (some cursor) out
      else return { items := out, truncated := false }

def pollProjectItems (projectNodeId statusFieldId query : String) : GraphqlProgram PollPage :=
  pollPages formats projectNodeId statusFieldId query maxPollPages none []

end GraphqlClient

structure ItemStatusNode where
  id : Option String
  fieldValues : List FieldValueNode
deriving DecidableEq, Repr

structure ItemStatusesData where
  nodes : List (Option ItemStatusNode)
deriving DecidableEq, Repr

/-- The query `ITEM_STATUSES` with its ids. -/
def itemStatusesSignature : Signature where
  Op := List String
  Answer _ := Except Octocrab.Error ItemStatusesData

abbrev ItemStatusesProgram (α : Type) := Program itemStatusesSignature PortError α

namespace GraphqlClient

def statusOption (statusFieldId : String) (fieldValues : List FieldValueNode) : Option String :=
  (fieldValues.find? fun value => value.fieldId = some statusFieldId).bind FieldValueNode.optionId

def insertStatus (statusFieldId : String) (statuses : Dict String (Option String)) :
    Option ItemStatusNode → Dict String (Option String)
  | none => statuses
  | some node =>
    match node.id with
    | none => statuses
    | some id => statuses.insert id (statusOption statusFieldId node.fieldValues)

def fetchChunks (statusFieldId : String) : List (List String) → Dict String (Option String) →
    (truncated : Bool) → ItemStatusesProgram ItemStatusPage
  | [], statuses, truncated => return { statuses, truncated }
  | chunk :: rest, statuses, truncated => do
    match ← perform (S := itemStatusesSignature) chunk with
    | .ok data =>
      fetchChunks statusFieldId rest (data.nodes.foldl (insertStatus statusFieldId) statuses)
        truncated
    | .error error =>
      if statuses.rows.isEmpty then fail (mapGqlErr error)
      else return { statuses, truncated := true }

def fetchItemStatuses (itemNodeIds : List String) (statusFieldId : String) :
    ItemStatusesProgram ItemStatusPage :=
  let cap := maxPollPages * pollPageSize
  fetchChunks statusFieldId (Paging.chunks pollPageSize (itemNodeIds.take cap)) Dict.empty
    (cap < itemNodeIds.length)

end GraphqlClient

end RepoLink
