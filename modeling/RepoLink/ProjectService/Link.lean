import RepoLink.Store.ProjectTables

/-!
`ProjectService::link_from_snapshot`: a board as it was fetched becomes a project, with its fields
classified and its mappings derived.
-/

namespace RepoLink

structure RemoteProjectFieldOption where
  optionId : String
  name : String
  ordinal : Nat
deriving DecidableEq, Repr

structure RemoteProjectField where
  fieldId : String
  name : String
  options : List RemoteProjectFieldOption
deriving DecidableEq, Repr

structure RemoteProjectSnapshot where
  nodeId : String
  number : Nat
  title : String
  ownerLogin : String
  fields : List RemoteProjectField
deriving DecidableEq, Repr

inductive ProjectServiceError where
  | port (error : PortError)
  | domain (error : DomainError)
  | badProjectId (message : String)
  | noStatusField (projectId : String)
deriving DecidableEq, Repr

def ProjectId.parse (text : String) : Except String ProjectId :=
  if text = "" then .error "project id must not be empty"
  else if !text.startsWith "PVT_" then
    .error ("project id must start with 'PVT_', got: " ++ text)
  else .ok ⟨text⟩

structure LinkOutcome where
  project : ProjectRecord
  advisories : List String
deriving DecidableEq, Repr

namespace RemoteProjectSnapshot

def projectFields (snapshot : RemoteProjectSnapshot) : List ProjectField :=
  snapshot.fields.map fun field =>
    ⟨field.fieldId, field.name, .other,
      field.options.map fun option => ⟨option.optionId, option.name, option.ordinal⟩⟩

def clampAdvisory (title : String) (distinct : Nat) : String :=
  "Priority clamp: board '" ++ title ++ "' exposes " ++ toString distinct ++
    " priority option(s) for 4 local priorities (P0..P3), so two or more collapse onto one " ++
    "board option (RFC 0006 D3; edit the mapping to override)"

def priorityPlan (snapshot : RemoteProjectSnapshot) (fields : List ProjectField) :
    List PriorityMapping × List String :=
  match fields.find? fun field => field.kind = .priority with
  | none => ([], [])
  | some field =>
    let mappings := Project.derivePriorityMappings field.options
    let distinct := (mappings.map PriorityMapping.optionId).dedup.length
    (mappings, if !mappings.isEmpty && distinct < mappings.length then
      [clampAdvisory snapshot.title distinct] else [])

def linked (lowercase : Char → List Char) (now : Timestamp) (id : ProjectId)
    (snapshot : RemoteProjectSnapshot) : Except ProjectServiceError LinkOutcome :=
  let fields := assignFieldKinds snapshot.projectFields
  match fields.find? fun field => field.kind = .status with
  | none => .error (.noStatusField id.value)
  | some status =>
    let (priorityMappings, advisories) := snapshot.priorityPlan fields
    match ProjectRecord.fromFields id snapshot.ownerLogin snapshot.number snapshot.title fields
      (deriveStatusMappings lowercase status.options) priorityMappings false now with
    | .error error => .error (.domain error)
    | .ok project => .ok ⟨project, advisories⟩

end RemoteProjectSnapshot

def linkFromSnapshot (lowercase : Char → List Char) (now : Timestamp)
    (snapshot : RemoteProjectSnapshot) (tables : ProjectTables) :
    Except ProjectServiceError (LinkOutcome × ProjectTables) :=
  match ProjectId.parse snapshot.nodeId with
  | .error message => .error (.badProjectId message)
  | .ok id => do
    let outcome ← snapshot.linked lowercase now id
    let saved ← (tables.save outcome.project).mapError .port
    return (outcome, saved)

end RepoLink
