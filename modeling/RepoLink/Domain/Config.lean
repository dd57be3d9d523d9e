import RepoLink.Domain.Types

/-!
What tasks are configured by: project boards of `domain-project`, org issue types, workspaces
of `domain-workspace` and the repo origins and instances of `domain-repo`.
-/

namespace RepoLink

structure FieldOption where
  optionId : String
  name : String
  ordinal : Nat
deriving DecidableEq, Repr

inductive ProjectFieldKind where
  | status
  | priority
  | type
  | other
deriving DecidableEq, Repr

structure ProjectField where
  fieldId : String
  name : String
  kind : ProjectFieldKind
  options : List FieldOption
deriving DecidableEq, Repr

structure StatusMapping where
  isOpen : Bool
  optionId : String
deriving DecidableEq, Repr

structure PriorityMapping where
  priority : Priority
  optionId : String
deriving DecidableEq, Repr

structure Project where
  id : ProjectId
  title : String
  fields : List ProjectField
  statusMappings : List StatusMapping
  priorityMappings : List PriorityMapping
deriving DecidableEq, Repr

namespace Project

def fieldOfKind (kind : ProjectFieldKind) (project : Project) : Option ProjectField :=
  project.fields.find? fun field => field.kind = kind

def statusField (project : Project) : Option ProjectField := project.fieldOfKind .status

def statusFieldId (project : Project) : Option String := project.statusField.map (·.fieldId)

def priorityField (project : Project) : Option ProjectField := project.fieldOfKind .priority

def priorityFieldId (project : Project) : Option String := project.priorityField.map (·.fieldId)

def resolvedPriorityOptionIdFor (priority : Priority) (project : Project) : Option String :=
  (project.priorityMappings.find? fun mapping => mapping.priority = priority).map (·.optionId)

def priorityForOptionId (optionId : String) (project : Project) : Option Priority :=
  (project.priorityMappings.find? fun mapping => mapping.optionId = optionId).map (·.priority)

def typeField (project : Project) : Option ProjectField :=
  match project.fields.filter fun field => field.kind = .type with
  | [field] => some field
  | _ => none

def hasAmbiguousTypeField (project : Project) : Bool :=
  1 < (project.fields.filter fun field => field.kind = .type).length

def typeFieldId (project : Project) : Option String := project.typeField.map (·.fieldId)

def resolvedTypeOptionIdFor (issueType : IssueType) (project : Project) : Option String := do
  let field ← project.typeField
  let option ← field.options.find? fun option => eqIgnoreAsciiCase option.name issueType.display
  return option.optionId

def optionIdFor (isOpen : Bool) (project : Project) : Option String :=
  (project.statusMappings.find? fun mapping => mapping.isOpen = isOpen).map (·.optionId)

def resolvedOptionIdFor (isOpen : Bool) (project : Project) : Option String :=
  project.optionIdFor isOpen

end Project

structure OrgIssueType where
  issueTypeId : String
  name : String
deriving DecidableEq, Repr

structure OrgIssueTypeRegistry where
  orgLogin : String
  types : List OrgIssueType
deriving DecidableEq, Repr

def OrgIssueTypeRegistry.isAvailable (registry : OrgIssueTypeRegistry) : Bool :=
  !registry.types.isEmpty

inductive WorkspaceStatus where
  | created
  | active
  | paused
  | archived
  | deleted
deriving DecidableEq, Repr

structure Workspace where
  id : WorkspaceId
  status : WorkspaceStatus
  projectId : Option ProjectId
  filingRepoId : Option RepoId
  defaultIssueType : Option String
  defaultSubIssueType : Option String
deriving DecidableEq, Repr

structure RepoOrigin where
  id : RepoOriginId
  canonicalUrl : String
  originPrefix : String
deriving DecidableEq, Repr

structure RepoInstance where
  id : RepoId
  workspaceId : WorkspaceId
  originId : RepoOriginId
  canonicalUrl : String
deriving DecidableEq, Repr

structure RepoBindingView where
  instanceRow : RepoInstance
  origin : RepoOrigin
deriving DecidableEq, Repr

end RepoLink
