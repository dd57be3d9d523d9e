import RepoLink.Domain.Types

/-!
The `Task` aggregate of `domain-task`: its fields, constructors and mutators.

A mutator that takes `&mut self` and returns a `Result` is a function to the result paired
with the task it leaves behind; one that cannot fail returns the task alone. Every method
that touches `updated_at` receives the clock reading as its first argument.
-/

namespace RepoLink

structure Task where
  id : TaskId
  workspaceId : WorkspaceId
  repoId : Option RepoId
  filingRepoId : Option RepoId
  title : String
  body : String
  lifecycle : Lifecycle
  sync : SyncState
  priority : Priority
  issueType : Option IssueType
  issueTypePending : Bool
  assignees : List String
  remote : Option RemoteRef
  relations : List TaskRelation
  comments : List TaskComment
  projectItemId : Option String
  projectStatusOptionId : Option String
  syncedAt : Option Timestamp
  hash : String
  createdAt : Timestamp
  updatedAt : Timestamp
  syncedBaseline : Option TaskSnapshot
deriving DecidableEq, Repr

inductive MirrorField where
  | title
  | body
  | status
  | assignees
deriving DecidableEq, Repr

def mirroredFields : List MirrorField := [.title, .body, .status, .assignees]

structure MirrorPatch where
  title : Option String
  body : Option String
  status : Option Lifecycle
  assignees : Option (List String)
deriving DecidableEq, Repr

namespace MirrorPatch

def default : MirrorPatch := ⟨none, none, none, none⟩

def isEmpty (patch : MirrorPatch) : Bool :=
  patch.title.isNone && patch.body.isNone && patch.status.isNone && patch.assignees.isNone

end MirrorPatch

def assigneesEqual (left right : List String) : Bool :=
  left.length == right.length && left.all right.contains && right.all left.contains

theorem assigneesEqual_self (assignees : List String) :
    assigneesEqual assignees assignees = true := by
  simp [assigneesEqual]

theorem assigneesEqual_iff {left right : List String} : assigneesEqual left right = true ↔
    left.length = right.length ∧ ∀ login, login ∈ left ↔ login ∈ right := by
  simp only [assigneesEqual, Bool.and_eq_true, beq_iff_eq, List.all_eq_true, List.contains_iff_mem]
  constructor
  · rintro ⟨⟨length, forwards⟩, backwards⟩
    exact ⟨length, fun login => ⟨forwards login, backwards login⟩⟩
  · rintro ⟨length, same⟩
    exact ⟨⟨length, fun login => (same login).mp⟩, fun login => (same login).mpr⟩

def MirrorField.differs (field : MirrorField) (task : Task) (baseline : TaskSnapshot) : Bool :=
  match field with
  | .title => task.title != baseline.title
  | .body => task.body != baseline.body
  | .status => task.lifecycle != baseline.lifecycle
  | .assignees => !assigneesEqual task.assignees baseline.assignees

abbrev Mutation := Except DomainError Unit × Task

def Mutation.attempt (mutation : Mutation) : Except DomainError Task :=
  match mutation.1 with
  | .ok _ => .ok mutation.2
  | .error error => .error error

namespace Task

def touch (now : Timestamp) (task : Task) : Task := { task with updatedAt := now }

def snapshotView (now : Timestamp) (source : SnapshotSource) (task : Task) : TaskSnapshot where
  taskId := task.id
  version := 0
  title := task.title
  body := task.body
  lifecycle := task.lifecycle
  syncState := task.sync
  priority := task.priority
  issueType := task.issueType
  issueTypeRecorded := true
  assignees := task.assignees
  remote := task.remote
  repoId := task.repoId
  repoIdRecorded := true
  filingRepoId := task.filingRepoId
  source := source
  capturedAt := now

def newDraft (now : Timestamp) (id : TaskId) (workspaceId : WorkspaceId)
    (repoId : Option RepoId) (title : String) : Except DomainError Task :=
  if isBlank title then .error (.validation "task title is empty")
  else .ok
    { id, workspaceId, repoId, filingRepoId := none, title, body := "", lifecycle := .open
      sync := .localOnly, priority := .p3, issueType := none, issueTypePending := false
      assignees := [], remote := none, relations := [], comments := [], projectItemId := none
      projectStatusOptionId := none, syncedAt := none, hash := "", createdAt := now
      updatedAt := now, syncedBaseline := none }

def importMirror (now : Timestamp) (id : TaskId) (workspaceId : WorkspaceId)
    (repoId : Option RepoId) (remote : RemoteRef) (title body : String)
    (assignees : List String) (closed : Bool) : Except DomainError Task :=
  if isBlank title then .error (.validation "task title is empty")
  else
    let task : Task :=
      { id, workspaceId, repoId, filingRepoId := repoId, title, body
        lifecycle := if closed then .completed else .open
        sync := .synced, priority := .p3, issueType := none, issueTypePending := false
        assignees, remote := some remote, relations := [], comments := []
        projectItemId := none, projectStatusOptionId := none, syncedAt := none, hash := ""
        createdAt := now, updatedAt := now, syncedBaseline := none }
    .ok { task with syncedBaseline := some (task.snapshotView now .pull) }

def differsFromBaseline (task : Task) (baseline : TaskSnapshot) : Bool :=
  mirroredFields.any fun field => field.differs task baseline

def reconcileDirtyAgainstBaseline (task : Task) : Task :=
  match task.syncedBaseline with
  | none => task
  | some baseline =>
    { task with
      sync := match task.sync, task.differsFromBaseline baseline with
        | .synced, true => .dirtyLocal
        | .dirtyLocal, false => .synced
        | .dirtyRemote, true => .conflict
        | other, _ => other }

def setSyncedBaseline (baseline : TaskSnapshot) (task : Task) : Task :=
  ({ task with syncedBaseline := some baseline }).reconcileDirtyAgainstBaseline

def diffAgainstBaseline (task : Task) : MirrorPatch :=
  match task.syncedBaseline with
  | none => .default
  | some baseline =>
    { title := if MirrorField.title.differs task baseline then some task.title else none
      body := if MirrorField.body.differs task baseline then some task.body else none
      status := if MirrorField.status.differs task baseline then some task.lifecycle else none
      assignees :=
        if MirrorField.assignees.differs task baseline then some task.assignees else none }

def fullMirrorPatch (task : Task) : MirrorPatch :=
  ⟨some task.title, some task.body, some task.lifecycle, some task.assignees⟩

def isMirror (task : Task) : Bool := task.sync != .localOnly

def isIssueBacked (task : Task) : Bool := task.remote.isSome

def isOpen (task : Task) : Bool := task.lifecycle.isOpen

def blockedBy (task : Task) : List TaskId :=
  (task.relations.filter fun relation => relation.kind = .blockedBy).map (·.other)

def stageForSync (now : Timestamp) (task : Task) : Mutation :=
  match task.sync with
  | .localOnly | .dirtyLocal => (.ok (), ({ task with sync := .staged }).touch now)
  | other => (.error (.invalidTransition ("cannot stage from sync=" ++ other.debug)), task)

def promoteToRemote (now : Timestamp) (remote : RemoteRef) (task : Task) : Mutation :=
  if task.sync ≠ .staged then
    (.error (.invalidTransition ("cannot promote from sync=" ++ task.sync.debug)), task)
  else
    let promoted := ({ task with remote := some remote, sync := .synced }).touch now
    (.ok (), { promoted with syncedBaseline := some (promoted.snapshotView now .promote) })

def confirmSynced (now : Timestamp) (source : SnapshotSource) (task : Task) : Mutation :=
  if !source.isBaseline then
    (.error (.validation ("confirm_synced source must be Promote/Push/Pull/ConflictResolve, got "
      ++ source.debug)), task)
  else
    match task.sync with
    | .staged | .dirtyLocal | .dirtyRemote =>
      let aligned := ({ task with sync := .synced }).touch now
      (.ok (), { aligned with syncedBaseline := some (aligned.snapshotView now source) })
    | other =>
      (.error (.invalidTransition ("cannot confirm_synced from sync=" ++ other.debug)), task)

/-- The baseline with every transmitted field overwritten and `source` stamped. -/
def mergeBaseline (source : SnapshotSource) (patch : MirrorPatch) (prior : TaskSnapshot) :
    TaskSnapshot :=
  { prior with
    source
    title := patch.title.getD prior.title
    body := patch.body.getD prior.body
    lifecycle := patch.status.getD prior.lifecycle
    assignees := patch.assignees.getD prior.assignees }

/-- The admission check of `confirmSyncedFields`: which states accept which source. -/
def confirmable (source : SnapshotSource) (patch : MirrorPatch) (sync : SyncState) :
    Except DomainError Unit :=
  match sync, source with
  | .staged, _ | .dirtyLocal, _ | .dirtyRemote, _ => .ok ()
  | .conflict, .push =>
    if patch.title.isNone || patch.body.isNone || patch.status.isNone || patch.assignees.isNone
    then .error (.validation
      ("confirm_synced_fields from Conflict (local-wins Push) requires a full "
        ++ "mirrored-field patch — title, body, status, and assignees must all be present"))
    else .ok ()
  | .conflict, other => .error (.invalidTransition
      ("cannot confirm_synced_fields from Conflict with source " ++ other.debug
        ++ "; only a local-wins Push resolves a conflict"))
  | other, _ =>
    .error (.invalidTransition ("cannot confirm_synced_fields from sync=" ++ other.debug))

def confirmSyncedFields (now : Timestamp) (source : SnapshotSource) (patch : MirrorPatch)
    (task : Task) : Mutation :=
  if source ≠ .promote ∧ source ≠ .push ∧ source ≠ .pull ∧ source ≠ .conflictResolve then
    (.error (.validation
      ("confirm_synced_fields source must be Promote/Push/Pull/ConflictResolve, got "
        ++ source.debug)), task)
  else
    match confirmable source patch task.sync with
    | .error error => (.error error, task)
    | .ok _ =>
      match task.syncedBaseline with
      | none => (.error (.invalidTransition
          "cannot confirm_synced_fields without a synced_baseline"), task)
      | some prior =>
        let merged := { task with
          syncedBaseline := some (mergeBaseline source patch prior), sync := .synced }
        (.ok (), (merged.touch now).reconcileDirtyAgainstBaseline)

def adoptAlignedState (now : Timestamp) (source : SnapshotSource) (task : Task) : Mutation :=
  if source ≠ .push ∧ source ≠ .pull ∧ source ≠ .conflictResolve then
    (.error (.validation ("adopt_aligned_state source must be Push/Pull/ConflictResolve, got "
      ++ source.debug)), task)
  else
    match task.sync with
    | .synced | .conflict | .dirtyLocal | .dirtyRemote =>
      let aligned := ({ task with sync := .synced }).touch now
      (.ok (), { aligned with syncedBaseline := some (aligned.snapshotView now source) })
    | other =>
      (.error (.invalidTransition
        ("cannot adopt an aligned state from sync=" ++ other.debug)), task)

def markDirtyLocal (now : Timestamp) (task : Task) : Mutation :=
  match task.sync with
  | .synced => (.ok (), ({ task with sync := .dirtyLocal }).touch now)
  | other =>
    (.error (.invalidTransition ("cannot mark dirty_local from sync=" ++ other.debug)), task)

def markDirtyRemote (now : Timestamp) (task : Task) : Mutation :=
  match task.sync with
  | .synced => (.ok (), ({ task with sync := .dirtyRemote }).touch now)
  | other =>
    (.error (.invalidTransition ("cannot mark dirty_remote from sync=" ++ other.debug)), task)

def markConflicted (now : Timestamp) (task : Task) : Mutation :=
  match task.sync with
  | .dirtyLocal | .dirtyRemote | .synced => (.ok (), ({ task with sync := .conflict }).touch now)
  | other =>
    (.error (.invalidTransition ("cannot mark conflict from sync=" ++ other.debug)), task)

def linkToRemote (now : Timestamp) (repoId : RepoId) (remote : RemoteRef)
    (forceConflict : Bool) (task : Task) : Task :=
  ({ task with
    repoId := some repoId
    remote := some remote
    sync := if forceConflict then .conflict else task.sync }).touch now

def setLifecycle (now : Timestamp) (lifecycle : Lifecycle) (task : Task) : Task :=
  if task.lifecycle = lifecycle then task
  else (({ task with lifecycle }).touch now).reconcileDirtyAgainstBaseline

def start (task : Task) : Mutation :=
  if task.isOpen then (.ok (), task)
  else (.error (.invalidTransition
    "cannot start a closed task — use `rl task reopen` to transition it to open"), task)

def complete (now : Timestamp) (task : Task) : Mutation :=
  (.ok (), task.setLifecycle now .completed)

def archive (now : Timestamp) (task : Task) : Mutation :=
  (.ok (), task.setLifecycle now .notPlanned)

def reopen (now : Timestamp) (task : Task) : Mutation :=
  (.ok (), task.setLifecycle now .reopened)

def addRelation (now : Timestamp) (kind : RelationKind) (other : TaskId) (task : Task) : Task :=
  if task.relations.any fun relation => relation.kind = kind ∧ relation.other = other then task
  else ({ task with relations := task.relations ++ [TaskRelation.mk kind other] }).touch now

def removeRelation (now : Timestamp) (kind : RelationKind) (other : TaskId) (task : Task) :
    Bool × Task :=
  let kept := task.relations.filter fun relation => ¬(relation.kind = kind ∧ relation.other = other)
  if kept.length ≠ task.relations.length then
    (true, ({ task with relations := kept }).touch now)
  else (false, { task with relations := kept })

def clearRelations (now : Timestamp) (task : Task) : List TaskRelation × Task :=
  if task.relations.isEmpty then ([], task)
  else (task.relations, ({ task with relations := [] }).touch now)

def setPriority (now : Timestamp) (priority : Priority) (task : Task) : Task :=
  if task.priority ≠ priority then ({ task with priority }).touch now else task

def setIssueType (now : Timestamp) (issueType : Option IssueType) (task : Task) : Task :=
  if task.issueType ≠ issueType then
    ({ task with issueType, issueTypePending := true }).touch now
  else task

def setIssueTypeDefault (now : Timestamp) (issueType : IssueType) (task : Task) : Task :=
  if task.issueType ≠ some issueType then
    ({ task with issueType := some issueType }).touch now
  else task

def setProjectStatusOptionId (optionId : Option String) (task : Task) : Bool × Task :=
  if task.projectStatusOptionId = optionId then (false, task)
  else (true, { task with projectStatusOptionId := optionId })

def setRepoId (now : Timestamp) (repoId : Option RepoId) (task : Task) : Mutation :=
  if task.repoId = repoId then (.ok (), task)
  else if task.remote.isSome && task.filingRepoId.isNone then
    (.error (.validation
      "cannot reassign the repo of a synced task unless a filing repo is recorded"), task)
  else (.ok (), ({ task with repoId }).touch now)

def setFilingRepoId (now : Timestamp) (filingRepoId : Option RepoId) (task : Task) : Mutation :=
  if task.filingRepoId = filingRepoId then (.ok (), task)
  else if task.filingRepoId.isSome then
    (.error (.validation
      "cannot change or clear the filing repo of a task once it has been recorded"), task)
  else (.ok (), ({ task with filingRepoId }).touch now)

def forceSetFilingRepoId (now : Timestamp) (filingRepoId : Option RepoId) (task : Task) : Task :=
  if task.filingRepoId = filingRepoId then task
  else ({ task with filingRepoId }).touch now

def setBody (now : Timestamp) (body : String) (task : Task) : Task :=
  (({ task with body }).touch now).reconcileDirtyAgainstBaseline

def setTitle (now : Timestamp) (title : String) (task : Task) : Mutation :=
  if isBlank title then (.error (.validation "task title is empty"), task)
  else (.ok (), (({ task with title }).touch now).reconcileDirtyAgainstBaseline)

def setAssignees (now : Timestamp) (assignees : List String) (task : Task) : Task :=
  (({ task with assignees }).touch now).reconcileDirtyAgainstBaseline

end Task

end RepoLink
