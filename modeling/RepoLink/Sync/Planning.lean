import RepoLink.Ports.Calls
import RepoLink.Sync.Service

/-!
The planners look but do not write: every call that they make is quiet. The type projection plans
nothing but a type rail.
-/

namespace RepoLink

open Effects Program

def OutboxMutation.isTypeRail : OutboxMutation → Bool
  | .setProjectType .. | .setIssueType .. => true
  | _ => false

def OutboxMutation.isFieldRail : OutboxMutation → Bool
  | .setProjectPriority .. => true
  | mutation => mutation.isTypeRail

section

variable {ε : Type} [OfPortError ε]

theorem projectForWorkspace_every {allowed : PortOp → Prop}
    (reads : ∀ op : StoreOp, op.reads = true → allowed (.store op)) (workspace : Workspace) :
    (projectForWorkspace workspace : Service ε (Option Project)).Every allowed := by
  unfold projectForWorkspace
  split
  · trivial
  · exact every_bind (every_query (reads (.getProject _) rfl)) fun _ => trivial

theorem projectForWorkspace_quiet (workspace : Workspace) :
    (projectForWorkspace workspace : Service ε (Option Project)).Every PortOp.quiet :=
  projectForWorkspace_every (fun _ reads => reads) workspace

theorem resolveProject_every {allowed : PortOp → Prop}
    (reads : ∀ op : StoreOp, op.reads = true → allowed (.store op)) (task : Task) :
    (resolveProject task : Service ε (Option Project)).Every allowed :=
  every_bind (every_query (reads (.getWorkspace _) rfl)) (projectForWorkspace_every reads)

theorem resolveIssueTypeProjection_every {allowed : PortOp → Prop}
    (reads : ∀ op : StoreOp, op.reads = true → allowed (.store op)) (owner : Option String)
    (task : Task) :
    (resolveIssueTypeProjection owner task : Service ε (Option OutboxMutation)).Every allowed := by
  unfold resolveIssueTypeProjection
  split
  · trivial
  · split
    · trivial
    · refine every_bind (every_query (reads _ rfl)) ?_
      intro registry
      split <;> trivial

theorem resolveTypeProjection_every {allowed : PortOp → Prop}
    (reads : ∀ op : StoreOp, op.reads = true → allowed (.store op)) (project : Option Project)
    (owner : Option String) (task : Task) :
    (resolveTypeProjection project owner task : Service ε (Option OutboxMutation)).Every
      allowed := by
  unfold resolveTypeProjection
  split
  · exact resolveIssueTypeProjection_every reads owner task
  · split
    · trivial
    · exact resolveIssueTypeProjection_every reads owner task

theorem setProjectTypeMutation_rail {project : Project} {task : Task}
    {mutation : OutboxMutation} (planned : setProjectTypeMutation project task = some mutation) :
    mutation.isTypeRail = true := by
  obtain ⟨item, _, planned⟩ := Option.bind_eq_some_iff.mp planned
  obtain ⟨field, _, planned⟩ := Option.bind_eq_some_iff.mp planned
  dsimp only at planned
  split at planned
  · cases planned
    rfl
  · obtain ⟨option, _, planned⟩ := Option.bind_eq_some_iff.mp planned
    cases planned
    rfl

theorem setProjectPriorityMutation_rail {project : Project} {task : Task}
    {mutation : OutboxMutation}
    (planned : setProjectPriorityMutation project task = some mutation) :
    mutation.isFieldRail = true := by
  obtain ⟨item, _, planned⟩ := Option.bind_eq_some_iff.mp planned
  obtain ⟨field, _, planned⟩ := Option.bind_eq_some_iff.mp planned
  obtain ⟨option, _, planned⟩ := Option.bind_eq_some_iff.mp planned
  cases planned
  rfl

theorem OutboxMutation.isFieldRail_of_type {mutation : OutboxMutation}
    (rail : mutation.isTypeRail = true) : mutation.isFieldRail = true := by
  cases mutation <;> first | rfl | exact rail

theorem setIssueTypeMutation_native {registry : OrgIssueTypeRegistry} {task : Task}
    {mutation : OutboxMutation} (planned : setIssueTypeMutation registry task = some mutation) :
    ∃ node typeId name enforce, mutation = .setIssueType node typeId name enforce := by
  obtain ⟨remote, _, planned⟩ := Option.bind_eq_some_iff.mp planned
  obtain ⟨node, _, planned⟩ := Option.bind_eq_some_iff.mp planned
  split at planned
  · cases planned
    exact ⟨_, _, _, _, rfl⟩
  · obtain ⟨registered, _, planned⟩ := Option.bind_eq_some_iff.mp planned
    cases planned
    exact ⟨_, _, _, _, rfl⟩

theorem resolveIssueTypeProjection_native {good : OutboxMutation → Prop}
    (native : ∀ node typeId name enforce, good (.setIssueType node typeId name enforce))
    (owner : Option String) (task : Task) :
    (resolveIssueTypeProjection owner task : Service ε (Option OutboxMutation)).Yields
      fun mutation => ∀ planned ∈ mutation, good planned := by
  unfold resolveIssueTypeProjection
  split
  · intro planned member
    obtain ⟨node, _, rfl⟩ := Option.map_eq_some_iff.mp member
    exact native ..
  · split
    · exact nofun
    · refine (yields_any _).bind fun registry _ => ?_
      split
      · exact nofun
      · intro planned member
        obtain ⟨node, typeId, name, enforce, rfl⟩ := setIssueTypeMutation_native member
        exact native ..

theorem resolveTypeProjection_rail (project : Option Project) (owner : Option String) (task : Task) :
    (resolveTypeProjection project owner task : Service ε (Option OutboxMutation)).Yields
      fun mutation => ∀ planned ∈ mutation, planned.isTypeRail = true := by
  unfold resolveTypeProjection
  split
  · exact resolveIssueTypeProjection_native (fun _ _ _ _ => rfl) owner task
  · split
    · exact fun planned member => setProjectTypeMutation_rail member
    · exact resolveIssueTypeProjection_native (fun _ _ _ _ => rfl) owner task

theorem logicalOriginFor_every {allowed : PortOp → Prop}
    (locates : ∀ op : StoreOp, op.locates = true → allowed (.store op)) (task : Task) :
    (logicalOriginFor task : Service ε (Option RepoOriginId)).Every allowed := by
  unfold logicalOriginFor
  split
  · trivial
  · exact every_bind (every_lookup (locates _ rfl)) fun _ => trivial

theorem logicalOriginFor_quiet (task : Task) :
    (logicalOriginFor task : Service ε (Option RepoOriginId)).Every PortOp.quiet :=
  logicalOriginFor_every (fun _ => StoreOp.reads_of_locates) task

theorem workspaceFilingDefault_every {allowed : PortOp → Prop}
    (locates : ∀ op : StoreOp, op.locates = true → allowed (.store op))
    (workspaceId : WorkspaceId) :
    (workspaceFilingDefault workspaceId : Service ε (Option RepoOriginId)).Every allowed :=
  every_bind (every_lookup (locates _ rfl)) fun _ => trivial

theorem workspaceFilingDefault_quiet (workspaceId : WorkspaceId) :
    (workspaceFilingDefault workspaceId : Service ε (Option RepoOriginId)).Every PortOp.quiet :=
  workspaceFilingDefault_every (fun _ => StoreOp.reads_of_locates) workspaceId

theorem filingCanonicalFor_every {allowed : PortOp → Prop}
    (locates : ∀ op : StoreOp, op.locates = true → allowed (.store op)) (task : Task) :
    (filingCanonicalFor task : Service ε (Option String)).Every allowed := by
  refine every_bind (workspaceFilingDefault_every locates task.workspaceId) ?_
  intro workspaceDefault
  refine every_bind (logicalOriginFor_every locates task) ?_
  intro logical
  split
  · trivial
  · exact every_bind (every_query (locates (.getOrigin _) rfl)) fun _ => trivial

theorem filingCanonicalFor_quiet (task : Task) :
    (filingCanonicalFor task : Service ε (Option String)).Every PortOp.quiet :=
  filingCanonicalFor_every (fun _ => StoreOp.reads_of_locates) task

theorem cachedRelationCoords_every {allowed : PortOp → Prop}
    (locates : ∀ op : StoreOp, op.locates = true → allowed (.store op)) (task : Task) :
    (cachedRelationCoords task : Service ε (Option IssueCoords)).Every allowed := by
  refine every_bind (every_lookup (locates _ rfl)) ?_
  intro workspace
  split
  · trivial
  · split
    · trivial
    · refine every_bind (logicalOriginFor_every locates task) ?_
      intro logical
      split
      · trivial
      · exact every_bind (every_query (locates (.getOrigin _) rfl)) fun _ => trivial

theorem cachedRelationCoords_quiet (task : Task) :
    (cachedRelationCoords task : Service ε (Option IssueCoords)).Every PortOp.quiet :=
  cachedRelationCoords_every (fun _ => StoreOp.reads_of_locates) task

end

theorem settled_quiet {ε α : Type} [OfDomainError ε] (result : Except DomainError α) :
    (settled result : Service ε α).Every PortOp.quiet := by
  cases result <;> trivial

theorem settled_yields {ε α : Type} [OfDomainError ε] (result : Except DomainError α) :
    (settled result : Service ε α).Yields fun value => result = .ok value := by
  cases result with
  | ok value => rfl
  | error error => trivial

namespace SyncService

theorem requiredFilingCanonical_every {allowed : PortOp → Prop}
    (locates : ∀ op : StoreOp, op.locates = true → allowed (.store op)) (task : Task) :
    (requiredFilingCanonical task).Every allowed := by
  refine every_bind (filingCanonicalFor_every locates task) fun canonical => ?_
  cases canonical <;> trivial

theorem requiredFilingCanonical_quiet (task : Task) :
    (requiredFilingCanonical task).Every PortOp.quiet :=
  requiredFilingCanonical_every (fun _ => StoreOp.reads_of_locates) task

end SyncService

end RepoLink
