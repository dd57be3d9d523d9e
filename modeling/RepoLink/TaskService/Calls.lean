import RepoLink.Sync.Planning
import RepoLink.TaskService.Relations

/-!
What the calls of a `TaskService` operation can be: quiet ones, and its one transaction. None of
them reaches the provider.
-/

namespace RepoLink

open Effects Program

structure Plans (allowed : PortOp → Prop) : Prop where
  reads : ∀ op : StoreOp, op.reads = true → allowed (.store op)
  now : allowed .now
  entryId : allowed .freshEntryId

theorem plans_quiet : Plans PortOp.quiet := ⟨fun _ reads => reads, trivial, trivial⟩

theorem Plans.locates {allowed : PortOp → Prop} (plans : Plans allowed) (op : StoreOp)
    (locates : op.locates = true) : allowed (.store op) :=
  plans.reads op (StoreOp.reads_of_locates locates)

namespace TaskService

section Every

variable {allowed : PortOp → Prop}

theorem settled_every {ε α : Type} [OfDomainError ε] (result : Except DomainError α) :
    (settled result : Service ε α).Every allowed := by
  cases result <;> trivial

theorem intoEntries_every (plans : Plans allowed) (taskId : TaskId) :
    ∀ mutations : List OutboxMutation, (intoEntries taskId mutations).Every allowed := by
  intro mutations
  induction mutations with
  | nil => trivial
  | cons mutation rest ih =>
      refine every_bind ?_ fun entry => every_bind ih fun _ => trivial
      refine every_bind (every_callPort plans.entryId) fun id => ?_
      exact every_bind (every_clock plans.now) fun _ => trivial

theorem originOfHandle_every (plans : Plans allowed) (handle : RepoId) :
    (originOfHandle handle).Every allowed :=
  every_bind (every_query (plans.reads (.getBinding handle) rfl)) fun _ => trivial

theorem boundOriginOf_every (plans : Plans allowed) (task : Task) :
    (boundOriginOf task).Every allowed := by
  unfold boundOriginOf
  split
  · trivial
  · exact every_bind (every_query (plans.reads (.getBinding _) rfl)) fun _ => trivial

theorem planPriorityMutation_every (plans : Plans allowed) (task : Task) :
    (planPriorityMutation task).Every allowed := by
  refine every_bind (resolveProject_every plans.reads task) ?_
  intro project
  split <;> trivial

theorem planIssueTypeMutation_every (plans : Plans allowed) (task : Task) :
    (planIssueTypeMutation task).Every allowed := by
  refine every_bind (resolveProject_every plans.reads task) ?_
  intro project
  refine every_bind (every_bind (filingCanonicalFor_every plans.locates task) fun _ => trivial) ?_
  intro owner
  exact resolveTypeProjection_every plans.reads project owner task

theorem overrideFiling_every (plans : Plans allowed) (now : Timestamp) (handle : Option RepoId)
    (task : Task) : (overrideFiling now handle task).Every allowed := by
  unfold overrideFiling
  split
  · trivial
  · exact every_bind (originOfHandle_every plans _) fun _ => settled_every _

theorem recordBoardFiling_every (plans : Plans allowed) (now : Timestamp) (workspace : Workspace)
    (project : Option Project) (task : Task) :
    (recordBoardFiling now workspace project task).Every allowed := by
  unfold recordBoardFiling
  split
  · exact every_bind (boundOriginOf_every plans task) fun _ => settled_every _
  · trivial

theorem planMirrorMutations_every (plans : Plans allowed) (now : Timestamp) (task : Task)
    (contentChanged : Bool) : (planMirrorMutations now task contentChanged).Every allowed := by
  unfold planMirrorMutations
  split
  · trivial
  · refine every_bind (every_query (plans.reads (.getWorkspace _) rfl)) ?_
    intro workspace
    refine every_bind (projectForWorkspace_every plans.reads workspace) ?_
    intro project
    refine every_bind (recordBoardFiling_every plans now workspace project task) ?_
    intro filed
    exact every_bind (filingCanonicalFor_every plans.locates filed) fun _ => trivial

theorem planUpdateMutations_every (plans : Plans allowed) (now : Timestamp) (task : Task)
    (syncBefore : SyncState) (converted : Bool) :
    (planUpdateMutations now task syncBefore converted).Every allowed := by
  unfold planUpdateMutations
  split
  · trivial
  · split
    · exact every_bind (filingCanonicalFor_every plans.locates task) fun _ => trivial
    · split
      · trivial
      · exact planMirrorMutations_every plans now task true

theorem planWhen_every (owed : Bool) {plan : Action (Option OutboxMutation)}
    (every : plan.Every allowed) : (planWhen owed plan).Every allowed := by
  cases owed
  · trivial
  · exact every

theorem railEntries_every (plans : Plans allowed) (before task : Task) :
    (railEntries before task).Every allowed := by
  refine every_bind (planWhen_every _ (planPriorityMutation_every plans task)) ?_
  intro priorityMutation
  refine every_bind (intoEntries_every plans task.id _) ?_
  intro priorityEntries
  refine every_bind (planWhen_every _ (planIssueTypeMutation_every plans task)) ?_
  intro typeMutation
  exact every_bind (intoEntries_every plans task.id _) fun _ => trivial

theorem firstFiling_every (plans : Plans allowed) (before task : Task) :
    (firstFiling before task).Every allowed := by
  unfold firstFiling
  dsimp only
  split
  · refine every_bind (every_query (plans.reads (.getWorkspace _) rfl)) ?_
    intro workspace
    exact every_bind (boundOriginOf_every plans task) fun _ => trivial
  · trivial

theorem recordFiling_every (now : Timestamp) (filing : Option RepoId) (task : Task) :
    (recordFiling now filing task).Every allowed := by
  unfold recordFiling
  split
  · exact settled_every _
  · trivial

theorem editTask_every (plans : Plans allowed) (now : Timestamp) (cmd : UpdateTaskCmd)
    (before : Task) : (editTask now cmd before).Every allowed := by
  refine every_bind (settled_every _) ?_
  intro edited
  refine every_bind (overrideFiling_every plans now cmd.filingRepoOverride edited) ?_
  intro filed
  refine every_bind (firstFiling_every plans before _) ?_
  intro resolvedFiling
  exact every_bind (recordFiling_every now resolvedFiling _) fun _ => trivial

theorem update_every (plans : Plans allowed)
    (saves : ∀ writes entries, allowed (.store (.saveAll writes entries))) (cmd : UpdateTaskCmd) :
    (update cmd).Every allowed := by
  refine every_bind (every_query (plans.reads (.getTask _) rfl)) fun before => ?_
  refine every_bind (every_clock plans.now) fun now => ?_
  refine every_bind (editTask_every plans now cmd before) ?_
  rintro ⟨edited, filing⟩
  refine every_bind (planUpdateMutations_every plans now edited _ _) ?_
  rintro ⟨mutations, planned⟩
  refine every_bind (intoEntries_every plans _ _) fun entries => ?_
  refine every_bind (railEntries_every plans _ _) fun rails => ?_
  exact every_bind (every_query (saves _ _)) fun _ => trivial

theorem transitionMirror_every (plans : Plans allowed)
    (saves : ∀ writes entries, allowed (.store (.saveAll writes entries))) (taskId : TaskId)
    (op : Timestamp → Task → Mutation) : (transitionMirror taskId op).Every allowed := by
  refine every_bind (every_query (plans.reads (.getTask _) rfl)) fun before => ?_
  refine every_bind (every_clock plans.now) fun now => ?_
  refine every_bind (settled_every _) fun after => ?_
  split
  · trivial
  · refine every_bind (planMirrorMutations_every plans now after false) ?_
    rintro ⟨mutations, planned⟩
    refine every_bind (intoEntries_every plans _ _) fun entries => ?_
    exact every_bind (every_query (saves _ _)) fun _ => trivial

theorem rollback_every (plans : Plans allowed)
    (saves : ∀ writes entries, allowed (.store (.saveAll writes entries))) (taskId : TaskId)
    (toVersion : Nat) : (rollback taskId toVersion).Every allowed := by
  refine every_bind (every_query (plans.reads (.getTask _) rfl)) fun before => ?_
  refine every_bind (every_query (plans.reads (.getSnapshot ..) rfl)) fun snapshot => ?_
  refine every_bind (every_clock plans.now) fun now => ?_
  refine every_bind (railEntries_every plans before _) fun rails => ?_
  exact every_bind (every_query (saves _ _)) fun _ => trivial

end Every

theorem intoEntries_quiet (taskId : TaskId) (mutations : List OutboxMutation) :
    (intoEntries taskId mutations).Every PortOp.quiet := intoEntries_every plans_quiet taskId mutations

theorem originOfHandle_quiet (handle : RepoId) : (originOfHandle handle).Every PortOp.quiet :=
  originOfHandle_every plans_quiet handle

theorem originOfTarget_quiet (target : Option RepoId) :
    (originOfTarget target).Every PortOp.quiet := by
  unfold originOfTarget
  split
  · trivial
  · exact every_bind (originOfHandle_quiet _) fun _ => trivial

theorem recordBoardFiling_quiet (now : Timestamp) (workspace : Workspace)
    (project : Option Project) (task : Task) :
    (recordBoardFiling now workspace project task).Every PortOp.quiet :=
  recordBoardFiling_every plans_quiet now workspace project task

theorem planMirrorMutations_quiet (now : Timestamp) (task : Task) (contentChanged : Bool) :
    (planMirrorMutations now task contentChanged).Every PortOp.quiet :=
  planMirrorMutations_every plans_quiet now task contentChanged

theorem planUpdateMutations_quiet (now : Timestamp) (task : Task) (syncBefore : SyncState)
    (converted : Bool) : (planUpdateMutations now task syncBefore converted).Every PortOp.quiet :=
  planUpdateMutations_every plans_quiet now task syncBefore converted

theorem railEntries_quiet (before task : Task) : (railEntries before task).Every PortOp.quiet :=
  railEntries_every plans_quiet before task

theorem editTask_quiet (now : Timestamp) (cmd : UpdateTaskCmd) (before : Task) :
    (editTask now cmd before).Every PortOp.quiet := editTask_every plans_quiet now cmd before

end TaskService

end RepoLink
