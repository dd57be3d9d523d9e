import RepoLink.Library.Under
import RepoLink.Sync.DrainCalls

/-!
The two rails of an issue type under a board configuration that stands still. A drain queues a type
for the rail of its task alone, whether it sweeps, attaches or converts.
-/

namespace RepoLink

open Effects Program

/-- The workspace of each task, the board of each workspace, and the boards with exactly one Type
field. -/
structure BoardPlan where
  placed : TaskId → WorkspaceId
  boardOf : WorkspaceId → Option ProjectId
  typed : ProjectId → Bool

/-- A mutation of the issue type takes the rail of the board exactly if the board has one. -/
def OutboxMutation.FitsRail (custom : Bool) : OutboxMutation → Prop
  | .setProjectType .. => custom = true
  | .setIssueType .. => custom = false
  | _ => True

namespace BoardPlan

variable (plan : BoardPlan)

def custom (id : TaskId) : Bool := (plan.boardOf (plan.placed id)).any plan.typed

def Placed (task : Task) : Prop := task.workspaceId = plan.placed task.id

def PlacedAll (tasks : List Task) : Prop := ∀ task ∈ tasks, plan.Placed task

def Fits (entry : OutboxEntry) : Prop := entry.mutation.FitsRail (plan.custom entry.taskId)

def Calls : PortOp → Prop
  | .store (.saveAll writes entries) =>
    (∀ write ∈ writes, plan.Placed write.task) ∧ ∀ entry ∈ entries, plan.Fits entry
  | .store (.enqueue entry) | .store (.enqueueIfAbsent entry) => plan.Fits entry
  | .store (.saveWorkspace _) => False
  | _ => True

def Tells : (op : PortOp) → op.Answer → Prop
  | .store (.getTask id), .ok task => Task.id task = id ∧ plan.Placed task
  | .store (.listTasks _), .ok tasks => plan.PlacedAll tasks
  | .store (.getWorkspace id), .ok workspace => Workspace.projectId workspace = plan.boardOf id
  | .store (.getWorkspace id), .error (.notFound _) => plan.boardOf id = none
  | .store (.getProject id), .ok project =>
    (Project.typeFieldId project).isSome = plan.typed id
  | .store (.getProject id), .error (.notFound _) => plan.typed id = false
  | _, _ => True

def Chosen (id : TaskId) (project : Option Project) : Prop :=
  (project.any fun project => project.typeFieldId.isSome) = plan.custom id

end BoardPlan

theorem OutboxMutation.FitsRail.ofOther {mutation : OutboxMutation}
    (other : mutation.isTypeRail = false) (custom : Bool) : mutation.FitsRail custom := by
  cases mutation <;> trivial

section Reads

variable {plan : BoardPlan} {ε : Type} [OfPortError ε]

theorem BoardPlan.calls_reads {op : StoreOp} (reads : op.reads = true) :
    plan.Calls (.store op) := by
  cases op <;> trivial

theorem BoardPlan.calls_quiet {op : PortOp} (quiet : op.quiet) : plan.Calls op := by
  cases op with
  | store op => exact calls_reads quiet
  | _ => trivial

omit [OfPortError ε] in
theorem under_quiet {α : Type} {post : α → Prop} {program : Service ε α}
    (quiet : program.Every PortOp.quiet) (yields : program.Yields post) :
    program.Under plan.Tells plan.Calls post :=
  .of (quiet.mono fun _ => BoardPlan.calls_quiet) yields

theorem under_saveAll {writes : List TaskWrite} {entries : List OutboxEntry}
    (placed : ∀ write ∈ writes, plan.Placed write.task)
    (fits : ∀ entry ∈ entries, plan.Fits entry) :
    (query (.saveAll writes entries) : Service ε Unit).Under plan.Tells plan.Calls fun _ => True :=
  .ofEvery (@every_query _ _ plan.Calls (.saveAll writes entries) ⟨placed, fits⟩)

theorem under_getTask (id : TaskId) : (query (.getTask id) : Service ε Task).Under plan.Tells
    plan.Calls fun task => task.id = id ∧ plan.Placed task := by
  refine ⟨trivial, fun answer told => ?_⟩
  cases answer with
  | ok task => exact told
  | error error => trivial

theorem under_getWorkspace (id : WorkspaceId) :
    (query (.getWorkspace id) : Service ε Workspace).Under plan.Tells plan.Calls
      fun workspace => workspace.projectId = plan.boardOf id := by
  refine ⟨trivial, fun answer told => ?_⟩
  cases answer with
  | ok workspace => exact told
  | error error => trivial

theorem under_getProject (id : ProjectId) : (query (.getProject id) : Service ε Project).Under
    plan.Tells plan.Calls fun project => project.typeFieldId.isSome = plan.typed id := by
  refine ⟨trivial, fun answer told => ?_⟩
  cases answer with
  | ok project => exact told
  | error error => trivial

theorem lookup_workspace (id : WorkspaceId) :
    (lookup (.getWorkspace id) : Service ε (Option Workspace)).Under plan.Tells plan.Calls
      fun workspace => workspace.bind (·.projectId) = plan.boardOf id := by
  refine ⟨trivial, fun answer told => ?_⟩
  cases answer with
  | ok workspace => exact told
  | error error =>
      cases error with
      | notFound => exact Eq.symm told
      | _ => trivial

theorem lookup_project (id : ProjectId) :
    (lookup (.getProject id) : Service ε (Option Project)).Under plan.Tells plan.Calls
      fun project => (project.any fun project => project.typeFieldId.isSome) = plan.typed id := by
  refine ⟨trivial, fun answer told => ?_⟩
  cases answer with
  | ok project => exact told
  | error error =>
      cases error with
      | notFound => exact Eq.symm told
      | _ => trivial

theorem projectForWorkspace_chosen {workspace : Workspace} {id : TaskId}
    (board : workspace.projectId = plan.boardOf (plan.placed id)) :
    (projectForWorkspace workspace : Service ε (Option Project)).Under plan.Tells plan.Calls
      (plan.Chosen id) := by
  unfold projectForWorkspace
  split
  · rename_i none
    rw [none] at board
    change false = plan.custom id
    rw [BoardPlan.custom, ← board]
    rfl
  · rename_i projectId some
    rw [some] at board
    refine (under_getProject projectId).bind fun project typed => ?_
    change project.typeFieldId.isSome = plan.custom id
    rw [BoardPlan.custom, ← board, typed]
    rfl

theorem resolveProject_chosen {task : Task} (placed : plan.Placed task) :
    (resolveProject task : Service ε (Option Project)).Under plan.Tells plan.Calls
      (plan.Chosen task.id) :=
  (under_getWorkspace task.workspaceId).bind fun _ board =>
    projectForWorkspace_chosen (board.trans (congrArg plan.boardOf placed))

end Reads

section Projections

variable {custom : Bool}

theorem setProjectTypeMutation_fits {project : Project} {task : Task} {mutation : OutboxMutation}
    (typed : project.typeFieldId.isSome = custom)
    (planned : setProjectTypeMutation project task = some mutation) : mutation.FitsRail custom := by
  obtain ⟨item, _, planned⟩ := Option.bind_eq_some_iff.mp planned
  obtain ⟨field, found, planned⟩ := Option.bind_eq_some_iff.mp planned
  rw [found] at typed
  dsimp only at planned
  split at planned
  · cases planned
    exact typed.symm
  · obtain ⟨option, _, planned⟩ := Option.bind_eq_some_iff.mp planned
    cases planned
    exact typed.symm

theorem setProjectPriorityMutation_typeless {project : Project} {task : Task}
    {mutation : OutboxMutation}
    (planned : setProjectPriorityMutation project task = some mutation) :
    mutation.isTypeRail = false := by
  obtain ⟨item, _, planned⟩ := Option.bind_eq_some_iff.mp planned
  obtain ⟨field, _, planned⟩ := Option.bind_eq_some_iff.mp planned
  obtain ⟨option, _, planned⟩ := Option.bind_eq_some_iff.mp planned
  cases planned
  rfl

variable {ε : Type} [OfPortError ε]

theorem Project.ambiguous_untyped {project : Project}
    (ambiguous : project.hasAmbiguousTypeField = true) : project.typeFieldId = none := by
  unfold Project.hasAmbiguousTypeField at ambiguous
  unfold Project.typeFieldId Project.typeField
  split
  · rename_i single
    rw [single] at ambiguous
    cases ambiguous
  · rfl

theorem resolveTypeProjection_fits {project : Option Project} (owner : Option String) (task : Task)
    (chosen : (project.any fun project => project.typeFieldId.isSome) = custom) :
    (resolveTypeProjection project owner task : Service ε (Option OutboxMutation)).Yields
      fun mutation => ∀ planned ∈ mutation, planned.FitsRail custom := by
  unfold resolveTypeProjection
  split
  · obtain rfl : false = custom := chosen
    exact resolveIssueTypeProjection_native (fun _ _ _ _ => rfl) owner task
  · rename_i project
    have typed : project.typeFieldId.isSome = custom := chosen
    split
    · exact fun planned member => setProjectTypeMutation_fits typed member
    · rename_i native
      have untyped : project.typeFieldId.isSome = false := by
        cases ambiguous : project.hasAmbiguousTypeField with
        | true => rw [Project.ambiguous_untyped ambiguous]; rfl
        | false => simpa [ambiguous] using native
      rw [← typed, untyped]
      exact resolveIssueTypeProjection_native (fun _ _ _ _ => rfl) owner task

end Projections

namespace OutboxDrainer

variable {plan : BoardPlan}

theorem resolveProjectTolerant_chosen {task : Task} (placed : plan.Placed task) :
    (resolveProjectTolerant task).Under plan.Tells plan.Calls (plan.Chosen task.id) := by
  refine (lookup_workspace task.workspaceId).bind fun workspace board => ?_
  rw [placed] at board
  split
  · change false = plan.custom task.id
    rw [BoardPlan.custom, ← board]
    rfl
  · rename_i workspace
    change workspace.projectId = _ at board
    split
    · rename_i unassigned
      rw [unassigned] at board
      change false = plan.custom task.id
      rw [BoardPlan.custom, ← board]
      rfl
    · rename_i projectId assigned
      rw [assigned] at board
      refine (lookup_project projectId).mono fun project typed => ?_
      rw [BoardPlan.Chosen, BoardPlan.custom, ← board]
      exact typed

theorem enqueueMutation_fits {taskId : TaskId} {mutation : OutboxMutation}
    (fits : mutation.FitsRail (plan.custom taskId)) :
    (enqueueMutation taskId mutation).Under plan.Tells plan.Calls fun _ => True :=
  ⟨trivial, fun _ _ => ⟨trivial, fun _ _ => .ofEvery (every_query fits)⟩⟩

theorem planPendingIssueType_fits {task : Task} (placed : plan.Placed task) :
    (planPendingIssueType task).Under plan.Tells plan.Calls fun mutation =>
      ∀ planned ∈ mutation, planned.FitsRail (plan.custom task.id) := by
  have planned : (do
      let project ← resolveProjectTolerant task
      let owner ← if task.issueType.isSome then filingOwnerLogin task else pure none
      resolveTypeProjection project owner task : Service SyncError (Option OutboxMutation)).Under
        plan.Tells plan.Calls fun mutation =>
          ∀ planned ∈ mutation, planned.FitsRail (plan.custom task.id) := by
    refine (resolveProjectTolerant_chosen placed).bind fun project chosen => ?_
    have projects : ∀ owner, (resolveTypeProjection project owner task :
        Service SyncError (Option OutboxMutation)).Under plan.Tells plan.Calls fun mutation =>
          ∀ planned ∈ mutation, planned.FitsRail (plan.custom task.id) := fun owner =>
      under_quiet (resolveTypeProjection_every (fun _ reads => reads) ..)
        (resolveTypeProjection_fits owner task chosen)
    dsimp only
    split
    · exact (under_quiet (filingOwnerLogin_every (fun _ reads => reads) task)
        (yields_any _)).bind fun owner _ => projects owner
    · exact projects none
  refine planned.attempt.bind fun result fits => ?_
  cases result with
  | ok mutation => exact fits mutation rfl
  | error error => exact nofun

theorem sweepTask_fits {task : Task} (placed : plan.Placed task) :
    (sweepTask () task).Under plan.Tells plan.Calls fun _ => True := by
  unfold sweepTask
  split
  · trivial
  · refine (planPendingIssueType_fits placed).bind fun mutation fits => ?_
    split
    · trivial
    · exact enqueueMutation_fits (fits _ rfl)

theorem enqueuePendingIssueTypes_fits :
    enqueuePendingIssueTypes.Under plan.Tells plan.Calls fun _ => True := by
  refine ⟨trivial, fun answer told => ?_⟩
  cases answer with
  | error error => trivial
  | ok tasks => exact .foldEach (fun _ task member _ => sweepTask_fits (told task member)) trivial

theorem statusFollowUps_fits {project : Project} {itemId : String} {task : Task} {custom : Bool}
    (typed : project.typeFieldId.isSome = custom) {mutation : OutboxMutation}
    (member : mutation ∈ statusFollowUps project itemId task) : mutation.FitsRail custom := by
  rcases mem_statusFollowUps member with ⟨field, option, rfl⟩ | priority | type
  · trivial
  · exact .ofOther (setProjectPriorityMutation_typeless priority) custom
  · exact setProjectTypeMutation_fits typed type

theorem enqueueStatusFollowUp_fits (taskId : TaskId) (projectNodeId itemId : String) :
    (enqueueStatusFollowUp taskId projectNodeId itemId).Under plan.Tells plan.Calls
      fun _ => True := by
  refine (under_getTask taskId).bind ?_
  rintro task ⟨rfl, placed⟩
  refine (under_getWorkspace task.workspaceId).bind fun workspace board => ?_
  rw [placed] at board
  split
  · trivial
  · rename_i projectId assigned
    rw [assigned] at board
    refine (under_getProject projectId).bind fun project typed => ?_
    have chosen : project.typeFieldId.isSome = plan.custom task.id := by
      rw [BoardPlan.custom, ← board, typed]
      rfl
    split
    · trivial
    · exact .foldEach (fun _ mutation member _ =>
        enqueueMutation_fits (statusFollowUps_fits chosen member)) trivial

theorem enqueueIssueTypeFollowUp_fits (taskId : TaskId) (filingCanonical : String) :
    (enqueueIssueTypeFollowUp taskId filingCanonical).Under plan.Tells plan.Calls
      fun _ => True := by
  refine (under_getTask taskId).bind ?_
  rintro task ⟨rfl, placed⟩
  split
  · trivial
  · refine (resolveProjectTolerant_chosen placed).bind fun project chosen => ?_
    refine (under_quiet (resolveTypeProjection_every (fun _ reads => reads) ..)
      (resolveTypeProjection_fits _ task chosen)).bind fun mutation fits => ?_
    split
    · trivial
    · exact enqueueMutation_fits (fits _ rfl)

section Arms

theorem saveTask_placed {basis task : Task} {source : SnapshotSource} (placed : plan.Placed task) :
    (saveTask basis task source).Under plan.Tells plan.Calls fun _ => True :=
  under_saveAll (List.forall_mem_singleton.mpr placed) fun _ member =>
    (List.not_mem_nil member).elim

theorem sendUpdate_calls (update : Option RemoteTaskUpdate) :
    (sendUpdate update).Every plan.Calls := by
  unfold sendUpdate
  split
  · trivial
  · refine every_bind (every_callPort trivial) fun answer => ?_
    split
    · trivial
    · split <;> trivial

theorem applyUpdateRemote_fits (taskId : TaskId) (canonicalRepo remoteId : String) :
    (applyUpdateRemote taskId canonicalRepo remoteId).Under plan.Tells plan.Calls
      fun _ => True := by
  refine (under_getTask taskId).bind ?_
  rintro task ⟨rfl, placed⟩
  split
  · trivial
  · refine (Under.ofEvery (sendUpdate_calls _)).bind fun early _ => ?_
    split
    · trivial
    · refine (under_quiet (every_clock trivial) (yields_any _)).bind fun now _ => ?_
      refine (under_quiet (settled_quiet _) (settled_yields _)).bind fun confirmed confirms => ?_
      obtain ⟨baseline, sync, updatedAt, rfl⟩ := Task.confirmSyncedFields_frame confirms
      refine Under.bind (saveTask_placed ?_) fun _ _ => (trivial : True)
      exact placed

theorem writeBackProjectItem_placed (taskId : TaskId) (itemId : String) :
    (writeBackProjectItem taskId itemId).Under plan.Tells plan.Calls fun _ => True := by
  refine (under_getTask taskId).bind ?_
  rintro task ⟨rfl, placed⟩
  split
  · exact saveTask_placed placed
  · trivial

theorem writeBackConvertedIssue_placed (taskId : TaskId) (nodeId : String) (number : Nat) :
    (writeBackConvertedIssue taskId nodeId number).Under plan.Tells plan.Calls
      fun _ => True := by
  refine (under_getTask taskId).bind ?_
  rintro task ⟨rfl, placed⟩
  exact saveTask_placed placed

theorem request_calls (request : ProviderOp) : (tryRemote request : Action _).Under plan.Tells
    plan.Calls fun _ => True := .ofEvery (every_callPort trivial)

theorem applyAddItem_fits (taskId : TaskId) (projectNodeId issueNodeId : String) :
    (applyAddItem taskId projectNodeId issueNodeId).Under plan.Tells plan.Calls
      fun _ => True := by
  refine (request_calls (.addItem projectNodeId issueNodeId)).bind fun answer _ => ?_
  split
  · trivial
  · dsimp only
    split
    · trivial
    · refine (under_quiet (workspaceStillTargetsProject_every (fun _ reads => reads) ..)
        (yields_any _)).bind fun targets _ => ?_
      split
      · refine (writeBackProjectItem_placed taskId _).bind fun _ _ => ?_
        exact (enqueueStatusFollowUp_fits taskId projectNodeId _).bind fun _ _ => trivial
      · trivial

theorem applyCreateDraftIssue_fits (taskId : TaskId) (projectNodeId title body : String) :
    (applyCreateDraftIssue taskId projectNodeId title body).Under plan.Tells plan.Calls
      fun _ => True := by
  refine (under_getTask taskId).bind fun task _ => ?_
  split
  · exact (enqueueStatusFollowUp_fits taskId projectNodeId _).bind fun _ _ => trivial
  · refine (request_calls (.createDraftIssue projectNodeId title body)).bind fun answer _ => ?_
    split
    · trivial
    · dsimp only
      split
      · trivial
      · refine (writeBackProjectItem_placed taskId _).bind fun _ _ => ?_
        exact (enqueueStatusFollowUp_fits taskId projectNodeId _).bind fun _ _ => trivial

theorem applyConvertDraftToIssue_fits (taskId : TaskId) (itemNodeId repoNodeId : String) :
    (applyConvertDraftToIssue taskId itemNodeId repoNodeId).Under plan.Tells plan.Calls
      fun _ => True := by
  refine (under_getTask taskId).bind fun task _ => ?_
  split
  · exact (enqueueIssueTypeFollowUp_fits taskId repoNodeId).bind fun _ _ => trivial
  · refine (request_calls (.convertDraftToIssue itemNodeId repoNodeId)).bind fun answer _ => ?_
    split
    · trivial
    · split
      split
      · trivial
      · refine (writeBackConvertedIssue_placed taskId _ _).bind fun _ _ => ?_
        exact (enqueueIssueTypeFollowUp_fits taskId repoNodeId).bind fun _ _ => trivial

theorem applyUpdateDraftIssue_calls (taskId : TaskId) (itemNodeId : String) :
    (applyUpdateDraftIssue taskId itemNodeId).Every plan.Calls := by
  refine every_bind (@every_query _ _ plan.Calls (.getTask taskId) trivial) fun task => ?_
  refine every_bind (every_callPort trivial) fun answer => ?_
  split <;> trivial

theorem apply_fits (entry : OutboxEntry) :
    (apply entry).Under plan.Tells plan.Calls fun _ => True := by
  unfold apply
  split
  · exact applyUpdateRemote_fits _ _ _
  · exact applyAddItem_fits _ _ _
  · exact applyCreateDraftIssue_fits _ _ _ _
  · exact .ofEvery (applyUpdateDraftIssue_calls _ _)
  · exact applyConvertDraftToIssue_fits _ _ _
  · exact .ofEvery (applySetProjectStatus_every trivial)
  · exact .ofEvery (stampedOrRetry_every trivial)
  · exact .ofEvery (applyTypeRail_every trivial fun _ => trivial)
  · exact .ofEvery (applyTypeRail_every trivial fun _ => trivial)
  all_goals exact .ofEvery (stampedOrRetry_every trivial)

theorem surfaceConflict_fits (taskId : TaskId) :
    (surfaceConflict taskId).Under plan.Tells plan.Calls fun _ => True := by
  refine ⟨trivial, fun answer told => ?_⟩
  cases answer with
  | error error => trivial
  | ok task =>
      have placed : plan.Placed task := told.2
      change ((clock : Action Timestamp).bind _).Under _ _ _
      refine (under_quiet (every_clock trivial) (yields_any _)).bind fun now _ => ?_
      split
      · trivial
      · rename_i conflicted marks
        obtain ⟨sync, updatedAt, rfl⟩ := Task.markConflicted_frame marks
        refine saveTask_placed ?_
        exact placed

theorem reschedule_calls (backoff : BackoffSchedule) (entry : OutboxEntry) (error : SyncError) :
    (reschedule backoff entry error).Every plan.Calls := by
  by_cases below : entry.attempts + 1 < backoff.maxAttempts
  · simp only [reschedule, below, ↓reduceIte]
    exact every_bind (every_clock trivial) fun _ =>
      @every_query _ _ plan.Calls (.recordRetry ..) trivial
  · simp only [reschedule, below, ↓reduceIte]
    exact @every_query _ _ plan.Calls (.markFailed ..) trivial

theorem resolve_fits (backoff : BackoffSchedule) (entry : OutboxEntry)
    (outcome : Except SyncError ApplyDisposition) :
    (resolve backoff entry outcome).Under plan.Tells plan.Calls fun _ => True := by
  unfold resolve
  split
  · refine .ofEvery (every_bind (every_clock trivial) fun now => ?_)
    refine every_bind (@every_query _ _ plan.Calls (.cacheSyncedAt ..) trivial) fun _ => ?_
    exact @every_query _ _ plan.Calls (.markSucceeded _) trivial
  · exact (surfaceConflict_fits _).bind fun _ _ =>
      .ofEvery (@every_query _ _ plan.Calls (.markFailed ..) trivial)
  · exact .ofEvery (reschedule_calls ..)
  · exact .ofEvery (reschedule_calls ..)

theorem drainLoop_fits (backoff : BackoffSchedule) :
    ∀ rounds, (drainLoop backoff rounds).Under plan.Tells plan.Calls fun _ => True := by
  intro rounds
  induction rounds with
  | zero => trivial
  | succ rounds ih =>
      refine (under_quiet (every_clock trivial) (yields_any _)).bind fun now _ => ?_
      refine (Under.ofEvery (@every_query _ _ plan.Calls (.claimNextEligible now) trivial)).bind
        fun claimed _ => ?_
      split
      · trivial
      · refine (apply_fits _).attempt.bind fun outcome _ => ?_
        exact (resolve_fits backoff _ outcome).bind fun _ _ => ih

theorem drainOnce_fits (backoff : BackoffSchedule) (rounds : Nat) :
    (drainOnce backoff rounds).Under plan.Tells plan.Calls fun _ => True :=
  enqueuePendingIssueTypes_fits.bind fun _ _ => drainLoop_fits backoff rounds

end Arms

end OutboxDrainer

end RepoLink
