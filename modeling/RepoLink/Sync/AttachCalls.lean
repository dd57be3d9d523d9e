import RepoLink.Library.Recall
import RepoLink.Sync.DrainCalls

/-!
Where a drain attaches a task to a board: after it looked at the task's workspace and saw it on a
board, or before it looked at any workspace for the entry that it claimed.
-/

namespace RepoLink

open Effects Program

/-- What a process saw last of the board: an entry to apply, or a workspace. -/
inductive Glimpse where
  | claimed
  | workspace (workspace : Workspace)
deriving DecidableEq, Repr

def glimpses : Recorder ports Glimpse where
  possible _ _ := True
  notes
    | .store (.claimNextEligible _), .ok (some _) => [.claimed]
    | .store (.getWorkspace _), .ok workspace => [.workspace workspace]
    | _, _ => []

def lastSeen (seen : List Glimpse) : Option Workspace :=
  match seen.getLast? with
  | some (.workspace workspace) => some workspace
  | _ => none

def TaskWrite.attaches (write : TaskWrite) : Bool :=
  write.task.projectItemId.isSome &&
    write.task.projectItemId ≠ write.basis.bind (·.projectItemId)

def OnBoard (seen : List Glimpse) : Prop :=
  ∀ workspace, lastSeen seen = some workspace → workspace.projectId.isSome = true

/-- No attach after a look at a workspace without a board, and no workspace put on a board. -/
def Guarded (seen : List Glimpse) : PortOp → Prop
  | .store (.saveWorkspace workspace) => workspace.projectId = none
  | .store op => ∀ write ∈ op.writes, write.attaches = true → OnBoard seen
  | _ => True

theorem onBoard_claimed (seen : List Glimpse) : OnBoard (seen ++ [.claimed]) := by
  intro workspace same
  simp [lastSeen] at same

theorem onBoard_workspace (seen : List Glimpse) {workspace : Workspace}
    (onBoard : workspace.projectId.isSome = true) : OnBoard (seen ++ [.workspace workspace]) := by
  intro other same
  have sameWorkspace : workspace = other := by simpa [lastSeen] using same
  exact sameWorkspace ▸ onBoard

theorem Guarded.ofSaves {op : StoreOp}
    (keeps : ∀ workspace, op ≠ .saveWorkspace workspace)
    (detached : ∀ write ∈ op.writes, write.attaches = false) (seen : List Glimpse) :
    Guarded seen (.store op) := by
  have vacuous : ∀ write ∈ op.writes, write.attaches = true → OnBoard seen :=
    fun write member attaches => nomatch (detached write member).symm.trans attaches
  cases op with
  | saveWorkspace workspace => exact (keeps workspace rfl).elim
  | _ => exact vacuous

theorem Guarded.writeless {op : StoreOp} (keeps : ∀ workspace, op ≠ .saveWorkspace workspace)
    (none : op.writes = []) (seen : List Glimpse) : Guarded seen (.store op) :=
  ofSaves keeps (fun _ member => by rw [none] at member; cases member) seen

theorem Guarded.ofReads {op : StoreOp} (reads : op.reads = true) (seen : List Glimpse) :
    Guarded seen (.store op) :=
  writeless (fun workspace same => by rw [same] at reads; cases reads)
    (StoreOp.reads_only reads).1 seen

theorem Guarded.ofWrite {write : TaskWrite} {entries : List OutboxEntry}
    (detached : write.attaches = false) (seen : List Glimpse) :
    Guarded seen (.store (.saveAll [write] entries)) :=
  ofSaves (by nofun) (by simpa [StoreOp.writes] using detached) seen

abbrev Harmless (op : PortOp) : Prop := ∀ seen, Guarded seen op

theorem glimpses_harmless {ε α : Type} {program : Service ε α} (harmless : program.Every Harmless)
    (seen : List Glimpse) : program.Recalls glimpses Guarded (fun _ _ => True) seen :=
  .ofEvery (fun _ permitted => permitted) harmless (yields_any program) seen

namespace OutboxDrainer

theorem enqueues_harmless : Enqueues Harmless :=
  ⟨fun _ reads => Guarded.ofReads reads, fun _ => trivial, fun _ => trivial,
    fun _ _ => Guarded.writeless (by nofun) rfl⟩

theorem resolves_harmless : Resolves Harmless := by
  refine ⟨fun _ => Guarded.ofReads rfl, fun _ => trivial, fun now task after marks => ?_,
    fun _ _ _ => Guarded.writeless (by nofun) rfl, fun op resolves => ?_⟩
  · obtain ⟨sync, updatedAt, rfl⟩ := Task.markConflicted_frame marks
    exact Guarded.ofWrite (by simp [TaskWrite.attaches])
  · cases op with
    | markSucceeded | markFailed | recordRetry => exact Guarded.writeless (by nofun) rfl
    | _ => cases resolves

abbrev Silent (seen : List Glimpse) (op : PortOp) : Prop :=
  Guarded seen op ∧ ∀ answer, glimpses.notes op answer = []

theorem works_onBoard {seen : List Glimpse} (onBoard : OnBoard seen) : Works (Silent seen) := by
  refine ⟨⟨fun _ => ⟨Guarded.ofReads rfl seen, fun _ => rfl⟩, fun _ _ => ⟨trivial, fun _ => rfl⟩,
    ⟨trivial, fun _ => rfl⟩, fun write _ => ⟨fun _ _ _ => onBoard, fun _ => rfl⟩⟩,
    fun _ _ => ⟨Guarded.writeless (by nofun) rfl seen, fun _ => rfl⟩⟩

section Arms

variable {seen : List Glimpse} (onBoard : OnBoard seen)

include onBoard

theorem glimpses_silent {α : Type} {program : Action α}
    (silent : Works (Silent seen) → program.Every (Silent seen)) :
    program.Recalls glimpses Guarded (fun _ later => later = seen) seen :=
  (Recalls.unnoted (fun _ permitted => permitted) (silent (works_onBoard onBoard))
    (yields_any program)).mono fun _ _ _ ended => ended.2

theorem glimpses_loadTask (taskId : TaskId) :
    (loadTask taskId).Recalls glimpses Guarded (fun _ later => later = seen) seen :=
  glimpses_silent onBoard fun works => every_query (works.loads taskId)

theorem glimpses_request (request : ProviderOp) : (tryRemote request : Action _).Recalls glimpses
    Guarded (fun _ later => later = seen) seen :=
  glimpses_silent onBoard fun _ => every_callPort ⟨trivial, fun _ => rfl⟩

theorem glimpses_writeBackProjectItem (taskId : TaskId) (itemId : String) :
    (writeBackProjectItem taskId itemId).Recalls glimpses Guarded (fun _ later => later = seen)
      seen :=
  glimpses_silent onBoard fun works => writeBackProjectItem_every works.toHandles taskId itemId

end Arms

theorem glimpses_workspaceStillTargetsProject (taskId : TaskId) (projectNodeId : String)
    (seen : List Glimpse) :
    (workspaceStillTargetsProject taskId projectNodeId).Recalls glimpses Guarded
      (fun targets later => targets = true → OnBoard later) seen := by
  refine (glimpses_harmless (every_query fun _ => Guarded.ofReads rfl _) seen).bind
    fun task later _ _ => ?_
  refine ⟨Guarded.ofReads rfl later, fun answer _ => ?_⟩
  cases answer with
  | error error => trivial
  | ok workspace =>
      dsimp only [done_bind, required]
      split
      · exact fun same => nomatch same
      · rename_i projectId projectEq
        refine ⟨Guarded.ofReads rfl _, fun answer _ => ?_⟩
        cases answer with
        | error error => trivial
        | ok project =>
            intro _
            have onBoard := onBoard_workspace later (Option.isSome_of_eq_some projectEq)
            rwa [← List.append_nil (later ++ _)] at onBoard

theorem glimpses_applyAddItem (taskId : TaskId) (projectNodeId issueNodeId : String)
    {seen : List Glimpse} (onBoard : OnBoard seen) :
    (applyAddItem taskId projectNodeId issueNodeId).Recalls glimpses Guarded (fun _ _ => True)
      seen := by
  refine (glimpses_request onBoard (.addItem projectNodeId issueNodeId)).bind fun answer _ _ _ => ?_
  split
  · trivial
  · dsimp only
    split
    · trivial
    · refine (glimpses_workspaceStillTargetsProject taskId projectNodeId _).bind
        fun targets later _ guarded => ?_
      split
      · rename_i onTarget
        refine (glimpses_writeBackProjectItem (guarded onTarget) taskId _).bind fun _ last _ _ => ?_
        refine glimpses_harmless ?_ last
        exact every_bind (enqueueStatusFollowUp_every enqueues_harmless ..) fun _ => trivial
      · trivial

theorem glimpses_applyCreateDraftIssue (taskId : TaskId) (projectNodeId title body : String)
    {seen : List Glimpse} (onBoard : OnBoard seen) :
    (applyCreateDraftIssue taskId projectNodeId title body).Recalls glimpses Guarded
      (fun _ _ => True) seen := by
  refine (glimpses_loadTask onBoard taskId).bind fun task later _ same => ?_
  subst same
  split
  · refine glimpses_harmless ?_ later
    exact every_bind (enqueueStatusFollowUp_every enqueues_harmless ..) fun _ => trivial
  · refine (glimpses_request onBoard _).bind fun answer middle _ same => ?_
    subst same
    split
    · trivial
    · dsimp only
      split
      · trivial
      · refine (glimpses_writeBackProjectItem onBoard taskId _).bind fun _ last _ _ => ?_
        refine glimpses_harmless ?_ last
        exact every_bind (enqueueStatusFollowUp_every enqueues_harmless ..) fun _ => trivial

theorem glimpses_applyConvertDraftToIssue (taskId : TaskId) (itemNodeId repoNodeId : String)
    {seen : List Glimpse} (onBoard : OnBoard seen) :
    (applyConvertDraftToIssue taskId itemNodeId repoNodeId).Recalls glimpses Guarded
      (fun _ _ => True) seen := by
  refine (glimpses_loadTask onBoard taskId).bind fun task later _ same => ?_
  subst same
  split
  · refine glimpses_harmless ?_ later
    exact every_bind (enqueueIssueTypeFollowUp_every enqueues_harmless ..) fun _ => trivial
  · refine (glimpses_request onBoard _).bind fun answer middle _ same => ?_
    subst same
    split
    · trivial
    · split
      split
      · trivial
      · refine (glimpses_silent onBoard fun works =>
          writeBackConvertedIssue_every works.toHandles taskId _ _).bind fun _ last _ _ => ?_
        refine glimpses_harmless ?_ last
        exact every_bind (enqueueIssueTypeFollowUp_every enqueues_harmless ..) fun _ => trivial

theorem glimpses_apply (entry : OutboxEntry) {seen : List Glimpse} (onBoard : OnBoard seen) :
    (apply entry).Recalls glimpses Guarded (fun _ _ => True) seen := by
  have silently : ∀ {program : Action ApplyDisposition},
      (Works (Silent seen) → program.Every (Silent seen)) →
      program.Recalls glimpses Guarded (fun _ _ => True) seen :=
    fun silent => (glimpses_silent onBoard silent).mono fun _ _ _ _ => trivial
  unfold apply
  split
  · exact silently fun works =>
      applyUpdateRemote_every works.toHandles _ fun _ _ _ => ⟨trivial, fun _ => rfl⟩
  · exact glimpses_applyAddItem _ _ _ onBoard
  · exact glimpses_applyCreateDraftIssue _ _ _ _ onBoard
  · exact silently fun works => applyUpdateDraftIssue_every works.toHandles ..
  · exact glimpses_applyConvertDraftToIssue _ _ _ onBoard
  · exact silently fun works => applySetProjectStatus_every (works.asks _ rfl)
  · exact silently fun works => stampedOrRetry_every (works.asks _ rfl)
  · exact silently fun works => applyTypeRail_every (works.asks _ rfl) (works.clears _)
  · exact silently fun works => applyTypeRail_every (works.asks _ rfl) (works.clears _)
  all_goals exact silently fun works => stampedOrRetry_every (works.asks _ rfl)

theorem glimpses_claim (now : Timestamp) (seen : List Glimpse) :
    (query (.claimNextEligible now) : Action (Option OutboxEntry)).Recalls glimpses Guarded
      (fun claimed later => claimed.isSome = true → OnBoard later) seen := by
  refine ⟨Guarded.writeless (by nofun) rfl seen, fun answer _ => ?_⟩
  obtain error | claimed : Except PortError (Option OutboxEntry) := answer
  · trivial
  · cases claimed with
    | none => exact fun same => nomatch same
    | some entry => exact fun _ => onBoard_claimed seen

theorem glimpses_drainLoop (backoff : BackoffSchedule) : ∀ (rounds : Nat) (seen : List Glimpse),
    (drainLoop backoff rounds).Recalls glimpses Guarded (fun _ _ => True) seen := by
  intro rounds
  induction rounds with
  | zero => exact fun _ => trivial
  | succ rounds ih =>
      intro seen
      refine (glimpses_harmless (every_clock fun _ => trivial) seen).bind fun now later _ _ => ?_
      refine (glimpses_claim now later).bind fun claimed after _ onBoard => ?_
      split
      · trivial
      · refine (glimpses_apply _ (onBoard rfl)).attempt.bind fun outcome resolved _ _ => ?_
        refine (glimpses_harmless (resolve_every resolves_harmless ..) resolved).bind ?_
        exact fun _ last _ _ => ih last

theorem glimpses_drainOnce (backoff : BackoffSchedule) (rounds : Nat) (seen : List Glimpse) :
    (drainOnce backoff rounds).Recalls glimpses Guarded (fun _ _ => True) seen :=
  (glimpses_harmless (enqueuePendingIssueTypes_every enqueues_harmless) seen).bind
    fun _ later _ _ => glimpses_drainLoop backoff rounds later

end OutboxDrainer

end RepoLink
