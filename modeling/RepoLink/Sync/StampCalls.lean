import RepoLink.Sync.DrainCalls
import RepoLink.Sync.Poller
import RepoLink.TaskService.EdgeCalls

/-!
What the transcript of a drain shows when it stamps `synced_at`: the entry that was claimed last,
the copy that its arm loaded first, and whether the provider answered the entry's request.
-/

namespace RepoLink

open Effects Program

abbrev PortCall := Call ports

abbrev portCalls : Recorder ports PortCall := transcript loads.possible

def claimedBy : PortCall → Option OutboxEntry
  | ⟨.store (.claimNextEligible _), .ok claimed⟩ => claimed
  | _ => none

def loadedBy : PortCall → Option Task
  | ⟨.store (.getTask _), .ok task⟩ => some task
  | _ => none

def sinceClaim : List PortCall → Option (OutboxEntry × List PortCall)
  | [] => none
  | first :: rest => (sinceClaim rest).or ((claimedBy first).map fun entry => (entry, rest))

def OutboxMutation.performs : OutboxMutation → ProviderOp → Prop
  | .updateRemote canonicalRepo remoteId _ _ _, .updateRemote request =>
    request.canonicalRepo = canonicalRepo ∧ request.remoteId = remoteId
  | .addItem projectNodeId issueNodeId, op => op = .addItem projectNodeId issueNodeId
  | .createDraftIssue projectNodeId title body, op =>
    op = .createDraftIssue projectNodeId title body
  | .updateDraftIssue itemNodeId _ _, .updateDraftIssue item _ _ => item = itemNodeId
  | .convertDraftToIssue itemNodeId repoNodeId, op =>
    op = .convertDraftToIssue itemNodeId repoNodeId
  | .setProjectStatus projectNodeId itemNodeId fieldId optionId, op =>
    op = .setSingleSelectOption projectNodeId itemNodeId fieldId (some optionId)
  | .setProjectPriority projectNodeId itemNodeId fieldId optionId, op =>
    op = .setSingleSelectOption projectNodeId itemNodeId fieldId (some optionId)
  | .setProjectType projectNodeId itemNodeId fieldId optionId _ _, op =>
    op = .setSingleSelectOption projectNodeId itemNodeId fieldId optionId
  | .setIssueType issueNodeId issueTypeId _ _, op => op = .setIssueType issueNodeId issueTypeId
  | .addSubIssue parentCanonical parentRemoteId childCanonical childRemoteId, op =>
    op = .addSubIssue parentCanonical parentRemoteId childCanonical childRemoteId
  | .removeSubIssue parentCanonical parentRemoteId childCanonical childRemoteId, op =>
    op = .removeSubIssue parentCanonical parentRemoteId childCanonical childRemoteId
  | .addBlockedBy blockedCanonical blockedRemoteId blockerCanonical blockerRemoteId, op =>
    op = .addBlockedBy blockedCanonical blockedRemoteId blockerCanonical blockerRemoteId
  | .removeBlockedBy blockedCanonical blockedRemoteId blockerCanonical blockerRemoteId, op =>
    op = .removeBlockedBy blockedCanonical blockedRemoteId blockerCanonical blockerRemoteId
  | _, _ => False

def OutboxMutation.sends (mutation : OutboxMutation) (task : Task) : Prop :=
  match mutation with
  | .updateRemote canonicalRepo remoteId _ _ _ =>
    OutboxDrainer.confirmable task.sync = true ∧
      (buildUpdateFromPatch task.diffAgainstBaseline canonicalRepo remoteId).isSome = true
  | .createDraftIssue .. => task.projectItemId = none
  | .convertDraftToIssue .. => (task.remote.bind (·.nodeId)).isSome = false
  | _ => True

instance (mutation : OutboxMutation) (task : Task) : Decidable (mutation.sends task) :=
  match mutation with
  | .updateRemote .. => inferInstanceAs (Decidable (_ ∧ _))
  | .createDraftIssue .. => inferInstanceAs (Decidable (task.projectItemId = none))
  | .convertDraftToIssue .. => inferInstanceAs (Decidable (_ = false))
  | .addItem .. | .updateDraftIssue .. | .setProjectStatus .. | .setProjectPriority ..
  | .setProjectType .. | .setIssueType .. | .addSubIssue .. | .removeSubIssue ..
  | .addBlockedBy .. | .removeBlockedBy .. => inferInstanceAs (Decidable True)

def Answered (mutation : OutboxMutation) (since : List PortCall) : Prop :=
  ∃ op, ∃ answer : op.Answer, mutation.performs op ∧ ⟨.provider op, .ok answer⟩ ∈ since

def Sent (mutation : OutboxMutation) (since : List PortCall) : Prop :=
  ∀ task, since.findSome? loadedBy = some task → mutation.sends task

instance (mutation : OutboxMutation) (since : List PortCall) : Decidable (Sent mutation since) :=
  match found : since.findSome? loadedBy with
  | none => isTrue fun _ loaded => nomatch found.symm.trans loaded
  | some task => decidable_of_iff (mutation.sends task)
      ⟨fun sends _ loaded => Option.some.inj (found.symm.trans loaded) ▸ sends,
        fun sent => sent task found⟩

theorem sinceClaim_claimless : ∀ {calls : List PortCall},
    (∀ call ∈ calls, claimedBy call = none) → sinceClaim calls = none := by
  intro calls
  induction calls with
  | nil => exact fun _ => rfl
  | cons first rest ih =>
      intro claimless
      rw [sinceClaim, ih fun other member => claimless other (List.mem_cons_of_mem _ member),
        claimless first List.mem_cons_self]
      rfl

theorem sinceClaim_claim {call : PortCall} {entry : OutboxEntry} {since : List PortCall}
    (claims : claimedBy call = some entry) (claimless : ∀ call ∈ since, claimedBy call = none) :
    ∀ earlier : List PortCall, sinceClaim (earlier ++ call :: since) = some (entry, since) := by
  intro earlier
  induction earlier with
  | nil => rw [List.nil_append, sinceClaim, sinceClaim_claimless claimless, claims]; rfl
  | cons first rest ih => rw [List.cons_append, sinceClaim, ih]; rfl

def PortOp.follows : PortOp → Prop
  | .store (.claimNextEligible _) | .store (.cacheSyncedAt ..) | .provider _ => False
  | _ => True

theorem StoreOp.follows_reads {op : StoreOp} (reads : op.reads = true) :
    (PortOp.store op).follows := by
  cases op <;> trivial

theorem PortOp.follows_claimless {call : PortCall} (follows : call.1.follows) :
    claimedBy call = none := by
  obtain ⟨op, answer⟩ := call
  cases op with
  | store op =>
      cases op with
      | claimNextEligible now => exact follows.elim
      | _ => rfl
  | _ => rfl

theorem PortOp.follows_unanswered {mutation : OutboxMutation} {since : List PortCall}
    (follows : ∀ call ∈ since, call.1.follows) : ¬Answered mutation since := by
  rintro ⟨op, answer, _, member⟩
  exact follows _ member

namespace OutboxDrainer

theorem getTask_follows (id : TaskId) :
    (query (.getTask id) : Action Task).Every PortOp.follows := every_query trivial

theorem settled_follows {α : Type} (result : Except DomainError α) :
    (settled result : Action α).Every PortOp.follows := by
  cases result <;> trivial

theorem saveTask_follows (basis task : Task) (source : SnapshotSource) :
    (saveTask basis task source).Every PortOp.follows := every_query trivial

theorem enqueues_follows : Enqueues PortOp.follows where
  reads _ := StoreOp.follows_reads
  now := trivial
  entryId := trivial
  enqueue _ _ := trivial

theorem writeBackProjectItem_follows (taskId : TaskId) (itemId : String) :
    (writeBackProjectItem taskId itemId).Every PortOp.follows := by
  refine every_bind (getTask_follows taskId) fun task => ?_
  split
  · exact saveTask_follows ..
  · trivial

theorem writeBackConvertedIssue_follows (taskId : TaskId) (nodeId : String) (number : Nat) :
    (writeBackConvertedIssue taskId nodeId number).Every PortOp.follows :=
  every_bind (getTask_follows taskId) fun _ => saveTask_follows ..

end OutboxDrainer

/-- An issue of the task was fetched, at an address that its filing chain resolved to. -/
def Fetched (calls : List PortCall) (id : TaskId) : Prop :=
  ∃ (task : Task) (current : RemoteRef) (workspaceDefault logical : Option RepoOriginId)
    (originId : RepoOriginId) (origin : RepoOrigin) (snap : RemoteTaskSnapshot),
    ⟨.store (.getTask id), .ok task⟩ ∈ calls ∧ task.remote = some current ∧
    resolveFilingRepo (task.filingRepoId.map RepoId.toOrigin) workspaceDefault logical =
      some originId ∧
    ⟨.store (.getOrigin originId), .ok origin⟩ ∈ calls ∧
    ⟨.provider (.fetchRemote origin.canonicalUrl current.remoteId), .ok snap⟩ ∈ calls

def BoardRead (calls : List PortCall) (id : TaskId) : Prop :=
  ∃ (filter : TaskFilter) (tasks : List Task) (task : Task) (projects : List Project)
    (project : Project) (statusFieldId : String) (page : PollPage),
    ⟨.store (.listTasks filter), .ok tasks⟩ ∈ calls ∧ task ∈ tasks ∧ task.id = id ∧
    ⟨.store (.listProjectsByWorkspace task.workspaceId), .ok projects⟩ ∈ calls ∧
    projects.head? = some project ∧
    ⟨.provider (.pollProjectItems project.id.value statusFieldId ProjectPoller.pollQuery),
      .ok page⟩ ∈ calls ∧ page.truncated = false

/-- The provider answered about the task, as the calls of one process show. -/
inductive Vouched (calls : List PortCall) (id : TaskId) : SyncedSource → Prop
  | pushed {entry : OutboxEntry} {since : List PortCall}
      (claimed : sinceClaim calls = some (entry, since)) (named : entry.taskId = id)
      (answered : Answered entry.mutation since) : Vouched calls id .push
  | pulled (fetched : Fetched calls id) : Vouched calls id .pull
  | refreshed (fetched : Fetched calls id) : Vouched calls id .refresh
  | polled (read : BoardRead calls id) : Vouched calls id .polled

def SentSinceClaim (calls : List PortCall) : Prop :=
  ∀ entry since, sinceClaim calls = some (entry, since) → Sent entry.mutation since

instance (calls : List PortCall) : Decidable (SentSinceClaim calls) :=
  match found : sinceClaim calls with
  | none => isTrue fun _ _ claimed => nomatch found.symm.trans claimed
  | some (entry, since) => decidable_of_iff (Sent entry.mutation since)
      ⟨fun sent _ _ claimed => by cases found.symm.trans claimed; exact sent,
        fun sent => sent entry since found⟩

/-- A stamp is backed by an answer of the provider, exactly if a drained entry needed one. -/
def HonestCall (calls : List PortCall) (op : PortOp) : Prop :=
  ∀ id instant source, op = .store (.cacheSyncedAt id instant source) →
    (Vouched calls id source ↔ (source = .push → SentSinceClaim calls))

def PortOp.stampless : PortOp → Prop
  | .store (.cacheSyncedAt ..) => False
  | _ => True

theorem HonestCall.ofStampless {op : PortOp} (stampless : op.stampless) (calls : List PortCall) :
    HonestCall calls op := by
  rintro id instant source rfl
  exact stampless.elim

theorem PortOp.follows_stampless {op : PortOp} (follows : op.follows) : op.stampless := by
  cases op with
  | store op =>
      cases op with
      | cacheSyncedAt id syncedAt source => exact follows.elim
      | _ => trivial
  | _ => trivial

theorem stampless_quietly {ε α : Type} {program : Service ε α}
    (quiet : program.Every PortOp.quiet) : program.Every PortOp.stampless := by
  refine quiet.mono fun op calm => ?_
  cases op with
  | store op =>
      cases op with
      | cacheSyncedAt id syncedAt source => exact nomatch (show false = true from calm)
      | _ => trivial
  | _ => trivial

theorem stampless_query {ε : Type} [OfPortError ε] (op : StoreOp)
    (stampless : (PortOp.store op).stampless) :
    (query op : Service ε op.Answer).Every PortOp.stampless := every_query stampless

theorem recalls_stampless {ε α : Type} {program : Service ε α}
    (stampless : program.Every PortOp.stampless) (seen : List PortCall) :
    program.Recalls portCalls HonestCall (fun _ _ => True) seen :=
  .ofEvery (fun _ calm => HonestCall.ofStampless calm) stampless (yields_any program) seen

namespace OutboxDrainer

variable {mutation : OutboxMutation} {seen since : List PortCall}

/-- Whether the arm of a mutation has used the network is settled: its request was answered, or
the copy that it loaded first needs none. -/
inductive Decided (mutation : OutboxMutation) (since : List PortCall) : Prop
  | sent (answered : Answered mutation since)
      (needed : (∃ task, since.findSome? loadedBy = some task ∧ mutation.sends task) ∨
        ∀ task, mutation.sends task) : Decided mutation since
  | spared (offline : ∀ call ∈ since, call.1.follows) {task : Task}
      (loaded : since.findSome? loadedBy = some task) (needless : ¬mutation.sends task) :
      Decided mutation since

theorem Decided.answered_iff (decided : Decided mutation since) :
    Answered mutation since ↔ Sent mutation since := by
  cases decided with
  | sent answered needed =>
      refine iff_of_true answered fun task loaded => ?_
      rcases needed with ⟨first, firstLoaded, sends⟩ | always
      · cases firstLoaded.symm.trans loaded
        exact sends
      · exact always task
  | spared offline loaded needless =>
      exact iff_of_false (PortOp.follows_unanswered offline) fun sent =>
        needless (sent _ loaded)

theorem Decided.follow (decided : Decided mutation since) {more : List PortCall}
    (follows : ∀ call ∈ more, call.1.follows) : Decided mutation (since ++ more) := by
  have stays : ∀ {task}, since.findSome? loadedBy = some task →
      (since ++ more).findSome? loadedBy = some task := by
    intro task loaded
    rw [List.findSome?_append, loaded]
    rfl
  cases decided with
  | sent answered needed =>
      obtain ⟨op, answer, performs, member⟩ := answered
      refine .sent ⟨op, answer, performs, List.mem_append_left _ member⟩ (needed.imp_left ?_)
      rintro ⟨task, loaded, sends⟩
      exact ⟨task, stays loaded, sends⟩
  | spared offline loaded needless =>
      refine .spared (fun call member => ?_) (stays loaded) needless
      exact (List.mem_append.mp member).elim (offline call) (follows call)

def Claimless (seen later : List PortCall) : Prop :=
  ∃ since, later = seen ++ since ∧ ∀ call ∈ since, claimedBy call = none

def Reached (mutation : OutboxMutation) (seen later : List PortCall) : Prop :=
  ∃ since, later = seen ++ since ∧ (∀ call ∈ since, claimedBy call = none) ∧ Decided mutation since

def Ends (mutation : OutboxMutation) (seen : List PortCall) (disposition : ApplyDisposition)
    (later : List PortCall) : Prop :=
  Claimless seen later ∧ (disposition = .stamped → Reached mutation seen later)

theorem Claimless.refl (seen : List PortCall) : Claimless seen seen :=
  ⟨[], (List.append_nil seen).symm, fun _ member => (List.not_mem_nil member).elim⟩

theorem Claimless.then {later : List PortCall} (claimless : Claimless seen later)
    {call : PortCall} (more : claimedBy call = none) : Claimless seen (later ++ [call]) := by
  obtain ⟨since, rfl, before⟩ := claimless
  refine ⟨since ++ [call], List.append_assoc .., fun other member => ?_⟩
  exact (List.mem_append.mp member).elim (before other) fun new => List.mem_singleton.mp new ▸ more

theorem Claimless.unstamped {later : List PortCall} (claimless : Claimless seen later)
    {disposition : ApplyDisposition} (unstamped : disposition ≠ .stamped) :
    Ends mutation seen disposition later :=
  ⟨claimless, fun stamped => (unstamped stamped).elim⟩

theorem Reached.claimless {later : List PortCall} (reached : Reached mutation seen later) :
    Claimless seen later :=
  let ⟨since, same, claims, _⟩ := reached
  ⟨since, same, claims⟩

theorem Reached.ends {later : List PortCall} (reached : Reached mutation seen later)
    (disposition : ApplyDisposition) : Ends mutation seen disposition later :=
  ⟨reached.claimless, fun _ => reached⟩

section Rules

variable {α : Type}

theorem recalls_follows {program : Action α} (follows : program.Every PortOp.follows)
    (seen : List PortCall) : program.Recalls portCalls HonestCall
      (fun _ later => ∃ more, later = seen ++ more ∧ ∀ call ∈ more, call.1.follows) seen := by
  have free : ∀ op, PortOp.follows op → ∀ seen, HonestCall seen op :=
    fun _ calm => HonestCall.ofStampless (PortOp.follows_stampless calm)
  exact (Recalls.transcribed free follows (yields_any program) seen).mono
    fun _ _ _ shown => shown.2

theorem recalls_afterwards {program : Action α} (follows : program.Every PortOp.follows)
    {later : List PortCall} (reached : Reached mutation seen later) :
    program.Recalls portCalls HonestCall (fun _ last => Reached mutation seen last)
      later := by
  refine (recalls_follows follows later).mono ?_
  rintro _ last _ ⟨more, rfl, calm⟩
  obtain ⟨since, rfl, claimless, decided⟩ := reached
  refine ⟨since ++ more, List.append_assoc .., ?_, decided.follow calm⟩
  intro call member
  exact (List.mem_append.mp member).elim (claimless call) fun new =>
    PortOp.follows_claimless (calm call new)

theorem recalls_loadTask (id : TaskId) (seen : List PortCall) :
    (loadTask id).Recalls portCalls HonestCall
      (fun task later => later = seen ++ [⟨.store (.getTask id), .ok task⟩]) seen := by
  refine ⟨@HonestCall.ofStampless (.store (.getTask id)) trivial seen, fun answer _ => ?_⟩
  cases answer with
  | ok task => rfl
  | error error => trivial

theorem recalls_tryRemote (op : ProviderOp) (seen : List PortCall) :
    (tryRemote op : Action (Except PortError op.Answer)).Recalls portCalls HonestCall
      (fun answer later => later = seen ++ [⟨.provider op, answer⟩]) seen :=
  ⟨@HonestCall.ofStampless (.provider op) trivial seen, fun _ _ => rfl⟩

end Rules

theorem reached_answered (mutation : OutboxMutation) {op : ProviderOp} {answer : op.Answer} (performs : mutation.performs op)
    (always : ∀ task, mutation.sends task) (seen : List PortCall) :
    Reached mutation seen (seen ++ [⟨.provider op, .ok answer⟩]) :=
  ⟨_, rfl, fun _ member => List.mem_singleton.mp member ▸ rfl,
    .sent ⟨op, answer, performs, List.mem_singleton_self _⟩ (.inr always)⟩

theorem reached_loaded (mutation : OutboxMutation) {id : TaskId} {task : Task} {op : ProviderOp} {answer : op.Answer}
    (performs : mutation.performs op) (sends : mutation.sends task) (seen : List PortCall) :
    Reached mutation seen
      (seen ++ [⟨.store (.getTask id), .ok task⟩] ++ [⟨.provider op, .ok answer⟩]) := by
  refine ⟨[⟨.store (.getTask id), .ok task⟩, ⟨.provider op, .ok answer⟩],
    List.append_assoc .., ?_, .sent ⟨op, answer, performs, ?_⟩ (.inl ⟨task, rfl, sends⟩)⟩
  · exact List.forall_mem_cons.mpr ⟨rfl, fun _ member => List.mem_singleton.mp member ▸ rfl⟩
  · exact List.mem_cons_of_mem _ (List.mem_singleton_self _)

theorem reached_spared {id : TaskId} {task : Task} (needless : ¬mutation.sends task)
    (seen : List PortCall) : Reached mutation seen (seen ++ [⟨.store (.getTask id), .ok task⟩]) :=
  ⟨_, rfl, fun _ member => List.mem_singleton.mp member ▸ rfl,
    .spared (fun _ member => List.mem_singleton.mp member ▸ trivial) rfl needless⟩

abbrev ArmRecalls (mutation : OutboxMutation) (arm : Action ApplyDisposition)
    (seen : List PortCall) : Prop :=
  arm.Recalls portCalls HonestCall (Ends mutation seen) seen

theorem claimless_loaded (id : TaskId) (task : Task) (seen : List PortCall) :
    Claimless seen (seen ++ [⟨.store (.getTask id), .ok task⟩]) := (Claimless.refl seen).then rfl

theorem sendUpdate_recalls (mutation : OutboxMutation) {id : TaskId} {task : Task} {update : RemoteTaskUpdate}
    (performs : mutation.performs (.updateRemote update)) (sends : mutation.sends task)
    (seen : List PortCall) :
    (sendUpdate (some update)).Recalls portCalls HonestCall
      (fun early later => (early = none → Reached mutation seen later) ∧
        ∀ disposition, early = some disposition → Ends mutation seen disposition later)
      (seen ++ [⟨.store (.getTask id), .ok task⟩]) := by
  refine (recalls_tryRemote (.updateRemote update) _).bind fun answer later _ laterEq => ?_
  subst laterEq
  cases answer with
  | error error =>
      refine ⟨nofun, fun disposition same => ?_⟩
      cases same
      exact ((claimless_loaded id task seen).then rfl).unstamped nofun
  | ok snap =>
      have reached := @reached_loaded mutation id task _ snap performs sends seen
      dsimp only
      split
      · exact ⟨fun _ => reached, nofun⟩
      · refine ⟨nofun, fun disposition same => ?_⟩
        cases same
        exact reached.ends _

theorem applyUpdateRemote_recalls (taskId : TaskId) (canonicalRepo remoteId : String)
    (title body : Option String) (closed : Option Bool) (seen : List PortCall) :
    ArmRecalls (.updateRemote canonicalRepo remoteId title body closed)
      (applyUpdateRemote taskId canonicalRepo remoteId) seen := by
  refine (recalls_loadTask taskId seen).bind fun task loaded _ loadedEq => ?_
  subst loadedEq
  -- the confirmation after the request, or instead of it
  have confirms : ∀ later, Reached (.updateRemote canonicalRepo remoteId title body closed) seen
      later → (do
        let now ← clock
        let confirmed ← settled
          (task.confirmSyncedFields now .push task.diffAgainstBaseline).attempt
        saveTask task confirmed .push
        return ApplyDisposition.stamped : Action ApplyDisposition).Recalls portCalls
          HonestCall (Ends (.updateRemote canonicalRepo remoteId title body closed) seen) later := by
    intro later reached
    refine (recalls_afterwards ?_ reached).mono fun disposition _ _ held => held.ends disposition
    refine every_bind (every_clock trivial) fun now => ?_
    exact every_bind (settled_follows _) fun confirmed =>
      every_bind (saveTask_follows ..) fun _ => trivial
  split
  · rename_i refused
    have needless : ¬(OutboxMutation.updateRemote canonicalRepo remoteId title body closed).sends
        task := fun sends => by simp [sends.1] at refused
    exact (reached_spared needless seen).ends .stamped
  · rename_i admitted
    dsimp only
    cases updateEq : buildUpdateFromPatch task.diffAgainstBaseline canonicalRepo remoteId with
    | none =>
        refine confirms _ (reached_spared (fun sends => ?_) seen)
        rw [OutboxMutation.sends, updateEq] at sends
        exact nomatch sends.2
    | some update =>
        have addressed := buildUpdateFromPatch_target updateEq
        have sends : (OutboxMutation.updateRemote canonicalRepo remoteId title body closed).sends
            task := ⟨by simpa using admitted, by rw [updateEq]; rfl⟩
        refine (sendUpdate_recalls (.updateRemote canonicalRepo remoteId title body closed) addressed
          sends seen).bind ?_
        rintro (_ | disposition) later _ ⟨reached, ended⟩
        · exact confirms later (reached rfl)
        · exact ended disposition rfl

theorem applyAddItem_recalls (taskId : TaskId) (projectNodeId issueNodeId : String)
    (seen : List PortCall) : ArmRecalls (.addItem projectNodeId issueNodeId)
      (applyAddItem taskId projectNodeId issueNodeId) seen := by
  refine (recalls_tryRemote (.addItem projectNodeId issueNodeId) seen).bind
    fun answer later _ laterEq => ?_
  subst laterEq
  cases answer with
  | error error => exact ((Claimless.refl seen).then rfl).unstamped nofun
  | ok itemId =>
      have reached : Reached (.addItem projectNodeId issueNodeId) seen
          (seen ++ [⟨.provider (.addItem projectNodeId issueNodeId), .ok itemId⟩]) :=
        reached_answered (.addItem projectNodeId issueNodeId) rfl (fun _ => trivial) seen
      dsimp only
      split
      · exact reached.ends _
      · refine (recalls_afterwards ?_ reached).mono fun disposition _ _ held => held.ends disposition
        refine every_bind (workspaceStillTargetsProject_every enqueues_follows.reads ..) fun targets => ?_
        split
        · refine every_bind (writeBackProjectItem_follows ..) fun _ => ?_
          exact every_bind (enqueueStatusFollowUp_every enqueues_follows ..) fun _ => trivial
        · trivial

theorem applyCreateDraftIssue_recalls (taskId : TaskId) (projectNodeId title body : String)
    (seen : List PortCall) : ArmRecalls (.createDraftIssue projectNodeId title body)
      (applyCreateDraftIssue taskId projectNodeId title body) seen := by
  refine (recalls_loadTask taskId seen).bind fun task loaded _ loadedEq => ?_
  subst loadedEq
  split
  · rename_i existing itemEq
    have needless : ¬(OutboxMutation.createDraftIssue projectNodeId title body).sends task :=
      fun sends => nomatch itemEq.symm.trans sends
    refine (recalls_afterwards ?_ (reached_spared needless seen)).mono
      fun disposition _ _ held => held.ends disposition
    exact every_bind (enqueueStatusFollowUp_every enqueues_follows ..) fun _ => trivial
  · rename_i itemEq
    refine (recalls_tryRemote (.createDraftIssue projectNodeId title body) _).bind
      fun answer later _ laterEq => ?_
    subst laterEq
    cases answer with
    | error error => exact ((claimless_loaded taskId task seen).then rfl).unstamped nofun
    | ok minted =>
        have reached : Reached (.createDraftIssue projectNodeId title body) seen
            (seen ++ [⟨.store (.getTask taskId), .ok task⟩] ++
              [⟨.provider (.createDraftIssue projectNodeId title body), .ok minted⟩]) :=
          reached_loaded (.createDraftIssue projectNodeId title body) rfl itemEq seen
        dsimp only
        split
        · exact reached.ends _
        · refine (recalls_afterwards ?_ reached).mono
            fun disposition _ _ held => held.ends disposition
          refine every_bind (writeBackProjectItem_follows ..) fun _ => ?_
          exact every_bind (enqueueStatusFollowUp_every enqueues_follows ..) fun _ => trivial

theorem applyUpdateDraftIssue_recalls (taskId : TaskId) (itemNodeId : String)
    (title body : Option String) (seen : List PortCall) :
    ArmRecalls (.updateDraftIssue itemNodeId title body) (applyUpdateDraftIssue taskId itemNodeId)
      seen := by
  refine (recalls_loadTask taskId seen).bind fun task loaded _ loadedEq => ?_
  subst loadedEq
  refine (recalls_tryRemote (.updateDraftIssue itemNodeId (some task.title) (some task.body)) _).bind
    fun answer later _ laterEq => ?_
  subst laterEq
  cases answer with
  | error error => exact ((claimless_loaded taskId task seen).then rfl).unstamped nofun
  | ok _ =>
      have sends : (OutboxMutation.updateDraftIssue itemNodeId title body).sends task := trivial
      have performs : (OutboxMutation.updateDraftIssue itemNodeId title body).performs
          (.updateDraftIssue itemNodeId (some task.title) (some task.body)) := rfl
      exact (reached_loaded (.updateDraftIssue itemNodeId title body) performs sends seen).ends _

theorem applyConvertDraftToIssue_recalls (taskId : TaskId) (itemNodeId repoNodeId : String)
    (seen : List PortCall) : ArmRecalls (.convertDraftToIssue itemNodeId repoNodeId)
      (applyConvertDraftToIssue taskId itemNodeId repoNodeId) seen := by
  refine (recalls_loadTask taskId seen).bind fun task loaded _ loadedEq => ?_
  subst loadedEq
  split
  · rename_i converted
    have needless : ¬(OutboxMutation.convertDraftToIssue itemNodeId repoNodeId).sends task :=
      fun sends => Bool.false_ne_true (sends.symm.trans converted)
    refine (recalls_afterwards ?_ (reached_spared needless seen)).mono
      fun disposition _ _ held => held.ends disposition
    exact every_bind (enqueueIssueTypeFollowUp_every enqueues_follows ..) fun _ => trivial
  · rename_i unconverted
    refine (recalls_tryRemote (.convertDraftToIssue itemNodeId repoNodeId) _).bind
      fun answer later _ laterEq => ?_
    subst laterEq
    cases answer with
    | error error => exact ((claimless_loaded taskId task seen).then rfl).unstamped nofun
    | ok issue =>
        obtain ⟨issueNodeId, issueNumber⟩ : String × Nat := issue
        have reached : Reached (.convertDraftToIssue itemNodeId repoNodeId) seen
            (seen ++ [⟨.store (.getTask taskId), .ok task⟩] ++
              [⟨.provider (.convertDraftToIssue itemNodeId repoNodeId),
                .ok (issueNodeId, issueNumber)⟩]) :=
          reached_loaded (.convertDraftToIssue itemNodeId repoNodeId) rfl
            (Bool.eq_false_iff.mpr unconverted) seen
        dsimp only
        split
        · exact reached.ends _
        · refine (recalls_afterwards ?_ reached).mono
            fun disposition _ _ held => held.ends disposition
          refine every_bind (writeBackConvertedIssue_follows ..) fun _ => ?_
          exact every_bind (enqueueIssueTypeFollowUp_every enqueues_follows ..) fun _ => trivial

theorem applySetProjectStatus_recalls (projectNodeId itemNodeId statusFieldId optionId : String)
    (seen : List PortCall) :
    ArmRecalls (.setProjectStatus projectNodeId itemNodeId statusFieldId optionId)
      (applySetProjectStatus projectNodeId itemNodeId statusFieldId optionId) seen := by
  refine (recalls_tryRemote (.setSingleSelectOption projectNodeId itemNodeId statusFieldId
    (some optionId)) seen).bind fun answer later _ laterEq => ?_
  subst laterEq
  cases answer with
  | error error => exact ((Claimless.refl seen).then rfl).unstamped nofun
  | ok applied =>
      obtain _ | applied : Option String := applied
      · exact ((Claimless.refl seen).then rfl).unstamped nofun
      · exact (reached_answered (.setProjectStatus projectNodeId itemNodeId statusFieldId optionId)
          rfl (fun _ => trivial) seen).ends _

theorem stampedOrRetry_recalls {mutation : OutboxMutation} {op : ProviderOp}
    (performs : mutation.performs op) (always : ∀ task, mutation.sends task)
    (seen : List PortCall) : ArmRecalls mutation (stampedOrRetry op) seen := by
  refine (recalls_tryRemote op seen).bind fun answer later _ laterEq => ?_
  subst laterEq
  cases answer with
  | error error => exact ((Claimless.refl seen).then rfl).unstamped nofun
  | ok applied => exact (reached_answered mutation performs always seen).ends _

theorem applyTypeRail_recalls {mutation : OutboxMutation} {op : ProviderOp}
    (performs : mutation.performs op) (always : ∀ task, mutation.sends task) (taskId : TaskId)
    (localIssueType : Option String) (recorded : Bool) (seen : List PortCall) :
    ArmRecalls mutation (applyTypeRail taskId op localIssueType recorded) seen := by
  refine (recalls_tryRemote op seen).bind fun answer later _ laterEq => ?_
  subst laterEq
  cases answer with
  | error error => exact ((Claimless.refl seen).then rfl).unstamped nofun
  | ok applied =>
      have reached := @reached_answered mutation op applied performs always seen
      dsimp only
      split
      · refine (recalls_afterwards ?_ reached).mono fun disposition _ _ held => held.ends disposition
        exact every_bind (every_query trivial) fun _ => trivial
      · exact reached.ends _

theorem apply_recalls (entry : OutboxEntry) (seen : List PortCall) :
    ArmRecalls entry.mutation (apply entry) seen := by
  unfold apply
  split <;> rename_i mutationEq <;> rw [mutationEq]
  · exact applyUpdateRemote_recalls ..
  · exact applyAddItem_recalls ..
  · exact applyCreateDraftIssue_recalls ..
  · exact applyUpdateDraftIssue_recalls ..
  · exact applyConvertDraftToIssue_recalls ..
  · exact applySetProjectStatus_recalls ..
  · exact stampedOrRetry_recalls (by exact rfl) (fun _ => by exact trivial) seen
  · exact applyTypeRail_recalls (by exact rfl) (fun _ => by exact trivial) ..
  · exact applyTypeRail_recalls (by exact rfl) (fun _ => by exact trivial) ..
  all_goals exact stampedOrRetry_recalls (by exact rfl) (fun _ => by exact trivial) seen

theorem honest_stamp {entry : OutboxEntry} {claim : PortCall} {seen later : List PortCall}
    (claims : claimedBy claim = some entry)
    (reached : Reached entry.mutation (seen ++ [claim]) later) (instant : Timestamp) :
    HonestCall later (.store (.cacheSyncedAt entry.taskId instant .push)) := by
  obtain ⟨since, rfl, claimless, decided⟩ := reached
  rw [List.append_assoc, List.singleton_append]
  have last := sinceClaim_claim claims claimless seen
  rintro id at_ source same
  cases same
  constructor
  · rintro (⟨claimed, named, answered⟩ | _) _ other since' claimed'
    cases last.symm.trans claimed'
    cases last.symm.trans claimed
    exact decided.answered_iff.mp answered
  · intro sent
    exact .pushed last rfl (decided.answered_iff.mpr (sent rfl entry since last))

theorem resolve_recalls (backoff : BackoffSchedule) {entry : OutboxEntry} {claim : PortCall}
    (claims : claimedBy claim = some entry) {seen later : List PortCall}
    {outcome : Except SyncError ApplyDisposition}
    (ended : ∀ disposition, outcome = .ok disposition →
      Ends entry.mutation (seen ++ [claim]) disposition later) :
    (resolve backoff entry outcome).Recalls portCalls HonestCall (fun _ _ => True)
      later := by
  have rescheduled : ∀ error, (reschedule backoff entry error).Recalls portCalls
      HonestCall (fun _ _ => True) later := by
    intro error
    by_cases below : entry.attempts + 1 < backoff.maxAttempts
    · simp only [reschedule, below, ↓reduceIte]
      have stampless : (do
          let failedAt ← clock
          query (.recordRetry entry.id error.message
            ⟨failedAt.nanos + backoff.delayFor (entry.attempts + 1)⟩) : Action Unit).Every
            PortOp.stampless :=
        every_bind (every_clock trivial) fun _ => stampless_query (.recordRetry ..) trivial
      exact recalls_stampless stampless later
    · simp only [reschedule, below, ↓reduceIte]
      exact recalls_stampless (stampless_query (.markFailed ..) trivial) later
  cases outcome with
  | error error => exact rescheduled error
  | ok disposition =>
      cases disposition with
      | retry error => exact rescheduled error
      | conflict kind =>
          refine recalls_stampless (every_bind ?_ fun _ =>
            stampless_query (.markFailed ..) trivial) later
          refine every_bind (every_callPort trivial) fun answer => ?_
          split
          · trivial
          · refine every_bind (every_clock trivial) fun now => ?_
            split
            · trivial
            · exact every_query trivial
      | stamped =>
          have reached := (ended .stamped rfl).2 rfl
          refine (recalls_afterwards (every_clock trivial) reached).bind fun now last _ settled => ?_
          refine @Recalls.bind _ _ _ _ _ _ _ (fun _ _ => True) _ _ _ _ ⟨honest_stamp claims settled now, ?_⟩
            fun _ last _ _ => recalls_stampless
              (stampless_query (.markSucceeded entry.id) trivial) last
          intro answer _
          cases answer <;> trivial

theorem drainLoop_recalls (backoff : BackoffSchedule) : ∀ (rounds : Nat) (seen : List PortCall),
    (drainLoop backoff rounds).Recalls portCalls HonestCall (fun _ _ => True) seen := by
  intro rounds
  induction rounds with
  | zero => exact fun _ => trivial
  | succ rounds ih =>
      intro seen
      refine (recalls_stampless (every_clock trivial) seen).bind fun now seen _ _ => ?_
      refine ⟨@HonestCall.ofStampless (.store (.claimNextEligible now)) trivial seen,
        fun answer _ => ?_⟩
      obtain error | claimed : Except PortError (Option OutboxEntry) := answer
      · trivial
      · obtain _ | entry := claimed
        · trivial
        · have claims : claimedBy ⟨.store (.claimNextEligible now), .ok (some entry)⟩ =
              some entry := rfl
          refine (apply_recalls entry _).attempt.bind fun outcome later _ ended => ?_
          exact (resolve_recalls backoff claims ended).bind fun _ last _ _ => ih last

theorem enqueuePendingIssueTypes_stampless :
    (enqueuePendingIssueTypes).Every PortOp.stampless :=
  (enqueuePendingIssueTypes_every enqueues_follows).mono fun _ => PortOp.follows_stampless

theorem drainOnce_recalls_stamps (backoff : BackoffSchedule) (rounds : Nat)
    (seen : List PortCall) : (drainOnce backoff rounds).Recalls portCalls HonestCall
      (fun _ _ => True) seen :=
  (recalls_stampless enqueuePendingIssueTypes_stampless seen).bind fun _ later _ _ =>
    drainLoop_recalls backoff rounds later

end OutboxDrainer

end RepoLink
