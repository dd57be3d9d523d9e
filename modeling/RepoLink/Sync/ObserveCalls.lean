import RepoLink.Sync.PullCalls
import RepoLink.Sync.StampCalls

/-!
The stamps of the reads: a pull and a refresh stamp after the issue was fetched, a poll stamps the
tasks whose board was read to its end.
-/

namespace RepoLink

open Effects Program

theorem Fetched.mono {calls later : List PortCall} (grown : calls ⊆ later) {id : TaskId}
    (fetched : Fetched calls id) : Fetched later id := by
  obtain ⟨task, current, workspaceDefault, logical, originId, origin, snap, loaded, remoteEq,
    resolved, found, answered⟩ := fetched
  exact ⟨task, current, workspaceDefault, logical, originId, origin, snap, grown loaded, remoteEq,
    resolved, grown found, grown answered⟩

theorem HonestCall.ofVouched {calls : List PortCall} {id : TaskId} {source : SyncedSource}
    (vouched : Vouched calls id source) (unpushed : source ≠ .push) (instant : Timestamp) :
    HonestCall calls (.store (.cacheSyncedAt id instant source)) := by
  rintro _ _ _ same
  cases same
  exact iff_of_true vouched fun pushed => (unpushed pushed).elim

section Rules

variable {ε : Type} [OfPortError ε]

theorem recalls_answer (op : StoreOp) (stampless : (PortOp.store op).stampless)
    (seen : List PortCall) : (query op : Service ε op.Answer).Recalls portCalls HonestCall
      (fun answer later => loads.possible (.store op) (.ok answer) ∧
        later = seen ++ [⟨.store op, .ok answer⟩]) seen := by
  refine ⟨HonestCall.ofStampless stampless seen, fun answer possible => ?_⟩
  cases answer with
  | ok value => exact ⟨possible, rfl⟩
  | error error => trivial

theorem recalls_remote (op : ProviderOp) (seen : List PortCall) :
    (remote op : Service ε op.Answer).Recalls portCalls HonestCall
      (fun answer later => later = seen ++ [⟨.provider op, .ok answer⟩]) seen := by
  refine ⟨@HonestCall.ofStampless (.provider op) trivial seen, fun answer _ => ?_⟩
  cases answer with
  | ok value => rfl
  | error error => trivial

def Resolved (calls : List PortCall) (task : Task) (canonical : String) : Prop :=
  ∃ (workspaceDefault logical : Option RepoOriginId) (originId : RepoOriginId)
    (origin : RepoOrigin),
    resolveFilingRepo (task.filingRepoId.map RepoId.toOrigin) workspaceDefault logical =
      some originId ∧
    ⟨.store (.getOrigin originId), .ok origin⟩ ∈ calls ∧ origin.canonicalUrl = canonical

theorem recalls_filingCanonicalFor (task : Task) (seen : List PortCall) :
    (filingCanonicalFor task : Service ε (Option String)).Recalls portCalls HonestCall
      (fun canonical later => ∀ found, canonical = some found → Resolved later task found) seen := by
  refine (recalls_stampless (stampless_quietly (workspaceFilingDefault_quiet _)) seen).bind
    fun workspaceDefault second _ _ => ?_
  refine (recalls_stampless (stampless_quietly (logicalOriginFor_quiet task)) second).bind
    fun logical third _ _ => ?_
  split
  · exact fun _ same => nomatch same
  · rename_i originId resolved
    refine (recalls_answer (.getOrigin originId) trivial third).bind fun origin last _ read => ?_
    rintro _ same
    cases same
    refine ⟨workspaceDefault, logical, originId, origin, resolved, ?_, rfl⟩
    rw [read.2]
    exact List.mem_append_right _ (List.mem_singleton_self _)

end Rules

namespace SyncService

theorem recalls_requiredFilingCanonical (task : Task) (seen : List PortCall) :
    (requiredFilingCanonical task).Recalls portCalls HonestCall
      (fun canonical later => Resolved later task canonical) seen := by
  refine (recalls_filingCanonicalFor task seen).bind fun canonical later _ resolved => ?_
  split
  · trivial
  · exact resolved _ rfl

theorem fetched_ofResolved {id : TaskId} {task : Task} {current : RemoteRef} {canonical : String}
    {snap : RemoteTaskSnapshot} {calls : List PortCall}
    (loaded : ⟨.store (.getTask id), .ok task⟩ ∈ calls) (remoteEq : task.remote = some current)
    (resolved : Resolved calls task canonical) :
    Fetched (calls ++ [⟨.provider (.fetchRemote canonical current.remoteId), .ok snap⟩]) id := by
  obtain ⟨workspaceDefault, logical, originId, origin, chain, read, rfl⟩ := resolved
  exact ⟨task, current, workspaceDefault, logical, originId, origin, snap,
    List.mem_append_left _ loaded, remoteEq, chain, List.mem_append_left _ read,
    List.mem_append_right _ (List.mem_singleton_self _)⟩

theorem recalls_stamp {id : TaskId} (source : SyncedSource) (unpushed : source ≠ .push)
    (vouched : ∀ {calls}, Fetched calls id → Vouched calls id source) {seen : List PortCall}
    (fetched : Fetched seen id) (instant : Timestamp) :
    (query (.cacheSyncedAt id instant source) : Action Unit).Recalls portCalls HonestCall
      (fun _ _ => True) seen := by
  refine ⟨HonestCall.ofVouched (vouched fetched) unpushed instant, fun answer _ => ?_⟩
  cases answer <;> trivial

theorem saveTask_stampless (basis task : Task) (source : SnapshotSource)
    (entries : List OutboxEntry) :
    (saveTask basis task source entries).Every PortOp.stampless :=
  stampless_query (.saveAll ..) trivial

theorem settlePull_stampless (basis task : Task) (snap : RemoteTaskSnapshot)
    (decision : SyncDecision) : (settlePull basis task snap decision).Every PortOp.stampless := by
  unfold settlePull
  split
  · refine every_bind (saveTask_stampless ..) fun _ => every_bind (every_clock trivial) fun now => ?_
    refine every_bind ?_ fun adopted => every_bind (saveTask_stampless ..) fun _ => trivial
    exact stampless_quietly (settled_quiet _)
  · trivial
  · trivial

theorem reconcileRelationsInbound_stampless (basis task : Task)
    (filingCanonical remoteId : String) :
    (reconcileRelationsInbound basis task filingCanonical remoteId).Every PortOp.stampless := by
  refine every_bind (stampless_quietly (gatherInbound_quiet ..)) fun reconciled => ?_
  split
  · exact every_bind (stampless_query (.saveAll ..) trivial) fun _ => trivial
  · trivial

theorem pullSnapshot_recalls (forceAcceptRemote : Bool) {id : TaskId} {before : Task}
    (named : before.id = id) (filingCanonical : String) (current : RemoteRef)
    (snap : RemoteTaskSnapshot) {seen : List PortCall} (fetched : Fetched seen id) :
    (pullSnapshot forceAcceptRemote before filingCanonical current snap).Recalls portCalls
      HonestCall (fun _ _ => True) seen := by
  subst named
  refine (recalls_stampless (every_clock trivial) seen).bind fun observedAt second grown _ => ?_
  refine (recalls_stamp .pull nofun .pulled (fetched.mono grown.subset) observedAt).bind
    fun _ third _ _ => recalls_stampless ?_ third
  refine every_bind (settlePull_stampless ..) fun pulled => ?_
  refine every_bind (every_remote trivial) fun comments => ?_
  refine every_bind (stampless_query (.replaceComments ..) trivial) fun _ => ?_
  refine every_bind ?_ fun _ => trivial
  unfold backfillNodeId
  split
  · exact stampless_query (.cacheRemoteNodeId ..) trivial
  · trivial

theorem pullInner_recalls_stamps (taskId : TaskId) (forceAcceptRemote : Bool)
    (seen : List PortCall) : (pullInner taskId forceAcceptRemote).Recalls portCalls HonestCall
      (fun _ _ => True) seen := by
  rw [pullInner_eq]
  refine (recalls_answer (.getTask taskId) trivial seen).bind fun before second _ loaded => ?_
  refine (recalls_stampless (stampless_quietly (ensureNotArchived_quiet before)) second).bind
    fun _ third grownThird _ => ?_
  refine (recalls_requiredFilingCanonical before third).bind
    fun canonical fourth grownFourth resolved => ?_
  split
  · trivial
  · rename_i current remoteEq
    refine (recalls_remote (.fetchRemote canonical current.remoteId) fourth).bind
      fun snap fifth _ fetchedEq => ?_
    subst fetchedEq
    have known : ⟨.store (.getTask taskId), .ok before⟩ ∈ fourth := by
      refine grownFourth.subset (grownThird.subset ?_)
      rw [loaded.2]
      exact List.mem_append_right _ (List.mem_singleton_self _)
    refine (pullSnapshot_recalls forceAcceptRemote loaded.1 canonical current snap
      (fetched_ofResolved known remoteEq resolved)).bind fun pulled last _ _ => ?_
    exact (recalls_stampless (reconcileRelationsInbound_stampless before pulled canonical
      current.remoteId) last).bind fun _ _ _ _ => trivial

theorem refresh_recalls (taskId : TaskId) (seen : List PortCall) :
    (refresh taskId).Recalls portCalls HonestCall (fun _ _ => True) seen := by
  refine (recalls_answer (.getTask taskId) trivial seen).bind fun task second _ loaded => ?_
  split
  · trivial
  · rename_i current remoteEq
    refine (recalls_requiredFilingCanonical task second).bind
      fun canonical third grown resolved => ?_
    refine (recalls_remote (.fetchRemote canonical current.remoteId) third).bind
      fun snap fourth _ fetchedEq => ?_
    subst fetchedEq
    have known : ⟨.store (.getTask taskId), .ok task⟩ ∈ third := by
      refine grown.subset ?_
      rw [loaded.2]
      exact List.mem_append_right _ (List.mem_singleton_self _)
    have fetched := @fetched_ofResolved _ _ _ _ snap _ known remoteEq resolved
    refine (recalls_stampless (every_clock trivial) _).bind fun now last grownLast _ => ?_
    exact (recalls_stamp .refresh nofun .refreshed (fetched.mono grownLast.subset) now).bind
      fun _ _ _ _ => (trivial : True)

end SyncService

namespace ProjectPoller

def SameTask (task other : Task) : Prop := task.id = other.id ∧ task.workspaceId = other.workspaceId

theorem stampless_tryQuery {ε : Type} (op : StoreOp) (stampless : (PortOp.store op).stampless) :
    (tryQuery op : Service ε (Except PortError op.Answer)).Every PortOp.stampless :=
  every_callPort stampless

theorem reconcileContent_stampless (item : RemoteProjectItem) (task : Task) :
    (reconcileContent item task).Every PortOp.stampless := by
  refine every_bind (stampless_tryQuery (.getTask task.id) trivial) fun answer => ?_
  split
  · unfold markDrift
    split
    · split
      · trivial
      · refine every_bind (stampless_tryQuery (.markRemoteDirty task.id) trivial) fun marked => ?_
        split <;> trivial
    · trivial
  · trivial

theorem reconcileContent_same (item : RemoteProjectItem) (task : Task) :
    (reconcileContent item task).Yields fun result => SameTask result.1.1 task := by
  refine (yields_any _).bind fun answer _ => ?_
  split
  · unfold markDrift
    split
    · split
      · exact ⟨rfl, rfl⟩
      · refine (yields_any _).bind fun marked _ => ?_
        split <;> exact ⟨rfl, rfl⟩
    · exact ⟨rfl, rfl⟩
  · exact ⟨rfl, rfl⟩

theorem reconcilePriority_stampless (project : Project) (item : RemoteProjectItem) (task : Task) :
    (reconcilePriority project item task).Every PortOp.stampless := by
  unfold reconcilePriority
  split
  · trivial
  · have pending : (hasPendingPriorityPush task.id).Every PortOp.stampless := by
      refine every_bind (stampless_tryQuery (.listPending task.id) trivial) fun answer => ?_
      split <;> trivial
    refine every_bind pending ?_
    rintro ⟨owes, read⟩
    dsimp only
    split
    · trivial
    · refine every_bind (stampless_tryQuery (.applyPolledPriority ..) trivial) fun applied => ?_
      split <;> trivial

theorem reconcilePriority_same (project : Project) (item : RemoteProjectItem) (task : Task) :
    (reconcilePriority project item task).Yields fun result => SameTask result.1 task := by
  unfold reconcilePriority
  split
  · exact ⟨rfl, rfl⟩
  · refine (yields_any _).bind ?_
    rintro ⟨owes, read⟩ _
    dsimp only
    split
    · exact ⟨rfl, rfl⟩
    · refine (yields_any _).bind fun applied _ => ?_
      split <;> exact ⟨rfl, rfl⟩

theorem reconcileStatus_stampless (item : RemoteProjectItem) (task : Task) :
    (reconcileStatus item task).Every PortOp.stampless := by
  unfold reconcileStatus
  split
  · trivial
  · refine every_bind (stampless_tryQuery (.cacheProjectStatus ..) trivial) fun cached => ?_
    split <;> trivial

theorem reconcileStatus_same (item : RemoteProjectItem) (task : Task) :
    (reconcileStatus item task).Yields fun result => SameTask result.1 task := by
  unfold reconcileStatus
  split
  · exact ⟨rfl, rfl⟩
  · refine (yields_any _).bind fun cached _ => ?_
    split <;> exact ⟨rfl, rfl⟩

structure Backed (calls : List PortCall) (pass : PollPass) : Prop where
  listed : ∀ entry ∈ pass.byItemId, ∃ (filter : TaskFilter) (tasks : List Task) (task : Task),
    ⟨.store (.listTasks filter), .ok tasks⟩ ∈ calls ∧ task ∈ tasks ∧ SameTask entry.2 task
  completed : ∀ project ∈ pass.completedProjects, ∃ (statusFieldId : String) (page : PollPage),
    ⟨.provider (.pollProjectItems project.value statusFieldId pollQuery), .ok page⟩ ∈ calls ∧
      page.truncated = false

theorem Backed.mono {calls later : List PortCall} (grown : calls ⊆ later) {pass : PollPass}
    (backed : Backed calls pass) : Backed later pass := by
  refine ⟨fun entry member => ?_, fun project member => ?_⟩
  · obtain ⟨filter, tasks, task, answered, rest⟩ := backed.listed entry member
    exact ⟨filter, tasks, task, grown answered, rest⟩
  · obtain ⟨statusFieldId, page, answered, rest⟩ := backed.completed project member
    exact ⟨statusFieldId, page, grown answered, rest⟩

theorem mem_insert {itemId : String} {task : Task} {tasks : WorkingSet} {entry : String × Task}
    (member : entry ∈ tasks.insert itemId task) : entry ∈ tasks ∨ entry = (itemId, task) := by
  rcases List.mem_append.mp member with old | new
  · exact .inl (List.mem_of_mem_filter old)
  · exact .inr (List.mem_singleton.mp new)

theorem mem_indexByItem {tasks : List Task} {entry : String × Task}
    (member : entry ∈ indexByItem tasks) : entry.2 ∈ tasks := by
  have all : ∀ entry ∈ indexByItem tasks, entry.2 ∈ tasks := by
    unfold indexByItem
    refine List.foldlRecOn tasks _
      (motive := fun index : WorkingSet => ∀ entry ∈ index, entry.2 ∈ tasks) ?_ ?_
    · exact fun _ inside => (List.not_mem_nil inside).elim
    · intro index held task member entry inside
      split at inside
      · rcases mem_insert inside with old | rfl
        · exact held entry old
        · exact member
      · exact held entry inside
  exact all entry member

theorem indexStaleCandidates_recalls (seen : List PortCall) :
    indexStaleCandidates.Recalls portCalls HonestCall
      (fun byItemId later => ∀ entry ∈ byItemId, ∃ (filter : TaskFilter) (tasks : List Task)
        (task : Task), ⟨.store (.listTasks filter), .ok tasks⟩ ∈ later ∧ task ∈ tasks ∧
          SameTask entry.2 task) seen := by
  refine (recalls_stampless (every_clock trivial) seen).bind fun now second _ _ => ?_
  refine (recalls_answer (.listTasks _) trivial second).bind fun tasks later _ listed => ?_
  obtain ⟨_, rfl⟩ := listed
  intro entry member
  exact ⟨_, tasks, entry.2, List.mem_append_right _ (List.mem_singleton_self _),
    mem_indexByItem member, rfl, rfl⟩

theorem reconcileItem_recalls (project : Project) (pass : PollPass) (item : RemoteProjectItem)
    {seen : List PortCall} (backed : Backed seen pass) :
    (reconcileItem project pass item).Recalls portCalls HonestCall
      (fun next later => Backed later next) seen := by
  have calm : ∀ post : PollPass → Prop, (reconcileItem project pass item).Yields post →
      (reconcileItem project pass item).Recalls portCalls HonestCall (fun next _ => post next)
        seen := by
    intro post yields
    refine .ofEvery (fun _ calm => HonestCall.ofStampless calm) ?_ yields seen
    unfold reconcileItem
    split
    · trivial
    · refine every_bind (reconcileContent_stampless item _) ?_
      rintro ⟨⟨drifted, driftDone⟩, marked⟩
      refine every_bind (reconcilePriority_stampless project item drifted) ?_
      rintro ⟨ranked, priorityDone⟩
      exact every_bind (reconcileStatus_stampless item ranked) fun _ => trivial
  refine (calm (Backed seen) ?_).mono fun next later grown held =>
    held.mono grown.subset
  unfold reconcileItem
  split
  · exact ⟨backed.listed, backed.completed⟩
  · rename_i task found
    refine (reconcileContent_same item task).bind ?_
    rintro ⟨⟨drifted, driftDone⟩, marked⟩ first
    refine (reconcilePriority_same project item drifted).bind ?_
    rintro ⟨ranked, priorityDone⟩ second
    refine (reconcileStatus_same item ranked).bind ?_
    rintro ⟨settled, statusDone⟩ third
    refine ⟨fun entry member => ?_, backed.completed⟩
    rcases mem_insert member with old | rfl
    · exact backed.listed entry old
    · obtain ⟨front, back, split, _⟩ := List.lookup_eq_some_iff.mp found
      have held : (item.itemNodeId, task) ∈ pass.byItemId :=
        split ▸ List.mem_append_right front List.mem_cons_self
      obtain ⟨filter, tasks, listed, answered, inside, same⟩ := backed.listed _ held
      refine ⟨filter, tasks, listed, answered, inside, ?_, ?_⟩
      · exact third.1.trans (second.1.trans (first.1.trans same.1))
      · exact third.2.trans (second.2.trans (first.2.trans same.2))

theorem pollProject_recalls (pass : PollPass) (project : Project) {seen : List PortCall}
    (backed : Backed seen pass) :
    (pollProject pass project).Recalls portCalls HonestCall (fun next later => Backed later next)
      seen := by
  unfold pollProject
  split
  · exact backed
  · rename_i statusFieldId fieldEq
    refine Recalls.bind (OutboxDrainer.recalls_tryRemote
      (.pollProjectItems project.id.value statusFieldId pollQuery) seen)
      fun answer second grown secondEq => ?_
    split
    · exact ⟨(backed.mono grown.subset).listed, (backed.mono grown.subset).completed⟩
    · rename_i page
      subst secondEq
      have read : Backed (seen ++ [⟨.provider (.pollProjectItems project.id.value statusFieldId
          pollQuery), .ok page⟩]) { pass with report :=
            { pass.report with
              projectsPolled := pass.report.projectsPolled + 1
              itemsSeen := pass.report.itemsSeen + page.items.length } } :=
        ⟨(backed.mono grown.subset).listed, (backed.mono grown.subset).completed⟩
      refine (Recalls.foldEach (fun value item seen _ held =>
        reconcileItem_recalls project value item held) read).bind fun next later grownLater held => ?_
      unfold advance
      split
      · exact ⟨held.listed, held.completed⟩
      · rename_i complete
        refine ⟨held.listed, fun other member => ?_⟩
        rcases List.mem_cons.mp member with rfl | old
        · refine ⟨statusFieldId, page, grownLater.subset ?_, by simpa using complete⟩
          exact List.mem_append_right _ (List.mem_singleton_self _)
        · exact held.completed other old

theorem projectOfWorkspace_recalls (workspaceId : WorkspaceId) (seen : List PortCall) :
    (projectOfWorkspace workspaceId).Recalls portCalls HonestCall
      (fun found later => ∀ id, found = some id → ∃ (projects : List Project) (project : Project),
        ⟨.store (.listProjectsByWorkspace workspaceId), .ok projects⟩ ∈ later ∧
        projects.head? = some project ∧ project.id = id) seen := by
  refine ⟨@HonestCall.ofStampless (.store (.listProjectsByWorkspace workspaceId)) trivial seen,
    fun answer _ => ?_⟩
  cases answer with
  | error error => exact fun _ same => nomatch same
  | ok projects =>
      intro id same
      obtain ⟨project, headEq, idEq⟩ := Option.map_eq_some_iff.mp same
      exact ⟨projects, project, List.mem_append_right _ (List.mem_singleton_self _), headEq, idEq⟩

theorem stampFreshness_recalls {pass : PollPass} (refreshed : Nat) {entry : String × Task}
    (member : entry ∈ pass.byItemId) {seen : List PortCall} (backed : Backed seen pass) :
    (stampFreshness pass.completedProjects refreshed entry.2).Recalls portCalls HonestCall
      (fun _ later => Backed later pass) seen := by
  have kept : ∀ {later}, seen <+: later → Backed later pass := fun grown =>
    backed.mono grown.subset
  refine (projectOfWorkspace_recalls entry.2.workspaceId seen).bind
    fun found second grown resolved => ?_
  split
  · exact kept grown
  · rename_i projectId
    split
    · rename_i complete
      refine (recalls_stampless (every_clock trivial) second).bind fun now third grownThird _ => ?_
      have grownAll := grown.trans grownThird
      obtain ⟨filter, tasks, task, listed, inside, same⟩ := (kept grownAll).listed entry member
      obtain ⟨statusFieldId, page, read, whole⟩ := (kept grownAll).completed projectId complete
      obtain ⟨projects, project, ofWorkspace, headEq, rfl⟩ := resolved projectId rfl
      have board : BoardRead third entry.2.id := by
        refine ⟨filter, tasks, task, projects, project, statusFieldId, page, listed, inside,
          same.1.symm, ?_, headEq, read, whole⟩
        rw [← same.2]
        exact grownThird.subset ofWorkspace
      refine ⟨HonestCall.ofVouched (.polled board) nofun now, fun answer _ => ?_⟩
      have last := kept (grownAll.trans (List.prefix_append third
        (portCalls.notes (.store (.cacheSyncedAt entry.2.id now .polled)) answer)))
      cases answer with
      | ok value => exact last
      | error error => exact last
    · exact kept grown

theorem pollOnce_recalls (watermarks : Watermarks) (seen : List PortCall) :
    (pollOnce watermarks).Recalls portCalls HonestCall (fun _ _ => True) seen := by
  refine (recalls_stampless (stampless_query .listProjects trivial) seen).bind
    fun projects second _ _ => ?_
  dsimp only
  split
  · trivial
  · refine (indexStaleCandidates_recalls second).bind fun byItemId third _ listed => ?_
    have start : Backed third ⟨byItemId, {}, watermarks, [], []⟩ :=
      ⟨listed, fun _ member => (List.not_mem_nil member).elim⟩
    refine (Recalls.foldEach (fun value project seen _ held =>
      pollProject_recalls value project held) start).bind fun pass fourth _ backed => ?_
    have stamps : ∀ refreshed task seen, task ∈ pass.byItemId.map Prod.snd → Backed seen pass →
        (stampFreshness pass.completedProjects refreshed task).Recalls portCalls HonestCall
          (fun _ later => Backed later pass) seen := by
      intro refreshed task seen member held
      obtain ⟨entry, inside, rfl⟩ := List.mem_map.mp member
      exact stampFreshness_recalls refreshed inside held
    exact (Recalls.foldEach stamps backed).bind fun _ _ _ _ => (trivial : True)

end ProjectPoller

end RepoLink
