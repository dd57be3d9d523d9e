import RepoLink.Ports.Unfailing
import RepoLink.Store.Rewrites
import RepoLink.TaskService.CycleGuard

/-!
`import_mirror` and `add_relation` over ports that do not fail: what they ensure of the tasks and
relations stored.
-/

namespace RepoLink

open Effects Program KeyedTable Relation TaskTable

namespace Database

structure Hosts (workspaceId : WorkspaceId) (repoId : RepoId) (originId : RepoOriginId)
    (database : Database) : Prop where
  workspace : ∃ workspace, database.workspaces.find workspaceId = some workspace
  bound : ∃ view, database.getBinding repoId = .ok view ∧ view.instanceRow.originId = originId
  origin : ∃ origin, database.origins.table.find originId = some origin

variable {workspaceId : WorkspaceId} {repoId : RepoId} {originId : RepoOriginId}
  {database after : Database}

theorem SameConfig.hosts (same : SameConfig database after)
    (hosts : database.Hosts workspaceId repoId originId) :
    after.Hosts workspaceId repoId originId := by
  obtain ⟨workspaces, instances, origins⟩ := same
  refine ⟨workspaces ▸ hosts.workspace, ?_, origins ▸ hosts.origin⟩
  have views : after.bindingView = database.bindingView := by
    unfold bindingView
    rw [origins]
  unfold getBinding
  rw [instances, views]
  exact hosts.bound

theorem Hosts.references (hosts : database.Hosts workspaceId repoId originId) {task : Task}
    (inWorkspace : task.workspaceId = workspaceId) (ofRepo : task.repoId = some repoId) :
    database.references task = true := by
  obtain ⟨workspace, found⟩ := hosts.workspace
  obtain ⟨view, bound, _⟩ := hosts.bound
  unfold Database.references
  rw [inWorkspace, ofRepo, found]
  cases row : database.instances.find repoId with
  | none =>
      unfold getBinding at bound
      rw [row] at bound
      cases bound
  | some row => simp [row]

/-- A stored record passes the checks that a rewrite of it has to pass. -/
structure Keeps (database : Database) (record : TaskRecord) : Prop where
  mapped : record.mapping = TaskRecord.mappingOf record.row
  hashFree : database.tasks.hashTaken record.row = false
  keyFree : database.tasks.mappingTaken record.row = false
  distinct : record.relations.Nodup
  resolved : ∀ relation ∈ record.relations, (database.record relation.other).isSome = true

theorem Keeps.rewrites {record : TaskRecord} {task : Task} (keeps : database.Keeps record)
    (found : database.record record.id = some record) (sameId : task.id = record.id)
    (standing : task.standing = record.row.standing)
    (references : database.references task = true) (distinct : task.relations.Nodup)
    (resolved : ∀ relation ∈ task.relations, (database.record relation.other).isSome = true) :
    Rewrites database.references database.tasks task := by
  have hash : task.hash = record.row.hash := congrArg Standing.hash standing
  have mapping : TaskRecord.mappingOf task = TaskRecord.mappingOf record.row :=
    congrArg Standing.mapping standing
  have rowId : record.row.id = record.id := rfl
  refine ⟨?_, ?_, references, distinct, ?_, ?_⟩
  · rw [sameId, standing]
    change (database.record record.id).map _ = _
    rw [found, Option.map_some, TaskRecord.standing, Task.standing, keeps.mapped]
  · have free := keeps.hashFree
    rw [hashFree_iff] at free ⊢
    rwa [hash, sameId]
  · exact relationsResolve_iff.mpr fun relation member => .inr (resolved relation member)
  · have free := keeps.keyFree
    rw [keyFree_iff] at free ⊢
    rwa [mapping, sameId]

end Database

namespace TaskService

variable {answers : Provider} {draws : Database → String → Prop} {fails : ServiceError → Database → Prop}
  {workspaceId : WorkspaceId} {repoId : RepoId} {originId : RepoOriginId}
  {database : Database}

section Import

def hashesExhausted : ServiceError :=
  .port (.backend "could not mint unique task hash at any length up to 8")

structure Stored (before : Database) (filed task : Task) (after : Database) : Prop where
  minted : ∃ hash, task = { filed with hash }
  hashFree : before.tasks.hashTaken task = false
  config : Database.SameConfig before after
  records : ∃ instant source, ∀ id, after.record id =
    if id = task.id then some (.write instant source task (before.record task.id))
    else before.record id

/-- The save of a fresh task comes to an end: it is stored, or every hash drawn was taken. -/
theorem ensures_saveWithMintedHash {task : Task} (source : SnapshotSource)
    (admits : Admits database.references database.tasks task)
    (clash : ∀ hash, draws database hash →
      database.tasks.hashTaken { task with hash } = true → fails hashesExhausted database) :
    ∀ (lengths : List Nat), (lengths = [] → fails hashesExhausted database) →
      (saveWithMintedHash task source lengths).Ensures (unfailingPorts answers draws) fails
        (Stored database task) database := by
  intro lengths
  induction lengths with
  | nil => exact fun exhausted => exhausted rfl
  | cons length rest ih =>
      intro _
      unfold saveWithMintedHash
      rintro hash middle ⟨drawn, same⟩
      rw [same]
      rintro answer after ⟨instant, performed⟩
      have mintedAdmits : Admits database.references database.tasks { task with hash } :=
        ⟨admits.references, admits.distinct, admits.resolved, admits.keyFree⟩
      cases taken : database.tasks.hashTaken { task with hash } with
      | true =>
          have refused : database.saveAll instant [⟨none, { task with hash }, source⟩] [] =
              .error (uniqueViolation "tasks.hash") := by
            unfold Database.saveAll Database.writeTasks writeTaskInTx
            rw [if_pos taken]
            rfl
          change StoreOp.committing (Except.map _ (database.saveAll _ _ _)) database = _
            at performed
          rw [refused] at performed
          cases performed
          exact ih fun _ => clash hash drawn taken
      | false =>
          obtain ⟨tasks, written⟩ := mintedAdmits.written taken instant source
          have saved := @Database.saveAll_of_written instant [⟨none, { task with hash }, source⟩] []
            database tasks (by rw [Database.writeTasks, written]; rfl) (Database.enqueues_nil _)
          obtain ⟨last, saved, config, _⟩ := saved
          change StoreOp.committing (Except.map _ (database.saveAll _ _ _)) database = _
            at performed
          rw [saved] at performed
          cases performed
          exact ⟨⟨hash, rfl⟩, taken, config, instant, source, Database.saveAll_single saved⟩

theorem gives_adoptOrigin (now : Timestamp) (hosts : database.Hosts workspaceId repoId originId)
    (task : Task) : Gives answers draws fails (adoptOrigin now (some repoId) task) database
      (task.forceSetFilingRepoId now (some originId.toRepoId)) := by
  obtain ⟨view, bound, rfl⟩ := hosts.bound
  have found : Gives answers draws fails (query (.getBinding repoId) : Action RepoBindingView)
      database view := gives_query fun _ => congrArg (·, database) bound
  have origin : Gives answers draws fails (originOfHandle repoId) database
      view.instanceRow.originId.toRepoId := Gives.bind found ⟨rfl, rfl⟩
  exact Gives.bind origin ⟨rfl, rfl⟩

def mirrorStanding (workspaceId : WorkspaceId) (repoId : RepoId) (originId : RepoOriginId)
    (provider remoteId hash : String) : Standing :=
  ⟨workspaceId, some repoId, some originId.toRepoId, some ⟨provider, remoteId, none⟩, hash,
    some ⟨some originId.toRepoId, provider, remoteId⟩⟩

/-- A fresh task without relations mirrors the issue; every other record is as it was. -/
structure Imported (standing : String → Standing) (before : Database) (task : Task)
    (after : Database) : Prop where
  fresh : before.record task.id = none
  hashFree : before.tasks.hashTaken task = false
  config : Database.SameConfig before after
  stored : ∃ record, after.record task.id = some record ∧ record.relations = [] ∧
    record.standing = standing task.hash
  others : ∀ id, id ≠ task.id → after.record id = before.record id

theorem importMirror_titled (now : Timestamp) (id : TaskId) (workspaceId : WorkspaceId)
    (repoId : Option RepoId) (remote : RemoteRef) {title : String} (body : String)
    (assignees : List String) (closed : Bool) (titled : isBlank title = false) :
    ∃ mirror, Task.importMirror now id workspaceId repoId remote title body assignees closed =
        .ok mirror ∧ mirror.id = id ∧ mirror.relations = [] ∧ mirror.workspaceId = workspaceId ∧
      mirror.repoId = repoId ∧ mirror.remote = some remote := by
  unfold Task.importMirror
  rw [titled]
  exact ⟨_, rfl, rfl, rfl, rfl, rfl, rfl⟩

theorem forceSetFilingRepoId_columns (now : Timestamp) (filingRepoId : Option RepoId)
    (task : Task) : ∃ updatedAt, task.forceSetFilingRepoId now filingRepoId =
      { task with filingRepoId, updatedAt } := by
  unfold Task.forceSetFilingRepoId
  split
  · rename_i same
    exact ⟨task.updatedAt, by rw [← same]⟩
  · exact ⟨now, rfl⟩

theorem ensures_importMirror (cmd : ImportMirrorCmd) (ofRepo : cmd.repoId = some repoId)
    (hosts : database.Hosts cmd.workspaceId repoId originId) (titled : isBlank cmd.title = false)
    (unmapped : ∀ id record, database.record id = some record →
      record.mapping ≠ some ⟨some originId.toRepoId, cmd.provider, cmd.remoteId⟩)
    (clash : ∀ (task : Task) hash, draws database hash →
      database.tasks.hashTaken { task with hash } = true → fails hashesExhausted database) :
    (importMirror cmd).Ensures (unfailingPorts answers draws) fails
      (Imported (mirrorStanding cmd.workspaceId repoId originId cmd.provider cmd.remoteId) database)
      database := by
  unfold importMirror
  refine ensures_freshTaskId fun id fresh => ensures_clock fun now => ?_
  obtain ⟨mirror, created, columns⟩ := importMirror_titled now id cmd.workspaceId cmd.repoId
    ⟨cmd.provider, cmd.remoteId, none⟩ cmd.body cmd.assignees cmd.closed titled
  rw [created]
  change ((adoptOrigin now cmd.repoId mirror).bind _).Ensures _ _ _ _
  rw [ofRepo]
  refine Gives.bind (gives_adoptOrigin now hosts mirror) ?_
  obtain ⟨updatedAt, filed⟩ := forceSetFilingRepoId_columns now (some originId.toRepoId) mirror
  rw [filed]
  obtain ⟨rfl, unrelated, inWorkspace, repo, backed⟩ := columns
  have standing : ∀ hash, ({ mirror with
      filingRepoId := some originId.toRepoId, updatedAt, hash } : Task).standing =
        mirrorStanding cmd.workspaceId repoId originId cmd.provider cmd.remoteId hash := by
    intro hash
    unfold Task.standing TaskRecord.mappingOf
    dsimp only
    rw [inWorkspace, repo, backed, ofRepo]
    rfl
  have admits : Admits database.references database.tasks
      { mirror with filingRepoId := some originId.toRepoId, updatedAt } := by
    refine ⟨hosts.references inWorkspace (repo.trans ofRepo), ?_, ?_, ?_⟩
    · exact unrelated ▸ List.nodup_nil
    · exact relationsResolve_iff.mpr fun relation member => by
        rw [unrelated] at member
        cases member
    · refine keyFree_iff.mpr fun mapping mapped other record found holds => ?_
      have same : some _ = some mapping :=
        (congrArg Standing.mapping (standing mirror.hash)).symm.trans mapped
      exact (unmapped other record found (holds.trans same.symm)).elim
  refine (ensures_saveWithMintedHash .pull admits (clash _) mintLengths fun empty => ?_).mono ?_
  · cases empty
  · rintro task after ⟨⟨hash, rfl⟩, hashFree, config, instant, source, records⟩
    refine ⟨fresh, hashFree, config, ⟨_, (records _).trans (if_pos rfl), unrelated, ?_⟩, ?_⟩
    · rw [TaskRecord.write_standing]
      exact standing hash
    · exact fun id other => (records id).trans (if_neg other)

end Import

section Link

structure FiledAt (workspaceId : WorkspaceId) (repoId : RepoId) (originId : RepoOriginId)
    (task : Task) : Prop where
  workspace : task.workspaceId = workspaceId
  repo : task.repoId = some repoId
  filing : task.filingRepoId = some originId.toRepoId

theorem gives_resolveTask {id : TaskId} {record : TaskRecord}
    (found : database.record id = some record) :
    Gives answers draws fails (resolveTask id) database record.load := by
  refine gives_query fun _ => congrArg (·, database) ?_
  unfold Database.getTask Database.stored
  rw [found]
  rfl

theorem gives_closesCycle {child parent : TaskId}
    (opens : ¬TransGen (database.Upstream .childOf) parent child) :
    Gives answers draws fails (closesCycle .childOf child parent) database false := by
  have listed : Gives answers draws fails (query (.listTasks {}) : Action (List Task)) database
      (database.listTasks {}) := gives_query fun _ => rfl
  refine Gives.bind listed ⟨?_, rfl⟩
  have same : edgeRel (upstreamEdges .childOf .parentOf (database.listTasks {})) =
      database.Upstream .childOf := funext fun _ => funext fun _ => propext mem_upstreamEdges
  rw [← Bool.not_eq_true, reaches_upstream, same]
  exact opens

theorem gives_filingCanonicalFor (hosts : database.Hosts workspaceId repoId originId)
    {task : Task} (filed : FiledAt workspaceId repoId originId task) :
    ∃ canonical, Gives answers draws fails
      (filingCanonicalFor task : Action (Option String)) database canonical := by
  obtain ⟨workspace, workspaceFound⟩ := hosts.workspace
  obtain ⟨view, bound, rfl⟩ := hosts.bound
  obtain ⟨origin, originFound⟩ := hosts.origin
  have workspaceRead : database.getWorkspace task.workspaceId = .ok workspace := by
    simp [Database.getWorkspace, filed.workspace, workspaceFound]
  have inWorkspace : Gives answers draws fails
      (lookup (.getWorkspace task.workspaceId) : Action (Option Workspace)) database
      (some workspace) := gives_lookup fun _ => congrArg (·, database) workspaceRead
  have ofRepo : Gives answers draws fails
      (lookup (.getBinding repoId) : Action (Option RepoBindingView)) database (some view) :=
    gives_lookup fun _ => congrArg (·, database) bound
  have originRead : database.getOrigin view.instanceRow.originId = .ok origin := by
    simp [Database.getOrigin, originFound]
  have canonical : Gives answers draws fails
      (query (.getOrigin view.instanceRow.originId) : Action RepoOrigin) database origin :=
    gives_query fun _ => congrArg (·, database) originRead
  have logical : Gives answers draws fails
      (logicalOriginFor task : Action (Option RepoOriginId)) database
      (some view.instanceRow.originId) := by
    unfold logicalOriginFor
    rw [filed.repo]
    exact Gives.bind ofRepo ⟨rfl, rfl⟩
  have default : Gives answers draws fails
      (workspaceFilingDefault task.workspaceId : Action (Option RepoOriginId)) database
      (workspace.filingRepoId.map RepoId.toOrigin) := Gives.bind inWorkspace ⟨rfl, rfl⟩
  refine ⟨some origin.canonicalUrl, ?_⟩
  unfold filingCanonicalFor
  refine Gives.bind default (Gives.bind logical ?_)
  rw [filed.filing]
  exact Gives.bind canonical ⟨rfl, rfl⟩

theorem gives_relationRemoteCoords (hosts : database.Hosts workspaceId repoId originId)
    {task : Task} (filed : FiledAt workspaceId repoId originId task) :
    ∃ coords, Gives answers draws fails (relationRemoteCoords task) database coords := by
  unfold relationRemoteCoords
  cases task.remote with
  | none => exact ⟨none, rfl, rfl⟩
  | some remote =>
      obtain ⟨canonical, gives⟩ := gives_filingCanonicalFor hosts filed
      exact ⟨_, Gives.bind gives ⟨rfl, rfl⟩⟩

theorem ensures_planRelationWhen (hosts : database.Hosts workspaceId repoId originId)
    {task other : Task} (filed : FiledAt workspaceId repoId originId task)
    (otherFiled : FiledAt workspaceId repoId originId other) (owed : Bool) (kind : RelationKind)
    (add : Bool) :
    (planRelationWhen owed kind add task other).Ensures (unfailingPorts answers draws) fails
      (fun entries after => database.Enqueues entries ∧ after = database) database := by
  have nothing : (done [] : Action (List OutboxEntry)).Ensures (unfailingPorts answers draws) fails
      (fun entries after => database.Enqueues entries ∧ after = database) database :=
    ⟨database.enqueues_nil, rfl⟩
  unfold planRelationWhen
  cases owed with
  | false => exact nothing
  | true =>
      obtain ⟨coords, gives⟩ := gives_relationRemoteCoords hosts filed
      obtain ⟨otherCoords, otherGives⟩ := gives_relationRemoteCoords hosts otherFiled
      refine Gives.bind gives (Gives.bind otherGives ?_)
      split
      · rename_i this related
        cases relationMutation kind add this related with
        | none => exact nothing
        | some mutation =>
            refine Ensures.bind ensures_newEntry fun entry after entered => ?_
            exact ⟨Database.enqueues_single entered.1, entered.2⟩
      · exact nothing

structure LinkedTo (child parent : TaskId) (before after : Database) : Prop where
  config : Database.SameConfig before after
  standing : SameStanding before.tasks after.tasks
  others : ∀ id, id ≠ child → id ≠ parent → after.record id = before.record id
  edges : ∀ id relation, relation ∈ after.relationsOf id ↔ relation ∈ before.relationsOf id ∨
    (id = child ∧ relation = ⟨.childOf, parent⟩) ∨ (id = parent ∧ relation = ⟨.parentOf, child⟩)
  distinct : ∀ id, (before.relationsOf id).Nodup → (after.relationsOf id).Nodup

theorem addRelation_standing (now : Timestamp) (kind : RelationKind) (other : TaskId)
    (task : Task) : (task.addRelation now kind other).standing = task.standing := by
  unfold Task.addRelation
  split <;> rfl

theorem addRelation_nodup (now : Timestamp) (kind : RelationKind) (other : TaskId) {task : Task}
    (distinct : task.relations.Nodup) : (task.addRelation now kind other).relations.Nodup := by
  unfold Task.addRelation
  split
  · exact distinct
  · rename_i absent
    refine List.nodup_append.mpr ⟨distinct, List.nodup_singleton _, ?_⟩
    rintro relation member _ added rfl
    rw [List.mem_singleton] at added
    subst added
    exact absent (List.any_eq_true.mpr ⟨_, member, by simp⟩)

theorem addRelation_rewrites {record : TaskRecord} {far : TaskId}
    (found : database.record record.id = some record) (keeps : database.Keeps record)
    (references : database.references record.row = true) (now : Timestamp) (kind : RelationKind)
    (farStored : (database.record far).isSome = true) :
    Rewrites database.references database.tasks (record.load.addRelation now kind far) := by
  have standing : (record.load.addRelation now kind far).standing = record.row.standing :=
    addRelation_standing now kind far record.load
  have sorted : record.load.relations.Perm record.relations := List.perm_insertionSort ..
  refine keeps.rewrites found (Task.addRelation_id ..) standing ?_ ?_ ?_
  · unfold Database.references
    rw [show Task.workspaceId _ = _ from congrArg Standing.workspaceId standing,
      show Task.repoId _ = _ from congrArg Standing.repoId standing]
    exact references
  · exact addRelation_nodup now kind far (sorted.nodup_iff.mpr keeps.distinct)
  · intro relation member
    rcases Task.mem_addRelation.mp member with old | rfl
    · exact keeps.resolved relation (sorted.mem_iff.mp old)
    · exact farStored

theorem relationsOf_pair {instant : Timestamp} {entries : List OutboxEntry}
    {first second : TaskWrite} {after : Database} (apart : second.task.id ≠ first.task.id)
    (saved : database.saveAll instant [first, second] entries = .ok after) (id : TaskId) :
    after.relationsOf id = if id = first.task.id then first.task.relations
      else if id = second.task.id then second.task.relations else database.relationsOf id := by
  rcases Database.relationsOf_saved saved id with ⟨write, member, rfl, stored⟩ | ⟨none, stored⟩
  · rcases List.mem_pair.mp member with rfl | rfl
    · rw [if_pos rfl, stored]
    · rw [if_neg apart, if_pos rfl, stored]
  · rw [if_neg (none first (by simp)).symm, if_neg (none second (by simp)).symm, stored]

/-- A batch that writes each end with the one relation more links the two. -/
theorem linkedTo_saved {now instant : Timestamp} {entries : List OutboxEntry}
    {record far : TaskRecord} {after : Database} (apart : far.id ≠ record.id)
    (found : database.record record.id = some record) (farFound : database.record far.id = some far)
    {first second : TaskWrite} (written : first.task = record.load.addRelation now .childOf far.id)
    (farWritten : second.task = far.load.addRelation now .parentOf record.id)
    (saved : database.saveAll instant [first, second] entries = .ok after)
    (config : Database.SameConfig database after)
    (standing : SameStanding database.tasks after.tasks) :
    LinkedTo record.id far.id database after := by
  have firstId : first.task.id = record.id := written ▸ Task.addRelation_id ..
  have secondId : second.task.id = far.id := farWritten ▸ Task.addRelation_id ..
  have relations := relationsOf_pair (by rwa [firstId, secondId]) saved
  rw [firstId, secondId, written, farWritten] at relations
  have loaded : ∀ {record : TaskRecord}, database.record record.id = some record →
      record.load.relations.Perm (database.relationsOf record.id) := by
    intro record found
    rw [Database.relationsOf, found]
    exact List.perm_insertionSort ..
  refine ⟨config, standing, fun id notChild notParent => ?_, fun id relation => ?_, fun id => ?_⟩
  · have elsewhere : ∀ write ∈ [first, second], write.task.id ≠ id := by
      intro write member
      rcases List.mem_pair.mp member with rfl | rfl
      · exact fun same => notChild (same.symm.trans firstId)
      · exact fun same => notParent (same.symm.trans secondId)
    rw [Database.saveAll_record saved, Database.afterWrites_absent elsewhere]
  · rw [relations]
    by_cases isChild : id = record.id
    · subst isChild
      rw [if_pos rfl, Task.mem_addRelation, (loaded found).mem_iff]
      simp [apart.symm]
    · rw [if_neg isChild]
      by_cases isParent : id = far.id
      · subst isParent
        rw [if_pos rfl, Task.mem_addRelation, (loaded farFound).mem_iff]
        simp [apart]
      · rw [if_neg isParent]
        simp [isChild, isParent]
  · intro nodup
    rw [relations]
    split
    · rename_i isChild
      subst isChild
      exact addRelation_nodup now .childOf far.id ((loaded found).nodup_iff.mpr nodup)
    · split
      · rename_i isParent
        subst isParent
        exact addRelation_nodup now .parentOf record.id ((loaded farFound).nodup_iff.mpr nodup)
      · exact nodup

theorem FiledAt.ofStanding {task other : Task} (filed : FiledAt workspaceId repoId originId task)
    (same : other.standing = task.standing) : FiledAt workspaceId repoId originId other :=
  ⟨(congrArg Standing.workspaceId same).trans filed.workspace,
    (congrArg Standing.repoId same).trans filed.repo,
    (congrArg Standing.filingRepoId same).trans filed.filing⟩

theorem ensures_addRelation (hosts : database.Hosts workspaceId repoId originId)
    {record far : TaskRecord} (found : database.record record.id = some record)
    (farFound : database.record far.id = some far) (keeps : database.Keeps record)
    (farKeeps : database.Keeps far) (filed : FiledAt workspaceId repoId originId record.row)
    (farFiled : FiledAt workspaceId repoId originId far.row) (apart : far.id ≠ record.id)
    (opens : ¬TransGen (database.Upstream .childOf) far.id record.id) :
    (addRelation record.id .childOf far.id).Ensures (unfailingPorts answers draws) fails
      (fun _ after => LinkedTo record.id far.id database after) database := by
  unfold addRelation
  refine Gives.bind (gives_resolveTask found) (Gives.bind (gives_resolveTask farFound) ?_)
  rw [TaskRecord.load_id, TaskRecord.load_id, if_neg apart]
  refine Gives.bind (gives_closesCycle opens) ?_
  rw [if_neg Bool.false_ne_true]
  refine ensures_clock fun now => ?_
  have relatedFiled : FiledAt workspaceId repoId originId
      (record.load.addRelation now .childOf far.id) :=
    filed.ofStanding (addRelation_standing now .childOf far.id record.load)
  have reciprocalFiled : FiledAt workspaceId repoId originId
      (far.load.addRelation now .parentOf record.id) :=
    farFiled.ofStanding (addRelation_standing now .parentOf record.id far.load)
  refine Ensures.bind (ensures_planRelationWhen hosts relatedFiled reciprocalFiled _ _ _) ?_
  rintro entries _ ⟨enqueued, same⟩
  rw [same]
  have related := addRelation_rewrites found keeps (hosts.references filed.workspace filed.repo) now
    .childOf (Option.isSome_iff_exists.mpr ⟨far, farFound⟩)
  have reciprocal := addRelation_rewrites farFound farKeeps
    (hosts.references farFiled.workspace farFiled.repo) now .parentOf
    (Option.isSome_iff_exists.mpr ⟨record, found⟩)
  refine Ensures.bind (ensures_saveAll fun instant => ?_) fun _ _ linked => linked
  have rewrites : ∀ write ∈
      [TaskWrite.mk (some record.load) (record.load.addRelation now .childOf far.id) .localEdit,
        TaskWrite.mk (some far.load) (far.load.addRelation now .parentOf record.id) .localEdit],
      Rewrites database.references database.tasks write.task := by
    intro write member
    rcases List.mem_pair.mp member with rfl | rfl
    · exact related
    · exact reciprocal
  obtain ⟨tasks, written, standing⟩ := Database.writeTasks_rewrites instant rewrites
  obtain ⟨after, saved, config, rfl⟩ := Database.saveAll_of_written written enqueued
  exact ⟨after, saved, linkedTo_saved apart found farFound rfl rfl saved config standing⟩

end Link

end TaskService

end RepoLink
