import RepoLink.Sync.Planning

/-!
Where the issue of a task lives: the filing chain read off one database, and the lookup of
`filing_canonical_for` as that reading.
-/

namespace RepoLink

open Effects Program

namespace Database

def filingDefault (database : Database) (id : WorkspaceId) : Option RepoOriginId :=
  ((database.workspaces.find id).bind (·.filingRepoId)).map RepoId.toOrigin

def binding (database : Database) (id : RepoId) : Option RepoBindingView :=
  (database.instances.find id).bind database.bindingView

def logicalOrigin (database : Database) (task : Task) : Option RepoOriginId :=
  (task.repoId.bind database.binding).map fun view => view.instanceRow.originId

def filingOrigin (database : Database) (task : Task) : Option RepoOriginId :=
  resolveFilingRepo (task.filingRepoId.map RepoId.toOrigin)
    (database.filingDefault task.workspaceId) (database.logicalOrigin task)

def filingCanonical (database : Database) (task : Task) : Option String :=
  (database.filingOrigin task).bind fun id =>
    (database.origins.table.find id).map RepoOrigin.canonicalUrl

def address (database : Database) (task : Task) : Option IssueCoords :=
  task.remote.bind fun remote =>
    (database.filingCanonical task).map fun canonical => (canonical, remote.remoteId)

theorem address_eq_some {database : Database} {task : Task} {canonical remoteId : String} :
    database.address task = some (canonical, remoteId) ↔
      database.filingCanonical task = some canonical ∧
        task.remote.map RemoteRef.remoteId = some remoteId := by
  cases remoteEq : task.remote with
  | none => simp [address, remoteEq]
  | some remote =>
      cases canonicalEq : database.filingCanonical task <;> simp [address, remoteEq, canonicalEq]

theorem filingCanonical_recorded {database : Database} {task : Task} {id : RepoId}
    (recorded : task.filingRepoId = some id) : database.filingCanonical task =
      (database.origins.table.find id.toOrigin).map RepoOrigin.canonicalUrl := by
  simp [filingCanonical, filingOrigin, resolveFilingRepo, recorded]

end Database

section Lookups

variable {ε : Type} [OfPortError ε]

def StoreOp.answer (op : StoreOp) (database : Database) : Except PortError op.Answer :=
  (op.perform .epoch database).1

theorem StoreOp.perform_answer {op : StoreOp} (reads : op.reads = true) (instant : Timestamp)
    (database : Database) : op.perform instant database = (op.answer database, database) := by
  cases op <;> first | rfl | cases reads

theorem runs_query_ok {op : StoreOp} (reads : op.reads = true) {before after : Database}
    {answer : op.Answer} :
    (query op : Service ε op.Answer).Runs portMeaning before (.ok answer) after ↔
      after = before ∧ op.answer before = .ok answer := by
  constructor
  · intro ran
    obtain ⟨instant, performed⟩ := runs_query ran
    rw [StoreOp.perform_answer reads] at performed
    exact ⟨(congrArg Prod.snd performed).symm, congrArg Prod.fst performed⟩
  · rintro ⟨rfl, answered⟩
    refine ⟨.ok answer, after, .inl ⟨.epoch, ?_⟩, rfl, rfl⟩
    rw [StoreOp.perform_answer reads, answered]

theorem runs_lookup_ok {op : StoreOp} (reads : op.reads = true) {before after : Database}
    {answer : Option op.Answer} :
    (lookup op : Service ε (Option op.Answer)).Runs portMeaning before (.ok answer) after ↔
      after = before ∧ match op.answer before with
        | .ok value => answer = some value
        | .error (.notFound _) => answer = none
        | .error _ => False := by
  constructor
  · rintro ⟨result, middle, performed | ⟨_, rfl, _⟩, rest⟩
    · obtain ⟨instant, performedEq⟩ := performed
      rw [StoreOp.perform_answer reads] at performedEq
      obtain ⟨rfl, rfl⟩ := Prod.mk.inj performedEq
      cases answered : op.answer before with
      | ok value =>
          rw [answered] at rest
          exact ⟨rest.2, Except.ok.inj rest.1⟩
      | error error =>
          rw [answered] at rest
          cases error with
          | notFound message => exact ⟨rest.2, Except.ok.inj rest.1⟩
          | _ => cases rest.1
    · cases rest.1
  · rintro ⟨rfl, answerEq⟩
    refine ⟨op.answer after, after, .inl ⟨.epoch, StoreOp.perform_answer reads _ _⟩, ?_⟩
    split at answerEq
    · rename_i value answered
      subst answerEq
      rw [answered]
      exact ⟨rfl, rfl⟩
    · rename_i message answered
      subst answerEq
      rw [answered]
      exact ⟨rfl, rfl⟩
    · exact answerEq.elim

omit [OfPortError ε] in
theorem runs_quiet_bind_ok {α β : Type} {program : Service ε α} {next : α → Service ε β}
    (quiet : program.Every PortOp.quiet) {before after : Database} {value : β} :
    (program.bind next).Runs portMeaning before (.ok value) after ↔
      ∃ first, program.Runs portMeaning before (.ok first) before ∧
        (next first).Runs portMeaning before (.ok value) after := by
  constructor
  · exact runs_quiet_bind quiet
  · rintro ⟨first, ran, rest⟩
    exact runs_bind_ok.mpr ⟨first, before, ran, rest⟩

theorem runs_lookup_workspace {id : WorkspaceId} {before after : Database}
    {found : Option Workspace} :
    (lookup (.getWorkspace id) : Service ε (Option Workspace)).Runs portMeaning before (.ok found)
      after ↔ after = before ∧ found = before.workspaces.find id := by
  refine (runs_lookup_ok (show (StoreOp.getWorkspace id).reads = true from rfl)).trans ?_
  have answered : (StoreOp.getWorkspace id).answer before = before.getWorkspace id := rfl
  rw [answered, Database.getWorkspace]
  cases before.workspaces.find id <;> exact Iff.rfl

theorem runs_lookup_binding {id : RepoId} {before after : Database}
    {found : Option RepoBindingView} :
    (lookup (.getBinding id) : Service ε (Option RepoBindingView)).Runs portMeaning before
      (.ok found) after ↔ after = before ∧ found = before.binding id := by
  refine (runs_lookup_ok (show (StoreOp.getBinding id).reads = true from rfl)).trans ?_
  have answered : (StoreOp.getBinding id).answer before = before.getBinding id := rfl
  rw [answered, Database.getBinding, ← Database.binding]
  cases before.binding id <;> exact Iff.rfl

theorem runs_lookup_bind {α : Type} {op : StoreOp} {next : Option op.Answer → Service ε α}
    {value : α} {before after : Database} {found : Option op.Answer} (reads : op.reads = true)
    (looks : ∀ answer after, (lookup op : Service ε (Option op.Answer)).Runs portMeaning before
      (.ok answer) after ↔ after = before ∧ answer = found) :
    ((lookup op).bind next).Runs portMeaning before (.ok value) after ↔
      (next found).Runs portMeaning before (.ok value) after := by
  refine (runs_quiet_bind_ok (every_lookup (show (PortOp.store op).quiet from reads))).trans ?_
  simp only [looks, true_and, exists_eq_left]

omit [OfPortError ε] in
theorem runs_done_ok {α : Type} {result value : α} {before after : Database} :
    (done result : Service ε α).Runs portMeaning before (.ok value) after ↔
      after = before ∧ value = result := by
  simp only [Runs, Except.ok.injEq]
  exact and_comm

theorem runs_workspaceFilingDefault {id : WorkspaceId} {before after : Database}
    {default : Option RepoOriginId} :
    (workspaceFilingDefault id : Service ε (Option RepoOriginId)).Runs portMeaning before
      (.ok default) after ↔ after = before ∧ default = before.filingDefault id :=
  (runs_lookup_bind rfl fun _ _ => runs_lookup_workspace).trans runs_done_ok

theorem runs_logicalOriginFor {task : Task} {before after : Database}
    {logical : Option RepoOriginId} :
    (logicalOriginFor task : Service ε (Option RepoOriginId)).Runs portMeaning before
      (.ok logical) after ↔ after = before ∧ logical = before.logicalOrigin task := by
  unfold logicalOriginFor Database.logicalOrigin
  cases task.repoId with
  | none => exact runs_done_ok
  | some repoId => exact (runs_lookup_bind rfl fun _ _ => runs_lookup_binding).trans runs_done_ok

theorem runs_getOrigin_then {α : Type} {id : RepoOriginId} {make : RepoOrigin → α} {value : α}
    {before after : Database} :
    ((query (.getOrigin id) : Service ε RepoOrigin).bind fun origin => .done (make origin)).Runs
      portMeaning before (.ok value) after ↔
        after = before ∧ (before.getOrigin id).map make = .ok value := by
  refine (runs_quiet_bind_ok (query_quiet (.getOrigin id) rfl)).trans ?_
  have answered : (StoreOp.getOrigin id).answer before = before.getOrigin id := rfl
  simp only [runs_query_ok (show (StoreOp.getOrigin id).reads = true from rfl), answered, true_and]
  cases before.getOrigin id with
  | error error => simp [Except.map]
  | ok origin =>
      constructor
      · rintro ⟨_, found, resultEq, same⟩
        cases found
        exact ⟨same, congrArg Except.ok (Except.ok.inj resultEq).symm⟩
      · rintro ⟨same, resultEq⟩
        exact ⟨origin, rfl, congrArg Except.ok (Except.ok.inj resultEq).symm, same⟩

def Database.filed {α : Type} (database : Database) (origin : Option RepoOriginId)
    (make : RepoOrigin → α) : Except PortError (Option α) :=
  match origin with
  | none => .ok none
  | some id => (database.getOrigin id).map fun row => some (make row)

theorem runs_filed {α : Type} {origin : Option RepoOriginId} (make : RepoOrigin → α)
    {value : Option α} {before after : Database} :
    (match origin with
      | none => .done none
      | some id => (query (.getOrigin id) : Service ε RepoOrigin).bind fun row =>
        .done (some (make row)) : Service ε (Option α)).Runs portMeaning before (.ok value) after ↔
      after = before ∧ before.filed origin make = .ok value := by
  cases origin with
  | none => exact runs_done_ok.trans (by simp [Database.filed, eq_comm])
  | some id => exact runs_getOrigin_then

theorem runs_filingCanonicalFor_ok {task : Task} {before after : Database}
    {canonical : Option String} :
    (filingCanonicalFor task : Service ε (Option String)).Runs portMeaning before (.ok canonical)
      after ↔ after = before ∧
        before.filed (before.filingOrigin task) RepoOrigin.canonicalUrl = .ok canonical := by
  refine (runs_quiet_bind_ok (workspaceFilingDefault_quiet _)).trans ?_
  simp only [runs_workspaceFilingDefault, true_and, exists_eq_left]
  refine (runs_quiet_bind_ok (logicalOriginFor_quiet task)).trans ?_
  simp only [runs_logicalOriginFor, true_and, exists_eq_left]
  exact runs_filed RepoOrigin.canonicalUrl

theorem Database.filed_some {α : Type} {database : Database} {origin : Option RepoOriginId}
    {make : RepoOrigin → α} {value : α} :
    database.filed origin make = .ok (some value) ↔
      (origin.bind database.origins.table.find).map make = some value := by
  cases origin with
  | none => simp [filed]
  | some id =>
      rw [filed, getOrigin, Option.bind_some]
      cases database.origins.table.find id <;> simp [Except.map]

theorem runs_filingCanonicalFor {task : Task} {before after : Database} {canonical : String} :
    (filingCanonicalFor task : Service ε (Option String)).Runs portMeaning before
      (.ok (some canonical)) after ↔
        after = before ∧ before.filingCanonical task = some canonical := by
  rw [runs_filingCanonicalFor_ok, Database.filed_some, Option.map_bind]
  exact Iff.rfl

end Lookups

theorem SyncService.runs_requiredFilingCanonical {task : Task} {database after : Database}
    {canonical : String}
    (ran : (requiredFilingCanonical task).Runs portMeaning database (.ok canonical) after) :
    database.filingCanonical task = some canonical := by
  obtain ⟨found, ranFound, ran⟩ := runs_quiet_bind (filingCanonicalFor_quiet task) ran
  cases found with
  | none => cases ran.1
  | some found =>
      cases ran.1
      exact (runs_filingCanonicalFor.mp ranFound).2

end RepoLink
