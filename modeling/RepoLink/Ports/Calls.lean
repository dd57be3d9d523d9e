import RepoLink.Ports.Signature

/-!
The calls that only look. A program made of them leaves the database as it was, so the proofs
about a service follow its writes alone.
-/

namespace RepoLink

open Effects Program

def StoreOp.reads : StoreOp → Bool
  | .getTask _ | .findByHash _ | .findByRemote .. | .trackedRemoteIds .. | .listTasks _
  | .getSnapshot .. | .getWorkspace _ | .getProject _ | .listProjects
  | .listProjectsByWorkspace _ | .getOrgIssueTypes _ | .getOrigin _ | .getBinding _
  | .findByCanonicalUrl .. | .findByRemoteMapping .. | .listPending _ => true
  | _ => false

def StoreOp.locates : StoreOp → Bool
  | .getWorkspace _ | .getBinding _ | .getOrigin _ => true
  | _ => false

theorem StoreOp.reads_of_locates {op : StoreOp} (locates : op.locates = true) :
    op.reads = true := by
  cases op <;> first | rfl | cases locates

def PortOp.quiet : PortOp → Prop
  | .store op => op.reads = true
  | _ => True

theorem StoreOp.perform_reads {op : StoreOp} (reads : op.reads = true) (instant : Timestamp)
    (database : Database) : (op.perform instant database).2 = database := by
  cases op <;> first | rfl | cases reads

theorem StoreOp.perform_error {op : StoreOp} {instant : Timestamp} {before after : Database}
    {error : PortError} (failed : op.perform instant before = (.error error, after)) :
    after = before := by
  have committed : ∀ {α : Type} {result : Except PortError (α × Database)},
      StoreOp.committing result before = (.error error, after) → after = before := by
    intro α result
    cases result with
    | ok pair => intro same; cases same
    | error other => intro same; cases same; rfl
  cases op <;> first
    | exact committed failed
    | cases failed
    | exact (congrArg Prod.snd failed).symm

theorem PortOp.quiet_meaning {op : PortOp} (quiet : op.quiet) {before after : Database}
    {answer : op.Answer} (answered : portMeaning op before answer after) : after = before := by
  cases op with
  | store op =>
      rcases answered with ⟨instant, performed⟩ | ⟨_, _, same⟩
      · have unchanged := StoreOp.perform_reads quiet instant before
        rw [performed] at unchanged
        exact unchanged
      · exact same
  | freshTaskId => exact answered.2
  | now => exact answered
  | freshEntryId => exact answered
  | freshHash length => exact answered
  | provider op => exact answered

theorem runs_quiet {ε α : Type} {program : Service ε α} (quiet : program.Every PortOp.quiet)
    {before after : Database} {result : Except ε α}
    (ran : program.Runs portMeaning before result after) : after = before := by
  induction program generalizing before with
  | done value => exact ran.2
  | fail error => exact ran.2
  | call op next ih =>
      obtain ⟨answer, middle, answered, rest⟩ := ran
      have same := PortOp.quiet_meaning quiet.1 answered
      subst same
      exact ih answer (quiet.2 answer) rest

section Calls

variable {ε : Type} [OfPortError ε] {allowed : PortOp → Prop}

theorem every_required {α : Type} (result : Except PortError α) :
    (required result : Service ε α).Every allowed := by
  cases result <;> trivial

theorem every_query {op : StoreOp} (permitted : allowed (.store op)) :
    (query op : Service ε op.Answer).Every allowed :=
  ⟨permitted, fun answer => every_required answer⟩

theorem query_quiet (op : StoreOp) (reads : op.reads = true) :
    (query op : Service ε op.Answer).Every PortOp.quiet := every_query reads

theorem getTask_quiet (id : TaskId) :
    (query (.getTask id) : Service ε Task).Every PortOp.quiet := every_query rfl

theorem getSnapshot_quiet (id : TaskId) (version : Nat) :
    (query (.getSnapshot id version) : Service ε TaskSnapshot).Every PortOp.quiet :=
  every_query rfl

theorem every_remote {op : ProviderOp} (permitted : allowed (.provider op)) :
    (remote op : Service ε op.Answer).Every allowed :=
  ⟨permitted, fun answer => every_required answer⟩

theorem every_lookup {op : StoreOp} (permitted : allowed (.store op)) :
    (lookup op : Service ε (Option op.Answer)).Every allowed := by
  refine ⟨permitted, ?_⟩
  intro answer
  cases answer with
  | ok value => trivial
  | error error => cases error <;> trivial

omit [OfPortError ε] in
theorem every_callPort {op : PortOp} (permitted : allowed op) :
    (callPort op : Service ε op.Answer).Every allowed := ⟨permitted, fun _ => trivial⟩

omit [OfPortError ε] in
theorem every_clock (permitted : allowed .now) : (clock : Service ε Timestamp).Every allowed :=
  every_callPort permitted

theorem runs_query {op : StoreOp} {before after : Database} {answer : op.Answer}
    (ran : (query op : Service ε op.Answer).Runs portMeaning before (.ok answer) after) :
    ∃ instant, op.perform instant before = (.ok answer, after) := by
  obtain ⟨result, middle, performed, rest⟩ := ran
  cases result with
  | error error => cases rest.1
  | ok value =>
      obtain ⟨valueEq, rfl⟩ := rest
      cases valueEq
      rcases performed with performed | ⟨_, failed, _⟩
      · exact performed
      · cases failed

theorem runs_query_error {op : StoreOp} {before after : Database} {error : ε}
    (ran : (query op : Service ε op.Answer).Runs portMeaning before (.error error) after) :
    after = before := by
  obtain ⟨result, middle, performed, rest⟩ := ran
  cases result with
  | ok value => cases rest.1
  | error portError =>
      obtain ⟨_, rfl⟩ := rest
      rcases performed with ⟨instant, performedEq⟩ | ⟨_, _, same⟩
      · exact StoreOp.perform_error performedEq
      · exact same

theorem runs_getTask {id : TaskId} {before after : Database} {task : Task}
    (ran : (query (.getTask id) : Service ε Task).Runs portMeaning before (.ok task) after) :
    before.stored id = some task := by
  obtain ⟨_, performed⟩ := runs_query ran
  exact Database.getTask_ok (congrArg Prod.fst performed)

theorem runs_getSnapshot {id : TaskId} {version : Nat} {before after : Database}
    {snapshot : TaskSnapshot}
    (ran : (query (.getSnapshot id version) : Service ε TaskSnapshot).Runs portMeaning before
      (.ok snapshot) after) :
    ∃ record, before.record id = some record ∧ record.snapshots.get version = some snapshot := by
  obtain ⟨_, performed⟩ := runs_query ran
  have found : before.getSnapshot id version = .ok snapshot := congrArg Prod.fst performed
  unfold Database.getSnapshot at found
  split at found
  · cases found
  · rename_i stored storedEq
    cases found
    exact Option.bind_eq_some_iff.mp storedEq

theorem runs_saveAll {writes : List TaskWrite} {entries : List OutboxEntry}
    {before after : Database} {answer : Unit}
    (ran : (query (.saveAll writes entries) : Service ε Unit).Runs portMeaning before
      (.ok answer) after) :
    ∃ instant, before.saveAll instant writes entries = .ok after := by
  obtain ⟨instant, performed⟩ := runs_query ran
  exact ⟨instant, StoreOp.perform_saveAll_ok performed⟩

omit [OfPortError ε] in
theorem runs_quiet_bind {α β : Type} {program : Service ε α} {next : α → Service ε β}
    (quiet : program.Every PortOp.quiet) {before after : Database} {value : β}
    (ran : (program.bind next).Runs portMeaning before (.ok value) after) :
    ∃ first, program.Runs portMeaning before (.ok first) before ∧
      (next first).Runs portMeaning before (.ok value) after := by
  obtain ⟨first, middle, ranFirst, rest⟩ := runs_bind_ok.mp ran
  have same := runs_quiet quiet ranFirst
  subst same
  exact ⟨first, ranFirst, rest⟩

omit [OfPortError ε] in
theorem runs_quiet_cases {α β : Type} {program : Service ε α} {next : α → Service ε β}
    (quiet : program.Every PortOp.quiet) {before after : Database} {result : Except ε β}
    (ran : (program.bind next).Runs portMeaning before result after) :
    (∃ first, program.Runs portMeaning before (.ok first) before ∧
        (next first).Runs portMeaning before result after) ∨
      after = before ∧ ∃ error, result = .error error := by
  rcases runs_bind.mp ran with ⟨first, middle, ranFirst, rest⟩ | ⟨error, failed, resultEq⟩
  · have same := runs_quiet quiet ranFirst
    subst same
    exact .inl ⟨first, ranFirst, rest⟩
  · exact .inr ⟨runs_quiet quiet failed, error, resultEq⟩

omit [OfPortError ε] in
theorem runs_quiet_first {α β : Type} {program : Service ε α} {next : α → Service ε β}
    (quiet : program.Every PortOp.quiet) {before after : Database} {result : Except ε β}
    (ran : (program.bind next).Runs portMeaning before result after) :
    (∃ first, program.Runs portMeaning before (.ok first) before ∧
        (next first).Runs portMeaning before result after) ∨ after = before :=
  (runs_quiet_cases quiet ran).imp_right And.left

theorem runs_saveAll_first {α : Type} {writes : List TaskWrite} {entries : List OutboxEntry}
    {next : Unit → Service ε α} (quiet : ∀ answer, (next answer).Every PortOp.quiet)
    {before after : Database} {result : Except ε α}
    (ran : ((query (.saveAll writes entries) : Service ε Unit).bind next).Runs portMeaning before
      result after) :
    (∃ instant, before.saveAll instant writes entries = .ok after) ∨ after = before := by
  rcases runs_bind.mp ran with ⟨answer, middle, saved, rest⟩ | ⟨_, failed, _⟩
  · have same := runs_quiet (quiet answer) rest
    subst same
    exact .inl (runs_saveAll saved)
  · exact .inr (runs_query_error failed)

end Calls

end RepoLink
