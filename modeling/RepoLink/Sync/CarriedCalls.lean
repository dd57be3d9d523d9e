import RepoLink.Sync.Address
import RepoLink.Sync.DrainTurns
import RepoLink.Sync.Service

/-!
Runs on a store that carries out every call, while the provider may answer anything. The reads of
such a run are determined by the database.
-/

namespace RepoLink

open Effects Program

def carriedOut : Semantics ports Journal
  | .store op, before, answer, after =>
    (∃ instant, op.perform instant before.1 = (answer, after.1)) ∧
      after.2 = before.2 ++ [⟨.store op, answer⟩]
  | op, before, answer, after => journaled op before answer after

def declined : Call ports → Bool
  | ⟨.store op, answer⟩ => !(answer : Except PortError op.Answer).isOk
  | ⟨.provider op, answer⟩ => !(answer : Except PortError op.Answer).isOk
  | _ => false

theorem carriedOut_journaled {op : PortOp} {before after : Journal} {answer : op.Answer}
    (answered : carriedOut op before answer after) : journaled op before answer after := by
  cases op with
  | store op => exact ⟨.inl answered.1, answered.2⟩
  | _ => exact answered

theorem carriedOut_calls {op : PortOp} {before after : Journal} {answer : op.Answer}
    (answered : carriedOut op before answer after) : after.2 = before.2 ++ [⟨op, answer⟩] :=
  (carriedOut_journaled answered).2

structure Calls (kind : PortOp → Prop) (before after : Journal) : Prop where
  calls : ∃ later, after.2 = before.2 ++ later ∧ ∀ call ∈ later, kind call.1

theorem Calls.ofEvery {kind : PortOp → Prop} {ε α : Type} {program : Service ε α}
    (all : program.Every kind) {before after : Journal} {result : Except ε α}
    (ran : program.Runs carriedOut before result after) : Calls kind before after := by
  refine all.runs (Calls kind) (fun _ => ⟨[], by simp, by simp⟩)
    (fun {first second third} earlier later => ?_) (fun op permitted before answer after ran => ?_)
    ran
  · obtain ⟨firstCalls, firstEq, firstAll⟩ := earlier.calls
    obtain ⟨nextCalls, nextEq, nextAll⟩ := later.calls
    exact ⟨firstCalls ++ nextCalls, by rw [nextEq, firstEq, List.append_assoc],
      List.forall_mem_append.mpr ⟨firstAll, nextAll⟩⟩
  · exact ⟨_, carriedOut_calls ran, List.forall_mem_singleton.mpr permitted⟩

/-- A program that stops with an error at the first call that is declined, and nowhere else. -/
def Strict {ε α : Type} : Service ε α → Prop
  | .done _ => True
  | .fail _ => False
  | .call op next => ∀ answer : op.Answer, (declined ⟨op, answer⟩ = true ∧
      ∃ error, next answer = .fail error) ∨ (declined ⟨op, answer⟩ = false ∧ Strict (next answer))

theorem Strict.bind {ε α β : Type} {program : Service ε α} {next : α → Service ε β}
    (first : Strict program) (second : ∀ value, Strict (next value)) :
    Strict (program.bind next) := by
  induction program with
  | done value => exact second value
  | fail error => exact first.elim
  | call op rest ih =>
      intro answer
      rcases first answer with ⟨refused, error, failed⟩ | ⟨accepted, strict⟩
      · exact .inl ⟨refused, error, congrArg (Program.bind · next) failed⟩
      · exact .inr ⟨accepted, ih answer strict⟩

theorem Strict.foldEach {ε α β : Type} {body : β → α → Service ε β}
    (each : ∀ value item, Strict (body value item)) :
    ∀ (items : List α) (value : β), Strict (Program.foldEach body items value) := by
  intro items
  induction items with
  | nil => exact fun _ => trivial
  | cons item rest ih => exact fun value => (each value item).bind fun next => ih next

theorem strict_query {ε : Type} [OfPortError ε] (op : StoreOp) :
    Strict (query op : Service ε op.Answer) := by
  intro answer
  cases answer with
  | ok value => exact .inr ⟨rfl, trivial⟩
  | error error => exact .inl ⟨rfl, _, rfl⟩

theorem strict_remote {ε : Type} [OfPortError ε] (op : ProviderOp) :
    Strict (remote op : Service ε op.Answer) := by
  intro answer
  cases answer with
  | ok value => exact .inr ⟨rfl, trivial⟩
  | error error => exact .inl ⟨rfl, _, rfl⟩

theorem Strict.runs {ε α : Type} {program : Service ε α} (strict : Strict program)
    {before after : Journal} {outcome : Except ε α}
    (ran : program.Runs carriedOut before outcome after) : ∃ later, after.2 = before.2 ++ later ∧
      (outcome.isOk = true ↔ ∀ call ∈ later, declined call = false) := by
  induction program generalizing before with
  | done value =>
      obtain ⟨rfl, rfl⟩ := ran
      exact ⟨[], by simp, by simp [Except.isOk, Except.toBool]⟩
  | fail error => exact strict.elim
  | call op next ih =>
      obtain ⟨answer, middle, answered, rest⟩ := ran
      have called := carriedOut_calls answered
      rcases strict answer with ⟨refused, error, failed⟩ | ⟨accepted, further⟩
      · rw [failed] at rest
        obtain ⟨rfl, rfl⟩ := rest
        exact ⟨_, called, iff_of_false Bool.false_ne_true fun all =>
          Bool.false_ne_true ((all _ (List.mem_singleton_self _)).symm.trans refused)⟩
      · obtain ⟨later, laterEq, spec⟩ := ih answer further rest
        refine ⟨⟨op, answer⟩ :: later, by rw [laterEq, called, List.append_assoc]; rfl, ?_⟩
        rw [spec, List.forall_mem_cons]
        exact ⟨fun all => ⟨accepted, all⟩, And.right⟩

section Reads

variable {ε : Type} [OfPortError ε]

theorem carried_query {op : StoreOp} {before after : Journal} {outcome : Except ε op.Answer}
    (ran : (query op).Runs carriedOut before outcome after) :
    ∃ instant answer, op.perform instant before.1 = (answer, after.1) ∧
      outcome = answer.mapError ofPortError ∧ after.2 = before.2 ++ [⟨.store op, answer⟩] := by
  obtain ⟨answer, last, ⟨⟨instant, performed⟩, called⟩, rest⟩ := ran
  cases answer with
  | ok value =>
      obtain ⟨rfl, rfl⟩ := rest
      exact ⟨instant, _, performed, rfl, called⟩
  | error error =>
      obtain ⟨rfl, rfl⟩ := rest
      exact ⟨instant, _, performed, rfl, called⟩

theorem carried_read {op : StoreOp} (reads : op.reads = true) {before after : Journal}
    {outcome : Except ε op.Answer} (ran : (query op).Runs carriedOut before outcome after) :
    outcome = (op.answer before.1).mapError ofPortError ∧ after.1 = before.1 := by
  obtain ⟨instant, answer, performed, rfl, _⟩ := carried_query ran
  rw [StoreOp.perform_answer reads] at performed
  obtain ⟨rfl, same⟩ := Prod.mk.inj performed
  exact ⟨rfl, same.symm⟩

theorem carried_lookup {op : StoreOp} (reads : op.reads = true) {found : Option op.Answer}
    {message : String} {before after : Journal}
    (finds : op.answer before.1 = found.elim (.error (.notFound message)) .ok)
    {outcome : Except ε (Option op.Answer)}
    (ran : (lookup op).Runs carriedOut before outcome after) :
    outcome = .ok found ∧ after.1 = before.1 := by
  obtain ⟨answer, last, ⟨⟨instant, performed⟩, called⟩, rest⟩ := ran
  rw [StoreOp.perform_answer reads, finds] at performed
  obtain ⟨rfl, same⟩ := Prod.mk.inj performed
  cases found <;> exact ⟨rest.1, rest.2 ▸ same.symm⟩

theorem getWorkspace_finds (id : WorkspaceId) (database : Database) :
    (StoreOp.getWorkspace id).answer database =
      (database.workspaces.find id).elim (.error (.notFound "workspace")) .ok := by
  change database.getWorkspace id = _
  unfold Database.getWorkspace
  cases database.workspaces.find id <;> rfl

theorem getBinding_finds (id : RepoId) (database : Database) :
    (StoreOp.getBinding id).answer database =
      (database.binding id).elim (.error (.notFound "repo instance")) .ok := by
  change database.getBinding id = _
  unfold Database.getBinding Database.binding
  cases (database.instances.find id).bind database.bindingView <;> rfl

theorem carried_workspaceFilingDefault {id : WorkspaceId} {before after : Journal}
    {outcome : Except ε (Option RepoOriginId)}
    (ran : (workspaceFilingDefault id).Runs carriedOut before outcome after) :
    outcome = .ok (before.1.filingDefault id) ∧ after.1 = before.1 := by
  rcases runs_bind.mp ran with ⟨workspace, middle, looked, rest⟩ | ⟨error, failed, rfl⟩
  · obtain ⟨found, same⟩ := carried_lookup rfl (getWorkspace_finds id _) looked
    cases found
    exact ⟨rest.1, rest.2 ▸ same⟩
  · cases (carried_lookup rfl (getWorkspace_finds id _) failed).1

theorem carried_logicalOriginFor {task : Task} {before after : Journal}
    {outcome : Except ε (Option RepoOriginId)}
    (ran : (logicalOriginFor task).Runs carriedOut before outcome after) :
    outcome = .ok (before.1.logicalOrigin task) ∧ after.1 = before.1 := by
  unfold logicalOriginFor at ran
  unfold Database.logicalOrigin
  cases repo : task.repoId with
  | none =>
      rw [repo] at ran
      exact ⟨ran.1, congrArg Prod.fst ran.2⟩
  | some repoId =>
      rw [repo] at ran
      rcases runs_bind.mp ran with ⟨view, middle, looked, rest⟩ | ⟨error, failed, rfl⟩
      · obtain ⟨found, same⟩ := carried_lookup rfl (getBinding_finds repoId _) looked
        cases found
        exact ⟨rest.1, rest.2 ▸ same⟩
      · cases (carried_lookup rfl (getBinding_finds repoId _) failed).1

theorem getOrigin_finds (id : RepoOriginId) (database : Database) :
    (StoreOp.getOrigin id).answer database =
      (database.origins.table.find id).elim (.error (.notFound "repo origin")) .ok := by
  change database.getOrigin id = _
  unfold Database.getOrigin
  cases database.origins.table.find id <;> rfl

/-- The filing repo of a task, when it has one, resolves exactly if its origin is stored. -/
theorem carried_filingCanonicalFor {task : Task} {before after : Journal}
    {outcome : Except ε (Option String)}
    (ran : (filingCanonicalFor task).Runs carriedOut before outcome after) :
    after.1 = before.1 ∧ (outcome = .ok (before.1.filingCanonical task) ∨
      before.1.filingCanonical task = none ∧ ∃ error, outcome = .error error) := by
  rcases runs_bind.mp ran with ⟨default, first, ranDefault, ran⟩ | ⟨error, failed, rfl⟩
  · obtain ⟨defaultEq, firstEq⟩ := carried_workspaceFilingDefault ranDefault
    rcases runs_bind.mp ran with ⟨logical, second, ranLogical, ran⟩ | ⟨error, failed, rfl⟩
    · obtain ⟨logicalEq, secondEq⟩ := carried_logicalOriginFor ranLogical
      rw [firstEq] at secondEq logicalEq
      cases defaultEq
      cases logicalEq
      unfold Database.filingCanonical Database.filingOrigin
      cases chosen : resolveFilingRepo (task.filingRepoId.map RepoId.toOrigin)
          (before.1.filingDefault task.workspaceId) (before.1.logicalOrigin task) with
      | none =>
          rw [chosen] at ran
          exact ⟨ran.2 ▸ secondEq, .inl ran.1⟩
      | some originId =>
          rw [chosen] at ran
          rw [Option.bind_some]
          rcases runs_bind.mp ran with ⟨origin, third, ranOrigin, ran⟩ | ⟨error, failed, rfl⟩
          · obtain ⟨answered, thirdEq⟩ := carried_read rfl ranOrigin
            rw [getOrigin_finds, secondEq] at answered
            cases found : before.1.origins.table.find originId with
            | none =>
                rw [found] at answered
                cases answered
            | some stored =>
                rw [found] at answered
                cases answered
                exact ⟨ran.2 ▸ thirdEq.trans secondEq, .inl ran.1⟩
          · obtain ⟨answered, thirdEq⟩ := carried_read rfl failed
            rw [getOrigin_finds, secondEq] at answered
            cases found : before.1.origins.table.find originId with
            | none => exact ⟨thirdEq.trans secondEq, .inr ⟨rfl, error, rfl⟩⟩
            | some stored =>
                rw [found] at answered
                cases answered
    · cases (carried_logicalOriginFor failed).1
  · cases (carried_workspaceFilingDefault failed).1

end Reads

namespace SyncService

theorem carried_requiredFilingCanonical {task : Task} {before after : Journal}
    {outcome : Except SyncError String}
    (ran : (requiredFilingCanonical task).Runs carriedOut before outcome after) :
    after.1 = before.1 ∧ ((∃ canonical, before.1.filingCanonical task = some canonical ∧
        outcome = .ok canonical) ∨
      before.1.filingCanonical task = none ∧ ∃ error, outcome = .error error) := by
  rcases runs_bind.mp ran with ⟨found, middle, looked, rest⟩ | ⟨error, failed, rfl⟩
  · obtain ⟨same, answered | ⟨_, _, failed⟩⟩ := carried_filingCanonicalFor looked
    · cases answered
      cases canonical : before.1.filingCanonical task with
      | none =>
          rw [canonical] at rest
          exact ⟨rest.2 ▸ same, .inr ⟨rfl, _, rest.1⟩⟩
      | some value =>
          rw [canonical] at rest
          exact ⟨rest.2 ▸ same, .inl ⟨value, rfl, rest.1⟩⟩
    · cases failed
  · obtain ⟨same, answered | ⟨missing, _⟩⟩ := carried_filingCanonicalFor failed
    · cases answered
    · exact ⟨same, .inr ⟨missing, error, rfl⟩⟩

end SyncService

end RepoLink
