import RepoLink.Library.Ensures
import RepoLink.Ports.Handler

/-!
Ports that do not fail: every statement is performed, the provider's answers are a function of the
request and no id is given out twice. `draws` says which hashes may be drawn.
-/

namespace RepoLink

open Effects Program KeyedTable

def unfailingPorts (answers : Provider) (draws : Database → String → Prop) :
    Semantics ports Database
  | .now, before, _, after => after = before
  | .freshTaskId, before, id, after => before.record id = none ∧ after = before
  | .freshEntryId, before, id, after =>
    id ∉ before.outbox.rows.map OutboxRow.id ∧ after = before
  | .freshHash _, before, hash, after => draws before hash ∧ after = before
  | .store op, before, answer, after => ∃ instant, op.perform instant before = (answer, after)
  | .provider op, before, answer, after => answer = answers op ∧ after = before

variable {answers : Provider} {draws : Database → String → Prop}

theorem Database.nextEntryId_fresh (database : Database) :
    database.nextEntryId ∉ database.outbox.rows.map OutboxRow.id := by
  intro member
  obtain ⟨row, rowMember, idEq⟩ := List.mem_map.mp member
  have bound := le_foldr_max (database.outbox.rows.map fun row => row.id.value) row.id.value
    (List.mem_map.mpr ⟨row, rowMember, rfl⟩)
  rw [idEq, Database.nextEntryId] at bound
  exact Nat.not_succ_le_self _ bound

theorem unfailingPorts_total (drawable : ∀ database, ∃ hash, draws database hash) :
    (unfailingPorts answers draws).Total := by
  intro op before
  cases op with
  | now => exact ⟨.epoch, before, rfl⟩
  | freshTaskId => exact ⟨before.nextTaskId, before, before.nextTaskId_fresh, rfl⟩
  | freshEntryId => exact ⟨before.nextEntryId, before, before.nextEntryId_fresh, rfl⟩
  | freshHash length =>
      obtain ⟨hash, drawn⟩ := drawable before
      exact ⟨hash, before, drawn, rfl⟩
  | store op => exact ⟨_, _, .epoch, rfl⟩
  | provider op => exact ⟨answers op, before, rfl, rfl⟩

theorem unfailingPorts_mono {wider : Database → String → Prop}
    (included : ∀ database hash, draws database hash → wider database hash) {op : PortOp}
    {before after : Database} {answer : op.Answer}
    (answered : unfailingPorts answers draws op before answer after) :
    unfailingPorts answers wider op before answer after := by
  cases op with
  | freshHash length => exact ⟨included before answer answered.1, answered.2⟩
  | _ => exact answered

section Calls

variable {ε α : Type} {fails : ε → Database → Prop} {database : Database}

abbrev Gives (answers : Provider) (draws : Database → String → Prop) (fails : ε → Database → Prop)
    (program : Service ε α) (database : Database) (value : α) : Prop :=
  program.Ensures (unfailingPorts answers draws) fails
    (fun result after => result = value ∧ after = database) database

theorem Gives.bind {β : Type} {program : Service ε α} {next : α → Service ε β} {value : α}
    {post : β → Database → Prop} (gives : Gives answers draws fails program database value)
    (rest : (next value).Ensures (unfailingPorts answers draws) fails post database) :
    (program.bind next).Ensures (unfailingPorts answers draws) fails post database := by
  refine Ensures.bind gives fun result after same => ?_
  rw [same.1, same.2]
  exact rest

theorem ensures_clock {next : Timestamp → Service ε α} {post : α → Database → Prop}
    (rest : ∀ now, (next now).Ensures (unfailingPorts answers draws) fails post database) :
    (clock.bind next).Ensures (unfailingPorts answers draws) fails post database := by
  intro now after same
  exact same ▸ rest now

theorem ensures_freshTaskId {next : TaskId → Service ε α} {post : α → Database → Prop}
    (rest : ∀ id, database.record id = none →
      (next id).Ensures (unfailingPorts answers draws) fails post database) :
    ((callPort .freshTaskId).bind next).Ensures (unfailingPorts answers draws) fails post
      database := by
  rintro id after ⟨fresh, same⟩
  exact same ▸ rest id fresh

theorem ensures_newEntry {taskId : TaskId} {mutation : OutboxMutation} :
    (newEntry taskId mutation : Service ε OutboxEntry).Ensures (unfailingPorts answers draws) fails
      (fun entry after => entry.id ∉ database.outbox.rows.map OutboxRow.id ∧ after = database)
      database := by
  rintro id middle ⟨fresh, rfl⟩ now after rfl
  exact ⟨fresh, rfl⟩

variable [OfPortError ε]

theorem ensures_query {op : StoreOp} {post : op.Answer → Database → Prop}
    (performed : ∀ instant, ∃ value after,
      op.perform instant database = (.ok value, after) ∧ post value after) :
    (query op : Service ε op.Answer).Ensures (unfailingPorts answers draws) fails post
      database := by
  rintro answer after ⟨instant, same⟩
  obtain ⟨value, last, ran, held⟩ := performed instant
  rw [ran] at same
  cases same
  exact held

theorem gives_query {op : StoreOp} {value : op.Answer}
    (performed : ∀ instant, op.perform instant database = (.ok value, database)) :
    Gives answers draws fails (query op : Service ε op.Answer) database value :=
  ensures_query fun instant => ⟨value, database, performed instant, rfl, rfl⟩

theorem gives_lookup {op : StoreOp} {value : op.Answer}
    (performed : ∀ instant, op.perform instant database = (.ok value, database)) :
    Gives answers draws fails (lookup op : Service ε (Option op.Answer)) database
      (some value) := by
  rintro answer after ⟨instant, same⟩
  rw [performed instant] at same
  cases same
  exact ⟨rfl, rfl⟩

theorem gives_remote {op : ProviderOp} {value : op.Answer} (answered : answers op = .ok value) :
    Gives answers draws fails (remote op : Service ε op.Answer) database value := by
  rintro answer after ⟨same, stayed⟩
  rw [answered] at same
  subst same stayed
  exact ⟨rfl, rfl⟩

theorem ensures_saveAll {writes : List TaskWrite} {entries : List OutboxEntry}
    {post : Unit → Database → Prop}
    (saved : ∀ instant, ∃ after, database.saveAll instant writes entries = .ok after ∧
      post () after) :
    (query (.saveAll writes entries) : Service ε Unit).Ensures (unfailingPorts answers draws) fails
      post database := by
  refine @ensures_query answers draws ε fails database _ (.saveAll writes entries) post ?_
  intro instant
  obtain ⟨after, ran, held⟩ := saved instant
  refine ⟨(), after, ?_, held⟩
  change StoreOp.committing ((database.saveAll instant writes entries).map fun after => ((), after))
    database = _
  rw [ran]
  rfl

end Calls

end RepoLink
