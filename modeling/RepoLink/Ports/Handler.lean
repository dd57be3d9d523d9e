import RepoLink.Ports.Calls

/-!
An executable environment: the database answers, the clock stands still, ids count up and the
provider is a given function. Runs on concrete databases are computed with it.
-/

namespace RepoLink

open Effects Program KeyedTable

def Database.nextTaskId (database : Database) : TaskId :=
  ⟨(database.tasks.rows.map fun record => record.id.value).foldr max 0 + 1⟩

def Database.nextEntryId (database : Database) : OutboxEntryId :=
  ⟨(database.outbox.rows.map fun row => row.id.value).foldr max 0 + 1⟩

theorem Database.nextTaskId_fresh (database : Database) :
    database.record database.nextTaskId = none := by
  rw [Database.record, Table.find_none_iff]
  intro member
  obtain ⟨record, recordMember, idEq⟩ := List.mem_map.mp member
  have bound := le_foldr_max (database.tasks.rows.map fun record => record.id.value)
    record.id.value (List.mem_map.mpr ⟨record, recordMember, rfl⟩)
  rw [idEq, Database.nextTaskId] at bound
  exact Nat.not_succ_le_self _ bound

abbrev Provider := (op : ProviderOp) → Except PortError op.Answer

def portsOf (provider : Provider) : Semantics ports Database
  | .provider op, before, answer, after => answer = provider op ∧ after = before
  | op, before, answer, after => portMeaning op before answer after

theorem portsOf_included {provider : Provider} {op : PortOp} {before after : Database}
    {answer : op.Answer} (answered : portsOf provider op before answer after) :
    portMeaning op before answer after := by
  cases op with
  | provider op => exact answered.2
  | _ => exact answered

theorem runs_portsOf {ε α : Type} {provider : Provider} {program : Service ε α}
    {before after : Database} {result : Except ε α}
    (ran : program.Runs (portsOf provider) before result after) :
    program.Runs portMeaning before result after :=
  ran.mono fun _ _ _ _ => portsOf_included

theorem runs_quiet_bind_portsOf {ε α β : Type} {provider : Provider} {program : Service ε α}
    {next : α → Service ε β} (quiet : program.Every PortOp.quiet) {before after : Database}
    {result : Except ε β}
    (ran : (program.bind next).Runs (portsOf provider) before result after) :
    (∃ first, program.Runs (portsOf provider) before (.ok first) before ∧
        (next first).Runs (portsOf provider) before result after) ∨
      (∃ error, result = .error error) ∧ after = before := by
  rcases runs_bind.mp ran with ⟨first, middle, ranFirst, rest⟩ | ⟨error, failed, resultEq⟩
  · have same := runs_quiet quiet (runs_portsOf ranFirst)
    subst same
    exact .inl ⟨first, ranFirst, rest⟩
  · exact .inr ⟨⟨error, resultEq⟩, runs_quiet quiet (runs_portsOf failed)⟩

theorem runs_quiet_bind_portsOf_ok {ε α β : Type} {provider : Provider} {program : Service ε α}
    {next : α → Service ε β} (quiet : program.Every PortOp.quiet) {before after : Database}
    {value : β} (ran : (program.bind next).Runs (portsOf provider) before (.ok value) after) :
    ∃ first, program.Runs (portsOf provider) before (.ok first) before ∧
      (next first).Runs (portsOf provider) before (.ok value) after := by
  rcases runs_quiet_bind_portsOf quiet ran with ran | ⟨⟨_, failed⟩, _⟩
  · exact ran
  · cases failed

theorem runs_remote {ε : Type} [OfPortError ε] {provider : Provider} {op : ProviderOp}
    {before after : Database} {answer : op.Answer}
    (ran : (remote op : Service ε op.Answer).Runs (portsOf provider) before (.ok answer) after) :
    provider op = .ok answer := by
  obtain ⟨result, middle, ⟨answered, _⟩, rest⟩ := ran
  cases result with
  | error error => cases rest.1
  | ok value =>
      cases rest.1
      exact answered.symm

structure Scene where
  database : Database
  minted : Nat

def portHandler (provider : Provider) (now : Timestamp) : Handler ports Scene
  | .now, scene => (now, scene)
  | .freshTaskId, scene => (scene.database.nextTaskId, scene)
  | .freshEntryId, scene =>
    (⟨scene.database.nextEntryId.value + scene.minted⟩,
      { scene with minted := scene.minted + 1 })
  | .freshHash length, scene =>
    (String.ofList (List.replicate (length + scene.database.tasks.rows.length) 'a'), scene)
  | .store op, scene =>
    ((op.perform now scene.database).1,
      { scene with database := (op.perform now scene.database).2 })
  | .provider op, scene => (provider op, scene)

theorem portHandler_portsOf (provider : Provider) (now : Timestamp) (op : PortOp) (scene : Scene) :
    portsOf provider op scene.database (portHandler provider now op scene).1
      (portHandler provider now op scene).2.database := by
  cases op with
  | freshTaskId => exact ⟨scene.database.nextTaskId_fresh, rfl⟩
  | store op => exact .inl ⟨now, rfl⟩
  | provider op => exact ⟨rfl, rfl⟩
  | now => rfl
  | freshEntryId => rfl
  | freshHash length => rfl

theorem portHandler_sound (provider : Provider) (now : Timestamp) (op : PortOp) (scene : Scene) :
    portMeaning op scene.database (portHandler provider now op scene).1
      (portHandler provider now op scene).2.database :=
  portsOf_included (portHandler_portsOf provider now op scene)

def ending {ε α : Type} (provider : Provider) (now : Timestamp) (program : Service ε α)
    (database : Database) : Except ε α × Scene :=
  program.exec (portHandler provider now) ⟨database, 0⟩

def after {ε α : Type} (provider : Provider) (now : Timestamp) (program : Service ε α)
    (database : Database) : Database :=
  (ending provider now program database).2.database

theorem runs_portsOf_of_ok {ε α : Type} {provider : Provider} {now : Timestamp}
    {program : Service ε α} {database : Database}
    (ended : (ending provider now program database).1.isOk = true) :
    ∃ value, program.Runs (portsOf provider) database (.ok value)
      (after provider now program database) := by
  have ran := exec_runs (portHandler_portsOf provider now) program ⟨database, 0⟩
  change program.Runs _ _ (ending provider now program database).1 _ at ran
  cases result : (ending provider now program database).1 with
  | error error =>
      rw [result] at ended
      cases ended
  | ok value =>
      rw [result] at ran
      exact ⟨value, ran⟩

theorem runs_of_ok {ε α : Type} {provider : Provider} {now : Timestamp} {program : Service ε α}
    {database : Database} (ended : (ending provider now program database).1.isOk = true) :
    ∃ value, program.Runs portMeaning database (.ok value)
      (after provider now program database) := by
  obtain ⟨value, ran⟩ := runs_portsOf_of_ok ended
  exact ⟨value, runs_portsOf ran⟩

theorem runs_after {ε α : Type} (provider : Provider) (now : Timestamp) (program : Service ε α)
    (database : Database) :
    program.Runs portMeaning database (ending provider now program database).1
      (after provider now program database) :=
  exec_runs (portHandler_sound provider now) program ⟨database, 0⟩

def twoRepos : Database where
  tasks := .empty
  outbox := .empty
  workspaces := ⟨[⟨⟨1⟩, .active, none, none, none, none⟩], by decide⟩
  projects := .empty
  orgIssueTypes := []
  origins := ⟨⟨[⟨⟨11⟩, "github.com/acme/one", "one"⟩, ⟨⟨12⟩, "github.com/acme/two", "two"⟩],
    by decide⟩, by decide⟩
  instances := ⟨[⟨⟨21⟩, ⟨1⟩, ⟨11⟩, "github.com/acme/one"⟩,
    ⟨⟨22⟩, ⟨1⟩, ⟨12⟩, "github.com/acme/two"⟩], by decide⟩

def oneBoard : Database := { twoRepos with
  workspaces := ⟨[⟨⟨1⟩, .active, some ⟨"PVT_1"⟩, none, none, none⟩], by decide⟩
  projects := ⟨[⟨⟨"PVT_1"⟩, "board", [⟨"F_1", "Status", .status, []⟩], [], []⟩], by decide⟩ }

def obligingProvider : Provider
  | .createRemote request =>
    .ok ⟨"7", some "I_7", request.title, request.body, false, .epoch, request.assignees, []⟩
  | .discoverMoveTarget .. => .ok none
  | .transferIssue .. => .ok ("I_9", 9)
  | .listChangedSince .. => .ok []
  | _ => .error (.network "offline")

end RepoLink
