import RepoLink.Ports.Handler
import RepoLink.Sync.Address
import RepoLink.TaskService.Resolve

/-!
What a task is shown as resolves to the task: its composite id or bare hash, and its UUID. The
UUID reader goes first, so the texts of the other two forms must not look like UUIDs.
-/

namespace RepoLink

open Effects Program KeyedTable

/-- Every task has a hash of the minted shape, and no two have the same. -/
structure Database.HashesIdentify (database : Database) : Prop where
  valid : ∀ record ∈ database.tasks.rows, isValidHash record.row.hash = true
  unique : ∀ left ∈ database.tasks.rows, ∀ right ∈ database.tasks.rows,
    left.row.hash = right.row.hash → left = right

def Database.Prefixed (database : Database) (task : Task) : Prop :=
  ∀ repoId, task.repoId = some repoId → ∃ view, database.binding repoId = some view ∧
    isValidPrefix view.origin.originPrefix = true

def Database.prefixOf (database : Database) (task : Task) : Option String :=
  (task.repoId.bind database.binding).map fun view => view.origin.originPrefix

/-- Without a storage failure the program returns this value and leaves the database alone. -/
def Returns {ε α : Type} (program : Service ε α) (database : Database) (value : α) : Prop :=
  ∀ result after, program.Runs portMeaning database (.ok result) after ↔
    result = value ∧ after = database

theorem returns_done {ε α : Type} (database : Database) (value : α) :
    Returns (.done value : Service ε α) database value := by
  intro result after
  constructor
  · rintro ⟨resultEq, same⟩
    exact ⟨Except.ok.inj resultEq, same⟩
  · rintro ⟨rfl, same⟩
    exact ⟨rfl, same⟩

theorem returns_query {ε : Type} [OfPortError ε] {op : StoreOp} (reads : op.reads = true)
    {database : Database} {value : op.Answer} (answered : op.answer database = .ok value) :
    Returns (query op : Service ε op.Answer) database value := by
  intro result after
  refine (runs_query_ok reads).trans ?_
  rw [answered]
  constructor
  · rintro ⟨same, resultEq⟩
    exact ⟨(Except.ok.inj resultEq).symm, same⟩
  · rintro ⟨rfl, same⟩
    exact ⟨same, rfl⟩

theorem Returns.bind {ε α β : Type} {program : Service ε α} {next : α → Service ε β}
    {database : Database} {first : α} {value : β} (returns : Returns program database first)
    (later : Returns (next first) database value) : Returns (program.bind next) database value := by
  intro result after
  refine Iff.trans ?_ (later result after)
  constructor
  · intro ran
    obtain ⟨found, middle, ranFirst, rest⟩ := runs_bind_ok.mp ran
    obtain ⟨rfl, rfl⟩ := (returns found middle).mp ranFirst
    exact rest
  · intro rest
    exact runs_bind_ok.mpr ⟨first, database, (returns first database).mpr ⟨rfl, rfl⟩, rest⟩

namespace TaskService

theorem returns_prefixFor {database : Database} {task : Task} (prefixed : database.Prefixed task) :
    Returns (prefixFor task) database (database.prefixOf task) := by
  unfold prefixFor Database.prefixOf
  cases repo : task.repoId with
  | none => exact returns_done database none
  | some repoId =>
      obtain ⟨view, bound, _⟩ := prefixed repoId repo
      have answered : (StoreOp.getBinding repoId).answer database = .ok view := by
        change database.getBinding repoId = .ok view
        rw [Database.getBinding, ← Database.binding, bound]
      rw [Option.bind_some, bound]
      exact (returns_query rfl answered).bind (returns_done database _)

theorem returns_checkPrefix {database : Database} {task : Task} {text : String}
    (prefixed : database.Prefixed task) (own : database.prefixOf task = some text)
    (hash : String) : Returns (checkPrefix text hash task) database task := by
  refine (returns_prefixFor prefixed).bind ?_
  rw [own, Option.getD_some, if_neg fun mismatch => mismatch.1 rfl]
  exact returns_done database task

theorem returns_findByHash {database : Database} (hashes : database.HashesIdentify)
    {id : TaskId} {task : Task} (stored : database.stored id = some task) :
    Returns (query (.findByHash task.hash) : Action (Option Task)) database (some task) := by
  obtain ⟨record, found, rfl⟩ := Option.map_eq_some_iff.mp stored
  refine returns_query rfl ?_
  have member := Table.find_mem found
  have nonempty : record.row.hash ≠ "" := by
    intro empty
    have long := (isValidHash_length (hashes.valid record member)).1
    rw [empty] at long
    exact absurd long (by decide)
  change Except.ok (database.findByHash record.row.hash) = .ok (some record.load)
  rw [Database.findByHash, if_neg nonempty, Database.findTask]
  cases first : database.tasks.rows.find? fun row => row.row.hash = record.row.hash with
  | none =>
      have absent := List.find?_eq_none.mp first record member
      simp at absent
  | some other =>
      have sameHash := List.find?_some first
      have same := hashes.unique other (List.mem_of_find?_eq_some first) record member
        (of_decide_eq_true sameHash)
      rw [same]
      rfl

theorem returns_validateHandle {database : Database} {text hash : String}
    {inputPrefix : Option String} (validHash : isValidHash hash = true)
    (validPrefix : ∀ inputText, inputPrefix = some inputText → isValidPrefix inputText = true) :
    Returns (validateHandle text inputPrefix hash) database () := by
  unfold validateHandle
  rw [validHash]
  cases inputPrefix with
  | none => exact returns_done database ()
  | some inputText =>
      dsimp only
      rw [validPrefix inputText rfl]
      exact returns_done database ()

theorem returns_resolveHandle {uuids : UuidFormat} {database : Database}
    (hashes : database.HashesIdentify) {id : TaskId} {task : Task}
    (stored : database.stored id = some task) (prefixed : database.Prefixed task)
    {text : String} {inputPrefix : Option String} (unread : uuids.parse text = none)
    (split : splitHandle text = (inputPrefix, task.hash))
    (own : ∀ inputText, inputPrefix = some inputText →
      isValidPrefix inputText = true ∧ database.prefixOf task = some inputText) :
    Returns (resolveHandle uuids text) database task := by
  obtain ⟨record, found, rfl⟩ := Option.map_eq_some_iff.mp stored
  have validHash := hashes.valid record (Table.find_mem found)
  unfold resolveHandle
  rw [unread]
  dsimp only
  rw [split]
  refine (returns_validateHandle validHash fun inputText same => (own inputText same).1).bind ?_
  refine (returns_findByHash hashes stored).bind ?_
  cases inputPrefix with
  | none => exact returns_done database _
  | some inputText => exact returns_checkPrefix prefixed (own inputText rfl).2 _

end TaskService

/-- The id that is shown for a task, its bare hash and its UUID all resolve to it. -/
theorem display_ids_resolve {uuids : UuidFormat} (reads : uuids.ReadsUuids) {database : Database}
    (hashes : database.HashesIdentify) {id : TaskId} {task : Task}
    (stored : database.stored id = some task)
    (roundTrip : uuids.parse (uuids.render task.id) = some task.id)
    (prefixed : database.Prefixed task) :
    ∃ shown, Returns (TaskService.shownId uuids task) database shown ∧
      ∀ text ∈ [shown, task.hash, uuids.render task.id],
        Returns (TaskService.resolveHandle uuids text) database task := by
  obtain ⟨record, found, taskEq⟩ := Option.map_eq_some_iff.mp stored
  have validHash : isValidHash task.hash = true := by
    rw [← taskEq]
    exact hashes.valid record (Table.find_mem found)
  have unread : ∀ {text : String}, ¬isUuidText text → uuids.parse text = none := by
    intro text shape
    cases parsed : uuids.parse text with
    | none => rfl
    | some other => exact (shape (reads text other parsed)).elim
  have dashless : '-' ∉ task.hash.toList := fun member =>
    absurd (isValidHash_chars validHash '-' member) (by decide)
  have nonempty : task.hash ≠ "" := by
    intro empty
    have long := (isValidHash_length validHash).1
    rw [empty] at long
    exact absurd long (by decide)
  have byHash : Returns (TaskService.resolveHandle uuids task.hash) database task := by
    have split : TaskService.splitHandle task.hash = (none, task.hash) := by
      rw [TaskService.splitHandle, rsplitOnce_none dashless]
    exact TaskService.returns_resolveHandle hashes stored prefixed
      (unread (not_isUuidText_hash validHash)) split nofun
  have byUuid : Returns (TaskService.resolveHandle uuids (uuids.render task.id)) database task := by
    unfold TaskService.resolveHandle
    rw [roundTrip]
    refine returns_query rfl ?_
    change database.getTask task.id = .ok task
    rw [Database.stored_id stored, Database.getTask, stored]
  refine ⟨_, (TaskService.returns_prefixFor prefixed).bind (returns_done database _), ?_⟩
  have byShown : Returns (TaskService.resolveHandle uuids
      (assembleTaskDisplayId uuids task (database.prefixOf task))) database task := by
    rw [assembleTaskDisplayId, if_pos nonempty]
    cases own : database.prefixOf task with
    | none => exact byHash
    | some text =>
        obtain ⟨view, bound, prefixEq⟩ := Option.map_eq_some_iff.mp own
        obtain ⟨repoId, repo, binding⟩ := Option.bind_eq_some_iff.mp bound
        obtain ⟨same, sameBound, valid⟩ := prefixed repoId repo
        cases binding.symm.trans sameBound
        rw [prefixEq] at valid
        have shownPrefix : text ≠ "" := by
          intro empty
          rw [empty] at valid
          exact absurd valid (by decide)
        rw [Option.filter_some_pos (by simpa using shownPrefix)]
        have split : TaskService.splitHandle (text ++ "-" ++ task.hash) = (some text, task.hash) := by
          rw [TaskService.splitHandle, rsplitOnce_append (by decide) dashless]
        refine TaskService.returns_resolveHandle hashes stored prefixed
          (unread (not_isUuidText_composite valid validHash)) split fun inputText same => ?_
        cases same
        exact ⟨valid, own⟩
  intro text member
  simp only [List.mem_cons, List.not_mem_nil, or_false] at member
  rcases member with rfl | rfl | rfl
  · exact byShown
  · exact byHash
  · exact byUuid

def firstUuid : UuidFormat where
  parse text := if text = "00000000-0000-0000-0000-000000000001" then some ⟨1⟩ else none
  render _ := "00000000-0000-0000-0000-000000000001"

theorem firstUuid_reads : firstUuid.ReadsUuids := by
  intro text id parsed
  have shape : isUuidText "00000000-0000-0000-0000-000000000001" :=
    .inl (.inr ⟨by decide, by decide⟩)
  simp only [firstUuid] at parsed
  split at parsed
  · rename_i same
    rw [same]
    exact shape
  · cases parsed

def boundTask : Database :=
  after obligingProvider .epoch
    (TaskService.create { workspaceId := ⟨1⟩, repoId := some ⟨21⟩, title := "t" }) twoRepos

example : (boundTask.stored ⟨1⟩).map
    (fun task => assembleTaskDisplayId firstUuid task (boundTask.prefixOf task)) = some "one-aaa" := by
  decide

theorem display_ids_resolve_bound : ∃ task shown, boundTask.stored ⟨1⟩ = some task ∧
    Returns (TaskService.shownId firstUuid task) boundTask shown ∧
      ∀ text ∈ [shown, task.hash, firstUuid.render task.id],
        Returns (TaskService.resolveHandle firstUuid text) boundTask task := by
  have hashes : boundTask.HashesIdentify := ⟨by decide, by decide⟩
  obtain ⟨task, stored, sameId, repo⟩ : ∃ task, boundTask.stored ⟨1⟩ = some task ∧
      task.id = ⟨1⟩ ∧ task.repoId = some ⟨21⟩ := ⟨_, rfl, rfl, rfl⟩
  have prefixed : boundTask.Prefixed task := by
    intro repoId bound
    rw [repo] at bound
    cases bound
    exact ⟨_, rfl, by decide⟩
  have roundTrip : firstUuid.parse (firstUuid.render task.id) = some task.id := by
    rw [sameId]
    rfl
  obtain ⟨shown, resolves⟩ := display_ids_resolve firstUuid_reads hashes stored roundTrip prefixed
  exact ⟨task, shown, stored, resolves⟩

end RepoLink
