import RepoLink.Properties.DisplayIds
import RepoLink.RepoBindings.Origins

/-!
The prefix half of a composite id is checked against the repo of the task. The check lets through
what looks like a superseded prefix, whether or not another repo owns it by now.
-/

namespace RepoLink

open Effects Program KeyedTable

/-- What the program comes to unless the store fails, which it can; the database stays. -/
structure Settles {α : Type} (program : TaskService.Action α) (database : Database)
    (outcome : Except ServiceError α) : Prop where
  runs : program.Runs portMeaning database outcome database
  only : ∀ result after, program.Runs portMeaning database result after → after = database ∧
    (result = outcome ∨ ∃ failure, result = .error (.port failure))

section Settling

variable {α β : Type} {database : Database}

theorem settles_done (value : α) : Settles (.done value) database (.ok value) :=
  ⟨⟨rfl, rfl⟩, fun _ _ ran => ⟨ran.2, .inl ran.1⟩⟩

theorem settles_fail (error : ServiceError) :
    Settles (.fail error : TaskService.Action α) database (.error error) :=
  ⟨⟨rfl, rfl⟩, fun _ _ ran => ⟨ran.2, .inl ran.1⟩⟩

theorem settles_query {op : StoreOp} (reads : op.reads = true) {value : op.Answer}
    (answered : op.answer database = .ok value) :
    Settles (query op : TaskService.Action op.Answer) database (.ok value) := by
  refine ⟨(runs_query_ok reads).mpr ⟨rfl, answered⟩, fun result after ran => ?_⟩
  refine ⟨runs_quiet (query_quiet op reads) ran, ?_⟩
  cases result with
  | ok found =>
      have same := ((runs_query_ok reads).mp ran).2
      exact .inl (congrArg Except.ok (Except.ok.inj (same.symm.trans answered)))
  | error error =>
      obtain ⟨answer, middle, _, rest⟩ := ran
      cases answer with
      | ok found => cases rest.1
      | error failure => exact .inr ⟨failure, rest.1⟩

theorem Settles.bind {program : TaskService.Action α} {next : α → TaskService.Action β} {first : α}
    {outcome : Except ServiceError β} (settles : Settles program database (.ok first))
    (later : Settles (next first) database outcome) :
    Settles (program.bind next) database outcome := by
  refine ⟨runs_bind.mpr (.inl ⟨first, database, settles.runs, later.runs⟩), fun result after ran => ?_⟩
  rcases runs_bind.mp ran with ⟨found, middle, ranFirst, rest⟩ | ⟨error, failed, rfl⟩
  · obtain ⟨rfl, same | ⟨failure, same⟩⟩ := settles.only _ _ ranFirst
    · cases same
      exact later.only result after rest
    · cases same
  · obtain ⟨same, ends | ⟨failure, ends⟩⟩ := settles.only _ _ failed
    · cases ends
    · cases ends
      exact ⟨same, .inr ⟨failure, rfl⟩⟩

end Settling

namespace TaskService

variable {database : Database}

theorem settles_prefixFor {task : Task} {actual : String}
    (own : database.prefixOf task = some actual) :
    Settles (prefixFor task) database (.ok (some actual)) := by
  obtain ⟨view, bound, rfl⟩ := Option.map_eq_some_iff.mp own
  obtain ⟨repoId, repo, binding⟩ := Option.bind_eq_some_iff.mp bound
  have answered : (StoreOp.getBinding repoId).answer database = .ok view := by
    change database.getBinding repoId = .ok view
    rw [Database.getBinding, ← Database.binding, binding]
  unfold prefixFor
  rw [repo]
  exact (settles_query rfl answered).bind (settles_done _)

theorem settles_checkPrefix {task : Task} {inputPrefix actual : String} (hash : String)
    (own : database.prefixOf task = some actual) (different : inputPrefix ≠ actual) :
    Settles (checkPrefix inputPrefix hash task) database
      (if isSupersededPrefix inputPrefix actual then .ok task
        else .error (.prefixMismatch inputPrefix actual hash)) := by
  refine (settles_prefixFor own).bind ?_
  rw [Option.getD_some]
  cases superseded : isSupersededPrefix inputPrefix actual with
  | true =>
      rw [if_pos rfl, if_neg fun mismatch => by simp [superseded] at mismatch]
      exact settles_done task
  | false =>
      rw [if_neg Bool.false_ne_true, if_pos ⟨Ne.symm different, by simp [superseded]⟩]
      exact settles_fail _

theorem settles_findByHash (hashes : database.HashesIdentify) {id : TaskId} {task : Task}
    (stored : database.stored id = some task) :
    Settles (query (.findByHash task.hash) : Action (Option Task)) database (.ok (some task)) := by
  have returns := returns_findByHash hashes stored
  exact settles_query rfl ((runs_query_ok rfl).mp ((returns _ _).mpr ⟨rfl, rfl⟩)).2

theorem settles_resolveHandle {uuids : UuidFormat} (reads : uuids.ReadsUuids)
    (hashes : database.HashesIdentify) {id : TaskId} {task : Task}
    (stored : database.stored id = some task) {inputPrefix actual : String}
    (valid : isValidPrefix inputPrefix = true) (own : database.prefixOf task = some actual)
    (different : inputPrefix ≠ actual) :
    Settles (resolveHandle uuids (inputPrefix ++ "-" ++ task.hash)) database
      (if isSupersededPrefix inputPrefix actual then .ok task
        else .error (.prefixMismatch inputPrefix actual task.hash)) := by
  have validHash : isValidHash task.hash = true := by
    obtain ⟨record, found, rfl⟩ := Option.map_eq_some_iff.mp stored
    exact hashes.valid record (Table.find_mem found)
  have dashless : '-' ∉ task.hash.toList := fun member =>
    absurd (isValidHash_chars validHash '-' member) (by decide)
  have unread : uuids.parse (inputPrefix ++ "-" ++ task.hash) = none := by
    cases parsed : uuids.parse (inputPrefix ++ "-" ++ task.hash) with
    | none => rfl
    | some other => exact (not_isUuidText_composite valid validHash (reads _ other parsed)).elim
  have split : splitHandle (inputPrefix ++ "-" ++ task.hash) = (some inputPrefix, task.hash) := by
    rw [splitHandle, rsplitOnce_append (by decide) dashless]
  have accepted : Settles (validateHandle (inputPrefix ++ "-" ++ task.hash) (some inputPrefix)
      task.hash) database (.ok ()) := by
    unfold validateHandle
    rw [validHash]
    dsimp only
    rw [valid]
    exact settles_done ()
  unfold resolveHandle
  rw [unread]
  dsimp only
  rw [split]
  exact accepted.bind ((settles_findByHash hashes stored).bind
    (settles_checkPrefix task.hash own different))

/-- A composite whose prefix belongs to another origin is refused exactly if the prefix is not the
task's own one with digits behind it. -/
theorem resolveHandle_refuses_iff {uuids : UuidFormat} (reads : uuids.ReadsUuids)
    (hashes : database.HashesIdentify) {id : TaskId} {task : Task}
    (stored : database.stored id = some task) {inputPrefix actual : String}
    (own : database.prefixOf task = some actual) (different : inputPrefix ≠ actual)
    (owned : ∃ other ∈ database.origins.table.rows, other.originPrefix = inputPrefix ∧
      isValidPrefix other.originPrefix = true) :
    Settles (resolveHandle uuids (inputPrefix ++ "-" ++ task.hash)) database
        (.error (.prefixMismatch inputPrefix actual task.hash)) ↔
      isSupersededPrefix inputPrefix actual = false := by
  obtain ⟨other, _, rfl, valid⟩ := owned
  have settles := settles_resolveHandle reads hashes stored valid own different
  cases superseded : isSupersededPrefix other.originPrefix actual with
  | false =>
      rw [superseded, if_neg Bool.false_ne_true] at settles
      exact iff_of_true settles rfl
  | true =>
      rw [superseded, if_pos rfl] at settles
      refine iff_of_false (fun refused => ?_) Bool.noConfusion
      rcases (refused.only _ _ settles.runs).2 with same | ⟨_, same⟩
      · cases same
      · cases same

def namesakeRepos : Database := { twoRepos with
  origins := ⟨⟨[⟨⟨11⟩, "github.com/acme/repo-link", "rpl"⟩,
    ⟨⟨12⟩, "github.com/other/repo-link", "rpl1"⟩], by decide⟩, by decide⟩
  instances := ⟨[⟨⟨21⟩, ⟨1⟩, ⟨11⟩, "github.com/acme/repo-link"⟩,
    ⟨⟨22⟩, ⟨1⟩, ⟨12⟩, "github.com/other/repo-link"⟩], by decide⟩ }

example : RepoBindingService.candidate "rpl" 1 = "rpl1" := by decide

def namesakeTask : Database :=
  after obligingProvider .epoch
    (create { workspaceId := ⟨1⟩, repoId := some ⟨21⟩, title := "t" }) namesakeRepos

/-- The other repo's prefix and the hash of the task resolve to the task. -/
theorem resolveHandle_accepts_namesake :
    ∃ task, ∃ other ∈ namesakeTask.origins.table.rows, namesakeTask.stored ⟨1⟩ = some task ∧
      namesakeTask.prefixOf task = some "rpl" ∧ other.originPrefix = "rpl1" ∧
      Settles (resolveHandle firstUuid ("rpl1" ++ "-" ++ task.hash)) namesakeTask (.ok task) := by
  have hashes : namesakeTask.HashesIdentify := ⟨by decide, by decide⟩
  obtain ⟨task, stored, own⟩ : ∃ task, namesakeTask.stored ⟨1⟩ = some task ∧
      namesakeTask.prefixOf task = some "rpl" := ⟨_, rfl, rfl⟩
  refine ⟨task, ⟨⟨12⟩, "github.com/other/repo-link", "rpl1"⟩, by decide, stored, own, rfl, ?_⟩
  exact settles_resolveHandle firstUuid_reads hashes stored (by decide) own (by decide)

theorem resolveHandle_refuses_other :
    ∃ task, boundTask.stored ⟨1⟩ = some task ∧
      (Settles (resolveHandle firstUuid ("two" ++ "-" ++ task.hash)) boundTask
          (.error (.prefixMismatch "two" "one" task.hash)) ↔
        isSupersededPrefix "two" "one" = false) := by
  have hashes : boundTask.HashesIdentify := ⟨by decide, by decide⟩
  obtain ⟨task, stored, own⟩ : ∃ task, boundTask.stored ⟨1⟩ = some task ∧
      boundTask.prefixOf task = some "one" := ⟨_, rfl, rfl⟩
  refine ⟨task, stored, ?_⟩
  exact resolveHandle_refuses_iff firstUuid_reads hashes stored own (by decide)
    ⟨⟨⟨12⟩, "github.com/acme/two", "two"⟩, by decide, rfl, by decide⟩

end TaskService

end RepoLink
