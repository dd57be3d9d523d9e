import RepoLink.Properties.RemoteIdentity

/-!
Where a linked task is addressed. A link rewrites the logical repo and the remote, while the
filing chain asks the recorded filing repo and the workspace default first.
-/

namespace RepoLink

open Effects Program KeyedTable

namespace Database

def CopiesOrigins (database : Database) : Prop :=
  ∀ row ∈ database.instances.rows, ∀ origin,
    database.origins.table.find row.originId = some origin → origin.canonicalUrl = row.canonicalUrl

instance (database : Database) : Decidable database.CopiesOrigins :=
  inferInstanceAs (Decidable (∀ row ∈ database.instances.rows, ∀ origin, _ = some origin → _))

/-- The recorded filing repo, else the workspace default, is this repo or missing. -/
def filesAt (database : Database) (task : Task) (canonical : String) : Bool :=
  match (task.filingRepoId.map RepoId.toOrigin).or (database.filingDefault task.workspaceId) with
  | none => true
  | some id => (database.origins.table.find id).any fun origin => origin.canonicalUrl = canonical

structure SameFilings (before after : Database) : Prop where
  workspaces : after.workspaces = before.workspaces
  origins : after.origins = before.origins
  instances : after.instances = before.instances

theorem findByCanonicalUrl_binding {database : Database} {workspaceId : WorkspaceId}
    {canonical : String} {view : RepoBindingView}
    (found : database.findByCanonicalUrl workspaceId canonical = some view) :
    database.binding view.instanceRow.id = some view ∧
      view.instanceRow.canonicalUrl = canonical := by
  obtain ⟨row, rowFound, viewed⟩ := Option.bind_eq_some_iff.mp found
  have passes := List.find?_some rowFound
  have sameUrl := of_decide_eq_true passes
  obtain ⟨origin, _, rfl⟩ := Option.map_eq_some_iff.mp viewed
  refine ⟨?_, sameUrl.2⟩
  rw [binding, Table.find_of_mem (List.mem_of_find?_eq_some rowFound)]
  exact viewed

theorem filingCanonical_iff_filesAt {database : Database} (copies : database.CopiesOrigins)
    {task : Task} {repoId : RepoId} {view : RepoBindingView} (repo : task.repoId = some repoId)
    (bound : database.binding repoId = some view) :
    database.filingCanonical task = some view.instanceRow.canonicalUrl ↔
      database.filesAt task view.instanceRow.canonicalUrl = true := by
  obtain ⟨row, rowFound, viewed⟩ := Option.bind_eq_some_iff.mp bound
  obtain ⟨origin, originFound, rfl⟩ := Option.map_eq_some_iff.mp viewed
  have logical : database.logicalOrigin task = some row.originId := by
    rw [logicalOrigin, repo, Option.bind_some, bound]
    rfl
  have copied := copies row (Table.find_mem rowFound) origin originFound
  unfold filingCanonical filesAt filingOrigin resolveFilingRepo
  rw [logical]
  cases earlier : (task.filingRepoId.map RepoId.toOrigin).or
      (database.filingDefault task.workspaceId) with
  | none => simp [originFound, copied]
  | some id => cases filed : database.origins.table.find id <;> simp [filed]

end Database

structure Task.LinkedTo (task stored : Task) (database : Database) (canonical remoteId : String) :
    Prop where
  filing : stored.filingRepoId = task.filingRepoId
  workspace : stored.workspaceId = task.workspaceId
  remote : stored.remote.map RemoteRef.remoteId = some remoteId
  bound : ∃ repoId view, stored.repoId = some repoId ∧ database.binding repoId = some view ∧
    view.instanceRow.canonicalUrl = canonical

namespace SyncService

theorem runs_logicalCanonicalFor {task : Task} {before after : Database} {canonical : String}
    (ran : (logicalCanonicalFor task).Runs portMeaning before (.ok canonical) after) :
    ∃ repoId view, task.repoId = some repoId ∧ before.binding repoId = some view ∧
      view.instanceRow.canonicalUrl = canonical := by
  unfold logicalCanonicalFor at ran
  cases repo : task.repoId with
  | none =>
      rw [repo] at ran
      cases ran.1
  | some repoId =>
      rw [repo] at ran
      obtain ⟨view, ranBinding, rest⟩ := runs_quiet_bind (@every_query _ _ _ (.getBinding _) rfl) ran
      obtain ⟨_, found⟩ := (runs_query_ok rfl).mp ranBinding
      refine ⟨repoId, view, rfl, ?_, (Except.ok.inj rest.1).symm⟩
      change before.getBinding repoId = .ok view at found
      unfold Database.getBinding at found
      unfold Database.binding
      split at found
      · cases found
      · rename_i bound
        cases found
        exact bound

theorem logicalCanonicalFor_quiet (task : Task) :
    (logicalCanonicalFor task).Every PortOp.quiet := by
  unfold logicalCanonicalFor
  split
  · trivial
  · exact every_bind (@every_query _ _ _ (.getBinding _) rfl) fun _ => trivial

theorem runs_saveLink {id : TaskId} {task linked result : Task} {canonical remoteId : String}
    {comments : List RemoteComment} {view : RepoBindingView} {before after : Database}
    (ran : (do
      saveTask task linked .link []
      query (.replaceComments id comments)
      return linked : Action Task).Runs portMeaning before (.ok result) after)
    (found : before.findByCanonicalUrl task.workspaceId canonical = some view)
    (sameId : linked.id = id) (filing : linked.filingRepoId = task.filingRepoId)
    (workspace : linked.workspaceId = task.workspaceId)
    (repo : linked.repoId = some view.instanceRow.id)
    (remoteEq : linked.remote.map RemoteRef.remoteId = some remoteId) :
    before.SameFilings after ∧ ∃ stored, after.stored id = some stored ∧
      task.LinkedTo stored after canonical remoteId := by
  obtain ⟨_, saved, ranSave, rest⟩ := runs_bind_ok.mp ran
  obtain ⟨_, commented, ranComments, rest⟩ := runs_bind_ok.mp rest
  obtain ⟨_, rfl⟩ := rest
  obtain ⟨instant, savedPerformed⟩ := runs_query ranSave
  obtain ⟨later, performed⟩ := runs_query ranComments
  have config := StoreOp.perform_config savedPerformed
  have commentConfig := StoreOp.perform_config performed
  have filings : before.SameFilings after :=
    ⟨(StoreOp.perform_workspaces performed nofun).trans
        (StoreOp.perform_workspaces savedPerformed nofun),
      commentConfig.1.trans config.1, commentConfig.2.trans config.2⟩
  have savedRecord := Database.saveAll_single (StoreOp.perform_saveAll_ok savedPerformed) id
  rw [if_pos sameId.symm] at savedRecord
  have stored : after.record id = some ((StoreOp.replaceComments id comments).retouch
      (.write instant .link linked (before.record linked.id))) := by
    rcases StoreOp.perform_record performed with ⟨_, _, saving, _⟩ | retouched
    · cases saving
    · have named : (StoreOp.replaceComments id comments).target = some id := rfl
      rw [retouched id, if_pos named, savedRecord]
      rfl
  obtain ⟨_, sameRemote, sameFiling, sameRepo, sameWorkspace, _⟩ :=
    TaskRecord.write_row_columns instant .link linked (before.record linked.id)
  obtain ⟨bound, url⟩ := Database.findByCanonicalUrl_binding found
  refine ⟨filings, _, congrArg (Option.map TaskRecord.load) stored, sameFiling.trans filing,
    sameWorkspace.trans workspace, (congrArg (Option.map RemoteRef.remoteId) sameRemote).trans
    remoteEq, view.instanceRow.id, view, sameRepo.trans repo, ?_, url⟩
  rw [← bound]
  unfold Database.binding Database.bindingView
  rw [filings.instances, filings.origins]

/-- A link that succeeds: the shortcut leaves all as it was, both modes save the new remote. -/
theorem runs_link {id : TaskId} {canonical remoteId : String} {relink : Bool}
    {before after : Database} {result : Task}
    (ran : (link id canonical remoteId relink).Runs portMeaning before (.ok result) after) :
    before.SameFilings after ∧ ∃ task stored, before.stored id = some task ∧
      after.stored id = some stored ∧ task.LinkedTo stored after canonical remoteId := by
  unfold link at ran
  obtain ⟨task, ranLoad, ran⟩ := runs_quiet_bind (getTask_quiet id) ran
  have taskStored := runs_getTask ranLoad
  have sameId : task.id = id := Database.stored_id taskStored
  -- The shortcut is taken only if the logical repo has the name already.
  obtain ⟨shortcut, rfl⟩ | ran : (task.LinkedTo task before canonical remoteId ∧ after = before) ∨
      Runs portMeaning _ before (.ok result) after := by
    dsimp only at ran
    split at ran
    · rename_i pointing
      obtain ⟨attempted, ranCanonical, ran⟩ :=
        runs_quiet_bind (every_attempt (logicalCanonicalFor_quiet task)) ran
      rw [pure_eq, bind_eq, done_bind] at ran
      split at ran
      · rename_i same
        obtain ⟨inner, ranCanonical, attemptedEq⟩ := runs_attempt.mp ranCanonical
        cases attemptedEq
        cases attempted with
        | error error => cases of_decide_eq_true same
        | ok found =>
            have unchanged : after = before := ran.2
            obtain rfl : found = canonical := Option.some.inj (of_decide_eq_true same)
            refine .inl ⟨⟨rfl, rfl, ?_, runs_logicalCanonicalFor ranCanonical⟩, unchanged⟩
            cases current : task.remote with
            | none =>
                rw [current] at pointing
                cases pointing
            | some remote =>
                rw [current] at pointing
                exact congrArg some (of_decide_eq_true pointing).2
      · exact .inr ran
    · exact .inr ran
  · exact ⟨⟨rfl, rfl, rfl⟩, task, task, taskStored, taskStored, shortcut⟩
  obtain ⟨binding, ranBinding, ran⟩ :=
    runs_quiet_bind (@every_query _ _ _ (.findByCanonicalUrl ..) rfl) ran
  cases binding with
  | none => cases ran.1
  | some view =>
      have found : before.findByCanonicalUrl task.workspaceId canonical = some view :=
        Except.ok.inj ((runs_query_ok rfl).mp ranBinding).2
      suffices saved : before.SameFilings after ∧ ∃ stored, after.stored id = some stored ∧
          task.LinkedTo stored after canonical remoteId by
        obtain ⟨filings, stored, storedAfter, linked⟩ := saved
        exact ⟨filings, task, stored, taskStored, storedAfter, linked⟩
      cases relink with
      | true =>
          change Runs portMeaning (if task.sync ≠ .synced then _ else _) _ _ _ at ran
          split at ran
          · cases ran.1
          cases current : task.remote with
          | none =>
              rw [current] at ran
              cases ran.1
          | some currentRemote =>
              rw [current] at ran
              obtain ⟨currentCanonical, _, ran⟩ :=
                runs_quiet_bind (logicalCanonicalFor_quiet task) ran
              obtain ⟨target, _, ran⟩ :=
                runs_quiet_bind (@every_remote _ _ _ (.discoverMoveTarget ..) trivial) ran
              cases target with
              | none => cases ran.1
              | some target =>
                  dsimp only at ran
                  split at ran
                  · cases ran.1
                  obtain ⟨snap, _, ran⟩ :=
                    runs_quiet_bind (@every_remote _ _ _ (.fetchRemote ..) trivial) ran
                  obtain ⟨now, _, ran⟩ := runs_quiet_bind (every_clock trivial) ran
                  obtain ⟨comments, _, ran⟩ :=
                    runs_quiet_bind (@every_remote _ _ _ (.fetchComments ..) trivial) ran
                  exact runs_saveLink ran found sameId rfl rfl rfl rfl
      | false =>
          obtain ⟨fetched, middle, asked, ran⟩ := ran
          have same : middle = before := asked
          subst same
          obtain error | snap : Except PortError RemoteTaskSnapshot := fetched
          · cases error with
            | issueMoved =>
                obtain ⟨now, _, ran⟩ := runs_quiet_bind (every_clock trivial) ran
                exact runs_saveLink ran found sameId rfl rfl rfl rfl
            | _ => cases ran.1
          · obtain ⟨now, _, ran⟩ := runs_quiet_bind (every_clock trivial) ran
            exact runs_saveLink ran found sameId rfl rfl rfl rfl

end SyncService

/-- After a link the stored task is addressed at the target exactly if no other repo is recorded
as its filing repo, or is the workspace's default for a task without one. -/
theorem link_addresses_target_iff {id : TaskId} {canonical remoteId : String} {relink : Bool}
    {before after : Database} {result : Task} (copies : before.CopiesOrigins)
    (ran : (SyncService.link id canonical remoteId relink).Runs portMeaning before (.ok result)
      after) :
    ∃ task stored, before.stored id = some task ∧ after.stored id = some stored ∧
      (Resolves after stored (canonical, remoteId) ↔ before.filesAt task canonical = true) := by
  obtain ⟨filings, task, stored, taskStored, storedAfter, linked⟩ := SyncService.runs_link ran
  obtain ⟨repoId, view, repo, bound, url⟩ := linked.bound
  have copiesAfter : after.CopiesOrigins := by
    intro row member
    rw [filings.instances] at member
    rw [filings.origins]
    exact copies row member
  have sameStep : after.filesAt stored canonical = before.filesAt task canonical := by
    unfold Database.filesAt Database.filingDefault
    rw [filings.workspaces, filings.origins, linked.filing, linked.workspace]
  refine ⟨task, stored, taskStored, storedAfter, ?_⟩
  have chain := Database.filingCanonical_iff_filesAt copiesAfter repo bound
  rw [url, sameStep] at chain
  rw [resolves_iff_address, Database.address_eq_some, chain]
  exact and_iff_left linked.remote

def linkedAway : Database :=
  ran (SyncService.promote ⟨1⟩) (createdIn ⟨21⟩ "a" twoRepos)

theorem linkedAway_ran : ∃ linked, (SyncService.link ⟨1⟩ "github.com/acme/two" "5" false).Runs
    portMeaning linkedAway (.ok linked)
      (ran (SyncService.link ⟨1⟩ "github.com/acme/two" "5" false) linkedAway) :=
  runs_of_ok (show (ending browsingProvider .epoch
    (SyncService.link ⟨1⟩ "github.com/acme/two" "5" false) linkedAway).1.isOk = true by decide)

/-- The linked task is still addressed in the repo where it was filed. -/
theorem link_leaves_filing_repo :
    ∃ linked stored, (SyncService.link ⟨1⟩ "github.com/acme/two" "5" false).Runs portMeaning
        linkedAway (.ok linked)
        (ran (SyncService.link ⟨1⟩ "github.com/acme/two" "5" false) linkedAway) ∧
      (ran (SyncService.link ⟨1⟩ "github.com/acme/two" "5" false) linkedAway).stored ⟨1⟩ =
        some stored ∧
      Resolves (ran (SyncService.link ⟨1⟩ "github.com/acme/two" "5" false) linkedAway) stored
        ("github.com/acme/one", "5") ∧
      ¬Resolves (ran (SyncService.link ⟨1⟩ "github.com/acme/two" "5" false) linkedAway) stored
        ("github.com/acme/two", "5") := by
  obtain ⟨linked, ranLink⟩ := linkedAway_ran
  refine ⟨linked, _, ranLink, rfl, resolves_iff_address.mpr (by decide), ?_⟩
  rw [resolves_iff_address]
  decide

theorem link_addresses_target_iff_away :
    ∃ task stored, linkedAway.stored ⟨1⟩ = some task ∧
      (ran (SyncService.link ⟨1⟩ "github.com/acme/two" "5" false) linkedAway).stored ⟨1⟩ =
        some stored ∧
      (Resolves (ran (SyncService.link ⟨1⟩ "github.com/acme/two" "5" false) linkedAway) stored
        ("github.com/acme/two", "5") ↔ linkedAway.filesAt task "github.com/acme/two" = true) := by
  obtain ⟨linked, ranLink⟩ := linkedAway_ran
  have copies : linkedAway.CopiesOrigins := by
    unfold Database.CopiesOrigins
    decide
  exact link_addresses_target_iff copies ranLink

end RepoLink
