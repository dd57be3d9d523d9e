import Mathlib.Data.List.Dedup
import Mathlib.Data.List.Perm.Lattice
import RepoLink.Properties.TaskAggregate
import RepoLink.Sync.Drainer

/-!
What a sent update confirms: the baseline that the transmitted fields leave behind, and the
assignees that are compared with the response. Assignees are compared as sets, but their number is
compared first, so repeats count, although the order does not.
-/

namespace RepoLink

open Effects Program

namespace Task

/-- `after` is `before` with the patch merged over its baseline `prior`; the diff names the fields
that still differ from what was merged. -/
structure Rebaselined (now : Timestamp) (patch : MirrorPatch) (prior merged : TaskSnapshot)
    (before after : Task) : Prop where
  title : merged.title = patch.title.getD prior.title
  body : merged.body = patch.body.getD prior.body
  lifecycle : merged.lifecycle = patch.status.getD prior.lifecycle
  assignees : merged.assignees = patch.assignees.getD prior.assignees
  frame : after =
    { before with syncedBaseline := some merged, sync := after.sync, updatedAt := now }
  diffTitle : after.diffAgainstBaseline.title =
    if before.title = merged.title then none else some before.title
  diffBody : after.diffAgainstBaseline.body =
    if before.body = merged.body then none else some before.body
  diffStatus : after.diffAgainstBaseline.status =
    if before.lifecycle = merged.lifecycle then none else some before.lifecycle
  diffAssignees : after.diffAgainstBaseline.assignees =
    if assigneesEqual before.assignees merged.assignees then none else some before.assignees
  sync : after.sync = if after.diffAgainstBaseline.isEmpty then .synced else .dirtyLocal

theorem reconcile_frame (task : Task) : task.reconcileDirtyAgainstBaseline =
    { task with sync := task.reconcileDirtyAgainstBaseline.sync } := by
  unfold reconcileDirtyAgainstBaseline
  split <;> rfl

def rebased (now : Timestamp) (source : SnapshotSource) (patch : MirrorPatch) (prior : TaskSnapshot)
    (task : Task) : Task :=
  ({ task with syncedBaseline := some (mergeBaseline source patch prior), sync := .synced }).touch now

theorem reconcile_rebaselined (now : Timestamp) (source : SnapshotSource) (patch : MirrorPatch)
    (prior : TaskSnapshot) (task : Task) :
    Rebaselined now patch prior (mergeBaseline source patch prior) task
      (task.rebased now source patch prior).reconcileDirtyAgainstBaseline where
  title := rfl
  body := rfl
  lifecycle := rfl
  assignees := rfl
  frame := by
    rw [reconcile_frame]
    rfl
  diffTitle := by
    rw [reconcile_diff]
    simp [diffAgainstBaseline, rebased, touch, MirrorField.differs]
  diffBody := by
    rw [reconcile_diff]
    simp [diffAgainstBaseline, rebased, touch, MirrorField.differs]
  diffStatus := by
    rw [reconcile_diff]
    simp [diffAgainstBaseline, rebased, touch, MirrorField.differs]
  diffAssignees := by
    rw [reconcile_diff]
    by_cases equal :
        assigneesEqual task.assignees (mergeBaseline source patch prior).assignees = true
    · simp [diffAgainstBaseline, rebased, touch, MirrorField.differs, equal]
    · simp [diffAgainstBaseline, rebased, touch, MirrorField.differs, equal]
  sync := by
    have rederived := @reconcile_sync (task.rebased now source patch prior) _ rfl
    rw [reconcile_diff, rederived]
    change (transitionTable .synced _).getD .synced = _
    cases (task.rebased now source patch prior).diffAgainstBaseline.isEmpty <;> rfl

/-- A refusal changes nothing; a success overwrites the baseline by the patch and nothing else. -/
theorem confirmSyncedFields_exact (now : Timestamp) (source : SnapshotSource) (patch : MirrorPatch)
    (task : Task) :
    match task.confirmSyncedFields now source patch with
    | (.error _, after) => after = task
    | (.ok _, after) => ∃ prior merged, task.syncedBaseline = some prior ∧
        after.syncedBaseline = some merged ∧ Rebaselined now patch prior merged task after := by
  rw [confirmSyncedFields]
  by_cases refused : source ≠ .promote ∧ source ≠ .push ∧ source ≠ .pull ∧ source ≠ .conflictResolve
  · rw [if_pos refused]
  · rw [if_neg refused]
    cases confirmable source patch task.sync with
    | error error => rfl
    | ok admitted =>
        cases held : task.syncedBaseline with
        | none => rfl
        | some prior =>
            refine ⟨prior, _, rfl, reconcile_syncedBaseline _, ?_⟩
            exact reconcile_rebaselined now source patch prior task

theorem getD_differing {α : Type} {differs : Bool} {mine known : α}
    (same : differs = false → mine = known) :
    (if differs = true then some mine else none).getD known = mine := by
  cases differs with
  | true => rfl
  | false => exact (same rfl).symm

/-- The confirmation of all that a task owes leaves nothing to push. -/
theorem confirm_own_diff {now : Timestamp} {task after : Task}
    (confirms : (task.confirmSyncedFields now .push task.diffAgainstBaseline).attempt =
      .ok after) : after.sync = .synced := by
  unfold confirmSyncedFields at confirms
  split at confirms
  · cases confirms
  · split at confirms
    · cases confirms
    · split at confirms
      · cases confirms
      · rename_i prior held
        cases confirms
        change (task.rebased now .push task.diffAgainstBaseline
          prior).reconcileDirtyAgainstBaseline.sync = _
        have rebaselined := reconcile_rebaselined now .push task.diffAgainstBaseline prior task
        have empty : (task.rebased now .push task.diffAgainstBaseline
            prior).reconcileDirtyAgainstBaseline.diffAgainstBaseline.isEmpty = true := by
          unfold MirrorPatch.isEmpty
          rw [rebaselined.diffTitle, rebaselined.diffBody, rebaselined.diffStatus,
            rebaselined.diffAssignees, rebaselined.title, rebaselined.body, rebaselined.lifecycle,
            rebaselined.assignees]
          simp only [diffAgainstBaseline, held]
          rw [@getD_differing _ (MirrorField.title.differs task prior) task.title _
              (by simp [MirrorField.differs]),
            @getD_differing _ (MirrorField.body.differs task prior) task.body _
              (by simp [MirrorField.differs]),
            @getD_differing _ (MirrorField.status.differs task prior) task.lifecycle _
              (by simp [MirrorField.differs])]
          cases same : MirrorField.assignees.differs task prior with
          | true => simp [assigneesEqual_self]
          | false => simp_all [MirrorField.differs]
        rw [rebaselined.sync, empty, if_pos rfl]

end Task

section ReadBack

open OutboxDrainer

/-- The request that an `UpdateRemote` sends for the task that it loads, if it sends one. -/
def Task.owedUpdate (canonicalRepo remoteId : String) (task : Task) : Option RemoteTaskUpdate :=
  if OutboxDrainer.confirmable task.sync then
    buildUpdateFromPatch task.diffAgainstBaseline canonicalRepo remoteId
  else none

theorem assigneesConfirmed_iff {sent : List String} {snap : RemoteTaskSnapshot} :
    assigneesConfirmed (some sent) snap = true ↔ snap.assignees = sent := by
  simp only [assigneesConfirmed, Bool.or_eq_true, decide_eq_true_eq, Bool.and_eq_true,
    List.isEmpty_iff]
  constructor
  · rintro (same | ⟨rfl, empty⟩)
    · exact same
    · exact empty
  · exact .inl

variable {σ : Type} {meaning : Semantics ports σ} {taskId : TaskId} {task : Task}
  {response : RemoteTaskUpdate → Except PortError RemoteTaskSnapshot}
  (loads : ∀ before answer after,
    meaning (.store (.getTask taskId)) before answer after → answer = .ok task)
  (answers : ∀ update before answer after,
    meaning (.provider (.updateRemote update)) before answer after → answer = response update)

include answers in
theorem runs_sendUpdate {owed : Option RemoteTaskUpdate} {before after : σ}
    {result : Except SyncError (Option ApplyDisposition)}
    (ran : (sendUpdate owed).Runs meaning before result after) :
    ∃ disposition, result = .ok disposition ∧
      (disposition = some (.conflict .assigneeMismatch) ↔ ∃ update sent snap, owed = some update ∧
        update.assignees = some sent ∧ response update = .ok snap ∧ snap.assignees ≠ sent) := by
  cases owed with
  | none => exact ⟨none, ran.1, iff_of_false nofun fun ⟨_, _, _, absent, _⟩ => nomatch absent⟩
  | some update =>
      obtain ⟨answer, middle, answered, rest⟩ := ran
      obtain rfl := answers _ _ _ _ answered
      cases answeredWith : response update with
      | error error =>
          rw [answeredWith] at rest
          refine ⟨_, rest.1, iff_of_false nofun ?_⟩
          rintro ⟨_, _, _, same, _, ok, _⟩
          rw [← Option.some.inj same, answeredWith] at ok
          cases ok
      | ok snap =>
          rw [answeredWith] at rest
          change Program.Runs meaning (if assigneesConfirmed update.assignees snap then _ else _)
            _ _ _ at rest
          by_cases confirmed : assigneesConfirmed update.assignees snap = true
          · rw [if_pos confirmed] at rest
            refine ⟨none, rest.1, iff_of_false nofun ?_⟩
            rintro ⟨_, sent, _, same, sentEq, ok, differs⟩
            cases same
            rw [answeredWith] at ok
            cases ok
            rw [sentEq, assigneesConfirmed_iff] at confirmed
            exact differs confirmed
          · rw [if_neg confirmed] at rest
            refine ⟨_, rest.1, iff_of_true rfl ?_⟩
            cases sentEq : update.assignees with
            | none =>
                rw [sentEq] at confirmed
                exact absurd rfl confirmed
            | some sent =>
                rw [sentEq, assigneesConfirmed_iff] at confirmed
                exact ⟨update, sent, snap, rfl, sentEq, answeredWith, confirmed⟩

include loads answers in
theorem runs_applyUpdateRemote {canonicalRepo remoteId : String} {before after : σ}
    {result : Except SyncError ApplyDisposition}
    (ran : (applyUpdateRemote taskId canonicalRepo remoteId).Runs meaning before result after) :
    result = .ok (.conflict .assigneeMismatch) ↔ ∃ update sent snap,
      task.owedUpdate canonicalRepo remoteId = some update ∧ update.assignees = some sent ∧
        response update = .ok snap ∧ snap.assignees ≠ sent := by
  obtain ⟨answer, middle, answered, rest⟩ := ran
  obtain rfl := loads _ _ _ answered
  change Program.Runs meaning (if !OutboxDrainer.confirmable task.sync then _ else _) _ _ _ at rest
  rw [Task.owedUpdate]
  by_cases owing : OutboxDrainer.confirmable task.sync = true
  · rw [owing, Bool.not_true, if_neg Bool.false_ne_true] at rest
    rw [if_pos owing]
    rcases runs_bind.mp rest with ⟨disposition, later, sent, rest⟩ | ⟨error, failed, rfl⟩
    · obtain ⟨_, same, spec⟩ := runs_sendUpdate answers sent
      cases same
      rw [← spec]
      cases disposition with
      | some disposition =>
          rw [rest.1]
          simp
      | none =>
          refine iff_of_false (fun conflicted => ?_) nofun
          rw [conflicted] at rest
          have stamps : Program.Yields (fun disposition => disposition = .stamped) (do
              let now ← clock
              let confirmed ← settled (task.confirmSyncedFields now .push
                task.diffAgainstBaseline).attempt
              saveTask task confirmed .push
              return .stamped : OutboxDrainer.Action ApplyDisposition) :=
            (yields_any _).bind fun _ _ => (yields_any _).bind fun _ _ =>
              (yields_any _).bind fun _ _ => rfl
          exact nomatch stamps.runs rest
    · obtain ⟨_, same, _⟩ := runs_sendUpdate answers failed
      cases same
  · rw [Bool.eq_false_of_not_eq_true owing, Bool.not_false, if_pos rfl] at rest
    rw [if_neg owing, rest.1]
    exact iff_of_false nofun fun ⟨_, _, _, absent, _⟩ => nomatch absent

include loads answers in
/-- An `UpdateRemote` ends in an assignee conflict exactly if the sets of logins differ, unless a
response lists what was sent in another order. -/
theorem assignee_readback_iff {entry : OutboxEntry} {canonicalRepo remoteId : String}
    {title body : Option String} {closed : Option Bool} (owner : entry.taskId = taskId)
    (updates : entry.mutation = .updateRemote canonicalRepo remoteId title body closed)
    {before after : σ} {result : Except SyncError ApplyDisposition}
    (ran : (apply entry).Runs meaning before result after) :
    (result = .ok (.conflict .assigneeMismatch) ↔ ∃ update sent snap,
      task.owedUpdate canonicalRepo remoteId = some update ∧ update.assignees = some sent ∧
        response update = .ok snap ∧ ¬∀ login, login ∈ snap.assignees ↔ login ∈ sent) ↔
    ∀ update sent snap, task.owedUpdate canonicalRepo remoteId = some update →
      update.assignees = some sent → response update = .ok snap →
      (∀ login, login ∈ snap.assignees ↔ login ∈ sent) → snap.assignees = sent := by
  rw [apply, updates, owner] at ran
  rw [runs_applyUpdateRemote loads answers ran]
  constructor
  · intro agrees update sent snap owed sentEq answered same
    by_contra differs
    obtain ⟨update', sent', snap', owed', sentEq', answered', setsDiffer⟩ :=
      agrees.mp ⟨update, sent, snap, owed, sentEq, answered, differs⟩
    cases owed.symm.trans owed'
    cases sentEq.symm.trans sentEq'
    cases answered.symm.trans answered'
    exact setsDiffer same
  · intro ordered
    constructor
    · rintro ⟨update, sent, snap, owed, sentEq, answered, differs⟩
      exact ⟨update, sent, snap, owed, sentEq, answered,
        fun same => differs (ordered update sent snap owed sentEq answered same)⟩
    · rintro ⟨update, sent, snap, owed, sentEq, answered, setsDiffer⟩
      exact ⟨update, sent, snap, owed, sentEq, answered,
        fun same => setsDiffer fun login => by rw [same]⟩

def showing (task : Task) (snap : RemoteTaskSnapshot) : Handler ports Unit
  | .now, _ => (.epoch, ())
  | .freshTaskId, _ => (⟨1⟩, ())
  | .freshEntryId, _ => (⟨1⟩, ())
  | .freshHash _, _ => ("", ())
  | .store (.getTask _), _ => (.ok task, ())
  | .store (.saveAll ..), _ => (.ok (), ())
  | .store _, _ => (.error (.backend "closed"), ())
  | .provider (.updateRemote _), _ => (.ok snap, ())
  | .provider _, _ => (.error (.network "offline"), ())

def answered (task : Task) (snap : RemoteTaskSnapshot) : Semantics ports Unit :=
  fun op before answer after => (answer, after) = showing task snap op before

def assignedMirror : Task := { markedMirror with assignees := ["ann", "bob"] }

theorem assignedMirror_sends {update : RemoteTaskUpdate} {sent : List String}
    (owed : assignedMirror.owedUpdate "github.com/o/r" "1" = some update)
    (sentEq : update.assignees = some sent) : sent = ["ann", "bob"] := by
  have only : assignedMirror.owedUpdate "github.com/o/r" "1" =
      some ⟨"github.com/o/r", "1", none, none, none, none, some ["ann", "bob"]⟩ := by decide
  cases only.symm.trans owed
  exact (Option.some.inj sentEq).symm

def assignedUpdate : OutboxEntry :=
  .new .epoch ⟨1⟩ ⟨1⟩ (.updateRemote "github.com/o/r" "1" none none none)

def assignedIssue (assignees : List String) : RemoteTaskSnapshot :=
  ⟨"1", none, "title", "", true, .epoch, assignees, []⟩

def readBack (assignees : List String) : Except SyncError ApplyDisposition :=
  ((apply assignedUpdate).exec (showing assignedMirror (assignedIssue assignees)) ()).1

theorem readBack_ran (assignees : List String) :
    (apply assignedUpdate).Runs (answered assignedMirror (assignedIssue assignees)) ()
      (readBack assignees) () :=
  @exec_runs ports Unit _ _ Unit (answered assignedMirror (assignedIssue assignees))
    (showing assignedMirror (assignedIssue assignees)) id (fun _ _ => rfl) (apply assignedUpdate) ()

/-- The two logins come back in the other order. -/
theorem reordered_assignees_conflict :
    ¬(readBack ["bob", "ann"] = .ok (.conflict .assigneeMismatch) ↔ ∃ update sent,
      assignedMirror.owedUpdate "github.com/o/r" "1" = some update ∧ update.assignees = some sent ∧
        ¬∀ login, login ∈ (assignedIssue ["bob", "ann"]).assignees ↔ login ∈ sent) := by
  have conflict : readBack ["bob", "ann"] = .ok (.conflict .assigneeMismatch) := by decide
  intro agrees
  obtain ⟨update, sent, owed, sentEq, differ⟩ := agrees.mp conflict
  obtain rfl := assignedMirror_sends owed sentEq
  exact differ fun login => by simp [assignedIssue, or_comm]

theorem assignee_readback_iff_same_order :
    (readBack ["ann", "bob"] = .ok (.conflict .assigneeMismatch) ↔ ∃ update sent snap,
      assignedMirror.owedUpdate "github.com/o/r" "1" = some update ∧
        update.assignees = some sent ∧ (.ok (assignedIssue ["ann", "bob"]) : Except PortError _) =
          .ok snap ∧ ¬∀ login, login ∈ snap.assignees ↔ login ∈ sent) := by
  refine (@assignee_readback_iff Unit (answered assignedMirror (assignedIssue ["ann", "bob"])) ⟨1⟩
    assignedMirror (fun _ => .ok (assignedIssue ["ann", "bob"])) ?_ ?_ assignedUpdate _ _ _ _ _ rfl
    rfl () () _ (readBack_ran ["ann", "bob"])).mpr ?_
  · rintro _ _ _ same
    exact (Prod.mk.inj same).1
  · rintro _ _ _ _ same
    exact (Prod.mk.inj same).1
  · intro update sent snap owed sentEq response _
    obtain rfl := assignedMirror_sends owed sentEq
    cases response
    rfl

end ReadBack

section Assignees

def SameLogins (left right : List String) : Prop := ∀ login, login ∈ left ↔ login ∈ right

theorem sameLogins_equivalence : Equivalence SameLogins where
  refl _ _ := Iff.rfl
  symm same login := (same login).symm
  trans one other login := (one login).trans (other login)

theorem sameLogins_dedup (logins : List String) : SameLogins logins logins.dedup :=
  fun _ => List.mem_dedup.symm

theorem length_dedup_iff (logins : List String) :
    logins.length = logins.dedup.length ↔ logins.Nodup := by
  constructor
  · intro same
    rw [← List.dedup_eq_self]
    exact (List.dedup_sublist logins).eq_of_length same.symm
  · intro distinct
    rw [distinct.dedup]

/-- It is an equivalence, and it is the equality of the sets for exactly the lists of one length
and those that differ as sets. A list equals itself without repeats if it has none. -/
theorem assignees_compared (left right : List String) :
    ((assigneesEqual left right = true ↔ SameLogins left right) ↔
      left.length = right.length ∨ ¬SameLogins left right) ∧
    (assigneesEqual left left.dedup = true ↔ left.Nodup) ∧
    (∀ (task : Task) (baseline : TaskSnapshot),
      (MirrorField.assignees.differs task baseline = true ↔
          ¬SameLogins task.assignees baseline.assignees) ↔
        task.assignees.length = baseline.assignees.length ∨
          ¬SameLogins task.assignees baseline.assignees) ∧
    Equivalence fun left right => assigneesEqual left right = true := by
  have exactly : ∀ left right : List String,
      (assigneesEqual left right = true ↔ SameLogins left right) ↔
        left.length = right.length ∨ ¬SameLogins left right := by
    intro left right
    rw [assigneesEqual_iff]
    change (left.length = right.length ∧ SameLogins left right ↔ SameLogins left right) ↔ _
    rw [and_iff_right_iff_imp, imp_iff_or_not]
  refine ⟨exactly left right, ?_, ?_, ?_, ?_, ?_⟩
  · rw [assigneesEqual_iff, length_dedup_iff]
    exact and_iff_left (sameLogins_dedup left)
  · intro task baseline
    rw [← exactly, MirrorField.differs, Bool.not_eq_true', ← Bool.not_eq_true, not_iff_not]
  · exact assigneesEqual_self
  · intro one other same
    obtain ⟨length, logins⟩ := assigneesEqual_iff.mp same
    exact assigneesEqual_iff.mpr ⟨length.symm, sameLogins_equivalence.symm logins⟩
  · intro one two three first second
    obtain ⟨oneLength, oneLogins⟩ := assigneesEqual_iff.mp first
    obtain ⟨twoLength, twoLogins⟩ := assigneesEqual_iff.mp second
    exact assigneesEqual_iff.mpr
      ⟨oneLength.trans twoLength, sameLogins_equivalence.trans oneLogins twoLogins⟩

/-- A login that is named twice makes a difference. -/
theorem repeatedAssignee_differs :
    ¬∀ left right, assigneesEqual left right = true ↔ SameLogins left right := by
  intro always
  have same : SameLogins ["ann", "ann"] ["ann"] := by simp [SameLogins]
  exact absurd ((always _ _).mpr same) (by decide)

end Assignees

end RepoLink
