import RepoLink.Daemon.GracePass

/-!
How many ticks in a row found a worktree missing before the daemon removed its link.

The counters live as long as the daemon; the store is whatever the users of the tracker left
between two ticks. A mark-only probe resets no counter, so a tick that sees a worktree again and
is aborted before its grace pass leaves the old count behind.
-/

namespace RepoLink

open KeyedTable Effects

namespace Daemon

open DaemonWorld

abbrev ProbeHistory := List (List PathProbe)

def missingStreak (path : String) : ProbeHistory → Nat
  | [] => 0
  | probes :: earlier =>
    if probes.any fun probe => probe.path = path ∧ probe.present then 0
    else if probes.any fun probe => probe.path = path then missingStreak path earlier + 1
    else missingStreak path earlier

structure TickRecord where
  start : DaemonWorld
  result : Except DaemonError TickReport
  after : DaemonWorld

namespace TickRecord

/-- A tick of a daemon whose counters stand at `counts`, in any store. -/
structure Follows (settings : Settings) (counts : WorktreeKey → Nat) (record : TickRecord) :
    Prop where
  missCounts : record.start.missCounts = counts
  unprobed : record.start.probes = []
  unremoved : record.start.unlinked = []
  ran : (tickOnce settings).Runs meaning record.start record.result record.after

/-- Every removal comes after enough ticks that found the path missing, and a completed tick
keeps the counters of the links it found missing and did not remove. -/
structure Graceful (settings : Settings) (history : ProbeHistory) (record : TickRecord) :
    Prop where
  removals : ∀ removal ∈ record.after.unlinked,
    settings.missingGraceTicks ≤ missingStreak removal.key.path (removal.probes :: history)
  counters : ∀ report, record.result = .ok report → settings.prune = true → ∀ key,
    record.after.sawMissing key →
    record.after.missCounts key = bumped (record.start.missCounts key) ∨
      ∃ removal ∈ record.after.unlinked, removal.key = key

/-- A path that the tick sees present is not missed by a grace probe of the same tick, and a
counter of it that was running is decided by its grace probe, unless the tick completes. -/
structure Steady (record : TickRecord) : Prop where
  agreeing : ∀ probe ∈ record.after.probes, probe.present = true →
    ∀ key : WorktreeKey, key.path = probe.path → ¬record.after.sawMissing key
  settled : ∀ probe ∈ record.after.probes, probe.present = true →
    ∀ key : WorktreeKey, key.path = probe.path → record.start.missCounts key = 0 ∨
      (∃ report, record.result = .ok report) ∨ record.after.sawPresent key

end TickRecord

/-- The ticks of one daemon, each as `allowed`, with the probes and the counters they leave. -/
inductive Ticks (settings : Settings) (allowed : TickRecord → Prop) :
    ProbeHistory → (WorktreeKey → Nat) → Prop where
  | boot : Ticks settings allowed [] fun _ => 0
  | tick {history counts record} (earlier : Ticks settings allowed history counts)
      (follows : record.Follows settings counts) (permitted : allowed record) :
      Ticks settings allowed (record.after.probes :: history) record.after.missCounts

theorem missingStreak_missing {path : String} {probes : List PathProbe} {history : ProbeHistory}
    (absent : ∀ probe ∈ probes, probe.path = path → probe.present = false)
    (probed : ∃ probe ∈ probes, probe.path = path) :
    missingStreak path (probes :: history) = missingStreak path history + 1 := by
  have unseen : ¬(probes.any fun probe => decide (probe.path = path ∧ probe.present)) = true := by
    simp only [List.any_eq_true, decide_eq_true_eq, not_exists, not_and]
    exact fun probe member same => ne_true_of_eq_false (absent probe member same)
  rw [missingStreak, if_neg unseen, if_pos (by simpa [List.any_eq_true] using probed)]

theorem missingStreak_unprobed {path : String} {probes : List PathProbe} {history : ProbeHistory}
    (unprobed : ∀ probe ∈ probes, probe.path ≠ path) :
    missingStreak path (probes :: history) = missingStreak path history := by
  rw [missingStreak, if_neg, if_neg]
  · simpa [List.any_eq_true] using unprobed
  · simp only [List.any_eq_true, decide_eq_true_eq, not_exists, not_and]
    exact fun probe member same => absurd same (unprobed probe member)

def Covered (settings : Settings) (history : ProbeHistory) (counts : WorktreeKey → Nat) : Prop :=
  ∀ key, counts key ≤ missingStreak key.path history ∧ (settings.prune = false → counts key = 0)

theorem covered_tick {settings : Settings} {history : ProbeHistory} {counts : WorktreeKey → Nat}
    {record : TickRecord} (covered : Covered settings history counts)
    (follows : record.Follows settings counts) (steady : record.Steady) :
    Covered settings (record.after.probes :: history) record.after.missCounts := by
  have outcome := tickOnce_runs follows.unprobed follows.unremoved follows.ran
  intro key
  obtain ⟨bound, off⟩ := covered key
  rw [← follows.missCounts] at bound off
  have unpruned : settings.prune = false → record.after.missCounts key = 0 := by
    intro disabled
    have unseen : key ∉ record.after.graced := fun member => by
      have enabled := outcome.pruning key member
      rw [disabled] at enabled
      cases enabled
    have stayed := outcome.idle key unseen
    rw [off disabled] at stayed
    omega
  refine ⟨?_, unpruned⟩
  by_cases seen : ∃ probe ∈ record.after.probes, probe.path = key.path ∧ probe.present = true
  · obtain ⟨probe, member, samePath, present⟩ := seen
    have notMissing := steady.agreeing probe member present key samePath.symm
    have dropped : record.after.missCounts key = 0 := by
      rcases steady.settled probe member present key samePath.symm with zero | ⟨report, done⟩ | saw
      · by_cases saw : record.after.sawPresent key
        · exact outcome.present key saw
        · have unseen : key ∉ record.after.graced := fun graced => by
            rcases outcome.decided key graced with isMissing | isPresent
            · exact notMissing isMissing
            · exact saw isPresent
          have stayed := outcome.idle key unseen
          omega
      · cases enabled : settings.prune with
        | false => exact unpruned enabled
        | true =>
            by_contra running
            exact notMissing (outcome.completed report done enabled key running)
      · exact outcome.present key saw
    omega
  · have absent : ∀ probe ∈ record.after.probes, probe.path = key.path →
        probe.present = false := fun probe member same =>
      eq_false_of_ne_true fun present => seen ⟨probe, member, same, present⟩
    by_cases probed : ∃ probe ∈ record.after.probes, probe.path = key.path
    · rw [missingStreak_missing absent probed]
      by_cases saw : record.after.sawMissing key
      · have moved := outcome.missing key saw
        omega
      · have unseen : key ∉ record.after.graced := fun graced => by
          rcases outcome.decided key graced with isMissing | isPresent
          · exact saw isMissing
          · have impossible := absent _ isPresent rfl
            cases impossible
        have stayed := outcome.idle key unseen
        omega
    · rw [missingStreak_unprobed fun probe member same => probed ⟨probe, member, same⟩]
      have unseen : key ∉ record.after.graced := fun graced => by
        rcases outcome.decided key graced with saw | saw
        · exact probed ⟨_, saw, rfl⟩
        · exact probed ⟨_, saw, rfl⟩
      have stayed := outcome.idle key unseen
      omega

theorem Ticks.covered {settings : Settings} {history : ProbeHistory} {counts : WorktreeKey → Nat}
    (run : Ticks settings TickRecord.Steady history counts) : Covered settings history counts := by
  induction run with
  | boot => exact fun _ => ⟨Nat.zero_le _, fun _ => rfl⟩
  | tick _ follows steady covered => exact covered_tick covered follows steady

end Daemon

open Daemon DaemonWorld

/-- In a run of steady ticks no link is removed before its grace has passed, and no completed
tick loses the count of a link it found missing. -/
theorem grace_before_prune {settings : Settings} {history : ProbeHistory}
    {counts : WorktreeKey → Nat} {record : TickRecord}
    (run : Ticks settings TickRecord.Steady history counts)
    (follows : record.Follows settings counts) (steady : record.Steady) :
    record.Graceful settings history := by
  have outcome := tickOnce_runs follows.unprobed follows.unremoved follows.ran
  refine ⟨fun removal member => ?_, outcome.counted⟩
  obtain ⟨before, saw, reached⟩ := outcome.justified removal member
  obtain ⟨bound, _⟩ := run.covered removal.key
  rw [follows.missCounts] at reached
  -- nothing of this tick saw the path before the removal, since its grace probe missed it
  have absent : ∀ probe ∈ removal.probes, probe.path = removal.key.path →
      probe.present = false := by
    intro probe earlier same
    by_contra present
    exact steady.agreeing probe (before.subset earlier) (eq_true_of_ne_false present) removal.key
      same.symm (before.subset saw)
  rw [missingStreak_missing absent ⟨_, saw, rfl⟩]
  omega

structure DaemonScript where
  world : DaemonWorld
  present : List Bool
  listings : List Bool

def scriptHandler : Handler daemonPorts DaemonScript
  | .listWorkspaces, script => (.ok script.world.listed, script)
  | .getWorkspace id, script =>
    (match script.world.workspaces.find id with
      | some row => .ok row
      | none => .error (.notFound "workspace"), script)
  | .listByWorkspace id, script =>
    (if script.listings.headD true then .ok (script.world.checkoutsOf id)
      else .error (.backend "database is locked"), { script with listings := script.listings.tail })
  | .getInstance id, script =>
    (match script.world.checkouts.find id with
      | some row => .ok row
      | none => .error (.notFound "repo instance"), script)
  | .saveInstance checkout, script =>
    (.ok (), { script with world := script.world.saved checkout })
  | .pathExists path counted, script =>
    (.ok (script.present.headD true),
      { script with
        world := script.world.probed path (script.present.headD true) counted
        present := script.present.tail })
  | .bumpMiss key, script =>
    (bumped (script.world.missCounts key),
      { script with world := script.world.counting key (bumped (script.world.missCounts key)) })
  | .dropMiss key, script => ((), { script with world := script.world.counting key 0 })
  | .retainMisses keys, script => ((), { script with world := script.world.retaining keys })

theorem scriptHandler_sound (op : DaemonOp) (script : DaemonScript) :
    DaemonWorld.meaning op script.world (scriptHandler op script).1
      (scriptHandler op script).2.world := by
  cases op with
  | listWorkspaces => exact ⟨rfl, fun rows same => by cases same; rfl⟩
  | getWorkspace id =>
      refine ⟨rfl, fun row same => ?_⟩
      simp only [scriptHandler] at same
      split at same
      next found => cases same; exact found
      next => cases same
  | listByWorkspace id =>
      refine ⟨rfl, fun rows same => ?_⟩
      simp only [scriptHandler] at same
      split at same
      · cases same; rfl
      · cases same
  | getInstance id =>
      refine ⟨rfl, fun row same => ?_⟩
      simp only [scriptHandler] at same
      split at same
      next found => cases same; exact found
      next => cases same
  | saveInstance checkout => exact .inl ⟨rfl, rfl⟩
  | pathExists path counted => exact .inl ⟨_, rfl, rfl⟩
  | bumpMiss key => exact ⟨rfl, rfl⟩
  | dropMiss key => exact rfl
  | retainMisses keys => exact rfl

def scriptedTick (settings : Settings) (world : DaemonWorld) (present listings : List Bool) :
    TickRecord :=
  let start := { world with probes := [], unlinked := [] }
  let ended := (tickOnce settings).exec scriptHandler ⟨start, present, listings⟩
  ⟨start, ended.1, ended.2.world⟩

theorem scriptedTick_follows (settings : Settings) (world : DaemonWorld)
    (present listings : List Bool) :
    (scriptedTick settings world present listings).Follows settings world.missCounts :=
  ⟨rfl, rfl, rfl, Program.exec_runs scriptHandler_sound (tickOnce settings)
    ⟨{ world with probes := [], unlinked := [] }, present, listings⟩⟩

def graceOfTwo : Settings := ({ prune := true } : Settings).withMissingGraceTicks 2

theorem oneWorkspace_distinct :
    ([⟨⟨1⟩, .active, none, none, none, none⟩].map Workspace.id).Nodup := List.nodup_singleton _

def oneWorktree : DaemonWorld where
  workspaces := ⟨[⟨⟨1⟩, .active, none, none, none, none⟩], oneWorkspace_distinct⟩
  checkouts := ⟨[⟨⟨1⟩, ⟨1⟩, ⟨[⟨"/worktree", .linked⟩], by simp⟩⟩], by simp⟩
  missCounts _ := 0
  probes := []
  unlinked := []

def missedOnce : TickRecord := scriptedTick graceOfTwo oneWorktree [false, false] []

def seenThenAborted : TickRecord := scriptedTick graceOfTwo missedOnce.after [true] [true, false]

def missedAgain : TickRecord := scriptedTick graceOfTwo seenThenAborted.after [false, false] []

theorem missedOnce_follows : missedOnce.Follows graceOfTwo fun _ => 0 :=
  scriptedTick_follows graceOfTwo oneWorktree [false, false] []

/-- The link is removed although only the last tick missed it. -/
theorem aborted_tick_keeps_count :
    Ticks graceOfTwo (fun _ => True) [seenThenAborted.after.probes, missedOnce.after.probes]
      seenThenAborted.after.missCounts ∧
    missedAgain.Follows graceOfTwo seenThenAborted.after.missCounts ∧
    ¬missedAgain.Graceful graceOfTwo
      [seenThenAborted.after.probes, missedOnce.after.probes] := by
  refine ⟨?_, scriptedTick_follows _ _ _ _, ?_⟩
  · exact .tick (.tick .boot missedOnce_follows trivial)
      (scriptedTick_follows _ _ _ _) trivial
  · intro graceful
    have removed : ∃ removal ∈ missedAgain.after.unlinked, missingStreak removal.key.path
        (removal.probes :: [seenThenAborted.after.probes, missedOnce.after.probes]) <
          graceOfTwo.missingGraceTicks := by
      decide
    obtain ⟨removal, member, early⟩ := removed
    exact absurd (graceful.removals removal member) (Nat.not_le.mpr early)

theorem grace_before_prune_missed :
    (scriptedTick graceOfTwo missedOnce.after [false, false] []).Graceful graceOfTwo
      [missedOnce.after.probes] := by
  have unseen : ∀ record : TickRecord, (∀ probe ∈ record.after.probes, probe.present = false) →
      record.Steady := fun record all =>
    ⟨fun probe member present => by simp [all probe member] at present,
      fun probe member present => by simp [all probe member] at present⟩
  exact grace_before_prune
    (.tick .boot missedOnce_follows (unseen missedOnce (by decide)))
    (scriptedTick_follows _ _ _ _) (unseen _ (by decide))

end RepoLink
