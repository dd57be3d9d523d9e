import RepoLink.Daemon.TickCalls

/-!
The grace counters across one tick: each counter is decided about once, by the probe of its own
link, so that at every exit of the tick it has moved by at most that one probe.
-/

namespace RepoLink

open KeyedTable Effects

namespace DaemonWorld

/-- The removals of a tick that started in `start`: each by a counter that was one short, after
the tick's grace probe of the link found it missing. -/
def Justified (settings : Daemon.Settings) (start world : DaemonWorld) : Prop :=
  ∀ record ∈ world.unlinked, record.probes <+: world.probes ∧
    ⟨record.key.path, false, some record.key⟩ ∈ record.probes ∧
    settings.missingGraceTicks ≤ start.missCounts record.key + 1

/-- How the counters stand during a tick that started in `start`. -/
structure Tallied (settings : Daemon.Settings) (start world : DaemonWorld) : Prop where
  home : ∀ id, world.home id = start.home id
  decided : ∀ key ∈ world.graced, world.sawMissing key ∨ world.sawPresent key
  untouched : ∀ key, key ∉ world.graced → world.missCounts key = start.missCounts key
  present : ∀ key, world.sawPresent key → world.missCounts key = 0
  missing : ∀ key, world.sawMissing key →
    world.missCounts key = bumped (start.missCounts key) ∨
      (world.missCounts key = 0 ∧ ∃ record ∈ world.unlinked, record.key = key)
  justified : Justified settings start world

/-- The keys a pass reports alive: all those it found missing and did not unlink, but for the
`old` ones that earlier passes report. -/
structure Alive (old : WorktreeKey → Prop) (world : DaemonWorld) (keys : List WorktreeKey) :
    Prop where
  sound : ∀ key ∈ keys, world.sawMissing key
  complete : ∀ key, world.sawMissing key →
    (∃ record ∈ world.unlinked, record.key = key) ∨ old key ∨ key ∈ keys

theorem sawMissing.graced {key : WorktreeKey} {world : DaemonWorld}
    (saw : world.sawMissing key) : key ∈ world.graced :=
  List.mem_filterMap.mpr ⟨_, saw, rfl⟩

theorem sawPresent.graced {key : WorktreeKey} {world : DaemonWorld}
    (saw : world.sawPresent key) : key ∈ world.graced :=
  List.mem_filterMap.mpr ⟨_, saw, rfl⟩

theorem graced_probed (key : WorktreeKey) (present : Bool) (world : DaemonWorld) :
    (world.probed key.path present (some key)).graced = world.graced ++ [key] := by
  simp [DaemonWorld.graced, probed]

theorem mem_probed {key other : WorktreeKey} {present answered : Bool} {world : DaemonWorld} :
    ⟨other.path, answered, some other⟩ ∈
        (world.probed key.path present (some key)).probes ↔
      ⟨other.path, answered, some other⟩ ∈ world.probes ∨ other = key ∧ answered = present := by
  simp only [probed, List.mem_append, List.mem_singleton, PathProbe.mk.injEq, Option.some.injEq]
  constructor
  · rintro (before | ⟨_, same, sameKey⟩)
    · exact .inl before
    · exact .inr ⟨sameKey, same⟩
  · rintro (before | ⟨rfl, rfl⟩)
    · exact .inl before
    · exact .inr ⟨rfl, rfl, rfl⟩

theorem decided_probed {key : WorktreeKey} {present : Bool} {world : DaemonWorld}
    (decided : ∀ other ∈ world.graced, world.sawMissing other ∨ world.sawPresent other) :
    ∀ other ∈ (world.probed key.path present (some key)).graced,
      (world.probed key.path present (some key)).sawMissing other ∨
        (world.probed key.path present (some key)).sawPresent other := by
  intro other member
  rw [graced_probed, List.mem_append, List.mem_singleton] at member
  rcases member with earlier | rfl
  · exact (decided other earlier).imp (fun saw => mem_probed.mpr (.inl saw))
      fun saw => mem_probed.mpr (.inl saw)
  · cases present with
    | false => exact .inl (mem_probed.mpr (.inr ⟨rfl, rfl⟩))
    | true => exact .inr (mem_probed.mpr (.inr ⟨rfl, rfl⟩))

theorem Tallied.observed {settings : Daemon.Settings} {start before after : DaemonWorld}
    (tallied : Tallied settings start before) (observed : Observed before after) :
    Tallied settings start after where
  home id := (observed.home id).trans (tallied.home id)
  decided key member := (tallied.decided key (observed.graced ▸ member)).imp
    observed.mem_probes.mpr observed.mem_probes.mpr
  untouched key fresh := by
    rw [observed.missCounts]
    exact tallied.untouched key (observed.graced ▸ fresh)
  present key saw := by
    rw [observed.missCounts]
    exact tallied.present key (observed.mem_probes.mp saw)
  missing key saw := by
    rw [observed.missCounts, observed.unlinked]
    exact tallied.missing key (observed.mem_probes.mp saw)
  justified record member := by
    obtain ⟨more, moreEq, _⟩ := observed.probes
    obtain ⟨before, saw, reached⟩ := tallied.justified record (observed.unlinked ▸ member)
    exact ⟨moreEq ▸ before.trans (List.prefix_append _ more), saw, reached⟩

theorem Alive.observed {old : WorktreeKey → Prop} {before after : DaemonWorld}
    {keys : List WorktreeKey} (alive : Alive old before keys) (observed : Observed before after) :
    Alive old after keys where
  sound key member := observed.mem_probes.mpr (alive.sound key member)
  complete key saw := by
    rw [observed.unlinked]
    exact alive.complete key (observed.mem_probes.mp saw)

theorem Tallied.found {settings : Daemon.Settings} {start world : DaemonWorld}
    {key : WorktreeKey} (tallied : Tallied settings start world) (fresh : key ∉ world.graced) :
    Tallied settings start ((world.probed key.path true (some key)).counting key 0) where
  home := tallied.home
  decided := decided_probed tallied.decided
  untouched other unseen := by
    have parts : other ∉ world.graced ∧ other ≠ key := by
      simpa [counting, DaemonWorld.graced, probed] using unseen
    simp only [counting, probed, if_neg parts.2]
    exact tallied.untouched other parts.1
  present other saw := by
    rcases mem_probed.mp saw with before | ⟨rfl, _⟩
    · have differs : other ≠ key := fun same => fresh (same ▸ sawPresent.graced before)
      simp only [counting, probed, if_neg differs]
      exact tallied.present other before
    · simp only [counting, if_pos]
  missing other saw := by
    rcases mem_probed.mp saw with before | ⟨_, differs⟩
    · have differs : other ≠ key := fun same => fresh (same ▸ sawMissing.graced before)
      simp only [counting, probed, if_neg differs]
      exact tallied.missing other before
    · cases differs
  justified record member := by
    obtain ⟨before, saw, reached⟩ := tallied.justified record member
    exact ⟨before.trans (List.prefix_append _ _), saw, reached⟩

theorem Tallied.missed {settings : Daemon.Settings} {start world : DaemonWorld}
    {key : WorktreeKey} (tallied : Tallied settings start world) (fresh : key ∉ world.graced) :
    Tallied settings start ((world.probed key.path false (some key)).counting key
      (bumped (world.missCounts key))) where
  home := tallied.home
  decided := decided_probed tallied.decided
  untouched other unseen := by
    have parts : other ∉ world.graced ∧ other ≠ key := by
      simpa [counting, DaemonWorld.graced, probed] using unseen
    simp only [counting, probed, if_neg parts.2]
    exact tallied.untouched other parts.1
  present other saw := by
    rcases mem_probed.mp saw with before | ⟨_, differs⟩
    · have differs : other ≠ key := fun same => fresh (same ▸ sawPresent.graced before)
      simp only [counting, probed, if_neg differs]
      exact tallied.present other before
    · cases differs
  missing other saw := by
    rcases mem_probed.mp saw with before | ⟨rfl, _⟩
    · have differs : other ≠ key := fun same => fresh (same ▸ sawMissing.graced before)
      simp only [counting, probed, if_neg differs]
      exact tallied.missing other before
    · simp only [counting, if_pos, tallied.untouched other fresh, true_or]
  justified record member := by
    obtain ⟨before, saw, reached⟩ := tallied.justified record member
    exact ⟨before.trans (List.prefix_append _ _), saw, reached⟩

/-- A key whose counter has reached the threshold is unlinked and its counter dropped. -/
theorem Tallied.pruned {settings : Daemon.Settings} {start before after : DaemonWorld}
    {key : WorktreeKey} {removed : List Unlinking} (tallied : Tallied settings start before)
    (saw : before.sawMissing key)
    (reached : settings.missingGraceTicks ≤ start.missCounts key + 1)
    (missCounts : after.missCounts = before.missCounts) (probes : after.probes = before.probes)
    (home : ∀ id, after.home id = before.home id)
    (unlinked : after.unlinked = before.unlinked ++ removed)
    (mine : ⟨key, before.probes⟩ ∈ removed)
    (only : ∀ record ∈ removed, record = ⟨key, before.probes⟩) :
    Tallied settings start (after.counting key 0) where
  home id := (home id).trans (tallied.home id)
  decided other member := by
    simp only [DaemonWorld.graced, counting, probes] at member
    simp only [sawMissing, sawPresent, counting, probes]
    exact tallied.decided other member
  untouched other unseen := by
    have unseenBefore : other ∉ before.graced := by
      simpa [counting, DaemonWorld.graced, probes] using unseen
    have differs : other ≠ key := fun same => unseenBefore (same ▸ saw.graced)
    simp only [counting, if_neg differs, missCounts]
    exact tallied.untouched other unseenBefore
  present other found := by
    simp only [counting, missCounts]
    split
    · rfl
    · refine tallied.present other ?_
      rw [sawPresent, ← probes]
      exact found
  missing other saw := by
    have sawBefore : before.sawMissing other := by
      rw [sawMissing, ← probes]
      exact saw
    simp only [counting, missCounts, unlinked]
    split
    next same => exact .inr ⟨rfl, _, List.mem_append_right _ mine, same.symm⟩
    next =>
      rcases tallied.missing other sawBefore with counted | ⟨zero, record, member, same⟩
      · exact .inl counted
      · exact .inr ⟨zero, record, List.mem_append_left _ member, same⟩
  justified record member := by
    simp only [counting, unlinked] at member
    simp only [counting, probes]
    rcases List.mem_append.mp member with earlier | now
    · exact tallied.justified record earlier
    · rw [only record now]
      exact ⟨List.prefix_rfl, saw, reached⟩

theorem Tallied.missing_le {settings : Daemon.Settings} {start world : DaemonWorld} {key : WorktreeKey}
    (tallied : Tallied settings start world) (saw : world.sawMissing key) :
    world.missCounts key ≤ start.missCounts key + 1 := by
  have bound : bumped (start.missCounts key) ≤ start.missCounts key + 1 := Nat.min_le_left _ _
  rcases tallied.missing key saw with counted | ⟨zero, _⟩ <;> omega

end DaemonWorld

namespace Daemon

open DaemonWorld

/-- What one link, binding or workspace of the grace pass leaves behind at any exit: the tally,
and decisions about counters of `scope` only. -/
structure Passed (settings : Settings) (start before after : DaemonWorld)
    (scope : WorktreeKey → Prop) : Prop where
  tallied : Tallied settings start after
  probes : before.probes <+: after.probes
  graced : ∀ key ∈ after.graced, key ∈ before.graced ∨ scope key

theorem Passed.refl {settings : Settings} {start world : DaemonWorld}
    (tallied : Tallied settings start world) (scope : WorktreeKey → Prop) :
    Passed settings start world world scope :=
  ⟨tallied, List.prefix_rfl, fun _ member => .inl member⟩

theorem Passed.mono {settings : Settings} {start before after : DaemonWorld}
    {scope wider : WorktreeKey → Prop} (passed : Passed settings start before after scope)
    (included : ∀ key, scope key → wider key) : Passed settings start before after wider :=
  ⟨passed.tallied, passed.probes, fun key member =>
    (passed.graced key member).imp_right (included key)⟩

theorem Passed.trans {settings : Settings} {start before middle after : DaemonWorld}
    {scope later : WorktreeKey → Prop} (first : Passed settings start before middle scope)
    (second : Passed settings start middle after later) :
    Passed settings start before after (fun key => scope key ∨ later key) := by
  refine ⟨second.tallied, first.probes.trans second.probes, fun key member => ?_⟩
  rcases second.graced key member with earlier | now
  · exact (first.graced key earlier).imp_right .inl
  · exact .inr (.inr now)

theorem Passed.observed {settings : Settings} {start before after : DaemonWorld}
    (tallied : Tallied settings start before) (observed : Observed before after) :
    Passed settings start before after (fun _ => False) := by
  obtain ⟨more, moreEq, _⟩ := observed.probes
  exact ⟨tallied.observed observed, moreEq ▸ List.prefix_append _ more,
    fun key member => .inl (observed.graced ▸ member)⟩

theorem missed_runs {settings : Settings} {start before after : DaemonWorld} {key : WorktreeKey}
    {old : WorktreeKey → Prop} {pass : GracePass} {answer : Except DaemonError GracePass}
    (tallied : Tallied settings start before) (fresh : key ∉ before.graced)
    (alive : Alive old before pass.2)
    (ran : (missed settings pass key).Runs meaning (before.probed key.path false (some key)) answer
      after) :
    Passed settings start before after (· = key) ∧
      ∀ next, answer = .ok next → Alive old after next.2 := by
  obtain ⟨count, middle, ⟨rfl, rfl⟩, deciding⟩ := ran
  have counted := tallied.missed fresh
  have grown : ∀ other ∈ (before.probed key.path false (some key)).graced,
      other ∈ before.graced ∨ other = key := by
    intro other member
    rw [graced_probed] at member
    simpa using member
  have aliveThen : ∀ other, (before.probed key.path false (some key)).sawMissing other →
      (∃ record ∈ before.unlinked, record.key = other) ∨ old other ∨ other ∈ pass.2 ++ [key] := by
    intro other saw
    rcases mem_probed.mp saw with earlier | ⟨rfl, _⟩
    · rcases alive.complete other earlier with gone | older | member
      · exact .inl gone
      · exact .inr (.inl older)
      · exact .inr (.inr (List.mem_append_left _ member))
    · exact .inr (.inr (by simp))
  have soundThen : ∀ other ∈ pass.2 ++ [key],
      (before.probed key.path false (some key)).sawMissing other := by
    intro other member
    rcases List.mem_append.mp member with earlier | now
    · exact mem_probed.mpr (.inl (alive.sound other earlier))
    · exact mem_probed.mpr (.inr ⟨List.mem_singleton.mp now, rfl⟩)
  simp only [Program.bind_eq, Program.done_bind] at deciding
  split at deciding
  next reached =>
    have due : settings.missingGraceTicks ≤ start.missCounts key + 1 := by
      have sameCount := tallied.untouched key fresh
      have bound : bumped (before.missCounts key) ≤ before.missCounts key + 1 := Nat.min_le_left _ _
      simp only [probed] at reached
      omega
    have sawNow : (before.probed key.path false (some key)).sawMissing key :=
      mem_probed.mpr (.inr ⟨rfl, rfl⟩)
    have refused : ∀ {later : DaemonWorld}, later = (before.probed key.path false (some key)).counting
        key (bumped ((before.probed key.path false (some key)).missCounts key)) →
        Passed settings start before later (· = key) := by
      rintro _ rfl
      exact ⟨counted, List.prefix_append _ _, grown⟩
    rcases Program.runs_bind.mp deciding with ⟨_, later, unlinking, dropping⟩ | ⟨_, failed, rfl⟩
    · obtain ⟨inner, unlinked, same⟩ := Program.runs_mapError.mp unlinking
      rcases RepoBindingService.unlinkWorktree_runs unlinked with
        ⟨⟨_, rfl⟩, _⟩ | ⟨rfl, missCounts, probes, home, removed, removedEq, mine, only⟩
      · cases same
      · obtain ⟨_, last, dropped, ended⟩ := dropping
        obtain ⟨rfl, rfl⟩ : answer = .ok (pass.1 + 1, pass.2.filter (· ≠ key)) ∧ after = last :=
          ended
        have dropEq : after = later.counting key 0 := dropped
        subst dropEq
        refine ⟨⟨counted.pruned sawNow due missCounts probes home removedEq mine only,
          probes.symm ▸ List.prefix_append _ _, ?_⟩, ?_⟩
        · intro other member
          refine grown other ?_
          simp only [DaemonWorld.graced, counting, probes] at member ⊢
          exact member
        · rintro next same
          cases same
          refine ⟨fun other member => ?_, fun other saw => ?_⟩
          · rw [sawMissing]
            simp only [counting, probes]
            exact soundThen other (List.mem_append_left _ (List.mem_filter.mp member).1)
          · rw [sawMissing] at saw
            simp only [counting, probes] at saw
            simp only [counting, removedEq]
            by_cases mineToo : other = key
            · exact .inl ⟨_, List.mem_append_right _ mine, mineToo.symm⟩
            · rcases aliveThen other saw with ⟨record, held, same⟩ | older | held
              · exact .inl ⟨record, List.mem_append_left _ held, same⟩
              · exact .inr (.inl older)
              · refine .inr (.inr (List.mem_filter.mpr ⟨?_, decide_eq_true mineToo⟩))
                rcases List.mem_append.mp held with earlier | now
                · exact earlier
                · exact absurd (List.mem_singleton.mp now) mineToo
    · obtain ⟨inner, unlinked, same⟩ := Program.runs_mapError.mp failed
      rcases RepoBindingService.unlinkWorktree_runs unlinked with ⟨⟨_, rfl⟩, rfl⟩ | ⟨rfl, _⟩
      · exact ⟨refused rfl, fun _ same => by cases same⟩
      · cases same
  next =>
    obtain ⟨rfl, rfl⟩ := deciding
    refine ⟨⟨counted, List.prefix_append _ _, grown⟩, ?_⟩
    rintro next same
    cases same
    exact ⟨soundThen, aliveThen⟩

theorem graceLink_runs {settings : Settings} {start before after : DaemonWorld} {repoId : RepoId}
    {link : WorktreeLink} {old : WorktreeKey → Prop} {pass : GracePass}
    {answer : Except DaemonError GracePass} (tallied : Tallied settings start before)
    (fresh : ⟨repoId, link.path⟩ ∉ before.graced) (alive : Alive old before pass.2)
    (ran : (graceLink settings repoId pass link).Runs meaning before answer after) :
    Passed settings start before after (· = ⟨repoId, link.path⟩) ∧
      ∀ next, answer = .ok next → Alive old after next.2 := by
  rw [graceLink] at ran
  split at ran
  · obtain ⟨rfl, rfl⟩ := ran
    exact ⟨.refl tallied _, fun next same => by cases same; exact alive⟩
  · obtain ⟨result, middle, answered, deciding⟩ := ran
    rcases answered with ⟨present, rfl, rfl⟩ | ⟨error, rfl, rfl⟩
    · cases present with
      | false => exact missed_runs tallied fresh alive deciding
      | true =>
          obtain ⟨_, last, dropped, ended⟩ := deciding
          obtain ⟨rfl, rfl⟩ : answer = .ok pass ∧ after = last := ended
          have dropEq : after = (before.probed link.path true (some ⟨repoId, link.path⟩)).counting
              ⟨repoId, link.path⟩ 0 := dropped
          subst dropEq
          refine ⟨⟨tallied.found fresh, List.prefix_append _ _, ?_⟩, ?_⟩
          · intro other member
            have parts : other ∈ before.graced ∨ other = ⟨repoId, link.path⟩ := by
              simpa [counting, DaemonWorld.graced, probed] using member
            exact parts
          · rintro next same
            cases same
            refine ⟨fun other member => ?_, fun other saw => ?_⟩
            · exact List.mem_append_left _ (alive.sound other member)
            · have split := (@mem_probed ⟨repoId, link.path⟩ other true false before).mp saw
              rcases split with earlier | ⟨_, differs⟩
              · exact alive.complete other earlier
              · cases differs
    · obtain ⟨rfl, rfl⟩ : answer = .error (.port error) ∧ after = middle := deciding
      exact ⟨.refl tallied _, fun _ same => by cases same⟩

theorem graceBinding_runs {settings : Settings} {start before after : DaemonWorld}
    {binding : RepoCheckout} {old : WorktreeKey → Prop} {pass : GracePass}
    {answer : Except DaemonError GracePass} (tallied : Tallied settings start before)
    (fresh : ∀ key ∈ before.graced, key.repoId ≠ binding.id) (alive : Alive old before pass.2)
    (ran : (graceBinding settings pass binding).Runs meaning before answer after) :
    Passed settings start before after (·.repoId = binding.id) ∧
      ∀ next, answer = .ok next → Alive old after next.2 := by
  have exits := Program.runs_foldEach_exits
    (fun done (pass : GracePass) state => Passed settings start before state
        (fun key => key.repoId = binding.id ∧ key.path ∈ done.map WorktreeLink.path) ∧
      Alive old state pass.2)
    (fun state => Passed settings start before state (·.repoId = binding.id)) ?_
    ⟨.refl tallied _, alive⟩ ran
  · cases answer with
    | ok next =>
        obtain ⟨passed, aliveNow⟩ := exits.1 next rfl
        exact ⟨passed.mono fun _ inside => inside.1, fun _ same => by cases same; exact aliveNow⟩
    | error error => exact ⟨exits.2 error rfl, fun _ same => by cases same⟩
  · rintro done link rest value state split ⟨passed, aliveNow⟩
    have unvisited : link.path ∉ done.map WorktreeLink.path := by
      have distinct := binding.worktrees.distinct
      rw [split, List.map_append, List.map_cons] at distinct
      exact fun member => (List.nodup_append.mp distinct).2.2 _ member _ List.mem_cons_self rfl
    have freshNow : ⟨binding.id, link.path⟩ ∉ state.graced := fun member =>
      (passed.graced _ member).elim (fun earlier => fresh _ earlier rfl) fun here =>
        unvisited here.2
    refine ⟨fun next later ran => ?_, fun error later ran => ?_⟩
    · obtain ⟨step, aliveNext⟩ := graceLink_runs passed.tallied freshNow aliveNow ran
      refine ⟨(passed.trans step).mono fun key inside => ?_, aliveNext next rfl⟩
      rcases inside with ⟨same, visited⟩ | rfl
      · rw [List.map_append]
        exact ⟨same, List.mem_append_left _ visited⟩
      · exact ⟨rfl, by simp⟩
    · obtain ⟨step, _⟩ := graceLink_runs passed.tallied freshNow aliveNow ran
      refine (passed.trans step).mono fun key inside => ?_
      rcases inside with ⟨same, _⟩ | rfl
      · exact same
      · rfl

theorem applyGracePrune_runs {settings : Settings} {start before after : DaemonWorld}
    {workspaceId : WorkspaceId} {old : WorktreeKey → Prop}
    {answer : Except DaemonError GracePass} (tallied : Tallied settings start before)
    (fresh : ∀ key ∈ before.graced, before.home key.repoId ≠ some workspaceId)
    (alive : Alive old before [])
    (ran : (applyGracePrune settings workspaceId).Runs meaning before answer after) :
    Passed settings start before after (fun key => before.home key.repoId = some workspaceId) ∧
      ∀ next, answer = .ok next → Alive old after next.2 := by
  rcases Program.runs_bind.mp ran with ⟨bindings, middle, listing, rest⟩ | ⟨_, failed, rfl⟩
  · obtain ⟨inner, listed, same⟩ := Program.runs_mapError.mp listing
    obtain ⟨rfl, shapes⟩ := RepoBindingService.list_runs listed
    cases inner with
    | error error => cases same
    | ok views =>
        cases same
        have within : ∀ binding ∈ bindings, middle.home binding.id = some workspaceId := by
          intro binding member
          rcases shapes bindings rfl with none | all
          · rw [none] at member
            cases member
          · exact (RepoBindingService.home_of_listed (all ▸ member)).1
        have distinct : (bindings.map RepoCheckout.id).Nodup := by
          rcases shapes bindings rfl with none | all
          · rw [none]
            exact List.nodup_nil
          · rw [all]
            exact (List.Sublist.map _ List.filter_sublist).nodup middle.checkouts.distinct
        have exits := Program.runs_foldEach_exits
          (fun done (pass : GracePass) state => Passed settings start middle state
              (fun key => key.repoId ∈ done.map RepoCheckout.id ∧
                middle.home key.repoId = some workspaceId) ∧ Alive old state pass.2)
          (fun state => Passed settings start middle state
            (fun key => middle.home key.repoId = some workspaceId)) ?_
          ⟨.refl tallied _, alive⟩ rest
        · cases answer with
          | ok next =>
              obtain ⟨passed, aliveNow⟩ := exits.1 next rfl
              exact ⟨passed.mono fun _ inside => inside.2,
                fun _ same => by cases same; exact aliveNow⟩
          | error error => exact ⟨exits.2 error rfl, fun _ same => by cases same⟩
        · rintro done binding more value state split ⟨passed, aliveNow⟩
          have home := within binding (by simp [split])
          have unvisited : binding.id ∉ done.map RepoCheckout.id := by
            rw [split, List.map_append, List.map_cons] at distinct
            exact fun member =>
              (List.nodup_append.mp distinct).2.2 _ member _ List.mem_cons_self rfl
          have freshNow : ∀ key ∈ state.graced, key.repoId ≠ binding.id := by
            rintro key member same
            rcases passed.graced key member with earlier | ⟨visited, _⟩
            · exact fresh key earlier (same ▸ home)
            · exact unvisited (same ▸ visited)
          refine ⟨fun next later ran => ?_, fun error later ran => ?_⟩
          · obtain ⟨step, aliveNext⟩ := graceBinding_runs passed.tallied freshNow aliveNow ran
            refine ⟨(passed.trans step).mono fun key inside => ?_, aliveNext next rfl⟩
            rcases inside with ⟨visited, homed⟩ | same
            · rw [List.map_append]
              exact ⟨List.mem_append_left _ visited, homed⟩
            · exact ⟨by simp [same], same ▸ home⟩
          · obtain ⟨step, _⟩ := graceBinding_runs passed.tallied freshNow aliveNow ran
            refine (passed.trans step).mono fun key inside => ?_
            rcases inside with ⟨_, homed⟩ | same
            · exact homed
            · exact same ▸ home
  · obtain ⟨inner, listed, _⟩ := Program.runs_mapError.mp failed
    obtain ⟨rfl, _⟩ := RepoBindingService.list_runs listed
    exact ⟨.refl tallied _, fun _ same => by cases same⟩

theorem Alive.append {old : WorktreeKey → Prop} {world : DaemonWorld}
    {keys more : List WorktreeKey} (sound : ∀ key ∈ keys, world.sawMissing key)
    (alive : Alive (fun key => old key ∨ key ∈ keys) world more) : Alive old world (keys ++ more) where
  sound key member := (List.mem_append.mp member).elim (sound key) (alive.sound key)
  complete key saw := by
    rcases alive.complete key saw with gone | (older | earlier) | now
    · exact .inl gone
    · exact .inr (.inl older)
    · exact .inr (.inr (List.mem_append_left _ earlier))
    · exact .inr (.inr (List.mem_append_right _ now))

theorem workspaceTick_runs {settings : Settings} {start before after : DaemonWorld}
    {workspace : Workspace} {tick : TickReport × List WorktreeKey}
    {answer : Except DaemonError (TickReport × List WorktreeKey)}
    (tallied : Tallied settings start before)
    (fresh : ∀ key ∈ before.graced, before.home key.repoId ≠ some workspace.id)
    (alive : Alive (fun _ => False) before tick.2)
    (ran : (workspaceTick settings tick workspace).Runs meaning before answer after) :
    Passed settings start before after
        (fun key => settings.prune = true ∧ before.home key.repoId = some workspace.id) ∧
      ∀ next, answer = .ok next → Alive (fun _ => False) after next.2 := by
  rcases Program.runs_bind.mp ran with ⟨summary, middle, marking, pruning⟩ | ⟨_, failed, rfl⟩
  · obtain ⟨_, marked, _⟩ := Program.runs_mapError.mp marking
    have observed := RepoBindingService.reconcileWorktrees_observed marked
    have marked := Passed.observed tallied observed
    have aliveThen := alive.observed observed
    have passing : ∀ {pass : Except DaemonError GracePass} {last : DaemonWorld},
        (prunePass settings workspace.id).Runs meaning middle pass last →
        Passed settings start before last
            (fun key => settings.prune = true ∧ before.home key.repoId = some workspace.id) ∧
          ∀ next, pass = .ok next → Alive (fun _ => False) last (tick.2 ++ next.2) := by
      intro pass last ran
      rw [prunePass] at ran
      split at ran
      next pruning =>
        have freshThen : ∀ key ∈ middle.graced, middle.home key.repoId ≠ some workspace.id := by
          intro key member
          rw [observed.home]
          exact fresh key (observed.graced ▸ member)
        have aliveOld : Alive (fun key => False ∨ key ∈ tick.2) middle [] :=
          ⟨nofun, fun key saw => (aliveThen.complete key saw).imp_right fun rest =>
            .inl (rest.imp_right id)⟩
        obtain ⟨step, aliveLast⟩ := applyGracePrune_runs marked.tallied freshThen aliveOld ran
        refine ⟨(marked.trans step).mono fun key inside => ?_, fun next same => ?_⟩
        · rw [observed.home] at inside
          exact ⟨pruning, inside.resolve_left id⟩
        · refine Alive.append (fun key member => ?_) (aliveLast next same)
          exact step.probes.subset (aliveThen.sound key member)
      next =>
        obtain ⟨rfl, rfl⟩ := ran
        refine ⟨marked.mono nofun, ?_⟩
        rintro next same
        cases same
        rw [List.append_nil]
        exact aliveThen
    rcases Program.runs_bind.mp pruning with ⟨pass, last, passes, ended⟩ | ⟨_, failed, rfl⟩
    · obtain ⟨step, aliveLast⟩ := passing passes
      obtain ⟨rfl, rfl⟩ := ended
      exact ⟨step, fun next same => by cases same; exact aliveLast pass rfl⟩
    · exact ⟨(passing failed).1, fun _ same => by cases same⟩
  · obtain ⟨_, marked, _⟩ := Program.runs_mapError.mp failed
    have observed := RepoBindingService.reconcileWorktrees_observed marked
    exact ⟨(Passed.observed tallied observed).mono nofun, fun _ same => by cases same⟩

structure TickOutcome (settings : Settings) (start : DaemonWorld)
    (result : Except DaemonError TickReport) (after : DaemonWorld) : Prop where
  justified : Justified settings start after
  pruning : ∀ key ∈ after.graced, settings.prune = true
  decided : ∀ key ∈ after.graced, after.sawMissing key ∨ after.sawPresent key
  idle : ∀ key, key ∉ after.graced → after.missCounts key ≤ start.missCounts key
  present : ∀ key, after.sawPresent key → after.missCounts key = 0
  missing : ∀ key, after.sawMissing key → after.missCounts key ≤ start.missCounts key + 1
  completed : ∀ report, result = .ok report → settings.prune = true → ∀ key,
    after.missCounts key ≠ 0 → after.sawMissing key
  counted : ∀ report, result = .ok report → settings.prune = true → ∀ key,
    after.sawMissing key → after.missCounts key = bumped (start.missCounts key) ∨
      ∃ record ∈ after.unlinked, record.key = key

theorem TickOutcome.aborted {settings : Settings} {start after : DaemonWorld} {error : DaemonError}
    (tallied : Tallied settings start after)
    (pruning : ∀ key ∈ after.graced, settings.prune = true) :
    TickOutcome settings start (.error error) after where
  justified := tallied.justified
  pruning := pruning
  decided := tallied.decided
  idle key unseen := Nat.le_of_eq (tallied.untouched key unseen)
  present := tallied.present
  missing _ saw := tallied.missing_le saw
  completed := nofun
  counted := nofun

theorem TickOutcome.collected {settings : Settings} {start world : DaemonWorld}
    {keys : List WorktreeKey} {report : TickReport} (tallied : Tallied settings start world)
    (alive : Alive (fun _ => False) world keys)
    (pruning : ∀ key ∈ world.graced, settings.prune = true) :
    TickOutcome settings start (.ok report) (world.retaining keys) where
  justified := tallied.justified
  pruning := pruning
  decided := tallied.decided
  idle key unseen := by
    have kept := tallied.untouched key unseen
    simp only [retaining]
    split <;> omega
  present key saw := by
    have dropped := tallied.present key saw
    simp only [retaining, dropped, ite_self]
  missing key saw := by
    have bound := tallied.missing_le saw
    simp only [retaining]
    split <;> omega
  completed _ _ _ key running := by
    simp only [retaining] at running
    split at running
    next kept => exact alive.sound key kept
    next => exact absurd rfl running
  counted _ _ _ key saw := by
    rcases tallied.missing key saw with counted | ⟨_, gone⟩
    · rcases alive.complete key saw with gone | impossible | kept
      · exact .inr gone
      · exact impossible.elim
      · exact .inl (by simp only [retaining, if_pos kept, counted])
    · exact .inr gone

theorem TickOutcome.uncollected {settings : Settings} {start world : DaemonWorld}
    {report : TickReport} (tallied : Tallied settings start world)
    (off : settings.prune = false) (pruning : ∀ key ∈ world.graced, settings.prune = true) :
    TickOutcome settings start (.ok report) world where
  justified := tallied.justified
  pruning := pruning
  decided := tallied.decided
  idle key unseen := Nat.le_of_eq (tallied.untouched key unseen)
  present := tallied.present
  missing _ saw := tallied.missing_le saw
  completed _ _ on := absurd on (by simp [off])
  counted _ _ on := absurd on (by simp [off])

theorem tickOnce_runs {settings : Settings} {start after : DaemonWorld}
    {result : Except DaemonError TickReport} (unprobed : start.probes = [])
    (unremoved : start.unlinked = [])
    (ran : (tickOnce settings).Runs meaning start result after) :
    TickOutcome settings start result after := by
  have nothing : start.graced = [] := by rw [DaemonWorld.graced, unprobed]; rfl
  have tallied : Tallied settings start start := by
    refine ⟨fun _ => rfl, ?_, fun _ _ => rfl, ?_, ?_, ?_⟩
    · exact fun key member => by rw [nothing] at member; cases member
    · exact fun key saw => absurd saw (by simp [sawPresent, unprobed])
    · exact fun key saw => absurd saw (by simp [sawMissing, unprobed])
    · exact fun record member => absurd member (by simp [unremoved])
  have alive : Alive (fun _ => False) start [] :=
    ⟨fun _ member => (List.not_mem_nil member).elim,
      fun key saw => absurd saw (by simp [sawMissing, unprobed])⟩
  obtain ⟨answer, middle, ⟨rfl, listed⟩, ticking⟩ := ran
  cases answer with
  | error error =>
      obtain ⟨rfl, rfl⟩ := ticking
      exact .aborted tallied fun key member => by rw [nothing] at member; cases member
  | ok workspaces =>
      have distinct : (workspaces.map Workspace.id).Nodup := by
        rw [listed workspaces rfl]
        exact (List.Sublist.map _ List.filter_sublist).nodup middle.workspaces.distinct
      have rounds : ∀ {answer : Except DaemonError (TickReport × List WorktreeKey)}
          {last : DaemonWorld}, (Program.foldEach (workspaceTick settings) workspaces
            (({}, []) : TickReport × List WorktreeKey)).Runs meaning middle answer last →
          Tallied settings middle last ∧ (∀ key ∈ last.graced, settings.prune = true) ∧
            ∀ tick, answer = .ok tick → Alive (fun _ => False) last tick.2 := by
        intro answer last ran
        have exits := Program.runs_foldEach_exits
          (fun done (tick : TickReport × List WorktreeKey) state =>
            Passed settings middle middle state (fun key => settings.prune = true ∧
              ∃ id ∈ done.map Workspace.id, middle.home key.repoId = some id) ∧
            Alive (fun _ => False) state tick.2)
          (fun state => Passed settings middle middle state fun _ => settings.prune = true) ?_
          ⟨.refl tallied _, alive⟩ ran
        · have pruned : ∀ {state : DaemonWorld}, Passed settings middle middle state
              (fun _ => settings.prune = true) → ∀ key ∈ state.graced, settings.prune = true :=
            fun passed key member => (passed.graced key member).resolve_left
              (by rw [nothing]; exact List.not_mem_nil)
          cases answer with
          | ok tick =>
              obtain ⟨passed, aliveNow⟩ := exits.1 tick rfl
              exact ⟨passed.tallied, pruned (passed.mono fun _ inside => inside.1),
                fun _ same => by cases same; exact aliveNow⟩
          | error error =>
              have passed := exits.2 error rfl
              exact ⟨passed.tallied, pruned passed, fun _ same => by cases same⟩
        · rintro done workspace more tick state split ⟨passed, aliveNow⟩
          have unvisited : workspace.id ∉ done.map Workspace.id := by
            rw [split, List.map_append, List.map_cons] at distinct
            exact fun member =>
              (List.nodup_append.mp distinct).2.2 _ member _ List.mem_cons_self rfl
          have freshNow : ∀ key ∈ state.graced, state.home key.repoId ≠ some workspace.id := by
            rintro key member same
            rcases passed.graced key member with earlier | ⟨_, id, visited, homed⟩
            · rw [nothing] at earlier
              cases earlier
            · rw [passed.tallied.home, homed] at same
              cases same
              exact unvisited visited
          refine ⟨fun next later ran => ?_, fun error later ran => ?_⟩
          · obtain ⟨step, aliveNext⟩ := workspaceTick_runs passed.tallied freshNow aliveNow ran
            refine ⟨(passed.trans step).mono fun key inside => ?_, aliveNext next rfl⟩
            rcases inside with ⟨on, id, visited, homed⟩ | ⟨on, homed⟩
            · rw [List.map_append]
              exact ⟨on, id, List.mem_append_left _ visited, homed⟩
            · rw [passed.tallied.home] at homed
              exact ⟨on, workspace.id, by simp, homed⟩
          · obtain ⟨step, _⟩ := workspaceTick_runs passed.tallied freshNow aliveNow ran
            exact (passed.trans step).mono fun _ inside => inside.elim (·.1) (·.1)
      simp only [Program.bind_eq, Program.done_bind] at ticking
      rcases Program.runs_bind.mp ticking with ⟨tick, last, looping, ending⟩ | ⟨_, failed, rfl⟩
      · obtain ⟨talliedLast, pruned, aliveLast⟩ := rounds looping
        rcases Program.runs_bind.mp ending with ⟨_, final, collecting, ended⟩ | ⟨_, failed, rfl⟩
        · obtain ⟨rfl, rfl⟩ := ended
          rw [collectGarbage] at collecting
          split at collecting
          · obtain ⟨_, _, retained, ended⟩ := collecting
            rw [ended.2, show _ = last.retaining tick.2 from retained]
            exact .collected talliedLast (aliveLast tick rfl) pruned
          next off =>
            rw [collecting.2]
            exact .uncollected talliedLast (eq_false_of_ne_true off) pruned
        · rw [collectGarbage] at failed
          split at failed
          · obtain ⟨_, _, _, ended⟩ := failed
            cases ended.1
          · cases failed.1
      · exact .aborted (rounds failed).1 (rounds failed).2.1

end Daemon

end RepoLink
