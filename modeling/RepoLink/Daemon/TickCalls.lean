import RepoLink.Daemon.Tick

/-!
The world a tick runs in, with every store call allowed to fail and every probe to answer
either way, and what one tick does to it at each of its exits: which counters move, which links
go, and which probes came before.
-/

namespace RepoLink

open KeyedTable Effects

/-- One answered probe; `counted` as in the call. -/
structure PathProbe where
  path : String
  present : Bool
  counted : Option WorktreeKey
deriving DecidableEq, Repr

structure Unlinking where
  key : WorktreeKey
  probes : List PathProbe
deriving DecidableEq, Repr

structure DaemonWorld where
  workspaces : Table Workspace.id
  checkouts : Table RepoCheckout.id
  missCounts : WorktreeKey → Nat
  probes : List PathProbe
  unlinked : List Unlinking

def bumped (count : Nat) : Nat := min (count + 1) 4294967295

namespace DaemonWorld

def listed (world : DaemonWorld) : List Workspace :=
  world.workspaces.rows.filter fun workspace =>
    workspace.status ≠ .archived ∧ workspace.status ≠ .deleted

def checkoutsOf (id : WorkspaceId) (world : DaemonWorld) : List RepoCheckout :=
  world.checkouts.rows.filter fun checkout => checkout.workspaceId = id

def removedBy (checkout : RepoCheckout) (world : DaemonWorld) : List Unlinking :=
  match world.checkouts.find checkout.id with
  | none => []
  | some stored => (stored.paths.filter (· ∉ checkout.paths)).map fun path =>
      ⟨⟨checkout.id, path⟩, world.probes⟩

def saved (checkout : RepoCheckout) (world : DaemonWorld) : DaemonWorld :=
  { world with
    checkouts := world.checkouts.upsert checkout (fun _ => checkout) fun _ _ => rfl
    unlinked := world.unlinked ++ world.removedBy checkout }

def probed (path : String) (present : Bool) (counted : Option WorktreeKey)
    (world : DaemonWorld) : DaemonWorld :=
  { world with probes := world.probes ++ [⟨path, present, counted⟩] }

def counting (key : WorktreeKey) (count : Nat) (world : DaemonWorld) : DaemonWorld :=
  { world with missCounts := fun other => if other = key then count else world.missCounts other }

def retaining (keys : List WorktreeKey) (world : DaemonWorld) : DaemonWorld :=
  { world with missCounts := fun key => if key ∈ keys then world.missCounts key else 0 }

def answers (op : DaemonOp) (before : DaemonWorld) (answer : op.Answer) (after : DaemonWorld) :
    Prop :=
  match op, answer with
  | .listWorkspaces, answer => after = before ∧ ∀ rows, answer = .ok rows → rows = before.listed
  | .getWorkspace id, answer =>
    after = before ∧ ∀ row, answer = .ok row → before.workspaces.find id = some row
  | .listByWorkspace id, answer =>
    after = before ∧ ∀ rows, answer = .ok rows → rows = before.checkoutsOf id
  | .getInstance id, answer =>
    after = before ∧ ∀ row, answer = .ok row → before.checkouts.find id = some row
  | .saveInstance checkout, answer =>
    (answer = .ok () ∧ after = before.saved checkout) ∨
      ∃ error, answer = .error error ∧ after = before
  | .pathExists path counted, answer =>
    (∃ present, answer = .ok present ∧ after = before.probed path present counted) ∨
      ∃ error, answer = .error error ∧ after = before
  | .bumpMiss key, answer =>
    answer = bumped (before.missCounts key) ∧ after = before.counting key answer
  | .dropMiss key, _ => after = before.counting key 0
  | .retainMisses keys, _ => after = before.retaining keys

abbrev meaning : Semantics daemonPorts DaemonWorld := answers

def home (id : RepoId) (world : DaemonWorld) : Option WorkspaceId :=
  (world.checkouts.find id).map (·.workspaceId)

def pathsOf (id : RepoId) (world : DaemonWorld) : Option (List String) :=
  (world.checkouts.find id).map (·.paths)

def graced (world : DaemonWorld) : List WorktreeKey := world.probes.filterMap (·.counted)

def sawMissing (key : WorktreeKey) (world : DaemonWorld) : Prop :=
  ⟨key.path, false, some key⟩ ∈ world.probes

def sawPresent (key : WorktreeKey) (world : DaemonWorld) : Prop :=
  ⟨key.path, true, some key⟩ ∈ world.probes

/-- A mark-only step: probes without counters and saves that keep every link. -/
structure Observed (before after : DaemonWorld) : Prop where
  missCounts : after.missCounts = before.missCounts
  unlinked : after.unlinked = before.unlinked
  probes : ∃ more, after.probes = before.probes ++ more ∧ ∀ probe ∈ more, probe.counted = none
  workspaces : after.workspaces = before.workspaces
  home : ∀ id, after.home id = before.home id
  pathsOf : ∀ id, after.pathsOf id = before.pathsOf id

namespace Observed

theorem refl (world : DaemonWorld) : Observed world world :=
  ⟨rfl, rfl, ⟨[], by simp, nofun⟩, rfl, fun _ => rfl, fun _ => rfl⟩

theorem trans {first second third : DaemonWorld} (left : Observed first second)
    (right : Observed second third) : Observed first third := by
  obtain ⟨more, moreEq, unlabelled⟩ := left.probes
  obtain ⟨again, againEq, stillUnlabelled⟩ := right.probes
  refine ⟨right.missCounts.trans left.missCounts, right.unlinked.trans left.unlinked,
    ⟨more ++ again, by rw [againEq, moreEq, List.append_assoc], ?_⟩,
    right.workspaces.trans left.workspaces, fun id => (right.home id).trans (left.home id),
    fun id => (right.pathsOf id).trans (left.pathsOf id)⟩
  intro probe member
  rcases List.mem_append.mp member with earlier | later
  · exact unlabelled probe earlier
  · exact stillUnlabelled probe later

theorem graced {before after : DaemonWorld} (observed : Observed before after) :
    after.graced = before.graced := by
  obtain ⟨more, moreEq, unlabelled⟩ := observed.probes
  have none : more.filterMap (·.counted) = [] := List.filterMap_eq_nil_iff.mpr unlabelled
  rw [DaemonWorld.graced, moreEq, List.filterMap_append, none, List.append_nil]
  rfl

theorem mem_probes {before after : DaemonWorld} (observed : Observed before after)
    {path : String} {present : Bool} {key : WorktreeKey} :
    ⟨path, present, some key⟩ ∈ after.probes ↔ ⟨path, present, some key⟩ ∈ before.probes := by
  obtain ⟨more, moreEq, unlabelled⟩ := observed.probes
  rw [moreEq, List.mem_append]
  refine ⟨fun member => member.resolve_right fun later => ?_, .inl⟩
  cases unlabelled _ later

end Observed

theorem find_saved (checkout : RepoCheckout) (world : DaemonWorld) (id : RepoId) :
    (world.saved checkout).checkouts.find id =
      if id = checkout.id then some checkout else world.checkouts.find id := by
  rw [saved, Table.find_upsert]
  split
  · cases world.checkouts.find id <;> rfl
  · rfl

theorem observed_saved {checkout : RepoCheckout} {world : DaemonWorld}
    (home : world.home checkout.id = some checkout.workspaceId)
    (pathsOf : world.pathsOf checkout.id = some checkout.paths) :
    Observed world (world.saved checkout) := by
  have nothing : world.removedBy checkout = [] := by
    rw [DaemonWorld.pathsOf, Option.map_eq_some_iff] at pathsOf
    obtain ⟨stored, found, samePaths⟩ := pathsOf
    simp only [removedBy, found, samePaths, List.map_eq_nil_iff, List.filter_eq_nil_iff,
      decide_eq_true_eq, not_not]
    exact fun _ member => member
  refine ⟨rfl, by rw [saved, nothing, List.append_nil], ⟨[], by simp [saved],
    fun _ member => (List.not_mem_nil member).elim⟩, rfl, ?_, ?_⟩
  · intro id
    rw [DaemonWorld.home, find_saved]
    split
    next same =>
      subst same
      exact home.symm
    next => rfl
  · intro id
    rw [DaemonWorld.pathsOf, find_saved]
    split
    next same =>
      subst same
      exact pathsOf.symm
    next => rfl

theorem observed_probed (path : String) (present : Bool) (world : DaemonWorld) :
    Observed world (world.probed path present none) :=
  ⟨rfl, rfl, ⟨[⟨path, present, none⟩], rfl, by simp⟩, rfl, fun _ => rfl, fun _ => rfl⟩

end DaemonWorld

namespace RepoBindingService

open DaemonWorld

theorem ofExcept_runs {ε α : Type} {result answer : Except ε α} {before after : DaemonWorld}
    (ran : (Program.ofExcept result : DaemonProgram ε α).Runs meaning before answer after) :
    answer = result ∧ after = before := by
  cases result <;> exact ran

theorem requireBinding_runs {α : Type} {result : Except PortError α}
    {answer : Except BindingError α} {before after : DaemonWorld}
    (ran : (requireBinding result).Runs meaning before answer after) :
    after = before ∧ ∀ value, answer = .ok value → result = .ok value := by
  obtain ⟨rfl, rfl⟩ := ofExcept_runs ran
  refine ⟨rfl, ?_⟩
  cases result with
  | ok value =>
      intro _ same
      cases same
      rfl
  | error error => exact fun _ same => nomatch same

theorem probeLink_observed {found : Nat × List String} {link : WorktreeLink}
    {answer : Except BindingError (Nat × List String)} {before after : DaemonWorld}
    (ran : (probeLink found link).Runs meaning before answer after) : Observed before after := by
  obtain ⟨result, middle, answered, rest⟩ := ran
  have observed : Observed before middle := by
    rcases answered with ⟨present, _, rfl⟩ | ⟨_, _, rfl⟩
    · exact observed_probed link.path present before
    · exact .refl middle
  simp only [Program.bind_eq, Program.done_bind] at rest
  rcases Program.runs_bind.mp rest with ⟨_, last, first, second⟩ | ⟨_, failed, _⟩
  · rw [second.2, (requireBinding_runs first).1]
    exact observed
  · rw [(requireBinding_runs failed).1]
    exact observed

theorem markPathMissing_shape {path : String} {checkout marked : RepoCheckout}
    (done : checkout.markPathMissing path = .ok marked) :
    marked.id = checkout.id ∧ marked.workspaceId = checkout.workspaceId ∧
      marked.paths = checkout.paths := by
  rw [RepoCheckout.markPathMissing] at done
  split at done
  · cases done
  · cases done
    refine ⟨rfl, rfl, ?_⟩
    simp only [RepoCheckout.paths, Table.modify, Table.mapRows, List.map_map]
    refine List.map_congr_left fun link _ => ?_
    simp only [Function.comp_apply]
    split <;> rfl

theorem markMissing_runs {checkout : RepoCheckout} {paths : List String}
    {answer : Except BindingError RepoCheckout} {before after : DaemonWorld}
    (ran : (Program.foldEach markMissing paths checkout).Runs meaning before answer after) :
    after = before ∧ ∀ marked, answer = .ok marked →
      marked.id = checkout.id ∧ marked.workspaceId = checkout.workspaceId ∧
        marked.paths = checkout.paths := by
  have exits := Program.runs_foldEach_exits
    (fun _ marked state => state = before ∧ marked.id = checkout.id ∧
      marked.workspaceId = checkout.workspaceId ∧ marked.paths = checkout.paths)
    (fun state => state = before) ?_ ⟨rfl, rfl, rfl, rfl⟩ ran
  · cases answer with
    | ok marked =>
        obtain ⟨same, shape⟩ := exits.1 marked rfl
        exact ⟨same, fun _ same => by cases same; exact shape⟩
    | error error => exact ⟨exits.2 error rfl, fun _ same => nomatch same⟩
  · rintro _ path _ value middle _ ⟨rfl, sameId, sameHome, samePaths⟩
    refine ⟨?_, ?_⟩
    · intro next later ran
      obtain ⟨marked, rfl⟩ := ofExcept_runs ran
      cases stepped : value.markPathMissing path with
      | error error =>
          rw [stepped] at marked
          cases marked
      | ok result =>
          rw [stepped] at marked
          cases marked
          obtain ⟨idEq, homeEq, pathsEq⟩ := markPathMissing_shape stepped
          exact ⟨rfl, idEq.trans sameId, homeEq.trans sameHome, pathsEq.trans samePaths⟩
    · intro error later ran
      exact (ofExcept_runs ran).2

theorem saveReconciled_observed {changed : Bool} {checkout : RepoCheckout}
    {answer : Except BindingError Unit} {before after : DaemonWorld}
    (home : before.home checkout.id = some checkout.workspaceId)
    (pathsOf : before.pathsOf checkout.id = some checkout.paths)
    (ran : (saveReconciled changed checkout).Runs meaning before answer after) :
    Observed before after := by
  cases changed with
  | false =>
      rw [ran.2]
      exact .refl before
  | true =>
      obtain ⟨result, middle, answered, rest⟩ := ran
      rw [(requireBinding_runs rest).1]
      rcases answered with ⟨_, rfl⟩ | ⟨_, _, rfl⟩
      · exact observed_saved home pathsOf
      · exact .refl middle

theorem reconcileInstance_observed {summary : ReconcileSummary} {view : RepoCheckout}
    {answer : Except BindingError ReconcileSummary} {before after : DaemonWorld}
    (home : before.home view.id = some view.workspaceId)
    (pathsOf : before.pathsOf view.id = some view.paths)
    (ran : (reconcileInstance false summary view).Runs meaning before answer after) :
    Observed before after := by
  have probing : ∀ {found : Except BindingError (Nat × List String)} {middle : DaemonWorld},
      (Program.foldEach probeLink view.worktrees.rows (0, [])).Runs meaning before found middle →
      Observed before middle := by
    intro found middle ran
    have exits := Program.runs_foldEach_exits (fun _ _ state => Observed before state)
      (fun state => Observed before state)
      (fun _ _ _ _ _ _ held => ⟨fun _ _ ran => held.trans (probeLink_observed ran),
        fun _ _ ran => held.trans (probeLink_observed ran)⟩) (.refl before) ran
    cases found with
    | ok value => exact exits.1 value rfl
    | error error => exact exits.2 error rfl
  rcases Program.runs_bind.mp ran with ⟨probed, middle, first, second⟩ | ⟨_, failed, _⟩
  · have observed := probing first
    rcases Program.runs_bind.mp second with ⟨marked, later, third, fourth⟩ | ⟨_, failed, _⟩
    · obtain ⟨rfl, shape⟩ := markMissing_runs third
      obtain ⟨idEq, homeEq, pathsEq⟩ := shape marked rfl
      have saving : ∀ {saved : Except BindingError Unit} {state : DaemonWorld},
          (saveReconciled (!probed.2.isEmpty || (0 : Nat) != 0) marked).Runs meaning later saved
            state → Observed later state := fun ran => saveReconciled_observed
          (by rw [idEq, homeEq, observed.home, home])
          (by rw [idEq, pathsEq, observed.pathsOf, pathsOf]) ran
      rcases Program.runs_bind.mp fourth with ⟨_, last, fifth, sixth⟩ | ⟨_, failed, _⟩
      · rw [sixth.2]
        exact observed.trans (saving fifth)
      · exact observed.trans (saving failed)
    · rw [(markMissing_runs failed).1]
      exact observed
  · exact probing failed

theorem home_of_listed {world : DaemonWorld} {id : WorkspaceId} {view : RepoCheckout}
    (listed : view ∈ world.checkoutsOf id) :
    world.home view.id = some id ∧ world.home view.id = some view.workspaceId ∧
      world.pathsOf view.id = some view.paths := by
  obtain ⟨member, sameHome⟩ := List.mem_filter.mp listed
  have found := Table.find_of_mem member
  rw [DaemonWorld.home, DaemonWorld.pathsOf, found]
  exact ⟨congrArg some (of_decide_eq_true sameHome), rfl, rfl⟩

theorem reconcileWorktrees_observed {workspaceId : WorkspaceId}
    {answer : Except BindingError ReconcileSummary} {before after : DaemonWorld}
    (ran : (reconcileWorktrees workspaceId false).Runs meaning before answer after) :
    Observed before after := by
  obtain ⟨workspace, middle, ⟨rfl, _⟩, reading⟩ := ran
  simp only [Program.bind_eq, Program.done_bind] at reading
  rcases Program.runs_bind.mp reading with ⟨_, state, present, listing⟩ | ⟨_, failed, _⟩
  · rw [(requireBinding_runs present).1] at listing
    obtain ⟨rows, state, ⟨rfl, listed⟩, answering⟩ := listing
    simp only [Program.done_bind] at answering
    rcases Program.runs_bind.mp answering with ⟨views, later, given, rest⟩ | ⟨_, failed, _⟩
    · obtain ⟨rfl, answered⟩ := requireBinding_runs given
      have viewsEq : views = later.checkoutsOf workspaceId := listed views (answered views rfl)
      have exits := Program.runs_foldEach_exits (fun _ _ state => Observed later state)
        (fun state => Observed later state) ?_ (.refl later) rest
      · cases answer with
        | ok summary => exact exits.1 summary rfl
        | error error => exact exits.2 error rfl
      · intro done view more summary state split observed
        have member : view ∈ later.checkoutsOf workspaceId := by
          rw [← viewsEq, split]
          simp
        obtain ⟨_, home, pathsOf⟩ := home_of_listed member
        have rounds : ∀ {answer : Except BindingError ReconcileSummary} {last : DaemonWorld},
            (reconcileInstance false summary view).Runs meaning state answer last →
            Observed later last := fun ran => observed.trans (reconcileInstance_observed
          (by rw [observed.home, home]) (by rw [observed.pathsOf, pathsOf]) ran)
        exact ⟨fun _ _ ran => rounds ran, fun _ _ ran => rounds ran⟩
    · rw [(requireBinding_runs failed).1]
      exact .refl state
  · rw [(requireBinding_runs failed).1]
    exact .refl middle

theorem list_runs {workspaceId : WorkspaceId} {answer : Except BindingError (List RepoCheckout)}
    {before after : DaemonWorld}
    (ran : (RepoBindingService.list workspaceId).Runs meaning before answer after) :
    after = before ∧ ∀ views, answer = .ok views →
      views = [] ∨ views = before.checkoutsOf workspaceId := by
  obtain ⟨workspace, middle, ⟨rfl, _⟩, reading⟩ := ran
  simp only [Program.bind_eq, Program.done_bind] at reading
  rcases Program.runs_bind.mp reading with ⟨found, state, present, listing⟩ | ⟨_, failed, rfl⟩
  · rw [(requireBinding_runs present).1] at listing
    split at listing
    · exact ⟨listing.2, fun views same => by cases listing.1.symm.trans same; exact .inl rfl⟩
    · obtain ⟨rows, state, ⟨rfl, listed⟩, answering⟩ := listing
      obtain ⟨rfl, answered⟩ := requireBinding_runs answering
      exact ⟨rfl, fun views same => .inr (listed views (answered views same))⟩
  · exact ⟨(requireBinding_runs failed).1, fun _ same => nomatch same⟩

theorem unlinkWorktree_shape {path : String} {checkout unlinked : RepoCheckout}
    (done : checkout.unlinkWorktree path = .ok unlinked) :
    unlinked.id = checkout.id ∧ unlinked.workspaceId = checkout.workspaceId ∧
      path ∈ checkout.paths ∧ ∀ other, other ∈ unlinked.paths ↔ other ∈ checkout.paths ∧ other ≠ path := by
  rw [RepoCheckout.unlinkWorktree] at done
  split at done
  · cases done
  next shorter =>
    cases done
    refine ⟨rfl, rfl, ?_, ?_⟩
    · by_contra absent
      refine shorter (congrArg List.length (List.filter_eq_self.mpr fun link member => ?_))
      refine decide_eq_true fun same => absent ?_
      exact List.mem_map.mpr ⟨link, member, same⟩
    · intro other
      simp only [RepoCheckout.paths, Table.filter, List.mem_map, List.mem_filter,
        decide_eq_true_eq]
      constructor
      · rintro ⟨link, ⟨member, kept⟩, rfl⟩
        exact ⟨⟨link, member, rfl⟩, kept⟩
      · rintro ⟨⟨link, member, rfl⟩, kept⟩
        exact ⟨link, ⟨member, kept⟩, rfl⟩

/-- Unlinking removes the one link and records it, or writes nothing. -/
theorem unlinkWorktree_runs {key : WorktreeKey} {answer : Except BindingError Unit}
    {before after : DaemonWorld}
    (ran : (RepoBindingService.unlinkWorktree key).Runs meaning before answer after) :
    ((∃ error, answer = .error error) ∧ after = before) ∨
      (answer = .ok () ∧ after.missCounts = before.missCounts ∧ after.probes = before.probes ∧
        (∀ id, after.home id = before.home id) ∧
        ∃ removed, after.unlinked = before.unlinked ++ removed ∧ ⟨key, before.probes⟩ ∈ removed ∧
          ∀ record ∈ removed, record = ⟨key, before.probes⟩) := by
  obtain ⟨found, middle, ⟨rfl, stored⟩, reading⟩ := ran
  simp only [Program.bind_eq, Program.done_bind] at reading
  rcases Program.runs_bind.mp reading with ⟨checkout, state, first, changing⟩ | ⟨error, failed, rfl⟩
  · obtain ⟨rfl, answered⟩ := requireBinding_runs first
    have held := stored checkout (answered checkout rfl)
    rcases Program.runs_bind.mp changing with ⟨unlinked, later, second, saving⟩ | ⟨error, failed, rfl⟩
    · obtain ⟨done, rfl⟩ := ofExcept_runs second
      cases stepped : checkout.unlinkWorktree key.path with
      | error error =>
          rw [stepped] at done
          cases done
      | ok result =>
          rw [stepped] at done
          cases done
          obtain ⟨idEq, homeEq, linked, remaining⟩ := unlinkWorktree_shape stepped
          have idKey : checkout.id = key.repoId := Table.find_key held
          obtain ⟨saved, last, written, ended⟩ := saving
          rcases written with ⟨rfl, rfl⟩ | ⟨error, rfl, rfl⟩
          · obtain ⟨rfl, rfl⟩ : answer = .ok () ∧ after = later.saved unlinked := ended
            refine .inr ⟨rfl, rfl, rfl, ?_, later.removedBy unlinked, rfl, ?_, ?_⟩
            · intro id
              rw [DaemonWorld.home, find_saved]
              split
              next same =>
                subst same
                rw [DaemonWorld.home, idEq, idKey, held]
                exact congrArg some homeEq
              next => rfl
            · simp only [removedBy, idEq, idKey, held, List.mem_map, List.mem_filter,
                decide_eq_true_eq]
              exact ⟨key.path, ⟨linked, fun kept => ((remaining _).mp kept).2 rfl⟩, rfl⟩
            · intro record member
              simp only [removedBy, idEq, idKey, held, List.mem_map, List.mem_filter,
                decide_eq_true_eq] at member
              obtain ⟨path, ⟨linkedPath, gone⟩, rfl⟩ := member
              have same : path = key.path := by
                by_contra differs
                exact gone ((remaining path).mpr ⟨linkedPath, differs⟩)
              rw [same]
          · obtain ⟨rfl, rfl⟩ : answer = .error (.port error) ∧ after = last := ended
            exact .inl ⟨⟨_, rfl⟩, rfl⟩
    · exact .inl ⟨⟨error, rfl⟩, (ofExcept_runs failed).2⟩
  · exact .inl ⟨⟨error, rfl⟩, (requireBinding_runs failed).1⟩

end RepoBindingService

end RepoLink
