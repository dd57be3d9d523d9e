import RepoLink.Daemon.TickCalls
import RepoLink.Library.Mirrors
import RepoLink.RepoBindings.Service

/-!
The registry call by call against its coarser pictures. A tick sees the id, the workspace and the
links of an instance and no clock; so seen, `reconcile_worktrees` and `unlink_worktree` of the
registry are the tick's. The allocation of a prefix is the pure retry loop when the clock stands
and nothing fails.
-/

namespace RepoLink

open Effects Program KeyedTable

abbrev LinkTable := Table fun link : LinkRow => link.path

def seenLinks (links : LinkTable) : Table WorktreeLink.path :=
  links.image LinkRow.toWorktreeLink fun _ => rfl

theorem length_seenLinks (links : LinkTable) : (seenLinks links).rows.length = links.rows.length :=
  List.length_map ..

theorem seenLinks_filter (keep : WorktreeLink → Bool) (links : LinkTable) :
    seenLinks (links.filter fun link => keep link.toWorktreeLink) =
      (seenLinks links).filter keep :=
  Table.image_filter _ _ (fun _ => rfl) links

def InstanceRow.toCheckout (row : InstanceRow) : RepoCheckout where
  id := row.id
  workspaceId := row.workspaceId
  worktrees := seenLinks row.worktrees

namespace InstanceRow

def paths (row : InstanceRow) : List String := row.worktrees.rows.map fun link => link.path

theorem toCheckout_paths (row : InstanceRow) : row.toCheckout.paths = row.paths :=
  List.map_map ..

variable (now : Timestamp) (path : String) (row : InstanceRow)

theorem toCheckout_unlinkWorktree :
    (row.unlinkWorktree now path).map toCheckout = row.toCheckout.unlinkWorktree path := by
  have kept := seenLinks_filter (fun link => link.path ≠ path) row.worktrees
  have lengths := congrArg (fun table => table.rows.length) kept
  rw [length_seenLinks] at lengths
  by_cases whole : (row.worktrees.filter fun link => link.path ≠ path).rows.length =
      row.worktrees.rows.length
  · refine (congrArg (Except.map toCheckout) (if_pos whole)).trans (Eq.symm ?_)
    exact if_pos (lengths.symm.trans (whole.trans (length_seenLinks _).symm))
  · refine (congrArg (Except.map toCheckout) (if_neg whole)).trans (Eq.symm ?_)
    refine (if_neg fun same =>
      whole (lengths.trans (same.trans (length_seenLinks row.worktrees)))).trans ?_
    exact congrArg (fun worktrees => Except.ok (RepoCheckout.mk row.id row.workspaceId worktrees))
      kept.symm

theorem toCheckout_markPathMissing :
    (row.markPathMissing now path).map toCheckout = row.toCheckout.markPathMissing path := by
  have found : row.toCheckout.worktrees.find path =
      (row.worktrees.find path).map LinkRow.toWorktreeLink :=
    Table.find_image LinkRow.toWorktreeLink (fun _ => rfl) row.worktrees path
  unfold markPathMissing RepoCheckout.markPathMissing
  rw [found]
  cases row.worktrees.find path with
  | none => rfl
  | some link =>
      refine congrArg
        (fun worktrees => Except.ok (RepoCheckout.mk row.id row.workspaceId worktrees)) ?_
      exact @Table.image_modify _ _ _ _ _ WorktreeLink.path LinkRow.toWorktreeLink (fun _ => rfl)
        path (fun link => { link with status := .missingPath })
        (fun link => { link with status := .missingPath }) (fun _ same => same)
        (fun _ same => same) (fun _ => rfl) row.worktrees

theorem toCheckout_pruneMissing : row.toCheckout.pruneMissing =
    ((row.pruneMissing now).1, (row.pruneMissing now).2.toCheckout) := by
  have kept := seenLinks_filter (fun link => link.status ≠ .missingPath) row.worktrees
  have lengths := congrArg (fun table => table.rows.length) kept
  rw [length_seenLinks] at lengths
  have pruned : row.toCheckout.pruneMissing.1 = (row.pruneMissing now).1 :=
    congrArg₂ (· - ·) (length_seenLinks row.worktrees) lengths.symm
  refine Prod.ext pruned ?_
  refine (congrArg (fun worktrees => (⟨row.id, row.workspaceId, worktrees⟩ : RepoCheckout))
    kept.symm).trans ?_
  unfold pruneMissing
  dsimp only
  split <;> rfl

end InstanceRow

namespace RepoBindings

def tickSight : (op : BindingOp) → Sight bindingPorts daemonPorts op
  | .now => .hidden
  | .newOriginId _ => .hidden
  | .newInstanceId => .hidden
  | .query (.getWorkspace id) => .seen (.getWorkspace id) fun answer => answer
  | .query (.listByWorkspace id) =>
    .seen (.listByWorkspace id) (Except.map (List.map fun view => view.checkout.toCheckout))
  | .query (.getInstance id) =>
    .seen (.getInstance id) (Except.map fun view => view.checkout.toCheckout)
  | .query (.saveInstance row) => .seen (.saveInstance row.toCheckout) fun answer => answer
  | .query (.pathExists path) => .seen (.pathExists path none) fun answer => answer
  | .query _ => .foreign

inductive SameError : RepoServiceError → BindingError → Prop where
  | port (error : PortError) : SameError (.binding (.port error)) (.port error)
  | domain (error : DomainError) : SameError (.binding (.domain error)) (.domain error)

abbrev OnTick {α β : Type} (values : α → β → Prop) (program : Action α)
    (tick : DaemonProgram BindingError β) : Prop :=
  program.Mirrors tickSight SameError values tick

section Programs

variable {α β : Type}

theorem answer_onTick (see : α → β) (answer : Except PortError α) :
    OnTick (fun value seen => seen = see value)
      (.ofExcept (answer.mapError fun error => .binding (.port error)))
      (RepoBindingService.requireBinding (answer.map see)) := by
  cases answer with
  | ok value => exact mirrors_done rfl
  | error error => exact mirrors_fail (.port error)

theorem checked_onTick (see : α → β) (result : Except DomainError α) :
    OnTick (fun value seen => seen = see value) (checked result)
      (RepoBindingService.required (result.map see)) := by
  cases result with
  | ok value => exact mirrors_done rfl
  | error error => exact mirrors_fail (.domain error)

theorem sameAnswer_onTick (answer : Except PortError α) :
    OnTick Eq (.ofExcept (answer.mapError fun error => .binding (.port error)))
      (RepoBindingService.requireBinding answer) := by
  cases answer with
  | ok value => exact mirrors_done rfl
  | error error => exact mirrors_fail (.port error)

theorem saveInstance_onTick (row : InstanceRow) :
    OnTick Eq (require (.saveInstance row))
      ((ask (.saveInstance row.toCheckout)).bind RepoBindingService.requireBinding) :=
  mirrors_seen rfl sameAnswer_onTick

theorem probeLink_onTick (link : LinkRow) (count : Nat) (missing : List String) :
    OnTick (fun value found => found = (count + 1, value)) (probeLink missing link)
      (RepoBindingService.probeLink (count, missing) link.toWorktreeLink) := by
  have probes : OnTick Eq (require (.pathExists link.path))
      ((ask (.pathExists link.path none)).bind RepoBindingService.requireBinding) :=
    mirrors_seen rfl sameAnswer_onTick
  have asked : RepoBindingService.probeLink (count, missing) link.toWorktreeLink =
      ((ask (.pathExists link.path none)).bind RepoBindingService.requireBinding).bind
        fun present => .done (count + 1,
          if present = false ∧ ¬(link.status = .missingPath ∨ link.status = .detached) then
            missing ++ [link.path] else missing) := (bind_assoc ..).symm
  rw [asked]
  refine probes.bind fun present _ same => ?_
  subst same
  refine mirrors_done (Prod.ext rfl ?_)
  simp only [not_or]

theorem now_onTick {values : α → β → Prop} {next : Timestamp → Action α}
    {tick : DaemonProgram BindingError β} (each : ∀ now, OnTick values (next now) tick) :
    OnTick values ((plain .now).bind next) tick :=
  mirrors_hidden (show tickSight .now = .hidden from rfl) each

theorem markMissing_onTick (row : InstanceRow) (path : String) :
    OnTick (fun value seen => seen = value.toCheckout) (markMissing row path)
      (RepoBindingService.markMissing row.toCheckout path) := by
  refine now_onTick fun now => ?_
  rw [RepoBindingService.markMissing, ← InstanceRow.toCheckout_markPathMissing now]
  exact checked_onTick InstanceRow.toCheckout _

theorem pruneMarked_onTick (prune : Bool) (row : InstanceRow) :
    OnTick (fun value seen => seen = (value.1, value.2.toCheckout)) (pruneMarked prune row)
      (.done (if prune then row.toCheckout.pruneMissing else (0, row.toCheckout))) := by
  cases prune with
  | false => exact mirrors_done rfl
  | true => exact now_onTick fun now => ⟨_, rfl, row.toCheckout_pruneMissing now⟩

theorem probeLinks_onTick (links : LinkTable) :
    OnTick (fun missing found => found = (links.rows.length, missing))
      (Program.foldEach probeLink links.rows [])
      (Program.foldEach RepoBindingService.probeLink (seenLinks links).rows (0, [])) := by
  have images : List.Forall₂ (fun link image => image = LinkRow.toWorktreeLink link)
      links.rows (seenLinks links).rows :=
    List.forall₂_map_right_iff.mpr (List.forall₂_same.mpr fun _ _ => rfl)
  have looped := @Mirrors.foldEach _ _ _ _ _ _ _ _ tickSight SameError probeLink
    RepoBindingService.probeLink _ (fun count missing found => found = (count, missing))
    (fun count missing _ link _ same related => by
      subst same related
      exact probeLink_onTick link count missing) _ _ 0 [] _ images rfl
  rwa [Nat.zero_add] at looped

theorem markEach_onTick (missing : List String) (row : InstanceRow) :
    OnTick (fun value seen => seen = value.toCheckout) (Program.foldEach markMissing missing row)
      (Program.foldEach RepoBindingService.markMissing missing row.toCheckout) :=
  @Mirrors.foldEach _ _ _ _ _ _ _ _ tickSight SameError markMissing
    RepoBindingService.markMissing Eq (fun _ value seen => seen = value.toCheckout)
    (fun _ value _ path _ same related => by
      subst same related
      exact markMissing_onTick value path) _ _ 0 row _ (List.forall₂_same.mpr fun _ _ => rfl) rfl

theorem reconcileInstance_onTick (prune : Bool) (summary : ReconcileSummary) (view : BoundRepo) :
    OnTick Eq (reconcileInstance prune summary view)
      (RepoBindingService.reconcileInstance prune summary view.checkout.toCheckout) := by
  refine (probeLinks_onTick view.checkout.worktrees).bind fun missing _ found => ?_
  subst found
  refine (markEach_onTick missing view.checkout).bind fun marked _ seen => ?_
  subst seen
  refine (pruneMarked_onTick prune marked).bind_done fun pruned seen => ?_
  unfold RepoBindingService.saveReconciled
  rw [seen]
  dsimp only
  split
  · exact (saveInstance_onTick pruned.2).bind fun _ _ _ => mirrors_done rfl
  · exact mirrors_done rfl

theorem reconcileWorktrees_onTick (workspaceId : WorkspaceId) (prune : Bool) :
    OnTick Eq (reconcileWorktrees workspaceId prune)
      (RepoBindingService.reconcileWorktrees workspaceId prune) := by
  refine mirrors_seen rfl fun answer => (sameAnswer_onTick answer).bind fun _ _ _ => ?_
  refine mirrors_seen rfl fun answer => (answer_onTick _ answer).bind fun views _ seen => ?_
  subst seen
  have images : List.Forall₂ (fun view image => image = InstanceRow.toCheckout view.checkout)
      views (views.map fun view => view.checkout.toCheckout) :=
    List.forall₂_map_right_iff.mpr (List.forall₂_same.mpr fun _ _ => rfl)
  exact @Mirrors.foldEach _ _ _ _ _ _ _ _ tickSight SameError (reconcileInstance prune)
    (RepoBindingService.reconcileInstance prune) _ (fun _ => Eq)
    (fun _ summary _ view _ same related => by
      subst same related
      exact reconcileInstance_onTick prune summary view) _ _ 0 {} {} images rfl

theorem unlinkWorktree_onTick (id : RepoId) (path : String) :
    OnTick (fun _ _ => True) (unlinkWorktree id path)
      (RepoBindingService.unlinkWorktree ⟨id, path⟩) := by
  refine mirrors_seen rfl fun answer => (answer_onTick _ answer).bind fun view _ seen => ?_
  subst seen
  refine now_onTick fun now => ?_
  rw [← InstanceRow.toCheckout_unlinkWorktree now]
  refine (checked_onTick InstanceRow.toCheckout _).bind fun row _ seen => ?_
  subst seen
  have saves : OnTick (fun _ _ => True)
      ((require (.saveInstance row)).bind fun _ => .done { view with checkout := row })
      (((ask (.saveInstance row.toCheckout)).bind RepoBindingService.requireBinding).bind .done) :=
    (saveInstance_onTick row).bind fun _ _ _ => mirrors_done trivial
  rwa [bind_done] at saves

end Programs

section Store

abbrev seenInstances (instances : Table fun row : InstanceRow => row.id) : Table RepoCheckout.id :=
  @Table.image _ _ (fun row : InstanceRow => row.id) _ RepoCheckout.id InstanceRow.toCheckout
    (fun _ => rfl) instances

/-- The world that a tick sees in the tables. Every instance has its origin, as the schema asks. -/
structure Shows (store : BindingStore) (world : DaemonWorld) : Prop where
  workspaces : world.workspaces = store.workspaces
  checkouts : world.checkouts = seenInstances store.instances.table
  hosted : ∀ row ∈ store.instances.table.rows, (store.origins.table.find row.originId).isSome = true

variable {store after : BindingStore} {world : DaemonWorld}

theorem view_hosted (shows : Shows store world) {row : InstanceRow}
    (member : row ∈ store.instances.table.rows) :
    ∃ origin, store.view row = some ⟨row, origin⟩ := by
  obtain ⟨origin, found⟩ := Option.isSome_iff_exists.mp (shows.hosted row member)
  exact ⟨origin, by rw [BindingStore.view, found, Option.map_some]⟩

theorem checkoutsOf_shown (shows : Shows store world) (id : WorkspaceId) :
    world.checkoutsOf id = (store.boundIn id).map fun view => view.checkout.toCheckout := by
  unfold DaemonWorld.checkoutsOf BindingStore.boundIn
  rw [shows.checkouts]
  have hosted := fun row member => @view_hosted store world shows row member
  change (store.instances.table.rows.map InstanceRow.toCheckout).filter _ = _
  generalize store.instances.table.rows = rows at hosted ⊢
  induction rows with
  | nil => rfl
  | cons row rest ih =>
      obtain ⟨origin, seen⟩ := hosted row List.mem_cons_self
      have others := ih fun row member => hosted row (List.mem_cons_of_mem _ member)
      rw [List.map_cons, List.filter_cons, List.filter_cons]
      by_cases home : row.workspaceId = id
      · have shown : row.toCheckout.workspaceId = id := home
        rw [if_pos (decide_eq_true shown), if_pos (decide_eq_true home),
          List.filterMap_cons_some seen, List.map_cons, others]
      · have other : ¬row.toCheckout.workspaceId = id := home
        rw [if_neg (by simpa using other), if_neg (by simpa using home), others]

theorem find_shown (shows : Shows store world) (id : RepoId) :
    world.checkouts.find id = (store.instances.table.find id).map InstanceRow.toCheckout := by
  rw [shows.checkouts]
  exact @Table.find_image _ _ (fun row : InstanceRow => row.id) _ _ RepoCheckout.id
    InstanceRow.toCheckout (fun _ => rfl) store.instances.table id

theorem pathsOf_shown (shows : Shows store world) (id : RepoId) :
    world.pathsOf id = (store.instances.table.find id).map InstanceRow.paths := by
  rw [DaemonWorld.pathsOf, find_shown shows, Option.map_map]
  exact congrArg (Option.map · _) (funext InstanceRow.toCheckout_paths)

theorem getInstance_shown (shows : Shows store world) {id : RepoId} {view : BoundRepo}
    (found : (store.instances.table.find id).bind store.view = some view) :
    world.checkouts.find id = some view.checkout.toCheckout := by
  obtain ⟨row, stored, seen⟩ := Option.bind_eq_some_iff.mp found
  obtain ⟨origin, _, rfl⟩ := Option.map_eq_some_iff.mp seen
  rw [find_shown shows, stored, Option.map_some]

theorem saveInstance_shown (shows : Shows store world) {row : InstanceRow}
    (saved : store.saveInstance row = .ok after) : Shows after (world.saved row.toCheckout) := by
  unfold BindingStore.saveInstance at saved
  split at saved
  · cases saved
  rename_i references
  rw [not_or] at references
  cases inserted : store.instances.saveInstance row with
  | error error =>
      rw [inserted] at saved
      cases saved
  | ok instances =>
      rw [inserted] at saved
      cases saved
      unfold InstanceBook.saveInstance at inserted
      split at inserted
      · cases inserted
      cases inserted
      refine ⟨shows.workspaces, ?_, fun other member => ?_⟩
      · change world.checkouts.upsert _ _ _ = _
        rw [shows.checkouts]
        exact (@Table.image_upsert _ _ (fun row : InstanceRow => row.id) _ _ RepoCheckout.id
          InstanceRow.toCheckout (fun _ => rfl) row (InstanceBook.merged row)
          (fun _ => row.toCheckout) (fun _ _ => rfl) (fun _ _ => rfl) (fun _ => rfl)
          store.instances.table).symm
      · rcases InstanceBook.mem_upserted_columns member with ⟨old, _⟩ | same
        · exact shows.hosted other old
        · have sameOrigin : other.originId = row.originId := congrArg RepoInstance.originId same
          rw [sameOrigin]
          exact Option.isSome_iff_ne_none.mpr references.2

theorem performed_pictured {present : String → Bool} {statement : BindingQuery} {asked : DaemonOp}
    {see : Except PortError statement.Answer → asked.Answer}
    {answer : Except PortError statement.Answer}
    (sighted : tickSight (.query statement) = .seen asked see) (shows : Shows store world)
    (performed : (answer, after) = statement.perform present store) :
    ∃ next, DaemonWorld.meaning asked world (see answer) next ∧ Shows after next := by
  cases statement with
  | getWorkspace id =>
      cases sighted
      obtain ⟨rfl, rfl⟩ := Prod.mk.inj performed
      refine ⟨world, ⟨rfl, fun row found => ?_⟩, shows⟩
      rw [shows.workspaces]
      cases stored : after.workspaces.find id <;> rw [stored] at found <;> cases found
      rfl
  | listByWorkspace id =>
      cases sighted
      obtain ⟨rfl, rfl⟩ := Prod.mk.inj performed
      refine ⟨world, ⟨rfl, fun rows found => ?_⟩, shows⟩
      cases found
      exact (checkoutsOf_shown shows id).symm
  | getInstance id =>
      cases sighted
      obtain ⟨rfl, rfl⟩ := Prod.mk.inj performed
      refine ⟨world, ⟨rfl, fun row found => ?_⟩, shows⟩
      cases stored : (after.instances.table.find id).bind after.view <;>
        rw [stored] at found <;> cases found
      exact getInstance_shown shows stored
  | saveInstance row =>
      cases sighted
      simp only [BindingQuery.perform] at performed
      cases saved : store.saveInstance row with
      | ok later =>
          rw [saved] at performed
          obtain ⟨rfl, rfl⟩ := Prod.mk.inj performed
          exact ⟨_, .inl ⟨rfl, rfl⟩, saveInstance_shown shows saved⟩
      | error error =>
          rw [saved] at performed
          obtain ⟨rfl, rfl⟩ := Prod.mk.inj performed
          exact ⟨world, .inr ⟨error, rfl, rfl⟩, shows⟩
  | pathExists path =>
      cases sighted
      obtain ⟨rfl, rfl⟩ := Prod.mk.inj performed
      exact ⟨_, .inl ⟨present path, rfl, rfl⟩, ⟨shows.workspaces, shows.checkouts, shows.hosted⟩⟩
  | _ => cases sighted

theorem failed_pictured {statement : BindingQuery} {asked : DaemonOp}
    {see : Except PortError statement.Answer → asked.Answer} (error : PortError)
    (sighted : tickSight (.query statement) = .seen asked see) (shows : Shows store world) :
    ∃ next, DaemonWorld.meaning asked world (see (.error error)) next ∧ Shows store next := by
  refine ⟨world, ?_, shows⟩
  cases statement with
  | getWorkspace id =>
      cases sighted
      exact ⟨rfl, nofun⟩
  | listByWorkspace id =>
      cases sighted
      exact ⟨rfl, nofun⟩
  | getInstance id =>
      cases sighted
      exact ⟨rfl, nofun⟩
  | saveInstance row =>
      cases sighted
      exact .inr ⟨error, rfl, rfl⟩
  | pathExists path =>
      cases sighted
      exact .inr ⟨error, rfl, rfl⟩
  | _ => cases sighted

theorem pictured {op : BindingOp} {asked : DaemonOp} {see : op.Answer → asked.Answer}
    {answer : op.Answer} (sighted : tickSight op = .seen asked see) (shows : Shows store world)
    (answered : failingMeaning op store answer after) :
    ∃ next, DaemonWorld.meaning asked world (see answer) next ∧ Shows after next := by
  cases op with
  | query statement =>
      rcases answered with ⟨present, performed⟩ | ⟨⟨error, rfl⟩, rfl⟩
      · exact performed_pictured sighted shows performed
      · exact failed_pictured error sighted shows
  | _ => cases sighted

theorem unseen {op : BindingOp} {answer : op.Answer} (sighted : tickSight op = .hidden)
    (shows : Shows store world) (answered : failingMeaning op store answer after) :
    Shows after world := by
  cases op with
  | now => exact (show after = store from answered) ▸ shows
  | newOriginId canonicalUrl =>
      obtain ⟨_, rfl⟩ := answered
      exact ⟨shows.workspaces, shows.checkouts, shows.hosted⟩
  | newInstanceId =>
      obtain ⟨_, rfl⟩ := answered
      exact ⟨shows.workspaces, shows.checkouts, shows.hosted⟩
  | query statement => cases statement <;> cases sighted

theorem runs_onTick {α β : Type} {values : α → β → Prop} {program : Action α}
    {tick : DaemonProgram BindingError β} (mirrors : OnTick values program tick)
    {result : Except RepoServiceError α} (shows : Shows store world)
    (ran : program.Runs failingMeaning store result after) :
    ∃ other last, tick.Runs DaemonWorld.meaning world other last ∧ Shows after last ∧
      Agree SameError values result other :=
  @Mirrors.runs _ _ _ _ _ _ _ _ tickSight SameError values failingMeaning DaemonWorld.meaning Shows
    (fun _ _ _ _ _ sighted shows answered => unseen sighted shows answered)
    (fun _ _ _ _ _ _ _ sighted shows answered => pictured sighted shows answered)
    program tick mirrors store after world result shows ran

theorem reconcile_keeps_worktrees {workspaceId : WorkspaceId}
    {result : Except RepoServiceError ReconcileSummary} (shows : Shows store world)
    (ran : (reconcileWorktrees workspaceId false).Runs failingMeaning store result after)
    (id : RepoId) :
    (after.instances.table.find id).map InstanceRow.paths =
      (store.instances.table.find id).map InstanceRow.paths := by
  obtain ⟨_, last, tick, shown, _⟩ := runs_onTick (reconcileWorktrees_onTick _ _) shows ran
  have kept := (RepoBindingService.reconcileWorktrees_observed tick).pathsOf id
  rwa [pathsOf_shown shown, pathsOf_shown shows] at kept

end Store

section Prefixes

def standing (now : Timestamp) : Semantics bindingPorts BindingStore
  | .now, before, instant, after => instant = now ∧ after = before
  | op, before, answer, after => bindingMeaning op before answer after

theorem runs_saveOrigin {α : Type} {now : Timestamp} {origin : OriginRow}
    {next : Except PortError Unit → Action α} {store after : BindingStore}
    {result : Except RepoServiceError α}
    (ran : ((tryQuery (.saveOrigin origin)).bind next).Runs (standing now) store result after) :
    (∃ origins, store.origins.saveOrigin origin = .ok origins ∧
        (next (.ok ())).Runs (standing now) { store with origins } result after) ∨
      ∃ error, store.origins.saveOrigin origin = .error error ∧
        (next (.error error)).Runs (standing now) store result after := by
  obtain ⟨answer, middle, ⟨_, performed⟩, ran⟩ := ran
  simp only [BindingQuery.perform, BindingStore.saveOrigin] at performed
  cases saved : store.origins.saveOrigin origin with
  | ok origins =>
      rw [saved] at performed
      obtain ⟨rfl, rfl⟩ := Prod.mk.inj performed
      exact .inl ⟨origins, rfl, ran⟩
  | error error =>
      rw [saved] at performed
      obtain ⟨rfl, rfl⟩ := Prod.mk.inj performed
      exact .inr ⟨error, rfl, ran⟩

theorem runs_retryPrefix {now : Timestamp} {base : String} : ∀ {left : Nat} {origin : OriginRow}
    {store after : BindingStore} {result : Except RepoServiceError OriginRow},
    (retryPrefix base left origin).Runs (standing now) store result after →
    match RepoBindingService.retryPrefix now base left origin store.origins with
    | .ok (saved, origins) => result = .ok saved ∧ after = { store with origins }
    | .error error => result = .error (.binding error) ∧ after = store := by
  intro left
  induction left with
  | zero =>
      intro origin store after result ran
      rw [retryPrefix] at ran
      rw [RepoBindingService.retryPrefix]
      rcases runs_saveOrigin ran with ⟨origins, saved, ended⟩ | ⟨error, failed, handled⟩
      · rw [saved]
        exact ended
      · rw [failed]
        by_cases taken : error.conflictTarget = some "repo_origins.prefix"
        · simp only [taken, if_true] at handled ⊢
          exact handled
        · simp only [taken, if_false] at handled ⊢
          exact handled
  | succ left ih =>
      intro origin store after result ran
      rw [retryPrefix] at ran
      rw [RepoBindingService.retryPrefix]
      rcases runs_saveOrigin ran with ⟨origins, saved, ended⟩ | ⟨error, failed, handled⟩
      · rw [saved]
        exact ended
      · rw [failed]
        by_cases taken : error.conflictTarget = some "repo_origins.prefix"
        · simp only [taken, if_true] at handled ⊢
          obtain ⟨_, _, ⟨rfl, rfl⟩, retried⟩ := handled
          simp only [done_bind] at retried
          cases renamed : origin.setPrefix _
              (RepoBindingService.candidate base (RepoBindingService.safetyCap - left)) with
          | error error =>
              rw [renamed] at retried
              exact retried
          | ok next =>
              rw [renamed] at retried
              exact ih retried
        · simp only [taken, if_false] at handled ⊢
          exact handled

theorem runs_saveWithUniquePrefix {now : Timestamp} {origin : OriginRow}
    {store after : BindingStore} {result : Except RepoServiceError OriginRow}
    (ran : (saveWithUniquePrefix origin).Runs (standing now) store result after) :
    match RepoBindingService.saveWithUniquePrefix now origin store.origins with
    | .ok (saved, origins) => result = .ok saved ∧ after = { store with origins }
    | .error error => result = .error (.binding error) ∧ after = store :=
  runs_retryPrefix ran

end Prefixes

end RepoBindings

end RepoLink
