import RepoLink.Cli.Filed

/-!
One round of an import over ports that do not fail: what it does with an issue that was not
visited yet, in a first run and in a run over the issues that a run before has filed.
-/

namespace RepoLink

open Effects Program KeyedTable TaskTable Walks TaskService

namespace SyncImport

def subIssues (answers : Provider) (canonical number : String) : List RemoteChildIssue :=
  match answers (.fetchSubIssues canonical number) with
  | .ok children => children
  | .error _ => []

def kids (answers : Provider) (canonical number : String) : List String :=
  ((subIssues answers canonical number).filter fun child => child.canonicalRepo = canonical).map
    fun child => child.snapshot.remoteId

/-- A finite graph of issues that the provider answers about; an issue has a title. -/
structure RemoteGraph (answers : Provider) (canonical root : String) (issues : List String) :
    Prop where
  rooted : root ∈ issues
  fetched : ∀ number ∈ issues, ∃ snap, answers (.fetchRemote canonical number) = .ok snap ∧
    isBlank snap.title = false
  listed : ∀ number ∈ issues, ∃ children, answers (.fetchSubIssues canonical number) = .ok children
  closed : ∀ number ∈ issues, ∀ far ∈ kids answers canonical number, far ∈ issues

variable {answers : Provider} {draws : Database → String → Prop} {fails : ImportError → Database → Prop}
  {target : Target} {root : String} {issues : List String} {start database : Database}
  {ids : String → TaskId} {met stack : List (Visit String)} {number : String}
  {visit : Visit String}

def childrenOf (answers : Provider) (entry : Entry) : List RemoteChildIssue :=
  if entry.depth < maxDepth then subIssues answers entry.canonical entry.number else []

theorem gives_listChildren {entry : Entry} {children : List RemoteChildIssue}
    (listed : answers (.fetchSubIssues entry.canonical entry.number) = .ok children) :
    Gives answers draws fails (listChildren true entry) database (childrenOf answers entry) := by
  have follows : ∀ above : Bool, Gives answers draws fails
      (if above then remote (.fetchSubIssues entry.canonical entry.number) else return [] :
        Action (List RemoteChildIssue)) database (if above then children else []) := by
    intro above
    cases above with
    | true => exact gives_remote listed
    | false => exact ⟨rfl, rfl⟩
  have same : childrenOf answers entry =
      if true && decide (entry.depth < maxDepth) then children else [] := by
    simp [childrenOf, subIssues, listed]
  rw [same]
  exact follows _

theorem gives_findTracked (number : String) :
    Gives answers draws fails (findTracked target number) database
      (database.findByRemote target.filingOriginId provider number) :=
  gives_query fun _ => rfl

theorem gives_resolveNode (filed : Filed target issues start ids met database)
    (ready : Ready target issues start) (member : number ∈ nodesOf met) (canonical : String) :
    Gives answers draws fails (resolveNode target canonical number) database
      (ids number, .alreadyTracked number (ids number)) := by
  have tracked := filed.findByRemote ready (filed.within number member)
  rw [if_pos member] at tracked
  obtain ⟨existing, found, same⟩ := Option.map_eq_some_iff.mp tracked
  unfold resolveNode
  refine Gives.bind (gives_findTracked number) ?_
  rw [found, ← same]
  exact ⟨rfl, rfl⟩

theorem ensures_resolveNode (graph : RemoteGraph answers target.canonical root issues)
    (filed : Filed target issues start ids met database) (ready : Ready target issues start)
    (wanted : number ∈ issues) (new : number ∉ nodesOf met)
    (clash : ∀ (task : Task) hash, draws database hash →
      database.tasks.hashTaken { task with hash } = true → fails (.service hashesExhausted) database) :
    (resolveNode target target.canonical number).Ensures (unfailingPorts answers draws) fails
      (fun result after => ∃ task, result.1 = task.id ∧
        Imported (nodeStanding target number) database task after) database := by
  obtain ⟨snap, fetched, titled⟩ := graph.fetched number wanted
  have untracked := filed.findByRemote ready wanted
  rw [if_neg new] at untracked
  have imports : (importMirror (mirrorCmd target number snap)).Ensures
      (unfailingPorts answers draws)
      (fun error after => error = hashesExhausted ∧ fails (.service hashesExhausted) after)
      (Imported (nodeStanding target number) database) database := by
    refine ensures_importMirror (mirrorCmd target number snap) rfl
      (filed.config.hosts ready.attached.hosts) titled (fun id record found mapped => ?_)
      fun task hash drawn taken => ⟨rfl, clash task hash drawn taken⟩
    exact new (filed.identified ready wanted found (.inr mapped)).1
  unfold resolveNode
  refine Gives.bind (gives_findTracked number) ?_
  rw [Option.map_eq_none_iff.mp untracked]
  refine Gives.bind (gives_remote fetched) (Ensures.bind imports.attempt ?_)
  rintro _ after (⟨task, rfl, imported⟩ | ⟨_, rfl, rfl, failed⟩)
  · exact ⟨task, rfl, imported⟩
  · exact failed

theorem ensures_linkParent (filed : Filed target issues start ids met database)
    (ranked : Ranked met) (ready : Ready target issues start) {child parent : Visit String}
    (childMem : child ∈ met) (parentMem : parent ∈ met) (deeper : parent.depth < child.depth) :
    (linkParent (ids child.node) (some (ids parent.node))).Ensures (unfailingPorts answers draws)
      fails (fun _ after => LinkedTo (ids child.node) (ids parent.node) database after)
      database := by
  have childNode := mem_nodesOf.mpr ⟨child, childMem, rfl⟩
  have parentNode := mem_nodesOf.mpr ⟨parent, parentMem, rfl⟩
  obtain ⟨record, found, mirror⟩ := filed.mirrored child.node childNode
  obtain ⟨far, farFound, farMirror⟩ := filed.mirrored parent.node parentNode
  have keeps := filed.keeps ranked ready childNode found mirror
  have farKeeps := filed.keeps ranked ready parentNode farFound farMirror
  have opens := filed.opens ranked ready childMem parentMem deeper
  have apart : ids parent.node ≠ ids child.node := by
    intro same
    obtain rfl := ranked.unique parentMem childMem (filed.injective _ parentNode _ childNode same)
    exact Nat.lt_irrefl _ deeper
  have recordId : record.id = ids child.node := Database.record_id found
  have farId : far.id = ids parent.node := Database.record_id farFound
  rw [← recordId] at found opens apart ⊢
  rw [← farId] at farFound opens apart ⊢
  have adds : (addRelation record.id .childOf far.id).Ensures (unfailingPorts answers draws)
      (fun _ _ => False) (fun _ after => LinkedTo record.id far.id database after) database :=
    ensures_addRelation (filed.config.hosts ready.attached.hosts) found farFound keeps farKeeps
      mirror.filedAt farMirror.filedAt apart opens
  exact Ensures.bind (adds.mapError fun _ _ impossible => impossible.elim) fun _ _ linked => linked

def entryOf (target : Target) (ids : String → TaskId) (visit : Visit String) : Entry :=
  ⟨target.canonical, visit.node, visit.parent.map ids, visit.depth⟩

theorem ensures_linkNew (ready : Ready target issues start) (ranked : Ranked met)
    (new : visit.node ∉ nodesOf met)
    (filed : Filed target issues start ids (⟨visit.node, none, visit.depth⟩ :: met) database)
    (led : ∀ parent, visit.parent = some parent →
      ∃ earlier ∈ met, earlier.node = parent ∧ earlier.depth < visit.depth) :
    (linkParent (ids visit.node) (visit.parent.map ids)).Ensures (unfailingPorts answers draws)
      fails (fun _ after => Filed target issues start ids (visit :: met) after) database := by
  obtain ⟨node, parent, depth⟩ := visit
  cases parent with
  | none => exact filed
  | some parent =>
      obtain ⟨earlier, earlierMem, rfl, deeper⟩ := led parent rfl
      have childMem : (⟨node, none, depth⟩ : Visit String) ∈ ⟨node, none, depth⟩ :: met :=
        List.mem_cons_self
      have parentMem : earlier ∈ (⟨node, none, depth⟩ : Visit String) :: met :=
        List.mem_cons_of_mem _ earlierMem
      have bare := ranked.bare new depth
      refine (ensures_linkParent filed bare ready childMem parentMem deeper).mono ?_
      intro _ after linked
      refine filed.linked (mem_nodesOf.mpr ⟨_, childMem, rfl⟩) (mem_nodesOf.mpr ⟨_, parentMem, rfl⟩)
        linked rfl fun number relation => ?_
      rw [linked_cons, linked_cons, or_comm]
      simp [eq_comm]

theorem ensures_linkAgain (ready : Ready target issues start) (ranked : Ranked met)
    (filed : Filed target issues start ids met database) (member : visit ∈ met) :
    (linkParent (ids visit.node) (visit.parent.map ids)).Ensures (unfailingPorts answers draws)
      fails (fun _ after => Filed target issues start ids met after) database := by
  cases given : visit.parent with
  | none => exact filed
  | some parent =>
      obtain ⟨earlier, earlierMem, rfl, deeper⟩ := ranked.parents visit member parent given
      refine (ensures_linkParent filed ranked ready member earlierMem deeper).mono ?_
      intro _ after linked
      refine filed.linked (mem_nodesOf.mpr ⟨_, member, rfl⟩) (mem_nodesOf.mpr ⟨_, earlierMem, rfl⟩)
        linked rfl fun number relation => ?_
      refine (or_iff_left_of_imp ?_).symm
      rintro (⟨rfl, rfl⟩ | ⟨rfl, rfl⟩)
      · exact ⟨visit, member, earlier.node, given, .inl ⟨rfl, rfl⟩⟩
      · exact ⟨visit, member, earlier.node, given, .inr ⟨rfl, rfl⟩⟩

theorem ensures_visitNew (graph : RemoteGraph answers target.canonical root issues)
    (ready : Ready target issues start)
    (clash : ∀ (task : Task) hash, draws database hash →
      database.tasks.hashTaken { task with hash } = true → fails (.service hashesExhausted) database)
    (descent : Descent (kids answers target.canonical) maxDepth root (visit :: stack) met)
    (new : visit.node ∉ nodesOf met) (filed : Filed target issues start ids met database) :
    (visitNode target true (entryOf target ids visit)).Ensures (unfailingPorts answers draws) fails
      (fun result after => result.2.2 = childrenOf answers (entryOf target ids visit) ∧
        ∃ ids', (∀ other ∈ nodesOf met, ids' other = ids other) ∧ result.1 = ids' visit.node ∧
          Filed target issues start ids' (visit :: met) after) database := by
  have origin := descent.origin visit (List.mem_append_right _ List.mem_cons_self)
  have wanted : visit.node ∈ issues := origin.path.inside graph.rooted graph.closed
  have led : ∀ parent, visit.parent = some parent →
      ∃ earlier ∈ met, earlier.node = parent ∧ earlier.depth < visit.depth := by
    intro parent given
    rcases origin.led with rfl | ⟨earlier, earlierMem, same, _, depth, _⟩
    · cases given
    · exact ⟨earlier, earlierMem, Option.some.inj (same.symm.trans given), by omega⟩
  obtain ⟨children, listed⟩ := graph.listed visit.node wanted
  unfold visitNode
  refine Ensures.bind (ensures_resolveNode graph filed ready wanted new clash) ?_
  rintro ⟨_, report⟩ middle ⟨task, rfl, imported⟩
  have bare := filed.imported descent.ranked wanted new imported visit.depth
  have agree := @update_old ids met visit.node task.id new
  have atNew : Function.update ids visit.node task.id visit.node = task.id :=
    Function.update_self ..
  have parent : visit.parent.map ids =
      visit.parent.map (Function.update ids visit.node task.id) := by
    refine Option.map_congr fun given same => ?_
    obtain ⟨earlier, earlierMem, rfl, _⟩ := led given same
    exact (agree earlier.node (mem_nodesOf.mpr ⟨earlier, earlierMem, rfl⟩)).symm
  have link := @ensures_linkNew answers draws fails target issues start middle _ met visit ready
    descent.ranked new bare led
  rw [atNew, ← parent] at link
  refine Ensures.bind link fun _ after filedAfter => Gives.bind (gives_listChildren listed) ?_
  exact ⟨rfl, _, agree, atNew.symm, filedAfter⟩

theorem ensures_visitAgain (graph : RemoteGraph answers target.canonical root issues)
    (ready : Ready target issues start) (ranked : Ranked met)
    (filed : Filed target issues start ids met database) (member : visit ∈ met) :
    (visitNode target true (entryOf target ids visit)).Ensures (unfailingPorts answers draws) fails
      (fun result after => result.2.2 = childrenOf answers (entryOf target ids visit) ∧
        result.1 = ids visit.node ∧ Filed target issues start ids met after) database := by
  have nodeMem := mem_nodesOf.mpr ⟨visit, member, rfl⟩
  obtain ⟨children, listed⟩ := graph.listed visit.node (filed.within _ nodeMem)
  unfold visitNode
  refine Gives.bind (gives_resolveNode filed ready nodeMem target.canonical) ?_
  refine Ensures.bind (ensures_linkAgain ready ranked filed member) fun _ after filedAfter => ?_
  exact Gives.bind (gives_listChildren listed) ⟨rfl, rfl, filedAfter⟩

end SyncImport

end RepoLink
