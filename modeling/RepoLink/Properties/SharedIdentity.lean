import RepoLink.Library.Ordered
import RepoLink.Store.SharedIdentity

/-!
The shared-identity migration on any database of the schema before it: no constraint fails, every
repo stays what it was under one origin for its URL, every filing id means the repo that it meant,
and of the mappings of one remote issue the latest is left.
-/

namespace RepoLink

open Statements

namespace SharedIdentity

/-- What holds before the migration: the keys of the schema, and that no repo was ever given an
empty id. -/
structure Schema (before : Before) : Prop where
  ids : before.repos.Pairwise fun left right => left.id ≠ right.id
  filled : ∀ repo ∈ before.repos, repo.id ≠ ""
  prefixes : before.repos.Pairwise fun left right =>
    ¬(left.repoPrefix ≠ "" ∧ left.repoPrefix = right.repoPrefix)
  owned : ∀ task ∈ before.tasks, ∀ id, task.repoInstanceId = some id →
    ∃ repo ∈ before.repos, repo.id = id
  mappings : before.mappings.Pairwise fun left right => ¬left.Clashes right

def Before.urlOf (before : Before) (id : String) : Option String :=
  (before.repos.find? fun repo => repo.id = id).map RepoRow.canonicalUrl

def After.urlOf (after : After) (id : String) : Option String :=
  (after.origins.find? fun origin => origin.id = id).map OriginRow.canonicalUrl

def Refiled (before : Before) (after : After) (old new : Option String) : Prop :=
  (∀ id url, old = some id → before.urlOf id = some url →
    ∃ origin, new = some origin ∧ after.urlOf origin = some url) ∧
  ((∀ id, old = some id → before.urlOf id = none) → new = old)

def TaskRow.filedIn (task : TaskRow) : Option String :=
  if task.remoteId.isSome ∧ task.repoInstanceId.isSome ∧
      (task.filingRepoId = none ∨ task.filingRepoId = some "") then task.repoInstanceId
  else task.filingRepoId

/-- What the migration keeps. -/
structure Migrated (before : Before) (after : After) : Prop where
  members : after.instances.map (fun row => (row.id, row.workspaceId, row.canonicalUrl,
      row.trackedBranch, row.createdAt, row.updatedAt)) =
    before.repos.map fun repo => (repo.id, repo.workspaceId, repo.canonicalUrl,
      repo.trackedBranch, repo.createdAt, repo.updatedAt)
  linked : ∀ repo ∈ before.repos, ∃ origin ∈ after.origins,
    originIdOf after.instances repo.id = some origin.id ∧
      origin.canonicalUrl = repo.canonicalUrl ∧ repo.aliases ⊆ origin.aliases ∧
      (repo.name = "" ∨ repo.name = origin.name ∨ repo.name ∈ origin.aliases)
  apart : after.origins.Pairwise fun left right => ¬left.Clashes right
  earliest : ∀ origin ∈ after.origins, ∃ repo ∈ before.repos,
    origin = { originOf repo with aliases := origin.aliases } ∧
      (∀ other ∈ before.repos, other.canonicalUrl = repo.canonicalUrl → age repo ≤ age other) ∧
      ∀ text ∈ origin.aliases, ∃ old ∈ before.repos, old.canonicalUrl = repo.canonicalUrl ∧
        (text ∈ old.aliases ∨ text = old.name)
  tasks : List.Forall₂ (fun old new => new = { old with filingRepoId := new.filingRepoId } ∧
    Refiled before after old.filedIn new.filingRepoId) before.tasks after.tasks
  workspaces : List.Forall₂ (fun old new => new.id = old.id ∧
    Refiled before after old.filingRepoId new.filingRepoId) before.workspaces after.workspaces
  identities : after.mappings.Pairwise fun left right => ¬left.Clashes right
  kept : ∀ new ∈ after.mappings, ∃ old ∈ before.mappings,
    new = { old with filingRepoId := new.filingRepoId } ∧
      Refiled before after (some old.filingRepoId) (some new.filingRepoId)
  represented : ∀ old ∈ before.mappings, ∃ new ∈ after.mappings,
    Refiled before after (some old.filingRepoId) (some new.filingRepoId) ∧
      new.provider = old.provider ∧ new.remoteId = old.remoteId ∧ recency old ≤ recency new

theorem OriginRow.Clashes.symm {left right : OriginRow} (clashes : left.Clashes right) :
    right.Clashes left := by
  rcases clashes with sameId | sameUrl | ⟨filled, samePrefix⟩
  · exact .inl sameId.symm
  · exact .inr (.inl sameUrl.symm)
  · exact .inr (.inr ⟨samePrefix ▸ filled, samePrefix.symm⟩)

theorem MappingRow.Clashes.symm {left right : MappingRow} (clashes : left.Clashes right) :
    right.Clashes left := by
  rcases clashes with sameTask | ⟨sameFiling, sameProvider, sameRemote⟩
  · exact .inl sameTask.symm
  · exact .inr ⟨sameFiling.symm, sameProvider.symm, sameRemote.symm⟩

section Origins

variable {repos : List RepoRow} {repo first : RepoRow} {url : String}

theorem survivor_spec (found : survivor repos url = some first) :
    first ∈ repos ∧ first.canonicalUrl = url ∧
      ∀ other ∈ repos, other.canonicalUrl = url → age first ≤ age other := by
  obtain ⟨member, same⟩ := List.mem_filter.mp (List.argmin_mem found)
  refine ⟨member, of_decide_eq_true same, fun other listed others => ?_⟩
  exact List.le_of_mem_argmin (List.mem_filter.mpr ⟨listed, decide_eq_true others⟩) found

theorem exists_survivor (member : repo ∈ repos) :
    ∃ first, survivor repos repo.canonicalUrl = some first := by
  cases found : survivor repos repo.canonicalUrl with
  | some first => exact ⟨first, rfl⟩
  | none =>
      rw [survivor, List.argmin_eq_none] at found
      have listed : repo ∈ repos.filter fun other => other.canonicalUrl = repo.canonicalUrl :=
        List.mem_filter.mpr ⟨member, decide_eq_true rfl⟩
      rw [found] at listed
      cases listed

theorem repo_unique (ids : repos.Pairwise fun left right => left.id ≠ right.id) {left right : RepoRow}
    (inLeft : left ∈ repos) (inRight : right ∈ repos) (same : left.id = right.id) : left = right := by
  have distinct : (repos.map RepoRow.id).Nodup := List.pairwise_map.mpr ids
  exact List.inj_on_of_nodup_map distinct inLeft inRight same

theorem survivor_self (found : survivor repos url = some first) :
    survivor repos first.canonicalUrl = some first := by
  rw [(survivor_spec found).2.1]
  exact found

def survivors (repos : List RepoRow) : List RepoRow :=
  repos.filter fun repo => (survivor repos repo.canonicalUrl).map RepoRow.id = some repo.id

theorem mem_survivors (ids : repos.Pairwise fun left right => left.id ≠ right.id) :
    repo ∈ survivors repos ↔ survivor repos repo.canonicalUrl = some repo := by
  rw [survivors, List.mem_filter, decide_eq_true_eq]
  constructor
  · rintro ⟨member, same⟩
    obtain ⟨first, found, sameId⟩ := Option.map_eq_some_iff.mp same
    rw [found, repo_unique ids (survivor_spec found).1 member sameId]
  · intro found
    exact ⟨(survivor_spec found).1, by rw [found, Option.map_some]⟩

theorem insertOrigins_ok (ids : repos.Pairwise fun left right => left.id ≠ right.id)
    (prefixes : repos.Pairwise fun left right =>
      ¬(left.repoPrefix ≠ "" ∧ left.repoPrefix = right.repoPrefix)) :
    insertOrigins repos = some ((survivors repos).map originOf) ∧
      ((survivors repos).map originOf).Pairwise fun left right => ¬left.Clashes right := by
  have apart : ((survivors repos).map originOf).Pairwise fun left right => ¬left.Clashes right := by
    refine List.pairwise_map.mpr (List.Pairwise.imp_of_mem ?_ ((ids.and prefixes).filter _))
    rintro left right inLeft inRight ⟨others, unlike⟩ (sameId | sameUrl | samePrefix)
    · exact others sameId
    · have ofLeft := (mem_survivors ids).mp inLeft
      have ofRight := (mem_survivors ids).mp inRight
      have sameUrl : left.canonicalUrl = right.canonicalUrl := sameUrl
      rw [sameUrl, ofRight] at ofLeft
      exact others (congrArg RepoRow.id (Option.some.inj ofLeft).symm)
    · exact unlike samePrefix
  exact ⟨insertAll_ok OriginRow.Clashes.symm apart, apart⟩

def originRows (repos : List RepoRow) : List OriginRow :=
  ((survivors repos).map originOf).map (unionAliases repos)

theorem mem_originRows {origin : OriginRow}
    (ids : repos.Pairwise fun left right => left.id ≠ right.id) : origin ∈ originRows repos ↔
      ∃ first, survivor repos first.canonicalUrl = some first ∧
        unionAliases repos (originOf first) = origin := by
  simp only [originRows, List.map_map, List.mem_map, Function.comp_apply, mem_survivors ids]

theorem find_origin (ids : repos.Pairwise fun left right => left.id ≠ right.id)
    (found : survivor repos url = some first) :
    (originRows repos).find? (fun origin => origin.canonicalUrl = url) =
      some (unionAliases repos (originOf first)) := by
  refine (Ordered.find?_unique fun left inLeft right inRight ofLeft ofRight => ?_).mpr
    ⟨(mem_originRows ids).mpr ⟨first, survivor_self found, rfl⟩,
      decide_eq_true (survivor_spec found).2.1⟩
  obtain ⟨one, onSelf, rfl⟩ := (mem_originRows ids).mp inLeft
  obtain ⟨other, otherSelf, rfl⟩ := (mem_originRows ids).mp inRight
  have sameUrl : one.canonicalUrl = other.canonicalUrl :=
    (of_decide_eq_true ofLeft).trans (of_decide_eq_true ofRight).symm
  rw [sameUrl, otherSelf] at onSelf
  rw [Option.some.inj onSelf]

def home (repos : List RepoRow) (id : String) : Option String :=
  (repos.find? fun repo => repo.id = id).bind fun repo =>
    (survivor repos repo.canonicalUrl).map RepoRow.id

theorem find_repo (ids : repos.Pairwise fun left right => left.id ≠ right.id)
    (member : repo ∈ repos) : repos.find? (fun other => other.id = repo.id) = some repo :=
  (Ordered.find?_unique fun _ inLeft _ inRight ofLeft ofRight => repo_unique ids inLeft inRight
    ((of_decide_eq_true ofLeft).trans (of_decide_eq_true ofRight).symm)).mpr
    ⟨member, decide_eq_true rfl⟩

def instanceRows (repos : List RepoRow) : List InstanceRow :=
  repos.map (linkOrigin (originRows repos))

theorem originIdOf_eq (ids : repos.Pairwise fun left right => left.id ≠ right.id) (id : String) :
    originIdOf (instanceRows repos) id = home repos id := by
  rw [originIdOf, instanceRows, List.find?_map, home]
  change ((repos.find? fun repo => repo.id = id).map _).bind _ = _
  cases seen : repos.find? fun repo => repo.id = id with
  | none => rfl
  | some repo =>
      obtain ⟨first, found⟩ := exists_survivor (List.mem_of_find?_eq_some seen)
      simp only [Option.map_some, Option.bind_some, linkOrigin, find_origin ids found, found]
      rfl

theorem isInstance_iff (id : String) :
    isInstance (instanceRows repos) id = true ↔
      ∃ repo ∈ repos, repo.id = id := by
  rw [isInstance, List.any_eq_true]
  constructor
  · rintro ⟨row, member, same⟩
    obtain ⟨repo, listed, rfl⟩ := List.mem_map.mp member
    exact ⟨repo, listed, of_decide_eq_true same⟩
  · rintro ⟨repo, listed, same⟩
    exact ⟨_, List.mem_map_of_mem listed, decide_eq_true same⟩

theorem home_of (ids : repos.Pairwise fun left right => left.id ≠ right.id) (member : repo ∈ repos)
    (found : survivor repos repo.canonicalUrl = some first) :
    home repos repo.id = some first.id := by
  rw [home, find_repo ids member, Option.bind_some, found, Option.map_some]

theorem refile_repo (ids : repos.Pairwise fun left right => left.id ≠ right.id)
    (member : repo ∈ repos) (filled : repo.id ≠ "")
    (found : survivor repos repo.canonicalUrl = some first) :
    refile (instanceRows repos) (some repo.id) = some first.id := by
  have isRow : isInstance (instanceRows repos) repo.id = true :=
    (isInstance_iff _).mpr ⟨repo, member, rfl⟩
  simp only [refile]
  rw [if_pos ⟨filled, isRow⟩, originIdOf_eq ids, home_of ids member found]

theorem refile_other {id : String} (stranger : ∀ repo ∈ repos, repo.id ≠ id) :
    refile (instanceRows repos) (some id) = some id := by
  refine if_neg fun isRow => ?_
  obtain ⟨repo, member, same⟩ := (isInstance_iff id).mp isRow.2
  exact stranger repo member same

end Origins

section Filing

variable {before : Before} {after : After} {repo first : RepoRow}

theorem urlOf_none {id : String} :
    before.urlOf id = none ↔ ∀ repo ∈ before.repos, repo.id ≠ id := by
  simp [Before.urlOf]

theorem Schema.urlOf_origin (schema : Schema before)
    (origins : after.origins = originRows before.repos)
    (found : survivor before.repos first.canonicalUrl = some first) :
    after.urlOf first.id = some first.canonicalUrl := by
  have listed := (mem_originRows schema.ids).mpr ⟨first, found, rfl⟩
  rw [After.urlOf, origins, (Ordered.find?_unique fun left inLeft right inRight ofLeft ofRight => ?_).mpr
    ⟨listed, decide_eq_true rfl⟩]
  · rfl
  · obtain ⟨one, oneSelf, rfl⟩ := (mem_originRows schema.ids).mp inLeft
    obtain ⟨other, otherSelf, rfl⟩ := (mem_originRows schema.ids).mp inRight
    have same : one = other := repo_unique schema.ids (survivor_spec oneSelf).1
      (survivor_spec otherSelf).1 ((of_decide_eq_true ofLeft).trans (of_decide_eq_true ofRight).symm)
    rw [same]

theorem Schema.refiled (schema : Schema before) (origins : after.origins = originRows before.repos)
    (old : Option String) : Refiled before after old (refile (instanceRows before.repos) old) := by
  constructor
  · rintro id url rfl known
    obtain ⟨repo, seen, rfl⟩ := Option.map_eq_some_iff.mp known
    have member := List.mem_of_find?_eq_some seen
    have sameId : repo.id = id :=
      of_decide_eq_true (List.find?_some (p := fun repo : RepoRow => repo.id = id) seen)
    obtain ⟨first, found⟩ := exists_survivor member
    refine ⟨first.id, ?_, ?_⟩
    · rw [← sameId, refile_repo schema.ids member (schema.filled repo member) found]
    · rw [schema.urlOf_origin origins (survivor_self found), (survivor_spec found).2.1]
  · intro unknown
    cases old with
    | none => rfl
    | some id => exact refile_other (urlOf_none.mp (unknown id rfl))

theorem Schema.refileTask (schema : Schema before) {task : TaskRow} (member : task ∈ before.tasks) :
    SharedIdentity.refileTask (instanceRows before.repos)
        (backfillStraggler (instanceRows before.repos) task) =
      { task with filingRepoId := refile (instanceRows before.repos) task.filedIn } := by
  obtain ⟨id, repoId, remoteId, filing⟩ := task
  match remoteId, repoId with
  | none, _ => rfl
  | some _, none => rfl
  | some remote, some own =>
      by_cases missing : filing = none ∨ filing = some ""
      · obtain ⟨repo, listed, rfl⟩ := schema.owned _ member own rfl
        obtain ⟨first, found⟩ := exists_survivor listed
        have moved := refile_repo schema.ids listed (schema.filled repo listed) found
        have still := refile_repo schema.ids (survivor_spec found).1
          (schema.filled first (survivor_spec found).1) (survivor_self found)
        simp only [backfillStraggler, if_pos missing, SharedIdentity.refileTask, TaskRow.filedIn,
          Option.isSome_some, true_and, originIdOf_eq schema.ids, home_of schema.ids listed found]
        rw [still, moved]
      · simp only [backfillStraggler, if_neg missing, SharedIdentity.refileTask, TaskRow.filedIn,
          Option.isSome_some, true_and]

end Filing

section Mappings

variable {before : Before}

theorem Schema.filing_cases (schema : Schema before) (filing : String) :
    (∃ first, survivor before.repos first.canonicalUrl = some first ∧
      refile (instanceRows before.repos) (some filing) = some first.id ∧
      originIdOf (instanceRows before.repos) filing = some first.id) ∨
    (∀ repo ∈ before.repos, repo.id ≠ filing) ∧
      refile (instanceRows before.repos) (some filing) = some filing ∧
      originIdOf (instanceRows before.repos) filing = none := by
  by_cases known : ∃ repo ∈ before.repos, repo.id = filing
  · obtain ⟨repo, member, rfl⟩ := known
    obtain ⟨first, found⟩ := exists_survivor member
    refine .inl ⟨first, survivor_self found,
      refile_repo schema.ids member (schema.filled repo member) found, ?_⟩
    rw [originIdOf_eq schema.ids, home_of schema.ids member found]
  · have stranger : ∀ repo ∈ before.repos, repo.id ≠ filing :=
      fun repo member same => known ⟨repo, member, same⟩
    refine .inr ⟨stranger, refile_other stranger, ?_⟩
    have unseen : before.repos.find? (fun repo => repo.id = filing) = none := by
      simpa using stranger
    rw [originIdOf_eq schema.ids, SharedIdentity.home, unseen, Option.bind_none]

theorem Schema.refile_twice (schema : Schema before) {filing again : String}
    (moved : refile (instanceRows before.repos) (some filing) = some again) :
    refile (instanceRows before.repos) (some again) = some again := by
  rcases schema.filing_cases filing with ⟨first, self, goes, _⟩ | ⟨_, stays, _⟩
  · have same : first.id = again := Option.some.inj (goes.symm.trans moved)
    have listed := (survivor_spec self).1
    rw [← same, refile_repo schema.ids listed (schema.filled first listed) self]
  · have same : filing = again := Option.some.inj (stays.symm.trans moved)
    rw [← same, stays]

theorem recency_lt {left right : MappingRow} : recency left < recency right ↔
    left.lastSyncedAt.getD "" < right.lastSyncedAt.getD "" ∨
      left.lastSyncedAt.getD "" = right.lastSyncedAt.getD "" ∧ right.taskId < left.taskId :=
  Prod.Lex.toLex_lt_toLex

theorem Schema.task_unique (schema : Schema before) {left right : MappingRow}
    (inLeft : left ∈ before.mappings) (inRight : right ∈ before.mappings)
    (same : left.taskId = right.taskId) : left = right := by
  have distinct : (before.mappings.map MappingRow.taskId).Nodup :=
    List.pairwise_map.mpr (schema.mappings.imp fun apart same => apart (.inl same))
  exact List.inj_on_of_nodup_map distinct inLeft inRight same

theorem Schema.filter_losers (schema : Schema before) :
    (before.mappings.filter fun mapping =>
      mapping.taskId ∉ losers (instanceRows before.repos) before.mappings) =
    unbeaten recency (Meets (instanceRows before.repos)) before.mappings := by
  refine List.filter_congr fun mapping member => decide_eq_decide.mpr (not_congr ?_)
  simp only [losers, List.mem_map, List.mem_filter, decide_eq_true_eq]
  constructor
  · rintro ⟨lost, ⟨listed, other, inOthers, meets, _, later⟩, sameTask⟩
    cases schema.task_unique listed member sameTask
    exact ⟨other, inOthers, meets, recency_lt.mpr (later.imp_right fun tie => ⟨tie.1.symm, tie.2⟩)⟩
  · rintro ⟨other, inOthers, meets, outranked⟩
    have later := recency_lt.mp outranked
    refine ⟨mapping, ⟨member, other, inOthers, meets, fun sameTask => ?_,
      later.imp_right fun tie => ⟨tie.1.symm, tie.2⟩⟩, rfl⟩
    cases schema.task_unique inOthers member sameTask
    exact lt_irrefl _ outranked

theorem recency_unique (schema : Schema before) : ∀ left ∈ before.mappings,
    ∀ right ∈ before.mappings, recency left = recency right → left = right := by
  intro left inLeft right inRight same
  exact schema.task_unique inLeft inRight
    (congrArg (fun pair : String × Stringᵒᵈ => OrderDual.ofDual pair.2) (toLex.injective same))

theorem meets_symm {instances : List InstanceRow} {left right : MappingRow}
    (meets : Meets instances left right) : Meets instances right left :=
  ⟨meets.2.1 ▸ meets.1, meets.2.1.symm, meets.2.2.1.symm, meets.2.2.2.symm⟩

theorem meets_trans {instances : List InstanceRow} {first second third : MappingRow}
    (left : Meets instances first second) (right : Meets instances second third) :
    Meets instances first third :=
  ⟨left.1, left.2.1.trans right.2.1, left.2.2.1.trans right.2.2.1, left.2.2.2.trans right.2.2.2⟩

theorem Schema.same_identity (schema : Schema before) {left right : MappingRow}
    (filing : (refileMapping (instanceRows before.repos) left).filingRepoId =
      (refileMapping (instanceRows before.repos) right).filingRepoId)
    (provider : left.provider = right.provider) (remote : left.remoteId = right.remoteId) :
    Meets (instanceRows before.repos) left right ∨ left.filingRepoId = right.filingRepoId := by
  simp only [refileMapping] at filing
  rcases schema.filing_cases left.filingRepoId with ⟨first, self, goes, home⟩ | ⟨stranger, stays, _⟩ <;>
    rcases schema.filing_cases right.filingRepoId with
      ⟨second, otherSelf, otherGoes, otherHome⟩ | ⟨otherStranger, otherStays, _⟩
  · rw [goes, otherGoes] at filing
    refine .inl ⟨by rw [home]; rfl, ?_, provider, remote⟩
    rw [home, otherHome]
    exact congrArg some filing
  · rw [goes, otherStays] at filing
    exact absurd filing (otherStranger first (survivor_spec self).1)
  · rw [stays, otherGoes] at filing
    exact absurd filing.symm (stranger second (survivor_spec otherSelf).1)
  · rw [stays, otherStays] at filing
    exact .inr filing

theorem Schema.mergeMappings_ok (schema : Schema before) :
    mergeMappings (instanceRows before.repos) before.mappings =
        some ((unbeaten recency (Meets (instanceRows before.repos)) before.mappings).map
          (refileMapping (instanceRows before.repos))) ∧
      ((unbeaten recency (Meets (instanceRows before.repos)) before.mappings).map
        (refileMapping (instanceRows before.repos))).Pairwise
          fun left right => ¬left.Clashes right := by
  have apart : ((unbeaten recency (Meets (instanceRows before.repos)) before.mappings).map
      (refileMapping (instanceRows before.repos))).Pairwise
        fun left right => ¬left.Clashes right := by
    refine List.pairwise_map.mpr (List.Pairwise.imp_of_mem ?_ (schema.mappings.filter _))
    rintro left right inLeft inRight others (sameTask | ⟨filing, provider, remote⟩)
    · exact others (.inl sameTask)
    · rcases schema.same_identity filing provider remote with meets | sameFiling
      · have same := unbeaten_unique meets_symm (recency_unique schema) inLeft inRight meets
        exact others (.inl (congrArg MappingRow.taskId same))
      · exact others (.inr ⟨sameFiling, provider, remote⟩)
  refine ⟨?_, apart⟩
  rw [mergeMappings, schema.filter_losers]
  refine updateAll_ok MappingRow.Clashes.symm apart fun row _ other _ clashes => ?_
  rcases clashes with sameTask | ⟨filing, provider, remote⟩
  · exact .inl sameTask
  · refine .inr ⟨?_, provider, remote⟩
    have again : refile (instanceRows before.repos) (some other.filingRepoId) =
        some other.filingRepoId := by
      rw [← filing]
      rcases schema.filing_cases row.filingRepoId with ⟨first, _, goes, _⟩ | ⟨_, stays, _⟩
      · simp only [refileMapping, goes, Option.getD_some]
        exact schema.refile_twice goes
      · simp only [refileMapping, stays, Option.getD_some]
    rw [filing]
    simp only [refileMapping, again, Option.getD_some]

end Mappings

section Migration

variable {before : Before}

def migrated (before : Before) : After where
  instances := instanceRows before.repos
  origins := originRows before.repos
  tasks := (before.tasks.map (backfillStraggler (instanceRows before.repos))).map
    (refileTask (instanceRows before.repos))
  workspaces := before.workspaces.map (refileWorkspace (instanceRows before.repos))
  mappings := (unbeaten recency (Meets (instanceRows before.repos)) before.mappings).map
    (refileMapping (instanceRows before.repos))

theorem Schema.migrate_ok (schema : Schema before) : migrate before = some (migrated before) := by
  simp only [migrate, (insertOrigins_ok schema.ids schema.prefixes).1, bind, Option.bind_some]
  change (mergeMappings (instanceRows before.repos) before.mappings).bind _ = _
  rw [schema.mergeMappings_ok.1, Option.bind_some]
  rfl

theorem mem_aliases {repos : List RepoRow} {origin : OriginRow} {text : String} :
    text ∈ (unionAliases repos origin).aliases ↔
      ∃ old ∈ repos, old.canonicalUrl = origin.canonicalUrl ∧
        (text ∈ old.aliases ∨ text = old.name ∧ text ≠ "" ∧ text ≠ origin.name) := by
  simp only [unionAliases, List.mem_dedup, List.mem_append, List.mem_flatMap, List.mem_filter,
    List.mem_map, decide_eq_true_eq]
  constructor
  · rintro (⟨old, ⟨member, sameUrl⟩, listed⟩ | ⟨⟨old, ⟨member, sameUrl⟩, rfl⟩, filled, other⟩)
    · exact ⟨old, member, sameUrl, .inl listed⟩
    · exact ⟨old, member, sameUrl, .inr ⟨rfl, filled, other⟩⟩
  · rintro ⟨old, member, sameUrl, listed | ⟨rfl, filled, other⟩⟩
    · exact .inl ⟨old, ⟨member, sameUrl⟩, listed⟩
    · exact .inr ⟨⟨old, ⟨member, sameUrl⟩, rfl⟩, filled, other⟩

theorem Schema.linked (schema : Schema before) {repo : RepoRow} (member : repo ∈ before.repos) :
    ∃ origin ∈ originRows before.repos,
      originIdOf (instanceRows before.repos) repo.id = some origin.id ∧
      origin.canonicalUrl = repo.canonicalUrl ∧ repo.aliases ⊆ origin.aliases ∧
      (repo.name = "" ∨ repo.name = origin.name ∨ repo.name ∈ origin.aliases) := by
  obtain ⟨first, found⟩ := exists_survivor member
  have sameUrl : first.canonicalUrl = repo.canonicalUrl := (survivor_spec found).2.1
  refine ⟨_, (mem_originRows schema.ids).mpr ⟨first, survivor_self found, rfl⟩, ?_, sameUrl, ?_, ?_⟩
  · rw [originIdOf_eq schema.ids, home_of schema.ids member found]
    rfl
  · exact fun text listed => mem_aliases.mpr ⟨repo, member, sameUrl.symm, .inl listed⟩
  · by_cases filled : repo.name = ""
    · exact .inl filled
    · by_cases same : repo.name = first.name
      · exact .inr (.inl same)
      · exact .inr (.inr (mem_aliases.mpr
          ⟨repo, member, sameUrl.symm, .inr ⟨rfl, filled, same⟩⟩))

theorem Schema.earliest (schema : Schema before) {origin : OriginRow}
    (member : origin ∈ originRows before.repos) : ∃ repo ∈ before.repos,
    origin = { originOf repo with aliases := origin.aliases } ∧
      (∀ other ∈ before.repos, other.canonicalUrl = repo.canonicalUrl → age repo ≤ age other) ∧
      ∀ text ∈ origin.aliases, ∃ old ∈ before.repos, old.canonicalUrl = repo.canonicalUrl ∧
        (text ∈ old.aliases ∨ text = old.name) := by
  obtain ⟨first, self, rfl⟩ := (mem_originRows schema.ids).mp member
  refine ⟨first, (survivor_spec self).1, rfl, (survivor_spec self).2.2, fun text listed => ?_⟩
  obtain ⟨old, inRepos, sameUrl, named⟩ := mem_aliases.mp listed
  exact ⟨old, inRepos, sameUrl, named.imp_right And.left⟩

theorem Schema.refiledMapping (schema : Schema before) (mapping : MappingRow) :
    Refiled before (migrated before) (some mapping.filingRepoId)
      (some (refileMapping (instanceRows before.repos) mapping).filingRepoId) := by
  have refiled : Refiled before (migrated before) _ _ :=
    schema.refiled rfl (some mapping.filingRepoId)
  rcases schema.filing_cases mapping.filingRepoId with ⟨first, _, goes, _⟩ | ⟨_, stays, _⟩
  · rw [goes] at refiled
    simpa only [refileMapping, goes, Option.getD_some] using refiled
  · rw [stays] at refiled
    simpa only [refileMapping, stays, Option.getD_some] using refiled

theorem Schema.represented (schema : Schema before) {old : MappingRow}
    (member : old ∈ before.mappings) : ∃ new ∈ (migrated before).mappings,
    Refiled before (migrated before) (some old.filingRepoId) (some new.filingRepoId) ∧
      new.provider = old.provider ∧ new.remoteId = old.remoteId ∧ recency old ≤ recency new := by
  have moved := schema.refiledMapping old
  rcases schema.filing_cases old.filingRepoId with ⟨first, _, goes, home⟩ | ⟨_, _, homeless⟩
  · have self : Meets (instanceRows before.repos) old old := ⟨by rw [home]; rfl, rfl, rfl, rfl⟩
    obtain ⟨best, kept, meets, later⟩ :=
      @exists_unbeaten _ _ _ recency (Meets (instanceRows before.repos)) _ meets_trans _ _ member self
    refine ⟨refileMapping _ best, List.mem_map_of_mem kept, ?_, meets.2.2.1.symm, meets.2.2.2.symm, later⟩
    have sameFiling : (refileMapping (instanceRows before.repos) best).filingRepoId =
        (refileMapping (instanceRows before.repos) old).filingRepoId := by
      have sameHome := meets.2.1.symm.trans home
      rcases schema.filing_cases best.filingRepoId with ⟨second, _, bestGoes, bestHome⟩ | ⟨_, _, none⟩
      · have sameOrigin : second.id = first.id := Option.some.inj (bestHome.symm.trans sameHome)
        simp only [refileMapping, goes, bestGoes, sameOrigin, Option.getD_some]
      · cases none.symm.trans sameHome
    rwa [sameFiling]
  · refine ⟨_, List.mem_map_of_mem (mem_unbeaten.mpr ⟨member, fun other _ meets => ?_⟩), moved,
      rfl, rfl, le_rfl⟩
    have homed := meets.1
    rw [homeless] at homed
    cases homed

/-- The migration of any database of the schema before it succeeds and keeps what it is to keep. -/
theorem migrate_keeps (schema : Schema before) :
    ∃ after, migrate before = some after ∧ Migrated before after := by
  refine ⟨migrated before, schema.migrate_ok, ?_⟩
  exact {
    members := by
      simp only [migrated, instanceRows, List.map_map]
      rfl
    linked := fun repo member => schema.linked member
    apart := by
      have apart := (insertOrigins_ok schema.ids schema.prefixes).2
      exact List.pairwise_map.mpr apart
    earliest := fun origin member => schema.earliest member
    tasks := by
      simp only [migrated, List.map_map, List.forall₂_map_right_iff, List.forall₂_same]
      intro task member
      rw [Function.comp_apply, schema.refileTask member]
      exact ⟨rfl, schema.refiled rfl task.filedIn⟩
    workspaces := by
      simp only [migrated, List.forall₂_map_right_iff, List.forall₂_same]
      exact fun workspace _ => ⟨rfl, schema.refiled rfl workspace.filingRepoId⟩
    identities := schema.mergeMappings_ok.2
    kept := by
      intro new member
      obtain ⟨old, listed, rfl⟩ := List.mem_map.mp member
      exact ⟨old, (mem_unbeaten.mp listed).1, rfl, schema.refiledMapping old⟩
    represented := fun old member => schema.represented member }

def twice : Before where
  repos :=
    [⟨"r2", "w2", "git@h:o/kit.git", "h/o/kit", none, "2026-02", "2026-02", "toolbox", ["tb"], "kit1"⟩,
      ⟨"r1", "w1", "git@h:o/kit.git", "h/o/kit", none, "2026-01", "2026-01", "kit", [], "kit"⟩]
  tasks := [⟨"t1", some "r1", some "7", none⟩, ⟨"t2", some "r2", some "7", some "r2"⟩]
  workspaces := [⟨"w1", none⟩, ⟨"w2", some "r2"⟩]
  mappings :=
    [⟨"t1", "r1", "github", "7", none, some "2026-03"⟩,
      ⟨"t2", "r2", "github", "7", none, some "2026-04"⟩]

theorem twice_schema : Schema twice :=
  ⟨by decide, by decide, by decide, by decide, by decide⟩

theorem migrate_keeps_twice : ∃ after, migrate twice = some after ∧ Migrated twice after ∧
    after.origins.map (fun origin => (origin.id, origin.name, origin.aliases)) =
      [("r1", "kit", ["tb", "toolbox"])] ∧
    after.tasks.map TaskRow.filingRepoId = [some "r1", some "r1"] ∧
    after.mappings.map MappingRow.taskId = ["t2"] := by
  obtain ⟨after, ran, kept⟩ := migrate_keeps twice_schema
  have told : (migrate twice).map (fun after =>
      (after.origins.map (fun origin => (origin.id, origin.name, origin.aliases)),
        after.tasks.map TaskRow.filingRepoId, after.mappings.map MappingRow.taskId)) =
      some ([("r1", "kit", ["tb", "toolbox"])], [some "r1", some "r1"], ["t2"]) := by
    decide +kernel
  rw [ran, Option.map_some, Option.some.injEq, Prod.mk.injEq, Prod.mk.injEq] at told
  exact ⟨after, ran, kept, told⟩

end Migration

end SharedIdentity

end RepoLink
