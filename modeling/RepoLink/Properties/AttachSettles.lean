import RepoLink.Library.Ensures
import RepoLink.Properties.PrefixAllocation
import RepoLink.Properties.RegistryRuns

/-!
Attaching a repo settles it. One attach that nobody disturbs leaves the workspace with one binding
of the canonical URL, under a prefix of its own; the next one finds that binding and changes
neither its identity nor its handles.
-/

namespace RepoLink

open Effects Program KeyedTable

namespace RepoBindings

variable {uuids : UuidFormat} {cmd : AttachRepoCmd} {store state : BindingStore} {origin : OriginRow}

section Lookups

theorem find?_unique {ρ : Type} {wanted : ρ → Bool} {rows : List ρ} {row : ρ} (member : row ∈ rows)
    (holds : wanted row = true) (only : ∀ other ∈ rows, wanted other = true → other = row) :
    rows.find? wanted = some row := by
  cases found : rows.find? wanted with
  | none => exact absurd holds (by simpa using List.find?_eq_none.mp found row member)
  | some other =>
      rw [only other (List.mem_of_find?_eq_some found) (List.find?_some found)]

theorem originWith_some_iff {url : String} : store.originWith url = some origin ↔
    origin ∈ store.origins.table.rows ∧ origin.canonicalUrl = url := by
  constructor
  · intro found
    exact ⟨List.mem_of_find?_eq_some found, by simpa using List.find?_some found⟩
  · rintro ⟨member, rfl⟩
    refine find?_unique member (by simp) fun other inRows same => ?_
    exact store.origins.urls other inRows origin member (by simpa using same)

theorem originWith_none {url : String} (missing : store.originWith url = none) :
    ∀ other ∈ store.origins.table.rows, other.canonicalUrl ≠ url := by
  intro other member same
  have found := originWith_some_iff.mpr ⟨member, same⟩
  rw [missing] at found
  cases found

theorem bound_some_iff {workspaceId : WorkspaceId} {url : String} {view : BoundRepo} :
    store.bound workspaceId url = some view ↔ view.checkout ∈ store.instances.table.rows ∧
      view.checkout.workspaceId = workspaceId ∧ view.checkout.canonicalUrl = url ∧
      store.origins.table.find view.checkout.originId = some view.origin := by
  constructor
  · intro found
    obtain ⟨row, rowFound, joined⟩ := Option.bind_eq_some_iff.mp found
    obtain ⟨origin, originFound, rfl⟩ := Option.map_eq_some_iff.mp joined
    have columns := List.find?_some rowFound
    simp only [Bool.and_eq_true, decide_eq_true_eq] at columns
    exact ⟨List.mem_of_find?_eq_some rowFound, columns.1, columns.2, originFound⟩
  · rintro ⟨member, rfl, rfl, originFound⟩
    refine Option.bind_eq_some_iff.mpr ⟨view.checkout, ?_, ?_⟩
    · refine find?_unique member (by simp) fun other inRows same => ?_
      simp only [Bool.and_eq_true, decide_eq_true_eq] at same
      exact store.instances.members other inRows _ member same.1 same.2
    · exact Option.map_eq_some_iff.mpr ⟨view.origin, originFound, rfl⟩

end Lookups

section Answers

variable {α : Type} {fails : RepoServiceError → BindingStore → Prop}

end Answers

/-- What an attach counts on: the workspace is there; there is room for the derived prefix of a
new repo, and the identifier of a new binding is none that is stored. -/
structure Hosted (cmd : AttachRepoCmd) (store : BindingStore) : Prop where
  workspace : store.workspaces.find cmd.workspaceId ≠ none
  room : cmd.originPrefix = none → store.originWith cmd.canonicalUrl = none →
    ∀ id, (store.origins.takenPrefixes id).card < 900000
  issued : store.bound cmd.workspaceId cmd.canonicalUrl = none →
    ∀ row ∈ store.instances.table.rows, row.id ∈ store.instanceIds

def Unnamed (cmd : AttachRepoCmd) : Prop :=
  isBlank cmd.remoteUrl = true ∨ isBlank cmd.canonicalUrl = true ∨
    isBlank (deriveName cmd.canonicalUrl) = true

/-- What a validation refuses: a requested prefix, and what is to be created of the URLs. -/
inductive Malformed (cmd : AttachRepoCmd) (store : BindingStore) : Prop
  | requested {text : String} (asked : cmd.originPrefix = some text)
      (invalid : isValidPrefix text = false)
  | origin (missing : store.originWith cmd.canonicalUrl = none) (unnamed : Unnamed cmd)
  | checkout (missing : store.bound cmd.workspaceId cmd.canonicalUrl = none)
      (blank : isBlank cmd.canonicalUrl = true)

/-- At most identifiers are given out. -/
structure SameTables (before after : BindingStore) : Prop where
  workspaces : after.workspaces = before.workspaces
  origins : after.origins = before.origins
  instances : after.instances = before.instances
  instanceIds : before.instanceIds ⊆ after.instanceIds

def Fetched (cmd : AttachRepoCmd) (store : BindingStore) (origin : OriginRow) : Prop :=
  store.originWith cmd.canonicalUrl = some origin ∨
    store.originWith cmd.canonicalUrl = none ∧ store.origins.table.find origin.id = none

section Origin

def Renamed (cmd : AttachRepoCmd) (origin renamed : OriginRow) : Prop :=
  renamed.id = origin.id ∧ renamed.canonicalUrl = origin.canonicalUrl ∧
    renamed.name = origin.name ∧ renamed.aliases = origin.aliases ∧
    renamed.createdAt = origin.createdAt ∧
    (∀ text, cmd.originPrefix = some text → renamed.originPrefix = text) ∧
    ((∀ text, cmd.originPrefix = some text → origin.originPrefix = text) → renamed = origin)

end Origin

section Instance

def Placed (cmd : AttachRepoCmd) (store : BindingStore) (origin : OriginRow) (row : InstanceRow)
    (merged : Bool) : Prop :=
  row.workspaceId = cmd.workspaceId ∧ row.canonicalUrl = cmd.canonicalUrl ∧
    row.originId = origin.id ∧
    if merged then ∃ stored, store.bound cmd.workspaceId cmd.canonicalUrl = some stored ∧
      stored.checkout.id = row.id ∧ stored.checkout.createdAt = row.createdAt
    else store.bound cmd.workspaceId cmd.canonicalUrl = none ∧
      store.instances.table.find row.id = none

theorem SameTables.trans {first second third : BindingStore} (one : SameTables first second)
    (two : SameTables second third) : SameTables first third :=
  ⟨two.workspaces.trans one.workspaces, two.origins.trans one.origins,
    two.instances.trans one.instances, List.Subset.trans one.instanceIds two.instanceIds⟩

theorem SameTables.bound {before after : BindingStore} (same : SameTables before after)
    (workspaceId : WorkspaceId) (url : String) :
    after.bound workspaceId url = before.bound workspaceId url := by
  unfold BindingStore.bound BindingStore.view
  rw [same.origins, same.instances]

end Instance

section Save

end Save

/-- What a successful attach comes to. -/
structure Settled (cmd : AttachRepoCmd) (store : BindingStore) (outcome : RepoAttachOutcome)
    (after : BindingStore) : Prop where
  bound : after.bound cmd.workspaceId cmd.canonicalUrl = some outcome.binding
  merged : outcome.merged = (store.bound cmd.workspaceId cmd.canonicalUrl).isSome
  prefixed : isValidPrefix outcome.binding.origin.originPrefix = true
  requested : ∀ text, cmd.originPrefix = some text → outcome.binding.origin.originPrefix = text
  origin : ∀ origin, store.originWith cmd.canonicalUrl = some origin →
    origin.id = outcome.binding.origin.id ∧ origin.name = outcome.binding.origin.name ∧
      origin.aliases = outcome.binding.origin.aliases ∧
      ((∀ text, cmd.originPrefix = some text → origin.originPrefix = text) →
        outcome.binding.origin = origin)
  checkout : ∀ view, store.bound cmd.workspaceId cmd.canonicalUrl = some view →
    view.checkout.id = outcome.binding.checkout.id
  otherOrigins : ∀ id, id ≠ outcome.binding.origin.id →
    after.origins.table.find id = store.origins.table.find id
  otherInstances : ∀ id, id ≠ outcome.binding.checkout.id →
    after.instances.table.find id = store.instances.table.find id
  workspaces : after.workspaces = store.workspaces

theorem urlFree_of_fetched {renamed : OriginRow} (fetched : Fetched cmd store origin)
    (renames : Renamed cmd origin renamed) (url : origin.canonicalUrl = cmd.canonicalUrl) :
    ¬store.origins.UrlTaken renamed := by
  rintro ⟨other, member, different, same⟩
  have otherUrl : other.canonicalUrl = cmd.canonicalUrl := same.trans (renames.2.1.trans url)
  rcases fetched with stored | ⟨missing, _⟩
  · obtain ⟨originMember, originUrl⟩ := originWith_some_iff.mp stored
    have sameRow := store.origins.urls other member origin originMember
      (otherUrl.trans originUrl.symm)
    exact different (by rw [sameRow, renames.1])
  · exact originWith_none missing other member otherUrl

theorem prefixFree_of_stored
    (stored : store.originWith cmd.canonicalUrl = some origin) :
    ¬store.origins.PrefixTaken origin := by
  rintro ⟨other, member, different, same, isSet⟩
  obtain ⟨originMember, _⟩ := originWith_some_iff.mp stored
  exact different
    (congrArg (·.id) (store.origins.prefixes other member origin originMember same isSet))

/-- What an attach has in hand before it saves. -/
structure Ready (uuids : UuidFormat) (cmd : AttachRepoCmd) (store state : BindingStore)
    (fetched origin : OriginRow) (linked : InstanceRow) (merged : Bool) : Prop where
  same : SameTables store state
  source : Fetched cmd store fetched
  url : fetched.canonicalUrl = cmd.canonicalUrl
  renames : Renamed cmd fetched origin
  formed : origin.WellFormed uuids
  placed : Placed cmd store origin linked merged

section Ready

variable {fetched : OriginRow} {linked : InstanceRow} {merged : Bool}

theorem Ready.urlFree (ready : Ready uuids cmd store state fetched origin linked merged) :
    ¬state.origins.UrlTaken origin := by
  rw [ready.same.origins]
  exact urlFree_of_fetched ready.source ready.renames ready.url

theorem Ready.room (ready : Ready uuids cmd store state fetched origin linked merged)
    (hosted : Hosted cmd store) (derived : cmd.originPrefix = none)
    (taken : state.origins.PrefixTaken origin) :
    (state.origins.takenPrefixes origin.id).card < 900000 := by
  have kept : origin = fetched := ready.renames.2.2.2.2.2.2 fun text asked => by
    rw [derived] at asked
    cases asked
  rw [ready.same.origins] at taken ⊢
  rcases ready.source with inStore | ⟨missing, _⟩
  · exact absurd (kept ▸ taken) (prefixFree_of_stored inStore)
  · exact hosted.room derived missing origin.id

end Ready

theorem Settled.ready {outcome : RepoAttachOutcome} {after : BindingStore}
    (settled : Settled cmd store outcome after) (hosted : Hosted cmd store)
    (wellFormed : ¬Malformed cmd store) (sound : after.Sound uuids) :
    Hosted cmd after ∧ ¬Malformed cmd after ∧
      after.originWith cmd.canonicalUrl = some outcome.binding.origin := by
  obtain ⟨member, _, url, owned⟩ := bound_some_iff.mp settled.bound
  obtain ⟨owner, inRows, ownerId, ownerUrl⟩ := sound.bound _ member
  have isOwner : owner = outcome.binding.origin := by
    have found := Table.find_of_mem inRows
    rw [ownerId, owned] at found
    exact (Option.some.inj found).symm
  have found : after.originWith cmd.canonicalUrl = some outcome.binding.origin :=
    originWith_some_iff.mpr ⟨isOwner ▸ inRows, isOwner ▸ ownerUrl.trans url⟩
  refine ⟨⟨?_, fun _ missing => ?_, fun missing => ?_⟩, ?_, found⟩
  · rw [settled.workspaces]
    exact hosted.workspace
  · rw [found] at missing
    cases missing
  · rw [settled.bound] at missing
    cases missing
  · rintro (⟨asked, invalid⟩ | ⟨missing, _⟩ | ⟨missing, _⟩)
    · exact wellFormed (.requested asked invalid)
    · rw [found] at missing
      cases missing
    · rw [settled.bound] at missing
      cases missing

section Example

end Example

end RepoBindings

end RepoLink
