import RepoLink.Library.Growing
import RepoLink.RepoBindings.Service

/-!
What the statements of the repo bindings keep: names and aliases of an origin stay apart, an
instance has its URL from its origin, and an origin keeps its URL for good.
-/

namespace RepoLink

open KeyedTable

section Names

theorem trim_toList (text : String) : (trim text).toList =
    ((text.toList.dropWhile isWhitespace).reverse.dropWhile isWhitespace).reverse := by
  rw [trim, String.toList_ofList]

theorem dropWhile_eq_self {drops : Char → Bool} {text : List Char}
    (bare : ∀ first ∈ text.head?, drops first = false) : text.dropWhile drops = text := by
  cases text with
  | nil => rfl
  | cons first rest => rw [List.dropWhile_cons, bare first rfl]; rfl

/-- The ends of what `trim` leaves have nothing more to drop. -/
theorem trim_trim (text : String) : trim (trim text) = trim text := by
  apply String.toList_injective
  rw [trim_toList (trim text), trim_toList text]
  let front := text.toList.dropWhile isWhitespace
  let back := front.reverse.dropWhile isWhitespace
  change ((back.reverse.dropWhile isWhitespace).reverse.dropWhile isWhitespace).reverse = back.reverse
  have bareBack : ∀ last ∈ back.head?, isWhitespace last = false := by
    intro last found
    have nonempty : back ≠ [] := by
      intro empty
      rw [empty] at found
      cases found
    have head := List.head_dropWhile_not isWhitespace nonempty
    rw [List.head?_eq_some_head nonempty] at found
    cases found
    exact head
  have bareFront : ∀ first ∈ back.reverse.head?, isWhitespace first = false := by
    intro first found
    have nonempty : back ≠ [] := by
      intro empty
      rw [empty] at found
      cases found
    have suffix : back <:+ front.reverse := List.dropWhile_suffix isWhitespace
    have beginning : back.reverse <+: front := by
      rw [← List.reverse_suffix, List.reverse_reverse]
      exact suffix
    obtain ⟨rest, whole⟩ := beginning
    have filled : front ≠ [] := by
      intro empty
      rw [empty, List.append_eq_nil_iff, List.reverse_eq_nil_iff] at whole
      exact nonempty whole.1
    have head := List.head_dropWhile_not isWhitespace filled
    have same : front.head? = some first := by
      rw [← whole, List.head?_append, found]
      rfl
    rw [List.head?_eq_some_head filled] at same
    cases same
    exact head
  rw [dropWhile_eq_self bareFront, List.reverse_reverse, dropWhile_eq_self bareBack]

theorem isBlank_trim {text : String} (filled : trim text ≠ "") : isBlank (trim text) = false := by
  obtain ⟨char, member, visible⟩ := trim_filled filled
  rw [isBlank, List.all_eq_false]
  exact ⟨char, member, by rw [visible]; decide⟩

end Names

/-- What an origin keeps whatever is done to it: a usable prefix, a name that is not an alias, and
aliases that are trimmed, distinct and no identifiers. -/
structure OriginRow.WellFormed (uuids : UuidFormat) (origin : OriginRow) : Prop where
  prefixed : isValidPrefix origin.originPrefix = true
  named : isBlank origin.name = false
  apart : origin.name ∉ origin.aliases
  distinct : origin.aliases.Nodup
  handles : ∀ text ∈ origin.aliases, text ≠ "" ∧ trim text = text ∧ uuids.parse text = none

namespace OriginRow

variable {uuids : UuidFormat} {origin : OriginRow} {now : Timestamp}

theorem create_ok {id : RepoOriginId} {remoteUrl canonicalUrl : String}
    (created : create id now remoteUrl canonicalUrl = .ok origin) :
    isBlank (deriveName canonicalUrl) = false ∧ origin =
      { id, canonicalUrl, remoteUrl
        name := deriveName canonicalUrl
        aliases := []
        originPrefix := derivePrefix (deriveName canonicalUrl)
        createdAt := now
        updatedAt := now } := by
  simp only [create] at created
  split at created
  · cases created
  · split at created
    · cases created
    · split at created
      · cases created
      · rename_i filled
        cases created
        exact ⟨by simpa using filled, rfl⟩

theorem create_wellFormed {id : RepoOriginId} {remoteUrl canonicalUrl : String}
    (created : create id now remoteUrl canonicalUrl = .ok origin) : origin.WellFormed uuids := by
  obtain ⟨filled, rfl⟩ := create_ok created
  exact ⟨derivePrefix_valid _, filled, List.not_mem_nil, List.nodup_nil,
    fun _ member => (List.not_mem_nil member).elim⟩

theorem setPrefix_wellFormed {text : String} {renamed : OriginRow} (formed : origin.WellFormed uuids)
    (named : origin.setPrefix now text = .ok renamed) :
    renamed.WellFormed uuids ∧ renamed.id = origin.id ∧
      renamed.canonicalUrl = origin.canonicalUrl := by
  unfold setPrefix at named
  split at named
  · cases named
  · rename_i valid
    split at named
    · cases named
      exact ⟨formed, rfl, rfl⟩
    · cases named
      exact ⟨⟨by simpa using valid, formed.named, formed.apart, formed.distinct, formed.handles⟩,
        rfl, rfl⟩

theorem setName_wellFormed {text : String} {renamed : OriginRow} (formed : origin.WellFormed uuids)
    (named : origin.setName uuids now text = .ok renamed) :
    renamed.WellFormed uuids ∧ renamed.id = origin.id ∧
      renamed.canonicalUrl = origin.canonicalUrl := by
  simp only [setName] at named
  split at named
  · cases named
  · rename_i filled
    split at named
    · cases named
    · split at named
      · cases named
      · rename_i free
        split at named
        · cases named
          exact ⟨formed, rfl, rfl⟩
        · cases named
          exact ⟨⟨formed.prefixed, isBlank_trim filled, free, formed.distinct, formed.handles⟩,
            rfl, rfl⟩

theorem addAlias_wellFormed {text : String} {added : Bool × OriginRow}
    (formed : origin.WellFormed uuids) (named : origin.addAlias uuids now text = .ok added) :
    added.2.WellFormed uuids ∧ added.2.id = origin.id ∧
      added.2.canonicalUrl = origin.canonicalUrl := by
  simp only [addAlias] at named
  split at named
  · cases named
  · rename_i filled
    split at named
    · cases named
    · rename_i handle
      split at named
      · cases named
      · rename_i differs
        split at named
        · cases named
          exact ⟨formed, rfl, rfl⟩
        · rename_i absent
          cases named
          refine ⟨⟨formed.prefixed, formed.named, ?_, ?_, ?_⟩, rfl, rfl⟩
          · rw [List.mem_append, List.mem_singleton, not_or]
            exact ⟨formed.apart, fun same => differs same.symm⟩
          · rw [List.nodup_append]
            refine ⟨formed.distinct, List.nodup_singleton _, ?_⟩
            rintro stored member _ last rfl
            exact absent (List.mem_singleton.mp last ▸ member)
          · intro other member
            rcases List.mem_append.mp member with old | last
            · exact formed.handles other old
            · rw [List.mem_singleton.mp last]
              exact ⟨filled, trim_trim text, by simpa using handle⟩

theorem removeAlias_wellFormed {text : String} (formed : origin.WellFormed uuids) :
    (origin.removeAlias now text).2.WellFormed uuids ∧
      (origin.removeAlias now text).2.id = origin.id ∧
      (origin.removeAlias now text).2.canonicalUrl = origin.canonicalUrl := by
  have kept : ∀ other, other ∈ origin.aliases.filter (· ≠ text) → other ∈ origin.aliases :=
    fun other member => (List.mem_filter.mp member).1
  have distinct : (origin.aliases.filter (· ≠ text)).Nodup := formed.distinct.filter _
  simp only [removeAlias]
  split
  · exact ⟨⟨formed.prefixed, formed.named, fun member => formed.apart (kept _ member), distinct,
      fun other member => formed.handles other (kept other member)⟩, rfl, rfl⟩
  · exact ⟨⟨formed.prefixed, formed.named, fun member => formed.apart (kept _ member), distinct,
      fun other member => formed.handles other (kept other member)⟩, rfl, rfl⟩

end OriginRow

namespace OriginBook

variable {origin row : OriginRow} {book : OriginBook}

theorem mem_upserted_row (member : row ∈ (book.upserted origin).rows) :
    row ∈ book.table.rows ∧ row.id ≠ origin.id ∨
      row = origin ∨ ∃ stored : OriginRow, row = merged origin stored := by
  have found := Table.find_of_mem member
  unfold upserted at found
  rw [Table.find_upsert] at found
  split at found
  · cases stored : book.table.find row.id with
    | none =>
        rw [stored] at found
        exact .inr (.inl (Option.some.inj found).symm)
    | some old =>
        rw [stored] at found
        exact .inr (.inr ⟨old, (Option.some.inj found).symm⟩)
  · rename_i differs
    exact .inl ⟨Table.find_mem found, differs⟩

theorem mem_upserted_other (member : row ∈ book.table.rows) (differs : row.id ≠ origin.id) :
    row ∈ (book.upserted origin).rows := by
  refine @Table.find_mem _ _ _ _ (book.upserted origin) row.id row ?_
  unfold upserted
  rw [Table.find_upsert, if_neg differs]
  exact Table.find_of_mem member

theorem saveOrigin_table {after : OriginBook} (saved : book.saveOrigin origin = .ok after) :
    after.table = book.upserted origin := by
  unfold saveOrigin at saved
  split at saved
  · cases saved
  · split at saved
    · cases saved
    · cases saved
      rfl

end OriginBook

namespace BindingStore

def Homed (id : RepoOriginId) (canonicalUrl : String) (store : BindingStore) : Prop :=
  (id, canonicalUrl) ∈ store.originIds

def Keeps (id : RepoOriginId) (canonicalUrl : String) (store : BindingStore) : Prop :=
  ∃ origin ∈ store.origins.table.rows, origin.id = id ∧ origin.canonicalUrl = canonicalUrl

/-- What every statement of the service keeps. -/
structure Sound (uuids : UuidFormat) (store : BindingStore) : Prop where
  wellFormed : ∀ origin ∈ store.origins.table.rows, origin.WellFormed uuids
  homed : ∀ origin ∈ store.origins.table.rows, store.Homed origin.id origin.canonicalUrl
  once : ∀ id left right, store.Homed id left → store.Homed id right → left = right
  bound : ∀ row ∈ store.instances.table.rows, store.Keeps row.originId row.canonicalUrl

/-- Identifiers stay given out, and an origin stays stored under its URL. -/
structure Grows (before after : BindingStore) : Prop where
  homed : ∀ id canonicalUrl, before.Homed id canonicalUrl → after.Homed id canonicalUrl
  keeps : ∀ id canonicalUrl, before.Keeps id canonicalUrl → after.Keeps id canonicalUrl

theorem Grows.refl (store : BindingStore) : store.Grows store := ⟨fun _ _ => id, fun _ _ => id⟩

theorem Grows.trans {first second third : BindingStore} (one : first.Grows second)
    (two : second.Grows third) : first.Grows third :=
  ⟨fun id url => two.homed id url ∘ one.homed id url,
    fun id url => two.keeps id url ∘ one.keeps id url⟩

variable {uuids : UuidFormat} {store after : BindingStore}

/-- An origin goes in under the URL that its identifier is for. -/
theorem saveOrigin_sound {origin : OriginRow} (sound : store.Sound uuids)
    (formed : origin.WellFormed uuids) (homed : store.Homed origin.id origin.canonicalUrl)
    (saved : store.saveOrigin origin = .ok after) :
    after.Sound uuids ∧ store.Grows after ∧ after.Keeps origin.id origin.canonicalUrl := by
  unfold saveOrigin at saved
  cases result : store.origins.saveOrigin origin with
  | error error => rw [result] at saved; cases saved
  | ok book =>
      rw [result] at saved
      cases saved
      have table := OriginBook.saveOrigin_table result
      obtain ⟨stored, found, _⟩ := OriginBook.find_upserted origin store.origins
      have columns : stored.id = origin.id ∧ stored.canonicalUrl = origin.canonicalUrl := by
        rcases OriginBook.mem_upserted (Table.find_mem found) with ⟨_, other⟩ | ⟨same, url, _⟩
        · exact absurd (Table.find_key found) other
        · exact ⟨same, url⟩
      have keepsSaved : BindingStore.Keeps origin.id origin.canonicalUrl
          { store with origins := book } :=
        ⟨stored, table ▸ Table.find_mem found, columns⟩
      have grows : store.Grows { store with origins := book } := by
        refine ⟨fun _ _ => id, ?_⟩
        rintro id url ⟨row, member, rfl, rfl⟩
        by_cases same : row.id = origin.id
        · have url : row.canonicalUrl = origin.canonicalUrl :=
            sound.once row.id _ _ (sound.homed row member) (same ▸ homed)
          rw [same, url]
          exact keepsSaved
        · exact ⟨row, table ▸ OriginBook.mem_upserted_other member same, rfl, rfl⟩
      refine ⟨⟨?_, ?_, sound.once, ?_⟩, grows, keepsSaved⟩
      · intro row member
        rcases OriginBook.mem_upserted_row (table ▸ member) with ⟨old, _⟩ | rfl | ⟨_, rfl⟩
        · exact sound.wellFormed row old
        · exact formed
        · exact ⟨formed.prefixed, formed.named, formed.apart, formed.distinct, formed.handles⟩
      · intro row member
        rcases OriginBook.mem_upserted_row (table ▸ member) with ⟨old, _⟩ | rfl | ⟨_, rfl⟩
        · exact sound.homed row old
        · exact homed
        · exact homed
      · exact fun row member => grows.keeps _ _ (sound.bound row member)

theorem saveInstance_sound {row : InstanceRow} (sound : store.Sound uuids)
    (keeps : store.Keeps row.originId row.canonicalUrl)
    (saved : store.saveInstance row = .ok after) : after.Sound uuids ∧ store.Grows after := by
  unfold saveInstance at saved
  split at saved
  · cases saved
  · cases result : store.instances.saveInstance row with
    | error error => rw [result] at saved; cases saved
    | ok book =>
        rw [result] at saved
        cases saved
        have table : book.table = store.instances.upserted row := by
          unfold InstanceBook.saveInstance at result
          split at result
          · cases result
          · cases result
            rfl
        refine ⟨⟨sound.wellFormed, sound.homed, sound.once, ?_⟩, ⟨fun _ _ => id, fun _ _ => id⟩⟩
        intro other member
        rcases InstanceBook.mem_upserted (table ▸ member) with ⟨old, _⟩ | rfl | ⟨_, _, rfl⟩
        · exact sound.bound other old
        · exact keeps
        · exact keeps

theorem delete_sound (sound : store.Sound uuids) (id : RepoId) :
    BindingStore.Sound uuids { store with instances := store.instances.delete id } ∧
      store.Grows { store with instances := store.instances.delete id } := by
  refine ⟨⟨sound.wellFormed, sound.homed, sound.once, ?_⟩, ⟨fun _ _ held => held, fun _ _ held => held⟩⟩
  exact fun row member => sound.bound row (List.mem_filter.mp member).1

theorem newOriginId_sound (sound : store.Sound uuids) {id : RepoOriginId} (canonicalUrl : String)
    (fresh : id ∉ store.originIds.map Prod.fst) :
    BindingStore.Sound uuids { store with originIds := (id, canonicalUrl) :: store.originIds } ∧
      store.Grows { store with originIds := (id, canonicalUrl) :: store.originIds } ∧
      BindingStore.Homed id canonicalUrl
        { store with originIds := (id, canonicalUrl) :: store.originIds } := by
  have grows : store.Grows { store with originIds := (id, canonicalUrl) :: store.originIds } :=
    ⟨fun _ _ => List.mem_cons_of_mem _, fun _ _ kept => kept⟩
  refine ⟨⟨sound.wellFormed, ?_, ?_, sound.bound⟩, grows, List.mem_cons_self⟩
  · exact fun origin member => grows.homed _ _ (sound.homed origin member)
  · intro other left right inLeft inRight
    have unused : ∀ url, (other, url) ∈ store.originIds → other ≠ id := by
      rintro url member rfl
      exact fresh (List.mem_map_of_mem member)
    rcases List.mem_cons.mp inLeft with newLeft | oldLeft
    · cases newLeft
      rcases List.mem_cons.mp inRight with newRight | oldRight
      · cases newRight
        rfl
      · exact absurd rfl (unused right oldRight)
    · rcases List.mem_cons.mp inRight with newRight | oldRight
      · cases newRight
        exact absurd rfl (unused left oldLeft)
      · exact sound.once other left right oldLeft oldRight

end BindingStore

end RepoLink
