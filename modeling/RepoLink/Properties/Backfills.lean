import RepoLink.Library.Ensures
import RepoLink.Library.Growing
import RepoLink.Properties.HashMinting
import RepoLink.Properties.PrefixAllocation
import RepoLink.Store.Backfill

/-!
Any number of processes that open one legacy database at once fill it up: a value that is set is
never changed, a value that they set is valid and taken once, and behind a process that has opened
the database nothing is unset.
-/

namespace RepoLink

open KeyedTable Effects Program

namespace Backfill

structure FilledOrigin (before after : OriginRow) : Prop where
  kept : after = { before with name := after.name, originPrefix := after.originPrefix }
  name : after.name = before.name ∨
    before.name = "" ∧ after.name = deriveName before.canonicalUrl
  originPrefix : after.originPrefix = before.originPrefix ∨
    before.originPrefix = "" ∧ isValidPrefix after.originPrefix = true

def FilledTask (before after : HashRow) : Prop :=
  after = before ∨
    before.hash = "" ∧ isValidHash after.hash = true ∧ after = { before with hash := after.hash }

/-- The same rows, filled up. -/
structure LegacyStore.Grows (before after : LegacyStore) : Prop where
  origins : ∀ id, Option.Rel FilledOrigin (before.origins.table.find id)
    (after.origins.table.find id)
  tasks : ∀ id, Option.Rel FilledTask (before.tasks.table.find id) (after.tasks.table.find id)

def Named (id : RepoOriginId) (store : LegacyStore) : Prop :=
  ∀ row, store.origins.table.find id = some row → row.name ≠ "" ∨ deriveName row.canonicalUrl = ""

def Prefixed (id : RepoOriginId) (store : LegacyStore) : Prop :=
  ∀ row, store.origins.table.find id = some row → row.originPrefix ≠ ""

def Hashed (id : TaskId) (store : LegacyStore) : Prop :=
  ∀ row, store.tasks.table.find id = some row → row.hash ≠ ""

/-- Nothing is unset. -/
structure LegacyStore.Complete (store : LegacyStore) : Prop where
  names : ∀ id, Named id store
  prefixes : ∀ id, Prefixed id store
  hashes : ∀ id, Hashed id store

section Growth

theorem FilledOrigin.refl (row : OriginRow) : FilledOrigin row row := ⟨rfl, .inl rfl, .inl rfl⟩

theorem FilledOrigin.url {before after : OriginRow} (filled : FilledOrigin before after) :
    after.canonicalUrl = before.canonicalUrl := by
  rw [filled.kept]

theorem FilledOrigin.trans {first second third : OriginRow} (left : FilledOrigin first second)
    (right : FilledOrigin second third) : FilledOrigin first third where
  kept := by rw [right.kept, left.kept]
  name := by
    rcases right.name with same | ⟨unset, derived⟩
    · rw [same]
      exact left.name
    · rcases left.name with sameName | ⟨unsetBefore, _⟩
      · exact .inr ⟨sameName ▸ unset, left.url ▸ derived⟩
      · exact .inr ⟨unsetBefore, left.url ▸ derived⟩
  originPrefix := by
    rcases right.originPrefix with same | ⟨unset, valid⟩
    · rw [same]
      exact left.originPrefix
    · rcases left.originPrefix with samePrefix | ⟨unsetBefore, _⟩
      · exact .inr ⟨samePrefix ▸ unset, valid⟩
      · exact .inr ⟨unsetBefore, valid⟩

theorem FilledTask.trans {first second third : HashRow} (left : FilledTask first second)
    (right : FilledTask second third) : FilledTask first third := by
  rcases left with rfl | ⟨unset, valid, kept⟩
  · exact right
  · rcases right with rfl | ⟨_, validAfter, keptAfter⟩
    · exact .inr ⟨unset, valid, kept⟩
    · refine .inr ⟨unset, validAfter, ?_⟩
      rw [keptAfter, kept]

theorem LegacyStore.Grows.refl (store : LegacyStore) : store.Grows store where
  origins id := by
    cases store.origins.table.find id with
    | none => exact .none
    | some row => exact .some (.refl row)
  tasks id := by
    cases store.tasks.table.find id with
    | none => exact .none
    | some row => exact .some (.inl rfl)

theorem optionRel_trans {α : Type} {rel : α → α → Prop}
    (trans : ∀ first second third, rel first second → rel second third → rel first third) :
    ∀ {first second third : Option α}, Option.Rel rel first second → Option.Rel rel second third →
      Option.Rel rel first third
  | _, _, _, .none, .none => .none
  | _, _, _, .some left, .some right => .some (trans _ _ _ left right)

theorem LegacyStore.Grows.trans {first second third : LegacyStore} (left : first.Grows second)
    (right : second.Grows third) : first.Grows third where
  origins id :=
    @optionRel_trans _ FilledOrigin (fun _ _ _ => .trans) _ _ _ (left.origins id) (right.origins id)
  tasks id :=
    @optionRel_trans _ FilledTask (fun _ _ _ => .trans) _ _ _ (left.tasks id) (right.tasks id)

/-- Every process that opens the database fills it. The unique indexes are part of the store. -/
def growth : Growth backfillPorts LegacyStore where
  meaning := failingMeaning
  inv _ := True
  grows := LegacyStore.Grows
  refl := LegacyStore.Grows.refl
  trans := LegacyStore.Grows.trans

theorem LegacyStore.Grows.origin_before {before after : LegacyStore} (grown : before.Grows after)
    {id : RepoOriginId} {later : OriginRow} (found : after.origins.table.find id = some later) :
    ∃ row, before.origins.table.find id = some row ∧ FilledOrigin row later := by
  have related := grown.origins id
  rw [found] at related
  cases earlier : before.origins.table.find id with
  | none =>
      rw [earlier] at related
      cases related
  | some row =>
      rw [earlier] at related
      cases related with
      | some filled => exact ⟨row, rfl, filled⟩

theorem LegacyStore.Grows.task_before {before after : LegacyStore} (grown : before.Grows after)
    {id : TaskId} {later : HashRow} (found : after.tasks.table.find id = some later) :
    ∃ row, before.tasks.table.find id = some row ∧ FilledTask row later := by
  have related := grown.tasks id
  rw [found] at related
  cases earlier : before.tasks.table.find id with
  | none =>
      rw [earlier] at related
      cases related
  | some row =>
      rw [earlier] at related
      cases related with
      | some filled => exact ⟨row, rfl, filled⟩

theorem Named.grow {id : RepoOriginId} {before after : LegacyStore} (grown : before.Grows after)
    (named : Named id before) : Named id after := by
  intro later found
  obtain ⟨row, earlier, filled⟩ := grown.origin_before found
  rw [filled.url]
  rcases named row earlier with set | bare
  · rcases filled.name with same | ⟨unset, _⟩
    · exact .inl (same ▸ set)
    · exact absurd unset set
  · exact .inr bare

theorem not_valid_empty : isValidPrefix "" = false := by decide

theorem Prefixed.grow {id : RepoOriginId} {before after : LegacyStore} (grown : before.Grows after)
    (prefixed : Prefixed id before) : Prefixed id after := by
  intro later found
  obtain ⟨row, earlier, filled⟩ := grown.origin_before found
  rcases filled.originPrefix with same | ⟨unset, _⟩
  · exact same ▸ prefixed row earlier
  · exact absurd unset (prefixed row earlier)

theorem Hashed.grow {id : TaskId} {before after : LegacyStore} (grown : before.Grows after)
    (hashed : Hashed id before) : Hashed id after := by
  intro later found
  obtain ⟨row, earlier, filled⟩ := grown.task_before found
  rcases filled with rfl | ⟨unset, _⟩
  · exact hashed _ earlier
  · exact absurd unset (hashed row earlier)

end Growth

section Statements

variable {book after : OriginBook} {id : RepoOriginId}

theorem saveOrigin_table {origin : OriginRow} (saved : book.saveOrigin origin = .ok after) :
    after.table = book.upserted origin := by
  unfold OriginBook.saveOrigin at saved
  split at saved
  · cases saved
  · split at saved
    · cases saved
    · cases saved
      rfl

/-- The update of one column of one row. -/
theorem fillOrigin_find {unset : OriginRow → Bool} {change : OriginRow → OriginRow}
    (keeps : ∀ row, (change row).id = row.id ∧ (change row).createdAt = row.createdAt)
    (filled : fillOrigin id unset change book = .ok after) (wanted : RepoOriginId) :
    after.table.find wanted = if wanted = id then (book.table.find id).map fun row =>
      if unset row then change row else row else book.table.find wanted := by
  have unchanged : ∀ row, book.table.find id = some row →
      (if unset row then change row else row) = row →
      book.table.find wanted = if wanted = id then (book.table.find id).map fun row =>
        if unset row then change row else row else book.table.find wanted := by
    intro row found same
    split
    · rename_i isRow
      rw [isRow, found, Option.map_some, same]
    · rfl
  unfold fillOrigin at filled
  cases found : book.table.find id with
  | none =>
      rw [found] at filled
      cases filled
      split
      · rename_i isRow
        rw [isRow, found, Option.map_none]
      · rfl
  | some row =>
      rw [← found]
      rw [found] at filled
      dsimp only at filled
      split at filled
      · rename_i isUnset
        cases saved : book.saveOrigin (change row) with
        | error error =>
            rw [saved] at filled
            cases filled
        | ok other =>
            rw [saved] at filled
            cases filled
            have rowId : row.id = id := ((Table.find_some_iff book.table id row).mp found).2
            rw [saveOrigin_table saved, OriginBook.upserted, Table.find_upsert, (keeps row).1, rowId]
            split
            · rename_i isRow
              rw [isRow, found, Option.map_some, Option.map_some, Option.getD_some, if_pos isUnset,
                OriginBook.merged, ← (keeps row).2]
            · rfl
      · rename_i isSet
        cases filled
        exact unchanged row found (if_neg isSet)

theorem fillHash_find {tasks after : HashBook} {id : TaskId} {hash : String}
    (filled : fillHash id hash tasks = .ok after) (wanted : TaskId) :
    after.table.find wanted = (tasks.table.find wanted).map (HashRow.filled id hash) := by
  unfold fillHash at filled
  split at filled
  · split at filled
    · cases filled
    · cases filled
      exact Table.find_mapRows (HashRow.filled id hash) (HashRow.filled_id id hash) tasks.table wanted
  · rename_i isSet
    cases filled
    cases found : tasks.table.find wanted with
    | none => rfl
    | some row =>
        rw [Option.map_some, HashRow.filled, if_neg]
        rintro ⟨isRow, unset⟩
        have wantedId : wanted = id := (Table.find_key found).symm.trans isRow
        rw [← wantedId, found] at isSet
        simp [unset] at isSet

end Statements

theorem perform_error {query : BackfillQuery} {before after : LegacyStore} {error : SqlxError}
    (failed : (.error error, after) = query.perform before) : after = before := by
  cases query with
  | setName id name =>
      simp only [BackfillQuery.perform] at failed
      split at failed
      · cases failed
      · exact (Prod.mk.inj failed).2
  | setPrefix id text =>
      simp only [BackfillQuery.perform] at failed
      split at failed
      · cases failed
      · exact (Prod.mk.inj failed).2
  | setHash id hash =>
      simp only [BackfillQuery.perform] at failed
      split at failed
      · cases failed
      · exact (Prod.mk.inj failed).2
  | unnamedOrigins => cases failed
  | unprefixedOrigins => cases failed
  | unhashedTasks => cases failed

theorem fillOrigin_grows {before : LegacyStore} {book : OriginBook} {id : RepoOriginId}
    {unset : OriginRow → Bool} {change : OriginRow → OriginRow}
    (keeps : ∀ row, (change row).id = row.id ∧ (change row).createdAt = row.createdAt)
    (filled : fillOrigin id unset change before.origins = .ok book)
    (fills : ∀ row, before.origins.table.find id = some row → unset row = true →
      FilledOrigin row (change row)) : before.Grows { before with origins := book } where
  origins wanted := by
    rw [fillOrigin_find keeps filled wanted]
    split
    · rename_i isRow
      rw [isRow]
      cases found : before.origins.table.find id with
      | none => exact .none
      | some row =>
          refine .some ?_
          dsimp only
          split
          · rename_i isUnset
            exact fills row found isUnset
          · exact .refl row
    · exact (LegacyStore.Grows.refl before).origins wanted
  tasks := (LegacyStore.Grows.refl before).tasks

theorem setName_settles {before after : LegacyStore} {id : RepoOriginId} {url : String} {value : Unit}
    (known : ∀ row, before.origins.table.find id = some row → row.canonicalUrl = url)
    (performed : (.ok value, after) = (BackfillQuery.setName id (deriveName url)).perform before) :
    before.Grows after ∧ Named id after := by
  simp only [BackfillQuery.perform] at performed
  split at performed
  · rename_i book filled
    cases (Prod.mk.inj performed).2
    have keeps : ∀ row : OriginRow, ({ row with name := deriveName url } : OriginRow).id = row.id ∧
        ({ row with name := deriveName url } : OriginRow).createdAt = row.createdAt :=
      fun _ => ⟨rfl, rfl⟩
    refine ⟨fillOrigin_grows keeps filled fun row found unset => ?_, fun row found => ?_⟩
    · exact ⟨rfl, .inr ⟨of_decide_eq_true unset, by rw [known row found]⟩, .inl rfl⟩
    · have found : book.table.find id = some row := found
      rw [fillOrigin_find keeps filled id, if_pos rfl] at found
      obtain ⟨old, earlier, rfl⟩ := Option.map_eq_some_iff.mp found
      split
      · by_cases bare : deriveName url = ""
        · exact .inr (by rw [known old earlier, bare])
        · exact .inl bare
      · rename_i isSet
        exact .inl fun unset => isSet (decide_eq_true unset)
  · cases performed

theorem setPrefix_settles {before after : LegacyStore} {id : RepoOriginId} {text : String}
    {value : Unit} (valid : isValidPrefix text = true)
    (performed : (.ok value, after) = (BackfillQuery.setPrefix id text).perform before) :
    before.Grows after ∧ Prefixed id after := by
  simp only [BackfillQuery.perform] at performed
  split at performed
  · rename_i book filled
    cases (Prod.mk.inj performed).2
    have keeps : ∀ row : OriginRow, ({ row with originPrefix := text } : OriginRow).id = row.id ∧
        ({ row with originPrefix := text } : OriginRow).createdAt = row.createdAt :=
      fun _ => ⟨rfl, rfl⟩
    refine ⟨fillOrigin_grows keeps filled fun row found unset => ?_, fun row found => ?_⟩
    · exact ⟨rfl, .inl rfl, .inr ⟨of_decide_eq_true unset, valid⟩⟩
    · have found : book.table.find id = some row := found
      rw [fillOrigin_find keeps filled id, if_pos rfl] at found
      obtain ⟨old, earlier, rfl⟩ := Option.map_eq_some_iff.mp found
      split
      · rintro rfl
        exact Bool.false_ne_true (not_valid_empty.symm.trans valid)
      · rename_i isSet
        exact fun unset => isSet (decide_eq_true unset)
  · cases performed

theorem setHash_settles {before after : LegacyStore} {id : TaskId} {hash : String} {value : Unit}
    (valid : isValidHash hash = true)
    (performed : (.ok value, after) = (BackfillQuery.setHash id hash).perform before) :
    before.Grows after ∧ Hashed id after := by
  have filledRow : ∀ row : HashRow, FilledTask row (row.filled id hash) := by
    intro row
    unfold HashRow.filled
    split
    · rename_i unset
      exact .inr ⟨unset.2, valid, rfl⟩
    · exact .inl rfl
  simp only [BackfillQuery.perform] at performed
  split at performed
  · rename_i book filled
    cases (Prod.mk.inj performed).2
    refine ⟨⟨(LegacyStore.Grows.refl before).origins, fun wanted => ?_⟩, fun row found => ?_⟩
    · rw [fillHash_find filled wanted]
      cases before.tasks.table.find wanted with
      | none => exact .none
      | some row => exact .some (filledRow row)
    · have found : book.table.find id = some row := found
      rw [fillHash_find filled id] at found
      obtain ⟨old, earlier, rfl⟩ := Option.map_eq_some_iff.mp found
      have oldId : old.id = id := ((Table.find_some_iff before.tasks.table id old).mp earlier).2
      unfold HashRow.filled
      split
      · rintro rfl
        exact absurd valid (by decide)
      · rename_i kept
        exact fun unset => kept ⟨oldId, unset⟩
  · cases performed

section Calls

variable {α : Type} {post : α → LegacyStore → Prop} {state : LegacyStore}

theorem keeps_tryQuery {query : BackfillQuery} {next : Except SqlxError query.Answer → Backfilling α}
    (succeeds : ∀ before, state.Grows before → ∀ value after,
      (.ok value, after) = query.perform before →
      before.Grows after ∧ (next (.ok value)).Keeps growth post after)
    (fails : ∀ before, state.Grows before → ∀ error, (next (.error error)).Keeps growth post before) :
    ((tryQuery query).bind next).Keeps growth post state := by
  refine keeps_call fun before grown _ answer after answered => ?_
  rcases answered with performed | ⟨⟨message, rfl⟩, rfl⟩
  · have performed : (answer, after) = query.perform before := performed
    match answer, performed with
    | .ok value, performed =>
        obtain ⟨more, rest⟩ := succeeds before grown value after performed
        exact ⟨trivial, more, rest⟩
    | .error error, performed =>
        have same := perform_error performed
        subst same
        exact ⟨trivial, .refl _, fails _ grown error⟩
  · exact ⟨trivial, .refl _, fails _ grown _⟩

variable {id : RepoOriginId}

theorem keeps_required {query : BackfillQuery} {post : query.Answer → LegacyStore → Prop}
    (succeeds : ∀ before, state.Grows before → ∀ value after,
      (.ok value, after) = query.perform before →
      before.Grows after ∧ ∀ later, after.Grows later → post value later) :
    (required query).Keeps growth post state := by
  refine keeps_tryQuery (fun before grown value after performed => ?_) fun _ _ _ => keeps_fail
  obtain ⟨more, held⟩ := succeeds before grown value after performed
  exact ⟨more, keeps_done fun later after _ => held later after⟩

theorem keeps_tryPrefix {base : String} {suffix : Nat} {taken : Backfilling Unit}
    (valid : isValidPrefix base = true) (within : suffix ≤ RepoBindingService.safetyCap)
    (goesOn : ∀ later, taken.Keeps growth (fun _ later => Prefixed id later) later) :
    (tryPrefix id base suffix taken).Keeps growth (fun _ later => Prefixed id later) state := by
  have validText : isValidPrefix
      (if suffix = 0 then base else RepoBindingService.candidate base suffix) = true := by
    split
    · exact valid
    · exact RepoBindingService.candidate_valid valid within
  refine keeps_tryQuery (fun before _ value after performed => ?_) fun before _ error => ?_
  · obtain ⟨more, settled⟩ := setPrefix_settles validText performed
    exact ⟨more, keeps_done fun later grown _ => settled.grow grown⟩
  · cases error with
    | uniqueViolation => exact goesOn before
    | other message => exact keeps_fail

theorem keeps_placePrefix {base : String} (valid : isValidPrefix base = true) : ∀ (left : Nat)
    (state : LegacyStore), (placePrefix id base left).Keeps growth (fun _ later => Prefixed id later)
      state := by
  intro left
  induction left with
  | zero => exact fun _ => keeps_tryPrefix valid le_rfl fun _ => keeps_fail
  | succ left ih => exact fun _ => keeps_tryPrefix valid (Nat.sub_le _ _) ih

theorem keeps_tryLength {task : TaskId} {length : Nat} (lower : minHashLen ≤ length)
    (upper : length ≤ maxHashLen) : ∀ (left : Nat) (state : LegacyStore),
      (tryLength task length left).Keeps growth (fun done later => done = true → Hashed task later)
        state := by
  intro left
  induction left with
  | zero =>
      refine fun _ => keeps_done fun _ _ _ done => ?_
      cases done
  | succ left ih =>
      intro state
      refine keeps_call fun before _ _ text after drawn => ?_
      obtain ⟨rfl, uuids, minted⟩ := drawn
      have valid : isValidHash text = true := by
        rw [randomLowercaseBase32_spec uuids le_rfl] at minted
        cases Option.some.inj minted
        refine isValidHash_symbols (fun char member => ?_) (by simpa using lower) (by simpa using upper)
        obtain ⟨index, _, rfl⟩ := List.mem_map.mp member
        exact symbolAt_mem _ _
      refine ⟨trivial, .refl _, keeps_tryQuery (fun current _ value after performed => ?_)
        fun current _ error => ?_⟩
      · obtain ⟨more, settled⟩ := setHash_settles valid performed
        exact ⟨more, keeps_done fun later grown _ _ => settled.grow grown⟩
      · cases error with
        | uniqueViolation => exact ih current
        | other message => exact keeps_fail

theorem keeps_placeHash {task : TaskId} : ∀ {lengths : List Nat},
    (∀ length ∈ lengths, minHashLen ≤ length ∧ length ≤ maxHashLen) → ∀ state : LegacyStore,
      (placeHash task lengths).Keeps growth (fun _ later => Hashed task later) state := by
  intro lengths
  induction lengths with
  | nil => exact fun _ _ => keeps_fail
  | cons length longer ih =>
      intro within state
      obtain ⟨lower, upper⟩ := within length List.mem_cons_self
      refine (keeps_tryLength lower upper 8 state).bind trivial fun done later _ _ settled => ?_
      cases done with
      | true => exact keeps_done fun last grown _ => (settled rfl).grow grown
      | false => exact ih (fun other member => within other (List.mem_cons_of_mem length member)) later

end Calls

section Passes

variable {state : LegacyStore}

theorem keeps_pass {ι κ : Type} {first : Backfilling (List ι)} {body : ι → Backfilling Unit}
    {settled : κ → LegacyStore → Prop} (key : ι → κ) (known : ι → LegacyStore → Prop)
    (settledStable : ∀ id before after, before.Grows after → settled id before → settled id after)
    (knownStable : ∀ item before after, before.Grows after → known item before → known item after)
    (selects : first.Keeps growth (fun items later =>
      (∀ id, settled id later ∨ ∃ item ∈ items, key item = id) ∧ ∀ item ∈ items, known item later)
      state)
    (each : ∀ item state, known item state →
      (body item).Keeps growth (fun _ later => settled (key item) later) state) :
    (first.bind fun items => foldEach (fun _ item => body item) items ()).Keeps growth
      (fun _ later => ∀ id, settled id later) state := by
  refine selects.bind trivial fun items later _ _ ⟨covered, aware⟩ => ?_
  have stays : ∀ before after : LegacyStore, before.Grows after →
      (∀ item ∈ items, known item before) → ∀ item ∈ items, known item after :=
    fun before after grown aware item member => knownStable item before after grown (aware item member)
  have loop : (foldEach (fun _ item => body item) items ()).Keeps growth
      (fun _ later => ∀ item ∈ items, settled (key item) later) later :=
    keeps_forEach stays (fun item => settledStable (key item))
      (fun item current member _ aware => each item current (aware item member)) trivial aware
  refine (loop.remember (LegacyStore.Grows.refl later)).mono fun _ last _ ⟨grown, all⟩ id => ?_
  rcases covered id with done | ⟨item, member, rfl⟩
  · exact settledStable id later last grown done
  · exact all item member

theorem url_grow {id : RepoOriginId} {url : String} {before after : LegacyStore}
    (grown : before.Grows after)
    (known : ∀ row, before.origins.table.find id = some row → row.canonicalUrl = url) :
    ∀ row, after.origins.table.find id = some row → row.canonicalUrl = url := by
  intro later found
  obtain ⟨row, earlier, filled⟩ := grown.origin_before found
  rw [filled.url, known row earlier]

theorem keeps_names :
    backfillEmptyRepoNames.Keeps growth (fun _ later => ∀ id, Named id later) state := by
  refine keeps_pass Prod.fst (fun item store => ∀ row, store.origins.table.find item.1 = some row →
    row.canonicalUrl = item.2) (fun _ _ _ grown named => named.grow grown)
    (fun _ _ _ grown known => url_grow grown known) (keeps_required ?_) fun item state known => ?_
  · intro before _ rows after performed
    obtain ⟨listed, rfl⟩ := Prod.mk.inj performed
    cases listed
    refine ⟨.refl _, fun later grown => ⟨fun id => ?_, fun item member => url_grow grown ?_⟩⟩
    · by_cases unset : ∃ row, after.origins.table.find id = some row ∧ row.name = ""
      · obtain ⟨row, found, empty⟩ := unset
        obtain ⟨member, sameId⟩ := (Table.find_some_iff after.origins.table id row).mp found
        exact .inr ⟨_, List.mem_map_of_mem (List.mem_filter.mpr ⟨member, decide_eq_true empty⟩),
          sameId⟩
      · exact .inl (Named.grow grown fun row found => .inl fun empty => unset ⟨row, found, empty⟩)
    · obtain ⟨row, listed, rfl⟩ := List.mem_map.mp member
      intro other found
      have member := (List.mem_filter.mp listed).1
      rw [Table.find_of_mem member] at found
      rw [Option.some.inj found]
  · refine keeps_required fun before grown value after performed => ?_
    obtain ⟨more, settled⟩ := setName_settles (url_grow grown known) performed
    exact ⟨more, fun later after => settled.grow after⟩

theorem keeps_prefixes :
    backfillEmptyRepoPrefixes.Keeps growth (fun _ later => ∀ id, Prefixed id later) state := by
  refine keeps_pass Prod.fst (fun _ _ => True) (fun _ _ _ grown prefixed => prefixed.grow grown)
    (fun _ _ _ _ _ => trivial) (keeps_required ?_)
    fun item state _ => keeps_placePrefix (derivePrefix_valid _) _ state
  intro before _ rows after performed
  obtain ⟨listed, rfl⟩ := Prod.mk.inj performed
  cases listed
  refine ⟨.refl _, fun later grown => ⟨fun id => ?_, fun _ _ => trivial⟩⟩
  by_cases unset : ∃ row, after.origins.table.find id = some row ∧ row.originPrefix = ""
  · obtain ⟨row, found, empty⟩ := unset
    obtain ⟨member, sameId⟩ := (Table.find_some_iff after.origins.table id row).mp found
    exact .inr ⟨_, List.mem_map_of_mem (List.mem_filter.mpr ⟨member, decide_eq_true empty⟩), sameId⟩
  · exact .inl (Prefixed.grow grown fun row found empty => unset ⟨row, found, empty⟩)

theorem keeps_hashes :
    backfillEmptyTaskHashes.Keeps growth (fun _ later => ∀ id, Hashed id later) state := by
  have lengths : ∀ length ∈ List.range' minHashLen (maxHashLen + 1 - minHashLen),
      minHashLen ≤ length ∧ length ≤ maxHashLen := by decide
  refine keeps_pass id (fun _ _ => True) (fun _ _ _ grown hashed => hashed.grow grown)
    (fun _ _ _ _ _ => trivial) (keeps_required ?_) fun item state _ => keeps_placeHash lengths state
  intro before _ rows after performed
  obtain ⟨listed, rfl⟩ := Prod.mk.inj performed
  cases listed
  refine ⟨.refl _, fun later grown => ⟨fun task => ?_, fun _ _ => trivial⟩⟩
  by_cases unset : ∃ row, after.tasks.table.find task = some row ∧ row.hash = ""
  · obtain ⟨row, found, empty⟩ := unset
    obtain ⟨member, sameId⟩ := (Table.find_some_iff after.tasks.table task row).mp found
    exact .inr ⟨_, List.mem_map_of_mem (List.mem_filter.mpr ⟨member, decide_eq_true empty⟩), sameId⟩
  · exact .inl (Hashed.grow grown fun row found empty => unset ⟨row, found, empty⟩)

theorem keeps_openDb : openDb.Keeps growth (fun _ later => later.Complete) state := by
  refine keeps_names.bind trivial fun _ named _ _ names => ?_
  refine (keeps_prefixes.remember (LegacyStore.Grows.refl named)).bind trivial
    fun _ prefixed _ _ ⟨grown, prefixes⟩ => ?_
  refine (keeps_hashes.remember (LegacyStore.Grows.refl prefixed)).mono
    fun _ last _ ⟨more, hashes⟩ => ?_
  exact ⟨fun id => (names id).grow (grown.trans more), fun id => (prefixes id).grow more, hashes⟩

def opens (_ : LegacyStore) (proc : Proc backfillPorts SqlxError Unit) : Prop := proc.program = openDb

def opened : Backfilling Unit → Bool
  | .done _ => true
  | _ => false

/-- However many processes open one database at once, whichever statements fail and wherever a
process stops: rows are only filled, and a process that is through leaves nothing unset. -/
theorem openDb_fills {first : LegacyStore} {last : Pool backfillPorts LegacyStore SqlxError Unit}
    (run : Pool.Run growth.discipline (fun _ _ => True) opens ⟨first, []⟩ last) :
    first.Grows last.shared ∧
      ∀ proc ∈ last.procs, opened proc.program = true → last.shared.Complete := by
  have filling : ∀ shared proc, growth.inv shared → opens shared proc →
      proc.program.Keeps growth (fun _ later => later.Complete) shared := by
    intro shared proc _ begun
    rw [begun]
    exact keeps_openDb
  have grown := (Pool.keeps_run (fun shared proc held begun =>
    (filling shared proc held begun).mono fun _ _ _ _ => trivial) trivial run).2
  have sound : Pool.SoundTo growth.discipline (fun _ _ => True)
      (fun _ result later => ∀ value : Unit, result = .ok value → later.Complete) last :=
    Pool.SoundTo.run (fun _ _ _ _ _ _ _ grown => grown) filling
      ⟨trivial, fun _ member => (List.not_mem_nil member).elim, .nil⟩ run
  refine ⟨grown, fun proc member ended => ?_⟩
  have safe := sound.safe proc member
  match through : proc.program, ended with
  | .done _, _ =>
      rw [through] at safe
      exact safe _ .refl trivial () rfl

end Passes

section Undisturbed

variable {store : LegacyStore} {id : RepoOriginId}

theorem saveOrigin_kept {book : OriginBook} {row : OriginRow} (changed : OriginRow)
    (member : row ∈ book.table.rows) (sameId : changed.id = row.id)
    (sameUrl : changed.canonicalUrl = row.canonicalUrl)
    (samePrefix : changed.originPrefix = row.originPrefix) :
    ∃ after, book.saveOrigin changed = .ok after := by
  have urlFree : ¬book.UrlTaken changed := by
    rintro ⟨other, inBook, different, taken⟩
    have same := book.urls other inBook row member (taken.trans sameUrl)
    exact different (same ▸ sameId.symm)
  have prefixFree : ¬book.PrefixTaken changed := by
    rintro ⟨other, inBook, different, taken, set⟩
    have same := book.prefixes other inBook row member (taken.trans samePrefix) set
    exact different (same ▸ sameId.symm)
  obtain ⟨after, saved, _⟩ := OriginBook.saveOrigin_ok urlFree prefixFree
  exact ⟨after, saved⟩

theorem setName_error {name : String} {error : SqlxError} {after : LegacyStore}
    (failed : (.error error, after) = (BackfillQuery.setName id name).perform store) : False := by
  simp only [BackfillQuery.perform, BackfillQuery.updateName, fillOrigin] at failed
  cases found : store.origins.table.find id with
  | none =>
      rw [found] at failed
      cases failed
  | some row =>
      rw [found] at failed
      by_cases unset : row.name = ""
      · obtain ⟨book, saved⟩ := saveOrigin_kept { row with name } (Table.find_mem found) rfl rfl rfl
        simp only [unset, decide_true, if_true, saved] at failed
        cases failed
      · simp only [unset, decide_false] at failed
        cases failed

theorem setPrefix_error {text : String} {error : SqlxError} {after : LegacyStore}
    (failed : (.error error, after) = (BackfillQuery.setPrefix id text).perform store) :
    error = .uniqueViolation ∧ after = store ∧ text ∈ store.origins.takenPrefixes id := by
  have same := perform_error failed
  simp only [BackfillQuery.perform, BackfillQuery.updatePrefix, fillOrigin] at failed
  cases found : store.origins.table.find id with
  | none =>
      rw [found] at failed
      cases failed
  | some row =>
      rw [found] at failed
      have member := Table.find_mem found
      have rowId : row.id = id := ((Table.find_some_iff store.origins.table id row).mp found).2
      have urlFree : ¬store.origins.UrlTaken { row with originPrefix := text } := by
        rintro ⟨other, inBook, different, taken⟩
        have sameRow : other = row := store.origins.urls other inBook row member taken
        exact different (by rw [sameRow])
      by_cases unset : row.originPrefix = ""
      · by_cases taken : store.origins.PrefixTaken { row with originPrefix := text }
        · simp only [unset, decide_true, if_true, OriginBook.saveOrigin_taken urlFree taken,
            Except.mapError] at failed
          refine ⟨Except.error.inj (Prod.mk.inj failed).1, same, ?_⟩
          exact rowId ▸ OriginBook.prefixTaken_mem taken
        · obtain ⟨book, saved, _⟩ := OriginBook.saveOrigin_ok urlFree taken
          simp only [unset, decide_true, if_true, saved] at failed
          cases failed
      · simp only [unset, decide_false] at failed
        cases failed

theorem LegacyStore.Grows.length {before after : LegacyStore} (grown : before.Grows after) :
    after.origins.table.rows.length = before.origins.table.rows.length := by
  have sameIds : ∀ id, id ∈ after.origins.table.rows.map (fun row => row.id) ↔
      id ∈ before.origins.table.rows.map fun row => row.id := by
    intro id
    have related := grown.origins id
    rw [← not_iff_not, ← Table.find_none_iff, ← Table.find_none_iff]
    constructor
    · intro missing
      rw [missing] at related
      cases earlier : before.origins.table.find id with
      | none => rfl
      | some row =>
          rw [earlier] at related
          cases related
    · intro missing
      rw [missing] at related
      cases later : after.origins.table.find id with
      | none => rfl
      | some row =>
          rw [later] at related
          cases related
  have perm := (List.perm_ext_iff_of_nodup after.origins.table.distinct
    before.origins.table.distinct).mpr sameIds
  simpa using perm.length_eq

theorem takenPrefixes_card (store : LegacyStore) (id : RepoOriginId) :
    (store.origins.takenPrefixes id).card ≤ store.origins.table.rows.length := by
  refine (List.toFinset_card_le _).trans ?_
  rw [List.length_map]
  exact List.length_filter_le _ _

theorem ensures_placePrefix {base : String} (valid : isValidPrefix base = true) {free : Nat}
    (positive : 0 < free) (within : free ≤ RepoBindingService.safetyCap)
    (unused : RepoBindingService.candidate base free ∉ store.origins.takenPrefixes id) :
    ∀ {left : Nat}, RepoBindingService.safetyCap - left ≤ free →
      (placePrefix id base left).Ensures quietMeaning (fun _ _ => False)
        (fun _ later => store.Grows later ∧ Prefixed id later) store := by
  have attempt : ∀ {suffix : Nat} {taken : Backfilling Unit},
      suffix ≤ RepoBindingService.safetyCap →
      (suffix ≠ free → taken.Ensures quietMeaning (fun _ _ => False)
        (fun _ later => store.Grows later ∧ Prefixed id later) store) →
      (tryPrefix id base suffix taken).Ensures quietMeaning (fun _ _ => False)
        (fun _ later => store.Grows later ∧ Prefixed id later) store := by
    intro suffix taken bounded goesOn answer after performed
    have validText : isValidPrefix
        (if suffix = 0 then base else RepoBindingService.candidate base suffix) = true := by
      split
      · exact valid
      · exact RepoBindingService.candidate_valid valid bounded
    match answer, performed with
    | .ok _, performed => exact setPrefix_settles validText performed
    | .error error, performed =>
        obtain ⟨rfl, rfl, listed⟩ := setPrefix_error performed
        refine goesOn fun isFree => unused ?_
        rw [isFree, if_neg (Nat.pos_iff_ne_zero.mp positive)] at listed
        exact listed
  intro left
  induction left with
  | zero => exact fun ahead => attempt le_rfl fun other => absurd (le_antisymm ahead within) other
  | succ left ih =>
      intro ahead
      exact attempt (Nat.sub_le _ _) fun other => ih (by omega)

theorem ensures_required {query : BackfillQuery} {fails : SqlxError → LegacyStore → Prop}
    {post : query.Answer → LegacyStore → Prop}
    (never : ∀ error after, (.error error, after) ≠ query.perform store)
    (succeeds : ∀ value after, (.ok value, after) = query.perform store → post value after) :
    (required query).Ensures quietMeaning fails post store := by
  intro answer after performed
  match answer, performed with
  | .ok value, performed => exact succeeds value after performed
  | .error error, performed => exact (never error after performed).elim

theorem ensures_names : backfillEmptyRepoNames.Ensures quietMeaning (fun _ _ => False)
    (fun _ _ => True) store := by
  have rows : (required .unnamedOrigins).Ensures quietMeaning (fun _ _ => False) (fun _ _ => True)
      store := ensures_required (fun _ _ failed => nomatch failed) fun _ _ _ => trivial
  refine rows.bind fun _ _ _ => Ensures.forEach (fun _ _ _ _ => ?_) trivial
  exact ensures_required (fun _ _ failed => setName_error failed) fun _ _ _ => trivial

theorem ensures_prefixes (few : store.origins.table.rows.length < 900000) :
    backfillEmptyRepoPrefixes.Ensures quietMeaning (fun _ _ => False) (fun _ _ => True) store := by
  have rows : (required .unprefixedOrigins).Ensures quietMeaning (fun _ _ => False)
      (fun _ after => after = store) store :=
    ensures_required (fun _ _ failed => nomatch failed) fun _ _ performed => (Prod.mk.inj performed).2
  have loop : ∀ items : List (RepoOriginId × String), (foldEach (fun _ (row : RepoOriginId × String) =>
      placePrefix row.1 (derivePrefix row.2) RepoBindingService.safetyCap) items ()).Ensures
        quietMeaning (fun _ _ => False) (fun _ after => after.origins.table.rows.length < 900000)
        store := by
    refine fun items => Ensures.forEach (fun item state _ short => ?_) few
    have fewer : (state.origins.takenPrefixes item.1).card < 900000 :=
      lt_of_le_of_lt (takenPrefixes_card state item.1) short
    obtain ⟨free, positive, within, unused⟩ :=
      RepoBindingService.exists_free_candidate (derivePrefix item.2) fewer
    refine (ensures_placePrefix (derivePrefix_valid _) positive within unused
      (by omega)).mono fun _ after placed => ?_
    rw [placed.1.length]
    exact short
  refine rows.bind fun items later same => ?_
  subst same
  exact (loop items).mono fun _ _ _ => trivial

theorem originBook_ext {left right : OriginBook} (same : left.table = right.table) : left = right := by
  cases left
  cases right
  cases same
  rfl

theorem fillOrigin_same {book after : OriginBook} {unset : OriginRow → Bool}
    {change : OriginRow → OriginRow}
    (same : ∀ row, book.table.find id = some row → unset row = true → change row = row)
    (filled : fillOrigin id unset change book = .ok after) : after = book := by
  unfold fillOrigin at filled
  cases found : book.table.find id with
  | none =>
      rw [found] at filled
      exact (Except.ok.inj filled).symm
  | some row =>
      rw [found] at filled
      dsimp only at filled
      split at filled
      · rename_i isUnset
        rw [same row found isUnset] at filled
        obtain ⟨member, rowId⟩ := (Table.find_some_iff book.table id row).mp found
        cases saved : book.saveOrigin row with
        | error error =>
            rw [saved] at filled
            cases filled
        | ok other =>
            rw [saved] at filled
            cases filled
            refine originBook_ext ?_
            rw [saveOrigin_table saved, OriginBook.upserted, Table.upsert,
              dif_pos (List.mem_map_of_mem member)]
            refine Table.modify_unchanged fun stored isStored => ?_
            rw [rowId, found] at isStored
            cases isStored
            rfl
      · exact (Except.ok.inj filled).symm

theorem ensures_names_again (named : ∀ id, Named id store) :
    backfillEmptyRepoNames.Ensures quietMeaning (fun _ _ => False) (fun _ after => after = store)
      store := by
  have rows : (required .unnamedOrigins).Ensures quietMeaning (fun _ _ => False)
      (fun items after => after = store ∧ ∀ item ∈ items, ∀ row,
        store.origins.table.find item.1 = some row → row.canonicalUrl = item.2) store := by
    refine ensures_required (fun _ _ failed => nomatch failed) fun items after performed => ?_
    obtain ⟨listed, rfl⟩ := Prod.mk.inj performed
    cases listed
    refine ⟨rfl, fun item member other found => ?_⟩
    obtain ⟨row, listed, rfl⟩ := List.mem_map.mp member
    rw [Table.find_of_mem (List.mem_filter.mp listed).1] at found
    rw [Option.some.inj found]
  refine rows.bind fun items later ⟨same, known⟩ => ?_
  subst same
  refine Ensures.forEach (fun item state member held => ?_) rfl
  subst held
  refine ensures_required (fun _ _ failed => setName_error failed) fun _ after performed => ?_
  simp only [BackfillQuery.perform] at performed
  split at performed
  · rename_i book filled
    have same := fillOrigin_same (fun row found unset => ?_) filled
    · rw [(Prod.mk.inj performed).2, same]
    · have empty : row.name = "" := of_decide_eq_true unset
      rcases named item.1 row found with set | bare
      · exact absurd empty set
      · rw [← known item member row found, bare, ← empty]
  · cases performed

theorem ensures_prefixes_again (prefixed : ∀ id, Prefixed id store) :
    backfillEmptyRepoPrefixes.Ensures quietMeaning (fun _ _ => False) (fun _ after => after = store)
      store := by
  have none : (store.origins.table.rows.filter fun row => row.originPrefix = "") = [] :=
    List.filter_eq_nil_iff.mpr fun row member unset =>
      prefixed row.id row (Table.find_of_mem member) (of_decide_eq_true unset)
  have rows : (required .unprefixedOrigins).Ensures quietMeaning (fun _ _ => False)
      (fun items after => after = store ∧ items = []) store := by
    refine ensures_required (fun _ _ failed => nomatch failed) fun items after performed => ?_
    simp only [BackfillQuery.perform, none, List.map_nil] at performed
    obtain ⟨listed, same⟩ := Prod.mk.inj performed
    exact ⟨same, Except.ok.inj listed⟩
  refine rows.bind fun items later ⟨same, empty⟩ => ?_
  rw [empty]
  exact same

theorem ensures_hashes_again (hashed : ∀ id, Hashed id store) :
    backfillEmptyTaskHashes.Ensures quietMeaning (fun _ _ => False) (fun _ after => after = store)
      store := by
  have none : (store.tasks.table.rows.filter fun row => row.hash = "") = [] :=
    List.filter_eq_nil_iff.mpr fun row member unset =>
      hashed row.id row (Table.find_of_mem member) (of_decide_eq_true unset)
  have rows : (required .unhashedTasks).Ensures quietMeaning (fun _ _ => False)
      (fun items after => after = store ∧ items = []) store := by
    refine ensures_required (fun _ _ failed => nomatch failed) fun items after performed => ?_
    simp only [BackfillQuery.perform, none, List.map_nil] at performed
    obtain ⟨listed, same⟩ := Prod.mk.inj performed
    exact ⟨same, Except.ok.inj listed⟩
  refine rows.bind fun items later ⟨same, empty⟩ => ?_
  rw [empty]
  exact same

theorem setHash_error {task : TaskId} {hash : String} {error : SqlxError} {after : LegacyStore}
    (failed : (.error error, after) = (BackfillQuery.setHash task hash).perform store) :
    error = .uniqueViolation ∧ after = store ∧ ¬Hashed task store := by
  have same := perform_error failed
  simp only [BackfillQuery.perform, fillHash] at failed
  by_cases unset : (store.tasks.table.find task).any (fun row => row.hash = "") = true
  · obtain ⟨row, found, empty⟩ := (Option.any_eq_true ..).mp unset
    refine ⟨?_, same, fun hashed => ?_⟩
    · rw [if_pos unset] at failed
      by_cases taken : store.tasks.Taken task hash
      · rw [dif_pos taken] at failed
        exact Except.error.inj (Prod.mk.inj failed).1
      · rw [dif_neg taken] at failed
        cases failed
    · exact hashed row found (of_decide_eq_true empty)
  · rw [if_neg unset] at failed
    cases failed

def Unminted (error : SqlxError) (later : LegacyStore) : Prop :=
  error = .uniqueViolation ∧ ∃ task, ¬Hashed task later

theorem ensures_tryLength {task : TaskId} {length : Nat} : ∀ {left : Nat},
    0 < left ∨ ¬Hashed task store → (tryLength task length left).Ensures quietMeaning Unminted
      (fun done later => done = false → ¬Hashed task later) store := by
  intro left
  induction left with
  | zero => exact fun tried _ => tried.resolve_left (Nat.lt_irrefl 0)
  | succ left ih =>
      rintro _ text middle ⟨rfl, _⟩ answer after performed
      match answer, performed with
      | .ok _, _ => exact fun done => nomatch done
      | .error error, performed =>
          obtain ⟨rfl, rfl, unhashed⟩ := setHash_error performed
          exact ih (.inr unhashed)

theorem ensures_placeHash {task : TaskId} : ∀ {lengths : List Nat} {store : LegacyStore},
    lengths ≠ [] ∨ ¬Hashed task store → (placeHash task lengths).Ensures quietMeaning Unminted
      (fun _ _ => True) store := by
  intro lengths
  induction lengths with
  | nil => exact fun {store} tried => ⟨rfl, task, tried.resolve_left fun nonempty => nonempty rfl⟩
  | cons length longer ih =>
      intro store _
      refine (ensures_tryLength (.inl (Nat.succ_pos _))).bind fun done later failed => ?_
      cases done with
      | true => exact trivial
      | false => exact ih (.inr (failed rfl))

theorem ensures_hashes : backfillEmptyTaskHashes.Ensures quietMeaning Unminted (fun _ _ => True)
    store := by
  have rows : (required .unhashedTasks).Ensures quietMeaning Unminted (fun _ _ => True) store :=
    ensures_required (fun _ _ failed => nomatch failed) fun _ _ _ => trivial
  refine rows.bind fun _ _ _ => Ensures.forEach (fun _ _ _ _ => ?_) trivial
  exact ensures_placeHash (.inl (by decide))

theorem quiet_fails (op : BackfillOp) (before : LegacyStore) (answer : op.Answer) (after : LegacyStore)
    (quiet : quietMeaning op before answer after) : growth.meaning op before answer after := by
  cases op with
  | ask query => exact .inl quiet
  | randomHash length => exact quiet

/-- Alone, with fewer origins than suffixes of six digits: names and prefixes never fail, so that an
error leaves them all set and a task without a hash; a success leaves nothing unset, and a second
time changes nothing. -/
theorem openDb_alone (few : store.origins.table.rows.length < 900000)
    {result : Except SqlxError Unit} {after : LegacyStore}
    (ran : openDb.Runs quietMeaning store result after) :
    store.Grows after ∧ (result = .ok () → after.Complete) ∧
      (∀ error, result = .error error → error = .uniqueViolation ∧ (∀ id, Named id after) ∧
        (∀ id, Prefixed id after) ∧ ∃ task, ¬Hashed task after) ∧
      ((∀ id, Hashed id store) → result = .ok ()) ∧ (store.Complete → after = store) := by
  obtain ⟨grown, complete⟩ := keeps_openDb.runs quiet_fails trivial ran
  have unminted : ∀ error, result = .error error → error = .uniqueViolation ∧
      (∀ id, Named id after) ∧ (∀ id, Prefixed id after) ∧ ∃ task, ¬Hashed task after := by
    rintro error rfl
    rcases runs_bind.mp ran with ⟨_, named, first, rest⟩ | ⟨other, failed, _⟩
    · obtain ⟨namedGrown, names⟩ := keeps_names.runs quiet_fails trivial first
      rcases runs_bind.mp rest with ⟨_, prefixed, second, last⟩ | ⟨other, failed, _⟩
      · obtain ⟨prefixedGrown, prefixes⟩ := keeps_prefixes.runs quiet_fails trivial second
        have hashedGrown := (keeps_hashes.runs quiet_fails trivial last).1
        obtain ⟨isUnique, unhashed⟩ := (ensures_iff.mp ensures_hashes _ _ last).2 error rfl
        exact ⟨isUnique, fun id => (names () rfl id).grow (prefixedGrown.trans hashedGrown),
          fun id => (prefixes () rfl id).grow hashedGrown, unhashed⟩
      · exact ((ensures_iff.mp (ensures_prefixes (namedGrown.length ▸ few)) _ _ failed).2
          other rfl).elim
    · exact ((ensures_iff.mp ensures_names _ _ failed).2 other rfl).elim
  refine ⟨grown, complete (), unminted, fun hashed => ?_, fun whole => ?_⟩
  · cases result with
    | ok value => rfl
    | error error =>
        obtain ⟨_, _, _, task, unhashed⟩ := unminted error rfl
        exact (unhashed ((hashed task).grow grown)).elim
  · have still : openDb.Ensures quietMeaning (fun _ _ => False) (fun _ after => after = store)
        store := by
      refine (ensures_names_again whole.names).bind fun _ named sameNamed => ?_
      subst sameNamed
      refine (ensures_prefixes_again whole.prefixes).bind fun _ prefixed samePrefixed => ?_
      subst samePrefixed
      exact ensures_hashes_again whole.hashes
    obtain ⟨held, never⟩ := ensures_iff.mp still result after ran
    cases result with
    | ok value => exact held value rfl
    | error error => exact (never error rfl).elim

end Undisturbed

section Race

def legacy : LegacyStore where
  origins := {
    table := ⟨[⟨⟨⟨1⟩, "h/o/repo-link", ""⟩, "r", "", [], ⟨1⟩, ⟨1⟩⟩,
      ⟨⟨⟨2⟩, "h/p/repo-link", ""⟩, "r", "", [], ⟨2⟩, ⟨2⟩⟩], by decide⟩
    urls := by decide
    prefixes := by decide }
  tasks := ⟨⟨[⟨⟨1⟩, ""⟩, ⟨⟨2⟩, ""⟩], by decide⟩, by decide⟩

def zeroUuids (_ : Nat) : UuidBytes := ⟨List.replicate 16 0, by decide⟩

def zeroHandler : Handler backfillPorts LegacyStore
  | .ask query, store => query.perform store
  | .randomHash length, store =>
    ((randomLowercaseBase32 length zeroUuids length).getD "", store)

theorem zeroHandler_means (op : BackfillOp) (store : LegacyStore) :
    quietMeaning op store (zeroHandler op store).1 (zeroHandler op store).2 := by
  cases op with
  | ask query => exact rfl
  | randomHash length =>
      refine ⟨rfl, zeroUuids, ?_⟩
      simp only [zeroHandler, randomLowercaseBase32_spec zeroUuids le_rfl, Option.getD_some]

theorem zeroHandler_sound (op : BackfillOp) (store : LegacyStore) (_ : true = true) :
    growth.discipline.meaning () op store (zeroHandler op store).1 (zeroHandler op store).2 :=
  quiet_fails op store _ _ (zeroHandler_means op store)

def selected : Backfilling Unit × LegacyStore := openDb.advance zeroHandler 4 legacy

def overtaken : Backfilling Unit × LegacyStore := openDb.advance zeroHandler 40 selected.2

def raced : Backfilling Unit × LegacyStore := selected.1.advance zeroHandler 40 overtaken.2

def winner : Proc backfillPorts SqlxError Unit := ⟨(), raced.1⟩

theorem race_runs : Pool.Run growth.discipline (fun _ _ => True) opens ⟨legacy, []⟩
    ⟨raced.2, [⟨(), overtaken.1⟩, winner]⟩ := by
  have first := @Pool.run_started _ _ _ _ growth.discipline (fun _ _ => True) opens _
    (fun _ _ => true) zeroHandler id ⟨(), openDb⟩ [] legacy 4 zeroHandler_sound rfl
    (fun _ _ => ⟨trivial, trivial⟩) (by decide +kernel)
  have second := @Pool.run_started _ _ _ _ growth.discipline (fun _ _ => True) opens _
    (fun _ _ => true) zeroHandler id ⟨(), openDb⟩ [⟨(), selected.1⟩] selected.2 40
    zeroHandler_sound rfl (fun _ _ => ⟨trivial, trivial⟩) (by decide +kernel)
  have third := @Pool.run_advances _ _ _ _ growth.discipline (fun _ _ => True) opens _
    (fun _ _ => true) zeroHandler id () [⟨(), overtaken.1⟩] [] zeroHandler_sound 40 selected.1
    overtaken.2 (by decide +kernel)
  exact (first.trans second).trans third

theorem winner_opened : opened winner.program = true := by decide +kernel

theorem raced_prefixes : raced.2.origins.table.rows.map (fun row => (row.name, row.originPrefix)) =
    [("repo-link", "rpl"), ("repo-link", "rpl1")] := by decide +kernel

theorem raced_hashes : raced.2.tasks.table.rows.map HashRow.hash = ["aaa", "aaaa"] := by
  decide +kernel

theorem openDb_fills_race :
    raced.2.origins.table.rows.map (fun row => (row.name, row.originPrefix)) =
      [("repo-link", "rpl"), ("repo-link", "rpl1")] ∧
    raced.2.tasks.table.rows.map HashRow.hash = ["aaa", "aaaa"] ∧ raced.2.Complete := by
  have complete : ∀ later (procs : List (Proc backfillPorts SqlxError Unit)),
      Pool.Run growth.discipline (fun _ _ => True) opens ⟨legacy, []⟩ ⟨later, procs⟩ →
      ∀ proc ∈ procs, opened proc.program = true → later.Complete :=
    fun _ _ run => (openDb_fills run).2
  exact ⟨raced_prefixes, raced_hashes, complete _ _ race_runs winner
    (List.mem_cons_of_mem _ List.mem_cons_self) winner_opened⟩

def openedAlone : Except SqlxError Unit × LegacyStore := openDb.exec zeroHandler legacy

theorem openedAlone_ok : openedAlone.1 = .ok () := by decide +kernel

theorem openDb_alone_legacy : ∃ after, openDb.Runs quietMeaning legacy (.ok ()) after ∧
    legacy.Grows after ∧ after.Complete := by
  have ran : openDb.Runs quietMeaning legacy openedAlone.1 openedAlone.2 :=
    @exec_runs _ _ _ _ _ quietMeaning zeroHandler id zeroHandler_means openDb legacy
  rw [openedAlone_ok] at ran
  obtain ⟨grown, complete, _⟩ := openDb_alone (by decide) ran
  exact ⟨_, ran, grown, complete rfl⟩

end Race

end Backfill

end RepoLink
