import Mathlib.Data.Prod.Lex
import Mathlib.Data.String.Basic
import Mathlib.Order.WithBot
import RepoLink.Library.Paging
import RepoLink.Ports.Handler
import RepoLink.TaskService.Service

/-!
The pages of a task listing. The id at the end of `ORDER BY` leaves the rows one order only, so that
pages of one store fit together as long as no offset wraps around to a negative one.
-/

namespace RepoLink

open Paging KeyedTable Database

section Order

def stampColumn : Option Timestamp → WithBot Int
  | none => ⊥
  | some stamp => stamp.nanos

theorem TaskSortKey.precedes_column (key : TaskSortKey) :
    ∃ (κ : Type) (_ : LinearOrder κ) (column : Task → κ),
      ∀ left right, key.precedes left right = true ↔ column left < column right := by
  cases key with
  | createdAt =>
      exact ⟨Int, inferInstance, fun task => task.createdAt.nanos, fun _ _ => decide_eq_true_iff⟩
  | updatedAt =>
      exact ⟨Int, inferInstance, fun task => task.updatedAt.nanos, fun _ _ => decide_eq_true_iff⟩
  | priority =>
      exact ⟨Nat, inferInstance, fun task => task.priority.rank, fun _ _ => decide_eq_true_iff⟩
  | title => exact ⟨String, inferInstance, Task.title, fun _ _ => decide_eq_true_iff⟩
  | lifecycle =>
      exact ⟨Nat, inferInstance, fun task => task.lifecycle.columnRank,
        fun _ _ => decide_eq_true_iff⟩
  | syncState =>
      exact ⟨Nat, inferInstance, fun task => task.sync.columnRank, fun _ _ => decide_eq_true_iff⟩
  | syncedAt =>
      refine ⟨WithBot Int, inferInstance, fun task => stampColumn task.syncedAt,
        fun left right => ?_⟩
      unfold TaskSortKey.precedes
      dsimp only
      cases left.syncedAt with
      | none =>
          cases right.syncedAt with
          | none => exact iff_of_false Bool.false_ne_true (lt_irrefl _)
          | some after => exact iff_of_true rfl (WithBot.bot_lt_coe after.nanos)
      | some before =>
          cases right.syncedAt with
          | none => exact iff_of_false Bool.false_ne_true not_lt_bot
          | some after =>
              have columns : (before.nanos : WithBot Int) < after.nanos ↔
                  before.nanos < after.nanos := WithBot.coe_lt_coe
              exact decide_eq_true_iff.trans columns.symm

theorem TaskSort.precedes_column (sort : TaskSort) :
    ∃ (κ : Type) (_ : LinearOrder κ) (column : Task → κ),
      ∀ left right, sort.precedes left right = true ↔ column left < column right := by
  obtain ⟨κ, order, column, compares⟩ := sort.key.precedes_column
  unfold TaskSort.precedes
  cases sort.direction with
  | asc => exact ⟨κ, order, column, compares⟩
  | desc => exact ⟨κᵒᵈ, inferInstance, fun task => OrderDual.toDual (column task),
      fun left right => compares right left⟩

/-- `ORDER BY` compares a column first and the ids where it ties. -/
theorem listedBefore_column (filter : TaskFilter) :
    ∃ (κ : Type) (_ : LinearOrder κ) (column : TaskRecord → κ), ∀ left right,
      Database.listedBefore filter left right = true ↔
        toLex (column left, left.id.value) ≤ toLex (column right, right.id.value) := by
  unfold Database.listedBefore
  simp only [Prod.Lex.toLex_le_toLex]
  cases filter.sort with
  | some sort =>
      obtain ⟨κ, order, column, compares⟩ := sort.precedes_column
      refine ⟨κ, order, fun record => column record.row, fun left right => ?_⟩
      dsimp only
      rw [Bool.or_eq_true, Bool.and_eq_true, Bool.not_eq_true', ← Bool.not_eq_true,
        compares, compares, decide_eq_true_iff]
      constructor
      · rintro (before | ⟨notAfter, ids⟩)
        · exact .inl before
        · rcases lt_or_eq_of_le (not_lt.mp notAfter) with before | same
          · exact .inl before
          · exact .inr ⟨same, ids⟩
      · rintro (before | ⟨same, ids⟩)
        · exact .inl before
        · exact .inr ⟨not_lt.mpr same.le, ids⟩
  | none =>
      cases filter.syncedAtLt with
      | none =>
          refine ⟨Int, inferInstance, fun record => record.row.createdAt.nanos, fun left right => ?_⟩
          dsimp only
          rw [Bool.or_eq_true, Bool.and_eq_true, decide_eq_true_iff, decide_eq_true_iff,
            decide_eq_true_iff]
      | some instant =>
          refine ⟨WithBot Int, inferInstance, fun record => stampColumn record.row.syncedAt,
            fun left right => ?_⟩
          dsimp only
          cases left.row.syncedAt with
          | none =>
              cases right.row.syncedAt with
              | none => simp
              | some after => exact iff_of_true rfl (.inl (WithBot.bot_lt_coe after.nanos))
          | some before =>
              cases right.row.syncedAt with
              | none =>
                  refine iff_of_false Bool.false_ne_true ?_
                  rintro (less | ⟨same, _⟩)
                  · exact not_lt_bot less
                  · exact WithBot.coe_ne_bot same
              | some after =>
                  simp only [Option.map_some, Bool.or_eq_true, Bool.and_eq_true,
                    decide_eq_true_iff, stampColumn, WithBot.coe_lt_coe, WithBot.coe_inj]

end Order

section Answers

/-- The rows may come in any order that `ORDER BY` allows, and another one each time. -/
def Database.Lists (filter : TaskFilter) (database : Database) (tasks : List Task) : Prop :=
  ∃ rows, rows.Perm (database.tasks.rows.filter (database.matchesFilter filter)) ∧
    rows.Pairwise (fun left right => Database.listedBefore filter left right = true) ∧
    tasks = (limitRows filter.limit filter.offset rows).map TaskRecord.loadListed

variable {filter : TaskFilter} {database : Database}

theorem Database.lists_iff {tasks : List Task} :
    database.Lists filter tasks ↔ tasks = database.listTasks filter := by
  obtain ⟨κ, order, column, compares⟩ := listedBefore_column filter
  let matching := database.tasks.rows.filter (database.matchesFilter filter)
  have apart : (matching.map TaskRecord.id).Nodup :=
    (List.filter_sublist.map TaskRecord.id).nodup database.tasks.distinct
  let sorted := matching.insertionSort (Database.listedBefore filter · ·)
  have sortedPairwise : sorted.Pairwise fun left right =>
      Database.listedBefore filter left right = true := by
    have total : Std.Total fun left right => Database.listedBefore filter left right = true :=
      ⟨fun left right => by rw [compares, compares]; exact le_total _ _⟩
    have trans : IsTrans TaskRecord fun left right =>
        Database.listedBefore filter left right = true :=
      ⟨fun one two three first second => by
        rw [compares] at first second ⊢
        exact first.trans second⟩
    exact List.pairwise_insertionSort _ _
  constructor
  · rintro ⟨rows, perm, pairwise, rfl⟩
    have same : rows = sorted := by
      refine List.Perm.eq_of_pairwise (fun left right inRows inSorted forth back => ?_) pairwise
        sortedPairwise (perm.trans (List.perm_insertionSort _ _).symm)
      rw [compares] at forth back
      have ids := congrArg (fun key => (ofLex key).2) (le_antisymm forth back)
      exact List.inj_on_of_nodup_map apart (perm.mem_iff.mp inRows)
        ((List.mem_insertionSort _).mp inSorted) (congrArg TaskId.mk ids)
    rw [same]
    rfl
  · rintro rfl
    exact ⟨sorted, List.perm_insertionSort _ _, sortedPairwise, rfl⟩

end Answers

section Pages

theorem asI64_small {value : Nat} (small : value < 2 ^ 63) : asI64 value = value := by
  unfold asI64
  rw [Int.bmod_eq_of_le_mul_two] <;> omega

theorem asI64_zero : asI64 0 = 0 := Int.zero_bmod

theorem asI64_wraps {value : Nat} (large : 2 ^ 63 ≤ value) (fits : value < 2 ^ 64) :
    asI64 value < 0 := by
  unfold asI64
  rw [Int.bmod_def]
  split <;> omega

def TaskFilter.paged (size index : Nat) (filter : TaskFilter) : TaskFilter :=
  { filter with limit := some size, offset := some (index * size) }

def TaskFilter.whole (filter : TaskFilter) : TaskFilter :=
  { filter with limit := none, offset := none }

variable {ρ : Type} {size index : Nat} (rows : List ρ)

theorem limitRows_page (small : size < 2 ^ 63) (offset : index * size < 2 ^ 63) :
    limitRows (some size) (some (index * size)) rows = page size index rows := by
  have positive : ¬(size : Int) < 0 := by omega
  simp only [limitRows, Option.map_some, Option.getD_some, asI64_small small, asI64_small offset,
    if_neg positive, Int.toNat_natCast]
  rfl

theorem asI64_ne_zero {value : Nat} (positive : 0 < value) (fits : value < 2 ^ 64) :
    asI64 value ≠ 0 := by
  rcases Nat.lt_or_ge value (2 ^ 63) with small | large
  · rw [asI64_small small]
    omega
  · exact (asI64_wraps large fits).ne

theorem limitRows_first (positive : 0 < size) (fits : size < 2 ^ 64)
    (fromStart : (asI64 (index * size)).toNat = 0) :
    (limitRows (some size) (some (index * size)) rows).head? = rows.head? := by
  simp only [limitRows, Option.map_some, Option.getD_some, fromStart, List.drop_zero]
  split
  · rfl
  · rename_i bounded
    have some := asI64_ne_zero positive fits
    rw [List.head?_take, if_neg (by omega)]

theorem limitRows_all (large : 2 ^ 63 ≤ size) (fits : size < 2 ^ 64)
    (fromStart : (asI64 (index * size)).toNat = 0) :
    limitRows (some size) (some (index * size)) rows = rows := by
  simp only [limitRows, Option.map_some, Option.getD_some, fromStart, List.drop_zero,
    if_pos (asI64_wraps large fits)]

theorem limitRows_tile {count : Nat} (enough : rows.length ≤ count * size)
    (offsets : ∀ index < count, index * size < 2 ^ 63) (fits : size < 2 ^ 64) :
    ((List.range count).map fun index => limitRows (some size) (some (index * size)) rows).flatten =
      rows := by
  rcases Nat.lt_or_ge size (2 ^ 63) with small | large
  · have pages : ((List.range count).map fun index =>
        limitRows (some size) (some (index * size)) rows) =
          (List.range count).map (page size · rows) :=
      List.map_congr_left fun index member =>
        limitRows_page rows small (offsets index (List.mem_range.mp member))
    rw [pages, pages_flatten, List.take_of_length_le enough]
  · -- such a limit is none, and there is no second page
    have single : count ≤ 1 := by
      by_contra more
      have second := offsets 1 (Nat.lt_of_not_le more)
      omega
    rcases Nat.le_one_iff_eq_zero_or_eq_one.mp single with rfl | rfl
    · rw [Nat.zero_mul] at enough
      rw [List.length_eq_zero_iff.mp (Nat.le_zero.mp enough)]
      rfl
    · rw [List.range_one, List.map_singleton, List.flatten_singleton]
      exact limitRows_all rows large fits (by rw [Nat.zero_mul, asI64_zero]; rfl)

theorem limitRows_map {β : Type} (convert : ρ → β) (limit offset : Option Nat) :
    limitRows limit offset (rows.map convert) = (limitRows limit offset rows).map convert := by
  unfold limitRows
  rw [← List.map_drop]
  cases limit with
  | none => rfl
  | some limit =>
      dsimp only
      rw [← List.map_take]
      split <;> rfl

theorem limitRows_tile_iff {count : Nat} (distinct : rows.Nodup) (positive : 0 < size)
    (fits : size < 2 ^ 64) (offsets : ∀ index < count, index * size < 2 ^ 64)
    (enough : rows.length ≤ count * size) :
    ((List.range count).map fun index => limitRows (some size) (some (index * size)) rows).flatten =
        rows ↔
      rows = [] ∨ ∀ index < count, index * size < 2 ^ 63 := by
  constructor
  · intro joined
    by_contra wraps
    push Not at wraps
    obtain ⟨filled, index, bound, large⟩ := wraps
    obtain ⟨first, rest, rfl⟩ := List.exists_cons_of_ne_nil filled
    have starts {other : Nat} (fromStart : (asI64 (other * size)).toNat = 0) :
        first ∈ limitRows (some size) (some (other * size)) (first :: rest) := by
      refine List.mem_of_head? ?_
      rw [limitRows_first _ positive fits fromStart]
      rfl
    have firstPage := @starts 0 (by rw [Nat.zero_mul, asI64_zero]; rfl)
    have wrappedPage := @starts index
      (Int.toNat_of_nonpos (asI64_wraps large (offsets index bound)).le)
    have later : 0 < index := by
      rcases Nat.eq_zero_or_pos index with rfl | later
      · rw [Nat.zero_mul] at large
        omega
      · exact later
    rw [← joined] at distinct
    have disjoint := List.pairwise_iff_getElem.mp (List.nodup_flatten.mp distinct).2 0 index
      (by rw [List.length_map, List.length_range]; omega)
      (by rwa [List.length_map, List.length_range]) later
    rw [List.getElem_map, List.getElem_map, List.getElem_range, List.getElem_range] at disjoint
    exact disjoint firstPage wrappedPage
  · rintro (rfl | small)
    · refine List.flatten_eq_nil_iff.mpr fun page member => ?_
      obtain ⟨index, _, rfl⟩ := List.mem_map.mp member
      exact List.sublist_nil.mp (limitRows_sublist _ _ [])
    · exact limitRows_tile rows enough small fits

end Pages

/-- As many pages as reach the last task fit together to the whole listing exactly if no offset
wraps around, or nothing is listed. -/
theorem listPages_tile (filter : TaskFilter) (database : Database) (size count : Nat)
    (positive : 0 < size) (fits : size < 2 ^ 64) (offsets : ∀ index < count, index * size < 2 ^ 64)
    (whole : List Task) (listed : database.Lists filter.whole whole)
    (enough : whole.length ≤ count * size) (pages : List (List Task)) (asked : pages.length = count)
    (answered : ∀ index (bound : index < pages.length),
      database.Lists (filter.paged size index) pages[index]) :
    (whole.map Task.id).Nodup ∧
      (pages.flatten = whole ↔ whole = [] ∨ ∀ index < count, index * size < 2 ^ 63) := by
  have distinct : (whole.map Task.id).Nodup :=
    lists_iff.mp listed ▸ listTasks_distinct filter.whole database
  have pageRows : ∀ index (bound : index < pages.length),
      pages[index] = limitRows (some size) (some (index * size)) whole := by
    intro index bound
    rw [lists_iff.mp (answered index bound), lists_iff.mp listed]
    exact (limitRows_map _ _ _ _).symm
  have all : pages =
      (List.range count).map fun index => limitRows (some size) (some (index * size)) whole := by
    refine List.ext_getElem (by rw [asked, List.length_map, List.length_range])
      fun index bound _ => ?_
    rw [pageRows index bound, List.getElem_map, List.getElem_range]
  rw [all]
  exact ⟨distinct, limitRows_tile_iff whole (distinct.of_map Task.id) positive fits offsets enough⟩

def oneTask : Database :=
  after obligingProvider .epoch
    (TaskService.create { workspaceId := ⟨1⟩, repoId := some ⟨21⟩, title := "a" }) twoRepos

/-- The second page starts from the top again. -/
theorem wrappedOffset_repeats :
    ∃ (whole : List Task) (pages : List (List Task)),
      oneTask.Lists (TaskFilter.whole {}) whole ∧ whole.length ≤ 2 * 2 ^ 63 ∧ pages.length = 2 ∧
      (∀ index (bound : index < pages.length),
        oneTask.Lists (TaskFilter.paged (2 ^ 63) index {}) pages[index]) ∧
      pages.flatten ≠ whole := by
  let whole := oneTask.listTasks (TaskFilter.whole {})
  have single : whole.length = 1 := rfl
  have again {index : Nat} (fromStart : (asI64 (index * 2 ^ 63)).toNat = 0) :
      oneTask.Lists (TaskFilter.paged (2 ^ 63) index {}) whole := by
    rw [lists_iff]
    unfold listTasks TaskFilter.paged
    dsimp only
    rw [limitRows_all _ (le_refl _) (by omega) fromStart]
    rfl
  have first := @again 0 (by rw [Nat.zero_mul, asI64_zero]; rfl)
  have second := @again 1
    (Int.toNat_of_nonpos (asI64_wraps (by omega) (by omega)).le)
  refine ⟨whole, [whole, whole], lists_iff.mpr rfl, by omega, rfl, fun index bound => ?_, ?_⟩
  · rw [List.length_cons, List.length_singleton] at bound
    rcases index with _ | _ | index
    · exact first
    · exact second
    · omega
  · intro same
    have lengths := congrArg List.length same
    rw [List.flatten_cons, List.flatten_singleton, List.length_append, single] at lengths
    omega

def tiedTasks : Database :=
  ["a", "b", "c"].foldl (fun database title => after obligingProvider .epoch
    (TaskService.create { workspaceId := ⟨1⟩, repoId := some ⟨21⟩, title }) database) twoRepos

theorem tiedTasks_whole : (tiedTasks.listTasks (TaskFilter.whole {})).map
    (fun task => (task.id, task.createdAt)) = [(⟨1⟩, .epoch), (⟨2⟩, .epoch), (⟨3⟩, .epoch)] := by
  decide

theorem listPages_tiedTasks :
    let whole := tiedTasks.listTasks (TaskFilter.whole {})
    let pages := [tiedTasks.listTasks (TaskFilter.paged 2 0 {}),
      tiedTasks.listTasks (TaskFilter.paged 2 1 {})]
    whole.map (fun task => (task.id, task.createdAt)) =
        [(⟨1⟩, .epoch), (⟨2⟩, .epoch), (⟨3⟩, .epoch)] ∧
      (whole.map Task.id).Nodup ∧ pages.flatten = whole := by
  intro whole pages
  have three : whole.length = 3 := by simpa using congrArg List.length tiedTasks_whole
  have tiled := listPages_tile {} tiedTasks 2 2 (by omega) (by omega) (fun index bound => by omega)
    whole (lists_iff.mpr rfl) (by omega) pages rfl fun index bound => by
      have bound : index < 2 := bound
      rcases index with _ | _ | index
      · exact lists_iff.mpr rfl
      · exact lists_iff.mpr rfl
      · omega
  exact ⟨tiedTasks_whole, tiled.1, tiled.2.mpr (.inr fun index bound => by omega)⟩

end RepoLink
