import Mathlib.Algebra.GroupWithZero.Nat
import Mathlib.Data.List.Nodup

/-!
Tables with a primary key: lists of rows whose keys are pairwise distinct, the statements
that keep them so, and what a lookup finds after each statement.
-/

namespace KeyedTable

variable {ρ κ : Type}

def firstBy (precedes : ρ → ρ → Bool) : List ρ → Option ρ
  | [] => none
  | row :: rest =>
    match firstBy precedes rest with
    | none => some row
    | some best => if precedes best row then some best else some row

theorem firstBy_mem {precedes : ρ → ρ → Bool} : ∀ {rows : List ρ} {row : ρ},
    firstBy precedes rows = some row → row ∈ rows := by
  intro rows
  induction rows with
  | nil => intro row found; cases found
  | cons first rest ih =>
      intro row found
      simp only [firstBy] at found
      split at found
      · cases found
        exact List.mem_cons_self
      · rename_i best restBest
        split at found <;> cases found
        · exact List.mem_cons_of_mem first (ih restBest)
        · exact List.mem_cons_self

theorem firstBy_isSome {precedes : ρ → ρ → Bool} {rows : List ρ} {row : ρ} (member : row ∈ rows) :
    (firstBy precedes rows).isSome = true := by
  cases rows with
  | nil => cases member
  | cons first rest =>
      simp only [firstBy]
      split
      · rfl
      · split <;> rfl

theorem le_foldr_max (bounds : List Nat) : ∀ bound ∈ bounds, bound ≤ bounds.foldr max 0 := by
  induction bounds with
  | nil => simp
  | cons first rest ih =>
      intro bound member
      rw [List.foldr_cons]
      rcases List.mem_cons.mp member with rfl | inRest
      · exact Nat.le_max_left _ _
      · exact Nat.le_trans (ih bound inRest) (Nat.le_max_right _ _)

structure Table (key : ρ → κ) where
  rows : List ρ
  distinct : (rows.map key).Nodup

namespace Table

variable {key : ρ → κ}

instance [Repr ρ] : Repr (Table key) := ⟨fun table _ => repr table.rows⟩

@[ext] theorem ext {left right : Table key} (rowsEq : left.rows = right.rows) : left = right := by
  cases left
  cases right
  simpa using rowsEq

instance [DecidableEq ρ] : DecidableEq (Table key) := fun left right =>
  decidable_of_iff (left.rows = right.rows) ⟨ext, congrArg rows⟩

def empty : Table key := ⟨[], List.nodup_nil⟩

def filter (keep : ρ → Bool) (table : Table key) : Table key where
  rows := table.rows.filter keep
  distinct := (List.Sublist.map key List.filter_sublist).nodup table.distinct

def mapRows (change : ρ → ρ) (keeps : ∀ row, key (change row) = key row) (table : Table key) :
    Table key where
  rows := table.rows.map change
  distinct := by
    have same : key ∘ change = key := funext keeps
    rw [List.map_map, same]
    exact table.distinct

def append (row : ρ) (table : Table key) (fresh : key row ∉ table.rows.map key) : Table key where
  rows := table.rows ++ [row]
  distinct := by
    rw [List.map_append, List.map_singleton, List.nodup_append]
    refine ⟨table.distinct, List.nodup_singleton _, ?_⟩
    intro stored member added addedEq
    rw [List.mem_singleton] at addedEq
    rintro rfl
    exact fresh (addedEq ▸ member)

theorem sum_one_changed {table : Table key} {row : ρ} (member : row ∈ table.rows)
    {before after : ρ → Nat} (elsewhere : ∀ other, key other ≠ key row → after other = before other) :
    (table.rows.map after).sum + before row = (table.rows.map before).sum + after row := by
  obtain ⟨rows, distinct⟩ := table
  dsimp only at member ⊢
  induction rows with
  | nil => exact absurd member List.not_mem_nil
  | cons first rest ih =>
      rw [List.map_cons, List.nodup_cons] at distinct
      rw [List.map_cons, List.map_cons, List.sum_cons, List.sum_cons]
      rcases List.mem_cons.mp member with rfl | member
      · have same : rest.map after = rest.map before := List.map_congr_left fun other member =>
          elsewhere other fun keyEq => distinct.1 (keyEq ▸ List.mem_map_of_mem member)
        rw [same]
        omega
      · have kept : after first = before first :=
          elsewhere first fun keyEq => distinct.1 (keyEq ▸ List.mem_map_of_mem member)
        have tail := ih distinct.2 member
        omega

variable [DecidableEq κ]

def find (table : Table key) (wanted : κ) : Option ρ :=
  table.rows.find? fun row => key row = wanted

def modify (wanted : κ) (change : ρ → ρ)
    (keeps : ∀ row, key row = wanted → key (change row) = wanted) (table : Table key) :
    Table key :=
  table.mapRows (fun row => if key row = wanted then change row else row) fun row => by
    split
    · rename_i same
      rw [keeps row same, same]
    · rfl

def upsert (row : ρ) (merge : ρ → ρ)
    (keeps : ∀ stored, key stored = key row → key (merge stored) = key row)
    (table : Table key) : Table key :=
  if member : key row ∈ table.rows.map key then table.modify (key row) merge keeps
  else table.append row member

theorem find_some_iff (table : Table key) (wanted : κ) (row : ρ) :
    table.find wanted = some row ↔ row ∈ table.rows ∧ key row = wanted := by
  constructor
  · intro found
    exact ⟨List.mem_of_find?_eq_some found, by simpa using List.find?_some found⟩
  · rintro ⟨member, keyEq⟩
    obtain ⟨rows, distinct⟩ := table
    simp only [find]
    induction rows with
    | nil => simp at member
    | cons first rest ih =>
        simp only [List.map_cons, List.nodup_cons, List.mem_map] at distinct
        rw [List.find?_cons]
        rcases List.mem_cons.mp member with rfl | member
        · simp [keyEq]
        · have different : key first ≠ wanted := by
            intro same
            exact distinct.1 ⟨row, member, keyEq.trans same.symm⟩
          simp only [different, decide_false]
          exact ih distinct.2 member

theorem find_mem {table : Table key} {wanted : κ} {row : ρ}
    (found : table.find wanted = some row) : row ∈ table.rows :=
  ((find_some_iff table wanted row).mp found).1

theorem find_key {table : Table key} {wanted : κ} {row : ρ}
    (found : table.find wanted = some row) : key row = wanted :=
  ((find_some_iff table wanted row).mp found).2

theorem find_of_mem {table : Table key} {row : ρ} (member : row ∈ table.rows) :
    table.find (key row) = some row :=
  (find_some_iff table _ row).mpr ⟨member, rfl⟩

theorem find_none_iff (table : Table key) (wanted : κ) :
    table.find wanted = none ↔ wanted ∉ table.rows.map key := by
  simp [find, List.find?_eq_none]

theorem row_unique {table : Table key} {left right : ρ} (leftMember : left ∈ table.rows)
    (rightMember : right ∈ table.rows) (keyEq : key left = key right) : left = right := by
  have leftFound := find_of_mem leftMember
  rw [keyEq, find_of_mem rightMember] at leftFound
  exact (Option.some.inj leftFound).symm

@[simp] theorem find_empty (wanted : κ) : (empty : Table key).find wanted = none := rfl

theorem find_mapRows (change : ρ → ρ) (keeps : ∀ row, key (change row) = key row)
    (table : Table key) (wanted : κ) :
    (table.mapRows change keeps).find wanted = (table.find wanted).map change := by
  simp only [find, mapRows, List.find?_map]
  have same : ((fun row => decide (key row = wanted)) ∘ change) =
      fun row => decide (key row = wanted) := by
    funext row
    simp [keeps]
  rw [same]

theorem find_modify (target : κ) (change : ρ → ρ)
    (keeps : ∀ row, key row = target → key (change row) = target)
    (table : Table key) (wanted : κ) :
    (table.modify target change keeps).find wanted =
      if wanted = target then (table.find wanted).map change else table.find wanted := by
  rw [modify, find_mapRows]
  cases found : table.find wanted with
  | none => simp
  | some row =>
      have keyEq := find_key found
      subst keyEq
      by_cases same : key row = target <;> simp [same]

theorem modify_congr {target : κ} {change other : ρ → ρ}
    {keeps : ∀ row, key row = target → key (change row) = target}
    {keepsOther : ∀ row, key row = target → key (other row) = target} {table : Table key}
    (same : ∀ row, table.find target = some row → change row = other row) :
    table.modify target change keeps = table.modify target other keepsOther := by
  refine ext (List.map_congr_left fun row member => ?_)
  split
  · rename_i keyEq
    exact same row ((find_some_iff table target row).mpr ⟨member, keyEq⟩)
  · rfl

theorem modify_unchanged {target : κ} {change : ρ → ρ}
    {keeps : ∀ row, key row = target → key (change row) = target} {table : Table key}
    (same : ∀ row, table.find target = some row → change row = row) :
    table.modify target change keeps = table := by
  rw [@modify_congr _ _ _ _ _ change id keeps (fun _ keyEq => keyEq) _ same]
  exact ext (by simp [modify, mapRows])

theorem find_append (row : ρ) (table : Table key) (fresh : key row ∉ table.rows.map key)
    (wanted : κ) :
    (table.append row fresh).find wanted =
      if wanted = key row then some row else table.find wanted := by
  simp only [find, append, List.find?_append, List.find?_cons, List.find?_nil]
  by_cases same : wanted = key row
  · subst same
    have missing := (find_none_iff table (key row)).mpr fresh
    simp only [find] at missing
    simp [missing]
  · have reverse : key row ≠ wanted := fun keyEq => same keyEq.symm
    simp [same, reverse]

theorem find_upsert (row : ρ) (merge : ρ → ρ)
    (keeps : ∀ stored, key stored = key row → key (merge stored) = key row)
    (table : Table key) (wanted : κ) :
    (table.upsert row merge keeps).find wanted =
      if wanted = key row then some (((table.find wanted).map merge).getD row)
      else table.find wanted := by
  unfold upsert
  split
  · rename_i member
    rw [find_modify]
    split
    · rename_i same
      subst same
      cases found : table.find (key row) with
      | none => exact absurd member ((find_none_iff table _).mp found)
      | some stored => simp
    · rfl
  · rename_i fresh
    rw [find_append]
    split
    · rename_i same
      subst same
      rw [(find_none_iff table _).mpr fresh]
      rfl
    · rfl

theorem find_filter (keep : ρ → Bool) (table : Table key) (wanted : κ) :
    (table.filter keep).find wanted = (table.find wanted).filter keep := by
  cases found : table.find wanted with
  | none =>
      rw [find_none_iff] at found
      rw [Option.filter_none, find_none_iff]
      intro member
      obtain ⟨row, kept, keyEq⟩ := List.mem_map.mp member
      exact found (List.mem_map.mpr ⟨row, (List.mem_filter.mp kept).1, keyEq⟩)
  | some row =>
      by_cases kept : keep row = true
      · rw [Option.filter_some, if_pos kept, find_some_iff]
        exact ⟨List.mem_filter.mpr ⟨find_mem found, kept⟩, find_key found⟩
      · rw [Option.filter_some, if_neg kept, find_none_iff]
        intro member
        obtain ⟨other, otherKept, keyEq⟩ := List.mem_map.mp member
        have otherMember := List.mem_filter.mp otherKept
        have same : other = row :=
          row_unique otherMember.1 (find_mem found) (keyEq.trans (find_key found).symm)
        exact kept (same ▸ otherMember.2)

section Image

variable {τ : Type} {keyOf : τ → κ} (see : ρ → τ) (keys : ∀ row, keyOf (see row) = key row)

def image (table : Table key) : Table keyOf where
  rows := table.rows.map see
  distinct := by
    have same : keyOf ∘ see = key := funext keys
    rw [List.map_map, same]
    exact table.distinct

theorem find_image (table : Table key) (wanted : κ) :
    (table.image see keys).find wanted = (table.find wanted).map see := by
  simp only [find, image, List.find?_map]
  have same : ((fun row => decide (keyOf row = wanted)) ∘ see) =
      fun row => decide (key row = wanted) := by
    funext row
    simp [keys]
  rw [same]

omit [DecidableEq κ] in
theorem image_filter {keep : ρ → Bool} {keepSeen : τ → Bool}
    (same : ∀ row, keepSeen (see row) = keep row) (table : Table key) :
    (table.filter keep).image see keys = (table.image see keys).filter keepSeen := by
  refine ext ?_
  have sameKeep : keepSeen ∘ see = keep := funext same
  simp only [image, filter, List.filter_map, sameKeep]

theorem image_modify {target : κ} {change : ρ → ρ} {changeSeen : τ → τ}
    {keeps : ∀ row, key row = target → key (change row) = target}
    {keepsSeen : ∀ row, keyOf row = target → keyOf (changeSeen row) = target}
    (same : ∀ row, see (change row) = changeSeen (see row)) (table : Table key) :
    (table.modify target change keeps).image see keys =
      (table.image see keys).modify target changeSeen keepsSeen := by
  refine ext ?_
  simp only [image, modify, mapRows, List.map_map]
  refine List.map_congr_left fun row _ => ?_
  simp only [Function.comp_apply, keys]
  split
  · exact same row
  · rfl

theorem image_upsert {row : ρ} {merge : ρ → ρ} {mergeSeen : τ → τ}
    {keeps : ∀ stored, key stored = key row → key (merge stored) = key row}
    {keepsSeen : ∀ stored, keyOf stored = keyOf (see row) →
      keyOf (mergeSeen stored) = keyOf (see row)}
    (same : ∀ stored, see (merge stored) = mergeSeen (see stored)) (table : Table key) :
    (table.upsert row merge keeps).image see keys =
      (table.image see keys).upsert (see row) mergeSeen keepsSeen := by
  have imageKeys : (table.image see keys).rows.map keyOf = table.rows.map key := by
    have sameKey : keyOf ∘ see = key := funext keys
    simp only [image, List.map_map, sameKey]
  refine ext ?_
  unfold upsert
  by_cases member : key row ∈ table.rows.map key
  · rw [dif_pos member, dif_pos (by rw [imageKeys, keys]; exact member)]
    simp only [image, modify, mapRows, List.map_map]
    refine List.map_congr_left fun stored _ => ?_
    simp only [Function.comp_apply, keys]
    split
    · exact same stored
    · rfl
  · rw [dif_neg member, dif_neg (by rw [imageKeys, keys]; exact member)]
    simp only [image, append, List.map_append, List.map_singleton]

end Image

section Insertion

variable {ε : Type}

def insertNew (taken : ε) (row : ρ) (table : Table key) : Except ε (Table key) :=
  if fresh : key row ∉ table.rows.map key then .ok (table.append row fresh) else .error taken

def insertEach (taken : ε) (references : ρ → Except ε Unit) (rows : List ρ) (table : Table key) :
    Except ε (Table key) :=
  rows.foldlM (fun table row => do
    let inserted ← table.insertNew taken row
    references row
    return inserted) table

theorem insertNew_ok {taken : ε} {row : ρ} {table : Table key}
    (fresh : key row ∉ table.rows.map key) : table.insertNew taken row =
      .ok (table.append row fresh) := dif_pos fresh

theorem insertEach_ok {taken : ε} {references : ρ → Except ε Unit} :
    ∀ {rows : List ρ} {table : Table key},
      (∀ row ∈ rows, references row = .ok ()) → (rows.map key).Nodup →
      (∀ row ∈ rows, key row ∉ table.rows.map key) →
      ∃ inserted, table.insertEach taken references rows = .ok inserted ∧
        inserted.rows = table.rows ++ rows := by
  intro rows
  induction rows with
  | nil => intro table _ _ _; exact ⟨table, rfl, (List.append_nil _).symm⟩
  | cons row rest ih =>
      intro table owned apart fresh
      obtain ⟨first, others⟩ := List.forall_mem_cons.mp owned
      obtain ⟨alone, apart⟩ := List.nodup_cons.mp apart
      obtain ⟨new, later⟩ := List.forall_mem_cons.mp fresh
      obtain ⟨inserted, ran, all⟩ := @ih (table.append row new) others apart fun other member taken => by
        rw [append, List.map_append, List.mem_append] at taken
        rcases taken with old | same
        · exact later other member old
        · rw [List.map_singleton, List.mem_singleton] at same
          exact alone (same ▸ List.mem_map_of_mem member)
      refine ⟨inserted, ?_, ?_⟩
      · rw [insertEach, List.foldlM_cons, insertNew_ok new]
        change ((references row).bind fun _ => .ok (table.append row new)).bind
          (fun table => table.insertEach taken references rest) = _
        rw [first]
        exact ran
      · rw [all]
        simp [append]

theorem insertEach_map_ok {ι γ : Type} {taken : ε} {references : ρ → Except ε Unit} {row : ι → ρ}
    {column : ι → γ} {items : List ι} {table : Table key}
    (owned : ∀ item ∈ items, references (row item) = .ok ())
    (keyed : ∀ {left right}, key (row left) = key (row right) → column left = column right)
    (distinct : (items.map column).Nodup)
    (fresh : ∀ stored ∈ table.rows, ∀ item ∈ items, key stored ≠ key (row item)) :
    ∃ inserted, table.insertEach taken references (items.map row) = .ok inserted ∧
      inserted.rows = table.rows ++ items.map row := by
  refine insertEach_ok (List.forall_mem_map.mpr owned) ?_ (List.forall_mem_map.mpr ?_)
  · rw [List.map_map]
    exact List.pairwise_map.mpr
      ((List.pairwise_map.mp distinct).imp fun apart same => apart (keyed same))
  · intro item member stored
    obtain ⟨other, inTable, same⟩ := List.mem_map.mp stored
    exact fresh other inTable item member same

end Insertion

end Table

end KeyedTable
