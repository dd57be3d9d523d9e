import RepoLink.Library.Table

/-!
Finite maps: tables of key and value pairs. A map collected from a list of pairs holds the last
value of every key; `firsts` keeps the first row of every key instead.
-/

namespace KeyedTable

variable {κ α : Type} [DecidableEq κ]

abbrev Dict (κ α : Type) : Type := Table (Prod.fst : κ × α → κ)

namespace Dict

def empty : Dict κ α := Table.empty

def get? (wanted : κ) (dict : Dict κ α) : Option α := (dict.find wanted).map Prod.snd

def keys (dict : Dict κ α) : List κ := dict.rows.map Prod.fst

def insert (key : κ) (value : α) (dict : Dict κ α) : Dict κ α :=
  dict.upsert (key, value) (fun _ => (key, value)) fun _ _ => rfl

def collect (entries : List (κ × α)) : Dict κ α :=
  entries.foldl (fun dict entry => dict.insert entry.1 entry.2) empty

@[simp] theorem get?_empty (wanted : κ) : (empty : Dict κ α).get? wanted = none := rfl

theorem mem_keys_iff {dict : Dict κ α} {key : κ} : key ∈ dict.keys ↔ (dict.get? key).isSome := by
  rw [get?, Option.isSome_map, ← Option.ne_none_iff_isSome, ne_eq, Table.find_none_iff, not_not]
  rfl

theorem mem_rows_iff {dict : Dict κ α} {key : κ} {value : α} :
    (key, value) ∈ dict.rows ↔ dict.get? key = some value := by
  constructor
  · intro member
    have found := Table.find_of_mem member
    rw [get?, found, Option.map_some]
  · intro found
    obtain ⟨row, rowFound, rfl⟩ := Option.map_eq_some_iff.mp found
    have rowKey : row.1 = key := Table.find_key rowFound
    rw [← rowKey]
    exact Table.find_mem rowFound

theorem get?_insert (key : κ) (value : α) (dict : Dict κ α) (wanted : κ) :
    (dict.insert key value).get? wanted = if wanted = key then some value else dict.get? wanted := by
  rw [get?, insert, Table.find_upsert]
  by_cases same : wanted = key
  · rw [if_pos same, if_pos same]
    cases dict.find wanted <;> rfl
  · rw [if_neg same, if_neg same]
    rfl

theorem get?_foldl (entries : List (κ × α)) : ∀ (dict : Dict κ α) (wanted : κ),
    (entries.foldl (fun dict entry => dict.insert entry.1 entry.2) dict).get? wanted =
      ((entries.reverse.find? fun entry => entry.1 = wanted).map Prod.snd).or
        (dict.get? wanted) := by
  induction entries with
  | nil =>
      intro dict wanted
      rfl
  | cons entry rest ih =>
      intro dict wanted
      rw [List.foldl_cons, ih, get?_insert, List.reverse_cons, List.find?_append]
      cases rest.reverse.find? fun entry => entry.1 = wanted with
      | some later => rfl
      | none =>
          by_cases same : wanted = entry.1
          · rw [if_pos same, List.find?_singleton, if_pos (by simp [same])]
            rfl
          · rw [if_neg same, List.find?_singleton, if_neg (by simp [Ne.symm same])]
            rfl

theorem get?_collect (entries : List (κ × α)) (wanted : κ) :
    (collect entries).get? wanted =
      (entries.reverse.find? fun entry => entry.1 = wanted).map Prod.snd := by
  rw [collect, get?_foldl, get?_empty, Option.or_none]

theorem get?_collect_iff {entries : List (κ × α)} (distinct : (entries.map Prod.fst).Nodup)
    {key : κ} {value : α} :
    (collect entries).get? key = some value ↔ (key, value) ∈ entries := by
  have reversed : (entries.reverse.map Prod.fst).Nodup := by
    rw [List.map_reverse]
    exact List.nodup_reverse.mpr distinct
  have stored : (key, value) ∈ (⟨entries.reverse, reversed⟩ : Dict κ α).rows ↔ _ := mem_rows_iff
  rw [get?_collect, ← List.mem_reverse]
  exact stored.symm

theorem mem_keys_collect {entries : List (κ × α)} {key : κ} :
    key ∈ (collect entries).keys ↔ key ∈ entries.map Prod.fst := by
  rw [mem_keys_iff, get?_collect, Option.isSome_map, List.find?_isSome, List.mem_map]
  simp only [List.mem_reverse, decide_eq_true_eq]

end Dict

def firsts {ρ : Type} (key : ρ → κ) : List ρ → List κ → List ρ
  | [], _ => []
  | row :: rest, seen =>
    if key row ∈ seen then firsts key rest seen else row :: firsts key rest (key row :: seen)

theorem mem_firsts {ρ : Type} {key : ρ → κ} {rows : List ρ} {row : ρ} : ∀ {seen : List κ},
    row ∈ firsts key rows seen ↔
      key row ∉ seen ∧ rows.find? (fun other => key other = key row) = some row := by
  induction rows with
  | nil =>
      intro seen
      simp [firsts]
  | cons first rest ih =>
      intro seen
      rw [firsts, List.find?_cons]
      by_cases taken : key first ∈ seen
      · rw [if_pos taken, ih]
        by_cases same : key first = key row
        · simp [same ▸ taken]
        · simp [same]
      · rw [if_neg taken, List.mem_cons, ih]
        by_cases same : key first = key row
        · simp only [same ▸ taken, not_false_eq_true, same, decide_true, Option.some.injEq,
            true_and, List.mem_cons, not_true_eq_false, false_and, or_false]
          exact eq_comm
        · have other : row ≠ first := fun rowEq => same (rowEq ▸ rfl)
          simp [same, Ne.symm same, other]

theorem firsts_sublist {ρ : Type} {key : ρ → κ} {rows : List ρ} : ∀ {seen : List κ},
    (firsts key rows seen).Sublist rows := by
  induction rows with
  | nil => exact List.Sublist.refl _
  | cons first rest ih =>
      intro seen
      rw [firsts]
      split
      · exact ih.cons first
      · exact ih.cons_cons first

theorem firsts_subset {ρ : Type} {key : ρ → κ} {rows : List ρ} {seen : List κ} :
    firsts key rows seen ⊆ rows := firsts_sublist.subset

theorem mem_map_firsts {ρ : Type} {key : ρ → κ} {rows : List ρ} {seen : List κ} {wanted : κ} :
    wanted ∈ (firsts key rows seen).map key ↔ wanted ∉ seen ∧ wanted ∈ rows.map key := by
  constructor
  · intro member
    obtain ⟨row, kept, rfl⟩ := List.mem_map.mp member
    exact ⟨(mem_firsts.mp kept).1, List.mem_map_of_mem (firsts_subset kept)⟩
  · rintro ⟨unseen, member⟩
    obtain ⟨row, inRows, keyEq⟩ := List.mem_map.mp member
    have found : (rows.find? fun other => key other = wanted).isSome :=
      List.find?_isSome.mpr ⟨row, inRows, decide_eq_true keyEq⟩
    obtain ⟨first, firstEq⟩ := Option.isSome_iff_exists.mp found
    have satisfied := List.find?_some firstEq
    have same : key first = wanted := of_decide_eq_true satisfied
    exact List.mem_map.mpr ⟨first, mem_firsts.mpr ⟨same ▸ unseen, same ▸ firstEq⟩, same⟩

end KeyedTable
