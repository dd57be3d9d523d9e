import Mathlib.Data.List.Sort
import RepoLink.Domain.Config

/-!
How a `Project` of `domain-project` is built: the checks of `from_fields` and the priority
mappings that are derived from a board's options.
-/

namespace RepoLink

def Priority.debug : Priority → String
  | .p0 => "P0"
  | .p1 => "P1"
  | .p2 => "P2"
  | .p3 => "P3"

namespace Project

/-- The check of a mapping list: every option is owned by the field, every key is mapped once. -/
def validateKeyed {ρ κ : Type} [DecidableEq κ] (label : String) (key : ρ → κ)
    (optionOf : ρ → String) (duplicate : κ → String) (options : List FieldOption) :
    List κ → List ρ → Except DomainError Unit
  | _, [] => .ok ()
  | seen, mapping :: rest =>
    if !options.any fun option => option.optionId = optionOf mapping then
      .error (.validation
        (label ++ " mapping references unknown option_id '" ++ optionOf mapping ++ "'"))
    else if key mapping ∈ seen then .error (.validation (duplicate (key mapping)))
    else validateKeyed label key optionOf duplicate options (key mapping :: seen) rest

def validateMappings (mappings : List StatusMapping) (options : List FieldOption) :
    Except DomainError Unit :=
  validateKeyed "status" StatusMapping.isOpen StatusMapping.optionId
    (fun isOpen => "duplicate status mapping for is_open=" ++ toString isOpen) options [] mappings

def validatePriorityMappings (mappings : List PriorityMapping) (options : List FieldOption) :
    Except DomainError Unit :=
  validateKeyed "priority" PriorityMapping.priority PriorityMapping.optionId
    (fun priority => "duplicate priority mapping for " ++ priority.debug) options [] mappings

def ofKind (kind : ProjectFieldKind) (fields : List ProjectField) : List ProjectField :=
  fields.filter fun field => field.kind = kind

def optionsOfKind (kind : ProjectFieldKind) (fields : List ProjectField) : List FieldOption :=
  ((fields.find? fun field => field.kind = kind).map ProjectField.options).getD []

def statusOptions (project : Project) : List FieldOption :=
  (project.statusField.map ProjectField.options).getD []

def optionNameFor (project : Project) (optionId : String) : Option String :=
  (project.statusOptions.find? fun option => option.optionId = optionId).map FieldOption.name

def fromFields (id : ProjectId) (title : String) (fields : List ProjectField)
    (statusMappings : List StatusMapping) (priorityMappings : List PriorityMapping) :
    Except DomainError Project := do
  let statusCount := (ofKind .status fields).length
  if 1 < statusCount then
    throw (.validation ("project has " ++ toString statusCount ++
      " Status fields; expected at most one"))
  if !fields.isEmpty && statusCount = 0 then
    throw (.validation "project has fields but none is classified as Status")
  validateMappings statusMappings (optionsOfKind .status fields)
  let priorityCount := (ofKind .priority fields).length
  if 1 < priorityCount then
    throw (.validation ("project has " ++ toString priorityCount ++
      " Priority fields; expected at most one"))
  validatePriorityMappings priorityMappings (optionsOfKind .priority fields)
  return ⟨id, title, fields, statusMappings, priorityMappings⟩

def prioritiesByOrdinal : List Priority := [.p0, .p1, .p2, .p3]

/-- `Pk` lands on the option of ordinal `k`, and on the last one beyond. -/
def derivePriorityMappings (options : List FieldOption) : List PriorityMapping :=
  let ordered := options.insertionSort (·.ordinal ≤ ·.ordinal)
  prioritiesByOrdinal.zipIdx.filterMap fun entry =>
    ordered[min entry.2 (ordered.length - 1)]?.map fun option => ⟨entry.1, option.optionId⟩

theorem ofKind_append (kind : ProjectFieldKind) (left right : List ProjectField) :
    ofKind kind (left ++ right) = ofKind kind left ++ ofKind kind right :=
  List.filter_append left right

theorem ofKind_cons_same {kind : ProjectFieldKind} {field : ProjectField} (same : field.kind = kind)
    (rest : List ProjectField) : ofKind kind (field :: rest) = field :: ofKind kind rest :=
  List.filter_cons_of_pos (decide_eq_true same)

theorem ofKind_cons_other {kind : ProjectFieldKind} {field : ProjectField}
    (other : field.kind ≠ kind) (rest : List ProjectField) :
    ofKind kind (field :: rest) = ofKind kind rest :=
  List.filter_cons_of_neg fun same => other (of_decide_eq_true same)

section Validation

variable {ρ κ : Type} [DecidableEq κ] {label : String} {key : ρ → κ} {optionOf : ρ → String}
  {duplicate : κ → String} {options : List FieldOption}

theorem validateKeyed_ok_iff {mappings : List ρ} : ∀ {seen : List κ},
    validateKeyed label key optionOf duplicate options seen mappings = .ok () ↔
      (∀ mapping ∈ mappings, optionOf mapping ∈ options.map FieldOption.optionId) ∧
        (mappings.map key).Nodup ∧ ∀ mapping ∈ mappings, key mapping ∉ seen := by
  induction mappings with
  | nil =>
      intro seen
      refine iff_of_true rfl ⟨fun _ member => (List.not_mem_nil member).elim, List.nodup_nil,
        fun _ member => (List.not_mem_nil member).elim⟩
  | cons mapping rest ih =>
      intro seen
      have known : (options.any fun option => option.optionId = optionOf mapping) = true ↔
          optionOf mapping ∈ options.map FieldOption.optionId := by
        rw [List.any_eq_true, List.mem_map]
        simp only [decide_eq_true_eq]
      rw [validateKeyed]
      by_cases owned : (options.any fun option => option.optionId = optionOf mapping) = true
      · rw [owned, Bool.not_true, if_neg Bool.false_ne_true]
        by_cases repeated : key mapping ∈ seen
        · rw [if_pos repeated]
          refine iff_of_false (fun same => by cases same) fun checks => ?_
          exact checks.2.2 mapping List.mem_cons_self repeated
        · rw [if_neg repeated, ih]
          constructor
          · rintro ⟨ownedRest, distinct, fresh⟩
            refine ⟨fun other member => ?_, List.nodup_cons.mpr ⟨fun inRest => ?_, distinct⟩,
              fun other member => ?_⟩
            · rcases List.mem_cons.mp member with rfl | member
              · exact known.mp owned
              · exact ownedRest other member
            · obtain ⟨other, member, same⟩ := List.mem_map.mp inRest
              exact fresh other member (same ▸ List.mem_cons_self)
            · rcases List.mem_cons.mp member with rfl | member
              · exact repeated
              · exact fun inSeen => fresh other member (List.mem_cons_of_mem _ inSeen)
          · rintro ⟨ownedAll, distinct, fresh⟩
            obtain ⟨alone, distinct⟩ := List.nodup_cons.mp distinct
            refine ⟨fun other member => ownedAll other (List.mem_cons_of_mem _ member), distinct,
              fun other member inSeen => ?_⟩
            rcases List.mem_cons.mp inSeen with same | inSeen
            · exact alone (same ▸ List.mem_map_of_mem member)
            · exact fresh other (List.mem_cons_of_mem _ member) inSeen
      · rw [Bool.eq_false_iff.mpr owned, Bool.not_false, if_pos rfl]
        refine iff_of_false (fun same => by cases same) fun checks => ?_
        exact owned (known.mpr (checks.1 mapping List.mem_cons_self))

theorem validatePriorityMappings_ok_iff {mappings : List PriorityMapping} :
    validatePriorityMappings mappings options = .ok () ↔
      (∀ mapping ∈ mappings, mapping.optionId ∈ options.map FieldOption.optionId) ∧
        (mappings.map PriorityMapping.priority).Nodup := by
  rw [validatePriorityMappings, validateKeyed_ok_iff]
  simp

theorem validateMappings_ok_iff {mappings : List StatusMapping} :
    validateMappings mappings options = .ok () ↔
      (∀ mapping ∈ mappings, mapping.optionId ∈ options.map FieldOption.optionId) ∧
        (mappings.map StatusMapping.isOpen).Nodup := by
  rw [validateMappings, validateKeyed_ok_iff]
  simp

/-- What `from_fields` checks of the fields and the mappings. -/
structure Checked (fields : List ProjectField) (statusMappings : List StatusMapping)
    (priorityMappings : List PriorityMapping) : Prop where
  oneStatus : (ofKind .status fields).length ≤ 1
  someStatus : fields ≠ [] → ofKind .status fields ≠ []
  statuses : validateMappings statusMappings (optionsOfKind .status fields) = .ok ()
  onePriority : (ofKind .priority fields).length ≤ 1
  priorities : validatePriorityMappings priorityMappings (optionsOfKind .priority fields) = .ok ()

/-- The checks are all that stands between the arguments and the project. -/
theorem fromFields_ok_iff {id : ProjectId} {title : String} {fields : List ProjectField}
    {statusMappings : List StatusMapping} {priorityMappings : List PriorityMapping}
    {project : Project} :
    fromFields id title fields statusMappings priorityMappings = .ok project ↔
      project = ⟨id, title, fields, statusMappings, priorityMappings⟩ ∧
        Checked fields statusMappings priorityMappings := by
  unfold fromFields
  dsimp only
  by_cases several : 1 < (ofKind .status fields).length
  · rw [if_pos several]
    exact iff_of_false (fun built => by cases built) fun checks =>
      Nat.not_le.mpr several checks.2.oneStatus
  rw [if_neg several]
  by_cases absent : (!fields.isEmpty && decide ((ofKind .status fields).length = 0)) = true
  · rw [if_pos absent]
    simp only [Bool.and_eq_true, Bool.not_eq_true', List.isEmpty_eq_false_iff, decide_eq_true_eq,
      List.length_eq_zero_iff] at absent
    exact iff_of_false (fun built => by cases built) fun checks =>
      checks.2.someStatus absent.1 absent.2
  rw [if_neg absent]
  simp only [Bool.and_eq_true, Bool.not_eq_true', List.isEmpty_eq_false_iff, decide_eq_true_eq,
    List.length_eq_zero_iff, not_and] at absent
  cases statuses : validateMappings statusMappings (optionsOfKind .status fields) with
  | error error =>
      refine iff_of_false (fun built => by cases built) fun checks => ?_
      have passed := checks.2.statuses
      rw [statuses] at passed
      cases passed
  | ok _ =>
      change (if 1 < (ofKind .priority fields).length then _ else _) = _ ↔ _
      by_cases many : 1 < (ofKind .priority fields).length
      · rw [if_pos many]
        exact iff_of_false (fun built => by cases built) fun checks =>
          Nat.not_le.mpr many checks.2.onePriority
      rw [if_neg many]
      cases priorities :
          validatePriorityMappings priorityMappings (optionsOfKind .priority fields) with
      | error error =>
          refine iff_of_false (fun built => by cases built) fun checks => ?_
          have passed := checks.2.priorities
          rw [priorities] at passed
          cases passed
      | ok _ =>
          constructor
          · intro built
            exact ⟨(Except.ok.inj built).symm, Nat.le_of_not_lt several, absent, statuses,
              Nat.le_of_not_lt many, priorities⟩
          · rintro ⟨rfl, _⟩
            rfl

theorem fromFields_checked {id : ProjectId} {title : String} {fields : List ProjectField}
    {statusMappings : List StatusMapping} {priorityMappings : List PriorityMapping}
    {project : Project}
    (built : fromFields id title fields statusMappings priorityMappings = .ok project) :
    project = ⟨id, title, fields, statusMappings, priorityMappings⟩ ∧
      validatePriorityMappings priorityMappings (optionsOfKind .priority fields) = .ok () :=
  (fromFields_ok_iff.mp built).imp_right Checked.priorities

theorem mapped_sublist {pick : Nat → Option FieldOption} (entries : List (Priority × Nat)) :
    ((entries.filterMap fun entry =>
      (pick entry.2).map fun option => (⟨entry.1, option.optionId⟩ : PriorityMapping)).map
        PriorityMapping.priority).Sublist (entries.map Prod.fst) := by
  induction entries with
  | nil => exact List.Sublist.refl _
  | cons entry rest ih =>
      cases picked : pick entry.2 with
      | none =>
          rw [List.filterMap_cons_none (by rw [picked]; rfl)]
          exact ih.cons entry.1
      | some option =>
          rw [List.filterMap_cons_some (b := ⟨entry.1, option.optionId⟩) (by rw [picked]; rfl)]
          exact ih.cons_cons entry.1

theorem derivePriorityMappings_valid (options : List FieldOption) :
    validatePriorityMappings (derivePriorityMappings options) options = .ok () := by
  rw [validatePriorityMappings_ok_iff]
  constructor
  · intro mapping member
    unfold derivePriorityMappings at member
    obtain ⟨entry, _, found⟩ := List.mem_filterMap.mp member
    obtain ⟨option, stored, rfl⟩ := Option.map_eq_some_iff.mp found
    have sorted := List.mem_of_getElem? stored
    exact List.mem_map_of_mem ((List.mem_insertionSort _).mp sorted)
  · have distinct : (prioritiesByOrdinal.zipIdx.map Prod.fst).Nodup := by decide
    exact (@mapped_sublist (fun index => (options.insertionSort (·.ordinal ≤ ·.ordinal))[min index
      ((options.insertionSort (·.ordinal ≤ ·.ordinal)).length - 1)]?) _).nodup distinct

end Validation

end Project

end RepoLink
