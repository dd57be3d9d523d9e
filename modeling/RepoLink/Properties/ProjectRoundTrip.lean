import RepoLink.Store.ProjectTables

/-!
A project that is saved and loaded again. Fields, options and mappings come back in the orders of
their tables, so an answer that depends on which of several equal rows comes first can change; the
creation time is the one of the first save.
-/

namespace RepoLink

open KeyedTable Ordered ProjectTables

/-- What the constructor checks, and what the columns can hold. -/
structure ProjectRecord.Storable (project : ProjectRecord) : Prop where
  checked : Project.Checked project.fields project.statusMappings project.priorityMappings
  number : project.number < 2 ^ 63
  fieldIds : (project.fields.map ProjectField.fieldId).Nodup
  optionIds : ∀ field ∈ project.fields, (field.options.map FieldOption.optionId).Nodup
  ordinals : ∀ field ∈ project.fields, (field.options.map FieldOption.ordinal).Nodup
  bounded : ∀ field ∈ project.fields, ∀ option ∈ field.options, option.ordinal < 2 ^ 32

section Saving

variable {project : ProjectRecord}

theorem filter_renewed {ρ : Type} {owner : ρ → ProjectId} {id : ProjectId} {old new : List ρ}
    (owned : ∀ row ∈ new, owner row = id) :
    (old.filter (fun row => owner row ≠ id) ++ new).filter (fun row => owner row = id) = new := by
  rw [List.filter_append, List.filter_filter]
  have none : old.filter (fun row => decide (owner row = id) && decide (owner row ≠ id)) = [] :=
    List.filter_eq_nil_iff.mpr fun row _ => by simp
  rw [none, List.nil_append, List.filter_eq_self]
  exact fun row member => decide_eq_true (owned row member)

def savedRow (project : ProjectRecord) (tables : ProjectTables) : ProjectRow where
  id := project.id
  ownerLogin := project.ownerLogin
  number := project.number
  title := project.title
  archived := boolInt project.archived
  createdAt := ((tables.projects.find project.id).map ProjectRow.createdAt).getD project.createdAt
  updatedAt := project.updatedAt

/-- What the tables hold of the project after a save. -/
structure Holds (saved : ProjectTables) (project : ProjectRecord) (row : ProjectRow) : Prop where
  row : saved.projects.find project.id = some row
  fields : saved.fields.rows.filter (fun field => field.projectId = project.id) =
    project.fields.map (fieldRow project.id)
  options : saved.options.rows.filter (fun option => option.projectId = project.id) =
    optionRows project.id project.fields
  statuses : saved.statusMappings.rows.filter (fun mapping => mapping.projectId = project.id) =
    statusRows project.toProject
  priorities : saved.priorityMappings.rows.filter (fun mapping => mapping.projectId = project.id) =
    priorityRows project.toProject

theorem find?_ofKind {kind : ProjectFieldKind} {fields : List ProjectField} :
    fields.find? (fun field => field.kind = kind) = (Project.ofKind kind fields).head? :=
  (List.head?_filter).symm

theorem optionsOfKind_eq {kind : ProjectFieldKind} {project : Project} :
    Project.optionsOfKind kind project.fields =
      ((project.fieldOfKind kind).map ProjectField.options).getD [] := rfl

theorem option_stored {kind : ProjectFieldKind} {field : ProjectField} {optionId : String}
    (found : project.fieldOfKind kind = some field)
    (owned : optionId ∈ (Project.optionsOfKind kind project.fields).map FieldOption.optionId) :
    (project.id, field.fieldId, optionId) ∈
      (optionRows project.id project.fields).map OptionRow.key := by
  rw [optionsOfKind_eq, found] at owned
  obtain ⟨option, member, rfl⟩ := List.mem_map.mp owned
  exact List.mem_map.mpr ⟨optionRow project.id field.fieldId option,
    List.mem_flatMap.mpr ⟨field, List.mem_of_find?_eq_some found, List.mem_map_of_mem member⟩, rfl⟩

def clearedTables (project : ProjectRecord) (tables : ProjectTables) : ProjectTables :=
  (tables.upsertProject ⟨project.id, project.ownerLogin, project.number, project.title,
    boolInt project.archived, project.createdAt, project.updatedAt⟩).clearChildren project.id

theorem clearedTables_row (tables : ProjectTables) :
    (clearedTables project tables).projects.find project.id = some (savedRow project tables) := by
  change (tables.projects.upsert _ _ _).find project.id = _
  rw [Table.find_upsert, if_pos rfl]
  cases found : tables.projects.find project.id with
  | none => simp [savedRow, found]
  | some old => simp [savedRow, found, Table.find_key found]

theorem not_owned {ρ : Type} {owner : ρ → ProjectId} {rows : List ρ} {row : ρ}
    (member : row ∈ rows.filter fun row => owner row ≠ project.id) : owner row ≠ project.id := by
  simpa using (List.mem_filter.mp member).2

theorem ProjectTables.Gains.holds {tables gained saved : ProjectTables}
    (gains : Gains (clearedTables project tables) gained (project.fields.map (fieldRow project.id))
      (optionRows project.id project.fields))
    (projects : saved.projects = gained.projects) (fields : saved.fields = gained.fields)
    (options : saved.options = gained.options)
    (statuses : saved.statusMappings.rows =
      gained.statusMappings.rows ++ statusRows project.toProject)
    (priorities : saved.priorityMappings.rows =
      gained.priorityMappings.rows ++ priorityRows project.toProject) :
    Holds saved project (savedRow project tables) := by
  constructor
  · rw [projects, gains.projects, clearedTables_row]
  · rw [fields, gains.fields]
    exact filter_renewed fun row member => by
      obtain ⟨field, _, rfl⟩ := List.mem_map.mp member
      rfl
  · rw [options, gains.options]
    exact filter_renewed fun row member => by
      obtain ⟨field, _, inField⟩ := List.mem_flatMap.mp member
      obtain ⟨option, _, rfl⟩ := List.mem_map.mp inField
      rfl
  · rw [statuses, gains.statusMappings]
    exact filter_renewed fun row member => by
      obtain ⟨field, _, mapping, _, rfl⟩ := mem_statusRows member
      rfl
  · rw [priorities, gains.priorityMappings]
    exact filter_renewed fun row member => by
      obtain ⟨field, _, mapping, _, rfl⟩ := mem_priorityRows member
      rfl

theorem save_ok (storable : project.Storable) (tables : ProjectTables) :
    ∃ saved, tables.save project = .ok saved ∧ Holds saved project (savedRow project tables) := by
  obtain ⟨statusOwned, statusDistinct⟩ :=
    Project.validateMappings_ok_iff.mp storable.checked.statuses
  obtain ⟨priorityOwned, priorityDistinct⟩ :=
    Project.validatePriorityMappings_ok_iff.mp storable.checked.priorities
  have owner : project.id ∈ (clearedTables project tables).projects.rows.map ProjectRow.id := by
    have stored := @clearedTables_row project tables
    rw [← Table.find_key stored]
    exact List.mem_map_of_mem (Table.find_mem stored)
  obtain ⟨gained, ran, gains⟩ := @insertFields_ok project.id project.fields _ owner
    storable.fieldIds storable.optionIds
    (fun row member same => absurd same (not_owned member))
    (fun row member same => absurd same (not_owned member))
  have hasOption {key : ProjectId × String × String}
      (inOptions : key ∈ (optionRows project.id project.fields).map OptionRow.key) :
      key ∈ gained.options.rows.map OptionRow.key := by
    rw [gains.options, List.map_append]
    exact List.mem_append_right _ inOptions
  obtain ⟨withStatuses, statusRan, statusShape, statuses⟩ :=
    @insertStatusMappings_ok project.toProject gained statusDistinct
      (by
        intro row member
        obtain ⟨field, found, mapping, inMappings, rfl⟩ := mem_statusRows member
        exact hasOption (option_stored found (statusOwned mapping inMappings)))
      (fun row member => by
        rw [gains.statusMappings] at member
        exact not_owned member)
  obtain ⟨saved, priorityRan, priorityShape, priorities⟩ :=
    @insertPriorityMappings_ok project.toProject withStatuses priorityDistinct
      (by
        intro row member
        obtain ⟨field, found, mapping, inMappings, rfl⟩ := mem_priorityRows member
        rw [statusShape]
        exact hasOption (option_stored found (priorityOwned mapping inMappings)))
      (fun row member => by
        rw [statusShape] at member
        dsimp only at member
        rw [gains.priorityMappings] at member
        exact not_owned member)
  refine ⟨saved, ?_, gains.holds ?_ ?_ ?_ ?_ ?_⟩
  · rw [save, numberToI64, if_pos storable.number]
    change (List.foldlM (insertField project.id) (clearedTables project tables)
      project.fields).bind _ = _
    rw [ran]
    change (insertStatusMappings project.toProject gained).bind _ = _
    rw [statusRan]
    exact priorityRan
  · rw [priorityShape, statusShape]
  · rw [priorityShape, statusShape]
  · rw [priorityShape, statusShape]
  · rw [priorityShape]
    exact statuses
  · rw [priorities, statusShape]

end Saving

section Arranging

def ProjectField.byOrdinal (field : ProjectField) : ProjectField :=
  { field with options := orderBy FieldOption.ordinal field.options }

def Project.arranged (project : Project) : Project :=
  { project with
    fields := (orderBy ProjectField.fieldId project.fields).map ProjectField.byOrdinal
    statusMappings :=
      orderBy (fun mapping => OrderDual.toDual mapping.isOpen) project.statusMappings
    priorityMappings := orderBy (fun mapping => mapping.priority.rank) project.priorityMappings }

variable (project : Project)

theorem arranged_ofKind (kind : ProjectFieldKind) :
    (Project.ofKind kind project.arranged.fields).Perm
      ((Project.ofKind kind project.fields).map ProjectField.byOrdinal) := by
  have moved : Project.ofKind kind project.arranged.fields =
      (Project.ofKind kind (orderBy ProjectField.fieldId project.fields)).map
        ProjectField.byOrdinal := by
    unfold Project.ofKind Project.arranged
    rw [List.filter_map]
    rfl
  rw [moved]
  exact ((orderBy_perm ProjectField.fieldId project.fields).filter _).map _

theorem arranged_ofKind_length (kind : ProjectFieldKind) :
    (Project.ofKind kind project.arranged.fields).length =
      (Project.ofKind kind project.fields).length := by
  rw [(arranged_ofKind project kind).length_eq, List.length_map]

variable {project}

theorem arranged_ofKind_short {kind : ProjectFieldKind}
    (short : (Project.ofKind kind project.fields).length ≤ 1) :
    Project.ofKind kind project.arranged.fields =
      (Project.ofKind kind project.fields).map ProjectField.byOrdinal :=
  perm_eq_of_short (arranged_ofKind project kind) (by rw [List.length_map]; exact short)

theorem arranged_fieldOfKind {kind : ProjectFieldKind}
    (short : (Project.ofKind kind project.fields).length ≤ 1) :
    project.arranged.fieldOfKind kind =
      (project.fieldOfKind kind).map ProjectField.byOrdinal := by
  unfold Project.fieldOfKind
  rw [find?_ofKind, find?_ofKind, arranged_ofKind_short short, List.head?_map]

theorem arranged_optionsOfKind {kind : ProjectFieldKind}
    (short : (Project.ofKind kind project.fields).length ≤ 1) :
    Project.optionsOfKind kind project.arranged.fields =
      orderBy FieldOption.ordinal (Project.optionsOfKind kind project.fields) := by
  rw [optionsOfKind_eq, optionsOfKind_eq, arranged_fieldOfKind short]
  cases project.fieldOfKind kind <;> rfl

theorem arranged_checked
    (checked : Project.Checked project.fields project.statusMappings project.priorityMappings) :
    Project.Checked project.arranged.fields project.arranged.statusMappings
      project.arranged.priorityMappings := by
  obtain ⟨statusOwned, statusDistinct⟩ := Project.validateMappings_ok_iff.mp checked.statuses
  obtain ⟨priorityOwned, priorityDistinct⟩ :=
    Project.validatePriorityMappings_ok_iff.mp checked.priorities
  have sameOptions {kind : ProjectFieldKind} {optionId : String}
      (short : (Project.ofKind kind project.fields).length ≤ 1)
      (owned : optionId ∈ (Project.optionsOfKind kind project.fields).map FieldOption.optionId) :
      optionId ∈ (Project.optionsOfKind kind project.arranged.fields).map
        FieldOption.optionId := by
    rw [arranged_optionsOfKind short]
    exact ((orderBy_perm _ _).map _).mem_iff.mpr owned
  refine ⟨?_, ?_, ?_, ?_, ?_⟩
  · rw [arranged_ofKind_length]
    exact checked.oneStatus
  · intro filled none
    refine checked.someStatus (fun empty => filled ?_) ?_
    · unfold Project.arranged
      rw [empty]
      rfl
    · rw [← List.length_eq_zero_iff, ← arranged_ofKind_length, none]
      rfl
  · rw [Project.validateMappings_ok_iff]
    refine ⟨fun mapping member => ?_, ((orderBy_perm _ _).map _).nodup_iff.mpr statusDistinct⟩
    exact sameOptions checked.oneStatus (statusOwned mapping ((mem_orderBy _ _).mp member))
  · rw [arranged_ofKind_length]
    exact checked.onePriority
  · rw [Project.validatePriorityMappings_ok_iff]
    refine ⟨fun mapping member => ?_, ((orderBy_perm _ _).map _).nodup_iff.mpr priorityDistinct⟩
    exact sameOptions checked.onePriority (priorityOwned mapping ((mem_orderBy _ _).mp member))

end Arranging

section Loading

variable {project : ProjectRecord}

theorem mapM_loaded {α ρ ε : Type} {load : ρ → Except ε α} {stored : α → ρ} {list : List α}
    {value : α → α} (loads : ∀ item ∈ list, load (stored item) = .ok (value item)) :
    (list.map stored).mapM load = .ok (list.map value) := by
  induction list with
  | nil => rfl
  | cons item rest ih =>
      obtain ⟨first, others⟩ := List.forall_mem_cons.mp loads
      rw [List.map_cons, List.mapM_cons, first, ih others]
      rfl

theorem optionRows_filter {id : ProjectId} {field : ProjectField} : ∀ {fields : List ProjectField},
    (fields.map ProjectField.fieldId).Nodup → field ∈ fields →
    (optionRows id fields).filter (fun option => option.fieldId = field.fieldId) =
      field.options.map (optionRow id field.fieldId) := by
  have others {other : ProjectField} (differs : other.fieldId ≠ field.fieldId) :
      (other.options.map (optionRow id other.fieldId)).filter
        (fun option => option.fieldId = field.fieldId) = [] := by
    refine List.filter_eq_nil_iff.mpr fun row member => ?_
    obtain ⟨option, _, rfl⟩ := List.mem_map.mp member
    exact fun same => differs (of_decide_eq_true same)
  have own : (field.options.map (optionRow id field.fieldId)).filter
      (fun option => option.fieldId = field.fieldId) =
        field.options.map (optionRow id field.fieldId) := by
    refine List.filter_eq_self.mpr fun row member => ?_
    obtain ⟨option, _, rfl⟩ := List.mem_map.mp member
    exact decide_eq_true rfl
  intro fields
  induction fields with
  | nil => intro _ member; exact (List.not_mem_nil member).elim
  | cons first rest ih =>
      intro distinct member
      obtain ⟨alone, distinct⟩ := List.nodup_cons.mp distinct
      rw [optionRows, List.flatMap_cons, List.filter_append]
      rcases List.mem_cons.mp member with rfl | later
      · rw [own]
        have none : (optionRows id rest).filter (fun option => option.fieldId = field.fieldId) =
            [] := by
          refine List.filter_eq_nil_iff.mpr fun row member same => ?_
          obtain ⟨other, inRest, inOther⟩ := List.mem_flatMap.mp member
          obtain ⟨option, _, rfl⟩ := List.mem_map.mp inOther
          have sameId : other.fieldId = field.fieldId := of_decide_eq_true same
          exact alone (sameId ▸ List.mem_map_of_mem inRest)
        exact (congrArg _ none).trans (List.append_nil _)
      · rw [others fun same => alone (same ▸ List.mem_map_of_mem later), List.nil_append]
        exact ih distinct later

theorem ordinalToU32_ok {ordinal : Nat} (bounded : ordinal < 2 ^ 32) :
    ordinalToU32 ordinal = .ok ordinal := by
  rw [ordinalToU32, if_pos (by omega)]
  rfl

theorem loadOption_stored {id : ProjectId} {fieldId : String} {option : FieldOption}
    (bounded : option.ordinal < 2 ^ 32) : loadOption (optionRow id fieldId option) = .ok option := by
  rw [loadOption]
  change (ordinalToU32 option.ordinal).bind _ = _
  rw [ordinalToU32_ok bounded]
  rfl

theorem loadField_stored (storable : project.Storable) {saved : ProjectTables} {row : ProjectRow}
    (holds : Holds saved project row) {field : ProjectField} (member : field ∈ project.fields) :
    loadField project.id saved (fieldRow project.id field) = .ok field.byOrdinal := by
  have rows : (saved.options.rows.filter fun option =>
      option.projectId = project.id ∧ option.fieldId = field.fieldId) =
        field.options.map (optionRow project.id field.fieldId) := by
    rw [← optionRows_filter storable.fieldIds member, ← holds.options, List.filter_filter]
    exact List.filter_congr fun option _ => Bool.eq_iff_iff.mpr (by simp [and_comm])
  have loaded : (orderBy OptionRow.ordinal (saved.options.rows.filter fun option =>
      option.projectId = project.id ∧ option.fieldId = field.fieldId)).mapM loadOption =
        .ok (orderBy FieldOption.ordinal field.options) := by
    have ordered : orderBy OptionRow.ordinal
        (field.options.map (optionRow project.id field.fieldId)) =
          (orderBy FieldOption.ordinal field.options).map (optionRow project.id field.fieldId) :=
      orderBy_map _ _ _ fun left right => Int.ofNat_le.symm
    rw [rows, ordered]
    refine (mapM_loaded fun option inOptions => ?_).trans (congrArg _ (List.map_id' _))
    exact loadOption_stored
      (storable.bounded field member option ((mem_orderBy _ _).mp inOptions))
  rw [loadField]
  change (Except.mapError _ (ProjectFieldKind.fromDbStr field.kind.asDbStr)).bind _ = _
  rw [ProjectFieldKind.fromDbStr_asDbStr]
  change (List.mapM loadOption _).bind _ = _
  change (Except.bind ((orderBy OptionRow.ordinal (saved.options.rows.filter fun option =>
      option.projectId = project.id ∧ option.fieldId = field.fieldId)).mapM loadOption) _) = _
  rw [loaded]
  rfl

theorem mappings_empty {kind : ProjectFieldKind} {ρ : Type} {optionOf : ρ → String}
    {mappings : List ρ} (absent : project.fieldOfKind kind = none)
    (owned : ∀ mapping ∈ mappings,
      optionOf mapping ∈ (Project.optionsOfKind kind project.fields).map FieldOption.optionId) :
    mappings = [] := by
  refine List.eq_nil_iff_forall_not_mem.mpr fun mapping member => ?_
  have inOptions := owned mapping member
  rw [optionsOfKind_eq, absent] at inOptions
  exact List.not_mem_nil inOptions

theorem statusRows_eq (storable : project.Storable) :
    ∃ fieldId, statusRows project.toProject =
      project.statusMappings.map (statusMappingRow project.id fieldId) := by
  unfold statusRows Project.statusFieldId Project.statusField
  cases found : project.fieldOfKind .status with
  | some field => exact ⟨field.fieldId, rfl⟩
  | none =>
      refine ⟨"", ?_⟩
      rw [mappings_empty found (Project.validateMappings_ok_iff.mp storable.checked.statuses).1]
      rfl

theorem priorityRows_eq (storable : project.Storable) :
    ∃ fieldId, priorityRows project.toProject =
      project.priorityMappings.map (priorityMappingRow project.id fieldId) := by
  unfold priorityRows Project.priorityFieldId Project.priorityField
  cases found : project.fieldOfKind .priority with
  | some field => exact ⟨field.fieldId, rfl⟩
  | none =>
      refine ⟨"", ?_⟩
      rw [mappings_empty found
        (Project.validatePriorityMappings_ok_iff.mp storable.checked.priorities).1]
      rfl

theorem loadStatuses_stored {fieldId : String} :
    (orderBy (fun mapping => OrderDual.toDual mapping.isOpen)
      (project.statusMappings.map (statusMappingRow project.id fieldId))).map loadStatusMapping =
        project.arranged.statusMappings := by
  have ordered : orderBy (fun mapping => OrderDual.toDual mapping.isOpen)
      (project.statusMappings.map (statusMappingRow project.id fieldId)) =
        project.arranged.statusMappings.map (statusMappingRow project.id fieldId) :=
    orderBy_map _ _ _ fun left right => by
      simp only [statusMappingRow, OrderDual.toDual_le_toDual]
      cases left.isOpen <;> cases right.isOpen <;> decide
  rw [ordered, List.map_map]
  refine List.map_id'' (fun mapping => ?_) _
  cases mapping with
  | mk isOpen optionId => cases isOpen <;> rfl

theorem loadPriorities_stored {fieldId : String} :
    (orderBy PriorityMappingRow.priority
      (project.priorityMappings.map (priorityMappingRow project.id fieldId))).mapM
        loadPriorityMapping = .ok project.arranged.priorityMappings := by
  have ordered : orderBy PriorityMappingRow.priority
      (project.priorityMappings.map (priorityMappingRow project.id fieldId)) =
        project.arranged.priorityMappings.map (priorityMappingRow project.id fieldId) :=
    orderBy_map _ _ _ fun left right => (Priority.dbText_le _ _).symm
  rw [ordered, @mapM_loaded _ _ _ loadPriorityMapping _ _ id fun mapping _ => ?_, List.map_id]
  change (Priority.ofDbText mapping.priority.dbText).bind _ = _
  rw [Priority.ofDbText_dbText]
  rfl

/-- What is loaded from the tables that a save left behind. -/
theorem get_saved (storable : project.Storable) {tables saved : ProjectTables}
    (holds : Holds saved project (savedRow project tables)) :
    saved.get project.id = .ok { project with
      toProject := project.arranged
      createdAt := (savedRow project tables).createdAt } := by
  obtain ⟨statusId, statuses⟩ := statusRows_eq storable
  obtain ⟨priorityId, priorities⟩ := priorityRows_eq storable
  have fields : (orderBy FieldRow.fieldId (saved.fields.rows.filter fun field =>
      field.projectId = project.id)).mapM (loadField project.id saved) =
        .ok project.arranged.fields := by
    have ordered : orderBy FieldRow.fieldId (project.fields.map (fieldRow project.id)) =
        (orderBy ProjectField.fieldId project.fields).map (fieldRow project.id) :=
      orderBy_map _ _ _ fun left right => Iff.rfl
    rw [holds.fields, ordered]
    exact mapM_loaded fun field member =>
      loadField_stored storable holds ((mem_orderBy _ _).mp member)
  have number : numberToU64 project.number = .ok project.number := by
    rw [numberToU64, if_pos (Int.natCast_nonneg _)]
    rfl
  have built : Project.fromFields project.id project.title project.arranged.fields
      project.arranged.statusMappings project.arranged.priorityMappings =
        .ok project.arranged :=
    Project.fromFields_ok_iff.mpr ⟨rfl, arranged_checked storable.checked⟩
  rw [ProjectTables.get, holds.row]
  change rowToProject (savedRow project tables) saved = _
  unfold rowToProject
  change (numberToU64 project.number).bind _ = _
  rw [number]
  change (List.mapM (loadField project.id saved) (orderBy FieldRow.fieldId
    (saved.fields.rows.filter fun field => field.projectId = project.id))).bind _ = _
  rw [fields]
  change (List.mapM loadPriorityMapping (orderBy PriorityMappingRow.priority
    (saved.priorityMappings.rows.filter fun mapping => mapping.projectId = project.id))).bind _ = _
  rw [holds.priorities, priorities, loadPriorities_stored]
  change (Except.mapError _ (ProjectRecord.fromFields project.id project.ownerLogin project.number
    project.title project.arranged.fields ((orderBy (fun mapping => OrderDual.toDual mapping.isOpen)
      (saved.statusMappings.rows.filter fun mapping => mapping.projectId = project.id)).map
        loadStatusMapping) project.arranged.priorityMappings (boolInt project.archived ≠ 0)
          _)).bind _ = _
  rw [holds.statuses, statuses, loadStatuses_stored, ProjectRecord.fromFields, built]
  change Except.ok _ = Except.ok _
  cases project with
  | mk base ownerLogin number archived createdAt updatedAt =>
      cases archived <;> rfl

end Loading

section Answers

/-- The answers of a loaded project. Those that pick one of several equal rows take the first one in
the order of the table: the highest of the priorities that share an option, the option of the least
ordinal among those whose names are the same but for case. -/
structure Project.AnsweredBy (project loaded : Project) : Prop where
  statusField : loaded.statusField = project.statusField.map ProjectField.byOrdinal
  priorityField : loaded.priorityField = project.priorityField.map ProjectField.byOrdinal
  typeField : loaded.typeField = project.typeField.map ProjectField.byOrdinal
  ambiguousType : loaded.hasAmbiguousTypeField = project.hasAmbiguousTypeField
  optionIds : ∀ isOpen, loaded.resolvedOptionIdFor isOpen = project.resolvedOptionIdFor isOpen
  priorityOptionIds : ∀ priority,
    loaded.resolvedPriorityOptionIdFor priority = project.resolvedPriorityOptionIdFor priority
  optionNames : ∀ optionId, loaded.optionNameFor optionId = project.optionNameFor optionId
  priorities : ∀ optionId priority, loaded.priorityForOptionId optionId = some priority ↔
    ⟨priority, optionId⟩ ∈ project.priorityMappings ∧
      ∀ other, ⟨other, optionId⟩ ∈ project.priorityMappings → priority.rank ≤ other.rank
  typeOptionIds : ∀ issueType optionId, loaded.resolvedTypeOptionIdFor issueType = some optionId ↔
    ∃ field option, project.typeField = some field ∧ option ∈ field.options ∧
      eqIgnoreAsciiCase option.name issueType.display = true ∧ option.optionId = optionId ∧
      ∀ other ∈ field.options, eqIgnoreAsciiCase other.name issueType.display = true →
        option.ordinal ≤ other.ordinal

variable {project : Project}

theorem typeField_eq_some {field : ProjectField} :
    project.typeField = some field ↔ Project.ofKind .type project.fields = [field] := by
  unfold Project.typeField Project.ofKind
  split
  · rename_i only found
    rw [found, Option.some_inj, List.singleton_inj]
  · rename_i several
    constructor
    · intro picked
      cases picked
    · intro found
      exact absurd found (several field)

theorem arranged_typeField :
    project.arranged.typeField = project.typeField.map ProjectField.byOrdinal := by
  have perm := arranged_ofKind project .type
  ext field
  rw [typeField_eq_some, Option.map_eq_some_iff]
  constructor
  · intro alone
    rw [alone] at perm
    obtain ⟨only, found, sorted⟩ := List.map_eq_singleton_iff.mp (List.singleton_perm.mp perm).symm
    exact ⟨only, typeField_eq_some.mpr found, sorted⟩
  · rintro ⟨only, picked, rfl⟩
    rw [typeField_eq_some.mp picked] at perm
    exact List.perm_singleton.mp perm

theorem arranged_priorityForOptionId
    (distinct : (project.priorityMappings.map PriorityMapping.priority).Nodup) {optionId : String}
    {priority : Priority} :
    project.arranged.priorityForOptionId optionId = some priority ↔
      ⟨priority, optionId⟩ ∈ project.priorityMappings ∧
        ∀ other, ⟨other, optionId⟩ ∈ project.priorityMappings → priority.rank ≤ other.rank := by
  have ranks : (project.priorityMappings.map fun mapping => mapping.priority.rank).Nodup := by
    have moved : (project.priorityMappings.map fun mapping => mapping.priority.rank) =
        (project.priorityMappings.map PriorityMapping.priority).map Priority.rank := by
      rw [List.map_map]
      rfl
    rw [moved]
    exact distinct.map fun left right same => Priority.rank_inj same
  unfold Project.priorityForOptionId
  rw [Option.map_eq_some_iff]
  constructor
  · rintro ⟨⟨_, _⟩, found, rfl⟩
    obtain ⟨member, same, least⟩ := (find?_orderBy_iff ranks).mp found
    obtain rfl : _ = optionId := of_decide_eq_true same
    exact ⟨member, fun other shares => least ⟨other, _⟩ shares (decide_eq_true rfl)⟩
  · rintro ⟨member, least⟩
    refine ⟨⟨priority, optionId⟩, (find?_orderBy_iff ranks).mpr ⟨member, decide_eq_true rfl, ?_⟩,
      rfl⟩
    rintro ⟨other, _⟩ shares same
    obtain rfl : _ = optionId := of_decide_eq_true same
    exact least other shares

theorem arranged_resolvedTypeOptionIdFor
    (ordinals : ∀ field ∈ project.fields, (field.options.map FieldOption.ordinal).Nodup)
    {issueType : IssueType} {optionId : String} :
    project.arranged.resolvedTypeOptionIdFor issueType = some optionId ↔
      ∃ field option, project.typeField = some field ∧ option ∈ field.options ∧
        eqIgnoreAsciiCase option.name issueType.display = true ∧ option.optionId = optionId ∧
        ∀ other ∈ field.options, eqIgnoreAsciiCase other.name issueType.display = true →
          option.ordinal ≤ other.ordinal := by
  unfold Project.resolvedTypeOptionIdFor
  rw [arranged_typeField]
  cases found : project.typeField with
  | none =>
      refine iff_of_false (fun some => by cases some) ?_
      rintro ⟨field, _, some, _⟩
      cases some
  | some field =>
      have typed : field ∈ Project.ofKind .type project.fields := by
        rw [typeField_eq_some.mp found]
        exact List.mem_singleton_self field
      have apart := ordinals field (List.mem_filter.mp typed).1
      change (((orderBy FieldOption.ordinal field.options).find? fun option =>
        eqIgnoreAsciiCase option.name issueType.display).bind fun option =>
          some option.optionId) = some optionId ↔ _
      rw [Option.bind_eq_some_iff]
      constructor
      · rintro ⟨option, first, same⟩
        obtain ⟨inField, named, least⟩ := (find?_orderBy_iff apart).mp first
        exact ⟨field, option, rfl, inField, named, Option.some.inj same, least⟩
      · rintro ⟨_, option, same, inField, named, rfl, least⟩
        obtain rfl := Option.some.inj same
        exact ⟨option, (find?_orderBy_iff apart).mpr ⟨inField, named, least⟩, rfl⟩

theorem arranged_optionNameFor (short : (Project.ofKind .status project.fields).length ≤ 1)
    (optionIds : ∀ field ∈ project.fields, (field.options.map FieldOption.optionId).Nodup)
    (optionId : String) :
    project.arranged.optionNameFor optionId = project.optionNameFor optionId := by
  unfold Project.optionNameFor Project.statusOptions Project.statusField
  rw [arranged_fieldOfKind short]
  cases found : project.fieldOfKind .status with
  | none => rfl
  | some field =>
      have distinct := optionIds field (List.mem_of_find?_eq_some found)
      exact congrArg (Option.map _) (find?_perm_key (orderBy_perm _ field.options) distinct
        optionId)

theorem arranged_answers
    (checked : Project.Checked project.fields project.statusMappings project.priorityMappings)
    (optionIds : ∀ field ∈ project.fields, (field.options.map FieldOption.optionId).Nodup)
    (ordinals : ∀ field ∈ project.fields, (field.options.map FieldOption.ordinal).Nodup) :
    project.AnsweredBy project.arranged := by
  have statusDistinct := (Project.validateMappings_ok_iff.mp checked.statuses).2
  have priorityDistinct := (Project.validatePriorityMappings_ok_iff.mp checked.priorities).2
  constructor
  · exact arranged_fieldOfKind checked.oneStatus
  · exact arranged_fieldOfKind checked.onePriority
  · exact arranged_typeField
  · exact congrArg (fun count => decide (1 < count)) (arranged_ofKind_length project .type)
  · intro isOpen
    exact congrArg (Option.map _) (find?_perm_key (orderBy_perm _ project.statusMappings)
      statusDistinct isOpen)
  · intro priority
    exact congrArg (Option.map _) (find?_perm_key (orderBy_perm _ project.priorityMappings)
      priorityDistinct priority)
  · exact arranged_optionNameFor checked.oneStatus optionIds
  · exact fun optionId priority => arranged_priorityForOptionId priorityDistinct
  · exact fun issueType optionId => arranged_resolvedTypeOptionIdFor ordinals

end Answers

/-- Saved over whatever the tables held and loaded, a project is the same up to the order of its
parts and the time at which it was first saved. -/
theorem project_roundTrip (project : ProjectRecord) (storable : project.Storable)
    (tables : ProjectTables) :
    ∃ saved loaded, tables.save project = .ok saved ∧ saved.get project.id = .ok loaded ∧
      loaded = { project with
        toProject := project.arranged
        createdAt := ((tables.projects.find project.id).map ProjectRow.createdAt).getD
          project.createdAt } ∧
      project.AnsweredBy loaded.toProject ∧
      (∀ optionId, (∀ left ∈ project.priorityMappings, ∀ right ∈ project.priorityMappings,
          left.optionId = optionId → right.optionId = optionId → left = right) →
        loaded.priorityForOptionId optionId = project.priorityForOptionId optionId) ∧
      ∀ issueType, (∀ field, project.typeField = some field →
          ∀ left ∈ field.options, ∀ right ∈ field.options,
            eqIgnoreAsciiCase left.name issueType.display = true →
            eqIgnoreAsciiCase right.name issueType.display = true → left = right) →
        loaded.resolvedTypeOptionIdFor issueType = project.resolvedTypeOptionIdFor issueType := by
  obtain ⟨saved, ran, holds⟩ := save_ok storable tables
  refine ⟨saved, _, ran, get_saved storable holds, rfl,
    arranged_answers storable.checked storable.optionIds storable.ordinals,
    fun optionId alone => ?_, fun issueType alone => ?_⟩
  · exact congrArg (Option.map _) (find?_perm (orderBy_perm _ project.priorityMappings)
      fun one first other second same also => alone one first other second
        (of_decide_eq_true same) (of_decide_eq_true also))
  · change project.arranged.resolvedTypeOptionIdFor issueType = _
    unfold Project.resolvedTypeOptionIdFor
    rw [arranged_typeField]
    cases found : project.typeField with
    | none => rfl
    | some field =>
        change ((orderBy FieldOption.ordinal field.options).find? _).bind _ =
          (field.options.find? _).bind _
        rw [find?_perm (orderBy_perm _ field.options) (alone field found)]

section Deviations

def sharedBoard : ProjectRecord where
  id := ⟨"PVT_1"⟩
  title := "Board"
  fields := [⟨"F2", "Types", .type, [⟨"t1", "Bug", 1⟩, ⟨"t0", "bug", 0⟩]⟩,
    ⟨"F1", "Status", .status, [⟨"s0", "Todo", 0⟩]⟩, ⟨"F0", "Priority", .priority, [⟨"o0", "Top", 0⟩]⟩]
  statusMappings := [⟨true, "s0"⟩]
  priorityMappings := [⟨.p1, "o0"⟩, ⟨.p0, "o0"⟩]
  ownerLogin := "ann"
  number := 1
  archived := false
  createdAt := ⟨2⟩
  updatedAt := ⟨2⟩

theorem sharedBoard_storable : sharedBoard.Storable where
  checked := ⟨by decide, fun _ => by decide, rfl, by decide, rfl⟩
  number := by decide
  fieldIds := by decide
  optionIds := by decide
  ordinals := by decide
  bounded := by decide

theorem ProjectRecord.Storable.created {project : ProjectRecord} (storable : project.Storable)
    (createdAt : Timestamp) : { project with createdAt := createdAt }.Storable :=
  ⟨storable.checked, storable.number, storable.fieldIds, storable.optionIds, storable.ordinals,
    storable.bounded⟩

/-- The earlier version was created at another time. -/
theorem project_roundTrip_deviates :
    ∃ earlier saved loaded, ProjectTables.empty.save { sharedBoard with createdAt := ⟨1⟩ } =
        .ok earlier ∧
      earlier.save sharedBoard = .ok saved ∧ saved.get sharedBoard.id = .ok loaded ∧
      loaded.createdAt ≠ sharedBoard.createdAt ∧
      loaded.priorityForOptionId "o0" ≠ sharedBoard.priorityForOptionId "o0" ∧
      loaded.resolvedTypeOptionIdFor .bug ≠ sharedBoard.resolvedTypeOptionIdFor .bug := by
  obtain ⟨earlier, first, held⟩ := save_ok (sharedBoard_storable.created ⟨1⟩) ProjectTables.empty
  obtain ⟨saved, second, holds⟩ := save_ok sharedBoard_storable earlier
  refine ⟨earlier, saved, _, first, second, get_saved sharedBoard_storable holds, ?_, ?_, ?_⟩
  · have row : earlier.projects.find sharedBoard.id = _ := held.row
    change ((earlier.projects.find sharedBoard.id).map ProjectRow.createdAt).getD _ ≠ _
    rw [row]
    decide
  · change sharedBoard.arranged.priorityForOptionId "o0" ≠ _
    decide
  · change sharedBoard.arranged.resolvedTypeOptionIdFor .bug ≠ _
    decide

def earlierBoard : ProjectRecord :=
  { sharedBoard with
    title := "Old board"
    fields := [⟨"F9", "Done", .status, [⟨"s9", "Done", 0⟩, ⟨"s0", "Todo", 1⟩]⟩,
      ⟨"F0", "Priority", .priority, [⟨"o0", "Top", 0⟩, ⟨"o9", "Low", 1⟩]⟩]
    statusMappings := [⟨false, "s9"⟩]
    priorityMappings := [⟨.p3, "o9"⟩]
    createdAt := ⟨1⟩ }

theorem earlierBoard_storable : earlierBoard.Storable where
  checked := ⟨by decide, fun _ => by decide, rfl, by decide, rfl⟩
  number := by decide
  fieldIds := by decide
  optionIds := by decide
  ordinals := by decide
  bounded := by decide

theorem project_roundTrip_sharedBoard :
    ∃ earlier saved loaded, ProjectTables.empty.save earlierBoard = .ok earlier ∧
      earlier.save sharedBoard = .ok saved ∧ saved.get sharedBoard.id = .ok loaded ∧
      loaded = { sharedBoard with toProject := sharedBoard.arranged, createdAt := ⟨1⟩ } := by
  obtain ⟨earlier, first, held⟩ := save_ok earlierBoard_storable ProjectTables.empty
  obtain ⟨saved, loaded, ran, got, same, _⟩ :=
    project_roundTrip sharedBoard sharedBoard_storable earlier
  have row : earlier.projects.find sharedBoard.id = _ := held.row
  rw [row] at same
  exact ⟨earlier, saved, loaded, first, ran, got, same⟩

end Deviations

end RepoLink
