import Mathlib.Algebra.Order.Ring.Int
import Mathlib.Data.String.Basic
import RepoLink.Domain.Board
import RepoLink.Library.Ordered
import RepoLink.Store.CommentTable

/-!
`SqliteProjectRepository`: a project in its row and four child tables. `save` updates the row and
replaces the children in one transaction; `get` reads them back, each table in an order of its own,
and runs them through the checks of the constructor again.
-/

namespace RepoLink

open KeyedTable Ordered

def ProjectFieldKind.asDbStr : ProjectFieldKind → String
  | .status => "status"
  | .priority => "priority"
  | .type => "type"
  | .other => "other"

def ProjectFieldKind.fromDbStr (text : String) : Except DomainError ProjectFieldKind :=
  if text = "status" then .ok .status
  else if text = "priority" then .ok .priority
  else if text = "type" then .ok .type
  else if text = "other" then .ok .other
  else .error (.validation ("unknown project field kind '" ++ text ++ "'"))

@[simp] theorem ProjectFieldKind.fromDbStr_asDbStr (kind : ProjectFieldKind) :
    fromDbStr kind.asDbStr = .ok kind := by
  cases kind <;> rfl

def Priority.dbText : Priority → String
  | .p0 => "p0"
  | .p1 => "p1"
  | .p2 => "p2"
  | .p3 => "p3"

/-- `enum_from_str`, less what serde says in its error. -/
def Priority.ofDbText (text : String) : Except PortError Priority :=
  if text = "p0" then .ok .p0
  else if text = "p1" then .ok .p1
  else if text = "p2" then .ok .p2
  else if text = "p3" then .ok .p3
  else .error (.backend ("decode priority=" ++ text.quote))

@[simp] theorem Priority.ofDbText_dbText (priority : Priority) :
    ofDbText priority.dbText = .ok priority := by
  cases priority <;> rfl

theorem Priority.dbText_le (left right : Priority) :
    left.dbText ≤ right.dbText ↔ left.rank ≤ right.rank := by
  cases left <;> cases right <;> decide

structure ProjectRow where
  id : ProjectId
  ownerLogin : String
  number : Int
  title : String
  archived : Int
  createdAt : Timestamp
  updatedAt : Timestamp
deriving DecidableEq, Repr

structure FieldRow where
  projectId : ProjectId
  fieldId : String
  name : String
  kind : String
deriving DecidableEq, Repr

structure OptionRow where
  projectId : ProjectId
  fieldId : String
  optionId : String
  name : String
  ordinal : Int
deriving DecidableEq, Repr

structure StatusMappingRow where
  projectId : ProjectId
  fieldId : String
  isOpen : Int
  optionId : String
deriving DecidableEq, Repr

structure PriorityMappingRow where
  projectId : ProjectId
  fieldId : String
  priority : String
  optionId : String
deriving DecidableEq, Repr

abbrev FieldRow.key (row : FieldRow) : ProjectId × String := (row.projectId, row.fieldId)

abbrev OptionRow.key (row : OptionRow) : ProjectId × String × String :=
  (row.projectId, row.fieldId, row.optionId)

abbrev StatusMappingRow.key (row : StatusMappingRow) : ProjectId × Int :=
  (row.projectId, row.isOpen)

abbrev PriorityMappingRow.key (row : PriorityMappingRow) : ProjectId × String :=
  (row.projectId, row.priority)

structure ProjectTables where
  projects : Table ProjectRow.id
  fields : Table FieldRow.key
  options : Table OptionRow.key
  statusMappings : Table StatusMappingRow.key
  priorityMappings : Table PriorityMappingRow.key
deriving DecidableEq

namespace ProjectTables

def empty : ProjectTables := ⟨.empty, .empty, .empty, .empty, .empty⟩

section Save

def boolInt (flag : Bool) : Int := if flag then 1 else 0

def numberToI64 (number : Nat) : Except PortError Int :=
  if number < 2 ^ 63 then .ok number
  else .error (.backend
    "project.number overflow: out of range integral type conversion attempted")

/-- `INSERT .. ON CONFLICT(id) DO UPDATE`, which leaves `created_at` as it is. -/
def upsertProject (row : ProjectRow) (tables : ProjectTables) : ProjectTables :=
  { tables with
    projects := tables.projects.upsert row
      (fun stored => { row with id := stored.id, createdAt := stored.createdAt }) fun _ same => same }

/-- The four deletes. They go child first, so that nothing is left for `ON DELETE CASCADE`. -/
def clearChildren (id : ProjectId) (tables : ProjectTables) : ProjectTables :=
  { tables with
    statusMappings := tables.statusMappings.filter fun row => row.projectId ≠ id
    priorityMappings := tables.priorityMappings.filter fun row => row.projectId ≠ id
    options := tables.options.filter fun row => row.projectId ≠ id
    fields := tables.fields.filter fun row => row.projectId ≠ id }

def references (present : Prop) [Decidable present] : Except PortError Unit :=
  if present then .ok () else .error foreignKeyViolation

def fieldRow (id : ProjectId) (field : ProjectField) : FieldRow :=
  ⟨id, field.fieldId, field.name, field.kind.asDbStr⟩

def optionRow (id : ProjectId) (fieldId : String) (option : FieldOption) : OptionRow :=
  ⟨id, fieldId, option.optionId, option.name, option.ordinal⟩

def statusMappingRow (id : ProjectId) (fieldId : String) (mapping : StatusMapping) :
    StatusMappingRow :=
  ⟨id, fieldId, boolInt mapping.isOpen, mapping.optionId⟩

def priorityMappingRow (id : ProjectId) (fieldId : String) (mapping : PriorityMapping) :
    PriorityMappingRow :=
  ⟨id, fieldId, mapping.priority.dbText, mapping.optionId⟩

def insertField (id : ProjectId) (tables : ProjectTables) (field : ProjectField) :
    Except PortError ProjectTables := do
  let fields ← tables.fields.insertEach
    (uniqueViolation "project_fields.project_id, project_fields.field_id")
    (fun row => references (row.projectId ∈ tables.projects.rows.map ProjectRow.id))
    [fieldRow id field]
  let options ← tables.options.insertEach
    (uniqueViolation ("project_field_options.project_id, project_field_options.field_id, " ++
      "project_field_options.option_id"))
    (fun row => references ((row.projectId, row.fieldId) ∈ fields.rows.map FieldRow.key))
    (field.options.map (optionRow id field.fieldId))
  return { tables with fields, options }

def insertStatusMappings (project : Project) (tables : ProjectTables) :
    Except PortError ProjectTables :=
  match project.statusFieldId with
  | none => .ok tables
  | some fieldId => do
    let statusMappings ← tables.statusMappings.insertEach
      (uniqueViolation "project_status_mappings.project_id, project_status_mappings.is_open")
      (fun row => references
        ((row.projectId, row.fieldId, row.optionId) ∈ tables.options.rows.map OptionRow.key))
      (project.statusMappings.map (statusMappingRow project.id fieldId))
    return { tables with statusMappings }

def insertPriorityMappings (project : Project) (tables : ProjectTables) :
    Except PortError ProjectTables :=
  match project.priorityFieldId with
  | none => .ok tables
  | some fieldId => do
    let priorityMappings ← tables.priorityMappings.insertEach
      (uniqueViolation
        "project_priority_mappings.project_id, project_priority_mappings.priority")
      (fun row => references
        ((row.projectId, row.fieldId, row.optionId) ∈ tables.options.rows.map OptionRow.key))
      (project.priorityMappings.map (priorityMappingRow project.id fieldId))
    return { tables with priorityMappings }

def save (project : ProjectRecord) (tables : ProjectTables) : Except PortError ProjectTables := do
  let number ← numberToI64 project.number
  let upserted := tables.upsertProject ⟨project.id, project.ownerLogin, number, project.title,
    boolInt project.archived, project.createdAt, project.updatedAt⟩
  let tables ← project.fields.foldlM (insertField project.id) (upserted.clearChildren project.id)
  let tables ← tables.insertStatusMappings project.toProject
  tables.insertPriorityMappings project.toProject

end Save

section Load

def numberToU64 (number : Int) : Except PortError Nat :=
  if 0 ≤ number then .ok number.toNat
  else .error (.backend
    "project.number overflow on load: out of range integral type conversion attempted")

def ordinalToU32 (ordinal : Int) : Except PortError Nat :=
  if 0 ≤ ordinal ∧ ordinal < 2 ^ 32 then .ok ordinal.toNat
  else .error (.backend "ordinal overflow: out of range integral type conversion attempted")

def loadOption (row : OptionRow) : Except PortError FieldOption := do
  let ordinal ← ordinalToU32 row.ordinal
  return ⟨row.optionId, row.name, ordinal⟩

def loadField (id : ProjectId) (tables : ProjectTables) (row : FieldRow) :
    Except PortError ProjectField := do
  let kind ← (ProjectFieldKind.fromDbStr row.kind).mapError fun error =>
    .backend ("decode project field kind: " ++ error.message)
  let options ← (orderBy OptionRow.ordinal (tables.options.rows.filter fun option =>
    option.projectId = id ∧ option.fieldId = row.fieldId)).mapM loadOption
  return ⟨row.fieldId, row.name, kind, options⟩

def loadStatusMapping (row : StatusMappingRow) : StatusMapping :=
  ⟨row.isOpen ≠ 0, row.optionId⟩

def loadPriorityMapping (row : PriorityMappingRow) : Except PortError PriorityMapping := do
  let priority ← Priority.ofDbText row.priority
  return ⟨priority, row.optionId⟩

def rowToProject (row : ProjectRow) (tables : ProjectTables) : Except PortError ProjectRecord := do
  let number ← numberToU64 row.number
  let fields ← (orderBy FieldRow.fieldId (tables.fields.rows.filter fun field =>
    field.projectId = row.id)).mapM (loadField row.id tables)
  let statusMappings := (orderBy (fun mapping => OrderDual.toDual mapping.isOpen)
    (tables.statusMappings.rows.filter fun mapping => mapping.projectId = row.id)).map
      loadStatusMapping
  let priorityMappings ← (orderBy PriorityMappingRow.priority
    (tables.priorityMappings.rows.filter fun mapping => mapping.projectId = row.id)).mapM
      loadPriorityMapping
  let project ← (ProjectRecord.fromFields row.id row.ownerLogin number row.title fields
    statusMappings priorityMappings (row.archived ≠ 0) row.createdAt).mapError fun error =>
      .backend ("decode project: " ++ error.message)
  return { project with createdAt := row.createdAt, updatedAt := row.updatedAt }

def get (id : ProjectId) (tables : ProjectTables) : Except PortError ProjectRecord :=
  match tables.projects.find id with
  | none => .error (.notFound ("project " ++ id.value))
  | some row => tables.rowToProject row

end Load

section Saved

structure Gains (tables gained : ProjectTables) (fields : List FieldRow)
    (options : List OptionRow) : Prop where
  projects : gained.projects = tables.projects
  fields : gained.fields.rows = tables.fields.rows ++ fields
  options : gained.options.rows = tables.options.rows ++ options
  statusMappings : gained.statusMappings = tables.statusMappings
  priorityMappings : gained.priorityMappings = tables.priorityMappings

theorem references_ok {present : Prop} [Decidable present] (holds : present) :
    references present = .ok () := if_pos holds

theorem insertField_ok {id : ProjectId} {field : ProjectField} {tables : ProjectTables}
    (owner : id ∈ tables.projects.rows.map ProjectRow.id)
    (freshField : ∀ row ∈ tables.fields.rows, row.projectId = id → row.fieldId ≠ field.fieldId)
    (freshOptions : ∀ row ∈ tables.options.rows, row.projectId = id → row.fieldId ≠ field.fieldId)
    (apart : (field.options.map FieldOption.optionId).Nodup) :
    ∃ gained, insertField id tables field = .ok gained ∧
      Gains tables gained [fieldRow id field] (field.options.map (optionRow id field.fieldId)) := by
  obtain ⟨fields, fieldRan, fieldRows⟩ := @Table.insertEach_ok _ _ FieldRow.key _ _
    (uniqueViolation "project_fields.project_id, project_fields.field_id")
    (fun row => references (row.projectId ∈ tables.projects.rows.map ProjectRow.id))
    [fieldRow id field] tables.fields
    (List.forall_mem_singleton.mpr (references_ok owner)) (List.nodup_singleton _)
    (List.forall_mem_singleton.mpr fun taken => by
      obtain ⟨row, member, same⟩ := List.mem_map.mp taken
      obtain ⟨sameProject, sameField⟩ := Prod.ext_iff.mp same
      exact freshField row member sameProject sameField)
  obtain ⟨options, optionsRan, optionRows⟩ := @Table.insertEach_map_ok _ _ OptionRow.key _ _ _ _
    (uniqueViolation ("project_field_options.project_id, project_field_options.field_id, " ++
      "project_field_options.option_id"))
    (fun row => references ((row.projectId, row.fieldId) ∈ fields.rows.map FieldRow.key))
    (optionRow id field.fieldId) _ field.options tables.options
    (fun option _ => references_ok (List.mem_map.mpr ⟨fieldRow id field, by
      rw [fieldRows]
      exact List.mem_append_right _ List.mem_cons_self, rfl⟩))
    (fun same => (Prod.ext_iff.mp (Prod.ext_iff.mp same).2).2) apart
    (by
      intro stored member option _ same
      obtain ⟨sameProject, sameRest⟩ := Prod.ext_iff.mp same
      exact freshOptions stored member sameProject (Prod.ext_iff.mp sameRest).1)
  refine ⟨{ tables with fields, options }, ?_, rfl, fieldRows, optionRows, rfl, rfl⟩
  rw [insertField, fieldRan]
  change (Table.insertEach _ _ _ tables.options).bind _ = _
  rw [optionsRan]
  rfl

def optionRows (id : ProjectId) (fields : List ProjectField) : List OptionRow :=
  fields.flatMap fun field => field.options.map (optionRow id field.fieldId)

theorem insertFields_ok {id : ProjectId} : ∀ {fields : List ProjectField} {tables : ProjectTables},
    id ∈ tables.projects.rows.map ProjectRow.id → (fields.map ProjectField.fieldId).Nodup →
    (∀ field ∈ fields, (field.options.map FieldOption.optionId).Nodup) →
    (∀ row ∈ tables.fields.rows, row.projectId = id →
      row.fieldId ∉ fields.map ProjectField.fieldId) →
    (∀ row ∈ tables.options.rows, row.projectId = id →
      row.fieldId ∉ fields.map ProjectField.fieldId) →
    ∃ gained, fields.foldlM (insertField id) tables = .ok gained ∧
      Gains tables gained (fields.map (fieldRow id)) (optionRows id fields) := by
  intro fields
  induction fields with
  | nil =>
      intro tables _ _ _ _ _
      exact ⟨tables, rfl, rfl, (List.append_nil _).symm, (List.append_nil _).symm, rfl, rfl⟩
  | cons field rest ih =>
      intro tables owner distinct apart freshFields freshOptions
      obtain ⟨alone, distinct⟩ := List.nodup_cons.mp distinct
      obtain ⟨first, apart⟩ := List.forall_mem_cons.mp apart
      obtain ⟨middle, ran, gains⟩ := insertField_ok owner
        (fun row member same inField => freshFields row member same
          (by rw [inField]; exact List.mem_cons_self))
        (fun row member same inField => freshOptions row member same
          (by rw [inField]; exact List.mem_cons_self)) first
      obtain ⟨gained, rests, later⟩ := @ih middle (by rw [gains.projects]; exact owner) distinct apart
        (by
          intro row member same inRest
          rw [gains.fields] at member
          rcases List.mem_append.mp member with old | new
          · exact freshFields row old same (List.mem_cons_of_mem _ inRest)
          · rw [List.mem_singleton.mp new] at inRest
            exact alone inRest)
        (by
          intro row member same inRest
          rw [gains.options] at member
          rcases List.mem_append.mp member with old | new
          · exact freshOptions row old same (List.mem_cons_of_mem _ inRest)
          · obtain ⟨option, _, rfl⟩ := List.mem_map.mp new
            exact alone inRest)
      refine ⟨gained, ?_, later.projects.trans gains.projects, ?_, ?_,
        later.statusMappings.trans gains.statusMappings,
        later.priorityMappings.trans gains.priorityMappings⟩
      · rw [List.foldlM_cons, ran]
        exact rests
      · rw [later.fields, gains.fields, List.append_assoc, List.map_cons, List.singleton_append]
      · rw [later.options, gains.options, List.append_assoc, optionRows, optionRows,
          List.flatMap_cons]

def statusRows (project : Project) : List StatusMappingRow :=
  match project.statusFieldId with
  | none => []
  | some fieldId => project.statusMappings.map (statusMappingRow project.id fieldId)

def priorityRows (project : Project) : List PriorityMappingRow :=
  match project.priorityFieldId with
  | none => []
  | some fieldId => project.priorityMappings.map (priorityMappingRow project.id fieldId)

theorem mem_statusRows {project : Project} {row : StatusMappingRow}
    (member : row ∈ statusRows project) :
    ∃ field, project.fieldOfKind .status = some field ∧
      ∃ mapping ∈ project.statusMappings,
        statusMappingRow project.id field.fieldId mapping = row := by
  unfold statusRows Project.statusFieldId Project.statusField at member
  cases found : project.fieldOfKind .status with
  | none =>
      rw [found] at member
      exact (List.not_mem_nil member).elim
  | some field =>
      rw [found] at member
      exact ⟨field, rfl, List.mem_map.mp member⟩

theorem mem_priorityRows {project : Project} {row : PriorityMappingRow}
    (member : row ∈ priorityRows project) :
    ∃ field, project.fieldOfKind .priority = some field ∧
      ∃ mapping ∈ project.priorityMappings,
        priorityMappingRow project.id field.fieldId mapping = row := by
  unfold priorityRows Project.priorityFieldId Project.priorityField at member
  cases found : project.fieldOfKind .priority with
  | none =>
      rw [found] at member
      exact (List.not_mem_nil member).elim
  | some field =>
      rw [found] at member
      exact ⟨field, rfl, List.mem_map.mp member⟩

theorem boolInt_inj {left right : Bool} (same : boolInt left = boolInt right) : left = right := by
  cases left <;> cases right <;> first | rfl | cases same

theorem dbText_inj {left right : Priority} (same : left.dbText = right.dbText) : left = right :=
  Priority.rank_inj (Nat.le_antisymm ((Priority.dbText_le left right).mp (same ▸ le_rfl))
    ((Priority.dbText_le right left).mp (same ▸ le_rfl)))

theorem insertStatusMappings_ok {project : Project} {tables : ProjectTables}
    (distinct : (project.statusMappings.map StatusMapping.isOpen).Nodup)
    (owned : ∀ row ∈ statusRows project,
      (row.projectId, row.fieldId, row.optionId) ∈ tables.options.rows.map OptionRow.key)
    (fresh : ∀ row ∈ tables.statusMappings.rows, row.projectId ≠ project.id) :
    ∃ gained, insertStatusMappings project tables = .ok gained ∧
      gained = { tables with statusMappings := gained.statusMappings } ∧
      gained.statusMappings.rows = tables.statusMappings.rows ++ statusRows project := by
  unfold insertStatusMappings
  unfold statusRows at owned ⊢
  cases statusId : project.statusFieldId with
  | none => exact ⟨tables, rfl, rfl, (List.append_nil _).symm⟩
  | some fieldId =>
      rw [statusId] at owned
      obtain ⟨statusMappings, ran, rows⟩ :=
        @Table.insertEach_map_ok _ _ StatusMappingRow.key _ _ _ _
        (uniqueViolation "project_status_mappings.project_id, project_status_mappings.is_open")
        (fun row => references
          ((row.projectId, row.fieldId, row.optionId) ∈ tables.options.rows.map OptionRow.key))
        (statusMappingRow project.id fieldId) _ project.statusMappings tables.statusMappings
        (List.forall_mem_map.mp fun row member => references_ok (owned row member))
        (fun same => boolInt_inj (Prod.ext_iff.mp same).2) distinct
        (fun stored member _ _ same => fresh stored member (Prod.ext_iff.mp same).1)
      refine ⟨{ tables with statusMappings }, ?_, rfl, rows⟩
      dsimp only
      rw [ran]
      rfl

theorem insertPriorityMappings_ok {project : Project} {tables : ProjectTables}
    (distinct : (project.priorityMappings.map PriorityMapping.priority).Nodup)
    (owned : ∀ row ∈ priorityRows project,
      (row.projectId, row.fieldId, row.optionId) ∈ tables.options.rows.map OptionRow.key)
    (fresh : ∀ row ∈ tables.priorityMappings.rows, row.projectId ≠ project.id) :
    ∃ gained, insertPriorityMappings project tables = .ok gained ∧
      gained = { tables with priorityMappings := gained.priorityMappings } ∧
      gained.priorityMappings.rows = tables.priorityMappings.rows ++ priorityRows project := by
  unfold insertPriorityMappings
  unfold priorityRows at owned ⊢
  cases priorityId : project.priorityFieldId with
  | none => exact ⟨tables, rfl, rfl, (List.append_nil _).symm⟩
  | some fieldId =>
      rw [priorityId] at owned
      obtain ⟨priorityMappings, ran, rows⟩ :=
        @Table.insertEach_map_ok _ _ PriorityMappingRow.key _ _ _ _
        (uniqueViolation
          "project_priority_mappings.project_id, project_priority_mappings.priority")
        (fun row => references
          ((row.projectId, row.fieldId, row.optionId) ∈ tables.options.rows.map OptionRow.key))
        (priorityMappingRow project.id fieldId) _ project.priorityMappings tables.priorityMappings
        (List.forall_mem_map.mp fun row member => references_ok (owned row member))
        (fun same => dbText_inj (Prod.ext_iff.mp same).2) distinct
        (fun stored member _ _ same => fresh stored member (Prod.ext_iff.mp same).1)
      refine ⟨{ tables with priorityMappings }, ?_, rfl, rows⟩
      dsimp only
      rw [ran]
      rfl

end Saved

end ProjectTables

end RepoLink
