import RepoLink.ProjectService.Link
import RepoLink.Properties.ProjectRoundTrip

/-!
What linking derives passes the checks of the constructor: one field becomes the Status field, and
the mappings point at options of their field, one for each key.
-/

namespace RepoLink

open Project

section Fields

variable {fields : List ProjectField}

def besidesStatus (fields : List ProjectField) : List ProjectField :=
  match statusIndex fields with
  | none => fields
  | some index => fields.eraseIdx index

theorem ofKind_plain_status (plain : List ProjectField) :
    ofKind .status (plain.map ProjectField.plain) = [] := by
  refine List.filter_eq_nil_iff.mpr fun field member => ?_
  obtain ⟨other, _, rfl⟩ := List.mem_map.mp member
  exact fun same => plain_kind_ne other (of_decide_eq_true same)

theorem ofKind_plain_priority (plain : List ProjectField) :
    (ofKind .priority (plain.map ProjectField.plain)).length =
      plain.countP fun field => field.name = "Priority" := by
  rw [ofKind, ← List.countP_eq_length_filter, List.countP_map]
  exact List.countP_congr fun field _ => by
    simpa using plain_kind_priority field

theorem assigned_kinds (filled : fields ≠ []) :
    (∃ status, ofKind .status (assignFieldKinds fields) = [status]) ∧
      (ofKind .priority (assignFieldKinds fields)).length =
        (besidesStatus fields).countP fun field => field.name = "Priority" := by
  obtain ⟨before, field, after, parts, index, assigned⟩ := assignFieldKinds_split filled
  rw [assigned]
  let status : ProjectField := { field with kind := .status }
  have same : status.kind = .status := rfl
  have other : status.kind ≠ .priority := by
    rw [same]
    decide
  constructor
  · refine ⟨status, ?_⟩
    rw [ofKind_append, ofKind_cons_same same, ofKind_plain_status, ofKind_plain_status,
      List.nil_append]
  · have besides : besidesStatus fields = before ++ after := by
      rw [besidesStatus, index, parts]
      simp [List.eraseIdx_append_of_length_le]
    rw [ofKind_append, ofKind_cons_other other, besides, List.length_append, List.countP_append,
      ofKind_plain_priority, ofKind_plain_priority]

end Fields

/-- A snapshot with a field, and with at most one Priority field besides the Status field, is linked
unless its id is no project id or the store refuses its rows. -/
theorem linkFromSnapshot_derives (lowercase : Char → List Char) (now : Timestamp)
    (snapshot : RemoteProjectSnapshot) (filled : snapshot.fields ≠ [])
    (onePriority : ((besidesStatus snapshot.projectFields).countP fun field =>
      field.name = "Priority") ≤ 1) :
    ∃ status, (assignFieldKinds snapshot.projectFields).find? (fun field => field.kind = .status) =
        some status ∧
      Checked (assignFieldKinds snapshot.projectFields)
        (deriveStatusMappings lowercase status.options)
        (snapshot.priorityPlan (assignFieldKinds snapshot.projectFields)).1 ∧
      ∀ id tables, ProjectId.parse snapshot.nodeId = .ok id → ∃ outcome,
        snapshot.linked lowercase now id = .ok outcome ∧
        outcome.project.toProject = ⟨id, snapshot.title, assignFieldKinds snapshot.projectFields,
          deriveStatusMappings lowercase status.options,
          (snapshot.priorityPlan (assignFieldKinds snapshot.projectFields)).1⟩ ∧
        linkFromSnapshot lowercase now snapshot tables =
          ((tables.save outcome.project).mapError .port).map fun saved => (outcome, saved) := by
  have some : snapshot.projectFields ≠ [] := fun empty => filled (List.map_eq_nil_iff.mp empty)
  obtain ⟨⟨status, alone⟩, priorities⟩ := assigned_kinds some
  have found : (assignFieldKinds snapshot.projectFields).find? (fun field => field.kind = .status) =
      Option.some status := by
    rw [find?_ofKind, alone]
    rfl
  have checked : Checked (assignFieldKinds snapshot.projectFields)
      (deriveStatusMappings lowercase status.options)
      (snapshot.priorityPlan (assignFieldKinds snapshot.projectFields)).1 := by
    refine ⟨by rw [alone, List.length_singleton], fun _ => by rw [alone]; exact List.cons_ne_nil _ _,
      ?_, by rw [priorities]; exact onePriority, ?_⟩
    · rw [optionsOfKind, found]
      exact deriveStatusMappings_valid lowercase status.options
    · unfold RemoteProjectSnapshot.priorityPlan optionsOfKind
      cases (assignFieldKinds snapshot.projectFields).find? fun field => field.kind = .priority with
      | none => rfl
      | some field => exact derivePriorityMappings_valid field.options
  refine ⟨status, found, checked, fun id tables parsed => ?_⟩
  have built : Project.fromFields id snapshot.title _ _ _ = .ok _ :=
    fromFields_ok_iff.mpr ⟨rfl, checked⟩
  let outcome : LinkOutcome :=
    { project :=
        { id, title := snapshot.title, fields := assignFieldKinds snapshot.projectFields
          statusMappings := deriveStatusMappings lowercase status.options
          priorityMappings := (snapshot.priorityPlan (assignFieldKinds snapshot.projectFields)).1
          ownerLogin := snapshot.ownerLogin, number := snapshot.number, archived := false
          createdAt := now, updatedAt := now }
      advisories := (snapshot.priorityPlan (assignFieldKinds snapshot.projectFields)).2 }
  have linked : snapshot.linked lowercase now id = .ok outcome := by
    unfold RemoteProjectSnapshot.linked ProjectRecord.fromFields
    dsimp only
    rw [found]
    dsimp only
    rw [built]
    rfl
  refine ⟨outcome, linked, rfl, ?_⟩
  rw [linkFromSnapshot, parsed]
  change (snapshot.linked lowercase now id).bind _ = _
  rw [linked]
  change ((tables.save outcome.project).mapError _).bind _ = _
  cases tables.save outcome.project <;> rfl

def stageBoard : RemoteProjectSnapshot :=
  ⟨"PVT_1", 1, "Board", "ann",
    [⟨"F1", "Stage", [⟨"s0", "To do", 0⟩, ⟨"s1", "Shipped", 1⟩]⟩, ⟨"F2", "Priority", []⟩]⟩

theorem linkFromSnapshot_stageBoard :
    ∃ status, (assignFieldKinds stageBoard.projectFields).find? (fun field =>
        field.kind = .status) = some status ∧
      Checked (assignFieldKinds stageBoard.projectFields)
        (deriveStatusMappings (fun char => [char.toLower]) status.options)
        (stageBoard.priorityPlan (assignFieldKinds stageBoard.projectFields)).1 := by
  obtain ⟨status, found, checked, _⟩ := linkFromSnapshot_derives (fun char => [char.toLower]) .epoch
    stageBoard (by decide) (by decide)
  exact ⟨status, found, checked⟩

end RepoLink
