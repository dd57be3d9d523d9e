import RepoLink.Domain.Project

/-!
A `Project` of `domain-project` as it is linked: the kinds that `assign_field_kinds` gives its
fields and the status mappings that are derived from the names of its options.
-/

namespace RepoLink

/-- A project with what only its row and its display need. -/
structure ProjectRecord extends Project where
  ownerLogin : String
  number : Nat
  archived : Bool
  createdAt : Timestamp
  updatedAt : Timestamp
deriving DecidableEq, Repr

def ProjectRecord.fromFields (id : ProjectId) (ownerLogin : String) (number : Nat) (title : String)
    (fields : List ProjectField) (statusMappings : List StatusMapping)
    (priorityMappings : List PriorityMapping) (archived : Bool) (now : Timestamp) :
    Except DomainError ProjectRecord :=
  (Project.fromFields id title fields statusMappings priorityMappings).map fun project =>
    { project with ownerLogin, number, archived, createdAt := now, updatedAt := now }

def plainKind (name : String) : ProjectFieldKind :=
  if name = "Priority" then .priority
  else if eqIgnoreAsciiCase name "type" || eqIgnoreAsciiCase name "types" then .type
  else .other

def statusIndex (fields : List ProjectField) : Option Nat :=
  (fields.findIdx? fun field => field.name = "Status").or (if fields.isEmpty then none else some 0)

def assignFieldKinds (fields : List ProjectField) : List ProjectField :=
  fields.zipIdx.map fun entry =>
    { entry.1 with
      kind := if some entry.2 = statusIndex fields then .status else plainKind entry.1.name }

section Derivation

-- `char::to_lowercase`
variable (lowercase : Char → List Char)

def normalizeName (name : String) : String :=
  String.ofList ((name.toList.filter fun char =>
    !isWhitespace char && char != '-' && char != '_').flatMap lowercase)

def firstMatching (options : List FieldOption) (vocabulary : List String) : Option FieldOption :=
  options.find? fun option => vocabulary.contains (normalizeName lowercase option.name)

def openOption (options : List FieldOption) : Option FieldOption :=
  ((firstMatching lowercase options ["backlog", "todo", "open", "new"]).or
    (firstMatching lowercase options ["inprogress", "doing", "wip", "ready"])).or options.head?

def closedOption (options : List FieldOption) : Option FieldOption :=
  (firstMatching lowercase options ["done", "complete", "closed", "shipped"]).or options.getLast?

def pushMapping (isOpen : Bool) (option : Option FieldOption) : List StatusMapping :=
  (option.map fun option => ⟨isOpen, option.optionId⟩).toList

def deriveStatusMappings (options : List FieldOption) : List StatusMapping :=
  if options.isEmpty then []
  else pushMapping true (openOption lowercase options) ++
    pushMapping false (closedOption lowercase options)

theorem openOption_mem {options : List FieldOption} {option : FieldOption}
    (chosen : openOption lowercase options = some option) : option ∈ options := by
  rcases Option.or_eq_some_iff.mp chosen with matched | ⟨_, first⟩
  · rcases Option.or_eq_some_iff.mp matched with backlog | ⟨_, started⟩
    · exact List.mem_of_find?_eq_some backlog
    · exact List.mem_of_find?_eq_some started
  · exact List.mem_of_head? first

theorem closedOption_mem {options : List FieldOption} {option : FieldOption}
    (chosen : closedOption lowercase options = some option) : option ∈ options := by
  rcases Option.or_eq_some_iff.mp chosen with matched | ⟨_, last⟩
  · exact List.mem_of_find?_eq_some matched
  · exact List.mem_of_getLast? last

theorem deriveStatusMappings_valid (options : List FieldOption) :
    Project.validateMappings (deriveStatusMappings lowercase options) options = .ok () := by
  rw [Project.validateMappings_ok_iff]
  unfold deriveStatusMappings
  split
  · exact ⟨fun _ member => (List.not_mem_nil member).elim, List.nodup_nil⟩
  · constructor
    · intro mapping member
      rcases List.mem_append.mp member with opened | closed
      · obtain ⟨option, chosen, rfl⟩ := Option.map_eq_some_iff.mp (Option.mem_toList.mp opened)
        exact List.mem_map_of_mem (openOption_mem lowercase chosen)
      · obtain ⟨option, chosen, rfl⟩ := Option.map_eq_some_iff.mp (Option.mem_toList.mp closed)
        exact List.mem_map_of_mem (closedOption_mem lowercase chosen)
    · cases openOption lowercase options <;> cases closedOption lowercase options <;>
        simp [pushMapping]

end Derivation

section Kinds

theorem statusIndex_lt {fields : List ProjectField} {index : Nat}
    (chosen : statusIndex fields = some index) : index < fields.length := by
  rcases Option.or_eq_some_iff.mp chosen with named | ⟨_, first⟩
  · exact (List.findIdx?_eq_some_iff_getElem.mp named).1
  · split at first
    · cases first
    · rename_i filled
      cases first
      exact List.length_pos_iff.mpr fun empty => filled (List.isEmpty_iff.mpr empty)

theorem statusIndex_some {fields : List ProjectField} (filled : fields ≠ []) :
    ∃ index, statusIndex fields = some index := by
  unfold statusIndex
  rw [if_neg fun empty => filled (List.isEmpty_iff.mp empty)]
  cases fields.findIdx? fun field => field.name = "Status" with
  | none => exact ⟨0, rfl⟩
  | some index => exact ⟨index, rfl⟩

def ProjectField.plain (field : ProjectField) : ProjectField :=
  { field with kind := plainKind field.name }

theorem plain_kind_ne (field : ProjectField) : field.plain.kind ≠ .status := by
  change plainKind field.name ≠ .status
  unfold plainKind
  split
  · decide
  · split <;> decide

theorem plain_kind_priority (field : ProjectField) :
    field.plain.kind = .priority ↔ field.name = "Priority" := by
  change plainKind field.name = .priority ↔ _
  unfold plainKind
  split
  · rename_i named
    exact iff_of_true rfl named
  · rename_i other
    split <;> exact iff_of_false (by decide) other

theorem tagged_plain {chosen : Option Nat} : ∀ (fields : List ProjectField) (offset : Nat),
    (∀ index, offset ≤ index → index < offset + fields.length → some index ≠ chosen) →
    (fields.zipIdx offset).map (fun entry =>
        { entry.1 with kind := if some entry.2 = chosen then .status else plainKind entry.1.name }) =
      fields.map ProjectField.plain := by
  intro fields
  induction fields with
  | nil => intro offset _; rfl
  | cons field rest ih =>
      intro offset others
      rw [List.length_cons] at others
      rw [List.zipIdx_cons, List.map_cons, List.map_cons,
        ih (offset + 1) fun index after before => others index (by omega) (by omega)]
      dsimp only
      rw [if_neg (others offset (Nat.le_refl _) (by omega))]
      rfl

theorem assignFieldKinds_split {fields : List ProjectField} (filled : fields ≠ []) :
    ∃ before field after, fields = before ++ field :: after ∧
      statusIndex fields = some before.length ∧
      assignFieldKinds fields = before.map ProjectField.plain ++
        { field with kind := .status } :: after.map ProjectField.plain := by
  obtain ⟨index, chosen⟩ := statusIndex_some filled
  have bound := statusIndex_lt chosen
  have parts : fields = fields.take index ++ fields[index] :: fields.drop (index + 1) := by
    rw [← List.drop_eq_getElem_cons bound, List.take_append_drop]
  have sized : (fields.take index).length = index := by
    rw [List.length_take]
    omega
  refine ⟨fields.take index, fields[index], fields.drop (index + 1), parts, by rw [chosen, sized], ?_⟩
  unfold assignFieldKinds
  rw [chosen]
  nth_rewrite 1 [parts]
  rw [List.zipIdx_append, List.zipIdx_cons, List.map_append, List.map_cons, sized, Nat.zero_add,
    tagged_plain _ 0 fun other _ before same => by
      rw [Nat.zero_add, sized] at before
      exact absurd (Option.some.inj same) (Nat.ne_of_lt before),
    tagged_plain _ (index + 1) fun other after _ same =>
      absurd (Option.some.inj same) (Nat.ne_of_gt after)]
  rw [if_pos rfl]

end Kinds

end RepoLink
