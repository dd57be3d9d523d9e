import RepoLink.Search.Ranking

/-!
Which tasks a search lists. The fused order has the tasks of its lanes and no others, and the
literal lane ranks by occurrences of the full query: a task that only has every identifier token
is flagged as a literal match without being in a lane.
-/

namespace RepoLink

open KeyedTable

section Fusion

variable {σ : Type} {scores : Scores σ}

theorem mem_keys_fuseRank {fused : Dict TaskId σ} {entry : TaskId × Nat} {task : TaskId} :
    task ∈ (fuseRank scores fused entry).keys ↔ task ∈ fused.keys ∨ task = entry.1 := by
  rw [Dict.mem_keys_iff, fuseRank, Dict.get?_insert, Dict.mem_keys_iff]
  by_cases same : task = entry.1
  · simp [same]
  · simp [same]

theorem mem_keys_foldl_fuseRank (entries : List (TaskId × Nat)) (task : TaskId) :
    ∀ fused : Dict TaskId σ, task ∈ (entries.foldl (fuseRank scores) fused).keys ↔
      task ∈ fused.keys ∨ task ∈ entries.map Prod.fst := by
  induction entries with
  | nil =>
      intro fused
      simp
  | cons entry rest ih =>
      intro fused
      rw [List.foldl_cons, ih, mem_keys_fuseRank, List.map_cons, List.mem_cons, or_assoc]

theorem mem_keys_rrfFuse {rankings : List Ranking} {task : TaskId} :
    task ∈ (rrfFuse scores rankings).keys ↔ ∃ ranking ∈ rankings, task ∈ ranking.keys := by
  have folded : ∀ fused : Dict TaskId σ,
      task ∈ (rankings.foldl
        (fun fused ranking => ranking.rows.foldl (fuseRank scores) fused) fused).keys ↔
      task ∈ fused.keys ∨ ∃ ranking ∈ rankings, task ∈ ranking.keys := by
    induction rankings with
    | nil =>
        intro fused
        simp
    | cons ranking rest ih =>
        intro fused
        rw [List.foldl_cons, ih, mem_keys_foldl_fuseRank, List.exists_mem_cons_iff, or_assoc]
        rfl
  rw [rrfFuse, folded]
  exact or_iff_right List.not_mem_nil

theorem mem_orderFused {fused : Dict TaskId σ} {task : TaskId} :
    task ∈ orderFused scores fused ↔ task ∈ fused.keys :=
  ((List.perm_insertionSort _ fused.rows).map Prod.fst).mem_iff

theorem mem_orderResults {mode : QueryMode} {literal : Dict TaskId TaskLiteral}
    {lexical : List LexicalRank} {semantic : List (SemanticRank σ)} {task : TaskId} :
    task ∈ orderResults scores mode literal lexical semantic ↔
      ∃ ranking ∈ lanesOf literal lexical semantic, task ∈ ranking.keys := by
  rw [← mem_keys_rrfFuse, ← mem_orderFused, orderResults]
  split
  · exact (List.filter_append_perm (sortsAhead mode literal) _).mem_iff
  · exact Iff.rfl

end Fusion

section Lanes

theorem mem_lexicalRanking {lexical : List LexicalRank} {task : TaskId} :
    task ∈ (lexicalRanking lexical).keys ↔ task ∈ lexical.map LexicalRank.taskId := by
  rw [lexicalRanking, Dict.mem_keys_collect, List.map_map]
  rfl

theorem mem_keys_ranked {α : Type} (task : α → TaskId) (entries : List α) (wanted : TaskId) :
    wanted ∈ (Dict.collect (entries.mapIdx fun index entry => (task entry, index + 1))).keys ↔
      wanted ∈ entries.map task := by
  have numbered : (entries.mapIdx fun index entry => (task entry, index + 1)).map Prod.fst =
      entries.map task := List.ext_getElem (by simp) (by simp)
  rw [Dict.mem_keys_collect, numbered]

theorem mem_semanticRanking {σ : Type} {semantic : List (SemanticRank σ)} {task : TaskId} :
    task ∈ (semanticRanking semantic).keys ↔ task ∈ semantic.map SemanticRank.taskId :=
  mem_keys_ranked SemanticRank.taskId semantic task

theorem mem_literalOccurrenceRanking {literal : Dict TaskId TaskLiteral} {task : TaskId} :
    task ∈ (literalOccurrenceRanking literal).keys ↔
      ∃ entry, literal.get? task = some entry ∧ 0 < entry.occurrence := by
  refine (mem_keys_ranked Prod.fst _ task).trans ?_
  simp only [List.mem_map, List.mem_insertionSort, List.mem_filter, decide_eq_true_eq]
  constructor
  · rintro ⟨⟨_, entry⟩, ⟨member, occurs⟩, rfl⟩
    exact ⟨entry, Dict.mem_rows_iff.mp member, occurs⟩
  · rintro ⟨entry, found, occurs⟩
    exact ⟨(task, entry), ⟨Dict.mem_rows_iff.mpr found, occurs⟩, rfl⟩

theorem mem_listed {σ : Type} {scores : Scores σ} {mode : QueryMode}
    {literal : Dict TaskId TaskLiteral} {lexical : List LexicalRank}
    {semantic : List (SemanticRank σ)} {task : TaskId} :
    task ∈ orderResults scores mode literal lexical semantic ↔
      task ∈ lexical.map LexicalRank.taskId ∨
      (∃ entry, literal.get? task = some entry ∧ 0 < entry.occurrence) ∨
      task ∈ semantic.map SemanticRank.taskId := by
  rw [mem_orderResults, ← mem_lexicalRanking, ← mem_literalOccurrenceRanking,
    ← mem_semanticRanking]
  have nonempty : ∀ {ranking : Ranking}, task ∈ ranking.keys → ranking.rows.isEmpty = false := by
    intro ranking member
    cases rows : ranking.rows with
    | nil =>
        rw [Dict.keys, rows] at member
        cases member
    | cons => rfl
  simp only [lanesOf, List.mem_filter, List.mem_cons, List.not_mem_nil, or_false]
  constructor
  · rintro ⟨ranking, ⟨rfl | rfl | rfl, _⟩, member⟩
    · exact .inl member
    · exact .inr (.inl member)
    · exact .inr (.inr member)
  · rintro (member | member | member)
    · exact ⟨_, ⟨.inl rfl, by rw [nonempty member]; rfl⟩, member⟩
    · exact ⟨_, ⟨.inr (.inl rfl), by rw [nonempty member]; rfl⟩, member⟩
    · exact ⟨_, ⟨.inr (.inr rfl), by rw [nonempty member]; rfl⟩, member⟩

end Lanes

section Literal

variable {unicode : Unicode} {query : String} {mode : QueryMode}

theorem literalOf_fullPresent (row : TaskTextRow) :
    (literalOf unicode query mode row).fullPresent = row.mentions unicode query := by
  rw [Bool.eq_iff_iff]
  simp only [literalOf, TaskTextRow.mentions, Bool.not_eq_true', List.any_eq_true,
    List.isEmpty_eq_false_iff_exists_mem, List.mem_flatMap, List.mem_map]
  constructor
  · rintro ⟨_, column, member, span, matched, rfl⟩
    exact ⟨column, member, span, matched⟩
  · rintro ⟨column, member, span, matched⟩
    exact ⟨_, column, member, span, matched, rfl⟩

theorem literalOf_occurrence (row : TaskTextRow) :
    0 < (literalOf unicode query mode row).occurrence ↔ row.mentions unicode query = true := by
  rw [← @literalOf_fullPresent unicode query mode row]
  simp only [literalOf, Bool.not_eq_true', List.isEmpty_eq_false_iff]
  exact List.length_pos_iff

def TaskTextRow.mentionsTokens (unicode : Unicode) (query : String) (row : TaskTextRow) : Prop :=
  identifierTokens unicode query ≠ [] ∧
    ∀ token ∈ identifierTokens unicode query, row.mentions unicode token = true

theorem literalOf_contributed (row : TaskTextRow) :
    (literalOf unicode query mode row).contributed = true ↔
      row.mentions unicode query = true ∨
        mode = .identifier ∧ row.mentionsTokens unicode query := by
  rw [← @literalOf_occurrence unicode query mode row]
  have present : (literalOf unicode query mode row).fullPresent = true ↔
      0 < (literalOf unicode query mode row).occurrence := by
    rw [literalOf_fullPresent, literalOf_occurrence]
  cases mode with
  | exact => simpa [literalOf] using present
  | natural => simp [literalOf]
  | identifier =>
      simp only [literalOf] at present ⊢
      rw [Bool.or_eq_true, present]
      simp [TaskTextRow.mentionsTokens]

theorem get?_literalLane (rows : Table TaskTextRow.taskId) {row : TaskTextRow}
    (member : row ∈ rows.rows) :
    (literalLane unicode rows.rows query mode).get? row.taskId =
      some (literalOf unicode query mode row) := by
  rw [← Dict.mem_rows_iff, Dict.mem_rows_iff, literalLane, Dict.get?_collect,
    Option.map_eq_some_iff]
  cases found : ((rows.rows.map fun row => (row.taskId, literalOf unicode query mode row)).reverse
      ).find? fun entry => entry.1 = row.taskId with
  | none =>
      rw [List.find?_eq_none] at found
      have missing := found (row.taskId, literalOf unicode query mode row)
        (List.mem_reverse.mpr (List.mem_map.mpr ⟨row, member, rfl⟩))
      simp at missing
  | some entry =>
      have same : entry.1 = row.taskId := by simpa using List.find?_some found
      obtain ⟨other, otherMember, rfl⟩ := List.mem_map.mp
        (List.mem_reverse.mp (List.mem_of_find?_eq_some found))
      have : other = row := Table.row_unique otherMember member same
      subst this
      exact ⟨_, rfl, rfl⟩

end Literal

/-- Every task that the literal lane flags is listed, before the list is truncated. -/
def ListsContributed {σ : Type} (unicode : Unicode) (scores : Scores σ)
    (rows : Table TaskTextRow.taskId) (query : String) (mode : QueryMode)
    (lexical : List LexicalRank) (semantic : List (SemanticRank σ)) : Prop :=
  ∀ row ∈ rows.rows, ∀ entry, (literalLane unicode rows.rows query mode).get? row.taskId =
    some entry → entry.contributed = true →
    row.taskId ∈ orderResults scores mode (literalLane unicode rows.rows query mode) lexical
      semantic

theorem lists_contributed_iff {σ : Type} (unicode : Unicode) (scores : Scores σ)
    (rows : Table TaskTextRow.taskId) (query : String) (mode : QueryMode)
    (lexical : List LexicalRank) (semantic : List (SemanticRank σ)) :
    ListsContributed unicode scores rows query mode lexical semantic ↔
      (mode = .identifier → ∀ row ∈ rows.rows, row.mentionsTokens unicode query →
        row.mentions unicode query = false →
        row.taskId ∈ lexical.map LexicalRank.taskId ∨
          row.taskId ∈ semantic.map SemanticRank.taskId) := by
  have listed : ∀ row ∈ rows.rows,
      (row.taskId ∈ orderResults scores mode (literalLane unicode rows.rows query mode) lexical
        semantic ↔ row.taskId ∈ lexical.map LexicalRank.taskId ∨
          row.mentions unicode query = true ∨
          row.taskId ∈ semantic.map SemanticRank.taskId) := by
    intro row member
    rw [mem_listed, get?_literalLane rows member]
    simp only [Option.some.injEq, exists_eq_left', literalOf_occurrence]
  constructor
  · intro lists identifier row member tokens absent
    have contributed := (@literalOf_contributed unicode query mode row).mpr (.inr ⟨identifier, tokens⟩)
    have inList := lists row member _ (get?_literalLane rows member) contributed
    rcases (listed row member).mp inList with ranked | full | ranked
    · exact .inl ranked
    · rw [absent] at full
      cases full
    · exact .inr ranked
  · intro ranked row member entry found contributed
    rw [get?_literalLane rows member, Option.some.injEq] at found
    subst found
    rw [listed row member]
    rcases (literalOf_contributed row).mp contributed with full | ⟨identifier, tokens⟩
    · exact .inr (.inl full)
    · cases full : row.mentions unicode query with
      | true => exact .inr (.inl rfl)
      | false =>
          exact (ranked identifier row member tokens full).imp_right .inr

def exactScores : Scores Rat where
  zero := 0
  add := (· + ·)
  reciprocal rank := 1 / (60 + rank)
  partialCmp left right := some (if left < right then .lt else if right < left then .gt else .eq)

def identifierTask : TaskTextRow :=
  ⟨⟨1⟩, ⟨1⟩, none, true, "retry in foo_bar", "", []⟩

/-- While the index is unavailable, such a task is flagged and not listed. -/
theorem identifier_match_unlisted : classify asciiTables "fix foo_bar" false = .identifier ∧
    ¬ListsContributed asciiTables exactScores ⟨[identifierTask], by decide⟩ "fix foo_bar"
      .identifier [] [] := by
  refine ⟨by decide, fun lists => ?_⟩
  have listed := lists identifierTask List.mem_cons_self _ rfl (by decide)
  rw [mem_listed] at listed
  revert listed
  have unlisted : ((literalLane asciiTables [identifierTask] "fix foo_bar" .identifier).get?
      identifierTask.taskId).map TaskLiteral.occurrence = some 0 := by decide
  rintro (ranked | ⟨entry, found, occurs⟩ | ranked)
  · cases ranked
  · rw [found] at unlisted
    rw [Option.some.inj unlisted] at occurs
    cases occurs
  · cases ranked

end RepoLink
