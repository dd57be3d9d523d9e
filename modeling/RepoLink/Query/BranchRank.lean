import RepoLink.Query.ReadyTree

/-!
What `subtree_priority` computes: in a branch whose chain of parents ends it is the best priority of
a ready task, whatever the order in which the branches are asked and whatever else the memo holds.
-/

namespace RepoLink

open KeyedTable Groves

theorem Priority.best_rank (left right : Priority) :
    (Priority.best left right).rank = min left.rank right.rank := by
  unfold Priority.best
  split <;> omega

theorem Priority.best_eq (left right : Priority) :
    Priority.best left right = left ∨ Priority.best left right = right := by
  unfold Priority.best
  split
  · exact .inl rfl
  · exact .inr rfl

theorem Priority.foldl_best (others : List Priority) : ∀ own : Priority,
    (others.foldl Priority.best own).rank ≤ own.rank ∧
      (∀ other ∈ others, (others.foldl Priority.best own).rank ≤ other.rank) ∧
      (others.foldl Priority.best own = own ∨ others.foldl Priority.best own ∈ others) := by
  induction others with
  | nil =>
      exact fun own => ⟨Nat.le_refl _, fun _ member => (List.not_mem_nil member).elim, .inl rfl⟩
  | cons first rest ih =>
      intro own
      obtain ⟨least, leastRest, among⟩ := ih (Priority.best own first)
      have smaller := Priority.best_rank own first
      rw [List.foldl_cons]
      refine ⟨by omega, fun other member => ?_, ?_⟩
      · rcases List.mem_cons.mp member with rfl | member
        · omega
        · exact leastRest other member
      · rcases among with same | inRest
        · rw [same]
          rcases Priority.best_eq own first with eq | eq
          · exact .inl eq
          · exact .inr (by rw [eq]; exact List.mem_cons_self)
        · exact .inr (List.mem_cons_of_mem _ inRest)

theorem Priority.rank_le (priority : Priority) : priority.rank ≤ Priority.p3.rank := by
  cases priority <;> decide

namespace QueryService

variable {readyIds ids : List TaskId} {idOf : Dict TaskId Task} {kin : Kinship}
  {memo : Dict TaskId Priority} {id : TaskId}

def ReadyAt (readyIds : List TaskId) (idOf : Dict TaskId Task) (id : TaskId)
    (priority : Priority) : Prop :=
  id ∈ readyIds ∧ (idOf.get? id).map Task.priority = some priority

/-- The best priority of a ready task under an id, or the worst priority if there is none. -/
structure BestUnder (readyIds : List TaskId) (idOf : Dict TaskId Task) (kin : Kinship)
    (id : TaskId) (best : Priority) : Prop where
  least : ∀ node priority, Under kin.parentOf node id → ReadyAt readyIds idOf node priority →
    best.rank ≤ priority.rank
  attained : best = .p3 ∨ ∃ node, Under kin.parentOf node id ∧ ReadyAt readyIds idOf node best

def RightUnder (readyIds : List TaskId) (idOf : Dict TaskId Task) (kin : Kinship) (id : TaskId)
    (memo : Dict TaskId Priority) : Prop :=
  ∀ node, Under kin.parentOf node id → ∀ rank, memo.get? node = some rank →
    BestUnder readyIds idOf kin node rank

/-- What one call of `subtree_priority` comes to. -/
structure Ranks (readyIds : List TaskId) (idOf : Dict TaskId Task) (kin : Kinship) (id : TaskId)
    (memo : Dict TaskId Priority) (made : Priority × Dict TaskId Priority) : Prop where
  grows : memo.keys ⊆ made.2.keys
  stored : id ∈ made.2.keys
  frame : ∀ node, ¬Under kin.parentOf node id → made.2.get? node = memo.get? node
  best : Ends kin.parentOf id → RightUnder readyIds idOf kin id memo →
    BestUnder readyIds idOf kin id made.1 ∧ RightUnder readyIds idOf kin id made.2

/-- Where the loop over the children of a task stands; the memo holds a provisional value for the
task itself. -/
structure RankingKids (readyIds : List TaskId) (idOf : Dict TaskId Task) (kin : Kinship)
    (id : TaskId) (memo : Dict TaskId Priority) (rest : List TaskId)
    (current : Dict TaskId Priority) : Prop where
  among : rest ⊆ kin.childrenOf id
  grows : (memo.insert id .p3).keys ⊆ current.keys
  frame : ∀ node, ¬Under kin.parentOf node id → current.get? node = memo.get? node
  right : Ends kin.parentOf id → RightUnder readyIds idOf kin id memo →
    ∀ child ∈ kin.childrenOf id, RightUnder readyIds idOf kin child current

theorem mem_keys_insert {key other : TaskId} {value : Priority} :
    other ∈ (memo.insert key value).keys ↔ other = key ∨ other ∈ memo.keys := by
  rw [Dict.mem_keys_iff, Dict.mem_keys_iff, Dict.get?_insert]
  split
  · rename_i same
    exact iff_of_true rfl (.inl same)
  · rename_i other
    exact ⟨.inr, fun either => either.resolve_left other⟩

section Call

variable (inverse : ∀ child above, child ∈ kin.childrenOf above ↔ kin.parentOf child = some above)

include inverse

theorem RankingKids.start :
    RankingKids readyIds idOf kin id memo (kin.childrenOf id) (memo.insert id .p3) := by
  refine ⟨List.Subset.refl _, List.Subset.refl _, fun node outside => ?_,
    fun ends right child member node under rank found => ?_⟩
  · rw [Dict.get?_insert, if_neg]
    rintro rfl
    exact outside .refl
  · have edge := (inverse child id).mp member
    rw [Dict.get?_insert, if_neg] at found
    · exact right node (under.climb edge) rank found
    · rintro rfl
      exact (Ends.climb edge ends).not_under edge under

theorem RankingKids.next {child : TaskId} {rest : List TaskId} {current : Dict TaskId Priority}
    {made : Priority × Dict TaskId Priority}
    (ranking : RankingKids readyIds idOf kin id memo (child :: rest) current)
    (ranks : Ranks readyIds idOf kin child current made) :
    (Ends kin.parentOf id → RightUnder readyIds idOf kin id memo →
      BestUnder readyIds idOf kin child made.1) ∧
      RankingKids readyIds idOf kin id memo rest made.2 := by
  have edge := (inverse child id).mp (ranking.among List.mem_cons_self)
  have bestChild : Ends kin.parentOf id → RightUnder readyIds idOf kin id memo →
      BestUnder readyIds idOf kin child made.1 ∧ RightUnder readyIds idOf kin child made.2 := by
    intro ends right
    exact ranks.best (.climb edge ends)
      (ranking.right ends right child (ranking.among List.mem_cons_self))
  refine ⟨fun ends right => (bestChild ends right).1,
    fun other member => ranking.among (List.mem_cons_of_mem _ member),
    fun other member => ranks.grows (ranking.grows member), fun node outside => ?_,
    fun ends right other member node under rank found => ?_⟩
  · rw [ranks.frame node fun under => outside (under.climb edge), ranking.frame node outside]
  · by_cases inside : Under kin.parentOf node child
    · exact (bestChild ends right).2 node inside rank found
    · rw [ranks.frame node inside] at found
      exact ranking.right ends right other member node under rank found

theorem bestUnder_of_kids {own : Priority} {kids : List Priority}
    (ownEq : ownPriority readyIds idOf id = some own)
    (branches : List.Forall₂ (fun child rank => BestUnder readyIds idOf kin child rank)
      (kin.childrenOf id) kids) :
    BestUnder readyIds idOf kin id (kids.foldl Priority.best own) := by
  obtain ⟨leastOwn, leastKids, among⟩ := Priority.foldl_best kids own
  have ownReady : ∀ priority, ReadyAt readyIds idOf id priority → own = priority := by
    rintro priority ⟨member, found⟩
    rw [ownPriority, if_pos member, found] at ownEq
    exact (Option.some.inj ownEq).symm
  obtain ⟨kidRank, rankKid⟩ := exists_of_forall₂ branches
  constructor
  · intro node priority under ready
    rcases under.cases_child with rfl | ⟨child, edge, path⟩
    · rw [← ownReady priority ready]
      exact leastOwn
    · obtain ⟨rank, inKids, best⟩ := kidRank child ((inverse child id).mpr edge)
      exact Nat.le_trans (leastKids rank inKids) (best.least node priority path ready)
  · rcases among with same | inKids
    · rw [same]
      by_cases member : id ∈ readyIds
      · rw [ownPriority, if_pos member] at ownEq
        exact .inr ⟨id, .refl, member, ownEq⟩
      · rw [ownPriority, if_neg member] at ownEq
        exact .inl (Option.some.inj ownEq).symm
    · obtain ⟨child, member, best⟩ := rankKid _ inKids
      refine best.attained.imp_right fun found => ?_
      obtain ⟨node, under, ready⟩ := found
      exact ⟨node, under.climb ((inverse child id).mp member), ready⟩

/-- One call ends while there is fuel for every task that has no rank yet, and ranks what is under
its task. -/
theorem subtreePriority_ranks (known : ∀ child above, kin.parentOf child = some above → child ∈ ids)
    (ready : ∀ id ∈ readyIds, (idOf.get? id).isSome) :
    ∀ fuel id memo, id ∈ ids → unvisited ids memo.keys < fuel →
      ∃ made, subtreePriority readyIds idOf kin fuel id memo = some made ∧
        Ranks readyIds idOf kin id memo made := by
  intro fuel
  induction fuel with
  | zero => exact fun _ _ _ enough => absurd enough (Nat.not_lt_zero _)
  | succ fuel ih =>
      intro id memo member enough
      unfold subtreePriority
      cases found : memo.get? id with
      | some rank =>
          refine ⟨(rank, memo), rfl, List.Subset.refl _, ?_, fun _ _ => rfl, fun _ right => ?_⟩
          · rw [Dict.mem_keys_iff, found]
            rfl
          · exact ⟨right id .refl rank found, right⟩
      | none =>
          have fresh : id ∉ memo.keys := by
            rw [Dict.mem_keys_iff, found]
            exact Bool.false_ne_true
          have ownKnown : ∃ own, ownPriority readyIds idOf id = some own := by
            unfold ownPriority
            split
            · rename_i isReady
              obtain ⟨task, foundTask⟩ := Option.isSome_iff_exists.mp (ready id isReady)
              exact ⟨task.priority, by rw [foundTask]; rfl⟩
            · exact ⟨.p3, rfl⟩
          obtain ⟨own, ownEq⟩ := ownKnown
          have fewer : unvisited ids (memo.insert id .p3).keys < unvisited ids memo.keys := by
            refine Nat.lt_of_le_of_lt (unvisited_anti fun other inKeys => ?_)
              (unvisited_cons member fresh)
            exact mem_keys_insert.mpr (List.mem_cons.mp inKeys)
          have stepped : ∀ child rest current,
              RankingKids readyIds idOf kin id memo (child :: rest) current →
              ∃ made, subtreePriority readyIds idOf kin fuel child current = some made ∧
                (Ends kin.parentOf id → RightUnder readyIds idOf kin id memo →
                  BestUnder readyIds idOf kin child made.1) ∧
                RankingKids readyIds idOf kin id memo rest made.2 := by
            intro child rest current ranking
            have edge := (inverse child id).mp (ranking.among List.mem_cons_self)
            obtain ⟨made, ran, ranks⟩ := ih child current (known child id edge)
              (Nat.lt_of_le_of_lt (unvisited_anti ranking.grows) (by omega))
            exact ⟨made, ran, ranking.next inverse ranks⟩
          obtain ⟨below, ran, good, ranking⟩ := thread_spec
            (subtreePriority readyIds idOf kin fuel)
            (fun child rank => Ends kin.parentOf id → RightUnder readyIds idOf kin id memo →
              BestUnder readyIds idOf kin child rank)
            (RankingKids readyIds idOf kin id memo) stepped _ _ (RankingKids.start inverse)
          refine ⟨(below.1.foldl Priority.best own,
            below.2.insert id (below.1.foldl Priority.best own)), ?_, fun other inKeys => ?_, ?_,
            fun node outside => ?_, fun ends right => ?_⟩
          · dsimp only
            rw [ownEq, Option.bind_some, ran]
            rfl
          · exact mem_keys_insert.mpr (.inr (ranking.grows (mem_keys_insert.mpr (.inr inKeys))))
          · exact mem_keys_insert.mpr (.inl rfl)
          · rw [Dict.get?_insert, if_neg, ranking.frame node outside]
            rintro rfl
            exact outside .refl
          · have best := bestUnder_of_kids inverse ownEq
              (good.imp fun _ _ bestChild => bestChild ends right)
            refine ⟨best, fun node under rank foundNode => ?_⟩
            rw [Dict.get?_insert] at foundNode
            split at foundNode
            · rename_i same
              cases Option.some.inj foundNode
              rw [same]
              exact best
            · rename_i other
              obtain ⟨child, edge, path⟩ := under.cases_child.resolve_left other
              exact ranking.right ends right child ((inverse child id).mpr edge) node path rank
                foundNode

structure RankingKept (readyIds : List TaskId) (idOf : Dict TaskId Task) (kin : Kinship)
    (kept rest : List TaskId) (memo : Dict TaskId Priority) : Prop where
  among : rest ⊆ kept
  stored : ∀ id ∈ kept, id ∈ rest ∨ id ∈ memo.keys
  right : ∀ id, Ends kin.parentOf id → ∀ rank, memo.get? id = some rank →
    BestUnder readyIds idOf kin id rank

/-- All kept tasks get a rank, and those whose chain of parents ends get the right one. -/
theorem rankKept_ends (known : ∀ child above, kin.parentOf child = some above → child ∈ ids)
    (ready : ∀ id ∈ readyIds, (idOf.get? id).isSome) {kept : List TaskId} (within : kept ⊆ ids)
    {fuel : Nat} (enough : ids.length < fuel) :
    ∃ ranked, thread (subtreePriority readyIds idOf kin fuel) kept Dict.empty = some ranked ∧
      RankingKept readyIds idOf kin kept [] ranked.2 := by
  have stepped : ∀ id rest memo, RankingKept readyIds idOf kin kept (id :: rest) memo →
      ∃ made, subtreePriority readyIds idOf kin fuel id memo = some made ∧ True ∧
        RankingKept readyIds idOf kin kept rest made.2 := by
    intro id rest memo ranking
    have fuelLeft : unvisited ids memo.keys < fuel :=
      Nat.lt_of_le_of_lt (List.length_filter_le _ _) enough
    obtain ⟨made, ran, ranks⟩ := subtreePriority_ranks inverse known ready fuel id memo
      (within (ranking.among List.mem_cons_self)) fuelLeft
    refine ⟨made, ran, trivial, fun other member => ranking.among (List.mem_cons_of_mem _ member),
      fun other member => ?_, fun node ends rank found => ?_⟩
    · rcases ranking.stored other member with inRest | inKeys
      · rcases List.mem_cons.mp inRest with rfl | inRest
        · exact .inr ranks.stored
        · exact .inl inRest
      · exact .inr (ranks.grows inKeys)
    · by_cases inside : Under kin.parentOf node id
      · have right : RightUnder readyIds idOf kin id memo := fun below under rankBelow foundBelow =>
          ranking.right below ((ends.upwards inside).under under) rankBelow foundBelow
        exact (ranks.best (ends.upwards inside) right).2 node inside rank found
      · rw [ranks.frame node inside] at found
        exact ranking.right node ends rank found
  have start : RankingKept readyIds idOf kin kept kept Dict.empty := by
    refine ⟨List.Subset.refl _, fun _ member => .inl member, fun id _ rank found => ?_⟩
    rw [Dict.get?_empty] at found
    cases found
  obtain ⟨ranked, ran, _, ranking⟩ := thread_spec (subtreePriority readyIds idOf kin fuel)
    (fun _ _ => True) (RankingKept readyIds idOf kin kept) stepped _ _ start
  exact ⟨ranked, ran, ranking⟩

end Call

end QueryService

end RepoLink
