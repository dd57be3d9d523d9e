import RepoLink.Search.Chunks

/-!
The vectors that a guarded batch leaves behind, and the chunks that still wait for theirs.
-/

namespace RepoLink

open KeyedTable

def GuardedVectorRow.ticket (row : GuardedVectorRow) : (Nat × TaskId × Digest) × Nat :=
  ((row.chunkId, row.taskId, row.contentHash), row.segmentIndex)

def SearchChunk.tag (chunk : SearchChunk) : Nat × TaskId × Digest :=
  (chunk.id, chunk.taskId, chunk.contentHash)

namespace Sidecar

theorem storeVector_frame {row : GuardedVectorRow} {sidecar : Sidecar}
    (passes : sidecar.guardPasses row = true) :
    (sidecar.storeVector row passes).chunks = sidecar.chunks ∧
      (sidecar.storeVector row passes).info = sidecar.info ∧
      (sidecar.storeVector row passes).fts = sidecar.fts := by
  rw [storeVector]
  split <;> exact ⟨rfl, rfl, rfl⟩

theorem storeRows_frame (rows : List GuardedVectorRow) : ∀ sidecar : Sidecar,
    (sidecar.storeRows rows).2.chunks = sidecar.chunks ∧
      (sidecar.storeRows rows).2.info = sidecar.info ∧
      (sidecar.storeRows rows).2.fts = sidecar.fts := by
  induction rows with
  | nil =>
      intro sidecar
      exact ⟨rfl, rfl, rfl⟩
  | cons row rest ih =>
      intro sidecar
      rw [storeRows]
      split
      · rename_i passes
        obtain ⟨chunks, info, fts⟩ := storeVector_frame passes
        obtain ⟨later, laterInfo, laterFts⟩ := ih (sidecar.storeVector row passes)
        exact ⟨later.trans chunks, laterInfo.trans info, laterFts.trans fts⟩
      · exact ih sidecar

theorem mem_storeVector {row : GuardedVectorRow} {sidecar : Sidecar} {vector : VectorRow}
    {passes : sidecar.guardPasses row = true}
    (member : vector ∈ (sidecar.storeVector row passes).vectors.rows) :
    vector ∈ sidecar.vectors.rows ∨ vector = row.stored := by
  rw [storeVector] at member
  split at member
  · exact .inl (List.mem_filter.mp member).1
  · rcases List.mem_append.mp member with old | new
    · exact .inl (List.mem_filter.mp old).1
    · exact .inr (List.mem_singleton.mp new)

theorem mem_storeRows {rows : List GuardedVectorRow} {vector : VectorRow} :
    ∀ {sidecar : Sidecar}, vector ∈ (sidecar.storeRows rows).2.vectors.rows →
      vector ∈ sidecar.vectors.rows ∨
        sidecar.info.embeddingProfileId.isSome = true ∧ ∃ row ∈ rows, vector = row.stored := by
  induction rows with
  | nil => exact fun member => .inl member
  | cons row rest ih =>
      intro sidecar member
      rw [storeRows] at member
      split at member
      · rename_i passes
        have claimed := (Bool.and_eq_true_iff.mp passes).1
        rcases ih member with inStored | ⟨_, later, inRest, vectorEq⟩
        · rcases mem_storeVector inStored with old | new
          · exact .inl old
          · exact .inr ⟨claimed, row, List.mem_cons_self, new⟩
        · exact .inr ⟨claimed, later, List.mem_cons_of_mem row inRest, vectorEq⟩
      · rcases ih member with old | ⟨claimed, later, inRest, vectorEq⟩
        · exact .inl old
        · exact .inr ⟨claimed, later, List.mem_cons_of_mem row inRest, vectorEq⟩

theorem storeVectorsGuarded_ok {rows : List GuardedVectorRow} {sidecar after : Sidecar}
    {stored : Nat} (ran : sidecar.storeVectorsGuarded rows = .ok (stored, after)) :
    stored = (sidecar.storeRows rows).1.length ∧ after = (sidecar.storeRows rows).2 := by
  rw [storeVectorsGuarded] at ran
  split at ran
  · rename_i empty
    obtain rfl := List.isEmpty_iff.mp empty
    cases ran
    exact ⟨rfl, rfl⟩
  · dsimp only at ran
    split at ran
    · cases ran
      exact ⟨rfl, rfl⟩
    · cases ran

theorem guardPasses_of {row : GuardedVectorRow} {sidecar : Sidecar} {chunk : SearchChunk}
    (claimed : sidecar.info.embeddingProfileId.isSome = true)
    (stored : chunk ∈ sidecar.chunks.rows)
    (same : (chunk.id, chunk.taskId, chunk.contentHash) =
      (row.chunkId, row.taskId, row.contentHash)) : sidecar.guardPasses row = true := by
  obtain ⟨idEq, taskEq, hashEq⟩ : _ ∧ _ ∧ _ := by simpa using same
  rw [guardPasses, claimed, Bool.true_and, ← idEq, Table.find_of_mem stored]
  simp [taskEq, hashEq]

theorem storeRows_unclaimed {sidecar : Sidecar}
    (unclaimed : sidecar.info.embeddingProfileId = none) :
    ∀ rows : List GuardedVectorRow, sidecar.storeRows rows = ([], sidecar) := by
  intro rows
  induction rows with
  | nil => rfl
  | cons row rest ih =>
      have refused : ¬sidecar.guardPasses row = true := by
        rw [guardPasses, unclaimed]
        exact Bool.false_ne_true
      rw [storeRows, dif_neg refused, ih]

theorem storeVector_append {row : GuardedVectorRow} {sidecar : Sidecar}
    (passes : sidecar.guardPasses row = true)
    (free : row.stored.place ∉ sidecar.vectors.rows.map VectorRow.place) :
    (sidecar.storeVector row passes).vectors.rows = sidecar.vectors.rows ++ [row.stored] := by
  have kept : (sidecar.vectors.filter fun stored =>
      !(stored.place = row.stored.place && stored.inputHash ≠ row.inputHash)).rows =
      sidecar.vectors.rows := by
    refine List.filter_eq_self.mpr fun stored member => ?_
    have elsewhere : stored.place ≠ row.stored.place :=
      fun same => free (List.mem_map.mpr ⟨stored, member, same⟩)
    simp [elsewhere]
  have notTaken : row.stored.place ∉ (sidecar.vectors.filter fun stored =>
      !(stored.place = row.stored.place && stored.inputHash ≠ row.inputHash)).rows.map
        VectorRow.place := by rwa [kept]
  rw [storeVector, dif_neg notTaken]
  exact congrArg (· ++ [row.stored]) kept

theorem storeRows_append {rows : List GuardedVectorRow} : ∀ {sidecar : Sidecar},
    sidecar.info.embeddingProfileId.isSome = true →
    (∀ row ∈ rows, ∃ chunk ∈ sidecar.chunks.rows, (chunk.id, chunk.taskId, chunk.contentHash) =
      (row.chunkId, row.taskId, row.contentHash)) →
    (sidecar.vectors.rows.map VectorRow.place ++
      rows.map fun row => row.stored.place).Nodup →
    (sidecar.storeRows rows).1 = rows.map GuardedVectorRow.chunkId ∧
      (sidecar.storeRows rows).2.vectors.rows =
        sidecar.vectors.rows ++ rows.map GuardedVectorRow.stored := by
  induction rows with
  | nil =>
      intro sidecar _ _ _
      exact ⟨rfl, (List.append_nil _).symm⟩
  | cons row rest ih =>
      intro sidecar claimed stored places
      obtain ⟨chunk, member, same⟩ := stored row List.mem_cons_self
      have passes := guardPasses_of claimed member same
      have free : row.stored.place ∉ sidecar.vectors.rows.map VectorRow.place :=
        fun taken => (List.nodup_append.mp places).2.2 _ taken _ List.mem_cons_self rfl
      obtain ⟨chunks, info, _⟩ := storeVector_frame passes
      have later := @ih (sidecar.storeVector row passes) (by rw [info]; exact claimed)
        (fun other inRest => by rw [chunks]; exact stored other (List.mem_cons_of_mem row inRest))
        (by
          rw [storeVector_append passes free, List.map_append, List.append_assoc]
          exact places)
      rw [storeRows, dif_pos passes]
      refine ⟨congrArg (row.chunkId :: ·) later.1, later.2.trans ?_⟩
      rw [storeVector_append passes free, List.append_assoc]
      rfl

/-- The rows of a batch are, chunk by chunk, the segments `0..count` of these chunks. -/
structure Batch (count : SearchChunk → Nat) (missing : List SearchChunk)
    (rows : List GuardedVectorRow) : Prop where
  tickets : rows.map GuardedVectorRow.ticket = missing.flatMap fun chunk =>
    (List.range (count chunk)).map fun segment => (chunk.tag, segment)
  distinct : (missing.map SearchChunk.id).Nodup
  positive : ∀ chunk ∈ missing, 0 < count chunk

section Owners

variable {β : Type} {made : SearchChunk → List β} {owner : β → Nat} {chunkId : Nat}
  {missing : List SearchChunk}

theorem filter_foreign (owned : ∀ chunk, ∀ item ∈ made chunk, owner item = chunk.id)
    (foreign : chunkId ∉ missing.map SearchChunk.id) :
    ((missing.flatMap made).filter fun item => owner item = chunkId) = [] := by
  refine List.filter_eq_nil_iff.mpr fun item member same => ?_
  obtain ⟨chunk, inMissing, inMade⟩ := List.mem_flatMap.mp member
  have ofChunk : chunk.id = chunkId := (owned chunk item inMade).symm.trans (of_decide_eq_true same)
  exact foreign (List.mem_map.mpr ⟨chunk, inMissing, ofChunk⟩)

theorem filter_own (owned : ∀ chunk, ∀ item ∈ made chunk, owner item = chunk.id)
    {chunk : SearchChunk} (distinct : (missing.map SearchChunk.id).Nodup) (member : chunk ∈ missing) :
    ((missing.flatMap made).filter fun item => owner item = chunk.id) = made chunk := by
  have ownItems : ((made chunk).filter fun item => owner item = chunk.id) = made chunk :=
    List.filter_eq_self.mpr fun item inMade => decide_eq_true (owned chunk item inMade)
  induction missing with
  | nil => exact absurd member List.not_mem_nil
  | cons first rest ih =>
      obtain ⟨fresh, distinctRest⟩ := List.nodup_cons.mp distinct
      rw [List.flatMap_cons, List.filter_append]
      rcases List.mem_cons.mp member with rfl | inRest
      · rw [ownItems, filter_foreign owned fresh, List.append_nil]
      · have apart : chunk.id ∉ [first].map SearchChunk.id := by
          intro inFirst
          have same : chunk.id = first.id := List.mem_singleton.mp inFirst
          exact fresh (List.mem_map.mpr ⟨chunk, inRest, same⟩)
        have none := filter_foreign owned apart
        rw [List.flatMap_singleton] at none
        rw [none, List.nil_append]
        exact ih distinctRest inRest

end Owners

theorem filter_tickets {count : SearchChunk → Nat} {chunk : SearchChunk}
    {missing : List SearchChunk} (distinct : (missing.map SearchChunk.id).Nodup)
    (member : chunk ∈ missing) :
    ((missing.flatMap fun other =>
      (List.range (count other)).map fun segment => (other.tag, segment)).filter fun ticket =>
        ticket.1.1 = chunk.id) =
      (List.range (count chunk)).map fun segment => (chunk.tag, segment) := by
  refine @filter_own _ _ (fun ticket : (Nat × TaskId × Digest) × Nat => ticket.1.1) _
    (fun other ticket inMade => ?_) chunk distinct member
  obtain ⟨_, _, rfl⟩ := List.mem_map.mp inMade
  rfl

namespace Batch

variable {count : SearchChunk → Nat} {missing : List SearchChunk} {rows : List GuardedVectorRow}

theorem chunk_of_row (batch : Batch count missing rows) {row : GuardedVectorRow}
    (member : row ∈ rows) : ∃ chunk ∈ missing,
      chunk.tag = (row.chunkId, row.taskId, row.contentHash) := by
  have inTickets : row.ticket ∈ rows.map GuardedVectorRow.ticket := List.mem_map_of_mem member
  rw [batch.tickets, List.mem_flatMap] at inTickets
  obtain ⟨chunk, inMissing, segment, _, same⟩ := inTickets.imp fun _ => And.imp_right List.mem_map.mp
  exact ⟨chunk, inMissing, (Prod.mk.inj same).1⟩

theorem row_of_chunk (batch : Batch count missing rows) {chunk : SearchChunk}
    (member : chunk ∈ missing) : ∃ row ∈ rows, row.chunkId = chunk.id := by
  have inTickets : (chunk.tag, 0) ∈ rows.map GuardedVectorRow.ticket := by
    rw [batch.tickets]
    exact List.mem_flatMap.mpr ⟨chunk, member, List.mem_map.mpr
      ⟨0, List.mem_range.mpr (batch.positive chunk member), rfl⟩⟩
  obtain ⟨row, inRows, same⟩ := List.mem_map.mp inTickets
  exact ⟨row, inRows, (Prod.mk.inj (Prod.mk.inj same).1).1⟩

theorem places (batch : Batch count missing rows) :
    (rows.map fun row => row.stored.place).Nodup := by
  have byTicket : rows.map (fun row => row.stored.place) =
      (rows.map GuardedVectorRow.ticket).map fun ticket => (ticket.1.1, ticket.2) := by
    rw [List.map_map]
    rfl
  rw [byTicket, batch.tickets, List.map_flatMap, List.nodup_flatMap]
  constructor
  · intro chunk _
    rw [List.map_map]
    exact List.nodup_range.map fun left right same => (Prod.mk.inj same).2
  · refine (List.pairwise_map.mp batch.distinct).imp fun apart place left right => ?_
    obtain ⟨_, ofLeft, rfl⟩ := List.mem_map.mp left
    obtain ⟨_, _, rfl⟩ := List.mem_map.mp ofLeft
    obtain ⟨_, ofRight, same⟩ := List.mem_map.mp right
    obtain ⟨_, _, rfl⟩ := List.mem_map.mp ofRight
    exact apart (Prod.mk.inj same).1.symm

theorem segments (batch : Batch count missing rows) {chunk : SearchChunk}
    (member : chunk ∈ missing) :
    ((rows.filter fun row => row.chunkId = chunk.id).map GuardedVectorRow.segmentIndex) =
      List.range (count chunk) := by
  have byTicket : (rows.filter fun row => row.chunkId = chunk.id).map
      GuardedVectorRow.segmentIndex = ((rows.map GuardedVectorRow.ticket).filter fun ticket =>
        ticket.1.1 = chunk.id).map Prod.snd := by
    rw [List.filter_map, List.map_map]
    rfl
  rw [byTicket, batch.tickets, filter_tickets batch.distinct member, List.map_map]
  exact List.map_id' _

end Batch

def pending (sidecar : Sidecar) : List SearchChunk :=
  sidecar.chunks.rows.filter fun chunk => !sidecar.hasVector chunk

theorem mem_pending {sidecar : Sidecar} {chunk : SearchChunk} :
    chunk ∈ sidecar.pending ↔ chunk ∈ sidecar.chunks.rows ∧ sidecar.hasVector chunk = false := by
  rw [pending, List.mem_filter, Bool.not_eq_true']

theorem segmentsCovered_of_range {sidecar : Sidecar} {chunkId count : Nat}
    (segments : sidecar.segments chunkId = List.range (count + 1)) :
    sidecar.segmentsCovered chunkId = true := by
  have least : (List.range (count + 1)).min? = some 0 :=
    List.min?_eq_some_iff.mpr ⟨List.mem_range.mpr (Nat.succ_pos _), fun _ _ => Nat.zero_le _⟩
  have greatest : (List.range (count + 1)).max? = some count :=
    List.max?_eq_some_iff.mpr ⟨List.mem_range.mpr (Nat.lt_succ_self _),
      fun _ member => Nat.le_of_lt_succ (List.mem_range.mp member)⟩
  rw [segmentsCovered, segments, least, greatest]
  simp

/-- A batch for chunks that wait is stored whole, and covers them. -/
theorem storeVectorsGuarded_batch {count : SearchChunk → Nat} {missing : List SearchChunk}
    {rows : List GuardedVectorRow} {sidecar : Sidecar}
    (claimed : sidecar.info.embeddingProfileId.isSome = true) (batch : Batch count missing rows)
    (waiting : ∀ chunk ∈ missing, chunk ∈ sidecar.pending) :
    ∃ after, sidecar.storeVectorsGuarded rows = .ok (rows.length, after) ∧
      after.chunks = sidecar.chunks ∧ after.info = sidecar.info ∧ after.fts = sidecar.fts ∧
      after.vectors.rows = sidecar.vectors.rows ++ rows.map GuardedVectorRow.stored := by
  have stored : ∀ row ∈ rows, ∃ chunk ∈ sidecar.chunks.rows,
      (chunk.id, chunk.taskId, chunk.contentHash) =
        (row.chunkId, row.taskId, row.contentHash) := by
    intro row member
    obtain ⟨chunk, inMissing, same⟩ := batch.chunk_of_row member
    exact ⟨chunk, (mem_pending.mp (waiting chunk inMissing)).1, same⟩
  have untouched : ∀ chunk ∈ missing, ∀ vector ∈ sidecar.vectors.rows,
      vector.chunkId ≠ chunk.id := by
    intro chunk inMissing vector inVectors same
    have vectorless := (mem_pending.mp (waiting chunk inMissing)).2
    rw [hasVector, List.any_eq_false] at vectorless
    exact vectorless vector inVectors (decide_eq_true same)
  have places : (sidecar.vectors.rows.map VectorRow.place ++
      rows.map fun row => row.stored.place).Nodup := by
    refine List.nodup_append.mpr ⟨sidecar.vectors.distinct, batch.places, ?_⟩
    rintro _ old _ new rfl
    obtain ⟨vector, inVectors, placeEq⟩ := List.mem_map.mp old
    obtain ⟨row, inRows, rowEq⟩ := List.mem_map.mp new
    obtain ⟨chunk, inMissing, same⟩ := batch.chunk_of_row inRows
    refine untouched chunk inMissing vector inVectors ?_
    exact ((Prod.mk.inj (placeEq.trans rowEq.symm)).1).trans (Prod.mk.inj same).1.symm
  obtain ⟨written, vectors⟩ := storeRows_append claimed stored places
  obtain ⟨chunks, info, fts⟩ := storeRows_frame rows sidecar
  refine ⟨(sidecar.storeRows rows).2, ?_, chunks, info, fts, vectors⟩
  have covered : ((sidecar.storeRows rows).1.all
      (sidecar.storeRows rows).2.segmentsCovered) = true := by
    rw [written, List.all_map, List.all_eq_true]
    intro row inRows
    obtain ⟨chunk, inMissing, same⟩ := batch.chunk_of_row inRows
    obtain ⟨highest, countEq⟩ := Nat.exists_eq_succ_of_ne_zero (batch.positive chunk inMissing).ne'
    have chunkEq : row.chunkId = chunk.id := (Prod.mk.inj same).1.symm
    refine @segmentsCovered_of_range _ _ highest ?_
    have old : (sidecar.vectors.rows.filter fun vector => vector.chunkId = row.chunkId) = [] :=
      List.filter_eq_nil_iff.mpr fun vector inVectors sameChunk =>
        untouched chunk inMissing vector inVectors ((of_decide_eq_true sameChunk).trans chunkEq)
    rw [Sidecar.segments, vectors, List.filter_append, old, List.nil_append, List.filter_map,
      List.map_map, chunkEq]
    exact (batch.segments inMissing).trans (congrArg List.range countEq)
  rw [storeVectorsGuarded]
  split
  · rename_i empty
    rw [List.isEmpty_iff.mp empty]
    rfl
  · dsimp only
    rw [if_pos covered, written, List.length_map]

theorem pending_batch {count : SearchChunk → Nat} {missing : List SearchChunk}
    {rows : List GuardedVectorRow} {sidecar after : Sidecar} (batch : Batch count missing rows)
    (chunks : after.chunks = sidecar.chunks)
    (vectors : after.vectors.rows = sidecar.vectors.rows ++ rows.map GuardedVectorRow.stored) :
    after.pending = sidecar.pending.filter fun chunk => chunk.id ∉ missing.map SearchChunk.id := by
  have covers : ∀ chunk : SearchChunk, after.hasVector chunk =
      (sidecar.hasVector chunk || decide (chunk.id ∈ missing.map SearchChunk.id)) := by
    intro chunk
    rw [hasVector, vectors, List.any_append]
    refine congrArg _ (Bool.eq_iff_iff.mpr ?_)
    rw [List.any_map, List.any_eq_true, decide_eq_true_eq, List.mem_map]
    constructor
    · rintro ⟨row, inRows, same⟩
      obtain ⟨other, inMissing, otherEq⟩ := batch.chunk_of_row inRows
      exact ⟨other, inMissing, (Prod.mk.inj otherEq).1.trans (of_decide_eq_true same)⟩
    · rintro ⟨other, inMissing, same⟩
      obtain ⟨row, inRows, rowEq⟩ := batch.row_of_chunk inMissing
      exact ⟨row, inRows, decide_eq_true (rowEq.trans same)⟩
  rw [pending, chunks, pending, List.filter_filter]
  refine List.filter_congr fun chunk _ => ?_
  rw [covers, Bool.not_or, Bool.and_comm, decide_not]

theorem length_filter_taken {waiting sorted : List SearchChunk} (limit : Nat)
    (same : sorted.Perm waiting) (distinct : (waiting.map SearchChunk.id).Nodup) :
    (waiting.filter fun chunk => chunk.id ∉ (sorted.take limit).map SearchChunk.id).length =
      waiting.length - limit := by
  have sortedDistinct : (sorted.map SearchChunk.id).Nodup :=
    (same.map SearchChunk.id).nodup_iff.mpr distinct
  have split := List.take_append_drop limit sorted
  rw [← split, List.map_append, List.nodup_append] at sortedDistinct
  have taken : ((sorted.take limit).filter fun chunk =>
      chunk.id ∉ (sorted.take limit).map SearchChunk.id) = [] :=
    List.filter_eq_nil_iff.mpr fun chunk member kept =>
      of_decide_eq_true kept (List.mem_map_of_mem member)
  have left : ((sorted.drop limit).filter fun chunk =>
      chunk.id ∉ (sorted.take limit).map SearchChunk.id) = sorted.drop limit :=
    List.filter_eq_self.mpr fun chunk member => decide_eq_true fun inTaken =>
      sortedDistinct.2.2 _ inTaken _ (List.mem_map_of_mem member) rfl
  rw [← (same.filter _).length_eq]
  have halves := congrArg (List.filter fun chunk : SearchChunk =>
    chunk.id ∉ (sorted.take limit).map SearchChunk.id) split
  rw [List.filter_append, taken, left, List.nil_append] at halves
  rw [← halves, List.length_drop, same.length_eq]

theorem pending_distinct (sidecar : Sidecar) : (sidecar.pending.map SearchChunk.id).Nodup :=
  (List.Sublist.map _ List.filter_sublist).nodup sidecar.chunks.distinct

theorem missingSemanticInputs_pending {limit : Nat} {sidecar : Sidecar} {chunk : SearchChunk}
    (member : chunk ∈ sidecar.missingSemanticInputs limit) : chunk ∈ sidecar.pending :=
  (List.perm_insertionSort _ sidecar.pending).mem_iff.mp (List.mem_of_mem_take member)

theorem missingSemanticInputs_distinct (limit : Nat) (sidecar : Sidecar) :
    ((sidecar.missingSemanticInputs limit).map SearchChunk.id).Nodup := by
  refine (List.Sublist.map _ (List.take_sublist limit _)).nodup ?_
  exact ((List.perm_insertionSort _ sidecar.pending).map _).nodup_iff.mpr sidecar.pending_distinct

theorem missingSemanticInputs_isEmpty {limit : Nat} (positive : 0 < limit) (sidecar : Sidecar) :
    (sidecar.missingSemanticInputs limit).isEmpty = decide (sidecar.pending.length = 0) := by
  have length : (sidecar.missingSemanticInputs limit).length = min limit sidecar.pending.length := by
    rw [missingSemanticInputs, List.length_take]
    exact congrArg _ (List.length_insertionSort _ _)
  rw [Bool.eq_iff_iff, List.isEmpty_iff, ← List.length_eq_zero_iff, length, decide_eq_true_eq]
  omega

end Sidecar

end RepoLink
