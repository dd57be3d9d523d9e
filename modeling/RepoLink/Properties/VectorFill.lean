import RepoLink.Properties.VectorProfile
import RepoLink.Search.Fill

/-!
Filling vectors, with any embedder and with calls that may fail: every round that goes on takes a
waiting chunk off, what is stored for a chunk is all of its plan, and `complete` means that no chunk
waits. A batch that would leave a gap is not stored.
-/

namespace RepoLink

open Effects Program KeyedTable TaskSearchService Traversals

variable {σ : Type} {basis : SearchBasis σ} {embedder : Embedder} {world : SearchWorld}

def Sidecar.embeddedOf (sidecar : Sidecar) (chunk : SearchChunk) : List (Nat × Digest) :=
  (sidecar.vectorsOf chunk.id).map fun row => (row.segmentIndex, row.inputHash)

def plannedSegments (sha256 : HashFunction) (inputs : List String) : List (Nat × Digest) :=
  inputs.mapIdx fun segment text => (segment, sha256.ofText text)

def Sidecar.Gapped (sidecar : Sidecar) (chunkId : Nat) : Prop :=
  ∃ segment ∈ sidecar.segments chunkId, ∃ lower < segment, lower ∉ sidecar.segments chunkId

section Batches

variable {sha256 : HashFunction} {missing : List SearchChunk} {rows : List GuardedVectorRow}

structure Embedded (sha256 : HashFunction) (embedder : Embedder) (missing : List SearchChunk)
    (rows : List GuardedVectorRow) : Prop where
  planned : ∀ chunk ∈ missing,
    embedder.planSemanticInputs chunk.text = .ok (embedder.inputsOf chunk.text)
  tickets : rows.map GuardedVectorRow.ticket = missing.flatMap fun chunk =>
    (List.range (embedder.inputsOf chunk.text).length).map fun segment => (chunk.tag, segment)
  entries : rows.map (fun row => (row.chunkId, row.segmentIndex, row.inputHash)) =
    missing.flatMap fun chunk =>
      (plannedSegments sha256 (embedder.inputsOf chunk.text)).map fun entry => (chunk.id, entry)

theorem embedBatch_embedded (embedded : embedBatch sha256 embedder missing = some rows) :
    Embedded sha256 embedder missing rows := by
  let inputs := plannedInputs embedder
  rw [embedBatch] at embedded
  cases planning : missing.mapM (chunkInputs embedder) with
  | error error =>
      rw [planning] at embedded
      cases embedded
  | ok planned =>
      rw [planning] at embedded
      dsimp only at embedded
      obtain ⟨each, rfl⟩ := mapM_ok_each (fun _ _ ran => (chunkInputs_ok_iff.mp ran).2) planning
      cases embedding : embedder.embedInputs ((missing.map inputs).flatten.map PlannedInput.text)
        with
      | error error =>
          rw [embedding] at embedded
          cases embedded
      | ok vectors =>
          rw [embedding] at embedded
          dsimp only at embedded
          split at embedded
          · cases embedded
          · rename_i full
            have full := not_not.mp full
            cases Option.some.inj embedded
            refine ⟨fun chunk member => ?_, ?_, ?_⟩
            · exact (chunkInputs_ok_iff.mp (each chunk member)).1
            · rw [@map_zipWith_left _ _ _ _ _ GuardedVectorRow.ticket PlannedInput.ticket
                (fun _ _ => rfl) _ _ full, List.map_flatten, List.map_map, ← List.flatMap_def]
              exact List.flatMap_congr fun chunk _ => mapIdx_tickets chunk _
            · rw [@map_zipWith_left _ _ _ _ _
                (fun row : GuardedVectorRow => (row.chunkId, row.segmentIndex, row.inputHash))
                (fun input : PlannedInput => (input.chunkId, input.segmentIndex, sha256.ofText input.text))
                (fun _ _ => rfl) _ _ full, List.map_flatten, List.map_map, ← List.flatMap_def]
              refine List.flatMap_congr fun chunk _ => ?_
              refine List.ext_getElem (by simp [plannedInputs, plannedSegments]) fun position _ _ => ?_
              simp [plannedInputs, plannedSegments]

theorem flatMap_filter_of_nil {α β : Type} {keep : α → Bool} {made : α → List β} {items : List α}
    (empty : ∀ item, keep item = false → made item = []) :
    (items.filter keep).flatMap made = items.flatMap made := by
  induction items with
  | nil => rfl
  | cons item rest ih =>
      cases kept : keep item with
      | true => rw [List.filter_cons_of_pos kept, List.flatMap_cons, List.flatMap_cons, ih]
      | false =>
          rw [List.filter_cons_of_neg (by rw [kept]; exact Bool.false_ne_true), List.flatMap_cons,
            empty item kept, ih]
          rfl

def plannedChunks (embedder : Embedder) (missing : List SearchChunk) : List SearchChunk :=
  missing.filter fun chunk => 0 < (embedder.inputsOf chunk.text).length

theorem Embedded.batch (embedded : Embedded sha256 embedder missing rows)
    (distinct : (missing.map SearchChunk.id).Nodup) :
    Sidecar.Batch (fun chunk => (embedder.inputsOf chunk.text).length)
      (plannedChunks embedder missing) rows := by
  refine ⟨?_, (List.filter_sublist.map _).nodup distinct,
    fun chunk member => of_decide_eq_true (List.mem_filter.mp member).2⟩
  rw [embedded.tickets, plannedChunks, flatMap_filter_of_nil fun chunk empty => ?_]
  have none : (embedder.inputsOf chunk.text).length = 0 := by
    have unplanned := of_decide_eq_false empty
    omega
  rw [none]
  rfl

theorem entries_of_chunk (rows : List GuardedVectorRow) (chunkId : Nat) :
    ((rows.filter fun row => row.chunkId = chunkId).map fun row =>
        (row.segmentIndex, row.inputHash)) =
      ((rows.map fun row => (row.chunkId, row.segmentIndex, row.inputHash)).filter fun entry =>
        entry.1 = chunkId).map Prod.snd := by
  rw [List.filter_map, List.map_map]
  rfl

theorem owned_entries (chunk : SearchChunk) :
    ∀ entry ∈ (plannedSegments sha256 (embedder.inputsOf chunk.text)).map fun entry =>
      (chunk.id, entry), entry.1 = chunk.id := by
  intro entry member
  obtain ⟨_, _, rfl⟩ := List.mem_map.mp member
  rfl

theorem Embedded.own (embedded : Embedded sha256 embedder missing rows)
    (distinct : (missing.map SearchChunk.id).Nodup) {chunk : SearchChunk}
    (member : chunk ∈ missing) :
    ((rows.filter fun row => row.chunkId = chunk.id).map fun row =>
        (row.segmentIndex, row.inputHash)) =
      plannedSegments sha256 (embedder.inputsOf chunk.text) := by
  rw [entries_of_chunk, embedded.entries, Sidecar.filter_own owned_entries distinct member,
    List.map_map]
  exact List.map_id' _

theorem Embedded.foreign (embedded : Embedded sha256 embedder missing rows) {chunkId : Nat}
    (apart : chunkId ∉ missing.map SearchChunk.id) :
    ((rows.filter fun row => row.chunkId = chunkId).map fun row =>
      (row.segmentIndex, row.inputHash)) = [] := by
  rw [entries_of_chunk, embedded.entries, Sidecar.filter_foreign owned_entries apart]
  rfl

end Batches

section Rounds

def Fills (sha256 : HashFunction) (embedder : Embedder) (before after : Sidecar)
    (chunk : SearchChunk) : Prop :=
  after.embeddedOf chunk = before.embeddedOf chunk ∨
    before.embeddedOf chunk = [] ∧ ∃ inputs, embedder.planSemanticInputs chunk.text = .ok inputs ∧
      inputs ≠ [] ∧ after.embeddedOf chunk = plannedSegments sha256 inputs

theorem hasVector_iff {sidecar : Sidecar} {chunk : SearchChunk} :
    sidecar.hasVector chunk = false ↔ sidecar.embeddedOf chunk = [] := by
  rw [Sidecar.embeddedOf, List.map_eq_nil_iff, Sidecar.vectorsOf, List.filter_eq_nil_iff,
    Sidecar.hasVector, List.any_eq_false]

theorem Fills.trans {sha256 : HashFunction} {first second third : Sidecar} {chunk : SearchChunk}
    (fills : Fills sha256 embedder first second chunk)
    (later : Fills sha256 embedder second third chunk) :
    Fills sha256 embedder first third chunk := by
  rcases fills with kept | ⟨empty, inputs, planned, some, stored⟩
  · rcases later with keptLater | ⟨empty, found⟩
    · exact .inl (keptLater.trans kept)
    · exact .inr ⟨kept ▸ empty, found⟩
  · rcases later with kept | ⟨emptyLater, _⟩
    · exact .inr ⟨empty, inputs, planned, some, kept.trans stored⟩
    · rw [stored, plannedSegments, List.mapIdx_eq_nil_iff] at emptyLater
      exact (some emptyLater).elim

inductive RoundEnds (waiting : Nat) : Bool → FillOutcome → Prop where
  | failed {more : Bool} : RoundEnds waiting more .failed
  | complete {more : Bool} : waiting = 0 → RoundEnds waiting more .complete
  | incomplete : waiting ≠ 0 → RoundEnds waiting false .incomplete

theorem RoundEnds.again {waiting : Nat} {more : Bool} {outcome : FillOutcome}
    (ends : RoundEnds waiting more outcome) (spare : more = true ∨ waiting = 0) (left : Bool) :
    RoundEnds waiting left outcome := by
  cases ends with
  | failed => exact .failed
  | complete none => exact .complete none
  | incomplete some =>
      rcases spare with absent | none
      · cases absent
      · exact (some none).elim

def RoundGoesOn (basis : SearchBasis σ) (embedder : Embedder) (world next : SearchWorld) : Prop :=
  ∃ rows stored after, world.sidecar.pending.length ≠ 0 ∧
    embedBatch basis.sha256 embedder (world.sidecar.missingSemanticInputs fillBatchSize) =
      some rows ∧
    world.sidecar.storeVectorsGuarded rows = .ok (stored, after) ∧ stored ≠ 0 ∧
    next = { world with sidecar := after }

theorem storeRows_nothing {rows : List GuardedVectorRow} {sidecar : Sidecar}
    (nothing : (sidecar.storeRows rows).1 = []) : (sidecar.storeRows rows).2 = sidecar := by
  induction rows with
  | nil => rfl
  | cons row rest ih =>
      rw [Sidecar.storeRows] at nothing ⊢
      split at nothing
      · cases nothing
      · rename_i refused
        rw [dif_neg refused]
        exact ih nothing

theorem missing_isEmpty (world : SearchWorld) :
    (world.sidecar.missingSemanticInputs fillBatchSize).isEmpty =
      decide (world.sidecar.pending.length = 0) :=
  Sidecar.missingSemanticInputs_isEmpty (by decide) _

/-- One round ends the loop and leaves everything as it was, or goes on. -/
theorem fillRound_cases {more : Option (Action σ FillOutcome)}
    {result : Except SearchError FillOutcome} {after : SearchWorld}
    (ran : (fillRound basis.sha256 embedder more).Runs (searchMeaning basis) world result after) :
    (after = world ∧ ∃ outcome, RoundEnds world.sidecar.pending.length more.isSome outcome ∧
        result = .ok outcome) ∨
      ∃ rest next, more = some rest ∧ RoundGoesOn basis embedder world next ∧
        rest.Runs (searchMeaning basis) next result after := by
  unfold fillRound at ran
  obtain ⟨answer, middle, answered, ran⟩ := ran
  rcases answered with ⟨host, served⟩ | ⟨⟨error, rfl⟩, rfl⟩
  · cases served
    change Program.Runs (searchMeaning basis) (if (world.sidecar.missingSemanticInputs
      fillBatchSize).isEmpty then _ else _) world result after at ran
    rw [missing_isEmpty] at ran
    by_cases none : world.sidecar.pending.length = 0
    · rw [if_pos (decide_eq_true none)] at ran
      exact .inl ⟨ran.2, .complete, .complete none, ran.1⟩
    · rw [if_neg (by simpa using none)] at ran
      cases more with
      | none => exact .inl ⟨ran.2, .incomplete, .incomplete none, ran.1⟩
      | some rest =>
          dsimp only at ran
          cases embedded : embedBatch basis.sha256 embedder
              (world.sidecar.missingSemanticInputs fillBatchSize) with
          | none =>
              rw [embedded] at ran
              exact .inl ⟨ran.2, .failed, .failed, ran.1⟩
          | some rows =>
              rw [embedded] at ran
              obtain ⟨answer, middle, answered, ran⟩ := ran
              rcases answered with ⟨host, served⟩ | ⟨⟨error, rfl⟩, rfl⟩
              · cases stored : world.sidecar.storeVectorsGuarded rows with
                | error error =>
                    change world.transact _ = _ at served
                    rw [stored] at served
                    cases served
                    exact .inl ⟨ran.2, .failed, .failed, ran.1⟩
                | ok made =>
                    change world.transact _ = _ at served
                    rw [stored] at served
                    cases served
                    change Program.Runs (searchMeaning basis) (if made.1 = 0 then _ else rest)
                      { world with sidecar := made.2 } result after at ran
                    by_cases nothing : made.1 = 0
                    · rw [if_pos nothing] at ran
                      obtain ⟨countEq, lastEq⟩ := Sidecar.storeVectorsGuarded_ok stored
                      have same : made.2 = world.sidecar := by
                        rw [lastEq]
                        exact storeRows_nothing (List.length_eq_zero_iff.mp (countEq ▸ nothing))
                      rw [same] at ran
                      exact .inl ⟨ran.2, .failed, .failed, ran.1⟩
                    · rw [if_neg nothing] at ran
                      exact .inr ⟨rest, _, rfl,
                        ⟨rows, made.1, made.2, none, embedded, stored, nothing, rfl⟩, ran⟩
              · exact .inl ⟨ran.2, .failed, .failed, ran.1⟩
  · exact .inl ⟨ran.2, .failed, .failed, ran.1⟩

theorem fillRound_ends (host : SearchHost) {more : Option (Action σ FillOutcome)}
    {outcome : FillOutcome}
    (ends : RoundEnds world.sidecar.pending.length more.isSome outcome) :
    (fillRound basis.sha256 embedder more).Runs (searchMeaning basis) world (.ok outcome) world := by
  have empty := missing_isEmpty world
  unfold fillRound
  generalize moreEq : more.isSome = left at ends
  cases ends with
  | failed => exact ⟨.error (.backend ""), world, .inr ⟨⟨_, rfl⟩, rfl⟩, rfl, rfl⟩
  | complete none =>
      refine ⟨_, world, .inl ⟨host, rfl⟩, ?_⟩
      change Program.Runs (searchMeaning basis) (if (world.sidecar.missingSemanticInputs
        fillBatchSize).isEmpty then _ else _) world _ _
      rw [empty, if_pos (decide_eq_true none)]
      exact ⟨rfl, rfl⟩
  | incomplete some =>
      refine ⟨_, world, .inl ⟨host, rfl⟩, ?_⟩
      change Program.Runs (searchMeaning basis) (if (world.sidecar.missingSemanticInputs
        fillBatchSize).isEmpty then _ else _) world _ _
      rw [empty, if_neg (by simpa using some)]
      cases more with
      | none => exact ⟨rfl, rfl⟩
      | some rest => cases moreEq

theorem fillRound_goes (host : SearchHost) {rest : Action σ FillOutcome} {next after : SearchWorld}
    {result : Except SearchError FillOutcome} (goes : RoundGoesOn basis embedder world next)
    (ran : rest.Runs (searchMeaning basis) next result after) :
    (fillRound basis.sha256 embedder (some rest)).Runs (searchMeaning basis) world result after := by
  obtain ⟨rows, stored, last, waiting, embedded, ranStore, some, rfl⟩ := goes
  have empty := missing_isEmpty world
  unfold fillRound
  refine ⟨_, world, .inl ⟨host, rfl⟩, ?_⟩
  change Program.Runs (searchMeaning basis) (if (world.sidecar.missingSemanticInputs
    fillBatchSize).isEmpty then _ else _) world _ _
  rw [empty, if_neg (by simpa using waiting), embedded]
  refine ⟨.ok stored, { world with sidecar := last }, .inl ⟨host, ?_⟩, ?_⟩
  · change world.transact _ = _
    rw [ranStore]
    rfl
  · change Program.Runs (searchMeaning basis) (if stored = 0 then _ else rest) _ _ _
    rw [if_neg some]
    exact ran

/-- A round that goes on stores whole plans of chunks that waited, and fewer wait. -/
theorem RoundGoesOn.progress {next : SearchWorld} (goes : RoundGoesOn basis embedder world next) :
    next.sidecar.chunks = world.sidecar.chunks ∧
      next.sidecar.pending.length < world.sidecar.pending.length ∧
      ∀ chunk ∈ world.sidecar.chunks.rows,
        Fills basis.sha256 embedder world.sidecar next.sidecar chunk := by
  obtain ⟨rows, stored, after, waiting, embeddedRows, ranStore, some, rfl⟩ := goes
  have embedded := embedBatch_embedded embeddedRows
  have distinct := Sidecar.missingSemanticInputs_distinct fillBatchSize world.sidecar
  have batch := embedded.batch distinct
  have pendingOf : ∀ chunk ∈ world.sidecar.missingSemanticInputs fillBatchSize,
      chunk ∈ world.sidecar.pending :=
    fun _ member => Sidecar.missingSemanticInputs_pending member
  have claimed : world.sidecar.info.embeddingProfileId.isSome = true := by
    by_contra unclaimed
    have none : world.sidecar.info.embeddingProfileId = none := by
      simpa using unclaimed
    obtain ⟨countEq, _⟩ := Sidecar.storeVectorsGuarded_ok ranStore
    rw [Sidecar.storeRows_unclaimed none] at countEq
    exact some countEq
  obtain ⟨last, ranBatch, chunks, _, _, vectors⟩ := Sidecar.storeVectorsGuarded_batch claimed batch
    fun chunk member => pendingOf chunk (List.mem_filter.mp member).1
  rw [ranStore] at ranBatch
  obtain ⟨rfl, rfl⟩ := Prod.mk.inj (Except.ok.inj ranBatch)
  refine ⟨chunks, ?_, fun chunk inChunks => ?_⟩
  · change after.pending.length < _
    rw [Sidecar.pending_batch batch chunks vectors]
    obtain ⟨row, inRows⟩ := List.exists_mem_of_length_pos (Nat.pos_of_ne_zero some)
    obtain ⟨chunk, inPlanned, _⟩ := batch.chunk_of_row inRows
    refine List.length_filter_lt_length_iff_exists.mpr
      ⟨chunk, pendingOf chunk (List.mem_filter.mp inPlanned).1, ?_⟩
    rw [decide_eq_true_eq, not_not]
    exact List.mem_map_of_mem inPlanned
  · have grown : after.embeddedOf chunk = world.sidecar.embeddedOf chunk ++
        (rows.filter fun row => row.chunkId = chunk.id).map fun row =>
          (row.segmentIndex, row.inputHash) := by
      rw [Sidecar.embeddedOf, Sidecar.vectorsOf, vectors, List.filter_append, List.map_append,
        List.filter_map, List.map_map]
      rfl
    by_cases member : chunk ∈ world.sidecar.missingSemanticInputs fillBatchSize
    · have empty := hasVector_iff.mp (Sidecar.mem_pending.mp (pendingOf chunk member)).2
      rw [embedded.own distinct member, empty, List.nil_append] at grown
      by_cases unplanned : embedder.inputsOf chunk.text = []
      · left
        change after.embeddedOf chunk = _
        rw [grown, empty, unplanned]
        rfl
      · exact .inr ⟨empty, _, embedded.planned chunk member, unplanned, grown⟩
    · left
      have apart : chunk.id ∉ (world.sidecar.missingSemanticInputs fillBatchSize).map
          SearchChunk.id := by
        intro inIds
        obtain ⟨other, inMissing, same⟩ := List.mem_map.mp inIds
        have stored := (Sidecar.mem_pending.mp (pendingOf other inMissing)).1
        rw [Table.row_unique stored inChunks same] at inMissing
        exact member inMissing
      change after.embeddedOf chunk = _
      rw [grown, embedded.foreign apart, List.append_nil]

end Rounds

section Fill

structure FillEnds (sha256 : HashFunction) (embedder : Embedder) (before after : Sidecar)
    (outcome : FillOutcome) : Prop where
  chunks : after.chunks = before.chunks
  fills : ∀ chunk ∈ before.chunks.rows, Fills sha256 embedder before after chunk
  complete : outcome = .complete → after.pending.length = 0

theorem RoundEnds.fillEnds {more : Bool} {outcome : FillOutcome}
    (ends : RoundEnds world.sidecar.pending.length more outcome) :
    FillEnds basis.sha256 embedder world.sidecar world.sidecar outcome := by
  refine ⟨rfl, fun _ _ => .inl rfl, fun complete => ?_⟩
  subst complete
  cases ends with
  | complete none => exact none

theorem fillSemanticVectors_ends : ∀ (batches : Nat) {world after : SearchWorld}
    {result : Except SearchError FillOutcome},
    (fillSemanticVectors basis.sha256 embedder batches).Runs (searchMeaning basis) world result
      after →
    ∃ outcome, result = .ok outcome ∧
      FillEnds basis.sha256 embedder world.sidecar after.sidecar outcome := by
  intro batches
  induction batches with
  | zero =>
      intro world after result ran
      rcases fillRound_cases ran with ⟨rfl, outcome, ends, rfl⟩ | ⟨rest, _, noRest, _⟩
      · exact ⟨outcome, rfl, ends.fillEnds⟩
      · cases noRest
  | succ batches ih =>
      intro world after result ran
      rcases fillRound_cases ran with ⟨rfl, outcome, ends, rfl⟩ | ⟨rest, next, same, goes, ranRest⟩
      · exact ⟨outcome, rfl, ends.fillEnds⟩
      · cases Option.some.inj same
        obtain ⟨chunks, _, fills⟩ := goes.progress
        obtain ⟨outcome, resultEq, later⟩ := ih ranRest
        refine ⟨outcome, resultEq, later.chunks.trans chunks, fun chunk member => ?_,
          later.complete⟩
        exact (fills chunk member).trans (later.fills chunk (chunks ▸ member))

theorem fill_batches_suffice (host : SearchHost) : ∀ (batches more : Nat)
    {world after : SearchWorld} {result : Except SearchError FillOutcome},
    world.sidecar.pending.length ≤ batches → world.sidecar.pending.length ≤ more →
    (fillSemanticVectors basis.sha256 embedder batches).Runs (searchMeaning basis) world result
      after →
    (fillSemanticVectors basis.sha256 embedder more).Runs (searchMeaning basis) world result
      after := by
  intro batches
  induction batches with
  | zero =>
      intro more world after result none _ ran
      have empty := Nat.le_zero.mp none
      rcases fillRound_cases ran with ⟨rfl, outcome, ends, rfl⟩ | ⟨rest, _, noRest, _⟩
      · cases more with
        | zero => exact fillRound_ends host (ends.again (.inr empty) _)
        | succ more => exact fillRound_ends host (ends.again (.inr empty) _)
      · cases noRest
  | succ batches ih =>
      intro more world after result enough enoughMore ran
      rcases fillRound_cases ran with ⟨rfl, outcome, ends, rfl⟩ | ⟨rest, next, same, goes, ranRest⟩
      · cases more with
        | zero => exact fillRound_ends host (ends.again (.inl rfl) _)
        | succ more => exact fillRound_ends host (ends.again (.inl rfl) _)
      · cases Option.some.inj same
        have fewer := goes.progress.2.1
        cases more with
        | zero => exact absurd enoughMore (by omega)
        | succ more => exact fillRound_goes host goes (ih more (by omega) (by omega) ranRest)

end Fill

section Gaps

theorem not_gapped_of_covered {sidecar : Sidecar} {chunkId : Nat}
    (covered : sidecar.segmentsCovered chunkId = true) : ¬sidecar.Gapped chunkId := by
  unfold Sidecar.segmentsCovered at covered
  obtain ⟨_, spans⟩ := Bool.and_eq_true_iff.mp covered
  obtain ⟨highest, greatest, length⟩ := (Option.any_eq_true _ _).mp spans
  have length := of_decide_eq_true length
  have bounded : sidecar.segments chunkId ⊆ List.range (highest + 1) := by
    intro segment member
    exact List.mem_range.mpr (Nat.lt_succ_of_le ((List.max?_eq_some_iff.mp greatest).2 _ member))
  have distinct : (sidecar.segments chunkId).Nodup := by
    have kept : (sidecar.vectors.rows.filter fun row => row.chunkId = chunkId).Sublist
        sidecar.vectors.rows := List.filter_sublist
    have places := (kept.map VectorRow.place).nodup sidecar.vectors.distinct
    refine List.pairwise_map.mpr ((List.pairwise_map.mp places).imp_of_mem ?_)
    intro left right inLeft inRight apart same
    have ofLeft := of_decide_eq_true (List.mem_filter.mp inLeft).2
    have ofRight := of_decide_eq_true (List.mem_filter.mp inRight).2
    exact apart (Prod.ext (ofLeft.trans ofRight.symm) same)
  have all := (List.subperm_of_subset distinct bounded).perm_of_length_le
    (by rw [List.length_range, length])
  rintro ⟨segment, member, lower, below, missing⟩
  have inRange := List.mem_range.mp (bounded member)
  exact missing (all.mem_iff.mpr (List.mem_range.mpr (by omega)))

theorem storeVectorsGuarded_gap {sidecar : Sidecar} {rows : List GuardedVectorRow} {chunkId : Nat}
    (written : chunkId ∈ (sidecar.storeRows rows).1)
    (gapped : (sidecar.storeRows rows).2.Gapped chunkId) :
    ∃ error, sidecar.storeVectorsGuarded rows = .error error := by
  rw [Sidecar.storeVectorsGuarded]
  split
  · rename_i empty
    rw [List.isEmpty_iff.mp empty] at written
    exact (List.not_mem_nil written).elim
  · dsimp only
    rw [if_neg]
    · exact ⟨_, rfl⟩
    · intro covered
      exact not_gapped_of_covered (List.all_eq_true.mp covered chunkId written) gapped

theorem segments_storeVector {sidecar : Sidecar} {row : GuardedVectorRow} {chunkId : Nat}
    (passes : sidecar.guardPasses row = true) (other : row.chunkId ≠ chunkId) :
    (sidecar.storeVector row passes).segments chunkId = sidecar.segments chunkId := by
  have kept : ((sidecar.vectors.filter fun stored =>
      !(stored.place = row.stored.place && stored.inputHash ≠ row.inputHash)).rows.filter
        fun stored => stored.chunkId = chunkId) =
      sidecar.vectors.rows.filter fun stored => stored.chunkId = chunkId := by
    refine (List.filter_filter ..).trans (List.filter_congr fun stored _ => ?_)
    by_cases own : stored.chunkId = chunkId
    · have elsewhere : stored.place ≠ row.stored.place := fun same =>
        other ((Prod.mk.inj same).1.symm.trans own)
      simp [own, elsewhere]
    · simp [own]
  rw [Sidecar.segments, Sidecar.segments, Sidecar.storeVector]
  split
  · exact congrArg _ kept
  · have foreign : ([row.stored].filter fun stored => stored.chunkId = chunkId) = [] :=
      List.filter_eq_nil_iff.mpr fun stored member same => by
        rw [List.mem_singleton.mp member] at same
        exact other (of_decide_eq_true same)
    change (((_ : List VectorRow) ++ [row.stored]).filter _).map _ = _
    rw [List.filter_append, kept, foreign, List.append_nil]

theorem segments_storeRows {rows : List GuardedVectorRow} {chunkId : Nat} :
    ∀ {sidecar : Sidecar}, chunkId ∉ (sidecar.storeRows rows).1 →
      (sidecar.storeRows rows).2.segments chunkId = sidecar.segments chunkId := by
  induction rows with
  | nil => exact fun _ => rfl
  | cons row rest ih =>
      intro sidecar unwritten
      rw [Sidecar.storeRows] at unwritten ⊢
      split at unwritten
      · rename_i passes
        rw [dif_pos passes]
        have other : row.chunkId ≠ chunkId := fun same =>
          unwritten (same ▸ List.mem_cons_self)
        have later := ih fun inRest => unwritten (List.mem_cons_of_mem _ inRest)
        exact later.trans (segments_storeVector passes other)
      · rename_i refused
        rw [dif_neg refused]
        exact ih unwritten

theorem storeVectorsGuarded_kept {rows : List GuardedVectorRow} {chunkId : Nat}
    (gapped : (world.sidecar.storeRows rows).2.Gapped chunkId)
    (own : chunkId ∈ (world.sidecar.storeRows rows).1 ∨ ¬world.sidecar.Gapped chunkId)
    {answer : (SearchOp.storeVectorsGuarded rows).Answer σ} {after : SearchWorld}
    (answered : searchMeaning basis (.storeVectorsGuarded rows) world answer after) :
    after = world ∧ ∃ error : PortError, answer = .error error := by
  have written : chunkId ∈ (world.sidecar.storeRows rows).1 := by
    refine own.elim (fun written => written) fun whole => ?_
    by_contra unwritten
    unfold Sidecar.Gapped at gapped whole
    rw [segments_storeRows unwritten] at gapped
    exact whole gapped
  obtain ⟨error, refused⟩ := storeVectorsGuarded_gap written gapped
  rcases answered with ⟨host, served⟩ | ⟨⟨failure, rfl⟩, rfl⟩
  · change world.transact _ = _ at served
    rw [refused] at served
    cases served
    exact ⟨rfl, error, rfl⟩
  · exact ⟨rfl, failure, rfl⟩

end Gaps

/-- Filling ends by itself, after at most one batch for each chunk that waits. If it is complete,
every chunk that had no vector has those of its whole plan, and the others keep theirs. A batch that
would leave a gap stores nothing. -/
theorem fillSemanticVectors_fills (basis : SearchBasis σ) (host : SearchHost)
    (embedder : Embedder) (world : SearchWorld) :
    (∀ batches, ∃ outcome after, (fillSemanticVectors basis.sha256 embedder batches).Runs
      (searchMeaning basis) world (.ok outcome) after) ∧
    (∀ batches, world.sidecar.pending.length ≤ batches → ∀ result after,
      (fillSemanticVectors basis.sha256 embedder batches).Runs (searchMeaning basis) world result
          after ↔
        (fillSemanticVectors basis.sha256 embedder world.sidecar.pending.length).Runs
          (searchMeaning basis) world result after) ∧
    (∀ batches after, (fillSemanticVectors basis.sha256 embedder batches).Runs
        (searchMeaning basis) world (.ok .complete) after →
      after.sidecar.chunks = world.sidecar.chunks ∧ ∀ chunk ∈ world.sidecar.chunks.rows,
        (world.sidecar.embeddedOf chunk ≠ [] ∧
            after.sidecar.embeddedOf chunk = world.sidecar.embeddedOf chunk) ∨
          (world.sidecar.embeddedOf chunk = [] ∧
            ∃ inputs, embedder.planSemanticInputs chunk.text = .ok inputs ∧ inputs ≠ [] ∧
              after.sidecar.embeddedOf chunk = plannedSegments basis.sha256 inputs)) ∧
    (∀ rows chunkId, (world.sidecar.storeRows rows).2.Gapped chunkId →
      (chunkId ∈ (world.sidecar.storeRows rows).1 ∨ ¬world.sidecar.Gapped chunkId) →
      ∀ answer after, searchMeaning basis (.storeVectorsGuarded rows) world answer after →
        after = world ∧ ∃ error : PortError, answer = .error error) := by
  refine ⟨fun batches => ?_, fun batches enough result after => ?_, fun batches after ran => ?_,
    fun rows chunkId gapped own answer after => storeVectorsGuarded_kept gapped own⟩
  · have ran := @Program.exec_runs _ _ SearchError FillOutcome _ (searchMeaning basis)
      (serve basis host) (fun world => world) (serve_meaning basis host)
      (fillSemanticVectors basis.sha256 embedder batches) world
    obtain ⟨outcome, same, _⟩ := fillSemanticVectors_ends batches ran
    rw [same] at ran
    exact ⟨outcome, _, ran⟩
  · exact ⟨fill_batches_suffice host _ _ enough (Nat.le_refl _),
      fill_batches_suffice host _ _ (Nat.le_refl _) enough⟩
  · obtain ⟨outcome, same, ends⟩ := fillSemanticVectors_ends batches ran
    cases Except.ok.inj same
    refine ⟨ends.chunks, fun chunk member => ?_⟩
    have stored : after.sidecar.embeddedOf chunk ≠ [] := by
      intro empty
      have waits : chunk ∈ after.sidecar.pending :=
        Sidecar.mem_pending.mpr ⟨ends.chunks ▸ member, hasVector_iff.mpr empty⟩
      rw [List.length_eq_zero_iff.mp (ends.complete rfl)] at waits
      exact List.not_mem_nil waits
    rcases ends.fills chunk member with kept | filled
    · exact .inl ⟨fun empty => stored (kept.trans empty), kept⟩
    · exact .inr filled

def halvingEmbedder : Embedder where
  profileId := "a"
  planSemanticInputs _ := .ok ["a", "b"]
  queryEntries _ := .ok [1]
  inputEntries texts := .ok (texts.map fun _ => [1])

def plannedOnce : SearchWorld where
  source := []
  sidecar :=
    { info := ⟨searchSchemaVersion, searchChunkFormatVersion, some "a", none⟩
      chunks := ⟨[⟨1, ⟨1⟩, .core, ⟨[]⟩, "ab"⟩], List.nodup_singleton _⟩
      unique := List.nodup_singleton _
      vectors := ⟨[⟨1, 0, ⟨[]⟩, ⟨"a", [1]⟩⟩], List.nodup_singleton _⟩
      owned := fun _ member => List.mem_singleton.mpr
        (congrArg VectorRow.chunkId (List.mem_singleton.mp member))
      fts := [(1, "ab")] }

/-- A vector of another plan is left alone, and the fill is complete all the same. -/
theorem plannedOnce_complete :
    (fillSemanticVectors countingBasis.sha256 halvingEmbedder 1).Runs
        (searchMeaning countingBasis) plannedOnce (.ok .complete) plannedOnce ∧
      ∃ chunk ∈ plannedOnce.sidecar.chunks.rows, ∃ inputs,
        halvingEmbedder.planSemanticInputs chunk.text = .ok inputs ∧
          plannedOnce.sidecar.segments chunk.id ≠ List.range inputs.length := by
  refine ⟨fillRound_ends plainHost (.complete rfl), _, List.mem_cons_self, ["a", "b"], rfl, ?_⟩
  decide

end RepoLink
