import RepoLink.Library.Traverse
import RepoLink.Search.Coverage
import RepoLink.Search.World

/-!
The fill loop on a sidecar that can be written, with an embedder that does not fail: how far a
number of batches gets.
-/

namespace RepoLink

open Effects Program KeyedTable TaskSearchService Traversals

/-- No call fails: a text has its inputs, every input its vector, and so has every query with
anything in it. -/
structure Embedder.Dependable (embedder : Embedder) : Prop where
  plans : ∀ text, text ≠ "" →
    ∃ inputs, embedder.planSemanticInputs text = .ok inputs ∧ inputs ≠ []
  embeds : ∀ texts, ∃ vectors, embedder.inputEntries texts = .ok vectors ∧
    vectors.length = texts.length
  queries : ∀ query : String, (∃ char ∈ query.toList, isWhitespace char = false) →
    ∃ entries, embedder.queryEntries query = .ok entries

def Embedder.inputsOf (embedder : Embedder) (text : String) : List String :=
  match embedder.planSemanticInputs text with
  | .ok inputs => inputs
  | .error _ => []

theorem Embedder.Dependable.inputsOf {embedder : Embedder} (dependable : embedder.Dependable)
    {text : String} (nonempty : text ≠ "") :
    embedder.planSemanticInputs text = .ok (embedder.inputsOf text) ∧
      0 < (embedder.inputsOf text).length := by
  obtain ⟨inputs, planned, filled⟩ := dependable.plans text nonempty
  rw [Embedder.inputsOf, planned]
  exact ⟨rfl, List.length_pos_iff.mpr filled⟩

theorem map_zipWith_left {α β γ δ : Type} {f : α → β → γ} {g : γ → δ} {h : α → δ}
    (left : ∀ item other, g (f item other) = h item) : ∀ {items : List α} {others : List β},
    others.length = items.length → (items.zipWith f others).map g = items.map h := by
  intro items
  induction items with
  | nil => exact fun _ => rfl
  | cons item rest ih =>
      intro others same
      cases others with
      | nil => cases same
      | cons other more =>
          rw [List.zipWith_cons_cons, List.map_cons, List.map_cons, left,
            ih (Nat.succ.inj same)]

def PlannedInput.ticket (input : PlannedInput) : (Nat × TaskId × Digest) × Nat :=
  ((input.chunkId, input.taskId, input.contentHash), input.segmentIndex)

theorem mapIdx_tickets (chunk : SearchChunk) (texts : List String) :
    (texts.mapIdx fun segment text => (⟨chunk.id, chunk.taskId, chunk.contentHash, segment, text⟩ :
      PlannedInput)).map PlannedInput.ticket =
      (List.range texts.length).map fun segment => (chunk.tag, segment) := by
  refine List.ext_getElem (by simp) fun position _ _ => ?_
  simp [PlannedInput.ticket, SearchChunk.tag]

def plannedInputs (embedder : Embedder) (chunk : SearchChunk) : List PlannedInput :=
  (embedder.inputsOf chunk.text).mapIdx fun segment text =>
    ⟨chunk.id, chunk.taskId, chunk.contentHash, segment, text⟩

theorem chunkInputs_ok_iff {embedder : Embedder} {chunk : SearchChunk}
    {planned : List PlannedInput} :
    chunkInputs embedder chunk = .ok planned ↔
      embedder.planSemanticInputs chunk.text = .ok (embedder.inputsOf chunk.text) ∧
        planned = plannedInputs embedder chunk := by
  unfold chunkInputs plannedInputs Embedder.inputsOf
  cases embedder.planSemanticInputs chunk.text with
  | error error =>
      constructor
      · intro ran
        cases ran
      · rintro ⟨plan, _⟩
        cases plan
  | ok texts => exact ⟨fun ran => ⟨rfl, (Except.ok.inj ran).symm⟩, fun both => by rw [both.2]; rfl⟩

theorem embedBatch_dependable {sha256 : HashFunction} {embedder : Embedder}
    (dependable : embedder.Dependable) {missing : List SearchChunk}
    (texts : ∀ chunk ∈ missing, chunk.text ≠ "")
    (distinct : (missing.map SearchChunk.id).Nodup) :
    ∃ rows, embedBatch sha256 embedder missing = some rows ∧
      Sidecar.Batch (fun chunk => (embedder.inputsOf chunk.text).length) missing rows := by
  let inputs := plannedInputs embedder
  have planned : missing.mapM (chunkInputs embedder) = .ok (missing.map inputs) :=
    mapM_ok fun chunk member =>
      chunkInputs_ok_iff.mpr ⟨(dependable.inputsOf (texts chunk member)).1, rfl⟩
  obtain ⟨entries, embedded, length⟩ :=
    dependable.embeds ((missing.map inputs).flatten.map PlannedInput.text)
  have vectors : embedder.embedInputs ((missing.map inputs).flatten.map PlannedInput.text) =
      .ok (entries.map fun entry => ⟨embedder.profileId, entry⟩) := by
    rw [Embedder.embedInputs, embedded]
    rfl
  have full : (entries.map fun entry => (⟨embedder.profileId, entry⟩ : Vector)).length =
      (missing.map inputs).flatten.length := by
    rw [List.length_map, length, List.length_map]
  refine ⟨(missing.map inputs).flatten.zipWith (PlannedInput.row sha256)
      (entries.map fun entry => ⟨embedder.profileId, entry⟩), ?_, ?_, distinct,
    fun chunk member => (dependable.inputsOf (texts chunk member)).2⟩
  · rw [embedBatch, planned]
    simp only [vectors]
    rw [if_neg (not_not.mpr full)]
  · rw [@map_zipWith_left _ _ _ _ _ GuardedVectorRow.ticket PlannedInput.ticket
        (fun _ _ => rfl) _ _ full, List.map_flatten, List.map_map, ← List.flatMap_def]
    refine List.flatMap_congr fun chunk _ => ?_
    exact mapIdx_tickets chunk (embedder.inputsOf chunk.text)

/-- Only vectors differ. -/
structure Sidecar.Filled (before after : Sidecar) : Prop where
  chunks : after.chunks = before.chunks
  info : after.info = before.info
  fts : after.fts = before.fts

theorem Sidecar.Filled.refl (sidecar : Sidecar) : sidecar.Filled sidecar := ⟨rfl, rfl, rfl⟩

theorem Sidecar.Filled.trans {first second third : Sidecar} (filled : first.Filled second)
    (later : second.Filled third) : first.Filled third :=
  ⟨later.chunks.trans filled.chunks, later.info.trans filled.info, later.fts.trans filled.fts⟩

section Loop

variable {σ : Type} (basis : SearchBasis σ) (host : SearchHost) {embedder : Embedder}

theorem exec_fillRound_done {world : SearchWorld} (more : Option (Action σ FillOutcome))
    (empty : world.sidecar.pending.length = 0) :
    (fillRound basis.sha256 embedder more).exec (serve basis host) world =
      (.ok .complete, world) := by
  have none : (world.sidecar.missingSemanticInputs fillBatchSize).isEmpty = true := by
    rw [Sidecar.missingSemanticInputs_isEmpty (by decide), empty]
    rfl
  change Program.exec (serve basis host) (if (world.sidecar.missingSemanticInputs
    fillBatchSize).isEmpty then _ else _) world = _
  rw [if_pos none]
  rfl

theorem exec_fillRound_last {world : SearchWorld}
    (waiting : world.sidecar.pending.length ≠ 0) :
    (fillRound basis.sha256 embedder none).exec (serve basis host) world =
      (.ok .incomplete, world) := by
  have some : ¬(world.sidecar.missingSemanticInputs fillBatchSize).isEmpty = true := by
    rw [Sidecar.missingSemanticInputs_isEmpty (by decide), decide_eq_true_eq]
    exact waiting
  change Program.exec (serve basis host) (if (world.sidecar.missingSemanticInputs
    fillBatchSize).isEmpty then _ else _) world = _
  rw [if_neg some]
  rfl

/-- A round that stores its batch takes 64 chunks off. -/
theorem exec_fillRound_stored (dependable : embedder.Dependable) {world : SearchWorld}
    (rest : Action σ FillOutcome) (waiting : world.sidecar.pending.length ≠ 0)
    (claimed : world.sidecar.info.embeddingProfileId.isSome = true)
    (texts : ∀ chunk ∈ world.sidecar.chunks.rows, chunk.text ≠ "") :
    ∃ after, (fillRound basis.sha256 embedder (some rest)).exec (serve basis host) world =
        rest.exec (serve basis host) { world with sidecar := after } ∧
      world.sidecar.Filled after ∧
      after.pending.length = world.sidecar.pending.length - fillBatchSize := by
  let missing := world.sidecar.missingSemanticInputs fillBatchSize
  have filled : ¬missing.isEmpty = true := by
    rw [Sidecar.missingSemanticInputs_isEmpty (by decide), decide_eq_true_eq]
    exact waiting
  have pending : ∀ chunk ∈ missing, chunk ∈ world.sidecar.pending :=
    fun _ member => Sidecar.missingSemanticInputs_pending member
  obtain ⟨rows, embedded, batch⟩ := @embedBatch_dependable basis.sha256 embedder dependable missing
    (fun chunk member => texts chunk (Sidecar.mem_pending.mp (pending chunk member)).1)
    (Sidecar.missingSemanticInputs_distinct _ _)
  obtain ⟨after, stored, chunks, info, fts, vectors⟩ :=
    Sidecar.storeVectorsGuarded_batch claimed batch pending
  have someRow : rows.length ≠ 0 := by
    intro none
    obtain ⟨chunk, member⟩ := List.exists_mem_of_ne_nil missing
      (fun empty => filled (List.isEmpty_iff.mpr empty))
    obtain ⟨row, inRows, _⟩ := batch.row_of_chunk member
    rw [List.length_eq_zero_iff.mp none] at inRows
    cases inRows
  have ran : (TaskSearchService.call (.storeVectorsGuarded rows) : Action σ _).exec
      (serve basis host) world = (.ok (.ok rows.length), { world with sidecar := after }) := by
    change (Except.ok (world.transact (world.sidecar.storeVectorsGuarded rows)).1,
      (world.transact (world.sidecar.storeVectorsGuarded rows)).2) = _
    rw [stored]
    rfl
  refine ⟨after, ?_, ⟨chunks, info, fts⟩, ?_⟩
  · change Program.exec (serve basis host) (if missing.isEmpty then _ else _) world = _
    rw [if_neg filled, embedded]
    refine (Program.exec_bind_ok ran).trans ?_
    change Program.exec (serve basis host) (if rows.length = 0 then _ else rest) _ = _
    rw [if_neg someRow]
  · rw [Sidecar.pending_batch batch chunks vectors]
    exact Sidecar.length_filter_taken fillBatchSize
      (List.perm_insertionSort _ world.sidecar.pending) world.sidecar.pending_distinct

theorem exec_fillRound_refused (dependable : embedder.Dependable) {world : SearchWorld}
    (rest : Action σ FillOutcome) (waiting : world.sidecar.pending.length ≠ 0)
    (unclaimed : world.sidecar.info.embeddingProfileId = none)
    (texts : ∀ chunk ∈ world.sidecar.chunks.rows, chunk.text ≠ "") :
    (fillRound basis.sha256 embedder (some rest)).exec (serve basis host) world =
      (.ok .failed, world) := by
  let missing := world.sidecar.missingSemanticInputs fillBatchSize
  have filled : ¬missing.isEmpty = true := by
    rw [Sidecar.missingSemanticInputs_isEmpty (by decide), decide_eq_true_eq]
    exact waiting
  obtain ⟨rows, embedded, _⟩ := @embedBatch_dependable basis.sha256 embedder dependable missing
    (fun chunk member => texts chunk
      (Sidecar.mem_pending.mp (Sidecar.missingSemanticInputs_pending member)).1)
    (Sidecar.missingSemanticInputs_distinct _ _)
  have stored : world.sidecar.storeVectorsGuarded rows = .ok (0, world.sidecar) := by
    rw [Sidecar.storeVectorsGuarded, Sidecar.storeRows_unclaimed unclaimed]
    split <;> rfl
  have ran : (TaskSearchService.call (.storeVectorsGuarded rows) : Action σ _).exec
      (serve basis host) world = (.ok (.ok (0 : Nat)), world) := by
    change (Except.ok (world.transact (world.sidecar.storeVectorsGuarded rows)).1,
      (world.transact (world.sidecar.storeVectorsGuarded rows)).2) = _
    rw [stored]
    rfl
  change Program.exec (serve basis host) (if missing.isEmpty then _ else _) world = _
  rw [if_neg filled, embedded]
  exact Program.exec_bind_ok ran

theorem exec_fill_unclaimed (dependable : embedder.Dependable) {world : SearchWorld}
    (batches : Nat) (unclaimed : world.sidecar.info.embeddingProfileId = none)
    (texts : ∀ chunk ∈ world.sidecar.chunks.rows, chunk.text ≠ "") :
    ∃ outcome, (fillSemanticVectors basis.sha256 embedder (batches + 1)).exec (serve basis host)
      world = (.ok outcome, world) := by
  rw [fillSemanticVectors]
  by_cases waiting : world.sidecar.pending.length = 0
  · exact ⟨_, exec_fillRound_done basis host _ waiting⟩
  · exact ⟨_, exec_fillRound_refused basis host dependable _ waiting unclaimed texts⟩

/-- Under a claimed profile each batch takes 64 chunks off, and the loop is complete exactly if
the batches do for all. -/
theorem exec_fill_claimed (dependable : embedder.Dependable) : ∀ (batches : Nat)
    {world : SearchWorld}, world.sidecar.info.embeddingProfileId.isSome = true →
    (∀ chunk ∈ world.sidecar.chunks.rows, chunk.text ≠ "") →
    ∃ after, (fillSemanticVectors basis.sha256 embedder batches).exec (serve basis host) world =
        (.ok (if world.sidecar.pending.length ≤ fillBatchSize * batches then .complete
          else .incomplete), { world with sidecar := after }) ∧
      world.sidecar.Filled after ∧
      after.pending.length = world.sidecar.pending.length - fillBatchSize * batches := by
  intro batches
  induction batches with
  | zero =>
      intro world _ _
      refine ⟨world.sidecar, ?_, .refl _, (Nat.sub_zero _).symm⟩
      rw [fillSemanticVectors]
      by_cases waiting : world.sidecar.pending.length = 0
      · rw [exec_fillRound_done basis host _ waiting, waiting, if_pos (Nat.zero_le _)]
      · rw [exec_fillRound_last basis host waiting, if_neg (by omega)]
  | succ batches ih =>
      intro world claimed texts
      rw [fillSemanticVectors]
      by_cases waiting : world.sidecar.pending.length = 0
      · refine ⟨world.sidecar, ?_, .refl _, by omega⟩
        rw [exec_fillRound_done basis host _ waiting, waiting, if_pos (Nat.zero_le _)]
      · obtain ⟨middle, round, filled, left⟩ := exec_fillRound_stored basis host dependable
          (fillSemanticVectors basis.sha256 embedder batches) waiting claimed texts
        obtain ⟨after, ran, later, rest⟩ := @ih { world with sidecar := middle }
          (by rw [filled.info]; exact claimed) (by rw [filled.chunks]; exact texts)
        refine ⟨after, ?_, filled.trans later, ?_⟩
        · rw [round, ran]
          have bound : middle.pending.length ≤ fillBatchSize * batches ↔
              world.sidecar.pending.length ≤ fillBatchSize * (batches + 1) := by
            rw [left, Nat.mul_succ]
            omega
          simp only [bound]
        · rw [rest]
          change middle.pending.length - _ = _
          rw [left, Nat.mul_succ]
          omega

end Loop

end RepoLink
