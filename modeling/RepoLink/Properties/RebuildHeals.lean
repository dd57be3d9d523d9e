import RepoLink.Properties.VectorProfile
import RepoLink.Search.Fill

/-!
Rebuild as the recovery: what a search reports that follows it. A rebuild writes the derived rows
and the vectors anew, and leaves the versions and the claim of the metadata as they are.
-/

namespace RepoLink

open Effects Program KeyedTable TaskSearchService

variable {σ : Type} (basis : SearchBasis σ)

/-- The index holds exactly the wanted keys, and its full-text part is sound. -/
structure Sidecar.Settled (sidecar : Sidecar) (targets : List ChunkTarget) : Prop where
  keys : ∀ key, key ∈ sidecar.keys ↔ key ∈ targets.map ChunkTarget.key
  texts : ∀ chunk ∈ sidecar.chunks.rows, chunk.content ∈ targets
  sound : sidecar.ftsIntegrity = true

namespace Sidecar

theorem Settled.filled {sidecar after : Sidecar} {targets : List ChunkTarget}
    (settled : sidecar.Settled targets) (filled : sidecar.Filled after) :
    after.Settled targets where
  keys key := by rw [Sidecar.keys, filled.chunks]; exact settled.keys key
  texts := by rw [filled.chunks]; exact settled.texts
  sound := by rw [ftsIntegrity, filled.chunks, filled.fts]; exact settled.sound

theorem pending_congr {before after : Sidecar} (chunks : after.chunks.rows = before.chunks.rows)
    (vectors : after.vectors.rows = before.vectors.rows) : after.pending = before.pending := by
  rw [pending, chunks, pending]
  refine List.filter_congr fun chunk _ => ?_
  rw [hasVector, vectors, hasVector]

structure Rebuilt (targets : List ChunkTarget) (before after : Sidecar) : Prop where
  settled : after.Settled targets
  info : after.info = { before.info with validatedFingerprint := none }
  waiting : after.pending.length = (firsts ChunkTarget.key targets []).length

theorem rebuild_rebuilt (targets : List ChunkTarget) (sidecar : Sidecar) :
    ∃ written rebuilt, sidecar.rebuild targets = .ok (written, rebuilt) ∧
      Rebuilt targets sidecar rebuilt := by
  obtain ⟨written, rebuilt, new, ran, chunks, fts, contents, info, vectors⟩ :=
    rebuild_grown targets sidecar
  have stored : rebuilt.contents = firsts ChunkTarget.key targets [] := by
    rw [Sidecar.contents, chunks, contents]
  refine ⟨written, rebuilt, ran, ⟨fun key => ?_, fun chunk member => ?_, ?_⟩, info, ?_⟩
  · rw [keys_eq_contents, stored, mem_map_firsts]
    exact and_iff_right List.not_mem_nil
  · have inContents : chunk.content ∈ rebuilt.contents := List.mem_map_of_mem member
    exact firsts_subset (stored ▸ inContents)
  · rw [ftsIntegrity, List.isPerm_iff, fts, chunks]
    exact .refl _
  · have none : rebuilt.pending = rebuilt.chunks.rows := List.filter_eq_self.mpr fun chunk _ => by
      rw [hasVector, vectors]
      rfl
    rw [none, ← stored, Sidecar.contents, List.length_map]

theorem diffChunks_settled {targets : List ChunkTarget}
    {walk : List (ChunkKey × ChunkTarget)} {projected : Nat} {sidecar : Sidecar}
    (walks : walk.Perm (wanted targets).rows) (room : projected ≤ refuseBytes)
    (settled : sidecar.Settled targets) :
    ∃ diff after, sidecar.diffChunks walk targets projected = .ok (diff, after) ∧
      after.info = sidecar.info ∧ after.chunks.rows = sidecar.chunks.rows ∧
      after.pending = sidecar.pending := by
  obtain ⟨diff, after, new, ran, reconciled⟩ := diffChunks_reconciled walks room settled.sound
  have wantedAll : ∀ chunk ∈ sidecar.chunks.rows, unwanted targets chunk = false := by
    intro chunk member
    rw [← Bool.not_eq_true, unwanted_iff, not_not]
    exact (settled.keys _).mp (List.mem_map_of_mem member)
  have nothingNew : new = [] := by
    refine List.map_eq_nil_iff.mp (reconciled.contents.trans (List.map_eq_nil_iff.mpr ?_))
    refine List.filter_eq_nil_iff.mpr fun entry member missing => ?_
    have inWanted := walks.mem_iff.mp member
    have found := Dict.mem_rows_iff.mp inWanted
    rw [get?_wanted] at found
    refine of_decide_eq_true missing ((settled.keys _).mpr ?_)
    rw [wanted_keyed inWanted]
    exact List.mem_map_of_mem (List.mem_reverse.mp (List.mem_of_find?_eq_some found))
  have kept : (sidecar.deleteChunks (unwanted targets)).chunks.rows = sidecar.chunks.rows :=
    List.filter_eq_self.mpr fun chunk member => by rw [wantedAll chunk member]; rfl
  have chunks : after.chunks.rows = sidecar.chunks.rows := by
    rw [reconciled.grown.chunks, nothingNew, List.append_nil, kept]
  have vectors : after.vectors.rows = sidecar.vectors.rows := by
    rw [reconciled.grown.vectors]
    refine List.filter_eq_self.mpr fun row _ => ?_
    have none : sidecar.chunks.rows.filter (unwanted targets) = [] :=
      List.filter_eq_nil_iff.mpr fun chunk member => by
        rw [wantedAll chunk member]
        exact Bool.false_ne_true
    rw [none]
    rfl
  exact ⟨diff, after, ran, reconciled.info, chunks, pending_congr chunks vectors⟩

end Sidecar

theorem Sidecar.Settled.nonempty {sidecar : Sidecar} {source : List TaskTextRow}
    (settled : sidecar.Settled (targetsOf basis source)) :
    ∀ chunk ∈ sidecar.chunks.rows, chunk.text ≠ "" := by
  intro chunk member
  obtain ⟨row, _, ofRow⟩ := List.mem_flatMap.mp (settled.texts chunk member)
  exact @chunkTask_nonempty basis.sha256 row chunk.content ofRow

section Calls

variable (host : SearchHost) {embedder : Embedder}

def waitingAfterRebuild (claimed : Option String) (targets : List ChunkTarget) : Nat :=
  (firsts ChunkTarget.key targets []).length -
    if claimed.isSome then fillBatchSize * unboundedBatches else 0

theorem exec_rebuild (dependable : embedder.Dependable) (world : SearchWorld) :
    ∃ value after, (rebuild basis (some embedder)).exec (serve basis host) world =
        (.ok value, { world with sidecar := after }) ∧
      after.Settled (targetsOf basis world.source) ∧
      after.info = { world.sidecar.info with validatedFingerprint := none } ∧
      after.pending.length = waitingAfterRebuild world.sidecar.info.embeddingProfileId
        (targetsOf basis world.source) := by
  obtain ⟨written, rebuilt, ran, settled, info, waiting⟩ :=
    Sidecar.rebuild_rebuilt (targetsOf basis world.source) world.sidecar
  have profile : rebuilt.info.embeddingProfileId = world.sidecar.info.embeddingProfileId := by
    rw [info]
  let between : SearchWorld := { world with sidecar := rebuilt }
  have start : (rebuild basis (some embedder)).exec (serve basis host) world =
      (Program.bind (fillSemanticVectors basis.sha256 embedder unboundedBatches)
        fun filled => .done (written, some filled)).exec (serve basis host) between := by
    have called : (TaskSearchService.call (.rebuild (targetsOf basis world.source)) :
        Action σ _).exec (serve basis host) world = (.ok (.ok written), between) := by
      change (Except.ok (world.transact (world.sidecar.rebuild _)).1,
        (world.transact (world.sidecar.rebuild _)).2) = _
      rw [ran]
      rfl
    exact Program.exec_bind_ok called
  rw [start]
  obtain ⟨more, bound⟩ : ∃ more, unboundedBatches = more + 1 :=
    ⟨2 ^ 64 - 2, by unfold unboundedBatches; omega⟩
  rw [waitingAfterRebuild, bound]
  cases claim : world.sidecar.info.embeddingProfileId with
  | none =>
      obtain ⟨outcome, filled⟩ := @exec_fill_unclaimed _ basis host _ dependable between
        more (profile.trans claim) (settled.nonempty basis)
      exact ⟨_, rebuilt, Program.exec_bind_ok filled, settled, info, waiting⟩
  | some claimed =>
      obtain ⟨after, ran, filled, left⟩ := @exec_fill_claimed _ basis host _ dependable
        (more + 1) between (by rw [profile, claim]; rfl) (settled.nonempty basis)
      refine ⟨_, after, Program.exec_bind_ok ran, settled.filled filled, filled.info.trans info, ?_⟩
      rw [left, waiting]
      rfl

theorem exec_reconcile_refused {opened : LaneState LexicalUnavailableReason}
    (up : opened.available = true) {world : SearchWorld}
    (full : refuseBytes < projectedBytes (targetsOf basis world.source)) :
    (reconcile basis opened false).exec (serve basis host) world =
      (.ok (.down .storageLimit), { world with session := none }) := by
  let targets := targetsOf basis world.source
  let began : SearchWorld := { world with session := some world.sidecar }
  have diffed : (TaskSearchService.call (.diffChunks targets (projectedBytes targets)) :
      Action σ _).exec (serve basis host) began =
        (.ok (.error LexicalUnavailableReason.storageLimit), began) := by
    have ran : world.sidecar.diffChunks (host.walk (Sidecar.wanted targets)) targets
        (projectedBytes targets) = .error .storageLimit := if_pos full
    change (Except.ok (serve basis host (.diffChunks targets (projectedBytes targets)) began).1,
      (serve basis host (.diffChunks targets (projectedBytes targets)) began).2) = _
    simp only [serve, began, ran]
  rw [reconcile, up, Bool.not_false, Bool.and_true, if_pos rfl]
  exact Program.exec_bind_ok diffed

theorem exec_reconcile_settled {opened : LaneState LexicalUnavailableReason}
    (up : opened.available = true) {world : SearchWorld}
    (settled : world.sidecar.Settled (targetsOf basis world.source))
    (room : projectedBytes (targetsOf basis world.source) ≤ refuseBytes) :
    ∃ after, (reconcile basis opened false).exec (serve basis host) world =
        (.ok opened, { world with sidecar := after, session := none }) ∧
      after.info.embeddingProfileId = world.sidecar.info.embeddingProfileId ∧
      after.chunks.rows = world.sidecar.chunks.rows ∧
      after.pending = world.sidecar.pending := by
  let targets := targetsOf basis world.source
  let began : SearchWorld := { world with session := some world.sidecar }
  obtain ⟨diff, changed, ran, info, chunks, pending⟩ :=
    Sidecar.diffChunks_settled (host.walks (Sidecar.wanted targets)) room settled
  let compared : SearchWorld := { world with session := some changed }
  have diffed : (TaskSearchService.call (.diffChunks targets (projectedBytes targets)) :
      Action σ _).exec (serve basis host) began = (.ok (.ok diff), compared) := by
    change (Except.ok (serve basis host (.diffChunks targets (projectedBytes targets)) began).1,
      (serve basis host (.diffChunks targets (projectedBytes targets)) began).2) = _
    simp only [serve, began, targets, ran, compared]
  have profile : changed.info.embeddingProfileId = world.sidecar.info.embeddingProfileId := by
    rw [info]
  refine ⟨changed.commit (contentFingerprint basis.sha256 targets), ?_, profile, chunks, ?_⟩
  · rw [reconcile, up, Bool.not_false, Bool.and_true, if_pos rfl]
    exact Program.exec_bind_ok diffed
  · rw [← pending]
    exact Sidecar.pending_congr rfl rfl

theorem exec_resultRows (describe : Nat → TaskId → TaskIdentity → SearchResult σ)
    (world : SearchWorld) : ∀ (ordered : List TaskId) (position : Nat),
    ∃ rows, (resultRows describe position ordered).exec (serve basis host) world =
      (.ok rows, world) := by
  intro ordered
  induction ordered with
  | nil => exact fun _ => ⟨[], rfl⟩
  | cons task rest ih =>
      intro position
      obtain ⟨later, ran⟩ := ih (position + 1)
      exact ⟨_, Program.exec_bind_ok ran⟩

def Embedder.FitsOne (embedder : Embedder) (query : String) : Prop :=
  (embedder.inputsOf query).length ≤ 1

instance (embedder : Embedder) (query : String) : Decidable (embedder.FitsOne query) :=
  inferInstanceAs (Decidable (_ ≤ 1))

theorem exec_semanticLane (dependable : embedder.Dependable)
    (covered : LaneState SemanticSkippedReason) {query : String}
    (filled : ∃ char ∈ query.toList, isWhitespace char = false) (eligible : List TaskId)
    (world : SearchWorld) :
    ∃ lane ranks after, (semanticLane (some embedder) covered query eligible).exec
        (serve basis host) world = (.ok (lane, ranks), after) ∧
      lane.available = (covered.available && decide (embedder.FitsOne query)) := by
  rw [semanticLane]
  by_cases up : covered.available = true
  · have some : query ≠ "" := by
      rintro rfl
      obtain ⟨_, member, _⟩ := filled
      cases member
    obtain ⟨entries, embedded⟩ := dependable.queries query filled
    have vector : embedder.embedQuery query = .ok ⟨embedder.profileId, entries⟩ := by
      rw [Embedder.embedQuery, embedded]
      rfl
    simp only [up, Bool.not_true, Bool.false_eq_true, if_false, (dependable.inputsOf some).1,
      vector, Bool.true_and]
    by_cases long : 1 < (embedder.inputsOf query).length
    · rw [if_pos long]
      exact ⟨_, _, world, rfl, (decide_eq_false (Nat.not_le.mpr long)).symm⟩
    · rw [if_neg long]
      exact ⟨_, _, _, rfl, up.trans (decide_eq_true (Nat.not_lt.mp long)).symm⟩
  · have down := Bool.eq_false_of_not_eq_true up
    simp only [down, Bool.not_false, if_true, Bool.false_and]
    exact ⟨_, _, world, rfl, down⟩

theorem exec_retrieve (dependable : embedder.Dependable) {query : String}
    (filled : ∃ char ∈ query.toList, isWhitespace char = false) (mode : QueryMode)
    (lexical : LaneState LexicalUnavailableReason) (covered : LaneState SemanticSkippedReason)
    (request : SearchRequest) (world : SearchWorld) :
    ∃ response after, (retrieve basis (some embedder) query mode lexical covered request).exec
        (serve basis host) world = (.ok response, after) ∧
      response.lexicalAvailable = lexical.available ∧ response.queryMode = mode ∧
      response.semanticAvailable = (covered.available && decide (embedder.FitsOne query)) := by
  let rows := host.eligible request.scope world.source
  let literal := literalLane basis.unicode rows query mode
  have behind : ∀ lexicalRanks, ∃ response after,
      (Program.bind (semanticLane (some embedder) covered query (rows.map TaskTextRow.taskId))
        fun lane => assemble basis query mode lexical lane.1 literal lexicalRanks lane.2
          request.limit).exec (serve basis host) world =
        (.ok response, after) ∧
      response.lexicalAvailable = lexical.available ∧ response.queryMode = mode ∧
      response.semanticAvailable = (covered.available && decide (embedder.FitsOne query)) := by
    intro lexicalRanks
    obtain ⟨lane, ranks, after, ran, available⟩ := exec_semanticLane basis host dependable
      covered filled (rows.map TaskTextRow.taskId) world
    let scores := basis.similarity.toScores
    let fused := rrfFuse scores (lanesOf literal lexicalRanks ranks)
    let ordered := (orderResults scores mode literal lexicalRanks ranks).take request.limit
    obtain ⟨results, described⟩ := exec_resultRows basis host
      (describeResult literal lexicalRanks ranks fused) after ordered 0
    exact ⟨_, after, (Program.exec_bind_ok ran).trans (Program.exec_bind_ok described), rfl, rfl,
      available⟩
  unfold retrieve
  cases up : lexical.available with
  | true =>
      rw [up] at behind
      exact behind (world.sidecar.searchLexical host.engine (buildMatchExpr query)
        (rows.map TaskTextRow.taskId))
  | false =>
      rw [up] at behind
      exact behind []

theorem exec_semanticCoverage_down {gate : LaneState SemanticSkippedReason}
    (down : gate.available = false) (world : SearchWorld) :
    (semanticCoverage basis (some embedder) gate false).exec (serve basis host) world =
      (.ok gate, world) := by
  simp only [semanticCoverage, down, Bool.not_false, if_true]
  rfl

theorem exec_semanticCoverage_up (dependable : embedder.Dependable) {world : SearchWorld}
    (claimed : world.sidecar.info.embeddingProfileId.isSome = true)
    (texts : ∀ chunk ∈ world.sidecar.chunks.rows, chunk.text ≠ "") :
    ∃ covered after, (semanticCoverage basis (some embedder) .up false).exec (serve basis host)
        world = (.ok covered, after) ∧
      (covered.available = true ↔ world.sidecar.pending.length ≤ fillBatchSize) := by
  obtain ⟨after, ran, _, _⟩ := exec_fill_claimed basis host dependable 1 claimed texts
  rw [Nat.mul_one] at ran
  by_cases few : world.sidecar.pending.length ≤ fillBatchSize
  · rw [if_pos few] at ran
    exact ⟨_, _, Program.exec_bind_ok ran, iff_of_true rfl few⟩
  · rw [if_neg few] at ran
    exact ⟨_, _, Program.exec_bind_ok ran, iff_of_false Bool.false_ne_true few⟩

/-- Both semantic gates over an available index: the profile must not be another one, and the
vectors must be there after one batch. -/
theorem exec_gates (dependable : embedder.Dependable) (mode : QueryMode)
    {first second : SearchWorld}
    (same : second.sidecar.info.embeddingProfileId = first.sidecar.info.embeddingProfileId)
    (texts : ∀ chunk ∈ second.sidecar.chunks.rows, chunk.text ≠ "") :
    ∃ gate third covered fourth,
      (semanticGate (some embedder) mode true (some (first.sidecar.metadata false)) false :
        Action σ _).exec (serve basis host) second = (.ok gate, third) ∧
      (semanticCoverage basis (some embedder) gate false).exec (serve basis host) third =
        (.ok covered, fourth) ∧
      (covered.available = true ↔ mode ≠ .exact ∧
        (∀ profile, first.sidecar.info.embeddingProfileId = some profile →
          profile = embedder.profileId) ∧ second.sidecar.pending.length ≤ fillBatchSize) := by
  by_cases exact : mode = .exact
  · refine ⟨.down .exactMode, second, _, second, ?_, exec_semanticCoverage_down basis host rfl second,
      iff_of_false Bool.false_ne_true fun parts => parts.1 exact⟩
    rw [semanticGate, if_pos exact]
    rfl
  · rw [semanticGate, if_neg exact]
    have read : ((some (first.sidecar.metadata false)).bind IndexMetadata.available).bind
        SidecarInfo.embeddingProfileId = first.sidecar.info.embeddingProfileId := rfl
    simp only [Bool.not_true, Bool.false_eq_true, if_false, read]
    cases claim : first.sidecar.info.embeddingProfileId with
    | none =>
        have unclaimed := same.trans claim
        let claimed : SearchWorld :=
          { second with sidecar := (second.sidecar.claimEmptyProfile embedder.profileId).2 }
        have expanded : second.sidecar.claimEmptyProfile embedder.profileId =
            (true, { second.sidecar with info :=
              { second.sidecar.info with embeddingProfileId := some embedder.profileId } }) := by
          rw [Sidecar.claimEmptyProfile, unclaimed]
          rfl
        have called : (TaskSearchService.call (.claimEmptyProfile embedder.profileId) :
            Action σ _).exec (serve basis host) second = (.ok (.ok true), claimed) := by
          change (Except.ok (Except.ok (second.sidecar.claimEmptyProfile _).1), claimed) = _
          rw [expanded]
          rfl
        obtain ⟨covered, fourth, ran, available⟩ := @exec_semanticCoverage_up _ basis host _
          dependable claimed (by simp only [claimed, expanded]; rfl)
          (by simp only [claimed, expanded]; exact texts)
        refine ⟨.up, claimed, covered, fourth, Program.exec_bind_ok called, ran, ?_⟩
        have pending : claimed.sidecar.pending = second.sidecar.pending :=
          Sidecar.pending_congr (by simp only [claimed, expanded]) (by simp only [claimed, expanded])
        rw [available, pending]
        exact ⟨fun few => ⟨exact, fun _ named => (by cases named), few⟩, fun parts => parts.2.2⟩
    | some profile =>
        by_cases own : profile = embedder.profileId
        · obtain ⟨covered, fourth, ran, available⟩ := exec_semanticCoverage_up basis host dependable
            (by rw [same, claim]; rfl) texts
          refine ⟨.up, second, covered, fourth, ?_, ran, ?_⟩
          · simp only [if_pos own]
            rfl
          · rw [available]
            exact ⟨fun few => ⟨exact, fun _ named => Option.some.inj named ▸ own, few⟩,
              fun parts => parts.2.2⟩
        · refine ⟨.down .profileMismatch, second, _, second, ?_,
            exec_semanticCoverage_down basis host rfl second,
            iff_of_false Bool.false_ne_true fun parts => own (parts.2.1 profile rfl)⟩
          simp only [if_neg own]
          rfl

theorem exec_search (dependable : embedder.Dependable) {request : SearchRequest}
    (asked : trim request.query ≠ "") (limited : request.limit ≠ 0)
    (writable : host.access = .writable) {lexical : LaneState LexicalUnavailableReason}
    {gate covered : LaneState SemanticSkippedReason} {first second third fourth : SearchWorld}
    (reconciled : (reconcile basis (openedLane (some (first.sidecar.metadata false)))
      false).exec (serve basis host) first = (.ok lexical, second))
    (gated : (semanticGate (some embedder)
      (classify basis.unicode (trim request.query) request.exact) lexical.available
      (some (first.sidecar.metadata false)) false : Action σ _).exec (serve basis host) second =
        (.ok gate, third))
    (filled : (semanticCoverage basis (some embedder) gate false).exec (serve basis host) third =
      (.ok covered, fourth)) :
    ∃ response after, (search basis (some embedder) request).exec (serve basis host) first =
        (.ok response, after) ∧
      response.lexicalAvailable = lexical.available ∧
      response.queryMode = classify basis.unicode (trim request.query) request.exact ∧
      response.semanticAvailable =
        (covered.available && decide (embedder.FitsOne (trim request.query))) := by
  obtain ⟨response, after, ran, lexicalEq, modeEq, semanticEq⟩ := exec_retrieve basis host dependable
    (trim_filled asked) (classify basis.unicode (trim request.query) request.exact) lexical covered
    request fourth
  have nonempty : ¬(trim request.query).isEmpty = true := by
    rw [String.isEmpty_iff]
    exact asked
  have metadata : (TaskSearchService.call .metadata : Action σ _).exec (serve basis host) first =
      (.ok (.ok (first.sidecar.metadata false)), first) := by
    change (Except.ok (Except.ok (host.metadata first.sidecar)), first) = _
    rw [SearchHost.metadata, writable]
    rfl
  refine ⟨{ response with sidecarReadOnly := none }, after, ?_, lexicalEq, modeEq, semanticEq⟩
  unfold search
  rw [if_neg nonempty, if_neg limited]
  exact (Program.exec_bind_ok metadata).trans ((Program.exec_bind_ok reconciled).trans
    ((Program.exec_bind_ok gated).trans ((Program.exec_bind_ok filled).trans
      (Program.exec_bind_ok ran))))

theorem exec_semanticGate_down {lexical : Bool} (down : lexical = false) (mode : QueryMode)
    (info : Option IndexMetadata) (world : SearchWorld) :
    ∃ reason, (semanticGate (some embedder) mode lexical info false : Action σ _).exec
      (serve basis host) world = (.ok (.down reason), world) := by
  rw [semanticGate, down]
  split <;> exact ⟨_, rfl⟩

theorem exec_search_down (dependable : embedder.Dependable) {request : SearchRequest}
    (asked : trim request.query ≠ "") (limited : request.limit ≠ 0)
    (writable : host.access = .writable) {lexical : LaneState LexicalUnavailableReason}
    {first second : SearchWorld} (down : lexical.available = false)
    (reconciled : (reconcile basis (openedLane (some (first.sidecar.metadata false)))
      false).exec (serve basis host) first = (.ok lexical, second)) :
    ∃ response after, (search basis (some embedder) request).exec (serve basis host) first =
        (.ok response, after) ∧ response.lexicalAvailable = false := by
  obtain ⟨reason, gated⟩ := @exec_semanticGate_down _ basis host embedder _ down
    (classify basis.unicode (trim request.query) request.exact)
    (some (first.sidecar.metadata false)) second
  obtain ⟨response, after, ran, lexicalEq, _⟩ := exec_search basis host dependable asked limited
    writable reconciled gated (exec_semanticCoverage_down basis host rfl second)
  exact ⟨response, after, ran, lexicalEq.trans down⟩

end Calls

/-- After a rebuild that returns `Ok` the next search reports both lanes as available. -/
def RebuildHeals (host : SearchHost) (embedder : Embedder) (world : SearchWorld)
    (request : SearchRequest) : Prop :=
  ∀ value rebuilt,
    (rebuild basis (some embedder)).exec (serve basis host) world = (.ok value, rebuilt) →
    ∃ response after,
      (search basis (some embedder) request).exec (serve basis host) rebuilt =
        (.ok response, after) ∧
      response.lexicalAvailable = true ∧
      (response.queryMode ≠ .exact → embedder.FitsOne (trim request.query) →
        response.semanticAvailable = true)

/-- The versions are those of this binary, the rows are within the budget, and for a query of the
semantic lane the profile is the embedder's own, or nobody's while one batch is enough. -/
structure Recoverable (embedder : Embedder) (world : SearchWorld) (request : SearchRequest) :
    Prop where
  schema : world.sidecar.info.schemaVersion = searchSchemaVersion
  format : world.sidecar.info.chunkFormatVersion = searchChunkFormatVersion
  room : projectedBytes (targetsOf basis world.source) ≤ refuseBytes
  profile : classify basis.unicode (trim request.query) request.exact ≠ .exact →
    embedder.FitsOne (trim request.query) →
    world.sidecar.info.embeddingProfileId = some embedder.profileId ∨
      world.sidecar.info.embeddingProfileId = none ∧
        (firsts ChunkTarget.key (targetsOf basis world.source) []).length ≤ fillBatchSize

variable {basis}

theorem waitingAfterRebuild_le_iff {targets : List ChunkTarget}
    (room : projectedBytes targets ≤ refuseBytes) {claimed : Option String} {own : String} :
    ((∀ profile, claimed = some profile → profile = own) ∧
      waitingAfterRebuild claimed targets ≤ fillBatchSize) ↔
    (claimed = some own ∨
      claimed = none ∧ (firsts ChunkTarget.key targets []).length ≤ fillBatchSize) := by
  obtain ⟨bound, boundEq⟩ : ∃ bound, fillBatchSize * unboundedBatches = bound := ⟨_, rfl⟩
  have few : (firsts ChunkTarget.key targets []).length ≤ bound := by
    have length : (firsts ChunkTarget.key targets []).length ≤ targets.length :=
      firsts_sublist.length_le
    have bytes : targets.length * 1200 ≤ 512 * 1024 * 1024 := room
    have batches : 512 * 1024 * 1024 ≤ fillBatchSize * unboundedBatches := by
      rw [unboundedBatches]
      decide
    omega
  cases claimed with
  | none =>
      rw [waitingAfterRebuild]
      simp
  | some profile =>
      rw [waitingAfterRebuild, boundEq]
      simp [Nat.sub_eq_zero_of_le few]

theorem openedLane_metadata (sidecar : Sidecar) :
    (openedLane (some (sidecar.metadata false))).available = true ↔
      sidecar.info.schemaVersion = searchSchemaVersion ∧
        sidecar.info.chunkFormatVersion = searchChunkFormatVersion := by
  rw [openedLane, Sidecar.metadata]
  by_cases schema : sidecar.info.schemaVersion = searchSchemaVersion
  · by_cases format : sidecar.info.chunkFormatVersion = searchChunkFormatVersion
    · simp [schema, format, LaneState.up]
    · simp [schema, format, LaneState.down]
  · simp [schema, LaneState.down]

theorem rebuildHeals_of_ran {host : SearchHost} {embedder : Embedder} {world rebuilt : SearchWorld}
    {request : SearchRequest} {value : Nat × Option FillOutcome}
    (rebuildRan : (rebuild basis (some embedder)).exec (serve basis host) world =
      (.ok value, rebuilt)) :
    RebuildHeals basis host embedder world request ↔ ∃ response after,
      (search basis (some embedder) request).exec (serve basis host) rebuilt =
        (.ok response, after) ∧
      response.lexicalAvailable = true ∧
      (response.queryMode ≠ .exact → embedder.FitsOne (trim request.query) →
        response.semanticAvailable = true) := by
  constructor
  · exact fun heals => heals value rebuilt rebuildRan
  · rintro reports _ _ ran
    have same := (Prod.mk.inj (rebuildRan.symm.trans ran)).2
    exact same ▸ reports

section Request

variable {host : SearchHost} {embedder : Embedder} {world : SearchWorld} {request : SearchRequest}
  (writable : host.access = .writable) (dependable : embedder.Dependable)
  (asked : trim request.query ≠ "") (limited : request.limit ≠ 0)

include writable dependable asked limited

theorem not_heals_of_down {rebuilt second : SearchWorld} {value : Nat × Option FillOutcome}
    (rebuildRan : (rebuild basis (some embedder)).exec (serve basis host) world =
      (.ok value, rebuilt))
    {lexical : LaneState LexicalUnavailableReason} (down : lexical.available = false)
    (reconciled : (reconcile basis (openedLane (some (rebuilt.sidecar.metadata false)))
      false).exec (serve basis host) rebuilt = (.ok lexical, second)) :
    ¬RebuildHeals basis host embedder world request := by
  intro heals
  obtain ⟨response, after, ran, reported, _⟩ := (rebuildHeals_of_ran rebuildRan).mp heals
  obtain ⟨other, _, otherRan, otherDown⟩ := @exec_search_down _ basis host _ dependable _ asked
    limited writable _ rebuilt second down reconciled
  have same : response = other := Except.ok.inj (Prod.mk.inj (ran.symm.trans otherRan)).1
  rw [← same, reported] at otherDown
  cases otherDown

theorem not_heals_of_version (other : ¬(world.sidecar.info.schemaVersion = searchSchemaVersion ∧
      world.sidecar.info.chunkFormatVersion = searchChunkFormatVersion)) :
    ¬RebuildHeals basis host embedder world request := by
  obtain ⟨value, sidecar, rebuildRan, _, info, _⟩ := exec_rebuild basis host dependable world
  let rebuilt : SearchWorld := { world with sidecar }
  have down : (openedLane (some (sidecar.metadata false))).available = false := by
    rw [← Bool.not_eq_true, openedLane_metadata, info]
    exact other
  have skipped : (reconcile basis (openedLane (some (sidecar.metadata false))) false).exec
      (serve basis host) rebuilt = (.ok (openedLane (some (sidecar.metadata false))), rebuilt) := by
    rw [reconcile, down, Bool.false_and, if_neg Bool.false_ne_true]
    rfl
  exact not_heals_of_down writable dependable asked limited rebuildRan down skipped

end Request

theorem rebuild_heals_iff {host : SearchHost} {embedder : Embedder} {world : SearchWorld}
    {request : SearchRequest} (writable : host.access = .writable)
    (dependable : embedder.Dependable) (asked : trim request.query ≠ "")
    (limited : request.limit ≠ 0) :
    RebuildHeals basis host embedder world request ↔
      Recoverable basis embedder world request := by
  obtain ⟨value, sidecar, rebuildRan, settled, info, waiting⟩ :=
    exec_rebuild basis host dependable world
  let rebuilt : SearchWorld := { world with sidecar }
  have versions : (openedLane (some (sidecar.metadata false))).available = true ↔
      world.sidecar.info.schemaVersion = searchSchemaVersion ∧
        world.sidecar.info.chunkFormatVersion = searchChunkFormatVersion := by
    rw [openedLane_metadata, info]
  by_cases current : (openedLane (some (sidecar.metadata false))).available = true
  · by_cases room : projectedBytes (targetsOf basis world.source) ≤ refuseBytes
    · obtain ⟨after, reconciled, profile, chunks, pending⟩ :=
        @exec_reconcile_settled _ basis host _ current rebuilt settled room
      let mode := classify basis.unicode (trim request.query) request.exact
      let second : SearchWorld := { rebuilt with sidecar := after, session := none }
      obtain ⟨gate, third, covered, fourth, gated, filled, available⟩ :=
        @exec_gates _ basis host _ dependable mode rebuilt second profile
          (by rw [chunks]; exact settled.nonempty basis)
      rw [← current] at gated
      have nothingElse : RebuildHeals basis host embedder world request ↔
          (mode ≠ .exact → embedder.FitsOne (trim request.query) → covered.available = true) := by
        obtain ⟨response, last, ran, lexicalEq, modeEq, semanticEq⟩ :=
          @exec_search _ basis host _ dependable _ asked limited writable _ _ _ rebuilt second
            third fourth reconciled gated filled
        have up : response.lexicalAvailable = true := lexicalEq.trans current
        have semantic : embedder.FitsOne (trim request.query) →
            response.semanticAvailable = covered.available := fun fits => by
          rw [semanticEq, decide_eq_true fits, Bool.and_true]
        rw [rebuildHeals_of_ran rebuildRan]
        constructor
        · rintro ⟨reported, _, otherRan, _, needed⟩ natural fits
          have same : reported = response :=
            Except.ok.inj (Prod.mk.inj (otherRan.symm.trans ran)).1
          rw [same] at needed
          rw [← semantic fits]
          exact needed (fun same => natural (modeEq.symm.trans same)) fits
        · intro needed
          refine ⟨response, last, ran, up, fun natural fits => ?_⟩
          rw [semantic fits]
          exact needed (fun same => natural (modeEq.trans same)) fits
      have claim : rebuilt.sidecar.info.embeddingProfileId =
          world.sidecar.info.embeddingProfileId := by
        change sidecar.info.embeddingProfileId = _
        rw [info]
      have left : second.sidecar.pending.length = waitingAfterRebuild
          world.sidecar.info.embeddingProfileId (targetsOf basis world.source) := by
        change after.pending.length = _
        rw [pending]
        exact waiting
      rw [claim, left, waitingAfterRebuild_le_iff room] at available
      rw [nothingElse]
      constructor
      · intro needed
        obtain ⟨schema, format⟩ := versions.mp current
        exact ⟨schema, format, room, fun natural fits => (available.mp (needed natural fits)).2⟩
      · intro recoverable natural fits
        exact available.mpr ⟨natural, recoverable.profile natural fits⟩
    · have refused := @exec_reconcile_refused _ basis host _ current rebuilt (Nat.not_le.mp room)
      exact iff_of_false
        (not_heals_of_down writable dependable asked limited rebuildRan rfl refused)
        fun recoverable => room recoverable.room
  · have other := mt versions.mpr current
    exact iff_of_false (not_heals_of_version writable dependable asked limited other)
      fun recoverable => other ⟨recoverable.schema, recoverable.format⟩

theorem plainEmbedder_dependable (profileId : String) : (plainEmbedder profileId).Dependable where
  plans text _ := ⟨[text], rfl, List.cons_ne_nil _ _⟩
  embeds _ := ⟨_, rfl, List.length_map _⟩
  queries _ _ := ⟨[1], rfl⟩

def olderWorld : SearchWorld where
  source := [⟨⟨1⟩, ⟨1⟩, none, true, "a", "", []⟩]
  sidecar := { Sidecar.fresh with info := { Sidecar.fresh.info with schemaVersion := 1 } }

/-- The schema version outlives the rebuild, and the next search refuses it. -/
theorem rebuild_keeps_old_schema : plainHost.access = .writable ∧
    (plainEmbedder "a").Dependable ∧
    ¬RebuildHeals countingBasis plainHost (plainEmbedder "a") olderWorld ⟨"a", {}, false, 10⟩ :=
  ⟨rfl, plainEmbedder_dependable "a",
    not_heals_of_version rfl (plainEmbedder_dependable "a") (by decide +kernel) (by decide)
      (by decide)⟩

theorem rebuild_heals_iff_unsearched :
    RebuildHeals countingBasis plainHost (plainEmbedder "a") unsearchedWorld
      ⟨"a", {}, false, 10⟩ := by
  refine (rebuild_heals_iff rfl (plainEmbedder_dependable "a") (by decide +kernel)
    (by decide)).mpr ⟨rfl, rfl, ?_, fun _ _ => .inr ⟨rfl, ?_⟩⟩
  · decide +kernel
  · decide +kernel

end RepoLink
