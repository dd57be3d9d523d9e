import RepoLink.Search.Chunker

/-!
The task-search sidecar: its tables with their constraints, and the statements of
`SqliteTaskSearchIndex` over them. The validated-integrity marker is cut down to its fingerprint,
which no statement reads.
-/

namespace RepoLink

open KeyedTable

def searchSchemaVersion : Int := 2
def searchChunkFormatVersion : Int := 1

def refuseBytes : Nat := 512 * 1024 * 1024

/-- An embedding. `producer` is the profile of the embedder that made it; no statement reads it. -/
structure Vector where
  producer : String
  entries : List UInt32
deriving DecidableEq, Repr

structure SearchMeta where
  schemaVersion : Int
  chunkFormatVersion : Int
  embeddingProfileId : Option String
  validatedFingerprint : Option Digest
deriving DecidableEq, Repr

structure SearchChunk where
  id : Nat
  taskId : TaskId
  kind : ChunkKind
  contentHash : Digest
  text : String
deriving DecidableEq, Repr

def SearchChunk.key (chunk : SearchChunk) : ChunkKey := (chunk.taskId, chunk.contentHash)

structure VectorRow where
  chunkId : Nat
  segmentIndex : Nat
  inputHash : Digest
  vector : Vector
deriving DecidableEq, Repr

def VectorRow.place (row : VectorRow) : Nat × Nat := (row.chunkId, row.segmentIndex)

/-- The constraints are the primary keys, the unique key of a chunk and the foreign key of a
vector. `fts` is the full-text index, kept by the triggers. -/
structure Sidecar where
  info : SearchMeta
  chunks : Table SearchChunk.id
  unique : (chunks.rows.map SearchChunk.key).Nodup
  vectors : Table VectorRow.place
  owned : ∀ row ∈ vectors.rows, row.chunkId ∈ chunks.rows.map SearchChunk.id
  fts : List (Nat × String)

/-- A batch row of `store_vectors_guarded`. -/
structure GuardedVectorRow where
  chunkId : Nat
  taskId : TaskId
  contentHash : Digest
  segmentIndex : Nat
  inputHash : Digest
  vector : Vector
deriving DecidableEq, Repr

def GuardedVectorRow.stored (row : GuardedVectorRow) : VectorRow :=
  ⟨row.chunkId, row.segmentIndex, row.inputHash, row.vector⟩

structure Similarity (σ : Type) extends Scores σ where
  cosine : List UInt32 → List UInt32 → σ
  negInfinity : σ

inductive LexicalUnavailableReason where
  | sidecarUnavailable
  | permissionDenied
  | schemaMismatch
  | indexCorrupt
  | storageLimit
  | reconciliationFailed
deriving DecidableEq, Repr

structure ReconcileDiff where
  inserted : Nat
  deleted : Nat
  desiredTotal : Nat
deriving DecidableEq, Repr

def MatchedSourceKind.ofChunk : ChunkKind → MatchedSourceKind
  | .core => .core
  | .comment => .comment

namespace Sidecar

def fresh : Sidecar where
  info := ⟨searchSchemaVersion, searchChunkFormatVersion, none, none⟩
  chunks := .empty
  unique := List.nodup_nil
  vectors := .empty
  owned _ member := absurd member List.not_mem_nil
  fts := []

def keys (sidecar : Sidecar) : List ChunkKey := sidecar.chunks.rows.map SearchChunk.key

def nextChunkId (sidecar : Sidecar) : Nat :=
  (sidecar.chunks.rows.map SearchChunk.id).foldr max 0 + 1

theorem nextChunkId_fresh (sidecar : Sidecar) :
    sidecar.nextChunkId ∉ sidecar.chunks.rows.map SearchChunk.id :=
  fun member => Nat.not_succ_le_self _ (le_foldr_max _ _ member)

def newChunk (target : ChunkTarget) (sidecar : Sidecar) : SearchChunk :=
  ⟨sidecar.nextChunkId, target.taskId, target.kind, target.contentHash, target.text⟩

/-- The `INSERT` of a chunk with its trigger; the unique key rejects a stored pair. -/
def insertChunk (target : ChunkTarget) (sidecar : Sidecar) : Except PortError Sidecar :=
  if stored : target.key ∈ sidecar.keys then
    .error (.backend "UNIQUE constraint failed: task_search_chunks.task_id, content_hash")
  else .ok
    { sidecar with
      chunks := sidecar.chunks.append (sidecar.newChunk target) sidecar.nextChunkId_fresh
      unique := by
        change ((sidecar.chunks.rows ++ [sidecar.newChunk target]).map SearchChunk.key).Nodup
        rw [List.map_append, List.map_singleton, List.nodup_append]
        refine ⟨sidecar.unique, List.nodup_singleton _, ?_⟩
        intro key member added addedEq same
        rw [List.mem_singleton.mp addedEq] at same
        have taken : target.key = key := same.symm
        exact stored (taken ▸ member)
      owned := fun row member => by
        change row.chunkId ∈ (sidecar.chunks.rows ++ [sidecar.newChunk target]).map SearchChunk.id
        rw [List.map_append]
        exact List.mem_append_left _ (sidecar.owned row member)
      fts := sidecar.fts ++ [(sidecar.nextChunkId, target.text)] }

def deleteChunks (drop : SearchChunk → Bool) (sidecar : Sidecar) : Sidecar :=
  let dropped : List Nat := (sidecar.chunks.rows.filter drop).map SearchChunk.id
  { sidecar with
    chunks := sidecar.chunks.filter fun chunk => !drop chunk
    unique := (List.Sublist.map _ List.filter_sublist).nodup sidecar.unique
    vectors := sidecar.vectors.filter fun row => !dropped.contains row.chunkId
    owned := fun row member => by
      have parts := List.mem_filter.mp member
      obtain ⟨chunk, stored, idEq⟩ := List.mem_map.mp (sidecar.owned row parts.1)
      refine List.mem_map.mpr ⟨chunk, List.mem_filter.mpr ⟨stored, ?_⟩, idEq⟩
      cases dropping : drop chunk with
      | false => rfl
      | true =>
          have inDropped : row.chunkId ∈ dropped :=
            List.mem_map.mpr ⟨chunk, List.mem_filter.mpr ⟨stored, dropping⟩, idEq⟩
          have kept := parts.2
          rw [List.contains_iff_mem.mpr inDropped] at kept
          cases kept
    fts := sidecar.fts.filter fun entry => !dropped.contains entry.1 }

def clearAll (sidecar : Sidecar) : Sidecar := { fresh with info := sidecar.info }

def clear (sidecar : Sidecar) : Sidecar := sidecar.clearAll

def insertUnseen : List ChunkTarget → List ChunkKey → Sidecar → Except PortError (Nat × Sidecar)
  | [], _, sidecar => .ok (0, sidecar)
  | target :: rest, seen, sidecar =>
    if target.key ∈ seen then insertUnseen rest seen sidecar
    else do
      let inserted ← sidecar.insertChunk target
      let (written, last) ← insertUnseen rest (target.key :: seen) inserted
      return (written + 1, last)

/-- Everything derived is written anew, under the metadata that is there; only the marker goes. -/
def rebuild (targets : List ChunkTarget) (sidecar : Sidecar) : Except PortError (Nat × Sidecar) :=
  do
  let (written, rebuilt) ← insertUnseen targets [] sidecar.clearAll
  return (written, { rebuilt with info := { rebuilt.info with validatedFingerprint := none } })

def ftsIntegrity (sidecar : Sidecar) : Bool :=
  sidecar.fts.isPerm (sidecar.chunks.rows.map fun chunk => (chunk.id, chunk.text))

def wanted (desired : List ChunkTarget) : Dict ChunkKey ChunkTarget :=
  Dict.collect (desired.map fun target => (target.key, target))

def unwanted (desired : List ChunkTarget) (chunk : SearchChunk) : Bool :=
  ((wanted desired).get? chunk.key).isNone

def insertMissing (existing : List ChunkKey) :
    List (ChunkKey × ChunkTarget) → Sidecar → Except PortError (Nat × Sidecar)
  | [], sidecar => .ok (0, sidecar)
  | (key, target) :: rest, sidecar =>
    if key ∈ existing then insertMissing existing rest sidecar
    else do
      let stored ← sidecar.insertChunk target
      let (inserted, last) ← insertMissing existing rest stored
      return (inserted + 1, last)

/-- The delta of a reconcile. `walk` is the order in which the map of desired rows is walked. -/
def diffChunks (walk : List (ChunkKey × ChunkTarget)) (desired : List ChunkTarget)
    (projectedBytes : Nat) (sidecar : Sidecar) :
    Except LexicalUnavailableReason (ReconcileDiff × Sidecar) :=
  if refuseBytes < projectedBytes then .error .storageLimit
  else if !sidecar.ftsIntegrity then .error .indexCorrupt
  else
    match insertMissing sidecar.keys walk (sidecar.deleteChunks (unwanted desired)) with
    | .error _ => .error .reconciliationFailed
    | .ok (inserted, last) =>
      let deleted := (sidecar.chunks.rows.filter (unwanted desired)).length
      .ok (⟨inserted, deleted, desired.length⟩, last)

def commit (fingerprint : Digest) (sidecar : Sidecar) : Sidecar :=
  { sidecar with info := { sidecar.info with validatedFingerprint := some fingerprint } }

def claimEmptyProfile (expected : String) (sidecar : Sidecar) : Bool × Sidecar :=
  if sidecar.info.embeddingProfileId.isNone then
    (true, { sidecar with info := { sidecar.info with embeddingProfileId := some expected } })
  else (false, sidecar)

def hasVector (sidecar : Sidecar) (chunk : SearchChunk) : Bool :=
  sidecar.vectors.rows.any fun row => row.chunkId = chunk.id

def missingSemanticInputs (limit : Nat) (sidecar : Sidecar) : List SearchChunk :=
  ((sidecar.chunks.rows.filter fun chunk => !sidecar.hasVector chunk).insertionSort
    fun left right => left.id ≤ right.id).take limit

def guardPasses (row : GuardedVectorRow) (sidecar : Sidecar) : Bool :=
  sidecar.info.embeddingProfileId.isSome &&
    (sidecar.chunks.find row.chunkId).any fun chunk =>
      chunk.taskId = row.taskId && chunk.contentHash = row.contentHash

theorem guardPasses_owned {row : GuardedVectorRow} {sidecar : Sidecar}
    (passes : sidecar.guardPasses row = true) :
    row.chunkId ∈ sidecar.chunks.rows.map SearchChunk.id := by
  have parts := Bool.and_eq_true_iff.mp passes
  obtain ⟨chunk, found, _⟩ := (Option.any_eq_true _ _).mp parts.2
  exact List.mem_map.mpr ⟨chunk, Table.find_mem found, Table.find_key found⟩

/-- The vector of a row in its place: a stored one stays unless its input hash is another. -/
def storeVector (row : GuardedVectorRow) (sidecar : Sidecar)
    (passes : sidecar.guardPasses row = true) : Sidecar :=
  let kept := sidecar.vectors.filter fun stored =>
    !(stored.place = row.stored.place && stored.inputHash ≠ row.inputHash)
  if taken : row.stored.place ∈ kept.rows.map VectorRow.place then
    { sidecar with
      vectors := kept
      owned := fun stored member => sidecar.owned stored (List.mem_filter.mp member).1 }
  else
    { sidecar with
      vectors := kept.append row.stored taken
      owned := fun stored member => by
        rcases List.mem_append.mp member with old | new
        · exact sidecar.owned stored (List.mem_filter.mp old).1
        · rw [List.mem_singleton.mp new]
          exact guardPasses_owned passes }

/-- One batch row after the other; the chunks of the rows that passed the guard are collected. -/
def storeRows : List GuardedVectorRow → Sidecar → List Nat × Sidecar
  | [], sidecar => ([], sidecar)
  | row :: rest, sidecar =>
    if passes : sidecar.guardPasses row = true then
      let (written, last) := storeRows rest (sidecar.storeVector row passes)
      (row.chunkId :: written, last)
    else storeRows rest sidecar

def segments (sidecar : Sidecar) (chunkId : Nat) : List Nat :=
  (sidecar.vectors.rows.filter fun row => row.chunkId = chunkId).map VectorRow.segmentIndex

/-- The stored segments of a chunk are `0..n`. -/
def segmentsCovered (sidecar : Sidecar) (chunkId : Nat) : Bool :=
  (sidecar.segments chunkId).min? = some 0 &&
    (sidecar.segments chunkId).max?.any fun highest =>
      (sidecar.segments chunkId).length = highest + 1

def storeVectorsGuarded (rows : List GuardedVectorRow) (sidecar : Sidecar) :
    Except PortError (Nat × Sidecar) :=
  if rows.isEmpty then .ok (0, sidecar)
  else
    let (written, stored) := sidecar.storeRows rows
    if written.all stored.segmentsCovered then .ok (written.length, stored)
    else .error (.backend "incomplete segment coverage")

def chunkExcerpt (text : String) : String :=
  if 200 < text.toList.length then String.ofList (text.toList.take 200 ++ ['…']) else text

def rankChunks (eligible : List TaskId) : List TaskId → List SearchChunk → List LexicalRank
  | _, [] => []
  | seen, chunk :: rest =>
    if chunk.taskId ∈ eligible ∧ chunk.taskId ∉ seen then
      ⟨chunk.taskId, seen.length + 1, .ofChunk chunk.kind, none, chunkExcerpt chunk.text⟩ ::
        rankChunks eligible (chunk.taskId :: seen) rest
    else rankChunks eligible seen rest

/-- `engine` is FTS5 with BM25: the row numbers that match an expression, best first. -/
def searchLexical (engine : List (Nat × String) → String → List Nat) (expression : String)
    (eligible : List TaskId) (sidecar : Sidecar) : List LexicalRank :=
  rankChunks eligible [] ((engine sidecar.fts expression).filterMap sidecar.chunks.find)

def comparable (query : Vector) (eligible : List TaskId) (sidecar : Sidecar) :
    List (TaskId × Vector) :=
  sidecar.vectors.rows.filterMap fun row => (sidecar.chunks.find row.chunkId).bind fun chunk =>
    if chunk.taskId ∈ eligible ∧ row.vector.entries.length = query.entries.length then
      some (chunk.taskId, row.vector)
    else none

section Semantic

variable {σ : Type} (similarity : Similarity σ)

def keepBest (best : Dict TaskId σ) (entry : TaskId × σ) : Dict TaskId σ :=
  let known := (best.get? entry.1).getD similarity.negInfinity
  best.insert entry.1
    (if similarity.partialCmp entry.2 known = some .gt then entry.2 else known)

def searchSemantic (query : Vector) (eligible : List TaskId) (sidecar : Sidecar) :
    List (SemanticRank σ) :=
  let scored := (sidecar.comparable query eligible).map fun entry =>
    (entry.1, similarity.cosine query.entries entry.2.entries)
  let best := scored.foldl (keepBest similarity) Dict.empty
  (best.rows.insertionSort (ordersBefore similarity.toScores · ·)).map fun entry =>
    ⟨entry.1, entry.2⟩

end Semantic

end Sidecar

end RepoLink
