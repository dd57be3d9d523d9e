import RepoLink.Library.Program
import RepoLink.Search.Sidecar

/-!
`TaskSearchService` of `application-search` over the ports that it calls: the authoritative source,
the sidecar and the embedder that is attached, if any.
-/

namespace RepoLink

open Effects KeyedTable

structure SearchScope where
  workspaceId : Option WorkspaceId := none
  repoId : Option RepoId := none
  isOpen : Option Bool := none
deriving DecidableEq, Repr

structure TaskIdentity where
  displayId : String
  workspaceId : WorkspaceId
  workspaceName : String
  title : String
deriving DecidableEq, Repr

structure SidecarInfo where
  schemaVersion : Int
  chunkFormatVersion : Int
  embeddingProfileId : Option String
deriving DecidableEq, Repr

structure SchemaMismatch where
  incompatible : Bool
deriving DecidableEq, Repr

structure IndexMetadata where
  available : Option SidecarInfo
  schemaMismatch : Option SchemaMismatch
  readOnly : Bool
deriving DecidableEq, Repr

/-- What `metadata` reads in a sidecar that opened. -/
def Sidecar.metadata (readOnly : Bool) (sidecar : Sidecar) : IndexMetadata :=
  let info := sidecar.info
  let incompatible := info.schemaVersion ≠ searchSchemaVersion ||
    info.chunkFormatVersion ≠ searchChunkFormatVersion
  { available := some ⟨info.schemaVersion, info.chunkFormatVersion, info.embeddingProfileId⟩
    schemaMismatch := if incompatible then some ⟨true⟩ else none
    readOnly }

inductive SearchOp where
  | loadReconcileSnapshot
  | beginResultSnapshot (scope : SearchScope)
  | taskIdentity (id : TaskId)
  | metadata
  | beginReconcile
  | diffChunks (desired : List ChunkTarget) (projectedBytes : Nat)
  | commitReconcile (fingerprint : Digest)
  | rollbackReconcile
  | searchLexical (expression : String) (eligible : List TaskId)
  | clear
  | rebuild (targets : List ChunkTarget)
  | claimEmptyProfile (expected : String)
  | missingSemanticInputs (limit : Nat)
  | storeVectorsGuarded (rows : List GuardedVectorRow)
  | searchSemantic (query : Vector) (eligible : List TaskId)

def SearchOp.Error : SearchOp → Type
  | .diffChunks .. => LexicalUnavailableReason
  | _ => PortError

def SearchOp.Value (σ : Type) : SearchOp → Type
  | .loadReconcileSnapshot => List TaskTextRow
  | .beginResultSnapshot _ => List TaskTextRow
  | .taskIdentity _ => TaskIdentity
  | .metadata => IndexMetadata
  | .beginReconcile => Unit
  | .diffChunks .. => ReconcileDiff
  | .commitReconcile _ => Unit
  | .rollbackReconcile => Unit
  | .searchLexical .. => List LexicalRank
  | .clear => Unit
  | .rebuild _ => Nat
  | .claimEmptyProfile _ => Bool
  | .missingSemanticInputs _ => List SearchChunk
  | .storeVectorsGuarded _ => Nat
  | .searchSemantic .. => List (SemanticRank σ)

abbrev SearchOp.Answer (σ : Type) (op : SearchOp) : Type := Except op.Error (op.Value σ)

abbrev searchPorts (σ : Type) : Signature := ⟨SearchOp, SearchOp.Answer σ⟩

inductive SearchError where
  | emptyQuery
  | zeroLimit
  | source (error : PortError)
deriving DecidableEq, Repr

/-- What the search rests on and does not define: tables, the hash, the arithmetic of the scores. -/
structure SearchBasis (σ : Type) where
  unicode : Unicode
  sha256 : HashFunction
  similarity : Similarity σ

/-- An embedding provider; what it makes carries its profile. -/
structure Embedder where
  profileId : String
  planSemanticInputs : String → Except PortError (List String)
  queryEntries : String → Except PortError (List UInt32)
  inputEntries : List String → Except PortError (List (List UInt32))

def Embedder.embedQuery (query : String) (embedder : Embedder) : Except PortError Vector :=
  (embedder.queryEntries query).map fun entries => ⟨embedder.profileId, entries⟩

def Embedder.embedInputs (texts : List String) (embedder : Embedder) :
    Except PortError (List Vector) :=
  (embedder.inputEntries texts).map fun vectors =>
    vectors.map fun entries => ⟨embedder.profileId, entries⟩

inductive SemanticSkippedReason where
  | lexicalIndexUnavailable
  | exactMode
  | modelNotPrepared
  | profileMismatch
  | modelCacheMissing
  | queryTooLong
  | storageLimit
  | embeddingFailed
deriving DecidableEq, Repr

inductive FillOutcome where
  | complete
  | incomplete
  | failed
deriving DecidableEq, Repr

structure SearchRequest where
  query : String
  scope : SearchScope
  exact : Bool
  limit : Nat
deriving DecidableEq, Repr

structure SearchMatch (σ : Type) where
  literal : Option Bool
  lexicalRank : Option Nat
  semanticRank : Option Nat
  semanticScore : Option σ
  fusedScore : Option σ

structure MatchedSource where
  kind : MatchedSourceKind
  remoteCommentId : Option String
  excerpt : String
deriving DecidableEq, Repr

structure SearchResult (σ : Type) where
  rank : Nat
  id : String
  taskId : TaskId
  workspaceId : WorkspaceId
  workspaceName : String
  title : String
  matched : SearchMatch σ
  matchedSource : MatchedSource

structure TaskSearchResponse (σ : Type) where
  query : String
  queryMode : QueryMode
  lexicalAvailable : Bool
  lexicalUnavailableReason : Option LexicalUnavailableReason
  semanticAvailable : Bool
  semanticSkippedReason : Option SemanticSkippedReason
  sidecarReadOnly : Option Bool
  results : List (SearchResult σ)

structure LaneState (ρ : Type) where
  available : Bool
  reason : Option ρ

def LaneState.up {ρ : Type} : LaneState ρ := ⟨true, none⟩
def LaneState.down {ρ : Type} (reason : ρ) : LaneState ρ := ⟨false, some reason⟩

def projectedBytes (targets : List ChunkTarget) : Nat := targets.length * 1200

def uuidBytes (id : TaskId) : List UInt8 :=
  (List.range 16).map fun index => UInt8.ofNat (id.value / 256 ^ (15 - index))

def chunkKindByte : ChunkKind → UInt8
  | .core => 0
  | .comment => 1

def contentFingerprint (sha256 : HashFunction) (targets : List ChunkTarget) : Digest :=
  let entries := targets.map fun target =>
    uuidBytes target.taskId ++ chunkKindByte target.kind :: target.contentHash.bytes
  sha256 (entries.insertionSort (· ≤ ·)).flatten

def buildMatchExpr (query : String) : String :=
  " OR ".intercalate ((splitWhitespace query).map fun term =>
    "\"" ++ String.ofList (term.flatMap fun char => if char = '"' then ['"', '"'] else [char]) ++
      "\"")

def evidence (literal : Option TaskLiteral) (lexical : Option LexicalRank) (title : String) :
    MatchedSource :=
  match literal.filter TaskLiteral.contributed, lexical with
  | some entry, _ => ⟨entry.kind, entry.remoteCommentId, entry.excerpt⟩
  | none, some entry => ⟨entry.kind, entry.remoteCommentId, entry.excerpt⟩
  | none, none => ⟨.core, none, title⟩

namespace TaskSearchService

abbrev Action (σ : Type) := Program (searchPorts σ) SearchError

section Calls

variable {σ α : Type}

def required (result : Except PortError α) : Action σ α :=
  match result with
  | .ok value => .done value
  | .error error => .fail (.source error)

def call (op : SearchOp) : Action σ (op.Answer σ) := Program.perform (S := searchPorts σ) op

end Calls

structure PlannedInput where
  chunkId : Nat
  taskId : TaskId
  contentHash : Digest
  segmentIndex : Nat
  text : String
deriving DecidableEq, Repr

def PlannedInput.row (sha256 : HashFunction) (input : PlannedInput) (vector : Vector) :
    GuardedVectorRow :=
  ⟨input.chunkId, input.taskId, input.contentHash, input.segmentIndex, sha256.ofText input.text,
    vector⟩

section Fill

variable {σ : Type} (sha256 : HashFunction) (embedder : Embedder)

def chunkInputs (chunk : SearchChunk) : Except PortError (List PlannedInput) :=
  (embedder.planSemanticInputs chunk.text).map fun inputs => inputs.mapIdx fun segment text =>
    ⟨chunk.id, chunk.taskId, chunk.contentHash, segment, text⟩

def embedBatch (missing : List SearchChunk) : Option (List GuardedVectorRow) :=
  match missing.mapM (chunkInputs embedder) with
  | .error _ => none
  | .ok planned =>
    let inputs := planned.flatten
    match embedder.embedInputs (inputs.map PlannedInput.text) with
    | .error _ => none
    | .ok vectors =>
      if vectors.length ≠ inputs.length then none
      else some (inputs.zipWith (PlannedInput.row sha256) vectors)

def fillBatchSize : Nat := 64

/-- One round of the loop: `more` is the rest of it, unless the batches are used up. -/
def fillRound (more : Option (Action σ FillOutcome)) : Action σ FillOutcome := do
  match ← call (.missingSemanticInputs fillBatchSize) with
  | .error _ => return .failed
  | .ok missing =>
    if missing.isEmpty then return .complete
    else match more with
      | none => return .incomplete
      | some rest =>
        match embedBatch sha256 embedder missing with
        | none => return .failed
        | some rows =>
          match ← call (.storeVectorsGuarded rows) with
          | .error _ => return .failed
          | .ok (stored : Nat) => if stored = 0 then return .failed else rest

def fillSemanticVectors : Nat → Action σ FillOutcome
  | 0 => fillRound sha256 embedder none
  | batches + 1 => fillRound sha256 embedder (some (fillSemanticVectors batches))

end Fill

/-- `usize::MAX`; irreducible, so that nothing counts it down. -/
@[irreducible] def unboundedBatches : Nat := 2 ^ 64 - 1

section Operations

variable {σ : Type} (basis : SearchBasis σ) (embedder : Option Embedder)

def rebuild : Action σ (Nat × Option FillOutcome) := do
  let rows ← required (← call .loadReconcileSnapshot)
  let written ← required (← call (.rebuild (rows.flatMap (chunkTask basis.sha256))))
  match embedder with
  | none => return (written, none)
  | some embedder =>
    let filled ← fillSemanticVectors basis.sha256 embedder unboundedBatches
    return (written, some filled)

def clear : Action σ Unit := do required (← call .clear)

def openedLane (info : Option IndexMetadata) : LaneState LexicalUnavailableReason :=
  match info with
  | none => .down .sidecarUnavailable
  | some info =>
    if info.schemaMismatch.any SchemaMismatch.incompatible then .down .schemaMismatch else .up

def abandonReconcile (reason : LexicalUnavailableReason) :
    Action σ (LaneState LexicalUnavailableReason) := do
  let _ ← call .rollbackReconcile
  return .down reason

def reconcile (opened : LaneState LexicalUnavailableReason) (readOnly : Bool) :
    Action σ (LaneState LexicalUnavailableReason) :=
  if opened.available && !readOnly then do
    let rows ← required (← call .loadReconcileSnapshot)
    let targets := rows.flatMap (chunkTask basis.sha256)
    match ← call .beginReconcile with
    | .error _ => return .down .sidecarUnavailable
    | .ok _ =>
      match ← call (.diffChunks targets (projectedBytes targets)) with
      | .error reason => abandonReconcile reason
      | .ok _ =>
        match ← call (.commitReconcile (contentFingerprint basis.sha256 targets)) with
        | .error _ => abandonReconcile .reconciliationFailed
        | .ok _ => return opened
  else return opened

/-- The profile gate: the semantic lane needs the sidecar's profile, or claims an unclaimed one. -/
def semanticGate (mode : QueryMode) (lexical : Bool) (info : Option IndexMetadata)
    (readOnly : Bool) : Action σ (LaneState SemanticSkippedReason) :=
  if mode = .exact then
    return .down (if lexical then .exactMode else .lexicalIndexUnavailable)
  else match embedder with
    | none => return .down (if lexical then .modelNotPrepared else .lexicalIndexUnavailable)
    | some embedder =>
      if !lexical then return .down .lexicalIndexUnavailable
      else match (info.bind IndexMetadata.available).bind SidecarInfo.embeddingProfileId with
        | some profile =>
          return if profile = embedder.profileId then .up else .down .profileMismatch
        | none =>
          if readOnly then return .down .profileMismatch
          else do
            match ← call (.claimEmptyProfile embedder.profileId) with
            | .ok true => return .up
            | .ok false => return .down .profileMismatch
            | .error _ => return .down .embeddingFailed

/-- The lane only runs over complete coverage: a writable sidecar is filled by one batch first. -/
def semanticCoverage (gate : LaneState SemanticSkippedReason) (readOnly : Bool) :
    Action σ (LaneState SemanticSkippedReason) :=
  match embedder with
  | none => return gate
  | some embedder =>
    if !gate.available then return gate
    else if readOnly then do
      match ← call (.missingSemanticInputs 1) with
      | .ok missing => return if missing.isEmpty then gate else .down .embeddingFailed
      | .error _ => return .down .embeddingFailed
    else do
      match ← fillSemanticVectors basis.sha256 embedder 1 with
      | .complete => return gate
      | _ => return .down .embeddingFailed

def semanticLane (covered : LaneState SemanticSkippedReason) (query : String)
    (eligible : List TaskId) :
    Action σ (LaneState SemanticSkippedReason × List (SemanticRank σ)) :=
  match embedder with
  | none => return (covered, [])
  | some embedder =>
    if !covered.available then return (covered, [])
    else match embedder.planSemanticInputs query with
      | .error _ => return (.down .embeddingFailed, [])
      | .ok inputs =>
        if 1 < inputs.length then return (.down .queryTooLong, [])
        else match embedder.embedQuery query with
          | .error _ => return (.down .embeddingFailed, [])
          | .ok vector => do
            match ← call (.searchSemantic vector eligible) with
            | .ok ranks => return (covered, ranks)
            | .error _ => return (.down .embeddingFailed, [])

/-- The result rows of the ordered tasks, ranked from `position` on. -/
def resultRows (describe : Nat → TaskId → TaskIdentity → SearchResult σ) :
    Nat → List TaskId → Action σ (List (SearchResult σ))
  | _, [] => return []
  | position, task :: rest => do
    let identity ← required (← call (.taskIdentity task))
    let later ← resultRows describe (position + 1) rest
    return describe position task identity :: later

def describeResult (literal : Dict TaskId TaskLiteral) (lexical : List LexicalRank)
    (semantic : List (SemanticRank σ)) (fused : Dict TaskId σ) (position : Nat) (task : TaskId)
    (identity : TaskIdentity) : SearchResult σ :=
  let entry := literal.get? task
  let chunk := (Dict.collect (lexical.map fun rank => (rank.taskId, rank))).get? task
  { rank := position + 1
    id := identity.displayId
    taskId := task
    workspaceId := identity.workspaceId
    workspaceName := identity.workspaceName
    title := identity.title
    matched :=
      { literal := (entry.filter TaskLiteral.contributed).map fun _ => true
        lexicalRank := chunk.map LexicalRank.rank
        semanticRank := (semanticRanking semantic).get? task
        semanticScore :=
          (Dict.collect (semantic.map fun rank => (rank.taskId, rank.score))).get? task
        fusedScore := fused.get? task }
    matchedSource := evidence entry chunk identity.title }

def assemble (query : String) (mode : QueryMode) (lexical : LaneState LexicalUnavailableReason)
    (semantic : LaneState SemanticSkippedReason) (literal : Dict TaskId TaskLiteral)
    (lexicalRanks : List LexicalRank) (semanticRanks : List (SemanticRank σ)) (limit : Nat) :
    Action σ (TaskSearchResponse σ) := do
  let scores := basis.similarity.toScores
  let fused := rrfFuse scores (lanesOf literal lexicalRanks semanticRanks)
  let ordered := (orderResults scores mode literal lexicalRanks semanticRanks).take limit
  let results ← resultRows (describeResult literal lexicalRanks semanticRanks fused) 0 ordered
  return {
    query
    queryMode := mode
    lexicalAvailable := lexical.available
    lexicalUnavailableReason := if lexical.available then none else lexical.reason
    semanticAvailable := semantic.available
    semanticSkippedReason := if semantic.available then none else semantic.reason
    sidecarReadOnly := none
    results }

def retrieve (query : String) (mode : QueryMode) (lexical : LaneState LexicalUnavailableReason)
    (covered : LaneState SemanticSkippedReason) (request : SearchRequest) :
    Action σ (TaskSearchResponse σ) := do
  let rows ← required (← call (.beginResultSnapshot request.scope))
  let literal := literalLane basis.unicode rows query mode
  let eligible := rows.map TaskTextRow.taskId
  let lexicalRanks ←
    if lexical.available then do
      required (← call (.searchLexical (buildMatchExpr query) eligible))
    else pure []
  let (semantic, semanticRanks) ← semanticLane embedder covered query eligible
  assemble basis query mode lexical semantic literal lexicalRanks semanticRanks request.limit

def search (request : SearchRequest) : Action σ (TaskSearchResponse σ) := do
  let query := trim request.query
  if query.isEmpty then .fail .emptyQuery
  else if request.limit = 0 then .fail .zeroLimit
  else
    let mode := classify basis.unicode query request.exact
    let answered ← call .metadata
    let info := answered.toOption
    let readOnly := info.any IndexMetadata.readOnly
    let lexical ← reconcile basis (openedLane info) readOnly
    let gate ← semanticGate embedder mode lexical.available info readOnly
    let covered ← semanticCoverage basis embedder gate readOnly
    let response ← retrieve basis embedder query mode lexical covered request
    return { response with sidecarReadOnly := if readOnly then some true else none }

end Operations

end TaskSearchService

end RepoLink
