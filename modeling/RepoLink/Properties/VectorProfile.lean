import RepoLink.Search.Coverage
import RepoLink.Search.World

/-!
The stored vectors and the claimed profile. The guard of a batch asks that some profile is
claimed; that it is the embedder's own is checked by a search before it fills, and by nobody in a
rebuild.
-/

namespace RepoLink

open Effects Program KeyedTable TaskSearchService

def Sidecar.Uniform (sidecar : Sidecar) : Prop :=
  ∀ row ∈ sidecar.vectors.rows, sidecar.info.embeddingProfileId = some row.vector.producer

structure SearchWorld.Coherent (world : SearchWorld) : Prop where
  stored : world.sidecar.Uniform
  uncommitted : ∀ session, world.session = some session → session.Uniform
  compared : ∀ pair ∈ world.compared, pair.1 = pair.2

inductive SearchMove where
  | edit (source : List TaskTextRow)
  | search (embedder : Option Embedder) (request : SearchRequest)
  | rebuild (embedder : Option Embedder)
  | clear

variable {σ : Type} (basis : SearchBasis σ)

def targetsOf (source : List TaskTextRow) : List ChunkTarget :=
  source.flatMap (chunkTask basis.sha256)

def SearchMove.Step (move : SearchMove) (before after : SearchWorld) : Prop :=
  match move with
  | .edit source => after = { before with source }
  | .search embedder request =>
    (TaskSearchService.search basis embedder request).CutOff (searchMeaning basis) before after
  | .rebuild embedder =>
    (TaskSearchService.rebuild basis embedder).CutOff (searchMeaning basis) before after
  | .clear => (TaskSearchService.clear : Action σ Unit).CutOff (searchMeaning basis) before after

/-- The states that a sidecar comes to by moves that are allowed where they are made. -/
inductive SearchRun (allowed : SearchMove → SearchWorld → Prop) : SearchWorld → Prop where
  | opened (source : List TaskTextRow) (info : SearchMeta) :
      SearchRun allowed { source, sidecar := { Sidecar.fresh with info } }
  | moved {before after : SearchWorld} {move : SearchMove} (run : SearchRun allowed before)
      (permitted : allowed move before) (step : move.Step basis before after) :
      SearchRun allowed after

def EmbedsNothing (embedder : Embedder) (world : SearchWorld) : Prop :=
  ∀ written rebuilt, world.sidecar.rebuild (targetsOf basis world.source) = .ok (written, rebuilt) →
    ∀ rows, embedBatch basis.sha256 embedder (rebuilt.missingSemanticInputs fillBatchSize) =
      some rows → rows = []

/-- A service rebuilds a sidecar of its own profile, or of none, or has nothing to store. -/
def RebuildsOwn (move : SearchMove) (world : SearchWorld) : Prop :=
  match move with
  | .rebuild (some embedder) =>
    (∀ profile, world.sidecar.info.embeddingProfileId = some profile →
      profile = embedder.profileId) ∨ EmbedsNothing basis embedder world
  | _ => True

section Calls

variable {basis}

theorem Sidecar.uniform_of_vectors {before after : Sidecar} (uniform : before.Uniform)
    (info : after.info.embeddingProfileId = before.info.embeddingProfileId)
    (vectors : ∀ row ∈ after.vectors.rows, row ∈ before.vectors.rows) : after.Uniform := by
  intro row member
  rw [info]
  exact uniform row (vectors row member)

theorem Sidecar.uniform_of_empty {sidecar : Sidecar} (empty : sidecar.vectors = .empty) :
    sidecar.Uniform := by
  intro row member
  rw [empty] at member
  exact absurd member List.not_mem_nil

theorem Sidecar.uniform_rebuild {targets : List ChunkTarget} {sidecar rebuilt : Sidecar}
    {written : Nat} (ran : sidecar.rebuild targets = .ok (written, rebuilt)) :
    rebuilt.Uniform ∧
      rebuilt.info.embeddingProfileId = sidecar.info.embeddingProfileId := by
  obtain ⟨_, last, _, rebuildRan, _, _, _, info, vectors⟩ := rebuild_grown targets sidecar
  obtain ⟨rfl, rfl⟩ : _ ∧ last = rebuilt := by simpa using rebuildRan.symm.trans ran
  exact ⟨uniform_of_empty vectors, by rw [info]⟩

theorem Sidecar.uniform_diffChunks {walk : List (ChunkKey × ChunkTarget)}
    {desired : List ChunkTarget} {projected : Nat} {sidecar changed : Sidecar}
    {diff : ReconcileDiff} (walks : walk.Perm (wanted desired).rows)
    (ran : sidecar.diffChunks walk desired projected = .ok (diff, changed)) :
    (sidecar.Uniform → changed.Uniform) ∧ changed.info = sidecar.info := by
  obtain ⟨room, indexed⟩ := diffChunks_admits ran
  obtain ⟨_, last, new, diffRan, reconciled⟩ := diffChunks_reconciled walks room indexed
  obtain ⟨rfl, rfl⟩ : _ ∧ last = changed := by simpa using diffRan.symm.trans ran
  refine ⟨fun uniform => uniform_of_vectors uniform (by rw [reconciled.info]) ?_, reconciled.info⟩
  intro row member
  rw [reconciled.grown.vectors] at member
  exact (List.mem_filter.mp member).1

theorem Sidecar.uniform_claim {sidecar : Sidecar} (uniform : sidecar.Uniform)
    (expected : String) : (sidecar.claimEmptyProfile expected).2.Uniform := by
  rw [claimEmptyProfile]
  split
  · rename_i unclaimed
    intro row member
    have named := uniform row member
    rw [Option.isNone_iff_eq_none.mp unclaimed] at named
    cases named
  · exact uniform

theorem Sidecar.uniform_store {rows : List GuardedVectorRow} {sidecar after : Sidecar}
    {stored : Nat} (uniform : sidecar.Uniform)
    (own : ∀ profile, sidecar.info.embeddingProfileId = some profile →
      ∀ row ∈ rows, row.vector.producer = profile)
    (ran : sidecar.storeVectorsGuarded rows = .ok (stored, after)) : after.Uniform := by
  obtain ⟨_, rfl⟩ := storeVectorsGuarded_ok ran
  intro vector member
  rw [(storeRows_frame rows sidecar).2.1]
  rcases mem_storeRows member with old | ⟨claimed, row, inRows, rfl⟩
  · exact uniform vector old
  · obtain ⟨profile, profileEq⟩ := Option.isSome_iff_exists.mp claimed
    rw [profileEq]
    exact congrArg some (own profile profileEq row inRows).symm

def SearchOp.Own (claimed : Option String) : SearchOp → Prop
  | .storeVectorsGuarded rows => ∀ profile, claimed = some profile →
    ∀ row ∈ rows, row.vector.producer = profile
  | .searchSemantic query _ => claimed = some query.producer
  | _ => True

theorem SidecarStep.uniform {op : SearchOp} {before : SearchWorld} {after : Sidecar}
    (own : op.Own before.sidecar.info.embeddingProfileId) (step : SidecarStep before op after)
    (coherent : before.Coherent) : after.Uniform := by
  cases step with
  | kept => exact coherent.stored
  | committed isOpen =>
      have uniform := coherent.uncommitted _ isOpen
      exact uniform
  | cleared => exact Sidecar.uniform_of_empty rfl
  | rebuilt ran => exact (Sidecar.uniform_rebuild ran).1
  | claimed expected => exact Sidecar.uniform_claim coherent.stored expected
  | stored ran => exact Sidecar.uniform_store coherent.stored own ran

theorem SessionStep.uniform {before : SearchWorld} {after : Option Sidecar}
    (step : SessionStep before after) (coherent : before.Coherent) :
    ∀ session, after = some session → session.Uniform := by
  intro session same
  cases step with
  | kept => exact coherent.uncommitted session same
  | closed => cases same
  | began =>
      cases same
      exact coherent.stored
  | changed isOpen walks ran =>
      cases same
      exact (Sidecar.uniform_diffChunks walks ran).1 (coherent.uncommitted _ isOpen)

theorem SearchOp.compares_own {op : SearchOp} {sidecar : Sidecar} {pair : String × String}
    (own : op.Own sidecar.info.embeddingProfileId) (uniform : sidecar.Uniform)
    (compares : op.compares sidecar pair) :
    pair.1 = pair.2 := by
  cases op with
  | searchSemantic query eligible =>
      obtain ⟨asked, entry, compared, stored⟩ := compares
      obtain ⟨row, inRows, found⟩ := List.mem_filterMap.mp compared
      obtain ⟨chunk, _, matched⟩ := Option.bind_eq_some_iff.mp found
      split at matched
      · cases matched
        rw [asked, stored]
        exact Option.some.inj (own.symm.trans (uniform row inRows))
      · cases matched
  | _ => exact compares.elim

theorem coherent_step {op : SearchOp} {before after : SearchWorld} {answer : op.Answer σ}
    (own : op.Own before.sidecar.info.embeddingProfileId) (coherent : before.Coherent)
    (answered : searchMeaning basis op before answer after) : after.Coherent := by
  have step := searchMeaning_step answered
  refine ⟨step.sidecar.uniform own coherent, step.session.uniform coherent,
    fun pair member => ?_⟩
  rcases step.compared pair member with old | new
  · exact coherent.compared pair old
  · exact SearchOp.compares_own own coherent.stored new

def SearchOp.claimless : SearchOp → Prop
  | .claimEmptyProfile _ => False
  | .commitReconcile _ => False
  | _ => True

theorem profile_step {op : SearchOp} (claimless : op.claimless) {before after : SearchWorld}
    {answer : op.Answer σ} (answered : searchMeaning basis op before answer after) :
    after.sidecar.info.embeddingProfileId = before.sidecar.info.embeddingProfileId := by
  have step := (searchMeaning_step answered).sidecar
  generalize after.sidecar = last at step
  cases step with
  | kept => rfl
  | committed => exact claimless.elim
  | cleared => rfl
  | rebuilt ran => exact (Sidecar.uniform_rebuild ran).2
  | claimed => exact claimless.elim
  | stored ran =>
      obtain ⟨_, rfl⟩ := Sidecar.storeVectorsGuarded_ok ran
      rw [(Sidecar.storeRows_frame _ _).2.1]

end Calls

section Programs

variable {basis} {α : Type}

structure SearchWorld.Claims (claimed : Option String) (world : SearchWorld) : Prop where
  coherent : world.Coherent
  profile : world.sidecar.info.embeddingProfileId = claimed

structure SearchWorld.InSession (claimed : Option String) (world : SearchWorld) : Prop
    extends world.Claims claimed where
  uncommitted : ∀ session, world.session = some session →
    session.info.embeddingProfileId = claimed

abbrev Surviving (basis : SearchBasis σ) (program : Action σ α)
    (post : Except SearchError α → SearchWorld → Prop) (world : SearchWorld) : Prop :=
  program.Survives (searchMeaning basis) SearchWorld.Coherent post world

theorem survives_own {program : Action σ α} {claimed : Option String} {world : SearchWorld}
    (calls : program.Every fun op : SearchOp => op.Own claimed ∧ op.claimless)
    (claims : world.Claims claimed) :
    Surviving basis program (fun _ later => later.Claims claimed) world := by
  refine Survives.ofEvery _ (fun op permitted before answer after held answered => ?_) calls claims
  have coherent := coherent_step (held.profile ▸ permitted.1) held.coherent answered
  exact ⟨coherent, coherent, (profile_step permitted.2 answered).trans held.profile⟩

def SearchOp.sessionCall : SearchOp → Prop
  | .diffChunks .. => True
  | .commitReconcile _ => True
  | .rollbackReconcile => True
  | _ => False

theorem inSession_step {op : SearchOp} (permitted : op.sessionCall) {claimed : Option String}
    {before after : SearchWorld} {answer : op.Answer σ} (held : before.InSession claimed)
    (answered : searchMeaning basis op before answer after) : after.InSession claimed := by
  have own : op.Own before.sidecar.info.embeddingProfileId := by
    cases op <;> trivial
  have step := searchMeaning_step answered
  refine ⟨⟨coherent_step own held.coherent answered, ?_⟩, ?_⟩
  · have changed := step.sidecar
    generalize after.sidecar = last at changed
    cases changed with
    | kept => exact held.profile
    | committed isOpen =>
        have same := held.uncommitted _ isOpen
        exact same
    | _ => exact permitted.elim
  · intro session isOpen
    have changed := step.session
    rw [isOpen] at changed
    generalize opened : some session = state at changed
    cases changed with
    | kept => exact held.uncommitted session opened.symm
    | closed => cases opened
    | began =>
        cases opened
        exact held.profile
    | changed isOpen walks ran =>
        cases opened
        rw [(Sidecar.uniform_diffChunks walks ran).2]
        exact held.uncommitted _ isOpen

theorem survives_session {program : Action σ α} {claimed : Option String} {world : SearchWorld}
    (calls : program.Every SearchOp.sessionCall) (held : world.InSession claimed) :
    Surviving basis program (fun _ later => later.Claims claimed) world := by
  refine (Survives.ofEvery _ (fun op permitted before answer after held answered => ?_) calls
    held).mono fun _ _ (last : SearchWorld.InSession claimed _) => last.toClaims
  have later := inSession_step permitted held answered
  exact ⟨later.coherent, later⟩

theorem embedInputs_producer {embedder : Embedder} {texts : List String} {vectors : List Vector}
    (embedded : embedder.embedInputs texts = .ok vectors) :
    ∀ vector ∈ vectors, vector.producer = embedder.profileId := by
  rw [Embedder.embedInputs] at embedded
  cases made : embedder.inputEntries texts with
  | error => rw [made] at embedded; cases embedded
  | ok entries =>
      rw [made] at embedded
      cases embedded
      intro vector member
      obtain ⟨_, _, rfl⟩ := List.mem_map.mp member
      rfl

theorem embedBatch_producer {sha256 : HashFunction} {embedder : Embedder}
    {missing : List SearchChunk} {rows : List GuardedVectorRow}
    (embedded : embedBatch sha256 embedder missing = some rows) :
    ∀ row ∈ rows, row.vector.producer = embedder.profileId := by
  rw [embedBatch] at embedded
  split at embedded
  · cases embedded
  · rename_i planned planning
    dsimp only at embedded
    split at embedded
    · cases embedded
    · rename_i vectors embedding
      split at embedded
      · cases embedded
      · cases embedded
        intro row member
        rw [← List.map_uncurry_zip_eq_zipWith, List.mem_map] at member
        obtain ⟨⟨input, vector⟩, zipped, rfl⟩ := member
        exact embedInputs_producer embedding vector (List.of_mem_zip zipped).2

theorem fillRound_own {sha256 : HashFunction} {embedder : Embedder} {claimed : Option String}
    (own : ∀ profile, claimed = some profile → embedder.profileId = profile)
    {more : Option (Action σ FillOutcome)}
    (rest : ∀ action, more = some action →
      action.Every fun op : SearchOp => op.Own claimed ∧ op.claimless) :
    (fillRound sha256 embedder more).Every fun op : SearchOp =>
      op.Own claimed ∧ op.claimless := by
  rw [fillRound]
  cases more with
  | none =>
      refine ⟨⟨trivial, trivial⟩, fun answer => ?_⟩
      cases answer with
      | error => trivial
      | ok missing =>
          simp only [done_bind]
          split <;> trivial
  | some action =>
      refine ⟨⟨trivial, trivial⟩, fun answer => ?_⟩
      cases answer with
      | error => trivial
      | ok missing =>
          simp only [done_bind]
          split
          · trivial
          · cases embedded : embedBatch sha256 embedder missing with
            | none => trivial
            | some rows =>
                refine ⟨⟨fun profile named row member => ?_, trivial⟩, fun stored => ?_⟩
                · rw [embedBatch_producer embedded row member, own profile named]
                · cases stored with
                  | error => trivial
                  | ok count =>
                      simp only [done_bind]
                      split
                      · trivial
                      · exact rest action rfl

theorem fillSemanticVectors_own {sha256 : HashFunction} {embedder : Embedder}
    {claimed : Option String}
    (own : ∀ profile, claimed = some profile → embedder.profileId = profile) :
    ∀ batches, (fillSemanticVectors sha256 embedder batches : Action σ FillOutcome).Every
      fun op : SearchOp => op.Own claimed ∧ op.claimless := by
  intro batches
  induction batches with
  | zero => exact fillRound_own own nofun
  | succ batches ih =>
      exact fillRound_own own fun action same => Option.some.inj same ▸ ih

theorem every_answered {allowed : SearchOp → Prop} (result : Except PortError α) :
    (TaskSearchService.required result : Action σ α).Every allowed := by
  cases result <;> trivial

theorem embedQuery_producer {embedder : Embedder} {query : String} {vector : Vector}
    (embedded : embedder.embedQuery query = .ok vector) :
    vector.producer = embedder.profileId := by
  rw [Embedder.embedQuery] at embedded
  cases made : embedder.queryEntries query with
  | error => rw [made] at embedded; cases embedded
  | ok entries =>
      rw [made] at embedded
      cases embedded
      rfl

theorem semanticLane_own {embedder : Option Embedder} {claimed : Option String}
    {covered : LaneState SemanticSkippedReason}
    (own : ∀ attached, embedder = some attached → covered.available = true →
      claimed = some attached.profileId) (query : String) (eligible : List TaskId) :
    (semanticLane embedder covered query eligible : Action σ _).Every
      fun op : SearchOp => op.Own claimed ∧ op.claimless := by
  cases embedder with
  | none => trivial
  | some attached =>
      simp only [semanticLane]
      split
      · trivial
      · rename_i available
        split
        · trivial
        · split
          · trivial
          · split
            · trivial
            · rename_i vector embedded
              have isUp : covered.available = true := by simpa using available
              refine ⟨⟨?_, trivial⟩, fun answer => ?_⟩
              · change claimed = some vector.producer
                rw [own attached rfl isUp, embedQuery_producer embedded]
              · cases answer <;> trivial

theorem resultRows_own {claimed : Option String}
    (describe : Nat → TaskId → TaskIdentity → SearchResult σ) :
    ∀ (tasks : List TaskId) (position : Nat), (resultRows describe position tasks).Every
      fun op : SearchOp => op.Own claimed ∧ op.claimless := by
  intro tasks
  induction tasks with
  | nil => intro position; trivial
  | cons task rest ih =>
      intro position
      exact every_bind (every_perform ⟨trivial, trivial⟩) fun answer =>
        every_bind (every_answered answer) fun identity => every_bind (ih _) fun _ => trivial

theorem retrieve_own {embedder : Option Embedder} {claimed : Option String}
    {covered : LaneState SemanticSkippedReason}
    (own : ∀ attached, embedder = some attached → covered.available = true →
      claimed = some attached.profileId) (query : String) (mode : QueryMode)
    (lexical : LaneState LexicalUnavailableReason) (request : SearchRequest) :
    (retrieve basis embedder query mode lexical covered request).Every
      fun op : SearchOp => op.Own claimed ∧ op.claimless := by
  rw [retrieve]
  refine every_bind (every_perform ⟨trivial, trivial⟩) fun answer =>
    every_bind (every_answered answer) fun rows => ?_
  have finish : ∀ ranks, ((semanticLane embedder covered query
      (List.map TaskTextRow.taskId rows)).bind fun lane =>
        assemble basis query mode lexical lane.1 (literalLane basis.unicode rows query mode) ranks
          lane.2 request.limit).Every fun op : SearchOp => op.Own claimed ∧ op.claimless :=
    fun _ => every_bind (semanticLane_own own query _) fun _ =>
      every_bind (resultRows_own _ _ _) fun _ => trivial
  dsimp only
  split
  · exact every_bind (every_perform ⟨trivial, trivial⟩) fun ranked =>
      every_bind (every_answered ranked) finish
  · exact finish []

theorem survives_call {β : Type} {op : SearchOp} {claimed : Option String} {world : SearchWorld}
    {next : op.Answer σ → Action σ β} {post : Except SearchError β → SearchWorld → Prop}
    (claims : world.Claims claimed) (own : op.Own claimed) (claimless : op.claimless)
    (rest : ∀ answer later, searchMeaning basis op world answer later → later.Claims claimed →
      Surviving basis (next answer) post later) :
    Surviving basis ((TaskSearchService.call op).bind next) post world := by
  intro answer later answered
  have coherent := coherent_step (claims.profile ▸ own) claims.coherent answered
  exact ⟨coherent, rest answer later answered
    ⟨coherent, (profile_step claimless answered).trans claims.profile⟩⟩

theorem survives_required {β : Type} {result : Except PortError α} {world : SearchWorld}
    {next : α → Action σ β} {post : Except SearchError β → SearchWorld → Prop}
    (failed : ∀ error, post (.error error) world)
    (rest : ∀ value, result = .ok value → Surviving basis (next value) post world) :
    Surviving basis ((TaskSearchService.required result).bind next) post world := by
  cases result with
  | error error => exact failed _
  | ok value => exact rest value rfl

theorem reconcile_survives {opened : LaneState LexicalUnavailableReason} {readOnly : Bool}
    {claimed : Option String} {world : SearchWorld} (claims : world.Claims claimed) :
    Surviving basis (reconcile basis opened readOnly) (fun _ later => later.Claims claimed)
      world := by
  rw [reconcile]
  split
  · refine survives_call claims trivial trivial fun answer first _ claims => ?_
    refine survives_required (fun _ => claims) fun rows _ => ?_
    refine survives_call claims trivial trivial fun begun second answered claims => ?_
    cases begun with
    | error => exact claims
    | ok _ =>
        have inSession : second.InSession claimed := by
          rcases answered with ⟨host, served⟩ | ⟨⟨_, failed⟩, _⟩
          · cases served
            exact ⟨claims, fun _ isOpen => Option.some.inj isOpen ▸ claims.profile⟩
          · cases failed
        refine survives_session ⟨trivial, fun diffed => ?_⟩ inSession
        cases diffed with
        | error => exact ⟨trivial, fun _ => trivial⟩
        | ok _ =>
            refine ⟨trivial, fun committed => ?_⟩
            cases committed with
            | error => exact ⟨trivial, fun _ => trivial⟩
            | ok _ => trivial
  · exact claims

theorem claim_wins {expected : String} {before after : SearchWorld}
    (answered : searchMeaning basis (.claimEmptyProfile expected) before
      (.ok true : Except PortError Bool) after) :
    after.sidecar.info.embeddingProfileId = some expected := by
  rcases answered with ⟨host, served⟩ | ⟨⟨_, failed⟩, _⟩
  · simp only [serve, SearchWorld.transact] at served
    cases unclaimed : before.sidecar.info.embeddingProfileId.isNone with
    | true =>
        rw [Sidecar.claimEmptyProfile, if_pos unclaimed] at served
        cases served
        rfl
    | false =>
        rw [Sidecar.claimEmptyProfile, if_neg (Bool.eq_false_iff.mp unclaimed)] at served
        cases served
  · cases failed

/-- The gate opens on the embedder's own profile only. -/
theorem semanticGate_survives {embedder : Option Embedder} {mode : QueryMode} {lexical : Bool}
    {info : Option IndexMetadata} {readOnly : Bool} {world : SearchWorld}
    (coherent : world.Coherent)
    (told : ∀ profile, (info.bind IndexMetadata.available).bind SidecarInfo.embeddingProfileId =
      some profile → world.sidecar.info.embeddingProfileId = some profile) :
    Surviving basis (semanticGate embedder mode lexical info readOnly)
      (fun result later => later.Coherent ∧ ∀ gate, result = .ok gate → gate.available = true →
        ∀ attached, embedder = some attached →
          later.sidecar.info.embeddingProfileId = some attached.profileId) world := by
  have down : ∀ reason {later : SearchWorld}, later.Coherent →
      Surviving basis (.done (.down reason) : Action σ _)
      (fun result later => later.Coherent ∧ ∀ gate : LaneState SemanticSkippedReason,
        result = .ok gate → gate.available = true → ∀ attached, embedder = some attached →
          later.sidecar.info.embeddingProfileId = some attached.profileId) later :=
    fun reason _ coherent => ⟨coherent, fun gate same available => by cases same; cases available⟩
  cases embedder with
  | none =>
      simp only [semanticGate]
      split <;> exact down _ coherent
  | some attached =>
      simp only [semanticGate]
      split
      · exact down _ coherent
      · split
        · exact down _ coherent
        · split
          · rename_i profile named
            split
            · rename_i same
              refine ⟨coherent, fun _ _ _ other attachedEq => ?_⟩
              rw [told profile named, same, Option.some.inj attachedEq]
            · exact down _ coherent
          · split
            · exact down _ coherent
            · intro answer later answered
              have kept := @coherent_step σ basis (.claimEmptyProfile attached.profileId) _ _ _
                trivial coherent answered
              refine ⟨kept, ?_⟩
              cases answer with
              | error => exact down _ kept
              | ok won =>
                  cases outcome : (won : Bool) with
                  | false => exact down _ kept
                  | true =>
                      subst outcome
                      refine ⟨kept, fun _ _ _ other attachedEq => ?_⟩
                      rw [claim_wins answered, Option.some.inj attachedEq]

theorem semanticCoverage_own {embedder : Option Embedder} {gate : LaneState SemanticSkippedReason}
    {readOnly : Bool} {claimed : Option String}
    (own : gate.available = true → ∀ attached, embedder = some attached →
      claimed = some attached.profileId) :
    (semanticCoverage basis embedder gate readOnly).Every
      fun op : SearchOp => op.Own claimed ∧ op.claimless := by
  cases embedder with
  | none => trivial
  | some attached =>
      simp only [semanticCoverage]
      split
      · trivial
      · rename_i available
        have isUp : gate.available = true := by simpa using available
        split
        · refine ⟨⟨trivial, trivial⟩, fun answer => ?_⟩
          cases answer <;> trivial
        · refine every_bind (fillSemanticVectors_own (fun profile named => ?_) 1) fun outcome => ?_
          · exact Option.some.inj ((own isUp attached rfl).symm.trans named)
          · cases outcome <;> trivial

theorem semanticCoverage_yields {embedder : Option Embedder}
    {gate : LaneState SemanticSkippedReason} {readOnly : Bool} :
    (semanticCoverage basis embedder gate readOnly).Yields fun covered =>
      covered.available = true → gate.available = true := by
  cases embedder with
  | none => exact id
  | some attached =>
      simp only [semanticCoverage]
      split
      · exact id
      · split
        · intro answer
          cases answer with
          | error => exact nofun
          | ok missing =>
              change (if List.isEmpty missing then gate else _).available = true → _
              split
              · exact id
              · exact nofun
        · refine (yields_any _).bind fun outcome _ => ?_
          cases outcome with
          | complete => exact id
          | incomplete => exact nofun
          | failed => exact nofun

theorem metadata_tells {before after : SearchWorld} {answer : Except PortError IndexMetadata}
    (answered : searchMeaning basis .metadata before answer after) {profile : String}
    (told : (answer.toOption.bind IndexMetadata.available).bind SidecarInfo.embeddingProfileId =
      some profile) : before.sidecar.info.embeddingProfileId = some profile := by
  rcases answered with ⟨host, served⟩ | ⟨⟨error, rfl⟩, _⟩
  · cases served
    simp only [SearchHost.metadata] at told
    cases access : host.access with
    | writable => rw [access] at told; exact told
    | readOnly => rw [access] at told; exact told
    | unopened => rw [access] at told; cases told
  · cases told

theorem search_survives {embedder : Option Embedder} {request : SearchRequest}
    {world : SearchWorld} (coherent : world.Coherent) :
    Surviving basis (search basis embedder request) (fun _ later => later.Coherent) world := by
  rw [search]
  dsimp only
  split
  · exact coherent
  · split
    · exact coherent
    · have claims : world.Claims world.sidecar.info.embeddingProfileId := ⟨coherent, rfl⟩
      refine survives_call claims trivial trivial fun answered first metadata claims => ?_
      refine Survives.bind ((reconcile_survives claims).mono fun result second claims => ?_)
      cases result with
      | error => exact claims.coherent
      | ok lexical =>
          have told := fun profile named =>
            claims.profile.trans (@metadata_tells _ basis _ _ _ metadata profile named)
          refine Survives.bind ((semanticGate_survives claims.coherent told).mono
            fun result third gated => ?_)
          cases result with
          | error => exact gated.1
          | ok gate =>
              have own := gated.2 gate rfl
              refine (survives_own ?_ ⟨gated.1, rfl⟩).mono fun _ _ claims => claims.coherent
              refine semanticCoverage_yields.every_bind (semanticCoverage_own own)
                fun covered admitted => every_bind (retrieve_own ?_ _ _ _ _) fun _ => trivial
              exact fun attached attachedEq isUp => own (admitted isUp) attached attachedEq

theorem load_answer {before after : SearchWorld} {rows : List TaskTextRow}
    (answered : searchMeaning basis .loadReconcileSnapshot before
      (.ok rows : Except PortError (List TaskTextRow)) after) :
    rows = before.source ∧ after = before := by
  rcases answered with ⟨host, served⟩ | ⟨⟨_, failed⟩, _⟩
  · cases served
    exact ⟨rfl, rfl⟩
  · cases failed

theorem rebuild_answer {targets : List ChunkTarget} {before after : SearchWorld} {written : Nat}
    (answered : searchMeaning basis (.rebuild targets) before
      (.ok written : Except PortError Nat) after) :
    before.sidecar.rebuild targets = .ok (written, after.sidecar) := by
  rcases answered with ⟨host, served⟩ | ⟨⟨_, failed⟩, _⟩
  · simp only [serve, SearchWorld.transact] at served
    cases ran : before.sidecar.rebuild targets with
    | error => rw [ran] at served; cases served
    | ok => rw [ran] at served; cases served; rfl
  · cases failed

theorem missing_answer {limit : Nat} {before after : SearchWorld} {missing : List SearchChunk}
    (answered : searchMeaning basis (.missingSemanticInputs limit) before
      (.ok missing : Except PortError (List SearchChunk)) after) :
    missing = before.sidecar.missingSemanticInputs limit := by
  rcases answered with ⟨host, served⟩ | ⟨⟨_, failed⟩, _⟩
  · cases served
    rfl
  · cases failed

theorem store_nothing {before after : SearchWorld} {stored : Nat}
    (answered : searchMeaning basis (.storeVectorsGuarded []) before
      (.ok stored : Except PortError Nat) after) : stored = 0 := by
  rcases answered with ⟨host, served⟩ | ⟨⟨_, failed⟩, _⟩
  · cases served
    rfl
  · cases failed

theorem fillRound_survives {embedder : Embedder} {more : Action σ FillOutcome}
    {world : SearchWorld} (coherent : world.Coherent)
    (nothing : ∀ rows, embedBatch basis.sha256 embedder
      (world.sidecar.missingSemanticInputs fillBatchSize) = some rows → rows = []) :
    Surviving basis (fillRound basis.sha256 embedder (some more))
      (fun _ later => later.Coherent) world := by
  rw [fillRound]
  have claims : world.Claims world.sidecar.info.embeddingProfileId := ⟨coherent, rfl⟩
  refine survives_call claims trivial trivial fun answer first answered claims => ?_
  cases answer with
  | error => exact claims.coherent
  | ok missing =>
      rw [missing_answer answered]
      simp only
      split
      · exact claims.coherent
      · cases embedded : embedBatch basis.sha256 embedder
          (world.sidecar.missingSemanticInputs fillBatchSize) with
        | none => exact claims.coherent
        | some rows =>
            obtain rfl := nothing rows embedded
            refine survives_call claims (fun _ _ _ member => absurd member List.not_mem_nil)
              trivial fun count second stored claims => ?_
            cases count with
            | error => exact claims.coherent
            | ok count =>
                rw [store_nothing stored]
                exact claims.coherent

theorem rebuild_survives {embedder : Option Embedder} {world : SearchWorld}
    (coherent : world.Coherent) (own : RebuildsOwn basis (.rebuild embedder) world) :
    Surviving basis (TaskSearchService.rebuild basis embedder) (fun _ later => later.Coherent)
      world := by
  rw [TaskSearchService.rebuild]
  have claims : world.Claims world.sidecar.info.embeddingProfileId := ⟨coherent, rfl⟩
  refine survives_call claims trivial trivial fun loaded first snapshot claims => ?_
  refine survives_required (fun _ => claims.coherent) fun rows loadedEq => ?_
  rw [loadedEq] at snapshot
  obtain ⟨rfl, rfl⟩ := load_answer snapshot
  refine survives_call claims trivial trivial fun written second rebuilt claims => ?_
  refine survives_required (fun _ => claims.coherent) fun count writtenEq => ?_
  rw [writtenEq] at rebuilt
  cases embedder with
  | none => exact claims.coherent
  | some attached =>
      refine Survives.bind ?_
      have fill : Surviving basis
          (fillSemanticVectors basis.sha256 attached unboundedBatches) (fun _ later =>
            later.Coherent) second := by
        rcases own with same | nothing
        · refine (survives_own (fillSemanticVectors_own (fun profile named => ?_) _) claims).mono
            fun _ _ claims => claims.coherent
          exact (same profile named).symm
        · have batches : unboundedBatches = 2 ^ 64 - 2 + 1 := by
            unfold unboundedBatches
            omega
          rw [batches, fillSemanticVectors]
          exact fillRound_survives claims.coherent (nothing count _ (rebuild_answer rebuilt))
      refine fill.mono fun result _ coherent => ?_
      cases result with
      | error => exact coherent
      | ok _ => exact coherent

theorem clear_survives {world : SearchWorld} (coherent : world.Coherent) :
    Surviving basis (TaskSearchService.clear : Action σ Unit) (fun _ later => later.Coherent)
      world := by
  have claims : world.Claims world.sidecar.info.embeddingProfileId := ⟨coherent, rfl⟩
  refine survives_call claims trivial trivial fun answer first _ claims => ?_
  cases answer <;> exact claims.coherent

end Programs

/-- While every service rebuilds under its own profile or stores nothing, every stored vector is
of the claimed profile, and no query was compared with a vector of another one. -/
theorem vectors_match_profile {world : SearchWorld}
    (run : SearchRun basis (RebuildsOwn basis) world) : world.Coherent := by
  induction run with
  | opened source info =>
      exact ⟨Sidecar.uniform_of_empty rfl,
        fun session isOpen => absurd isOpen.symm (Option.some_ne_none session),
        fun _ member => absurd member List.not_mem_nil⟩
  | @moved before after move _ own step coherent =>
      cases move with
      | edit source =>
          obtain rfl := step
          exact ⟨coherent.stored, coherent.uncommitted, coherent.compared⟩
      | search embedder request =>
          have survives := @search_survives _ basis embedder request _ coherent
          exact survives.cutOff coherent step
      | rebuild embedder =>
          have survives := @rebuild_survives _ basis embedder _ coherent own
          exact survives.cutOff coherent step
      | clear =>
          have survives := @clear_survives _ basis _ coherent
          exact survives.cutOff coherent step

def countingBasis : SearchBasis Nat where
  unicode := asciiTables
  sha256 := Digest.mk
  similarity :=
    { zero := 0
      add := (· + ·)
      reciprocal := fun rank => 100 - rank
      partialCmp := fun left right => some (compare left right)
      cosine := fun left right => (left.zipWith (fun x y => x.toNat * y.toNat) right).sum
      negInfinity := 0 }

def plainHost : SearchHost where
  access := .writable
  eligible _ rows := rows
  identity _ := ⟨"ab-1", ⟨1⟩, "home", "a"⟩
  engine _ _ := []
  walk map := map.rows
  walks _ := .refl _

def plainEmbedder (profileId : String) : Embedder where
  profileId
  planSemanticInputs text := .ok [text]
  queryEntries _ := .ok [1]
  inputEntries texts := .ok (texts.map fun _ => [1])

def unsearchedWorld : SearchWorld where
  source := [⟨⟨1⟩, ⟨1⟩, none, true, "a", "", []⟩]
  sidecar := { Sidecar.fresh with info := Sidecar.fresh.info }

def searchedUnder (profileId : String) (world : SearchWorld) : SearchWorld :=
  ((search countingBasis (some (plainEmbedder profileId)) ⟨"a", {}, false, 10⟩).advance
    (serve countingBasis plainHost) 40 world).2

def rebuiltUnder (profileId : String) (world : SearchWorld) : SearchWorld :=
  ((TaskSearchService.rebuild countingBasis (some (plainEmbedder profileId))).advance
    (serve countingBasis plainHost) 40 world).2

theorem searchedUnder_step (profileId : String) (world : SearchWorld) :
    SearchMove.Step countingBasis
      (.search (some (plainEmbedder profileId)) ⟨"a", {}, false, 10⟩) world
      (searchedUnder profileId world) :=
  @advance_cutOff _ _ _ _ _ _ _ id (serve_meaning countingBasis plainHost) 40 _ world

theorem rebuiltUnder_step (profileId : String) (world : SearchWorld) :
    SearchMove.Step countingBasis (.rebuild (some (plainEmbedder profileId))) world
      (rebuiltUnder profileId world) :=
  @advance_cutOff _ _ _ _ _ _ _ id (serve_meaning countingBasis plainHost) 40 _ world

/-- One service claims the profile, another rebuilds, and the first compares its queries with
vectors of the second. -/
theorem rebuild_mixes_profiles : ∃ world, SearchRun countingBasis (fun _ _ => True) world ∧
    ¬world.sidecar.Uniform ∧ ("a", "b") ∈ world.compared := by
  let claimed := searchedUnder "a" unsearchedWorld
  let mixed := rebuiltUnder "b" claimed
  have run : SearchRun countingBasis (fun _ _ => True) (searchedUnder "a" mixed) :=
    (((SearchRun.opened _ Sidecar.fresh.info).moved trivial
      (searchedUnder_step "a" unsearchedWorld)).moved trivial
      (rebuiltUnder_step "b" claimed)).moved trivial (searchedUnder_step "a" mixed)
  refine ⟨_, run, fun uniform => ?_, by decide +kernel⟩
  have profile : (searchedUnder "a" mixed).sidecar.info.embeddingProfileId = some "a" := by
    decide +kernel
  have stored : ∃ row ∈ (searchedUnder "a" mixed).sidecar.vectors.rows,
      row.vector.producer = "b" := by decide +kernel
  obtain ⟨row, member, producer⟩ := stored
  have named := uniform row member
  rw [profile, producer] at named
  revert named
  decide

theorem vectors_match_profile_rebuilt :
    (rebuiltUnder "a" (searchedUnder "a" unsearchedWorld)).Coherent ∧
      (rebuiltUnder "a" (searchedUnder "a" unsearchedWorld)).sidecar.vectors.rows.length = 1 := by
  have profile : (searchedUnder "a" unsearchedWorld).sidecar.info.embeddingProfileId = some "a" :=
    by decide +kernel
  have own : RebuildsOwn countingBasis (.rebuild (some (plainEmbedder "a")))
      (searchedUnder "a" unsearchedWorld) :=
    .inl fun other named => Option.some.inj (named.symm.trans profile)
  have run : SearchRun countingBasis (RebuildsOwn countingBasis)
      (rebuiltUnder "a" (searchedUnder "a" unsearchedWorld)) :=
    ((SearchRun.opened _ Sidecar.fresh.info).moved trivial
      (searchedUnder_step "a" unsearchedWorld)).moved own
      (rebuiltUnder_step "a" (searchedUnder "a" unsearchedWorld))
  exact ⟨vectors_match_profile countingBasis run, by decide +kernel⟩

end RepoLink
