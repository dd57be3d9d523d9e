import RepoLink.Library.Crash
import RepoLink.Search.Service

/-!
The environment of the search services: the authoritative source and the one sidecar that they
share. `serve` answers every call in full; `searchMeaning` lets any call fail.
-/

namespace RepoLink

open Effects KeyedTable

inductive SidecarAccess where
  | writable
  | readOnly
  | unopened
deriving DecidableEq, Repr

/-- What a call may depend on besides its state: the file, the scopes, the identities, the
full-text engine and the order in which a map is walked. -/
structure SearchHost where
  access : SidecarAccess
  eligible : SearchScope → List TaskTextRow → List TaskTextRow
  identity : TaskId → TaskIdentity
  engine : List (Nat × String) → String → List Nat
  walk : Dict ChunkKey ChunkTarget → List (ChunkKey × ChunkTarget)
  walks : ∀ map, (walk map).Perm map.rows

/-- `session` is the uncommitted sidecar of a reconcile. `compared` notes the producers of every
query vector and stored vector that were compared; no call reads it. -/
structure SearchWorld where
  source : List TaskTextRow
  sidecar : Sidecar
  session : Option Sidecar := none
  compared : List (String × String) := []

/-- `metadata`: a sidecar that does not open is no error. -/
def SearchHost.metadata (host : SearchHost) (sidecar : Sidecar) : IndexMetadata :=
  match host.access with
  | .writable => sidecar.metadata false
  | .readOnly => sidecar.metadata true
  | .unopened => ⟨none, none, false⟩

namespace SearchWorld

def transact {ε α : Type} (outcome : Except ε (α × Sidecar)) (world : SearchWorld) :
    Except ε α × SearchWorld :=
  match outcome with
  | .error error => (.error error, world)
  | .ok (answer, sidecar) => (.ok answer, { world with sidecar })

end SearchWorld

open SearchWorld

variable {σ : Type}

def serve (basis : SearchBasis σ) (host : SearchHost) : Handler (searchPorts σ) SearchWorld
  | .loadReconcileSnapshot, world => (.ok world.source, world)
  | .beginResultSnapshot scope, world => (.ok (host.eligible scope world.source), world)
  | .taskIdentity id, world => (.ok (host.identity id), world)
  | .metadata, world => (.ok (host.metadata world.sidecar), world)
  | .beginReconcile, world => (.ok (), { world with session := some world.sidecar })
  | .diffChunks desired projected, world =>
    match world.session with
    | none => (.error .reconciliationFailed, world)
    | some session =>
      match session.diffChunks (host.walk (Sidecar.wanted desired)) desired projected with
      | .error reason => (.error reason, world)
      | .ok (diff, changed) => (.ok diff, { world with session := some changed })
  | .commitReconcile fingerprint, world =>
    match world.session with
    | none => (.error (.backend "cannot commit - no transaction is active"), world)
    | some session =>
      (.ok (), { world with sidecar := session.commit fingerprint, session := none })
  | .rollbackReconcile, world => (.ok (), { world with session := none })
  | .searchLexical expression eligible, world =>
    (.ok (world.sidecar.searchLexical host.engine expression eligible), world)
  | .clear, world => (.ok (), { world with sidecar := world.sidecar.clear })
  | .rebuild targets, world => world.transact (world.sidecar.rebuild targets)
  | .claimEmptyProfile expected, world =>
    world.transact (.ok (world.sidecar.claimEmptyProfile expected))
  | .missingSemanticInputs limit, world => (.ok (world.sidecar.missingSemanticInputs limit), world)
  | .storeVectorsGuarded rows, world => world.transact (world.sidecar.storeVectorsGuarded rows)
  | .searchSemantic query eligible, world =>
    let pairs := (world.sidecar.comparable query eligible).map fun entry =>
      (query.producer, entry.2.producer)
    (.ok (world.sidecar.searchSemantic basis.similarity query eligible),
      { world with compared := world.compared ++ pairs })

/-- A call is answered in full on some host, or fails and leaves everything as it was. -/
def searchMeaning (basis : SearchBasis σ) : Semantics (searchPorts σ) SearchWorld :=
  fun op before answer after =>
    (∃ host, serve basis host op before = (answer, after)) ∨
      (∃ error : op.Error, answer = (.error error : op.Answer σ)) ∧ after = before

inductive SidecarStep (before : SearchWorld) : SearchOp → Sidecar → Prop where
  | kept (op : SearchOp) : SidecarStep before op before.sidecar
  | committed {session : Sidecar} (isOpen : before.session = some session)
      (fingerprint : Digest) :
      SidecarStep before (.commitReconcile fingerprint) (session.commit fingerprint)
  | cleared : SidecarStep before .clear before.sidecar.clear
  | rebuilt {targets : List ChunkTarget} {written : Nat} {after : Sidecar}
      (ran : before.sidecar.rebuild targets = .ok (written, after)) :
      SidecarStep before (.rebuild targets) after
  | claimed (expected : String) : SidecarStep before (.claimEmptyProfile expected)
      (before.sidecar.claimEmptyProfile expected).2
  | stored {rows : List GuardedVectorRow} {count : Nat} {after : Sidecar}
      (ran : before.sidecar.storeVectorsGuarded rows = .ok (count, after)) :
      SidecarStep before (.storeVectorsGuarded rows) after

inductive SessionStep (before : SearchWorld) : Option Sidecar → Prop where
  | kept : SessionStep before before.session
  | closed : SessionStep before none
  | began : SessionStep before (some before.sidecar)
  | changed {session after : Sidecar} {desired : List ChunkTarget} {projected : Nat}
      {walk : List (ChunkKey × ChunkTarget)} {diff : ReconcileDiff}
      (isOpen : before.session = some session) (walks : walk.Perm (Sidecar.wanted desired).rows)
      (ran : session.diffChunks walk desired projected = .ok (diff, after)) :
      SessionStep before (some after)

def SearchOp.compares (op : SearchOp) (sidecar : Sidecar) (pair : String × String) : Prop :=
  match op with
  | .searchSemantic query eligible => pair.1 = query.producer ∧
      ∃ entry ∈ sidecar.comparable query eligible, pair.2 = entry.2.producer
  | _ => False

structure SearchStep (before : SearchWorld) (op : SearchOp) (after : SearchWorld) : Prop where
  sidecar : SidecarStep before op after.sidecar
  session : SessionStep before after.session
  source : after.source = before.source
  compared : ∀ pair ∈ after.compared, pair ∈ before.compared ∨ op.compares before.sidecar pair

theorem SearchStep.refl (world : SearchWorld) (op : SearchOp) : SearchStep world op world :=
  ⟨.kept op, .kept, rfl, fun _ member => .inl member⟩

theorem searchMeaning_step {basis : SearchBasis σ} {op : SearchOp} {before after : SearchWorld}
    {answer : op.Answer σ} (answered : searchMeaning basis op before answer after) :
    SearchStep before op after := by
  rcases answered with ⟨host, served⟩ | ⟨_, rfl⟩
  · cases op with
    | beginReconcile =>
        cases served
        exact ⟨.kept _, .began, rfl, fun _ member => .inl member⟩
    | diffChunks desired projected =>
        simp only [serve] at served
        split at served
        · cases served
          exact .refl _ _
        · rename_i session isOpen
          split at served
          · cases served
            exact .refl _ _
          · rename_i ran
            cases served
            exact ⟨.kept _, .changed isOpen (host.walks _) ran, rfl, fun _ member => .inl member⟩
    | commitReconcile fingerprint =>
        simp only [serve] at served
        split at served
        · cases served
          exact .refl _ _
        · rename_i session isOpen
          cases served
          exact ⟨.committed isOpen fingerprint, .closed, rfl, fun _ member => .inl member⟩
    | rollbackReconcile =>
        cases served
        exact ⟨.kept _, .closed, rfl, fun _ member => .inl member⟩
    | clear =>
        cases served
        exact ⟨.cleared, .kept, rfl, fun _ member => .inl member⟩
    | rebuild targets =>
        simp only [serve, transact] at served
        split at served
        · cases served
          exact .refl _ _
        · rename_i ran
          cases served
          exact ⟨.rebuilt ran, .kept, rfl, fun _ member => .inl member⟩
    | claimEmptyProfile expected =>
        cases served
        exact ⟨.claimed expected, .kept, rfl, fun _ member => .inl member⟩
    | storeVectorsGuarded rows =>
        simp only [serve, transact] at served
        split at served
        · cases served
          exact .refl _ _
        · rename_i ran
          cases served
          exact ⟨.stored ran, .kept, rfl, fun _ member => .inl member⟩
    | searchSemantic query eligible =>
        cases served
        refine ⟨.kept _, .kept, rfl, fun pair member => ?_⟩
        rcases List.mem_append.mp member with old | new
        · exact .inl old
        · obtain ⟨entry, inStored, rfl⟩ := List.mem_map.mp new
          exact .inr ⟨rfl, entry, inStored, rfl⟩
    | _ =>
        cases served
        exact .refl _ _
  · exact .refl _ _

theorem serve_meaning (basis : SearchBasis σ) (host : SearchHost) (op : SearchOp)
    (world : SearchWorld) : searchMeaning basis op world (serve basis host op world).1
      (serve basis host op world).2 :=
  .inl ⟨host, rfl⟩

end RepoLink
