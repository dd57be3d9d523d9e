import RepoLink.Search.Sidecar

/-!
The chunk rows that a rebuild and a reconcile leave behind. Both write by the same insert;
`Grown` is what a series of inserts does to a sidecar.
-/

namespace RepoLink

open KeyedTable

def SearchChunk.content (chunk : SearchChunk) : ChunkTarget :=
  ⟨chunk.taskId, chunk.kind, chunk.contentHash, chunk.text⟩

def SearchChunk.document (chunk : SearchChunk) : Nat × String := (chunk.id, chunk.text)

namespace Sidecar

def contents (sidecar : Sidecar) : List ChunkTarget := sidecar.chunks.rows.map SearchChunk.content

theorem keys_eq_contents (sidecar : Sidecar) :
    sidecar.keys = sidecar.contents.map ChunkTarget.key := by
  rw [keys, contents, List.map_map]
  rfl

/-- The rows `new` were written behind those of `before`, and nothing else changed. -/
structure Grown (before : Sidecar) (new : List SearchChunk) (after : Sidecar) : Prop where
  chunks : after.chunks.rows = before.chunks.rows ++ new
  fts : after.fts = before.fts ++ new.map SearchChunk.document
  info : after.info = before.info
  vectors : after.vectors = before.vectors

theorem Grown.refl (sidecar : Sidecar) : Grown sidecar [] sidecar :=
  ⟨(List.append_nil _).symm, (List.append_nil _).symm, rfl, rfl⟩

theorem Grown.trans {before middle after : Sidecar} {first second : List SearchChunk}
    (grown : Grown before first middle) (later : Grown middle second after) :
    Grown before (first ++ second) after where
  chunks := by rw [later.chunks, grown.chunks, List.append_assoc]
  fts := by rw [later.fts, grown.fts, List.map_append, List.append_assoc]
  info := later.info.trans grown.info
  vectors := later.vectors.trans grown.vectors

theorem Grown.contents {before after : Sidecar} {new : List SearchChunk}
    (grown : Grown before new after) :
    after.contents = before.contents ++ new.map SearchChunk.content := by
  rw [Sidecar.contents, grown.chunks, List.map_append]
  rfl

theorem Grown.ftsIntegrity {before after : Sidecar} {new : List SearchChunk}
    (grown : Grown before new after) (sound : before.ftsIntegrity = true) :
    after.ftsIntegrity = true := by
  rw [Sidecar.ftsIntegrity, List.isPerm_iff] at sound ⊢
  rw [grown.fts, grown.chunks, List.map_append]
  exact sound.append_right _

theorem insertChunk_grown {target : ChunkTarget} {sidecar : Sidecar}
    (unstored : target.key ∉ sidecar.keys) :
    ∃ after, sidecar.insertChunk target = .ok after ∧
      Grown sidecar [sidecar.newChunk target] after := by
  rw [insertChunk, dif_neg unstored]
  exact ⟨_, rfl, rfl, rfl, rfl, rfl⟩

theorem newChunk_content (target : ChunkTarget) (sidecar : Sidecar) :
    (sidecar.newChunk target).content = target := rfl

theorem insertUnseen_grown : ∀ (targets : List ChunkTarget) (seen : List ChunkKey)
    (sidecar : Sidecar), (∀ key ∈ sidecar.keys, key ∈ seen) →
    ∃ written after new, insertUnseen targets seen sidecar = .ok (written, after) ∧
      Grown sidecar new after ∧
      new.map SearchChunk.content = firsts ChunkTarget.key targets seen := by
  intro targets
  induction targets with
  | nil =>
      intro seen sidecar _
      exact ⟨0, sidecar, [], rfl, .refl sidecar, rfl⟩
  | cons target rest ih =>
      intro seen sidecar stored
      rw [insertUnseen, firsts]
      by_cases taken : target.key ∈ seen
      · rw [if_pos taken, if_pos taken]
        exact ih seen sidecar stored
      · rw [if_neg taken, if_neg taken]
        obtain ⟨middle, inserted, grown⟩ :=
          insertChunk_grown fun member => taken (stored target.key member)
        have covered : ∀ key ∈ middle.keys, key ∈ target.key :: seen := by
          intro key member
          rw [keys, grown.chunks, List.map_append, List.mem_append] at member
          rcases member with old | new
          · exact List.mem_cons_of_mem _ (stored key old)
          · rw [List.mem_singleton.mp new]
            exact List.mem_cons_self
        obtain ⟨written, after, new, ran, later, contents⟩ := ih _ middle covered
        refine ⟨written + 1, after, _, ?_, grown.trans later, ?_⟩
        · rw [inserted]
          change ((insertUnseen rest (target.key :: seen) middle).bind _) = _
          rw [ran]
          rfl
        · rw [List.singleton_append, List.map_cons, newChunk_content, contents]

theorem rebuild_grown (targets : List ChunkTarget) (sidecar : Sidecar) :
    ∃ written rebuilt new, sidecar.rebuild targets = .ok (written, rebuilt) ∧
      rebuilt.chunks.rows = new ∧ rebuilt.fts = new.map SearchChunk.document ∧
      new.map SearchChunk.content = firsts ChunkTarget.key targets [] ∧
      rebuilt.info = { sidecar.info with validatedFingerprint := none } ∧
      rebuilt.vectors = .empty := by
  obtain ⟨written, grownTo, new, ran, grown, contents⟩ :=
    insertUnseen_grown targets [] sidecar.clearAll fun _ member => member
  refine ⟨written, { grownTo with info := { grownTo.info with validatedFingerprint := none } },
    new, ?_, grown.chunks, grown.fts, contents, ?_, grown.vectors⟩
  · rw [rebuild, ran]
    rfl
  · rw [grown.info]
    rfl

/-- A reconcile inserts the walked targets whose keys were not there. -/
theorem insertMissing_grown (existing : List ChunkKey) :
    ∀ (walk : List (ChunkKey × ChunkTarget)) (sidecar : Sidecar),
      (∀ entry ∈ walk, entry.1 = entry.2.key) → (walk.map Prod.fst).Nodup →
      (∀ entry ∈ walk, entry.1 ∉ existing → entry.1 ∉ sidecar.keys) →
      ∃ inserted after new, insertMissing existing walk sidecar = .ok (inserted, after) ∧
        Grown sidecar new after ∧
        new.map SearchChunk.content =
          (walk.filter fun entry => entry.1 ∉ existing).map Prod.snd := by
  intro walk
  induction walk with
  | nil =>
      intro sidecar _ _ _
      exact ⟨0, sidecar, [], rfl, .refl sidecar, rfl⟩
  | cons entry rest ih =>
      intro sidecar keyed distinct unstored
      obtain ⟨key, target⟩ := entry
      obtain rfl : key = target.key := keyed _ List.mem_cons_self
      have keyedRest := fun entry member => keyed entry (List.mem_cons_of_mem _ member)
      obtain ⟨notAgain, distinctRest⟩ := List.nodup_cons.mp distinct
      rw [insertMissing]
      by_cases stored : target.key ∈ existing
      · rw [if_pos stored, List.filter_cons_of_neg (by simpa using stored)]
        exact ih sidecar keyedRest distinctRest
          fun entry member => unstored entry (List.mem_cons_of_mem _ member)
      · rw [if_neg stored, List.filter_cons_of_pos (by simpa using stored)]
        obtain ⟨middle, insertedOne, grown⟩ :=
          insertChunk_grown (unstored _ List.mem_cons_self stored)
        have unstoredRest : ∀ entry ∈ rest, entry.1 ∉ existing → entry.1 ∉ middle.keys := by
          intro entry member missing inMiddle
          rw [keys, grown.chunks, List.map_append, List.mem_append] at inMiddle
          rcases inMiddle with old | new
          · exact unstored entry (List.mem_cons_of_mem _ member) missing old
          · have same : entry.1 = target.key := List.mem_singleton.mp new
            exact notAgain (List.mem_map.mpr ⟨entry, member, same⟩)
        obtain ⟨inserted, after, new, ran, later, contents⟩ :=
          ih middle keyedRest distinctRest unstoredRest
        refine ⟨inserted + 1, after, _, ?_, grown.trans later, ?_⟩
        · rw [insertedOne]
          change ((insertMissing existing rest middle).bind _) = _
          rw [ran]
          rfl
        · rw [List.singleton_append, List.map_cons, newChunk_content, contents, List.map_cons]

theorem get?_wanted (desired : List ChunkTarget) (key : ChunkKey) :
    (wanted desired).get? key = desired.reverse.find? fun target => target.key = key := by
  rw [wanted, Dict.get?_collect, ← List.map_reverse, List.find?_map, Option.map_map]
  exact Option.map_id'

theorem unwanted_iff {desired : List ChunkTarget} {chunk : SearchChunk} :
    unwanted desired chunk = true ↔ chunk.key ∉ desired.map ChunkTarget.key := by
  rw [unwanted, get?_wanted, Option.isNone_iff_eq_none, List.find?_eq_none]
  simp only [List.mem_reverse, decide_eq_true_eq, List.mem_map, not_exists, not_and]

theorem wanted_keyed {desired : List ChunkTarget} {entry : ChunkKey × ChunkTarget}
    (member : entry ∈ (wanted desired).rows) : entry.1 = entry.2.key := by
  have found := Dict.mem_rows_iff.mp member
  rw [get?_wanted] at found
  have keyEq := List.find?_some found
  exact (of_decide_eq_true keyEq).symm

theorem deleteChunks_keys {drop : SearchChunk → Bool} {sidecar : Sidecar} {key : ChunkKey}
    (member : key ∈ (sidecar.deleteChunks drop).keys) : key ∈ sidecar.keys := by
  obtain ⟨chunk, kept, keyEq⟩ := List.mem_map.mp member
  exact List.mem_map.mpr ⟨chunk, (List.mem_filter.mp kept).1, keyEq⟩

theorem mem_deleteChunks {desired : List ChunkTarget} {sidecar : Sidecar} {chunk : SearchChunk} :
    chunk ∈ (sidecar.deleteChunks (unwanted desired)).chunks.rows ↔
      chunk ∈ sidecar.chunks.rows ∧ chunk.key ∈ desired.map ChunkTarget.key := by
  change chunk ∈ sidecar.chunks.rows.filter _ ↔ _
  rw [List.mem_filter, Bool.not_eq_true', ← Bool.not_eq_true, unwanted_iff, not_not]

theorem contains_dropped {drop : SearchChunk → Bool} {sidecar : Sidecar} {chunk : SearchChunk}
    (stored : chunk ∈ sidecar.chunks.rows) :
    ((sidecar.chunks.rows.filter drop).map SearchChunk.id).contains chunk.id = drop chunk := by
  rw [Bool.eq_iff_iff, List.contains_iff_mem, List.mem_map]
  constructor
  · rintro ⟨other, member, idEq⟩
    obtain ⟨otherStored, dropping⟩ := List.mem_filter.mp member
    rwa [← Table.row_unique otherStored stored idEq]
  · intro dropping
    exact ⟨chunk, List.mem_filter.mpr ⟨stored, dropping⟩, rfl⟩

theorem deleteChunks_ftsIntegrity {drop : SearchChunk → Bool} {sidecar : Sidecar}
    (sound : sidecar.ftsIntegrity = true) : (sidecar.deleteChunks drop).ftsIntegrity = true := by
  rw [ftsIntegrity, List.isPerm_iff] at sound ⊢
  have kept := sound.filter fun entry =>
    !((sidecar.chunks.rows.filter drop).map SearchChunk.id).contains entry.1
  refine kept.trans (List.Perm.of_eq ?_)
  rw [List.filter_map]
  refine congrArg _ (List.filter_congr fun chunk stored => ?_)
  exact congrArg Bool.not (contains_dropped stored)

def vectorsOf (chunkId : Nat) (sidecar : Sidecar) : List VectorRow :=
  sidecar.vectors.rows.filter fun row => row.chunkId = chunkId

theorem vectorsOf_deleteChunks {drop : SearchChunk → Bool} {sidecar : Sidecar}
    {chunk : SearchChunk} (stored : chunk ∈ sidecar.chunks.rows) :
    (sidecar.deleteChunks drop).vectorsOf chunk.id =
      if drop chunk then [] else sidecar.vectorsOf chunk.id := by
  change (sidecar.vectors.rows.filter _).filter _ = _
  rw [List.filter_filter]
  have onChunk : ∀ row : VectorRow, row.chunkId = chunk.id →
      ((sidecar.chunks.rows.filter drop).map SearchChunk.id).contains row.chunkId = drop chunk :=
    fun row same => same ▸ contains_dropped stored
  split
  · rename_i dropping
    refine List.filter_eq_nil_iff.mpr fun row _ => ?_
    by_cases same : row.chunkId = chunk.id
    · rw [onChunk row same, dropping, Bool.not_true, Bool.and_false]
      exact Bool.false_ne_true
    · rw [decide_eq_false same, Bool.false_and]
      exact Bool.false_ne_true
  · rename_i staying
    refine List.filter_congr fun row _ => ?_
    by_cases same : row.chunkId = chunk.id
    · rw [onChunk row same, Bool.eq_false_of_not_eq_true staying, Bool.not_false, Bool.and_true]
    · rw [decide_eq_false same, Bool.false_and]

/-- What a reconcile leaves: the unwanted chunks are gone with their vectors, and the walked
targets without a stored row are behind the rest. -/
structure Reconciled (walk : List (ChunkKey × ChunkTarget)) (desired : List ChunkTarget)
    (before after : Sidecar) (new : List SearchChunk) : Prop where
  grown : Grown (before.deleteChunks (unwanted desired)) new after
  contents : new.map SearchChunk.content =
    (walk.filter fun entry => entry.1 ∉ before.keys).map Prod.snd

theorem diffChunks_reconciled {walk : List (ChunkKey × ChunkTarget)} {desired : List ChunkTarget}
    {projected : Nat} {sidecar : Sidecar} (walks : walk.Perm (wanted desired).rows)
    (room : projected ≤ refuseBytes) (sound : sidecar.ftsIntegrity = true) :
    ∃ diff after new, sidecar.diffChunks walk desired projected = .ok (diff, after) ∧
      Reconciled walk desired sidecar after new := by
  have distinct : (walk.map Prod.fst).Nodup :=
    (walks.map Prod.fst).nodup_iff.mpr (wanted desired).distinct
  obtain ⟨inserted, after, new, ran, grown, contents⟩ := insertMissing_grown sidecar.keys walk
    (sidecar.deleteChunks (unwanted desired))
    (fun _ member => wanted_keyed (walks.mem_iff.mp member)) distinct
    fun _ _ missing member => missing (deleteChunks_keys member)
  let deleted := (sidecar.chunks.rows.filter (unwanted desired)).length
  refine ⟨⟨inserted, deleted, desired.length⟩, after, new, ?_, grown, contents⟩
  rw [diffChunks, if_neg (Nat.not_lt.mpr room), sound, Bool.not_true, if_neg Bool.false_ne_true,
    ran]

theorem diffChunks_admits {walk : List (ChunkKey × ChunkTarget)} {desired : List ChunkTarget}
    {projected : Nat} {sidecar after : Sidecar} {diff : ReconcileDiff}
    (ran : sidecar.diffChunks walk desired projected = .ok (diff, after)) :
    projected ≤ refuseBytes ∧ sidecar.ftsIntegrity = true := by
  rw [diffChunks] at ran
  split at ran
  · cases ran
  · rename_i room
    split at ran
    · cases ran
    · rename_i sound
      exact ⟨Nat.not_lt.mp room, by simpa using sound⟩

namespace Reconciled

variable {walk : List (ChunkKey × ChunkTarget)} {desired : List ChunkTarget}
  {before after : Sidecar} {new : List SearchChunk}

theorem info (reconciled : Reconciled walk desired before after new) : after.info = before.info :=
  reconciled.grown.info

theorem mem_chunks (reconciled : Reconciled walk desired before after new) {chunk : SearchChunk} :
    chunk ∈ after.chunks.rows ↔
      (chunk ∈ before.chunks.rows ∧ chunk.key ∈ desired.map ChunkTarget.key) ∨ chunk ∈ new := by
  rw [reconciled.grown.chunks, List.mem_append, mem_deleteChunks]

theorem mem_contents (reconciled : Reconciled walk desired before after new)
    (walks : walk.Perm (wanted desired).rows) {content : ChunkTarget} :
    content ∈ after.contents ↔
      (content ∈ before.contents ∧ content.key ∈ desired.map ChunkTarget.key) ∨
      content.key ∉ before.keys ∧ (wanted desired).get? content.key = some content := by
  have kept : content ∈ (before.deleteChunks (unwanted desired)).contents ↔
      content ∈ before.contents ∧ content.key ∈ desired.map ChunkTarget.key := by
    constructor
    · intro member
      obtain ⟨chunk, stored, rfl⟩ := List.mem_map.mp member
      obtain ⟨old, desiredKey⟩ := mem_deleteChunks.mp stored
      exact ⟨List.mem_map_of_mem old, desiredKey⟩
    · rintro ⟨member, desiredKey⟩
      obtain ⟨chunk, stored, rfl⟩ := List.mem_map.mp member
      exact List.mem_map_of_mem (mem_deleteChunks.mpr ⟨stored, desiredKey⟩)
  rw [reconciled.grown.contents, List.mem_append, kept, reconciled.contents]
  refine or_congr_right ?_
  simp only [List.mem_map, List.mem_filter, decide_eq_true_eq]
  constructor
  · rintro ⟨entry, ⟨member, missing⟩, rfl⟩
    have inWanted := walks.mem_iff.mp member
    rw [← wanted_keyed inWanted]
    exact ⟨missing, Dict.mem_rows_iff.mp inWanted⟩
  · rintro ⟨missing, found⟩
    exact ⟨(content.key, content), ⟨walks.mem_iff.mpr (Dict.mem_rows_iff.mpr found), missing⟩, rfl⟩

end Reconciled

end Sidecar

end RepoLink
