import RepoLink.Search.Coverage

/-!
A reconcile against a rebuild of the same targets. A rebuild writes the first target of every
key; a reconcile keeps the row that is there and walks a map that holds the last target. Both
leave one row of every key with the same text, and the kinds are the same only where the texts of
a key all come from one kind of source.
-/

namespace RepoLink

open KeyedTable

theorem HashFunction.ofText_injective {sha256 : HashFunction}
    (injective : Function.Injective sha256) : Function.Injective sha256.ofText := by
  intro left right same
  have bytes : left.toUTF8.data.toList = right.toUTF8.data.toList := injective same
  exact String.toByteArray_inj.mp (ByteArray.ext (Array.toList_inj.mp bytes))

namespace Sidecar

/-- The states of a sidecar that the index service leaves behind, from the first open on. -/
inductive Reached (sha256 : HashFunction) : Sidecar → Prop where
  | opened (info : SearchMeta) : Reached sha256 { fresh with info }
  | cleared {sidecar : Sidecar} (reached : Reached sha256 sidecar) :
      Reached sha256 sidecar.clear
  | rebuilt {sidecar after : Sidecar} {written : Nat} (reached : Reached sha256 sidecar)
      (rows : List TaskTextRow)
      (ran : sidecar.rebuild (rows.flatMap (chunkTask sha256)) = .ok (written, after)) :
      Reached sha256 after
  | reconciled {sidecar after : Sidecar} {diff : ReconcileDiff} (reached : Reached sha256 sidecar)
      (rows : List TaskTextRow) {walk : List (ChunkKey × ChunkTarget)}
      (walks : walk.Perm (wanted (rows.flatMap (chunkTask sha256))).rows) {projected : Nat}
      (ran : sidecar.diffChunks walk (rows.flatMap (chunkTask sha256)) projected =
        .ok (diff, after))
      (fingerprint : Digest) : Reached sha256 (after.commit fingerprint)
  | claimed {sidecar : Sidecar} (reached : Reached sha256 sidecar) (expected : String) :
      Reached sha256 (sidecar.claimEmptyProfile expected).2
  | filled {sidecar after : Sidecar} {stored : Nat} (reached : Reached sha256 sidecar)
      (rows : List GuardedVectorRow) (ran : sidecar.storeVectorsGuarded rows = .ok (stored, after)) :
      Reached sha256 after

/-- Stored texts hash to their keys, and the full-text index is that of the stored rows. -/
structure Sound (sha256 : HashFunction) (sidecar : Sidecar) : Prop where
  hashed : ∀ content ∈ sidecar.contents, content.contentHash = sha256.ofText content.text
  indexed : sidecar.ftsIntegrity = true

variable {sha256 : HashFunction}

theorem targets_hashed {rows : List TaskTextRow} {target : ChunkTarget}
    (member : target ∈ rows.flatMap (chunkTask sha256)) :
    target.contentHash = sha256.ofText target.text := by
  obtain ⟨row, _, ofRow⟩ := List.mem_flatMap.mp member
  exact chunkTask_contentHash sha256 ofRow

theorem eq_of_key (injective : Function.Injective sha256) {left right : ChunkTarget}
    (leftHashed : left.contentHash = sha256.ofText left.text)
    (rightHashed : right.contentHash = sha256.ofText right.text) (keyEq : left.key = right.key)
    (kindEq : left.kind = right.kind) : left = right := by
  obtain ⟨taskEq, hashEq⟩ := Prod.mk.inj keyEq
  have textEq : left.text = right.text := by
    apply HashFunction.ofText_injective injective
    rw [← leftHashed, ← rightHashed, hashEq]
  cases left
  cases right
  simp_all

theorem Sound.sameChunks {sidecar after : Sidecar} (sound : Sound sha256 sidecar)
    (chunks : after.chunks = sidecar.chunks) (fts : after.fts = sidecar.fts) :
    Sound sha256 after where
  hashed := by
    rw [contents, chunks]
    exact sound.hashed
  indexed := by
    rw [ftsIntegrity, fts, chunks]
    exact sound.indexed

theorem Reached.sound {sidecar : Sidecar} (reached : Reached sha256 sidecar) :
    Sound sha256 sidecar := by
  induction reached with
  | opened info => exact ⟨fun _ member => absurd member List.not_mem_nil, rfl⟩
  | cleared => exact ⟨fun _ member => absurd member List.not_mem_nil, rfl⟩
  | @rebuilt sidecar after written _ rows ran =>
      obtain ⟨_, rebuilt, new, rebuildRan, chunks, fts, contents, _⟩ :=
        rebuild_grown (rows.flatMap (chunkTask sha256)) sidecar
      obtain ⟨rfl, rfl⟩ : _ ∧ rebuilt = after := by simpa using rebuildRan.symm.trans ran
      refine ⟨fun content member => ?_, ?_⟩
      · rw [Sidecar.contents, chunks, contents] at member
        exact targets_hashed (List.mem_of_find?_eq_some (mem_firsts.mp member).2)
      · rw [ftsIntegrity, fts, chunks]
        exact List.isPerm_iff.mpr (.refl _)
  | @reconciled sidecar after _ _ rows walk walks projected ran _ sound =>
      obtain ⟨room, indexed⟩ := diffChunks_admits ran
      obtain ⟨_, last, new, diffRan, reconciled⟩ := diffChunks_reconciled walks room indexed
      obtain ⟨rfl, rfl⟩ : _ ∧ last = after := by simpa using diffRan.symm.trans ran
      refine Sound.sameChunks ⟨fun content member => ?_, ?_⟩ rfl rfl
      · rcases (reconciled.mem_contents walks).mp member with ⟨old, _⟩ | ⟨_, new⟩
        · exact sound.hashed content old
        · rw [get?_wanted] at new
          exact targets_hashed (List.mem_reverse.mp (List.mem_of_find?_eq_some new))
      · exact reconciled.grown.ftsIntegrity (deleteChunks_ftsIntegrity sound.indexed)
  | claimed _ expected sound =>
      refine sound.sameChunks ?_ ?_ <;> rw [claimEmptyProfile] <;> split <;> rfl
  | filled _ rows ran sound =>
      obtain ⟨_, rfl⟩ := storeVectorsGuarded_ok ran
      obtain ⟨chunks, _, fts⟩ := storeRows_frame rows _
      exact sound.sameChunks chunks fts

def contentTable (sidecar : Sidecar) : Table ChunkTarget.key where
  rows := sidecar.contents
  distinct := sidecar.keys_eq_contents ▸ sidecar.unique

def firstTarget (desired : List ChunkTarget) (key : ChunkKey) : Option ChunkTarget :=
  desired.find? fun target => target.key = key

def keptRow (sidecar : Sidecar) (desired : List ChunkTarget) (key : ChunkKey) :
    Option ChunkTarget :=
  (sidecar.contentTable.find key).or ((wanted desired).get? key)

/-- Under every desired key, the kind that a reconcile keeps is the kind that comes first. -/
def KindsAgree (sidecar : Sidecar) (desired : List ChunkTarget) : Prop :=
  ∀ target ∈ desired, (sidecar.keptRow desired target.key).map ChunkTarget.kind =
    (firstTarget desired target.key).map ChunkTarget.kind

instance (sidecar : Sidecar) (desired : List ChunkTarget) :
    Decidable (KindsAgree sidecar desired) :=
  inferInstanceAs (Decidable (∀ target ∈ desired, _))

/-- The rows after a reconcile are those of a rebuild, one for every desired key; the vectors of a
chunk stay or go with it. -/
structure Refines (desired : List ChunkTarget) (before after rebuilt : Sidecar) : Prop where
  rows : ∀ content, content ∈ after.contents ↔ content ∈ rebuilt.contents
  once : ∀ key, after.keys.count key = if key ∈ desired.map ChunkTarget.key then 1 else 0
  surviving : ∀ chunk ∈ before.chunks.rows, chunk ∈ after.chunks.rows →
    after.vectorsOf chunk.id = before.vectorsOf chunk.id
  deleted : ∀ chunk ∈ before.chunks.rows, chunk ∉ after.chunks.rows →
    after.vectorsOf chunk.id = []

theorem mem_rebuilt {desired : List ChunkTarget} {sidecar rebuilt : Sidecar} {written : Nat}
    (ran : sidecar.rebuild desired = .ok (written, rebuilt)) {content : ChunkTarget} :
    content ∈ rebuilt.contents ↔ firstTarget desired content.key = some content := by
  obtain ⟨_, last, new, rebuildRan, chunks, _, contents, _⟩ := rebuild_grown desired sidecar
  obtain ⟨rfl, rfl⟩ : _ ∧ last = rebuilt := by simpa using rebuildRan.symm.trans ran
  rw [Sidecar.contents, chunks, contents, mem_firsts]
  exact and_iff_right List.not_mem_nil

section Reconcile

variable {walk : List (ChunkKey × ChunkTarget)} {desired : List ChunkTarget}
  {before after : Sidecar} {new : List SearchChunk}

theorem firstTarget_isSome {key : ChunkKey} (member : key ∈ desired.map ChunkTarget.key) :
    ∃ first, firstTarget desired key = some first ∧ first ∈ desired ∧ first.key = key := by
  obtain ⟨target, inDesired, keyEq⟩ := List.mem_map.mp member
  have found : (firstTarget desired key).isSome = true :=
    List.find?_isSome.mpr ⟨target, inDesired, decide_eq_true keyEq⟩
  obtain ⟨first, firstEq⟩ := Option.isSome_iff_exists.mp found
  have firstKey := List.find?_some firstEq
  exact ⟨first, firstEq, List.mem_of_find?_eq_some firstEq, of_decide_eq_true firstKey⟩

theorem mem_kept (reconciled : Reconciled walk desired before after new)
    (walks : walk.Perm (wanted desired).rows) {content : ChunkTarget} :
    content ∈ after.contents ↔ content.key ∈ desired.map ChunkTarget.key ∧
      before.keptRow desired content.key = some content := by
  rw [reconciled.mem_contents walks, keptRow]
  cases stored : before.contentTable.find content.key with
  | some row =>
      obtain ⟨inBefore, keyEq⟩ := (Table.find_some_iff _ _ _).mp stored
      have known : content.key ∈ before.keys := by
        rw [keys_eq_contents, ← keyEq]
        exact List.mem_map_of_mem inBefore
      have sameRow : content ∈ before.contents ↔ row = content :=
        ⟨fun member => Table.row_unique inBefore member keyEq, fun same => same ▸ inBefore⟩
      rw [sameRow, Option.some_or, Option.some.injEq, and_comm]
      exact or_iff_left fun missing => missing.1 known
  | none =>
      have unknown : content.key ∉ before.keys := by
        rw [keys_eq_contents]
        exact (Table.find_none_iff _ _).mp stored
      have absent : content ∉ before.contents := fun member =>
        unknown (keys_eq_contents before ▸ List.mem_map_of_mem member)
      have desiredKey : (wanted desired).get? content.key = some content →
          content.key ∈ desired.map ChunkTarget.key := by
        intro last
        rw [get?_wanted] at last
        exact List.mem_map_of_mem (List.mem_reverse.mp (List.mem_of_find?_eq_some last))
      rw [Option.none_or]
      constructor
      · rintro (⟨member, _⟩ | ⟨_, last⟩)
        · exact absurd member absent
        · exact ⟨desiredKey last, last⟩
      · rintro ⟨_, last⟩
        exact .inr ⟨unknown, last⟩

theorem keptRow_key {key : ChunkKey} {row : ChunkTarget}
    (kept : before.keptRow desired key = some row) : row.key = key := by
  rw [keptRow, Option.or_eq_some_iff] at kept
  rcases kept with stored | ⟨_, last⟩
  · exact Table.find_key stored
  · rw [get?_wanted] at last
    have keyEq := List.find?_some last
    exact of_decide_eq_true keyEq

theorem keptRow_isSome {key : ChunkKey} (member : key ∈ desired.map ChunkTarget.key) :
    ∃ row, before.keptRow desired key = some row := by
  rw [← Option.isSome_iff_exists, keptRow, Option.isSome_or, get?_wanted, Bool.or_eq_true,
    List.find?_isSome]
  obtain ⟨target, inDesired, keyEq⟩ := List.mem_map.mp member
  exact .inr ⟨target, List.mem_reverse.mpr inDesired, decide_eq_true keyEq⟩

theorem rows_agree_iff (reconciled : Reconciled walk desired before after new)
    (walks : walk.Perm (wanted desired).rows) {rebuilt : Sidecar} {written : Nat}
    (ran : before.rebuild desired = .ok (written, rebuilt)) :
    (∀ content, content ∈ after.contents ↔ content ∈ rebuilt.contents) ↔
      ∀ key ∈ desired.map ChunkTarget.key,
        before.keptRow desired key = firstTarget desired key := by
  constructor
  · intro same key member
    obtain ⟨first, firstEq, _, rfl⟩ := firstTarget_isSome member
    have inAfter := (same first).mpr ((mem_rebuilt ran).mpr firstEq)
    rw [firstEq]
    exact ((mem_kept reconciled walks).mp inAfter).2
  · intro agree content
    rw [mem_kept reconciled walks, mem_rebuilt ran]
    constructor
    · rintro ⟨member, kept⟩
      rw [← agree _ member]
      exact kept
    · intro first
      have member : content.key ∈ desired.map ChunkTarget.key :=
        List.mem_map_of_mem (List.mem_of_find?_eq_some first)
      exact ⟨member, (agree _ member).trans first⟩

theorem Reconciled.once (reconciled : Reconciled walk desired before after new)
    (walks : walk.Perm (wanted desired).rows) (key : ChunkKey) :
    after.keys.count key = if key ∈ desired.map ChunkTarget.key then 1 else 0 := by
  split
  · rename_i member
    obtain ⟨row, kept⟩ := @keptRow_isSome desired before key member
    obtain rfl := keptRow_key kept
    refine List.count_eq_one_of_mem after.unique ?_
    have inAfter := (mem_kept reconciled walks).mpr ⟨member, kept⟩
    change row.key ∈ after.keys
    rw [keys_eq_contents]
    exact List.mem_map_of_mem inAfter
  · rename_i missing
    refine List.count_eq_zero.mpr fun member => missing ?_
    rw [keys_eq_contents] at member
    obtain ⟨row, inAfter, rfl⟩ := List.mem_map.mp member
    exact ((mem_kept reconciled walks).mp inAfter).1

theorem Reconciled.survives_iff (reconciled : Reconciled walk desired before after new)
    (walks : walk.Perm (wanted desired).rows) {chunk : SearchChunk}
    (stored : chunk ∈ before.chunks.rows) :
    chunk ∈ after.chunks.rows ↔ unwanted desired chunk = false := by
  rw [← Bool.not_eq_true, unwanted_iff, not_not, reconciled.mem_chunks]
  constructor
  · rintro (⟨_, desiredKey⟩ | inserted)
    · exact desiredKey
    · have inAfter : chunk.content ∈ after.contents :=
        List.mem_map_of_mem (reconciled.mem_chunks.mpr (.inr inserted))
      exact ((mem_kept reconciled walks).mp inAfter).1
  · exact fun desiredKey => .inl ⟨stored, desiredKey⟩

theorem Reconciled.vectorsOf (reconciled : Reconciled walk desired before after new)
    {chunk : SearchChunk} (stored : chunk ∈ before.chunks.rows) :
    after.vectorsOf chunk.id =
      if unwanted desired chunk then [] else before.vectorsOf chunk.id := by
  rw [← vectorsOf_deleteChunks stored, Sidecar.vectorsOf, reconciled.grown.vectors]
  rfl

theorem keptRow_hashed (sound : Sound sha256 before)
    (hashed : ∀ target ∈ desired, target.contentHash = sha256.ofText target.text)
    {key : ChunkKey} {row : ChunkTarget} (kept : before.keptRow desired key = some row) :
    row.contentHash = sha256.ofText row.text := by
  rw [keptRow, Option.or_eq_some_iff] at kept
  rcases kept with stored | ⟨_, last⟩
  · exact sound.hashed row (Table.find_mem stored)
  · rw [get?_wanted] at last
    exact hashed row (List.mem_reverse.mp (List.mem_of_find?_eq_some last))

theorem kindsAgree_iff (injective : Function.Injective sha256) (sound : Sound sha256 before)
    (hashed : ∀ target ∈ desired, target.contentHash = sha256.ofText target.text) :
    (∀ key ∈ desired.map ChunkTarget.key,
      before.keptRow desired key = firstTarget desired key) ↔ before.KindsAgree desired := by
  constructor
  · intro agree target member
    rw [agree target.key (List.mem_map_of_mem member)]
  · intro agree key member
    obtain ⟨target, inDesired, rfl⟩ := List.mem_map.mp member
    obtain ⟨row, kept⟩ := @keptRow_isSome desired before target.key member
    obtain ⟨first, firstEq, firstMember, firstKey⟩ := firstTarget_isSome member
    have kindEq := agree target inDesired
    rw [kept, firstEq, Option.map_some, Option.map_some] at kindEq
    rw [kept, firstEq]
    exact congrArg some (eq_of_key injective (keptRow_hashed sound hashed kept)
      (hashed first firstMember) ((keptRow_key kept).trans firstKey.symm)
      (Option.some.inj kindEq))

end Reconcile

/-- A reconcile and a rebuild of the same targets leave the same index exactly if the kinds agree
under every key. -/
theorem reconcile_refines_rebuild_iff (injective : Function.Injective sha256)
    {sidecar : Sidecar} (reached : Reached sha256 sidecar) (rows : List TaskTextRow)
    {walk : List (ChunkKey × ChunkTarget)}
    (walks : walk.Perm (wanted (rows.flatMap (chunkTask sha256))).rows)
    {projected : Nat} {diff : ReconcileDiff} {after : Sidecar}
    (ran : sidecar.diffChunks walk (rows.flatMap (chunkTask sha256)) projected =
      .ok (diff, after))
    (fingerprint : Digest) {written : Nat} {rebuilt : Sidecar}
    (rebuildRan : sidecar.rebuild (rows.flatMap (chunkTask sha256)) = .ok (written, rebuilt)) :
    Refines (rows.flatMap (chunkTask sha256)) sidecar (after.commit fingerprint) rebuilt ↔
      sidecar.KindsAgree (rows.flatMap (chunkTask sha256)) := by
  obtain ⟨room, indexed⟩ := diffChunks_admits ran
  obtain ⟨_, last, new, diffRan, reconciled⟩ := diffChunks_reconciled walks room indexed
  obtain ⟨rfl, rfl⟩ : _ ∧ last = after := by simpa using diffRan.symm.trans ran
  have agree := kindsAgree_iff injective reached.sound
    fun target (member : target ∈ rows.flatMap (chunkTask sha256)) => targets_hashed member
  rw [← agree, ← rows_agree_iff reconciled walks rebuildRan]
  constructor
  · exact Refines.rows
  · intro same
    refine ⟨same, reconciled.once walks, fun chunk stored survived => ?_,
      fun chunk stored gone => ?_⟩
    · have kept := (reconciled.survives_iff walks stored).mp survived
      exact (reconciled.vectorsOf stored).trans (if_neg (Bool.eq_false_iff.mp kept))
    · have dropped := mt (reconciled.survives_iff walks stored).mpr gone
      exact (reconciled.vectorsOf stored).trans (if_pos (Bool.eq_true_of_not_eq_false dropped))

end Sidecar

def describedTask : TaskTextRow :=
  ⟨⟨1⟩, ⟨1⟩, none, true, "a", "b\n\nComment:\nc", []⟩

def commentedTask : TaskTextRow :=
  ⟨⟨1⟩, ⟨1⟩, none, true, "a\n\nDescription:\nb", "", [⟨some "1", "c"⟩]⟩

def describedChunk : ChunkTarget :=
  chunkTarget Digest.mk ⟨1⟩ .core "Title: a\n\nDescription:\nb\n\nComment:\nc".toList

namespace Sidecar

/-- The description is indexed first; a reconcile of the comment keeps it as a core chunk. -/
theorem reconcile_keeps_older_kind : ∃ sidecar diff after written rebuilt,
    Reached Digest.mk sidecar ∧
      sidecar.diffChunks (wanted ([commentedTask].flatMap (chunkTask Digest.mk))).rows
        ([commentedTask].flatMap (chunkTask Digest.mk)) 2400 = .ok (diff, after) ∧
      sidecar.rebuild ([commentedTask].flatMap (chunkTask Digest.mk)) = .ok (written, rebuilt) ∧
      ¬Refines ([commentedTask].flatMap (chunkTask Digest.mk)) sidecar (after.commit ⟨[]⟩)
        rebuilt := by
  have room : 2400 ≤ refuseBytes := by decide
  obtain ⟨_, indexed, _, indexedRan, first⟩ := diffChunks_reconciled (.refl _) room
    (show (fresh.ftsIntegrity = true) from rfl)
  have reached : Reached Digest.mk (indexed.commit ⟨[]⟩) :=
    .reconciled (.opened fresh.info) [describedTask] (.refl _) indexedRan ⟨[]⟩
  obtain ⟨diff, after, _, ran, second⟩ := diffChunks_reconciled
    (.refl (wanted ([commentedTask].flatMap (chunkTask Digest.mk))).rows) room
    reached.sound.indexed
  obtain ⟨written, rebuilt, _, rebuildRan, _⟩ :=
    rebuild_grown ([commentedTask].flatMap (chunkTask Digest.mk)) (indexed.commit ⟨[]⟩)
  refine ⟨_, diff, after, written, rebuilt, reached, ran, rebuildRan, fun refines => ?_⟩
  have stored : (indexed.commit ⟨[]⟩).contentTable.find describedChunk.key =
      some describedChunk :=
    (Table.find_some_iff _ _ _).mpr ⟨(mem_kept first (.refl _)).mpr (by decide), rfl⟩
  have agree := (rows_agree_iff second (.refl _) rebuildRan).mp refines.rows describedChunk.key
    (by decide)
  rw [keptRow, stored, Option.some_or] at agree
  revert agree
  decide

def titledTask (id : Nat) (title : String) : TaskTextRow :=
  ⟨⟨id⟩, ⟨1⟩, none, true, title, "", []⟩

def earlierTasks : List TaskTextRow := [titledTask 1 "a", titledTask 2 "b"]

def laterTasks : List TaskTextRow := [titledTask 1 "a", titledTask 3 "c"]

def rebuiltSidecar : Sidecar :=
  match fresh.rebuild (earlierTasks.flatMap (chunkTask Digest.mk)) with
  | .ok (_, rebuilt) => (rebuilt.claimEmptyProfile "p").2
  | .error _ => fresh

def chunkVectors : List GuardedVectorRow :=
  rebuiltSidecar.chunks.rows.map fun chunk =>
    ⟨chunk.id, chunk.taskId, chunk.contentHash, 0, ⟨[]⟩, ⟨"p", [chunk.id.toUInt32]⟩⟩

def filledSidecar : Sidecar :=
  match rebuiltSidecar.storeVectorsGuarded chunkVectors with
  | .ok (_, filled) => filled
  | .error _ => fresh

theorem filledSidecar_reached : Reached Digest.mk filledSidecar := by
  obtain ⟨written, rebuilt, _, ran, _⟩ :=
    rebuild_grown (earlierTasks.flatMap (chunkTask Digest.mk)) fresh
  have reached : Reached Digest.mk rebuiltSidecar := by
    rw [rebuiltSidecar, ran]
    exact .claimed (.rebuilt (.opened fresh.info) earlierTasks ran) "p"
  have stores : (rebuiltSidecar.storeVectorsGuarded chunkVectors).isOk = true := by decide
  cases filled : rebuiltSidecar.storeVectorsGuarded chunkVectors with
  | error error =>
      rw [filled] at stores
      cases stores
  | ok result =>
      rw [filledSidecar, filled]
      exact .filled reached chunkVectors filled

theorem reconcile_refines_rebuild_iff_filled : ∃ after written rebuilt,
    filledSidecar.diffChunks (wanted (laterTasks.flatMap (chunkTask Digest.mk))).rows
        (laterTasks.flatMap (chunkTask Digest.mk)) 1200 = .ok (⟨1, 1, 2⟩, after) ∧
      filledSidecar.rebuild (laterTasks.flatMap (chunkTask Digest.mk)) = .ok (written, rebuilt) ∧
      (filledSidecar.vectorsOf 1).length = 1 ∧ (filledSidecar.vectorsOf 2).length = 1 ∧
      Refines (laterTasks.flatMap (chunkTask Digest.mk)) filledSidecar (after.commit ⟨[]⟩)
        rebuilt := by
  obtain ⟨diff, after, _, ran, _⟩ := diffChunks_reconciled
    (.refl (wanted (laterTasks.flatMap (chunkTask Digest.mk))).rows)
    (show 1200 ≤ refuseBytes by decide) filledSidecar_reached.sound.indexed
  obtain ⟨written, rebuilt, _, rebuildRan, _⟩ :=
    rebuild_grown (laterTasks.flatMap (chunkTask Digest.mk)) filledSidecar
  have counted : (filledSidecar.diffChunks (wanted (laterTasks.flatMap (chunkTask Digest.mk))).rows
      (laterTasks.flatMap (chunkTask Digest.mk)) 1200).toOption.map Prod.fst = some ⟨1, 1, 2⟩ := by
    decide
  obtain rfl : diff = ⟨1, 1, 2⟩ := by
    rw [ran] at counted
    exact Option.some.inj counted
  have injective : Function.Injective Digest.mk := fun _ _ same => Digest.mk.inj same
  exact ⟨after, written, rebuilt, ran, rebuildRan, by decide, by decide,
    (reconcile_refines_rebuild_iff injective filledSidecar_reached laterTasks (.refl _) ran
      ⟨[]⟩ rebuildRan).mpr (by decide)⟩

end Sidecar

end RepoLink
