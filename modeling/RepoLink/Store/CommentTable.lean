import Mathlib.Data.List.Sort
import RepoLink.Domain.Types
import RepoLink.Library.Table

/-!
The `task_comments` rows of one task. A row without a remote id is pending; the remote ids of the
others are unique. `replace_comments` and `mark_comments_pushed` delete and insert in one
transaction.
-/

namespace RepoLink

open KeyedTable

def uniqueViolation (columns : String) : PortError :=
  .conflict (some columns) ("UNIQUE constraint failed: " ++ columns)

def foreignKeyViolation : PortError := .backend "FOREIGN KEY constraint failed"

structure CommentRow where
  id : CommentId
  /-- Empty as long as the comment is pending. -/
  remoteCommentId : String
  author : String
  body : String
  createdAt : Timestamp
deriving DecidableEq, Repr

namespace CommentRow

def pending (row : CommentRow) : Bool := row.remoteCommentId = ""

def load (row : CommentRow) : TaskComment where
  localId := some row.id
  remoteId := if row.remoteCommentId = "" then none else some row.remoteCommentId
  author := row.author
  body := row.body
  createdAt := row.createdAt

def loadsBefore (left right : CommentRow) : Bool :=
  left.createdAt < right.createdAt ||
    (left.createdAt = right.createdAt && left.id.value ≤ right.id.value)

end CommentRow

/-- The ids are random in the source; here they count up, and none is given out twice. -/
structure CommentTable where
  table : Table CommentRow.id
  unique : ((table.rows.filter fun row => !row.pending).map CommentRow.remoteCommentId).Nodup
  minted : Nat
  known : ∀ row ∈ table.rows, row.id.value < minted
deriving DecidableEq

namespace CommentTable

def empty : CommentTable := ⟨.empty, .nil, 0, fun _ member => (List.not_mem_nil member).elim⟩

def rows (comments : CommentTable) : List CommentRow := comments.table.rows

def load (comments : CommentTable) : List TaskComment :=
  (comments.rows.insertionSort (CommentRow.loadsBefore · ·)).map CommentRow.load

def filter (keep : CommentRow → Bool) (comments : CommentTable) : CommentTable where
  table := comments.table.filter keep
  unique := by
    refine (List.Sublist.map _ ?_).nodup comments.unique
    exact List.filter_sublist.filter _
  minted := comments.minted
  known := fun row member => comments.known row (List.mem_filter.mp member).1

/-- `uq_task_comments_remote`: one row for each remote comment. -/
def taken (remoteCommentId : String) (comments : CommentTable) : Prop :=
  remoteCommentId ≠ "" ∧ remoteCommentId ∈ comments.rows.map CommentRow.remoteCommentId

instance (remoteCommentId : String) (comments : CommentTable) :
    Decidable (comments.taken remoteCommentId) := inferInstanceAs (Decidable (_ ∧ _))

def append (remoteCommentId author body : String) (createdAt : Timestamp)
    (comments : CommentTable) (free : ¬comments.taken remoteCommentId) : CommentTable where
  table := comments.table.append ⟨⟨comments.minted⟩, remoteCommentId, author, body, createdAt⟩ <| by
    intro member
    obtain ⟨row, rowMember, idEq⟩ := List.mem_map.mp member
    have known := comments.known row rowMember
    rw [idEq] at known
    exact Nat.lt_irrefl _ known
  unique := by
    simp only [Table.append, List.filter_append, List.map_append]
    by_cases pending : remoteCommentId = ""
    · simpa [CommentRow.pending, pending] using comments.unique
    · simp only [CommentRow.pending, pending, decide_false, Bool.not_false, List.filter_cons_of_pos,
        List.filter_nil, List.map_cons, List.map_nil]
      refine List.nodup_append.mpr ⟨comments.unique, List.nodup_singleton _, ?_⟩
      rintro stored member _ added rfl
      rw [List.mem_singleton.mp added] at member
      obtain ⟨row, rowMember, same⟩ := List.mem_map.mp member
      exact free ⟨pending, List.mem_map.mpr ⟨row, (List.mem_filter.mp rowMember).1, same⟩⟩
  minted := comments.minted + 1
  known := by
    intro row member
    rcases List.mem_append.mp member with stored | added
    · exact Nat.lt_succ_of_lt (comments.known row stored)
    · rw [List.mem_singleton.mp added]
      exact Nat.lt_succ_self _

def insert (remoteCommentId author body : String) (createdAt : Timestamp)
    (comments : CommentTable) : Except PortError CommentTable :=
  if taken : comments.taken remoteCommentId then
    .error (uniqueViolation "task_comments.task_id, task_comments.remote_comment_id")
  else .ok (comments.append remoteCommentId author body createdAt taken)

def insertAll : List RemoteComment → CommentTable → Except PortError CommentTable
  | [], comments => .ok comments
  | comment :: rest, comments => do
    let inserted ← comments.insert comment.remoteId comment.author comment.body comment.createdAt
    insertAll rest inserted

/-- The comments of the remote take the place of those that carry a remote id; pending ones stay. -/
def replaceComments (fetched : List RemoteComment) (comments : CommentTable) :
    Except PortError CommentTable :=
  (comments.filter CommentRow.pending).insertAll fetched

def addPendingComment (author body : String) (createdAt : Timestamp) (comments : CommentTable) :
    Except PortError CommentTable := comments.insert "" author body createdAt

def markCommentsPushed (drainedLocalIds : List CommentId) (pushed : List RemoteComment)
    (comments : CommentTable) : Except PortError CommentTable :=
  (comments.filter fun row => !(row.pending && row.id ∈ drainedLocalIds)).insertAll pushed

def attempted (change : CommentTable → Except PortError CommentTable) (comments : CommentTable) :
    CommentTable :=
  match change comments with
  | .ok changed => changed
  | .error _ => comments

def letters (comments : CommentTable) : List (CommentId × String) :=
  (comments.rows.filter CommentRow.pending).map fun row => (row.id, row.body)

def mirrored (comments : CommentTable) : List String :=
  (comments.rows.filter fun row => !row.pending).map CommentRow.remoteCommentId

theorem letters_ids_distinct (comments : CommentTable) :
    (comments.letters.map Prod.fst).Nodup := by
  rw [letters, List.map_map]
  exact (List.filter_sublist.map CommentRow.id).nodup comments.table.distinct

theorem letters_distinct (comments : CommentTable) : comments.letters.Nodup :=
  .of_map _ comments.letters_ids_distinct

section Insert

variable {comments after : CommentTable}

theorem insert_ok {remoteCommentId author body : String} {createdAt : Timestamp}
    (inserted : comments.insert remoteCommentId author body createdAt = .ok after) :
    after.rows = comments.rows ++
      [⟨⟨comments.minted⟩, remoteCommentId, author, body, createdAt⟩] ∧
    after.minted = comments.minted + 1 := by
  unfold insert at inserted
  split at inserted
  · cases inserted
  · cases inserted
    exact ⟨rfl, rfl⟩

theorem addPendingComment_ok {author body : String} {createdAt : Timestamp}
    (added : comments.addPendingComment author body createdAt = .ok after) :
    after.letters = comments.letters ++ [(⟨comments.minted⟩, body)] ∧
      after.mirrored = comments.mirrored ∧ after.minted = comments.minted + 1 := by
  obtain ⟨rows, minted⟩ := insert_ok added
  simp [letters, mirrored, rows, minted, CommentRow.pending]

theorem insertAll_ok : ∀ {remote : List RemoteComment} {comments after : CommentTable},
    "" ∉ remote.map RemoteComment.remoteId → comments.insertAll remote = .ok after →
    after.letters = comments.letters ∧
      after.mirrored = comments.mirrored ++ remote.map RemoteComment.remoteId ∧
      comments.minted ≤ after.minted := by
  intro remote
  induction remote with
  | nil =>
      intro comments after _ inserted
      cases inserted
      simp
  | cons comment rest ih =>
      intro comments after named inserted
      rw [List.map_cons, List.mem_cons, not_or] at named
      unfold insertAll at inserted
      cases first : comments.insert comment.remoteId comment.author comment.body
          comment.createdAt with
      | error error =>
          rw [first] at inserted
          cases inserted
      | ok middle =>
          rw [first] at inserted
          obtain ⟨rows, minted⟩ := insert_ok first
          obtain ⟨letters, mirrored, grown⟩ := ih named.2 inserted
          have remoteBacked : comment.remoteId ≠ "" := fun same => named.1 same.symm
          refine ⟨?_, ?_, by omega⟩
          · rw [letters]
            simp [CommentTable.letters, rows, CommentRow.pending, remoteBacked]
          · rw [mirrored]
            simp [CommentTable.mirrored, rows, CommentRow.pending, remoteBacked]

theorem replaceComments_ok {fetched : List RemoteComment}
    (named : "" ∉ fetched.map RemoteComment.remoteId)
    (replaced : comments.replaceComments fetched = .ok after) :
    after.letters = comments.letters ∧ after.mirrored = fetched.map RemoteComment.remoteId ∧
      comments.minted ≤ after.minted := by
  obtain ⟨letters, mirrored, grown⟩ := insertAll_ok named replaced
  refine ⟨letters.trans ?_, mirrored.trans ?_, grown⟩
  · simp [CommentTable.letters, rows, filter, Table.filter, List.filter_filter]
  · simp [CommentTable.mirrored, rows, filter, Table.filter, List.filter_filter]

theorem markCommentsPushed_ok {drained : CommentId} {pushed : RemoteComment}
    (named : pushed.remoteId ≠ "")
    (marked : comments.markCommentsPushed [drained] [pushed] = .ok after) :
    (∀ letter, letter ∈ after.letters ↔ letter ∈ comments.letters ∧ letter.1 ≠ drained) ∧
      after.mirrored = comments.mirrored ++ [pushed.remoteId] ∧
      comments.minted ≤ after.minted := by
  obtain ⟨letters, mirrored, grown⟩ := insertAll_ok (by simpa using named.symm) marked
  refine ⟨fun letter => ?_, mirrored.trans ?_, grown⟩
  · rw [letters]
    simp only [CommentTable.letters, rows, filter, Table.filter, List.mem_map, List.mem_filter]
    constructor
    · rintro ⟨row, ⟨⟨member, left⟩, pending⟩, rfl⟩
      exact ⟨⟨row, ⟨member, pending⟩, rfl⟩, by simpa [pending] using left⟩
    · rintro ⟨⟨row, ⟨member, pending⟩, rfl⟩, different⟩
      exact ⟨row, ⟨⟨member, by simpa [pending] using different⟩, pending⟩, rfl⟩
  · simp only [CommentTable.mirrored, rows, filter, Table.filter, List.filter_filter,
      List.map_cons, List.map_nil]
    congr 2
    refine List.filter_congr fun row _ => ?_
    cases row.pending <;> simp

theorem markCommentsPushed_succeeds {drained : CommentId} {pushed : RemoteComment}
    (unfiled : pushed.remoteId ∉ comments.mirrored) :
    ∃ after, comments.markCommentsPushed [drained] [pushed] = .ok after := by
  unfold markCommentsPushed insertAll insert
  split
  · rename_i taken
    obtain ⟨named, member⟩ := taken
    obtain ⟨row, rowMember, same⟩ := List.mem_map.mp member
    refine (unfiled ?_).elim
    rw [← same]
    refine List.mem_map_of_mem (List.mem_filter.mpr ⟨(List.mem_filter.mp rowMember).1, ?_⟩)
    simp [CommentRow.pending, same, named]
  · exact ⟨_, rfl⟩

end Insert

end CommentTable

end RepoLink
