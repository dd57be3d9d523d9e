import RepoLink.Github.Graphql
import RepoLink.Library.Paging

/-!
A live read of board items by id. It asks in chunks, and what it returns is the board's word on a
front part of the ids; the flag says whether that part is short of the whole.
-/

namespace RepoLink

open Effects Program KeyedTable List

abbrev ItemBoard := String → Option (List FieldValueNode)

inductive AnswersId (board : ItemBoard) (id : String) : Option ItemStatusNode → Prop where
  | unresolved (absent : board id = none) : AnswersId board id none
  | stranger (absent : board id = none) (fieldValues : List FieldValueNode) :
      AnswersId board id (some ⟨none, fieldValues⟩)
  | item {fieldValues : List FieldValueNode} (shown : board id = some fieldValues) :
      AnswersId board id (some ⟨some id, fieldValues⟩)

namespace GraphqlClient

def Reads (board : ItemBoard) (statusFieldId : String) (ids : List String)
    (statuses : Dict String (Option String)) : Prop :=
  ∀ id, statuses.get? id =
    if id ∈ ids then (board id).map (statusOption statusFieldId) else none

variable {board : ItemBoard} {statusFieldId : String}

theorem Reads.none : Reads board statusFieldId [] Dict.empty := fun _ => rfl

theorem Reads.absent {ids : List String} {statuses : Dict String (Option String)} {id : String}
    (reads : Reads board statusFieldId ids statuses) (absent : board id = .none) :
    Reads board statusFieldId (ids ++ [id]) statuses := by
  intro wanted
  rw [reads wanted]
  by_cases same : wanted = id
  · subst same
    rw [absent, Option.map_none, ite_self, ite_self]
  · simp only [mem_append, mem_singleton, same, or_false]

theorem Reads.item {ids : List String} {statuses : Dict String (Option String)} {id : String}
    {fieldValues : List FieldValueNode} (reads : Reads board statusFieldId ids statuses)
    (shown : board id = some fieldValues) :
    Reads board statusFieldId (ids ++ [id])
      (statuses.insert id (statusOption statusFieldId fieldValues)) := by
  intro wanted
  rw [Dict.get?_insert, reads wanted]
  by_cases same : wanted = id
  · subst same
    rw [if_pos rfl, if_pos (mem_append_right ids (mem_singleton_self wanted)), shown,
      Option.map_some]
  · simp only [mem_append, mem_singleton, same, or_false, if_false]

theorem Reads.nodes : ∀ {chunk ids : List String} {nodes : List (Option ItemStatusNode)}
    {statuses : Dict String (Option String)}, Reads board statusFieldId ids statuses →
    Forall₂ (AnswersId board) chunk nodes →
    Reads board statusFieldId (ids ++ chunk) (nodes.foldl (insertStatus statusFieldId) statuses) := by
  intro chunk
  induction chunk with
  | nil =>
      rintro ids _ statuses reads (_ | _)
      rw [append_nil]
      exact reads
  | cons id rest ih =>
      rintro ids _ statuses reads (_ | ⟨answers, others⟩)
      rw [← singleton_append, ← append_assoc, foldl_cons]
      refine ih ?_ others
      cases answers with
      | unresolved absent => exact reads.absent absent
      | stranger absent fieldValues => exact reads.absent absent
      | item shown => exact reads.item shown

theorem Reads.empty {ids : List String} {statuses : Dict String (Option String)}
    (reads : Reads board statusFieldId ids statuses) (nothing : statuses.rows.isEmpty = true) :
    ∀ id ∈ ids, board id = .none := by
  intro id member
  have missing : statuses.get? id = .none := by
    refine Option.eq_none_iff_forall_ne_some.mpr fun value stored => ?_
    have row := Dict.mem_rows_iff.mpr stored
    rw [isEmpty_iff.mp nothing] at row
    exact not_mem_nil row
  rw [reads id, if_pos member] at missing
  exact Option.map_eq_none_iff.mp missing

section Runs

variable {σ : Type} {meaning : Semantics itemStatusesSignature σ} {requests : σ → Nat}

end Runs

end GraphqlClient

open GraphqlClient

end RepoLink
