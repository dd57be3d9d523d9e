import RepoLink.Ports.Changes

/-!
What each repository call does to the comments of a task: the three comment statements commit or
leave no trace, and nothing else reaches the comments.
-/

namespace RepoLink

open KeyedTable

def Database.commentsOf (database : Database) (id : TaskId) : CommentTable :=
  (database.record id).elim .empty fun record => record.comments

theorem Database.commentsOf_congr {before after : Database} {id : TaskId}
    (same : after.record id = before.record id) : after.commentsOf id = before.commentsOf id := by
  rw [commentsOf, same, commentsOf]

theorem StoreOp.retouch_comments {op : StoreOp} (other : op.commentChange = none)
    (record : TaskRecord) : (op.retouch record).comments = record.comments := by
  cases op <;> first | rfl | cases other

theorem StoreOp.perform_commentsOf {op : StoreOp} {instant : Timestamp} {before after : Database}
    {answer : Except PortError op.Answer} (performed : op.perform instant before = (answer, after))
    (other : op.commentChange = none) (id : TaskId) : after.commentsOf id = before.commentsOf id := by
  rcases perform_record performed with ⟨writes, entries, rfl, saved⟩ | retouched
  · unfold Database.commentsOf
    rw [Database.saveAll_record saved]
    refine @Database.afterWrites_induct _ _ (fun stored => stored.elim CommentTable.empty
      (fun record => record.comments) = (before.record id).elim .empty fun record =>
        record.comments) _ _ rfl ?_
    rintro write member rfl earlier kept
    rw [← kept]
    cases earlier <;> rfl
  · unfold Database.commentsOf
    rw [retouched]
    split
    · cases before.record id with
      | none => rfl
      | some record => exact op.retouch_comments other record
    · rfl

theorem StoreOp.perform_commentsOf_other {op : StoreOp} {instant : Timestamp}
    {before after : Database} {answer : Except PortError op.Answer} {target id : TaskId}
    {change : CommentTable → Except PortError CommentTable}
    (changes : op.commentChange = some (target, change))
    (performed : op.perform instant before = (answer, after)) (different : id ≠ target) :
    after.commentsOf id = before.commentsOf id := by
  refine Database.commentsOf_congr ?_
  rw [perform_commentChange changes performed]
  exact (Database.record_updateRecord target _ _ before id).trans (if_neg different)

/-- A comment statement that succeeds has made its change; on a task that is not stored only a
change that inserts nothing succeeds. -/
theorem StoreOp.perform_comments {op : StoreOp} {instant : Timestamp} {before after : Database}
    {answer : op.Answer} {id : TaskId} {change : CommentTable → Except PortError CommentTable}
    (changes : op.commentChange = some (id, change))
    (performed : op.perform instant before = (.ok answer, after)) :
    ∃ changed, change (before.commentsOf id) = .ok changed ∧
      (after.commentsOf id = changed ∨
        changed.rows = [] ∧ after.commentsOf id = before.commentsOf id ∧
          before.commentsOf id = .empty) := by
  have committed : ∃ value, before.changeComments change id = .ok value ∧ value = after := by
    cases op with
    | replaceComments | addPendingComment | markCommentsPushed =>
        cases changes
        have ended := committing_ok performed
        cases result : before.changeComments _ _ with
        | error error => simp [result, Except.map] at ended
        | ok value =>
            rw [result] at ended
            exact ⟨value, rfl, (Prod.mk.inj (Except.ok.inj ended)).2⟩
    | _ => cases changes
  obtain ⟨_, ended, rfl⟩ := committed
  unfold Database.changeComments at ended
  cases found : before.record id with
  | none =>
      have bare : before.commentsOf id = .empty := by rw [Database.commentsOf, found]; rfl
      simp only [found, bind, Except.bind] at ended
      cases orphaned : change .empty with
      | error error => simp [orphaned] at ended
      | ok changed =>
          simp only [orphaned] at ended
          split at ended
          · rename_i none
            cases ended
            exact ⟨changed, bare ▸ orphaned, .inr ⟨List.isEmpty_iff.mp none, rfl, bare⟩⟩
          · cases ended
  | some record =>
      have stored : before.commentsOf id = record.comments := by
        rw [Database.commentsOf, found]
        rfl
      simp only [found, bind, Except.bind] at ended
      cases changed : change record.comments with
      | error error => simp [changed] at ended
      | ok comments =>
          simp only [changed] at ended
          cases ended
          refine ⟨comments, stored ▸ changed, .inl ?_⟩
          have replaced : Option.map (fun record : TaskRecord => { record with comments })
              (before.record id) = some { record with comments } := by rw [found]; rfl
          exact congrArg (fun stored : Option TaskRecord =>
            stored.elim CommentTable.empty fun record => record.comments)
            (((Database.record_updateRecord id _ _ before id).trans (if_pos rfl)).trans replaced)

theorem StoreOp.changing_succeeds {change : CommentTable → Except PortError CommentTable}
    {id : TaskId} {before : Database} {changed : CommentTable}
    (stored : before.commentsOf id ≠ .empty) (succeeds : change (before.commentsOf id) = .ok changed) :
    (StoreOp.changing change id before).1 = .ok () := by
  cases found : before.record id with
  | none =>
      refine (stored ?_).elim
      rw [Database.commentsOf, found]
      rfl
  | some record =>
      have rows : before.commentsOf id = record.comments := by
        rw [Database.commentsOf, found]
        rfl
      rw [rows] at succeeds
      simp only [changing, Database.changeComments, found, succeeds, bind, Except.bind]
      rfl

end RepoLink
