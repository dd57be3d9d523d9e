import RepoLink.Library.Mailroom
import RepoLink.Library.RelyGuarantee
import RepoLink.Ports.Comments
import RepoLink.Sync.Pull
import RepoLink.Sync.Service
import RepoLink.TaskService.Service

/-!
The comments of one task as letters: a push takes up the pending ones, posts each and files its
remote id, a pull replaces the filed ones by a listing, and an author submits new ones. Each call
is a step of the mailroom or leaves it alone.
-/

namespace RepoLink

open Effects Program Post

inductive Clerk where
  | push
  | pull
  | author
deriving DecidableEq, Repr

/-- The database and the course of the correspondence about one task: the comments that ever were
pending, those that the last push took up and those it has still to mark, the remote id of the one
that it has posted and not marked, every post made by a push, and the ids that the provider has
given out. -/
structure Correspondence where
  database : Database
  submitted : List (CommentId × String)
  taken : List (CommentId × String)
  queue : List (CommentId × String)
  outstanding : Option String
  sent : List ((CommentId × String) × String)
  issued : List String

namespace Correspondence

def room (taskId : TaskId) (state : Correspondence) : Mailroom (CommentId × String) String where
  submitted := state.submitted
  pending := (state.database.commentsOf taskId).letters
  taken := state.taken
  queue := state.queue
  outstanding := state.outstanding
  sent := state.sent
  filed := (state.database.commentsOf taskId).mirrored
  issued := state.issued

def lettersOf (task : Task) : List (CommentId × String) :=
  (SyncService.pendingComments task).filterMap fun comment =>
    comment.localId.map fun localId => (localId, comment.body)

def load (task : Task) (state : Correspondence) : Correspondence :=
  { state with taken := lettersOf task, queue := lettersOf task, outstanding := none }

/-- A post by a push is a post of the first comment of its queue, with the text it carries. -/
def post (clerk : Clerk) (body receipt : String) (state : Correspondence) : Correspondence :=
  match clerk, state.queue with
  | .push, letter :: _ =>
    { state with
      outstanding := some receipt
      sent := state.sent ++ [((letter.1, body), receipt)]
      issued := state.issued ++ [receipt] }
  | _, _ => { state with issued := state.issued ++ [receipt] }

def mark (state : Correspondence) : Correspondence :=
  { state with queue := state.queue.tail, outstanding := none }

def submit (letter : CommentId × String) (state : Correspondence) : Correspondence :=
  { state with submitted := state.submitted ++ [letter] }

end Correspondence

/-- The ports without provider failures: a created comment gets an id that was never given out, a
listing shows ids that were. The transaction that marks a comment does not break down. -/
def correspondence (taskId : TaskId) (clerk : Clerk) : Semantics ports Correspondence
  | .store (.getTask id), before, answer, after =>
    portMeaning (.store (.getTask id)) before.database answer before.database ∧
      after = match clerk, (answer : Except PortError Task) with
        | .push, .ok task => if id = taskId then before.load task else before
        | _, _ => before
  | .store (.addPendingComment id author body createdAt), before, answer, after =>
    ∃ database, portMeaning (.store (.addPendingComment id author body createdAt)) before.database
        answer database ∧
      after = match (answer : Except PortError Unit) with
        | .ok _ =>
          if id = taskId then
            { before with database }.submit
              (⟨(before.database.commentsOf taskId).minted⟩, body)
          else { before with database }
        | .error _ => { before with database }
  | .store (.markCommentsPushed id drained pushed), before, answer, after =>
    ∃ instant database, (StoreOp.markCommentsPushed id drained pushed).perform instant
        before.database = (answer, database) ∧
      after = match (answer : Except PortError Unit) with
        | .ok _ => { before with database }.mark
        | .error _ => { before with database }
  | .provider (.createComment _ _ body), before, answer, after =>
    ∃ comment : RemoteComment, answer = .ok comment ∧ comment.remoteId ≠ "" ∧
      comment.remoteId ∉ before.issued ∧ after = before.post clerk body comment.remoteId
  | .provider (.fetchComments ..), before, answer, after =>
    ∃ (fetched : List RemoteComment) (issued : List String), answer = .ok fetched ∧
      before.issued ⊆ issued ∧ "" ∉ issued ∧ fetched.map RemoteComment.remoteId ⊆ issued ∧
      after = { before with issued }
  | op, before, answer, after =>
    ∃ database, portMeaning op before.database answer database ∧ after = { before with database }

def PortOp.listing (taskId : TaskId) : PortOp → Option (List String)
  | .store (.replaceComments id fetched) =>
    if id = taskId then some (fetched.map RemoteComment.remoteId) else none
  | _ => none

/-- A pull that is about to replace the comments has fetched every comment that is marked, and
none that is posted and not marked yet. -/
def PortOp.punctual (taskId : TaskId) (op : PortOp) (state : Correspondence) : Prop :=
  ∀ listing ∈ op.listing taskId, (state.room taskId).Timely listing

instance (taskId : TaskId) (op : PortOp) (state : Correspondence) :
    Decidable (op.punctual taskId state) := inferInstanceAs (Decidable (∀ _ ∈ _, _))

def PortOp.owes (taskId : TaskId) (clerk : Clerk) : PortOp → Correspondence → Prop
  | .store (.getTask _), state => clerk = .push → state.outstanding = none
  | .store (.replaceComments _ fetched), state =>
    fetched.map RemoteComment.remoteId ⊆ state.issued
  | .store (.markCommentsPushed id drained pushed), state =>
    clerk = .push ∧ id = taskId ∧ ∃ letter rest receipt, state.queue = letter :: rest ∧
      state.outstanding = some receipt ∧ drained = [letter.1] ∧
      pushed.map RemoteComment.remoteId = [receipt]
  | .provider (.createComment _ _ body), state =>
    clerk = .push → state.outstanding = none ∧ ∃ localId rest, state.queue = (localId, body) :: rest
  | _, _ => True

/-- The mailroom is sound, no remote id is empty, and every submitted comment has an id that was
given out. -/
structure Correspondence.Sound (taskId : TaskId) (state : Correspondence) : Prop where
  room : (state.room taskId).Sound
  named : "" ∉ state.issued
  minted : ∀ letter ∈ state.submitted,
    letter.1.value < (state.database.commentsOf taskId).minted

abbrev commentRules (taskId : TaskId) (admits : PortOp → Correspondence → Prop) :
    Discipline ports Correspondence Clerk where
  meaning clerk op before answer after :=
    admits op before ∧ correspondence taskId clerk op before answer after
  inv := Correspondence.Sound taskId
  rely clerk before after := before.issued ⊆ after.issued ∧
    (clerk = .push → after.queue = before.queue ∧ after.outstanding = before.outstanding)
  guarantee clerk before after := before.issued ⊆ after.issued ∧
    (clerk ≠ .push → after.queue = before.queue ∧ after.outstanding = before.outstanding)
  must clerk op state := op.owes taskId clerk state
  crashes _ := False

def onePush (clerk other : Clerk) : Prop := clerk ≠ .push ∨ other ≠ .push

section Steps

variable {taskId : TaskId} {clerk : Clerk} {before after : Correspondence}

theorem Correspondence.Sound.untouched (sound : before.Sound taskId) {database : Database}
    (same : database.commentsOf taskId = before.database.commentsOf taskId) :
    ({ before with database } : Correspondence).Sound taskId := by
  refine ⟨?_, sound.named, ?_⟩
  · have sameRoom : ({ before with database } : Correspondence).room taskId = before.room taskId := by
      simp only [Correspondence.room, same]
    exact sameRoom ▸ sound.room
  · intro letter member
    rw [same]
    exact sound.minted letter member

theorem Correspondence.Sound.issue (sound : before.Sound taskId) {issued : List String}
    (grown : before.issued ⊆ issued) (named : "" ∉ issued) :
    ({ before with issued } : Correspondence).Sound taskId :=
  ⟨sound.room.step (.issue grown), named, sound.minted⟩

theorem lettersOf_load (record : TaskRecord) :
    (Correspondence.lettersOf record.load).Perm record.comments.letters := by
  have pendingEq : (fun comment : TaskComment => comment.remoteId.isNone) ∘ CommentRow.load =
      CommentRow.pending := by
    funext row
    simp only [Function.comp, CommentRow.load, CommentRow.pending]
    split <;> simp_all
  have loaded : Correspondence.lettersOf record.load = ((record.comments.rows.insertionSort
      (CommentRow.loadsBefore · ·)).filter CommentRow.pending).map fun row => (row.id, row.body) := by
    simp only [Correspondence.lettersOf, SyncService.pendingComments, TaskRecord.load,
      CommentTable.load, List.filter_map, pendingEq, List.filterMap_map]
    exact congrFun (List.filterMap_eq_map (f := fun row : CommentRow => (row.id, row.body))) _
  rw [loaded]
  exact ((List.perm_insertionSort _ _).filter _).map _

theorem Correspondence.Sound.load (sound : before.Sound taskId) {task : Task}
    (stored : before.database.stored taskId = some task) (idle : before.outstanding = none) :
    (before.load task).Sound taskId := by
  obtain ⟨record, found, rfl⟩ := Option.map_eq_some_iff.mp stored
  have rows : before.database.commentsOf taskId = record.comments := by
    rw [Database.commentsOf, found]
    rfl
  have perm := lettersOf_load record
  rw [← rows] at perm
  have taken := sound.room.takeUp idle (perm.nodup_iff.mpr
    (CommentTable.letters_distinct _)) perm.subset
  refine ⟨?_, sound.named, sound.minted⟩
  have sameRoom : (before.load record.load).room taskId =
      { before.room taskId with
        taken := Correspondence.lettersOf record.load
        queue := Correspondence.lettersOf record.load } := by
    simp only [Correspondence.room, Correspondence.load, idle]
  exact sameRoom ▸ taken

theorem Correspondence.Sound.post (sound : before.Sound taskId) {body receipt : String}
    (owed : clerk = .push → before.outstanding = none ∧
      ∃ localId rest, before.queue = (localId, body) :: rest)
    (named : receipt ≠ "") (fresh : receipt ∉ before.issued) :
    (before.post clerk body receipt).Sound taskId := by
  have grown : before.issued ⊆ before.issued ++ [receipt] := List.subset_append_left _ _
  have allNamed : "" ∉ before.issued ++ [receipt] := by
    intro member
    rcases List.mem_append.mp member with given | added
    · exact sound.named given
    · exact named (List.mem_singleton.mp added).symm
  cases clerk with
  | push =>
      obtain ⟨idle, localId, rest, next⟩ := owed rfl
      have posted : before.post .push body receipt = { before with
          outstanding := some receipt
          sent := before.sent ++ [((localId, body), receipt)]
          issued := before.issued ++ [receipt] } := by
        simp only [Correspondence.post, next]
      rw [posted]
      exact ⟨sound.room.send idle next fresh grown
        (List.mem_append_right _ (List.mem_singleton_self _)), allNamed, sound.minted⟩
  | pull => exact sound.issue grown allNamed
  | author => exact sound.issue grown allNamed

theorem Correspondence.Sound.submit (sound : before.Sound taskId) {instant : Timestamp}
    {author body : String} {createdAt : Timestamp} {database : Database} {answer : Unit}
    (performed : (StoreOp.addPendingComment taskId author body createdAt).perform instant
      before.database = (.ok answer, database)) :
    (({ before with database } : Correspondence).submit
      (⟨(before.database.commentsOf taskId).minted⟩, body)).Sound taskId := by
  obtain ⟨changed, added, ended⟩ := StoreOp.perform_comments rfl performed
  obtain ⟨letters, mirrored, minted⟩ := CommentTable.addPendingComment_ok added
  have after : database.commentsOf taskId = changed := by
    rcases ended with same | ⟨none, _⟩
    · exact same
    · have stored : (⟨(before.database.commentsOf taskId).minted⟩, body) ∈ changed.letters := by
        rw [letters]
        exact List.mem_append_right _ (List.mem_singleton_self _)
      simp [CommentTable.letters, none] at stored
  have fresh : (⟨(before.database.commentsOf taskId).minted⟩, body) ∉ before.submitted :=
    fun member => Nat.lt_irrefl _ (sound.minted _ member)
  refine ⟨?_, sound.named, ?_⟩
  · have sameRoom : (({ before with database } : Correspondence).submit
        (⟨(before.database.commentsOf taskId).minted⟩, body)).room taskId =
        { before.room taskId with
          submitted := before.submitted ++ [(⟨(before.database.commentsOf taskId).minted⟩, body)]
          pending := (before.database.commentsOf taskId).letters ++
            [(⟨(before.database.commentsOf taskId).minted⟩, body)] } := by
      simp only [Correspondence.room, Correspondence.submit, after, letters, mirrored]
    exact sameRoom ▸ sound.room.submit fresh
  · intro letter member
    change letter.1.value < (database.commentsOf taskId).minted
    rw [after, minted]
    rcases List.mem_append.mp member with earlier | new
    · exact Nat.lt_succ_of_lt (sound.minted letter earlier)
    · rw [List.mem_singleton.mp new]
      exact Nat.lt_succ_self _

theorem Correspondence.Sound.mark (sound : before.Sound taskId) {instant : Timestamp}
    {letter : CommentId × String} {rest : List (CommentId × String)} {receipt : String}
    {drained : List CommentId} {pushed : List RemoteComment} {database : Database} {answer : Unit}
    (next : before.queue = letter :: rest) (due : before.outstanding = some receipt)
    (drainedEq : drained = [letter.1])
    (pushedEq : pushed.map RemoteComment.remoteId = [receipt])
    (performed : (StoreOp.markCommentsPushed taskId drained pushed).perform instant
      before.database = (.ok answer, database)) :
    ({ before with database } : Correspondence).mark.Sound taskId := by
  subst drainedEq
  obtain ⟨comment, rfl, rfl⟩ : ∃ comment, pushed = [comment] ∧ comment.remoteId = receipt := by
    rcases List.map_eq_singleton_iff.mp pushedEq with ⟨comment, rfl, same⟩
    exact ⟨comment, rfl, same⟩
  obtain ⟨sent, pending, unfiled⟩ := sound.room.outstanding_head next due
  have named : comment.remoteId ≠ "" := fun same =>
    sound.named (same ▸ (sound.room.sentIssued _ _ sent).2)
  obtain ⟨changed, marked, ended⟩ := StoreOp.perform_comments rfl performed
  obtain ⟨letters, mirrored, minted⟩ := CommentTable.markCommentsPushed_ok named marked
  have after : database.commentsOf taskId = changed := by
    rcases ended with same | ⟨none, _⟩
    · exact same
    · have filed : comment.remoteId ∈ changed.mirrored := by
        rw [mirrored]
        exact List.mem_append_right _ (List.mem_singleton_self _)
      simp [CommentTable.mirrored, none] at filed
  refine ⟨?_, sound.named, ?_⟩
  · have left : ∀ other, other ∈ changed.letters ↔
        other ∈ (before.database.commentsOf taskId).letters ∧ other ≠ letter := by
      intro other
      rw [letters]
      refine and_congr_right fun member => not_congr ⟨fun same => ?_, fun same => same ▸ rfl⟩
      exact List.inj_on_of_nodup_map (CommentTable.letters_ids_distinct _) member pending same
    have sameRoom : ({ before with database } : Correspondence).mark.room taskId =
        { before.room taskId with
          pending := changed.letters, queue := rest, outstanding := none
          filed := (before.database.commentsOf taskId).mirrored ++ [comment.remoteId] } := by
      simp only [Correspondence.room, Correspondence.mark, after, mirrored, next, List.tail_cons]
    exact sameRoom ▸ sound.room.file next due changed.letters_distinct left
  · intro other member
    change other.1.value < (database.commentsOf taskId).minted
    rw [after]
    exact Nat.lt_of_lt_of_le (sound.minted other member) minted

theorem Correspondence.Sound.relist (sound : before.Sound taskId) {instant : Timestamp}
    {fetched : List RemoteComment} {database : Database} {answer : Unit}
    (known : fetched.map RemoteComment.remoteId ⊆ before.issued)
    (timely : (before.room taskId).Timely (fetched.map RemoteComment.remoteId))
    (performed : (StoreOp.replaceComments taskId fetched).perform instant before.database =
      (.ok answer, database)) :
    ({ before with database } : Correspondence).Sound taskId := by
  have named : "" ∉ fetched.map RemoteComment.remoteId := fun member => sound.named (known member)
  obtain ⟨changed, replaced, ended⟩ := StoreOp.perform_comments rfl performed
  obtain ⟨letters, mirrored, minted⟩ := CommentTable.replaceComments_ok named replaced
  rcases ended with after | ⟨none, same, _⟩
  · have distinct : (fetched.map RemoteComment.remoteId).Nodup := mirrored ▸ changed.unique
    refine ⟨?_, sound.named, ?_⟩
    · have sameRoom : ({ before with database } : Correspondence).room taskId =
          { before.room taskId with filed := fetched.map RemoteComment.remoteId } := by
        simp only [Correspondence.room, after, letters, mirrored]
      exact sameRoom ▸ sound.room.refile distinct known timely
    · intro letter member
      change letter.1.value < (database.commentsOf taskId).minted
      rw [after]
      exact Nat.lt_of_lt_of_le (sound.minted letter member) minted
  · exact sound.untouched same

theorem Correspondence.Sound.aside (sound : before.Sound taskId) {op : StoreOp}
    {answer : Except PortError op.Answer} {database : Database} (other : op.commentChange = none)
    (performed : op.Performs before.database answer database) :
    ({ before with database } : Correspondence).Sound taskId := by
  rcases performed with ⟨instant, performed⟩ | ⟨_, _, same⟩
  · exact sound.untouched (StoreOp.perform_commentsOf performed other taskId)
  · exact sound.untouched (by rw [same])

theorem Correspondence.Sound.elsewhere (sound : before.Sound taskId) {op : StoreOp}
    {answer : Except PortError op.Answer} {database : Database} {target : TaskId}
    {change : CommentTable → Except PortError CommentTable}
    (changes : op.commentChange = some (target, change))
    (performed : op.Performs before.database answer database)
    (apart : answer.isOk = true → taskId ≠ target) :
    ({ before with database } : Correspondence).Sound taskId := by
  rcases performed with ⟨instant, performed⟩ | ⟨_, _, same⟩
  · cases answer with
    | error error => exact sound.untouched (by rw [StoreOp.perform_error performed])
    | ok value =>
        exact sound.untouched (StoreOp.perform_commentsOf_other changes performed (apart rfl))
  · exact sound.untouched (by rw [same])

/-- Every call that owes nothing more keeps the correspondence sound. -/
theorem comment_step {op : PortOp} {answer : op.Answer} (sound : before.Sound taskId)
    (owed : op.owes taskId clerk before) (punctual : op.punctual taskId before)
    (answered : correspondence taskId clerk op before answer after) : after.Sound taskId := by
  cases op with
  | store op =>
      cases op with
      | getTask id =>
          obtain ⟨performed, rfl⟩ := answered
          split
          · rename_i task
            split
            · rename_i same
              rcases performed with ⟨instant, performed⟩ | ⟨_, failed, _⟩
              · refine sound.load (same ▸ Database.getTask_ok (congrArg Prod.fst performed)) ?_
                exact owed rfl
              · cases failed
            · exact sound
          · exact sound
      | addPendingComment id author body createdAt =>
          obtain ⟨database, performed, rfl⟩ := answered
          obtain error | value : Except PortError Unit := answer
          · exact sound.elsewhere rfl performed nofun
          · dsimp only
            split
            · rename_i same
              subst same
              rcases performed with ⟨instant, performed⟩ | ⟨_, failed, _⟩
              · exact sound.submit performed
              · cases failed
            · rename_i different
              exact sound.elsewhere rfl performed fun _ same => different same.symm
      | markCommentsPushed id drained pushed =>
          obtain ⟨instant, database, performed, rfl⟩ := answered
          obtain ⟨rfl, rfl, letter, rest, receipt, next, due, drainedEq, pushedEq⟩ := owed
          obtain error | value : Except PortError Unit := answer
          · exact sound.elsewhere rfl (.inl ⟨instant, performed⟩) nofun
          · exact sound.mark next due drainedEq pushedEq performed
      | replaceComments id fetched =>
          obtain ⟨database, performed, rfl⟩ := answered
          by_cases same : id = taskId
          · subst same
            obtain error | value : Except PortError Unit := answer
            · exact sound.elsewhere rfl performed nofun
            · rcases performed with ⟨instant, performed⟩ | ⟨_, failed, _⟩
              · exact sound.relist owed (punctual _ (by simp [PortOp.listing])) performed
              · cases failed
          · exact sound.elsewhere rfl performed fun _ other => same other.symm
      | _ =>
          obtain ⟨database, performed, rfl⟩ := answered
          exact sound.aside rfl performed
  | provider request =>
      cases request with
      | createComment canonicalRepo remoteId body =>
          obtain ⟨comment, rfl, named, fresh, rfl⟩ := answered
          exact sound.post owed named fresh
      | fetchComments canonicalRepo remoteId =>
          obtain ⟨fetched, issued, rfl, grown, named, _, rfl⟩ := answered
          exact sound.issue grown named
      | _ =>
          obtain ⟨database, rfl, rfl⟩ := answered
          exact sound
  | freshTaskId =>
      obtain ⟨database, ⟨_, rfl⟩, rfl⟩ := answered
      exact sound
  | _ =>
      obtain ⟨database, rfl, rfl⟩ := answered
      exact sound

theorem comment_guarantee {op : PortOp} {answer : op.Answer}
    (owed : op.owes taskId clerk before)
    (answered : correspondence taskId clerk op before answer after) :
    before.issued ⊆ after.issued ∧
      (clerk ≠ .push → after.queue = before.queue ∧ after.outstanding = before.outstanding) := by
  have plainly : ∀ database, before.issued ⊆ ({ before with database } : Correspondence).issued ∧
      (clerk ≠ .push → ({ before with database } : Correspondence).queue = before.queue ∧
        ({ before with database } : Correspondence).outstanding = before.outstanding) :=
    fun _ => ⟨List.Subset.refl _, fun _ => ⟨rfl, rfl⟩⟩
  cases op with
  | store op =>
      cases op with
      | getTask id =>
          obtain ⟨_, rfl⟩ := answered
          split
          · split
            · exact ⟨List.Subset.refl _, fun unpushed => (unpushed rfl).elim⟩
            · exact plainly before.database
          · exact plainly before.database
      | addPendingComment id author body createdAt =>
          obtain ⟨database, _, rfl⟩ := answered
          obtain error | value : Except PortError Unit := answer
          · exact plainly database
          · dsimp only
            split
            · exact plainly database
            · exact plainly database
      | markCommentsPushed id drained pushed =>
          obtain ⟨instant, database, _, rfl⟩ := answered
          obtain error | value : Except PortError Unit := answer
          · exact plainly database
          · exact ⟨List.Subset.refl _, fun unpushed => (unpushed owed.1).elim⟩
      | _ =>
          obtain ⟨database, _, rfl⟩ := answered
          exact plainly database
  | provider request =>
      cases request with
      | createComment canonicalRepo remoteId body =>
          obtain ⟨comment, rfl, _, _, rfl⟩ := answered
          have grown : before.issued ⊆ before.issued ++ [comment.remoteId] :=
            List.subset_append_left _ _
          unfold Correspondence.post
          split
          · exact ⟨grown, fun unpushed => (unpushed rfl).elim⟩
          · exact ⟨grown, fun _ => ⟨rfl, rfl⟩⟩
      | fetchComments canonicalRepo remoteId =>
          obtain ⟨fetched, issued, rfl, grown, _, _, rfl⟩ := answered
          exact ⟨grown, fun _ => ⟨rfl, rfl⟩⟩
      | _ =>
          obtain ⟨database, _, rfl⟩ := answered
          exact plainly database
  | _ =>
      obtain ⟨database, _, rfl⟩ := answered
      exact plainly database

theorem mark_succeeds (sound : before.Sound taskId) {instant : Timestamp}
    {letter : CommentId × String} {rest : List (CommentId × String)} {comment : RemoteComment}
    {database : Database} {error : PortError} (next : before.queue = letter :: rest)
    (due : before.outstanding = some comment.remoteId) :
    (StoreOp.markCommentsPushed taskId [letter.1] [comment]).perform instant before.database ≠
      (.error error, database) := by
  obtain ⟨_, pending, unfiled⟩ := sound.room.outstanding_head next due
  change letter ∈ (before.database.commentsOf taskId).letters at pending
  change comment.remoteId ∉ (before.database.commentsOf taskId).mirrored at unfiled
  have stored : before.database.commentsOf taskId ≠ .empty := by
    intro none
    rw [none] at pending
    cases pending
  obtain ⟨changed, marked⟩ :=
    @CommentTable.markCommentsPushed_succeeds _ letter.1 comment unfiled
  intro performed
  have succeeded := StoreOp.changing_succeeds stored marked
  exact nomatch succeeded.symm.trans (congrArg Prod.fst performed)

end Steps

end RepoLink
