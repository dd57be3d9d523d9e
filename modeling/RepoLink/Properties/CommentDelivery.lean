import RepoLink.Ports.Handler
import RepoLink.Sync.CommentCalls
import RepoLink.Sync.Inbound
import RepoLink.TaskService.Calls

/-!
Comments are posted exactly once. Pushes one after the other, pulls and authors interleave call by
call over the comments of one task; nothing is posted twice or lost as long as no pull replaces
the comments by a listing that is older than a mark, or that already shows a comment that is
posted and not marked.
-/

namespace RepoLink

open Effects Program Post Relation

/-- The programs that run over one task, told only whether they succeed. -/
inductive CommentStarts (taskId : TaskId) : Correspondence → Proc ports Unit Clerk → Prop
  | push {world : Correspondence} (forceAcceptLocal : Bool) :
      CommentStarts taskId world ⟨.push, (SyncService.pushInner taskId forceAcceptLocal).concluded⟩
  | pull {world : Correspondence} (forceAcceptRemote : Bool) :
      CommentStarts taskId world ⟨.pull, (SyncService.pullInner taskId forceAcceptRemote).concluded⟩
  | addComment {world : Correspondence} (body author : String) :
      CommentStarts taskId world ⟨.author, (TaskService.addComment taskId body author).concluded⟩

def Concluded {ε α : Type} (clerk : Clerk) (result : Except ε α) (state : Correspondence) : Prop :=
  clerk = .push → state.outstanding = none ∧ (result.isOk = true → state.queue = [])

section Programs

variable {taskId : TaskId}

abbrev timelyRules (taskId : TaskId) : Discipline ports Correspondence Clerk :=
  commentRules taskId (PortOp.punctual taskId)

theorem timely_step {clerk : Clerk} {op : PortOp} {before after : Correspondence}
    {answer : op.Answer} (sound : before.Sound taskId) (owed : op.owes taskId clerk before)
    (answered : (timelyRules taskId).meaning clerk op before answer after) :
    after.Sound taskId ∧ (timelyRules taskId).guarantee clerk before after :=
  ⟨comment_step sound owed answered.1 answered.2, comment_guarantee owed answered.2⟩

def PortOp.plain : PortOp → Prop
  | .store (.replaceComments ..) | .store (.markCommentsPushed ..) => False
  | _ => True

theorem PortOp.plain_owes {op : PortOp} (plain : op.plain) {clerk : Clerk} (unpushed : clerk ≠ .push)
    (state : Correspondence) : op.owes taskId clerk state := by
  cases op with
  | store op =>
      cases op with
      | getTask id => exact fun pushes => (unpushed pushes).elim
      | replaceComments | markCommentsPushed => cases plain
      | _ => trivial
  | provider request =>
      cases request with
      | createComment canonicalRepo remoteId body => exact fun pushes => (unpushed pushes).elim
      | _ => trivial
  | _ => trivial

theorem PortOp.plain_ofQuiet {op : PortOp} (quiet : op.quiet) : op.plain := by
  cases op with
  | store op =>
      cases op with
      | replaceComments | markCommentsPushed => cases quiet
      | _ => trivial
  | _ => trivial

theorem plain_quietly {ε α : Type} {program : Service ε α} (quiet : program.Every PortOp.quiet) :
    program.Every PortOp.plain := quiet.mono fun _ => PortOp.plain_ofQuiet

theorem plain_safe {ε α : Type} {program : Service ε α} (plain : program.Every PortOp.plain)
    {clerk : Clerk} (unpushed : clerk ≠ .push) (world : Correspondence) :
    program.Safe (timelyRules taskId) clerk (fun _ _ => True) world := by
  refine Safe.ofEvery (fun op permitted before sound => ?_) (fun _ _ _ => trivial) plain world
  have owed := @PortOp.plain_owes taskId op permitted clerk unpushed before
  exact ⟨owed, fun answer after answered => timely_step sound owed answered⟩

theorem addComment_plain (taskId : TaskId) (body author : String) :
    (TaskService.addComment taskId body author).Every PortOp.plain := by
  unfold TaskService.addComment
  split
  · trivial
  · refine every_bind (every_query trivial) fun task => every_bind (every_clock trivial) fun now => ?_
    refine every_bind (@every_query _ _ _ (.addPendingComment ..) trivial) fun _ => ?_
    exact every_query trivial

theorem issued_grow {clerk : Clerk} {before after : Correspondence}
    (steps : ReflTransGen ((timelyRules taskId).rely clerk) before after) :
    before.issued ⊆ after.issued := by
  induction steps with
  | refl => exact List.Subset.refl _
  | tail _ last ih => exact List.Subset.trans ih last.1

theorem fetched_replaced {β : Type} (canonicalRepo remoteId : String) (id : TaskId)
    {rest : SyncService.Action β} (plain : rest.Every PortOp.plain) (world : Correspondence) :
    ((remote (.fetchComments canonicalRepo remoteId) : SyncService.Action (List RemoteComment)).bind
      fun comments => (query (.replaceComments id comments)).bind fun _ => rest).Safe
      (timelyRules taskId) .pull (fun _ _ => True) world := by
  intro asking _ sound
  have asks : (PortOp.provider (.fetchComments canonicalRepo remoteId)).owes taskId .pull asking :=
    trivial
  refine ⟨asks, fun answer fetched answered => ?_⟩
  obtain ⟨kept, guaranteed⟩ := timely_step sound asks answered
  obtain ⟨_, comments, issued, rfl, _, _, known, rfl⟩ := answered
  refine ⟨kept, guaranteed, fun replacing waited held => ?_⟩
  have owed : (PortOp.store (.replaceComments id comments)).owes taskId .pull replacing :=
    List.Subset.trans known (issued_grow waited)
  refine ⟨owed, fun answer replaced answered => ?_⟩
  obtain ⟨kept, guaranteed⟩ := timely_step held owed answered
  refine ⟨kept, guaranteed, ?_⟩
  obtain error | value : Except PortError Unit := answer
  · exact fun _ _ _ => trivial
  · exact plain_safe plain (by nofun) replaced

section Pull

open SyncService

theorem pullSnapshot_safe (forceAcceptRemote : Bool) (before : Task) (filingCanonical : String)
    (current : RemoteRef) (snap : RemoteTaskSnapshot) {world : Correspondence}
    (sound : world.Sound taskId) :
    (pullSnapshot forceAcceptRemote before filingCanonical current snap).Safe (timelyRules taskId)
      .pull (fun _ _ => True) world := by
  have plainly {α : Type} {program : Action α} (plain : program.Every PortOp.plain)
      (world : Correspondence) := @plain_safe taskId _ _ program plain .pull (by nofun) world
  refine Safe.followed sound (plainly (every_clock trivial) _) fun observedAt _ sound => ?_
  refine Safe.followed sound (plainly (@every_query _ _ _ (.cacheSyncedAt ..) trivial) _)
    fun _ _ sound => ?_
  refine Safe.followed sound (plainly ?_ _) fun pulled world _ => ?_
  · cases pullDecision forceAcceptRemote (withNodeId (nodeIdBackfill current snap) before) snap with
    | pullRemote =>
        refine every_bind (@every_query _ _ _ (.saveAll ..) trivial) fun _ => ?_
        refine every_bind (every_clock trivial) fun now => ?_
        refine every_bind (plain_quietly (settled_quiet _)) fun adopted => ?_
        exact every_bind (@every_query _ _ _ (.saveAll ..) trivial) fun _ => trivial
    | noop => trivial
    | pushLocal => trivial
  · refine fetched_replaced _ _ _ ?_ world
    refine every_bind ?_ fun _ => trivial
    cases nodeIdBackfill current snap with
    | none => trivial
    | some nodeId => exact @every_query _ _ _ (.cacheRemoteNodeId ..) trivial

theorem pullInner_safe (forceAcceptRemote : Bool) {world : Correspondence}
    (sound : world.Sound taskId) :
    (pullInner taskId forceAcceptRemote).Safe (timelyRules taskId) .pull (fun _ _ => True)
      world := by
  have quietly {α : Type} {program : Action α} (quiet : program.Every PortOp.quiet)
      (world : Correspondence) := @plain_safe taskId _ _ program (plain_quietly quiet) .pull
    (by nofun) world
  rw [pullInner_eq]
  refine Safe.followed sound (quietly (getTask_quiet taskId) _) fun before _ sound => ?_
  refine Safe.followed sound (quietly (ensureNotArchived_quiet before) _) fun _ _ sound => ?_
  refine Safe.followed sound (quietly (requiredFilingCanonical_quiet before) _) ?_
  intro filingCanonical world sound
  cases before.remote with
  | none => exact fun _ _ _ => trivial
  | some current =>
      refine Safe.followed sound (quietly (every_remote trivial) _) fun snap _ sound => ?_
      refine Safe.followed sound (pullSnapshot_safe _ _ _ _ _ sound) fun pulled world _ => ?_
      refine plain_safe ?_ (by nofun) world
      refine every_bind (every_bind ?_ fun reconciled => ?_) fun _ => trivial
      · exact plain_quietly (gatherInbound_quiet ..)
      · split
        · exact every_bind (@every_query _ _ _ (.saveAll ..) trivial) fun _ => trivial
        · trivial

end Pull

section Push

open SyncService

def Rests (letters : List (CommentId × String)) (state : Correspondence) : Prop :=
  state.queue = letters ∧ state.outstanding = none

def PortOp.aloof : PortOp → Prop
  | .store (.getTask _) | .store (.replaceComments ..) | .store (.markCommentsPushed ..)
  | .provider (.createComment ..) => False
  | _ => True

theorem PortOp.aloof_owes {op : PortOp} (aloof : op.aloof) (clerk : Clerk)
    (state : Correspondence) : op.owes taskId clerk state := by
  cases op with
  | store op =>
      cases op with
      | getTask | replaceComments | markCommentsPushed => cases aloof
      | _ => trivial
  | provider request =>
      cases request with
      | createComment => cases aloof
      | _ => trivial
  | _ => trivial

theorem PortOp.aloof_meaning {op : PortOp} (aloof : op.aloof) (clerk other : Clerk) :
    correspondence taskId clerk op = correspondence taskId other op := by
  cases op with
  | store op =>
      cases op with
      | getTask | replaceComments | markCommentsPushed => cases aloof
      | _ => rfl
  | provider request =>
      cases request with
      | createComment => cases aloof
      | _ => rfl
  | _ => rfl

theorem rests_stable {letters : List (CommentId × String)} {before after : Correspondence}
    (relied : (timelyRules taskId).rely .push before after) (rests : Rests letters before) :
    Rests letters after :=
  ⟨(relied.2 rfl).1.trans rests.1, (relied.2 rfl).2.trans rests.2⟩

theorem aloof_safe {α : Type} {program : Action α} (aloof : program.Every PortOp.aloof)
    {letters : List (CommentId × String)} {world : Correspondence} (rests : Rests letters world) :
    program.Safe (timelyRules taskId) .push (fun _ later => Rests letters later) world := by
  refine Safe.keeping (fun _ _ => rests_stable) (fun op permitted before sound held => ?_) aloof rests
  have owed := @PortOp.aloof_owes taskId op permitted .push before
  refine ⟨owed, fun answer after answered => ?_⟩
  obtain ⟨kept, guaranteed⟩ := timely_step sound owed answered
  have plainly := comment_guarantee (@PortOp.aloof_owes taskId op permitted .pull before)
    (PortOp.aloof_meaning permitted .push .pull ▸ answered.2)
  obtain ⟨queueEq, outstandingEq⟩ := plainly.2 (by nofun)
  exact ⟨kept, guaranteed, queueEq.trans held.1, outstandingEq.trans held.2⟩

theorem rests_later {letters : List (CommentId × String)} {before after : Correspondence}
    (steps : ReflTransGen ((timelyRules taskId).rely .push) before after)
    (rests : Rests letters before) : Rests letters after := by
  induction steps with
  | refl => exact rests
  | tail _ last ih => exact rests_stable last ih

theorem outstanding_later {before after : Correspondence}
    (steps : ReflTransGen ((timelyRules taskId).rely .push) before after) :
    after.queue = before.queue ∧ after.outstanding = before.outstanding := by
  induction steps with
  | refl => exact ⟨rfl, rfl⟩
  | tail _ last ih => exact ⟨(last.2 rfl).1.trans ih.1, (last.2 rfl).2.trans ih.2⟩

def lettersIn (comments : List TaskComment) : List (CommentId × String) :=
  comments.filterMap fun comment => comment.localId.map fun localId => (localId, comment.body)

theorem drainComment_safe {filingCanonical : String} {current : RemoteRef} {comment : TaskComment}
    {localId : CommentId} {letters : List (CommentId × String)} {world : Correspondence}
    (known : comment.localId = some localId)
    (rests : Rests ((localId, comment.body) :: letters) world) :
    (drainComment taskId filingCanonical current () comment).Safe (timelyRules taskId) .push
      (fun result later => result.isOk = true ∧ Rests letters later) world := by
  unfold drainComment
  rw [known]
  intro posting waited sound
  obtain ⟨queueEq, idle⟩ := rests_later waited rests
  have owed : (PortOp.provider (.createComment filingCanonical current.remoteId comment.body)).owes
      taskId .push posting := fun _ => ⟨idle, localId, letters, queueEq⟩
  refine ⟨owed, fun answer posted answered => ?_⟩
  obtain ⟨kept, guaranteed⟩ := timely_step sound owed answered
  obtain ⟨_, pushed, rfl, _, _, rfl⟩ := answered
  refine ⟨kept, guaranteed, fun marking waited sound => ?_⟩
  have due : marking.queue = (localId, comment.body) :: letters ∧
      marking.outstanding = some pushed.remoteId := by
    obtain ⟨sameQueue, sameDue⟩ := outstanding_later waited
    rw [sameQueue, sameDue]
    simp only [Correspondence.post, queueEq, and_self]
  have owed : (PortOp.store (.markCommentsPushed taskId [localId] [pushed])).owes taskId .push
      marking := ⟨rfl, rfl, _, _, _, due.1, due.2, rfl, rfl⟩
  refine ⟨owed, fun answer marked answered => ?_⟩
  obtain ⟨kept, guaranteed⟩ := timely_step sound owed answered
  refine ⟨kept, guaranteed, ?_⟩
  obtain ⟨_, instant, database, performed, rfl⟩ := answered
  obtain error | value : Except PortError Unit := answer
  · exact (mark_succeeds sound due.1 due.2 performed).elim
  · intro later waited _
    refine ⟨rfl, rests_later waited ⟨?_, rfl⟩⟩
    simp only [Correspondence.mark, due.1, List.tail_cons]

theorem drainComments_safe {filingCanonical : String} {current : RemoteRef} :
    ∀ (comments : List TaskComment) {world : Correspondence}, world.Sound taskId →
      Rests (lettersIn comments) world →
      (foldEach (drainComment taskId filingCanonical current) comments ()).Safe
        (timelyRules taskId) .push (Concluded .push) world := by
  intro comments
  induction comments with
  | nil =>
      intro world _ rests later waited _ _
      have ended := rests_later waited rests
      exact ⟨ended.2, fun _ => ended.1⟩
  | cons comment rest ih =>
      intro world sound rests
      unfold foldEach
      cases known : comment.localId with
      | none =>
          have skips : drainComment taskId filingCanonical current () comment = .done () := by
            unfold drainComment
            rw [known]
            rfl
          have skipped : lettersIn (comment :: rest) = lettersIn rest :=
            List.filterMap_cons_none (by rw [known]; rfl)
          rw [skips, done_bind]
          exact ih sound (skipped ▸ rests)
      | some localId =>
          have taken : lettersIn (comment :: rest) = (localId, comment.body) :: lettersIn rest :=
            List.filterMap_cons_some (by rw [known]; rfl)
          rw [taken] at rests
          refine Safe.bind sound ((drainComment_safe known rests).mono ?_)
          intro result later held ended
          cases result with
          | ok value => exact ih held ended.2
          | error error => cases ended.1

theorem drained_then {β : Type} (filingCanonical : String) (current : RemoteRef) (value : β)
    {task : Task} {world : Correspondence} (sound : world.Sound taskId)
    (rests : Rests (Correspondence.lettersOf task) world) :
    ((drainComments taskId filingCanonical current task).bind fun _ => (.done value : Action β)).Safe
      (timelyRules taskId) .push (Concluded .push) world := by
  refine Safe.bind sound ((drainComments_safe _ sound rests).mono fun result later held ended => ?_)
  obtain error | drained := result
  · intro last waited _ _
    obtain ⟨idle, _⟩ := ended rfl
    exact ⟨(outstanding_later waited).2.trans idle, by nofun⟩
  · intro last waited _ _
    obtain ⟨idle, done⟩ := ended rfl
    obtain ⟨queueEq, outstandingEq⟩ := outstanding_later waited
    exact ⟨outstandingEq.trans idle, fun _ => queueEq.trans (done rfl)⟩

theorem requiredFilingCanonical_aloof (task : Task) :
    (requiredFilingCanonical task).Every PortOp.aloof := by
  refine requiredFilingCanonical_every (fun op locates => ?_) task
  cases op with
  | getTask | replaceComments | markCommentsPushed => cases locates
  | _ => trivial

theorem pushSnapshot_aloof (task : Task) (patch : MirrorPatch) (filingCanonical : String)
    (current : RemoteRef) :
    (pushSnapshot task patch filingCanonical current).Every PortOp.aloof := by
  have sends : ∀ update, (sendPatch update).Every PortOp.aloof := by
    intro update
    cases update with
    | none => trivial
    | some update => exact every_bind (@every_remote _ _ _ (.updateRemote update) trivial) fun _ => trivial
  refine every_bind (sends _) fun _ => every_bind (every_clock trivial) fun now => ?_
  refine every_bind ?_ fun confirmed => ?_
  · cases (task.confirmSyncedFields now .push patch).attempt <;> trivial
  · exact every_bind (@every_query _ _ _ (.saveAll ..) trivial) fun _ => trivial

/-- A push that finds nothing posted and not marked leaves nothing behind. -/
theorem pushInner_safe (forceAcceptLocal : Bool) {world : Correspondence}
    (idle : world.outstanding = none) :
    (pushInner taskId forceAcceptLocal).Safe (timelyRules taskId) .push (Concluded .push) world := by
  intro loading waited sound
  have stillIdle : loading.outstanding = none := (outstanding_later waited).2.trans idle
  have owed : (PortOp.store (.getTask taskId)).owes taskId .push loading := fun _ => stillIdle
  refine ⟨owed, fun answer loaded answered => ?_⟩
  obtain ⟨kept, guaranteed⟩ := timely_step sound owed answered
  obtain ⟨_, _, loadedEq⟩ := answered
  refine ⟨kept, guaranteed, ?_⟩
  obtain error | task : Except PortError Task := answer
  · subst loadedEq
    exact fun later waited _ _ => ⟨(outstanding_later waited).2.trans stillIdle, by nofun⟩
  · have rests : Rests (Correspondence.lettersOf task) loaded := by
      rw [loadedEq]
      simp only [↓reduceIte]
      exact ⟨rfl, rfl⟩
    have stops : ∀ {letters : List (CommentId × String)} {error : SyncError} {world},
        Rests letters world → (Program.fail error : Action (Task × SyncDecision)).Safe
          (timelyRules taskId) .push (Concluded .push) world :=
      fun rests later waited _ _ => ⟨(rests_later waited rests).2, by nofun⟩
    change ((requiredFilingCanonical task).bind _).Safe (timelyRules taskId) .push (Concluded .push)
      loaded
    refine Safe.bind kept ((aloof_safe (requiredFilingCanonical_aloof task) rests).mono ?_)
    intro result world sound rests
    obtain error | filingCanonical := result
    · exact stops rests
    · dsimp only
      cases task.remote with
      | none => exact stops rests
      | some current =>
          dsimp only
          split
          · exact stops rests
          · split
            · refine Safe.bind sound ((aloof_safe (pushSnapshot_aloof ..) rests).mono ?_)
              intro result world sound rests
              obtain error | pushed := result
              · exact stops rests
              · exact drained_then _ _ _ sound rests
            · exact drained_then _ _ _ sound rests

end Push

end Programs

/-- Nothing posted yet; what is pending in the database counts as submitted. -/
def Correspondence.opening (taskId : TaskId) (database : Database) (issued : List String) :
    Correspondence where
  database
  submitted := (database.commentsOf taskId).letters
  taken := []
  queue := []
  outstanding := none
  sent := []
  issued

section Runs

variable {taskId : TaskId}

theorem opening_sound {database : Database} {issued : List String}
    (known : (database.commentsOf taskId).mirrored ⊆ issued) (named : "" ∉ issued) :
    (Correspondence.opening taskId database issued).Sound taskId := by
  refine ⟨?_, named, fun letter member => ?_⟩
  · exact {
      submittedOnce := CommentTable.letters_distinct _
      pendingOnce := CommentTable.letters_distinct _
      known := List.Subset.refl _
      queued := List.nil_subset _
      queuedOnce := .nil
      takenKnown := List.nil_subset _
      takenQueued := fun _ member => (List.not_mem_nil member).elim
      filedOnce := (database.commentsOf taskId).unique
      filedIssued := known
      sentOnce := .nil
      receiptsOnce := .nil
      sentIssued := fun _ _ member => (List.not_mem_nil member).elim
      settled := fun _ _ member => (List.not_mem_nil member).elim
      kept := fun _ member => .inl member
      due := fun _ same => nomatch same }
  · obtain ⟨row, rowMember, rfl⟩ := List.mem_map.mp member
    exact (database.commentsOf taskId).known row (List.mem_filter.mp rowMember).1

def StartsIdle (taskId : TaskId) (world : Correspondence) (proc : Proc ports Unit Clerk) : Prop :=
  CommentStarts taskId world proc ∧ (proc.kind = .push → world.outstanding = none)

theorem startsIdle_safe {world : Correspondence} {proc : Proc ports Unit Clerk}
    (sound : world.Sound taskId) (starts : StartsIdle taskId world proc) :
    proc.program.Safe (timelyRules taskId) proc.kind (Concluded proc.kind) world := by
  obtain ⟨begins, idle⟩ := starts
  have unowed : ∀ {clerk : Clerk} {result : Except Unit Unit} {later : Correspondence},
      clerk ≠ .push → Concluded clerk result later :=
    fun unpushed pushes => (unpushed pushes).elim
  cases begins with
  | push forceAcceptLocal =>
      refine Safe.concluded ((pushInner_safe forceAcceptLocal (idle rfl)).mono ?_)
      intro result later _ concluded
      cases result with
      | ok value => exact fun _ => ⟨(concluded rfl).1, fun _ => (concluded rfl).2 rfl⟩
      | error error => exact fun _ => ⟨(concluded rfl).1, by nofun⟩
  | pull forceAcceptRemote =>
      refine Safe.concluded ((pullInner_safe forceAcceptRemote sound).mono ?_)
      intro result later _ _
      cases result <;> exact unowed (by nofun)
  | addComment body author =>
      refine Safe.concluded ((plain_safe (addComment_plain ..) (by nofun) world).mono ?_)
      intro result later _ _
      cases result <;> exact unowed (by nofun)

theorem relied_guaranteed {actor other : Clerk} (beside : onePush actor other)
    {before after : Correspondence} (guaranteed : (timelyRules taskId).guarantee actor before after) :
    (timelyRules taskId).rely other before after := by
  refine ⟨guaranteed.1, fun pushes => guaranteed.2 ?_⟩
  exact beside.resolve_right fun different => different pushes

structure Attended (taskId : TaskId) (pool : Pool ports Correspondence Unit Clerk) : Prop where
  sound : pool.SoundTo (timelyRules taskId) onePush Concluded
  idle : (∀ proc ∈ pool.procs, proc.kind ≠ .push) → pool.shared.outstanding = none

theorem Attended.step {pool next : Pool ports Correspondence Unit Clerk}
    (attended : Attended taskId pool)
    (step : Pool.Step (timelyRules taskId) onePush (CommentStarts taskId) pool next) :
    Attended taskId next := by
  have compatible : ∀ actor other, onePush actor other → ∀ before after,
      (timelyRules taskId).inv before → (timelyRules taskId).inv after →
      (timelyRules taskId).guarantee actor before after →
      (timelyRules taskId).rely other before after :=
    fun _ _ beside _ _ _ _ guaranteed => relied_guaranteed beside guaranteed
  have goesOn := @Pool.SoundTo.step _ _ _ _ (timelyRules taskId) onePush (StartsIdle taskId)
    Concluded compatible (fun _ _ => startsIdle_safe) pool next attended.sound
  cases step with
  | @act front back kind op continuation before after answer answered =>
      refine ⟨goesOn (.act answered), fun unpushed => ?_⟩
      have other : kind ≠ .push := unpushed ⟨kind, continuation answer⟩ (by simp)
      have idle : before.outstanding = none := by
        refine attended.idle fun proc member => ?_
        rcases List.mem_append.mp member with inFront | inBack
        · exact unpushed proc (List.mem_append_left _ inFront)
        · rcases List.mem_cons.mp inBack with rfl | inBack
          · exact other
          · exact unpushed proc (List.mem_append_right _ (List.mem_cons_of_mem _ inBack))
      have guaranteed := attended.sound.guaranteed
        (List.mem_append_right front List.mem_cons_self) answered
      exact (guaranteed.2 other).2.trans idle
  | @start procs proc shared begins beside =>
      have idle : proc.kind = .push → shared.outstanding = none := by
        intro pushes
        refine attended.idle fun other member otherPushes => ?_
        rcases (beside other member).1 with different | different
        · exact different pushes
        · exact different otherPushes
      refine ⟨goesOn (.start ⟨begins, idle⟩ beside), fun unpushed => ?_⟩
      exact attended.idle fun other member => unpushed other (List.mem_cons_of_mem _ member)
  | @stop front back proc shared stops =>
      refine ⟨goesOn (.stop stops), fun unpushed => ?_⟩
      by_cases pushes : proc.kind = .push
      · have member : proc ∈ front ++ proc :: back := List.mem_append_right _ List.mem_cons_self
        obtain ⟨kind, program⟩ := proc
        cases program with
        | done value => exact (attended.sound.finished member pushes).1
        | fail error => exact (attended.sound.failed member pushes).1
        | call op continuation =>
            rcases stops with crash | ended
            · exact crash.elim
            · cases ended
      · refine attended.idle fun other member => ?_
        rcases List.mem_append.mp member with inFront | inBack
        · exact unpushed other (List.mem_append_left _ inFront)
        · rcases List.mem_cons.mp inBack with rfl | inBack
          · exact pushes
          · exact unpushed other (List.mem_append_right _ inBack)

end Runs

/-- In every timely run no comment is posted twice, and each is pending or has one row with the
remote id it was given; only a running push can have posted a comment without having marked it,
and a push that succeeds has delivered every comment that it took up. -/
theorem comments_delivered_once {taskId : TaskId} {start : Database} {issued : List String}
    (known : (start.commentsOf taskId).mirrored ⊆ issued) (named : "" ∉ issued)
    {pool : Pool ports Correspondence Unit Clerk}
    (run : Pool.Run (timelyRules taskId) onePush (CommentStarts taskId)
      ⟨.opening taskId start issued, []⟩ pool) :
    (pool.shared.room taskId).ExactlyOnce ∧
      ((∀ proc ∈ pool.procs, proc.kind ≠ .push) → pool.shared.outstanding = none) ∧
      (⟨.push, .done ()⟩ ∈ pool.procs →
        ∀ letter ∈ pool.shared.taken, (pool.shared.room taskId).Delivered letter) := by
  have first : Attended taskId ⟨.opening taskId start issued, []⟩ :=
    ⟨⟨opening_sound known named, fun _ member => (List.not_mem_nil member).elim, .nil⟩, fun _ => rfl⟩
  have attended : Attended taskId pool := by
    induction run with
    | refl => exact first
    | tail _ step ih => exact ih.step step
  have exactly := attended.sound.inv.room.exactlyOnce
  refine ⟨exactly, attended.idle, fun member => exactly.completed ?_⟩
  exact (attended.sound.finished member rfl).2 rfl

structure Desk where
  state : Correspondence
  comments : List RemoteComment

def nextReceipt (issued : List String) : String :=
  String.ofList (List.replicate ((issued.map String.length).foldr max 0 + 1) 'c')

theorem nextReceipt_longer (issued : List String) :
    ∀ receipt ∈ issued, receipt.length < (nextReceipt issued).length := by
  intro receipt member
  rw [nextReceipt, String.length_ofList, List.length_replicate, Nat.lt_succ_iff]
  exact KeyedTable.le_foldr_max _ _ (List.mem_map_of_mem member)

def Desk.orderly (desk : Desk) : Bool :=
  decide ("" ∉ desk.state.issued) &&
    decide (desk.comments.map RemoteComment.remoteId ⊆ desk.state.issued)

def deskHandler (provider : Provider) (clerk : Clerk) : Handler ports Desk
  | .store (.getTask id), desk =>
    let answer := (StoreOp.getTask id).perform .epoch desk.state.database |>.1
    (answer, { desk with state := match clerk, answer with
      | .push, .ok task => if id = ⟨1⟩ then desk.state.load task else desk.state
      | _, _ => desk.state })
  | .store (.addPendingComment id author body createdAt), desk =>
    let (answer, database) :=
      (StoreOp.addPendingComment id author body createdAt).perform .epoch desk.state.database
    (answer, { desk with state := match answer with
      | .ok _ =>
        if id = ⟨1⟩ then { desk.state with database }.submit
          (⟨(desk.state.database.commentsOf ⟨1⟩).minted⟩, body)
        else { desk.state with database }
      | .error _ => { desk.state with database } })
  | .store (.markCommentsPushed id drained pushed), desk =>
    let (answer, database) :=
      (StoreOp.markCommentsPushed id drained pushed).perform .epoch desk.state.database
    (answer, { desk with state := match answer with
      | .ok _ => { desk.state with database }.mark
      | .error _ => { desk.state with database } })
  | .provider (.createComment _ _ body), desk =>
    let comment : RemoteComment := ⟨nextReceipt desk.state.issued, "me", body, .epoch⟩
    (.ok comment, ⟨desk.state.post clerk body comment.remoteId, desk.comments ++ [comment]⟩)
  | .provider (.fetchComments ..), desk => (.ok desk.comments, desk)
  | op, desk =>
    let (answer, scene) := portHandler provider .epoch op ⟨desk.state.database, 0⟩
    (answer, { desk with state := { desk.state with database := scene.database } })

theorem deskHandler_sound (provider : Provider) {clerk : Clerk} {op : PortOp} {desk : Desk}
    {admits : PortOp → Correspondence → Prop} (admitted : admits op desk.state)
    (orderly : desk.orderly = true) :
    (commentRules ⟨1⟩ admits).meaning clerk op desk.state (deskHandler provider clerk op desk).1
      (deskHandler provider clerk op desk).2.state := by
  refine ⟨admitted, ?_⟩
  obtain ⟨named, listed⟩ := Bool.and_eq_true_iff.mp orderly
  cases op with
  | store op =>
      cases op with
      | getTask id => exact ⟨.inl ⟨.epoch, rfl⟩, rfl⟩
      | addPendingComment id author body createdAt => exact ⟨_, .inl ⟨.epoch, rfl⟩, rfl⟩
      | markCommentsPushed id drained pushed => exact ⟨.epoch, _, rfl, rfl⟩
      | _ => exact ⟨_, portHandler_sound provider .epoch _ ⟨desk.state.database, 0⟩, rfl⟩
  | provider request =>
      cases request with
      | createComment canonicalRepo remoteId body =>
          have longer := nextReceipt_longer desk.state.issued
          refine ⟨_, rfl, ?_, fun given => Nat.lt_irrefl _ (longer _ given), rfl⟩
          intro empty
          have length : (nextReceipt desk.state.issued).length = 0 := congrArg String.length empty
          rw [nextReceipt, String.length_ofList, List.length_replicate] at length
          cases length
      | fetchComments canonicalRepo remoteId =>
          exact ⟨_, _, rfl, List.Subset.refl _, of_decide_eq_true named, of_decide_eq_true listed, rfl⟩
      | _ => exact ⟨_, portHandler_sound provider .epoch _ ⟨desk.state.database, 0⟩, rfl⟩
  | _ => exact ⟨_, portHandler_sound provider .epoch _ ⟨desk.state.database, 0⟩, rfl⟩

def steadyProvider : Provider
  | .fetchRemote _ remoteId => .ok ⟨remoteId, none, "t", "", false, .epoch, [], []⟩
  | .fetchSubIssues .. | .fetchBlockedBy .. | .fetchParent .. => .ok []
  | op => obligingProvider op

def commented : Desk where
  state := .opening ⟨1⟩
    (after steadyProvider .epoch (TaskService.addComment ⟨1⟩ "hello" "me")
      (after steadyProvider .epoch (SyncService.promote ⟨1⟩)
        (after steadyProvider .epoch
          (TaskService.create { workspaceId := ⟨1⟩, repoId := some ⟨21⟩, title := "t" }) twoRepos))) []
  comments := []

abbrev pushingProc : Proc ports Unit Clerk := ⟨.push, (SyncService.pushInner ⟨1⟩ false).concluded⟩

abbrev pullingProc : Proc ports Unit Clerk := ⟨.pull, (SyncService.pullInner ⟨1⟩ false).concluded⟩

def posted : Program ports Unit Unit × Desk :=
  pushingProc.program.advance (deskHandler steadyProvider .push) 5 commented

def pulledBetween : Program ports Unit Unit × Desk :=
  pullingProc.program.advance (deskHandler steadyProvider .pull) 20 posted.2

def markFailed : Program ports Unit Unit × Desk :=
  posted.1.advance (deskHandler steadyProvider .push) 5 pulledBetween.2

def postedAgain : Program ports Unit Unit × Desk :=
  pushingProc.program.advance (deskHandler steadyProvider .push) 5 markFailed.2

/-- The same comment is posted twice. -/
theorem comment_posted_twice : ∃ pool : Pool ports Correspondence Unit Clerk,
    Pool.Run (commentRules ⟨1⟩ fun _ _ => True) onePush (CommentStarts ⟨1⟩)
      ⟨commented.state, []⟩ pool ∧
    pool.shared.sent.map Prod.fst = [(⟨0⟩, "hello"), (⟨0⟩, "hello")] ∧
    ¬(pool.shared.room ⟨1⟩).ExactlyOnce := by
  have sound : ∀ clerk op (desk : Desk), desk.orderly = true →
      (commentRules ⟨1⟩ fun _ _ => True).meaning clerk op desk.state
        (deskHandler steadyProvider clerk op desk).1
        (deskHandler steadyProvider clerk op desk).2.state :=
    fun _ _ _ orderly => deskHandler_sound steadyProvider trivial orderly
  have posting : Pool.Run (commentRules ⟨1⟩ fun _ _ => True) onePush (CommentStarts ⟨1⟩)
      ⟨commented.state, []⟩ ⟨posted.2.state, [⟨.push, posted.1⟩]⟩ :=
    @Pool.run_started _ _ _ _ _ _ _ _ (fun _ => Desk.orderly) (deskHandler steadyProvider .push)
      Desk.state pushingProc [] commented 5 (sound .push) (.push false)
      (fun _ member => (List.not_mem_nil member).elim) (by decide)
  have pulling : Pool.Run (commentRules ⟨1⟩ fun _ _ => True) onePush (CommentStarts ⟨1⟩)
      ⟨posted.2.state, [⟨.push, posted.1⟩]⟩
      ⟨pulledBetween.2.state, [⟨.pull, pulledBetween.1⟩, ⟨.push, posted.1⟩]⟩ := by
    refine @Pool.run_started _ _ _ _ _ _ _ _ (fun _ => Desk.orderly)
      (deskHandler steadyProvider .pull) Desk.state pullingProc _ posted.2 20 (sound .pull)
      (.pull false) ?_ (by decide)
    intro other member
    rw [List.mem_singleton.mp member]
    exact ⟨.inl (by nofun), .inr (by nofun)⟩
  have marking : Pool.Run (commentRules ⟨1⟩ fun _ _ => True) onePush (CommentStarts ⟨1⟩)
      ⟨pulledBetween.2.state, [⟨.pull, pulledBetween.1⟩, ⟨.push, posted.1⟩]⟩
      ⟨markFailed.2.state, [⟨.pull, pulledBetween.1⟩, ⟨.push, markFailed.1⟩]⟩ :=
    @Pool.run_advances _ _ _ _ _ _ _ _ (fun _ => Desk.orderly) (deskHandler steadyProvider .push)
      Desk.state Clerk.push [⟨.pull, pulledBetween.1⟩] [] (sound .push) 5 posted.1 pulledBetween.2
      (by decide)
  have ends : Pool.Run (commentRules ⟨1⟩ fun _ _ => True) onePush (CommentStarts ⟨1⟩)
      ⟨markFailed.2.state, [⟨.pull, pulledBetween.1⟩, ⟨.push, markFailed.1⟩]⟩
      ⟨markFailed.2.state, [⟨.pull, pulledBetween.1⟩]⟩ :=
    .single (@Pool.Step.stop _ _ _ _ _ _ _ [⟨Clerk.pull, pulledBetween.1⟩] []
      ⟨Clerk.push, markFailed.1⟩ _ (.inr (by decide)))
  have again : Pool.Run (commentRules ⟨1⟩ fun _ _ => True) onePush (CommentStarts ⟨1⟩)
      ⟨markFailed.2.state, [⟨.pull, pulledBetween.1⟩]⟩
      ⟨postedAgain.2.state, [⟨.push, postedAgain.1⟩, ⟨.pull, pulledBetween.1⟩]⟩ := by
    refine @Pool.run_started _ _ _ _ _ _ _ _ (fun _ => Desk.orderly)
      (deskHandler steadyProvider .push) Desk.state pushingProc _ markFailed.2 5 (sound .push)
      (.push false) ?_ (by decide)
    intro other member
    rw [List.mem_singleton.mp member]
    exact ⟨.inr (by nofun), .inl (by nofun)⟩
  refine ⟨_, (((posting.trans pulling).trans marking).trans ends).trans again, by decide, ?_⟩
  exact fun exactly => absurd exactly.sentOnce (by decide)

def pulledFirst : Program ports Unit Unit × Desk :=
  pullingProc.program.advance (deskHandler steadyProvider .pull) 20 commented

def pushedThen : Program ports Unit Unit × Desk :=
  pushingProc.program.advance (deskHandler steadyProvider .push) 20 pulledFirst.2

theorem comments_delivered_once_pushed : ∃ pool : Pool ports Correspondence Unit Clerk,
    Pool.Run (timelyRules ⟨1⟩) onePush (CommentStarts ⟨1⟩) ⟨commented.state, []⟩ pool ∧
    (pool.shared.room ⟨1⟩).ExactlyOnce ∧
    (pool.shared.room ⟨1⟩).Delivered (⟨0⟩, "hello") := by
  let timely (op : PortOp) (desk : Desk) : Bool :=
    decide (op.punctual ⟨1⟩ desk.state) && desk.orderly
  have sound : ∀ clerk op (desk : Desk), timely op desk = true →
      (timelyRules ⟨1⟩).meaning clerk op desk.state (deskHandler steadyProvider clerk op desk).1
        (deskHandler steadyProvider clerk op desk).2.state := by
    intro clerk op desk checked
    obtain ⟨punctual, orderly⟩ := Bool.and_eq_true_iff.mp checked
    exact deskHandler_sound steadyProvider (of_decide_eq_true punctual) orderly
  have pulling : Pool.Run (timelyRules ⟨1⟩) onePush (CommentStarts ⟨1⟩) ⟨commented.state, []⟩
      ⟨pulledFirst.2.state, [⟨.pull, pulledFirst.1⟩]⟩ :=
    @Pool.run_started _ _ _ _ _ _ _ _ timely (deskHandler steadyProvider .pull) Desk.state
      pullingProc [] commented 20 (sound .pull) (.pull false)
      (fun _ member => (List.not_mem_nil member).elim) (by decide)
  have pushing : Pool.Run (timelyRules ⟨1⟩) onePush (CommentStarts ⟨1⟩)
      ⟨pulledFirst.2.state, [⟨.pull, pulledFirst.1⟩]⟩
      ⟨pushedThen.2.state, [⟨.push, pushedThen.1⟩, ⟨.pull, pulledFirst.1⟩]⟩ := by
    refine @Pool.run_started _ _ _ _ _ _ _ _ timely (deskHandler steadyProvider .push) Desk.state
      pushingProc _ pulledFirst.2 20 (sound .push) (.push false) ?_ (by decide)
    intro other member
    rw [List.mem_singleton.mp member]
    exact ⟨.inr (by nofun), .inl (by nofun)⟩
  have run := pulling.trans pushing
  have finished : pushedThen.1 = .done () := rfl
  obtain ⟨exactly, _, delivered⟩ := comments_delivered_once (by decide) (by decide) run
  exact ⟨_, run, exactly, delivered (finished ▸ List.mem_cons_self) _ (by decide)⟩

end RepoLink
