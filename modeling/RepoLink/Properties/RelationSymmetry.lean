import RepoLink.Ports.Handler
import RepoLink.Sync.EdgeCalls

/-!
Relation symmetry. Edits, relation verbs, drains and pulls interleave call by call over one
database; every edge stays stored at both of its ends as long as no save is made from a copy
whose relations have changed since it was loaded.
-/

namespace RepoLink

open Effects Program KeyedTable

def PortOp.undisturbed (seen : List Task) : PortOp → Database → Prop
  | .store op, database => Undisturbed seen op.writes database
  | _, _ => True

instance (seen : List Task) (op : PortOp) (database : Database) :
    Decidable (op.undisturbed seen database) :=
  match op with
  | .store op => inferInstanceAs (Decidable (Undisturbed seen op.writes database))
  | .now | .freshTaskId | .freshEntryId | .freshHash _ | .provider _ =>
    inferInstanceAs (Decidable True)

abbrev Remembered := Recorded Database Task

abbrev relationRules (admits : List Task → PortOp → Database → Prop) :
    Discipline ports Remembered Nat :=
  recordingRules loads portMeaning admits PairedCall Database.Symmetric

/-- The programs that run, each with fresh notes: any edit, relation verb, drain or pull. -/
inductive RelationStarts : Remembered → Proc ports Empty Nat → Prop
  | edit {world : Remembered} {pid : Nat} (fresh : world.notes pid = [])
      {program : Service ServiceError Task} (edit : TaskService.Edit program) :
      RelationStarts world ⟨pid, program.detached⟩
  | drain {world : Remembered} {pid : Nat} (fresh : world.notes pid = [])
      (backoff : BackoffSchedule) (rounds : Nat) :
      RelationStarts world ⟨pid, (OutboxDrainer.drainOnce backoff rounds).detached⟩
  | pull {world : Remembered} {pid : Nat} (fresh : world.notes pid = []) (id : TaskId)
      (forceAcceptRemote : Bool) :
      RelationStarts world ⟨pid, (SyncService.pullInner id forceAcceptRemote).detached⟩

theorem symmetric_step {seen : List Task} {op : PortOp} {before after : Database}
    {answer : op.Answer} (paired : PairedCall seen op) (symmetric : before.Symmetric)
    (undisturbed : op.undisturbed seen before) (performed : portMeaning op before answer after) :
    after.Symmetric := by
  rcases PortOp.relationsOf_meaning performed with ⟨instant, writes, entries, rfl, saved⟩ | same
  · exact symmetric.saved paired undisturbed saved
  · intro subject relation
    rw [same, same]
    exact symmetric subject relation

theorem loads_possible {op : PortOp} {before after : Database} {answer : op.Answer}
    (answered : portMeaning op before answer after) : loads.possible op answer := by
  cases op with
  | store op =>
      cases op with
      | getTask id =>
          cases answer with
          | error error => trivial
          | ok task =>
              rcases answered with ⟨instant, performed⟩ | ⟨_, failed, _⟩
              · exact Database.stored_id (Database.getTask_ok (congrArg Prod.fst performed))
              · cases failed
      | _ => trivial
  | _ => trivial

theorem relationStarts_recalls {world : Remembered} {proc : Proc ports Empty Nat}
    (begins : RelationStarts world proc) :
    proc.program.Recalls loads PairedCall (fun _ _ => True) (world.notes proc.kind) := by
  cases begins with
  | edit fresh edit => exact (edit.recalls _).detached
  | drain fresh backoff rounds => exact (drainOnce_recalls backoff rounds _).detached
  | pull fresh id force => exact (SyncService.pullInner_recalls id force _).detached

/-- In every undisturbed run every edge is stored at both of its ends. -/
theorem relations_symmetric {start : Remembered} {pool : Pool ports Remembered Empty Nat}
    (symmetric : start.state.Symmetric)
    (run : Pool.Run (relationRules PortOp.undisturbed) apart RelationStarts ⟨start, []⟩ pool) :
    pool.shared.state.Symmetric := by
  have possible : ∀ op before answer after, portMeaning op before answer after →
      loads.possible op answer := fun _ _ _ _ => loads_possible
  have step : ∀ seen op before answer after, PairedCall seen op → before.Symmetric →
      op.undisturbed seen before → portMeaning op before answer after → after.Symmetric :=
    fun _ _ _ _ _ => symmetric_step
  have starts : ∀ world proc, RelationStarts world proc →
      proc.program.Recalls loads PairedCall (fun _ _ => True) (world.notes proc.kind) :=
    fun _ _ => relationStarts_recalls
  exact (recorded_run possible step starts symmetric run).inv

def twoTasks : Database :=
  let created := after obligingProvider .epoch
    (TaskService.create { workspaceId := ⟨1⟩, repoId := some ⟨21⟩, title := "a" }) twoRepos
  after obligingProvider .epoch
    (TaskService.create { workspaceId := ⟨1⟩, repoId := some ⟨21⟩, title := "b" }) created

theorem twoTasks_symmetric : twoTasks.Symmetric := by
  have none : ∀ id, twoTasks.relationsOf id = [] := by
    intro id
    unfold Database.relationsOf
    cases found : twoTasks.record id with
    | none => rfl
    | some record =>
        have rows : ∀ record ∈ twoTasks.tasks.rows, record.relations = [] := by decide
        exact rows record (Table.find_mem found)
  intro subject relation
  simp [none]

def rememberingHandler (pid : Nat) : Handler ports (Scene × (Nat → List Task)) :=
  recordingHandler loads (portHandler obligingProvider ⟨1⟩) pid

def remembered (state : Scene × (Nat → List Task)) : Remembered := ⟨state.1.database, state.2⟩

theorem rememberingHandler_sound {admits : List Task → PortOp → Database → Prop} {pid : Nat}
    {op : PortOp} {state : Scene × (Nat → List Task)}
    (admitted : admits (state.2 pid) op state.1.database) :
    (relationRules admits).meaning pid op (remembered state) (rememberingHandler pid op state).1
      (remembered (rememberingHandler pid op state).2) :=
  ⟨admitted, portHandler_sound obligingProvider ⟨1⟩ op state.1, rfl⟩

abbrev retitleProc : Proc ports Empty Nat :=
  ⟨0, (TaskService.update { taskId := ⟨1⟩, title := some "c" }).detached⟩

abbrev relateProc : Proc ports Empty Nat :=
  ⟨1, (TaskService.addRelation ⟨1⟩ .blockedBy ⟨2⟩).detached⟩

def beforeReads : Scene × (Nat → List Task) := (⟨twoTasks, 0⟩, fun _ => [])

def retitling : Program ports Empty Unit × (Scene × (Nat → List Task)) :=
  retitleProc.program.advance (rememberingHandler 0) 2 beforeReads

def related : Program ports Empty Unit × (Scene × (Nat → List Task)) :=
  relateProc.program.advance (rememberingHandler 1) 5 retitling.2

/-- The retitling saves its copy of the first task: one half of the new edge is gone. -/
theorem stale_save_drops_half : ∃ pool, twoTasks.Symmetric ∧
    Pool.Run (relationRules fun _ _ _ => True) apart RelationStarts
      ⟨remembered beforeReads, []⟩ pool ∧ ¬pool.shared.state.Symmetric := by
  have reading : Pool.Run (relationRules fun _ _ _ => True) apart RelationStarts
      ⟨remembered beforeReads, []⟩ ⟨remembered retitling.2, [⟨0, retitling.1⟩]⟩ :=
    @Pool.run_started _ _ _ _ _ _ _ _ (fun _ _ => true) (rememberingHandler 0) remembered
      retitleProc [] beforeReads 2 (fun _ _ _ => rememberingHandler_sound trivial)
      (.edit rfl (.update _)) (fun _ member => (List.not_mem_nil member).elim) (by decide)
  have relating : Pool.Run (relationRules fun _ _ _ => True) apart RelationStarts
      ⟨remembered retitling.2, [⟨0, retitling.1⟩]⟩
      ⟨remembered related.2, [⟨1, related.1⟩, ⟨0, retitling.1⟩]⟩ := by
    refine @Pool.run_started _ _ _ _ _ _ _ _ (fun _ _ => true) (rememberingHandler 1) remembered
      relateProc _ retitling.2 5 (fun _ _ _ => rememberingHandler_sound trivial)
      (.edit rfl (.addRelation ..)) ?_ (by decide)
    intro other member
    rw [List.mem_singleton.mp member]
    exact ⟨Nat.one_ne_zero, Nat.zero_ne_one⟩
  obtain ⟨op, next, callEq, ended, _⟩ := @advance_succ _ _ _ _ (rememberingHandler 0) 0
    retitling.1 related.2 (show retitling.1.isCall = true by decide)
  change retitling.1 = .call op next at callEq
  have saves : Pool.Step (relationRules fun _ _ _ => True) apart RelationStarts
      ⟨remembered related.2, [⟨1, related.1⟩] ++ ⟨0, .call op next⟩ :: []⟩
      ⟨remembered (rememberingHandler 0 op related.2).2, [⟨1, related.1⟩] ++
        ⟨0, next (rememberingHandler 0 op related.2).1⟩ :: []⟩ :=
    .act (rememberingHandler_sound trivial)
  refine ⟨_, twoTasks_symmetric, (reading.trans relating).trans (.single (callEq ▸ saves)), ?_⟩
  intro symmetric
  have half : ⟨.blocks, ⟨1⟩⟩ ∈ (remembered (retitling.1.advance (rememberingHandler 0) 1
      related.2).2).state.relationsOf ⟨2⟩ := by decide
  have gone : ⟨.blockedBy, ⟨2⟩⟩ ∉ (remembered (retitling.1.advance (rememberingHandler 0) 1
      related.2).2).state.relationsOf ⟨1⟩ := by decide
  rw [ended] at half gone
  exact gone ((symmetric ⟨2⟩ ⟨.blocks, ⟨1⟩⟩).mp half)

theorem relations_symmetric_related : ∃ pool,
    Pool.Run (relationRules PortOp.undisturbed) apart RelationStarts
      ⟨remembered beforeReads, []⟩ pool ∧ pool.shared.state.Symmetric ∧
    ⟨.blockedBy, ⟨2⟩⟩ ∈ pool.shared.state.relationsOf ⟨1⟩ := by
  have run := @Pool.run_started _ _ _ _ (relationRules PortOp.undisturbed) apart RelationStarts _
    (fun op state => decide (op.undisturbed (state.2 1) state.1.database)) (rememberingHandler 1)
    remembered relateProc [] beforeReads 5
    (fun _ _ checked => rememberingHandler_sound (of_decide_eq_true checked))
    (.edit rfl (.addRelation ..)) (fun _ member => (List.not_mem_nil member).elim) (by decide)
  exact ⟨_, run, relations_symmetric twoTasks_symmetric run, by decide⟩

end RepoLink
