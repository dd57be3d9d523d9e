import RepoLink.RepoBindings.Soundness

/-!
The repo bindings stay sound whatever commands run at once. Between two statements of a command the
others may do anything; what a command has read of an origin stays true of its URL, and each row
that it writes is well-formed by itself.
-/

namespace RepoLink

open Effects Program KeyedTable

namespace RepoBindings

variable {uuids : UuidFormat} {α : Type}

def growth (uuids : UuidFormat) : Growth bindingPorts BindingStore where
  meaning := failingMeaning
  inv := BindingStore.Sound uuids
  grows := BindingStore.Grows
  refl := BindingStore.Grows.refl
  trans := BindingStore.Grows.trans

section Calls

theorem perform_error {statement : BindingQuery} {present : String → Bool}
    {before after : BindingStore} {error : PortError}
    (failed : (.error error, after) = statement.perform present before) : after = before := by
  cases statement with
  | saveOrigin origin =>
      simp only [BindingQuery.perform, BindingQuery.commits] at failed
      split at failed
      · cases failed
      · exact (Prod.mk.inj failed).2
  | saveInstance row =>
      simp only [BindingQuery.perform, BindingQuery.commits] at failed
      split at failed
      · cases failed
      · exact (Prod.mk.inj failed).2
  | delete id => cases failed
  | _ => exact (Prod.mk.inj failed).2

theorem keeps_tryQuery {statement : BindingQuery} {next : Except PortError statement.Answer → Action α}
    {post : α → BindingStore → Prop} {state : BindingStore}
    (succeeds : ∀ present before, state.Grows before → before.Sound uuids → ∀ value after,
      (.ok value, after) = statement.perform present before →
      after.Sound uuids ∧ before.Grows after ∧ (next (.ok value)).Keeps (growth uuids) post after)
    (fails : ∀ before, state.Grows before → before.Sound uuids → ∀ error,
      (next (.error error)).Keeps (growth uuids) post before) :
    ((tryQuery statement).bind next).Keeps (growth uuids) post state := by
  refine keeps_call fun before grown sound answer after answered => ?_
  rcases answered with ⟨present, performed⟩ | ⟨⟨error, rfl⟩, rfl⟩
  · cases answer with
    | ok value => exact succeeds present before grown sound value after performed
    | error error =>
        have same := perform_error performed
        subst same
        exact ⟨sound, BindingStore.Grows.refl _, fails _ grown sound error⟩
  · exact ⟨sound, BindingStore.Grows.refl _, fails _ grown sound error⟩

theorem keeps_require {statement : BindingQuery} {post : statement.Answer → BindingStore → Prop}
    {state : BindingStore}
    (succeeds : ∀ present before, state.Grows before → before.Sound uuids → ∀ value after,
      (.ok value, after) = statement.perform present before →
      after.Sound uuids ∧ before.Grows after ∧ ∀ later, after.Grows later → post value later) :
    (require statement).Keeps (growth uuids) post state := by
  refine keeps_tryQuery (fun present before grown sound value after performed => ?_)
    fun before _ _ error => keeps_fail
  obtain ⟨kept, more, held⟩ := succeeds present before grown sound value after performed
  exact ⟨kept, more, keeps_done fun later grown _ => held later grown⟩

theorem keeps_read {statement : BindingQuery} {post : statement.Answer → BindingStore → Prop}
    {state : BindingStore}
    (still : ∀ present before, (statement.perform present before).2 = before)
    (told : ∀ present before value, before.Sound uuids →
      (statement.perform present before).1 = .ok value → ∀ later, before.Grows later →
      post value later) :
    (require statement).Keeps (growth uuids) post state := by
  refine keeps_require fun present before _ sound value after performed => ?_
  have parts := Prod.mk.inj performed
  have same : after = before := parts.2.trans (still present before)
  subst same
  exact ⟨sound, BindingStore.Grows.refl _,
    fun later grown => told present after value sound parts.1.symm later grown⟩

theorem keeps_now {state : BindingStore} :
    (plain .now).Keeps (growth uuids) (fun _ _ => True) state := by
  refine keeps_call fun before _ sound now after answered => ?_
  have same : after = before := answered
  subst same
  exact ⟨sound, BindingStore.Grows.refl _, keeps_done fun _ _ _ => trivial⟩

theorem keeps_newOriginId {url : String} {state : BindingStore} :
    (plain (.newOriginId url)).Keeps (growth uuids) (fun id later => later.Homed id url) state := by
  refine keeps_call fun before _ sound id after answered => ?_
  obtain ⟨fresh, rfl⟩ : id ∉ before.originIds.map Prod.fst ∧
    after = { before with originIds := (id, url) :: before.originIds } := answered
  obtain ⟨kept, grows, homed⟩ := BindingStore.newOriginId_sound sound url fresh
  exact ⟨kept, grows, keeps_done fun later grown _ => grown.homed id url homed⟩

theorem keeps_newInstanceId {state : BindingStore} :
    (plain .newInstanceId).Keeps (growth uuids) (fun _ _ => True) state := by
  refine keeps_call fun before _ sound id after answered => ?_
  obtain ⟨_, rfl⟩ : id ∉ before.instanceIds ∧
    after = { before with instanceIds := id :: before.instanceIds } := answered
  exact ⟨⟨sound.wellFormed, sound.homed, sound.once, sound.bound⟩,
    ⟨fun _ _ held => held, fun _ _ held => held⟩, keeps_done fun _ _ _ => trivial⟩

theorem keeps_checked {result : Except DomainError α} {post : α → BindingStore → Prop}
    {state : BindingStore} (held : ∀ value, result = .ok value → ∀ later, state.Grows later →
      post value later) : (checked result).Keeps (growth uuids) post state := by
  refine keeps_ofExcept fun value same later grown _ => held value ?_ later grown
  cases result with
  | error error => cases same
  | ok other =>
      cases same
      rfl

end Calls

def Held (uuids : UuidFormat) (origin : OriginRow) (store : BindingStore) : Prop :=
  origin.WellFormed uuids ∧ store.Homed origin.id origin.canonicalUrl

def Seen (uuids : UuidFormat) (view : BoundRepo) (store : BindingStore) : Prop :=
  Held uuids view.origin store ∧
    store.Keeps view.checkout.originId view.checkout.canonicalUrl

theorem Held.grow {origin : OriginRow} {before after : BindingStore} (held : Held uuids origin before)
    (grown : before.Grows after) : Held uuids origin after :=
  ⟨held.1, grown.homed _ _ held.2⟩

theorem Seen.grow {view : BoundRepo} {before after : BindingStore} (seen : Seen uuids view before)
    (grown : before.Grows after) : Seen uuids view after :=
  ⟨seen.1.grow grown, grown.keeps _ _ seen.2⟩

section Reads

variable {store : BindingStore} {state : BindingStore}

theorem held_of_mem {origin : OriginRow} (sound : store.Sound uuids)
    (member : origin ∈ store.origins.table.rows) : Held uuids origin store :=
  ⟨sound.wellFormed origin member, sound.homed origin member⟩

theorem seen_of_view {row : InstanceRow} {view : BoundRepo} (sound : store.Sound uuids)
    (member : row ∈ store.instances.table.rows) (joined : store.view row = some view) :
    Seen uuids view store := by
  obtain ⟨origin, found, rfl⟩ := Option.map_eq_some_iff.mp joined
  exact ⟨held_of_mem sound (Table.find_mem found), sound.bound row member⟩

theorem keeps_findByCanonicalUrl (workspaceId : WorkspaceId) (url : String) :
    (require (.findByCanonicalUrl workspaceId url)).Keeps (growth uuids)
      (fun found later => ∀ view, found = some view →
        Seen uuids view later ∧ view.checkout.canonicalUrl = url) state := by
  refine keeps_read (fun _ _ => rfl) fun _ before found sound told later grown view same => ?_
  have foundEq : before.bound workspaceId url = some view := (Except.ok.inj told).trans same
  obtain ⟨row, rowFound, joined⟩ := Option.bind_eq_some_iff.mp foundEq
  have member := List.mem_of_find?_eq_some rowFound
  have columns := List.find?_some rowFound
  simp only [Bool.and_eq_true, decide_eq_true_eq] at columns
  refine ⟨(seen_of_view sound member joined).grow grown, ?_⟩
  obtain ⟨origin, _, rfl⟩ := Option.map_eq_some_iff.mp joined
  exact columns.2

theorem keeps_listByWorkspace (id : WorkspaceId) :
    (require (.listByWorkspace id)).Keeps (growth uuids)
      (fun views later => ∀ view ∈ views, Seen uuids view later) state := by
  refine keeps_read (fun _ _ => rfl) fun _ before views sound told later grown view member => ?_
  have viewsEq : before.boundIn id = views := Except.ok.inj told
  rw [← viewsEq] at member
  obtain ⟨row, kept, joined⟩ := List.mem_filterMap.mp member
  exact (seen_of_view sound (List.mem_filter.mp kept).1 joined).grow grown

theorem keeps_getInstance (id : RepoId) :
    (require (.getInstance id)).Keeps (growth uuids) (fun view later => Seen uuids view later)
      state := by
  refine keeps_read (fun _ _ => rfl) fun _ before view sound told later grown => ?_
  cases found : (before.instances.table.find id).bind before.view with
  | none =>
      simp only [BindingQuery.perform, found, Option.elim_none] at told
      cases told
  | some other =>
      simp only [BindingQuery.perform, found, Option.elim_some, Except.ok.injEq] at told
      subst told
      obtain ⟨row, rowFound, joined⟩ := Option.bind_eq_some_iff.mp found
      exact (seen_of_view sound (Table.find_mem rowFound) joined).grow grown

end Reads

section Writes

variable {state : BindingStore}

theorem perform_saveOrigin {origin : OriginRow} {present : String → Bool} {value : Unit}
    {before after : BindingStore}
    (performed : (.ok value, after) = (BindingQuery.saveOrigin origin).perform present before) :
    before.saveOrigin origin = .ok after := by
  simp only [BindingQuery.perform, BindingQuery.commits] at performed
  split at performed
  · rename_i saved result
    rw [result, (Prod.mk.inj performed).2]
  · cases performed

theorem perform_saveInstance {row : InstanceRow} {present : String → Bool} {value : Unit}
    {before after : BindingStore}
    (performed : (.ok value, after) = (BindingQuery.saveInstance row).perform present before) :
    before.saveInstance row = .ok after := by
  simp only [BindingQuery.perform, BindingQuery.commits] at performed
  split at performed
  · rename_i saved result
    rw [result, (Prod.mk.inj performed).2]
  · cases performed

theorem keeps_trySaveOrigin {origin : OriginRow} {next : Except PortError Unit → Action α}
    {post : α → BindingStore → Prop} (held : Held uuids origin state)
    (succeeds : ∀ after, state.Grows after → after.Keeps origin.id origin.canonicalUrl →
      (next (.ok ())).Keeps (growth uuids) post after)
    (fails : ∀ before, state.Grows before → before.Sound uuids → ∀ error,
      (next (.error error)).Keeps (growth uuids) post before) :
    ((tryQuery (.saveOrigin origin)).bind next).Keeps (growth uuids) post state := by
  refine keeps_tryQuery (fun present before grown sound value after performed => ?_) fails
  obtain ⟨kept, grows, keeps⟩ := BindingStore.saveOrigin_sound sound held.1
    (grown.homed _ _ held.2) (perform_saveOrigin performed)
  exact ⟨kept, grows, succeeds after (grown.trans grows) keeps⟩

theorem keeps_saveOrigin {origin : OriginRow} (held : Held uuids origin state) :
    (require (.saveOrigin origin)).Keeps (growth uuids) (fun _ _ => True) state := by
  refine keeps_trySaveOrigin held (fun after _ _ => ?_) fun before _ _ error => keeps_fail
  exact keeps_done fun _ _ _ => trivial

theorem keeps_saveInstance {row : InstanceRow}
    (keeps : state.Keeps row.originId row.canonicalUrl) :
    (require (.saveInstance row)).Keeps (growth uuids) (fun _ _ => True) state := by
  refine keeps_require fun present before grown sound value after performed => ?_
  obtain ⟨kept, grows⟩ := BindingStore.saveInstance_sound sound (grown.keeps _ _ keeps)
    (perform_saveInstance performed)
  exact ⟨kept, grows, fun _ _ => trivial⟩

end Writes

section Attach

variable {cmd : AttachRepoCmd} {state : BindingStore}

def Named (uuids : UuidFormat) (cmd : AttachRepoCmd) (origin : OriginRow) (store : BindingStore) :
    Prop :=
  Held uuids origin store ∧ origin.canonicalUrl = cmd.canonicalUrl

theorem keeps_findOrCreateOrigin (sound : state.Sound uuids) :
    (findOrCreateOrigin cmd).Keeps (growth uuids) (Named uuids cmd) state := by
  have reads : (require (.findOriginByCanonicalUrl cmd.canonicalUrl)).Keeps (growth uuids)
      (fun found later => ∀ origin, found = some origin → Named uuids cmd origin later) state := by
    refine keeps_read (fun _ _ => rfl) fun _ before found sound told later grown origin same => ?_
    have foundEq : before.originWith cmd.canonicalUrl = some origin :=
      (Except.ok.inj told).trans same
    have url := List.find?_some foundEq
    exact ⟨(held_of_mem sound (List.mem_of_find?_eq_some foundEq)).grow grown, by simpa using url⟩
  refine reads.bind sound fun found later laterSound _ named => ?_
  cases found with
  | some origin =>
      exact keeps_done fun further grown _ =>
        ⟨(named origin rfl).1.grow grown, (named origin rfl).2⟩
  | none =>
      refine keeps_now.bind laterSound fun now timed timedSound _ _ => ?_
      refine keeps_newOriginId.bind timedSound fun id minted _ _ homed => ?_
      refine keeps_checked fun origin created further grown => ?_
      obtain ⟨_, rfl⟩ := OriginRow.create_ok created
      exact ⟨⟨OriginRow.create_wellFormed created, grown.homed _ _ homed⟩, rfl⟩

theorem keeps_setPrefix {origin : OriginRow} {now : Timestamp} {text : String}
    (held : Held uuids origin state) :
    (checked (origin.setPrefix now text)).Keeps (growth uuids) (fun renamed later =>
      Held uuids renamed later ∧ renamed.id = origin.id ∧
        renamed.canonicalUrl = origin.canonicalUrl) state := by
  refine keeps_checked fun renamed set later grown => ?_
  obtain ⟨formed, sameId, sameUrl⟩ := OriginRow.setPrefix_wellFormed held.1 set
  refine ⟨⟨formed, ?_⟩, sameId, sameUrl⟩
  rw [sameId, sameUrl]
  exact grown.homed _ _ held.2

theorem keeps_applyPrefix {origin : OriginRow} (sound : state.Sound uuids)
    (named : Named uuids cmd origin state) :
    (applyPrefix cmd origin).Keeps (growth uuids) (Named uuids cmd) state := by
  unfold applyPrefix
  split
  · exact keeps_done fun later grown _ => ⟨named.1.grow grown, named.2⟩
  · refine keeps_now.bind sound fun now timed _ since _ => ?_
    refine (keeps_setPrefix (named.1.grow since)).mono fun renamed later _ facts => ?_
    exact ⟨facts.1, facts.2.2.trans named.2⟩

def Bindable (cmd : AttachRepoCmd) (origin : OriginRow) (row : InstanceRow) (store : BindingStore) :
    Prop :=
  row.canonicalUrl = cmd.canonicalUrl ∧
    (store.Keeps row.originId row.canonicalUrl ∨ row.originId = origin.id)

theorem Bindable.grow {origin : OriginRow} {row : InstanceRow} {before after : BindingStore}
    (bindable : Bindable cmd origin row before) (grown : before.Grows after) :
    Bindable cmd origin row after :=
  ⟨bindable.1, bindable.2.imp_left (grown.keeps _ _)⟩

theorem keeps_createInstance {id : RepoId} {now : Timestamp} {workspaceId : WorkspaceId}
    {originId : RepoOriginId} {url : String} {branch : Option String} :
    (checked (InstanceRow.create id now workspaceId originId url branch)).Keeps (growth uuids)
      (fun row _ => row.canonicalUrl = url ∧ row.originId = originId) state := by
  refine keeps_checked fun row created _ _ => ?_
  unfold InstanceRow.create at created
  split at created
  · cases created
  · cases created
    exact ⟨rfl, rfl⟩

theorem keeps_findOrCreateInstance {origin : OriginRow} (sound : state.Sound uuids) :
    (findOrCreateInstance cmd origin).Keeps (growth uuids)
      (fun found later => Bindable cmd origin found.1 later) state := by
  refine (keeps_findByCanonicalUrl _ _).bind sound fun found later laterSound _ seen => ?_
  cases found with
  | some existing =>
      obtain ⟨known, url⟩ := seen existing rfl
      exact keeps_done fun further grown _ => Bindable.grow ⟨url, .inl known.2⟩ grown
  | none =>
      refine keeps_now.bind laterSound fun now timed timedSound _ _ => ?_
      refine keeps_newInstanceId.bind timedSound fun id minted mintedSound _ _ => ?_
      refine (keeps_createInstance).bind mintedSound fun row later _ _ made => ?_
      exact keeps_done fun _ _ _ => ⟨made.1, .inr made.2⟩

theorem keeps_linkPath {origin : OriginRow} {row : InstanceRow} (sound : state.Sound uuids)
    (bindable : Bindable cmd origin row state) :
    (linkPath cmd row).Keeps (growth uuids) (fun linked later => Bindable cmd origin linked later)
      state := by
  unfold linkPath
  split
  · exact keeps_done fun later grown _ => bindable.grow grown
  · refine keeps_now.bind sound fun now timed _ since _ => ?_
    exact keeps_done fun later grown _ => bindable.grow (since.trans grown)

theorem keeps_retryPrefix {base : String} : ∀ (left : Nat) {origin : OriginRow}
    {state : BindingStore}, Held uuids origin state →
    (retryPrefix base left origin).Keeps (growth uuids)
      (fun _ later => later.Keeps origin.id origin.canonicalUrl) state := by
  intro left
  induction left with
  | zero =>
      intro origin state held
      rw [retryPrefix]
      refine keeps_trySaveOrigin held (fun after _ kept => ?_) fun before _ _ error => ?_
      · exact keeps_done fun later grown _ => grown.keeps _ _ kept
      · dsimp only
        split
        · exact keeps_fail
        · exact keeps_fail
  | succ left ih =>
      intro origin state held
      rw [retryPrefix]
      refine keeps_trySaveOrigin held (fun after _ kept => ?_) fun before since beforeSound error => ?_
      · exact keeps_done fun later grown _ => grown.keeps _ _ kept
      · dsimp only
        split
        · refine keeps_now.bind beforeSound fun now timed timedSound more _ => ?_
          refine (keeps_setPrefix (held.grow (since.trans more))).bind timedSound
            fun renamed later _ _ facts => ?_
          obtain ⟨renamedHeld, sameId, sameUrl⟩ := facts
          have rest := ih renamedHeld
          rw [sameId, sameUrl] at rest
          exact rest
        · exact keeps_fail

theorem keeps_saveAttached {origin : OriginRow} (held : Held uuids origin state) :
    (saveAttached cmd origin).Keeps (growth uuids)
      (fun _ later => later.Keeps origin.id origin.canonicalUrl) state := by
  unfold saveAttached
  split
  · refine keeps_trySaveOrigin held (fun after _ kept => ?_) fun before _ _ error => keeps_fail
    exact keeps_done fun later grown _ => grown.keeps _ _ kept
  · exact keeps_retryPrefix _ held

theorem keeps_attach (sound : state.Sound uuids) :
    (attach cmd).Keeps (growth uuids) (fun _ _ => True) state := by
  have read : (require (.getWorkspace cmd.workspaceId)).Keeps (growth uuids) (fun _ _ => True) state :=
    keeps_read (fun _ _ => rfl) fun _ _ _ _ _ _ _ => trivial
  refine read.bind sound fun _ state sound _ _ => ?_
  refine (keeps_findOrCreateOrigin sound).bind sound fun found state sound _ named => ?_
  refine (keeps_applyPrefix sound named).bind sound fun origin state sound _ named => ?_
  refine (keeps_findOrCreateInstance sound).bind sound fun found state sound since bindable => ?_
  obtain ⟨row, merged⟩ := found
  have namedNow : Named uuids cmd origin state := ⟨named.1.grow since, named.2⟩
  refine (keeps_linkPath sound bindable).bind sound fun linked state sound since bindable => ?_
  refine (keeps_saveAttached (namedNow.1.grow since)).bind sound
    fun saved state sound since kept => ?_
  have bindableNow := bindable.grow since
  have keeps : state.Keeps linked.originId linked.canonicalUrl := by
    rcases bindableNow.2 with stored | created
    · exact stored
    · rw [created, bindableNow.1, ← named.2]
      exact kept
  refine (keeps_saveInstance keeps).bind sound fun _ state _ _ _ => ?_
  exact keeps_done fun _ _ _ => trivial

end Attach

section Handles

variable {state : BindingStore}

theorem keeps_collectMatches {accepts : BoundRepo → Bool} {found : List BoundRepo × List BoundRepo}
    {workspace : Workspace} (sound : state.Sound uuids)
    (seen : ∀ view ∈ found.1 ++ found.2, Seen uuids view state) :
    (collectMatches accepts found workspace).Keeps (growth uuids)
      (fun found later => ∀ view ∈ found.1 ++ found.2, Seen uuids view later) state := by
  unfold collectMatches
  split
  · exact keeps_done fun later grown _ view member => (seen view member).grow grown
  · refine (keeps_listByWorkspace _).bind sound fun views later _ since told => ?_
    refine keeps_done fun further grown _ view member => Seen.grow ?_ grown
    have cases : view ∈ found.1 ++ found.2 ∨ view ∈ views := by
      have kept : view ∈ views.filter accepts → view ∈ views := fun here => (List.mem_filter.mp here).1
      split at member
      · simp only [List.mem_append] at member ⊢
        tauto
      · simp only [List.mem_append] at member ⊢
        tauto
    rcases cases with old | new
    · exact (seen view old).grow since
    · exact told view new

theorem keeps_resolveMatching {query : String} {accepts : BoundRepo → Bool}
    (sound : state.Sound uuids) :
    (resolveMatching query accepts).Keeps (growth uuids) (Seen uuids) state := by
  have listed : (require (.listWorkspaces true)).Keeps (growth uuids) (fun _ _ => True) state :=
    keeps_read (fun _ _ => rfl) fun _ _ _ _ _ _ _ => trivial
  refine listed.bind sound fun workspaces state sound _ _ => ?_
  have gathers := @keeps_foldEach _ _ _ _ _ (growth uuids)
    (fun (found : List BoundRepo × List BoundRepo) later =>
      ∀ view ∈ found.1 ++ found.2, Seen uuids view later) (collectMatches accepts)
    (fun found before after grown seen view member => (seen view member).grow grown) workspaces
    (fun found workspace state _ sound seen => keeps_collectMatches sound seen) ([], [])
    state sound (fun view member => (List.not_mem_nil member).elim)
  refine gathers.bind sound fun found later _ _ seen => ?_
  have picked : ∀ view ∈ (if found.1.isEmpty then found.2 else found.1), Seen uuids view later := by
    intro view member
    split at member
    · exact seen view (List.mem_append_right _ member)
    · exact seen view (List.mem_append_left _ member)
  unfold pickMatch
  split
  · exact keeps_fail
  · rename_i view only
    rw [only] at picked
    exact keeps_done fun further grown _ => (picked view List.mem_cons_self).grow grown
  · exact keeps_fail

theorem keeps_resolveByHandle {query : String} (sound : state.Sound uuids) :
    (resolveByHandle query).Keeps (growth uuids) (Seen uuids) state := by
  have read : (require (.findOriginByPrefix query)).Keeps (growth uuids) (fun _ _ => True) state :=
    keeps_read (fun _ _ => rfl) fun _ _ _ _ _ _ _ => trivial
  refine read.bind sound fun found state sound _ _ => ?_
  cases found with
  | none => exact keeps_resolveMatching sound
  | some origin =>
      refine (keeps_resolveMatching sound).attempt.bind sound fun resolved later laterSound _ seen => ?_
      split
      · rename_i view
        exact keeps_done fun further grown _ => (seen view rfl).grow grown
      · exact keeps_resolveMatching laterSound
      · exact keeps_fail

theorem keeps_resolve {query : String} (sound : state.Sound uuids) :
    (resolve uuids query).Keeps (growth uuids) (Seen uuids) state := by
  unfold resolve
  split
  · exact keeps_getInstance _
  · exact keeps_resolveByHandle sound

end Handles

section Changes

variable {state : BindingStore}

theorem keeps_changed {β : Type} {origin : OriginRow} {result : Except DomainError β}
    {changed : β → OriginRow} {next : β → Action α} (sound : state.Sound uuids)
    (held : Held uuids origin state)
    (forms : ∀ value, result = .ok value → (changed value).WellFormed uuids ∧
      (changed value).id = origin.id ∧ (changed value).canonicalUrl = origin.canonicalUrl)
    (rest : ∀ value later, later.Sound uuids → Held uuids (changed value) later →
      (next value).Keeps (growth uuids) (fun _ _ => True) later) :
    ((checked result).bind next).Keeps (growth uuids) (fun _ _ => True) state := by
  have computed : (checked result).Keeps (growth uuids)
      (fun value later => Held uuids (changed value) later) state := by
    refine keeps_checked fun value same later grown => ?_
    obtain ⟨formed, sameId, sameUrl⟩ := forms value same
    refine ⟨formed, ?_⟩
    rw [sameId, sameUrl]
    exact grown.homed _ _ held.2
  exact computed.bind sound fun value later laterSound _ heldThen => rest value later laterSound heldThen

theorem keeps_saved {origin : OriginRow} {value : α} (sound : state.Sound uuids)
    (held : Held uuids origin state) :
    ((require (.saveOrigin origin)).bind fun _ => .done value).Keeps (growth uuids)
      (fun _ _ => True) state :=
  (keeps_saveOrigin held).bind sound fun _ _ _ _ _ => keeps_done fun _ _ _ => trivial

theorem keeps_rename {query newName : String} (sound : state.Sound uuids) :
    (rename uuids query newName).Keeps (growth uuids) (fun _ _ => True) state := by
  refine (keeps_resolve sound).bind sound fun view state sound _ seen => ?_
  refine keeps_now.bind sound fun now state sound since _ => ?_
  exact keeps_changed sound (seen.1.grow since)
    (fun _ named => OriginRow.setName_wellFormed seen.1.1 named)
    fun _ _ laterSound held => keeps_saved laterSound held

theorem keeps_setPrefixOf {query newPrefix : String} (sound : state.Sound uuids) :
    (setPrefix uuids query newPrefix).Keeps (growth uuids) (fun _ _ => True) state := by
  refine (keeps_resolve sound).bind sound fun view state sound _ seen => ?_
  refine keeps_now.bind sound fun now state sound since _ => ?_
  refine (keeps_setPrefix (seen.1.grow since)).bind sound fun origin state sound _ held => ?_
  refine keeps_trySaveOrigin held.1 (fun _ _ _ => ?_) fun _ _ _ _ => keeps_fail
  exact keeps_done fun _ _ _ => trivial

theorem keeps_addAlias {query text : String} (sound : state.Sound uuids) :
    (addAlias uuids query text).Keeps (growth uuids) (fun _ _ => True) state := by
  refine (keeps_resolve sound).bind sound fun view state sound _ seen => ?_
  refine keeps_now.bind sound fun now state sound since _ => ?_
  exact keeps_changed sound (seen.1.grow since)
    (fun _ added => OriginRow.addAlias_wellFormed seen.1.1 added)
    fun _ _ laterSound held => keeps_saved laterSound held

theorem keeps_removeAlias {query text : String} (sound : state.Sound uuids) :
    (removeAlias uuids query text).Keeps (growth uuids) (fun _ _ => True) state := by
  refine (keeps_resolve sound).bind sound fun view state sound _ seen => ?_
  refine keeps_now.bind sound fun now state sound since _ => ?_
  obtain ⟨formed, sameId, sameUrl⟩ := @OriginRow.removeAlias_wellFormed _ _ now text seen.1.1
  have held : Held uuids (view.origin.removeAlias now text).2 state := by
    refine ⟨formed, ?_⟩
    rw [sameId, sameUrl]
    exact since.homed _ _ seen.1.2
  dsimp only
  split
  · exact keeps_saved sound held
  · exact keeps_fail

end Changes

section Worktrees

variable {state : BindingStore}

def SameBinding (before after : InstanceRow) : Prop :=
  after.originId = before.originId ∧ after.canonicalUrl = before.canonicalUrl

theorem keeps_changeInstance {id : RepoId}
    {change : Timestamp → InstanceRow → Except DomainError InstanceRow}
    (same : ∀ now before after, change now before = .ok after → SameBinding before after)
    (sound : state.Sound uuids) :
    (changeInstance id change).Keeps (growth uuids) (fun _ _ => True) state := by
  refine (keeps_getInstance id).bind sound fun view state sound _ seen => ?_
  refine keeps_now.bind sound fun now state sound since _ => ?_
  have changed : (checked (change now view.checkout)).Keeps (growth uuids)
      (fun row later => later.Keeps row.originId row.canonicalUrl) state := by
    refine keeps_checked fun row ended later grown => ?_
    obtain ⟨origin, url⟩ := same now view.checkout row ended
    rw [origin, url]
    exact (since.trans grown).keeps _ _ seen.2
  refine changed.bind sound fun row state sound _ keeps => ?_
  refine (keeps_saveInstance keeps).bind sound fun _ _ _ _ _ => ?_
  exact keeps_done fun _ _ _ => trivial

theorem keeps_probeLink {missing : List String} {link : LinkRow} (sound : state.Sound uuids) :
    (probeLink missing link).Keeps (growth uuids) (fun _ _ => True) state := by
  have probed : (require (.pathExists link.path)).Keeps (growth uuids) (fun _ _ => True) state :=
    keeps_read (fun _ _ => rfl) fun _ _ _ _ _ _ _ => trivial
  exact probed.bind sound fun _ _ _ _ _ => keeps_done fun _ _ _ => trivial

theorem keeps_markMissing {row : InstanceRow} {path : String} (sound : state.Sound uuids) :
    (markMissing row path).Keeps (growth uuids) (fun marked _ => SameBinding row marked) state := by
  refine keeps_now.bind sound fun now state _ _ _ => keeps_checked fun marked ended _ _ => ?_
  unfold InstanceRow.markPathMissing at ended
  split at ended
  · cases ended
  · cases ended
    exact ⟨rfl, rfl⟩

theorem keeps_pruneMarked {prune : Bool} {row : InstanceRow} (sound : state.Sound uuids) :
    (pruneMarked prune row).Keeps (growth uuids) (fun pruned _ => SameBinding row pruned.2) state := by
  unfold pruneMarked
  split
  · refine keeps_now.bind sound fun now state _ _ _ => keeps_done fun _ _ _ => ?_
    simp only [InstanceRow.pruneMissing]
    split <;> exact ⟨rfl, rfl⟩
  · exact keeps_done fun _ _ _ => ⟨rfl, rfl⟩

theorem keeps_reconcileInstance {prune : Bool} {summary : ReconcileSummary} {view : BoundRepo}
    (sound : state.Sound uuids) (seen : Seen uuids view state) :
    (reconcileInstance prune summary view).Keeps (growth uuids) (fun _ _ => True) state := by
  have probes := @keeps_foldEach _ _ _ _ _ (growth uuids) (fun (_ : List String) _ => True) probeLink
    (fun _ _ _ _ held => held) view.checkout.worktrees.rows
    (fun _ _ _ _ sound _ => keeps_probeLink sound) [] state sound trivial
  refine probes.bind sound fun missing later laterSound since _ => ?_
  have marks := @keeps_foldEach _ _ _ _ _ (growth uuids)
    (fun (row : InstanceRow) _ => SameBinding view.checkout row) markMissing
    (fun _ _ _ _ held => held) missing
    (fun row path _ _ sound same => (keeps_markMissing sound).mono fun marked _ _ again =>
      ⟨again.1.trans same.1, again.2.trans same.2⟩)
    view.checkout later laterSound ⟨rfl, rfl⟩
  refine marks.bind laterSound fun marked further furtherSound more same => ?_
  refine (keeps_pruneMarked furtherSound).bind furtherSound fun pruned last lastSound most again => ?_
  have keeps : last.Keeps pruned.2.originId pruned.2.canonicalUrl := by
    rw [again.1, again.2, same.1, same.2]
    exact ((since.trans more).trans most).keeps _ _ seen.2
  dsimp only
  split
  · exact (keeps_saveInstance keeps).bind lastSound fun _ _ _ _ _ => keeps_done fun _ _ _ => trivial
  · exact keeps_done fun _ _ _ => trivial

theorem keeps_reconcileWorktrees {workspaceId : WorkspaceId} {prune : Bool}
    (sound : state.Sound uuids) :
    (reconcileWorktrees workspaceId prune).Keeps (growth uuids) (fun _ _ => True) state := by
  have read : (require (.getWorkspace workspaceId)).Keeps (growth uuids) (fun _ _ => True) state :=
    keeps_read (fun _ _ => rfl) fun _ _ _ _ _ _ _ => trivial
  refine read.bind sound fun _ state sound _ _ => ?_
  refine (keeps_listByWorkspace workspaceId).bind sound fun views later laterSound _ seen => ?_
  have loops := @keeps_foldEach _ _ _ _ _ (growth uuids)
    (fun (_ : ReconcileSummary) later => ∀ view ∈ views, Seen uuids view later)
    (reconcileInstance prune)
    (fun _ before after grown seen view member => (seen view member).grow grown) views
    (fun summary view state member sound seen => ?_) {} later laterSound seen
  · exact loops.mono fun _ _ _ _ => trivial
  · have remembered := (@keeps_reconcileInstance _ state prune summary view sound
      (seen view member)).remember (BindingStore.Grows.refl state)
    exact remembered.mono fun _ later _ grown other member => (seen other member).grow grown.1

end Worktrees

inductive Command where
  | attach (cmd : AttachRepoCmd)
  | detach (id : RepoId)
  | rename (query newName : String)
  | setPrefix (query newPrefix : String)
  | addAlias (query text : String)
  | removeAlias (query text : String)
  | linkWorktree (id : RepoId) (path : String) (branch : Option String)
  | unlinkWorktree (id : RepoId) (path : String)
  | pruneMissing (id : RepoId)
  | reconcileWorktrees (workspaceId : WorkspaceId) (prune : Bool)

def Command.run (uuids : UuidFormat) : Command → Action Unit
  | .attach cmd => do let _ ← RepoBindings.attach cmd
  | .detach id => RepoBindings.detach id
  | .rename query newName => do let _ ← RepoBindings.rename uuids query newName
  | .setPrefix query newPrefix => do let _ ← RepoBindings.setPrefix uuids query newPrefix
  | .addAlias query text => do let _ ← RepoBindings.addAlias uuids query text
  | .removeAlias query text => do let _ ← RepoBindings.removeAlias uuids query text
  | .linkWorktree id path branch => do let _ ← RepoBindings.linkWorktree id path branch
  | .unlinkWorktree id path => do let _ ← RepoBindings.unlinkWorktree id path
  | .pruneMissing id => do let _ ← RepoBindings.pruneMissing id
  | .reconcileWorktrees workspaceId prune => do
    let _ ← RepoBindings.reconcileWorktrees workspaceId prune

def starts (uuids : UuidFormat) (_ : BindingStore) (proc : Proc bindingPorts RepoServiceError Unit) :
    Prop :=
  ∃ command : Command, proc.program = command.run uuids

theorem keeps_ignored {program : Action α} {state : BindingStore} (sound : state.Sound uuids)
    (keeps : program.Keeps (growth uuids) (fun _ _ => True) state) :
    (program.bind fun _ => .done ()).Keeps (growth uuids) (fun _ _ => True) state :=
  keeps.bind sound fun _ _ _ _ _ => keeps_done fun _ _ _ => trivial

theorem keeps_command (command : Command) {state : BindingStore} (sound : state.Sound uuids) :
    (command.run uuids).Keeps (growth uuids) (fun _ _ => True) state := by
  cases command with
  | attach cmd => exact keeps_ignored sound (keeps_attach sound)
  | detach id =>
      refine keeps_require fun _ before _ sound _ after performed => ?_
      obtain ⟨kept, grows⟩ := BindingStore.delete_sound sound id
      cases performed
      exact ⟨kept, grows, fun _ _ => trivial⟩
  | rename query newName => exact keeps_ignored sound (keeps_rename sound)
  | setPrefix query newPrefix => exact keeps_ignored sound (keeps_setPrefixOf sound)
  | addAlias query text => exact keeps_ignored sound (keeps_addAlias sound)
  | removeAlias query text => exact keeps_ignored sound (keeps_removeAlias sound)
  | linkWorktree id path branch =>
      refine keeps_ignored sound (keeps_changeInstance (fun _ _ _ ended => ?_) sound)
      cases ended
      exact ⟨rfl, rfl⟩
  | unlinkWorktree id path =>
      refine keeps_ignored sound (keeps_changeInstance (fun _ _ _ ended => ?_) sound)
      simp only [InstanceRow.unlinkWorktree] at ended
      split at ended
      · cases ended
      · cases ended
        exact ⟨rfl, rfl⟩
  | pruneMissing id =>
      refine keeps_ignored sound (keeps_changeInstance (fun _ before _ ended => ?_) sound)
      cases ended
      simp only [InstanceRow.pruneMissing]
      split <;> exact ⟨rfl, rfl⟩
  | reconcileWorktrees workspaceId prune =>
      exact keeps_ignored sound (keeps_reconcileWorktrees sound)

/-- Whatever commands run at once, in whatever order their statements come, whichever of them fail
and wherever a process stops: every origin stays well-formed and keeps its URL, and the bindings of
a URL, in all workspaces, share one origin. -/
theorem registry_sound (uuids : UuidFormat) {store : BindingStore}
    {last : Pool bindingPorts BindingStore RepoServiceError Unit} (sound : store.Sound uuids)
    (run : Pool.Run (growth uuids).discipline (fun _ _ => True) (starts uuids) ⟨store, []⟩ last) :
    (∀ origin ∈ last.shared.origins.table.rows, origin.WellFormed uuids) ∧
      (∀ origin ∈ store.origins.table.rows,
        last.shared.Keeps origin.id origin.canonicalUrl) ∧
      (∀ row ∈ last.shared.instances.table.rows,
        last.shared.Keeps row.originId row.canonicalUrl) ∧
      ∀ left ∈ last.shared.instances.table.rows, ∀ right ∈ last.shared.instances.table.rows,
        left.originId = right.originId ↔ left.canonicalUrl = right.canonicalUrl := by
  obtain ⟨kept, grown⟩ := Pool.keeps_run (fun shared proc held begins => by
    obtain ⟨command, same⟩ := begins
    rw [same]
    exact keeps_command command held) sound run
  have kept : last.shared.Sound uuids := kept
  have grown : store.Grows last.shared := grown
  refine ⟨kept.wellFormed, fun origin member => grown.keeps _ _ ⟨origin, member, rfl, rfl⟩,
    kept.bound, fun left inLeft right inRight => ?_⟩
  obtain ⟨leftOrigin, leftMember, leftId, leftUrl⟩ := kept.bound left inLeft
  obtain ⟨rightOrigin, rightMember, rightId, rightUrl⟩ := kept.bound right inRight
  constructor
  · intro same
    have origins : leftOrigin = rightOrigin :=
      Table.row_unique leftMember rightMember (leftId.trans (same.trans rightId.symm))
    rw [← leftUrl, ← rightUrl, origins]
  · intro same
    have origins : leftOrigin = rightOrigin := last.shared.origins.urls _ leftMember _ rightMember
      (leftUrl.trans (same.trans rightUrl.symm))
    rw [← leftId, ← rightId, origins]

section Race

def nextOf (taken : List Nat) : Nat := taken.foldr max 0 + 1

theorem nextOf_fresh (taken : List Nat) : nextOf taken ∉ taken := by
  intro member
  have bound := le_foldr_max taken _ member
  rw [nextOf] at bound
  omega

def countingHandler : Handler bindingPorts BindingStore
  | .now, store => (⟨0⟩, store)
  | .newOriginId url, store =>
    let id : RepoOriginId := ⟨nextOf (store.originIds.map fun given => given.1.value)⟩
    (id, { store with originIds := (id, url) :: store.originIds })
  | .newInstanceId, store =>
    let id : RepoId := ⟨nextOf (store.instanceIds.map RepoId.value)⟩
    (id, { store with instanceIds := id :: store.instanceIds })
  | .query statement, store => statement.perform (fun _ => true) store

theorem countingHandler_means (op : BindingOp) (store : BindingStore) :
    bindingMeaning op store (countingHandler op store).1 (countingHandler op store).2 := by
  cases op with
  | now => exact rfl
  | newOriginId url =>
      refine ⟨fun member => ?_, rfl⟩
      obtain ⟨given, inIds, same⟩ := List.mem_map.mp member
      apply nextOf_fresh (store.originIds.map fun given => given.1.value)
      exact List.mem_map.mpr ⟨given, inIds, congrArg RepoOriginId.value same⟩
  | newInstanceId =>
      refine ⟨fun member => ?_, rfl⟩
      apply nextOf_fresh (store.instanceIds.map RepoId.value)
      exact List.mem_map.mpr ⟨_, member, rfl⟩
  | query statement => exact ⟨fun _ => true, rfl⟩

theorem countingHandler_sound (op : BindingOp) (store : BindingStore) (_ : true = true) :
    (growth uuids).discipline.meaning () op store (countingHandler op store).1
      (countingHandler op store).2 := by
  have means := countingHandler_means op store
  cases op with
  | query statement => exact .inl means
  | _ => exact means

def noUuids : UuidFormat := ⟨fun _ => none, fun _ => ""⟩

def twoWorkspaces : BindingStore where
  workspaces := ⟨[⟨⟨1⟩, .active, none, none, none, none⟩, ⟨⟨2⟩, .active, none, none, none, none⟩],
    by decide⟩
  origins := OriginBook.empty
  instances := InstanceBook.empty
  originIds := []
  instanceIds := []

def attachTo (id : Nat) : Command :=
  .attach ⟨⟨id⟩, "git@h:o/r.git", "h/o/r", none, none, none, none⟩

def firstHalf : Action Unit × BindingStore :=
  ((attachTo 1).run noUuids).advance countingHandler 5 twoWorkspaces

def overtaken : Action Unit × BindingStore :=
  ((attachTo 2).run noUuids).advance countingHandler 20 firstHalf.2

def raced : Action Unit × BindingStore := firstHalf.1.advance countingHandler 20 overtaken.2

theorem race_runs :
    Pool.Run (growth noUuids).discipline (fun _ _ => True) (starts noUuids) ⟨twoWorkspaces, []⟩
      ⟨raced.2, [⟨(), overtaken.1⟩, ⟨(), raced.1⟩]⟩ := by
  have first := @Pool.run_started _ _ _ _ (growth noUuids).discipline (fun _ _ => True)
    (starts noUuids) _ (fun _ _ => true) countingHandler id ⟨(), (attachTo 1).run noUuids⟩ [] twoWorkspaces 5
    countingHandler_sound ⟨attachTo 1, rfl⟩ (fun _ _ => ⟨trivial, trivial⟩) (by decide +kernel)
  have second := @Pool.run_started _ _ _ _ (growth noUuids).discipline (fun _ _ => True)
    (starts noUuids) _ (fun _ _ => true) countingHandler id ⟨(), (attachTo 2).run noUuids⟩
    [⟨(), firstHalf.1⟩] firstHalf.2 20 countingHandler_sound ⟨attachTo 2, rfl⟩
    (fun _ _ => ⟨trivial, trivial⟩) (by decide +kernel)
  have third := @Pool.run_advances _ _ _ _ (growth noUuids).discipline (fun _ _ => True)
    (starts noUuids) _ (fun _ _ => true) countingHandler id () [⟨(), overtaken.1⟩] []
    countingHandler_sound 20 firstHalf.1 overtaken.2 (by decide +kernel)
  exact (first.trans second).trans third

theorem twoWorkspaces_sound : twoWorkspaces.Sound noUuids :=
  ⟨fun _ member => (List.not_mem_nil member).elim, fun _ member => (List.not_mem_nil member).elim,
    fun _ _ _ member => (List.not_mem_nil member).elim,
    fun _ member => (List.not_mem_nil member).elim⟩

theorem registry_sound_race : raced.2.origins.table.rows.length = 1 ∧
    ∀ left ∈ raced.2.instances.table.rows, ∀ right ∈ raced.2.instances.table.rows,
      left.originId = right.originId ↔ left.canonicalUrl = right.canonicalUrl :=
  ⟨by decide +kernel, (registry_sound noUuids twoWorkspaces_sound race_runs).2.2.2⟩

end Race

end RepoBindings

end RepoLink
