import Mathlib.Logic.Relation
import RepoLink.Ports.Handler
import RepoLink.Sync.Poller

/-!
The watermark of a board over a sequence of polls: it never falls, a page that was not read to its
end leaves it alone, and a complete page clamps it between its old value and one second before the
newest item.
-/

namespace RepoLink

open Effects Program KeyedTable

namespace ProjectPoller

def pageOf (provider : Provider) (project : Project) : Option PollPage :=
  match project.statusFieldId with
  | none => none
  | some statusFieldId =>
    match provider (.pollProjectItems project.id.value statusFieldId pollQuery) with
    | .ok page => some page
    | .error _ => none

def nextWatermark (since : Timestamp) : Option PollPage → Timestamp
  | none => since
  | some page =>
    if page.truncated then since
    else later since (maxSeen since page.items).minusOneSecond

theorem le_later (left right : Timestamp) : left ≤ later left right := by
  unfold later
  split
  · rename_i smaller
    exact Int.le_of_lt smaller
  · exact Int.le_refl _

theorem later_lt {left right instant : Timestamp} :
    later left right < instant ↔ left < instant ∧ right < instant := by
  simp only [later, Timestamp.lt_def]
  split
  · omega
  · omega

theorem later_minusOneSecond {left right : Timestamp} (older : ¬left < right) :
    later left right.minusOneSecond = left := by
  have older : ¬left < right.minusOneSecond := by
    simp only [Timestamp.lt_def, Timestamp.minusOneSecond] at older ⊢
    omega
  rw [later, if_neg older]

theorem maxSeen_lt {items : List RemoteProjectItem} : ∀ {since instant : Timestamp},
    maxSeen since items < instant ↔ since < instant ∧ ∀ item ∈ items, item.updatedAt < instant := by
  induction items with
  | nil =>
      intro since instant
      exact ⟨fun below => ⟨below, fun _ member => absurd member List.not_mem_nil⟩, And.left⟩
  | cons first rest ih =>
      intro since instant
      change maxSeen (later since first.updatedAt) rest < instant ↔ _
      rw [ih, later_lt, List.forall_mem_cons, and_assoc]

theorem maxSeen_of_newest {since newest : Timestamp} {items : List RemoteProjectItem}
    (found : ∃ item ∈ items, item.updatedAt = newest)
    (bound : ∀ item ∈ items, item.updatedAt ≤ newest) :
    maxSeen since items = later since newest := by
  have same : ∀ instant, maxSeen since items < instant ↔ later since newest < instant := by
    intro instant
    rw [maxSeen_lt, later_lt]
    refine and_congr_right fun _ => ⟨fun all => ?_, fun below item member => ?_⟩
    · obtain ⟨item, member, rfl⟩ := found
      exact all item member
    · exact Int.lt_of_le_of_lt (bound item member) below
  have below : (maxSeen since items).nanos < (later since newest).nanos + 1 :=
    (same ⟨(later since newest).nanos + 1⟩).mpr (Int.lt_succ _)
  have above : (later since newest).nanos < (maxSeen since items).nanos + 1 :=
    (same ⟨(maxSeen since items).nanos + 1⟩).mp (Int.lt_succ _)
  have equal : (maxSeen since items).nanos = (later since newest).nanos := by omega
  exact congrArg Timestamp.mk equal

theorem watermark_set (project other : ProjectId) (instant : Timestamp) (watermarks : Watermarks) :
    (watermarks.set project instant).watermark other =
      if other = project then instant else watermarks.watermark other := by
  rw [Watermarks.watermark, Watermarks.set, List.lookup_cons]
  by_cases same : other = project
  · subst same
    simp
  · rw [beq_false_of_ne same, if_neg same]
    rfl

theorem advance_watermark (project other : ProjectId) (page : PollPage) (pass : PollPass) :
    (advance project (pass.watermarks.watermark project) page pass).watermarks.watermark other =
      if other = project then nextWatermark (pass.watermarks.watermark project) (some page)
      else pass.watermarks.watermark other := by
  rw [advance, nextWatermark]
  cases page.truncated with
  | true =>
      by_cases same : other = project
      · simp [same]
      · simp [same]
  | false =>
      simp only [Bool.false_eq_true, if_false]
      split
      · exact watermark_set _ _ _ _
      · rename_i nothingNewer
        by_cases same : other = project
        · rw [if_pos same, same]
          exact (later_minusOneSecond nothingNewer).symm
        · rw [if_neg same]

theorem reconcileItem_watermarks (project : Project) (pass : PollPass) (item : RemoteProjectItem) :
    (reconcileItem project pass item).Yields fun next => next.watermarks = pass.watermarks := by
  unfold reconcileItem
  split
  · rfl
  · refine (yields_any _).bind fun first _ => ?_
    refine (yields_any _).bind fun second _ => ?_
    exact (yields_any _).bind fun third _ => rfl

/-- One board moves its own watermark and no other. -/
theorem runs_pollProject {provider : Provider} {pass next : PollPass} {project : Project}
    {before after : Database}
    (ran : (pollProject pass project).Runs (portsOf provider) before (.ok next) after)
    (id : ProjectId) : next.watermarks.watermark id =
      if id = project.id then
        nextWatermark (pass.watermarks.watermark project.id) (pageOf provider project)
      else pass.watermarks.watermark id := by
  have unmoved : (if id = project.id then nextWatermark (pass.watermarks.watermark project.id) none
      else pass.watermarks.watermark id) = pass.watermarks.watermark id := by
    split
    · rename_i same
      rw [nextWatermark, same]
    · rfl
  unfold pollProject at ran
  cases field : project.statusFieldId with
  | none =>
      have unpolled : pageOf provider project = none := by rw [pageOf, field]
      rw [field] at ran
      cases ran.1
      rw [unpolled, unmoved]
  | some statusFieldId =>
      rw [field] at ran
      obtain ⟨answer, middle, ⟨answered, _⟩, rest⟩ := ran
      cases answer with
      | error error =>
          have failed : pageOf provider project = none := by
            simp only [pageOf, field, ← answered]
          cases rest.1
          rw [failed]
          exact unmoved.symm
      | ok page =>
          have shown : pageOf provider project = some page := by
            simp only [pageOf, field]
            rw [← answered]
            rfl
          rw [shown]
          let page : PollPage := page
          change Program.Runs _ ((foldEach (reconcileItem project)
            (changedSince (pass.watermarks.watermark project.id) page.items) _).bind _) _ _ _ at rest
          obtain ⟨reconciled, last, folded, finished⟩ : ∃ reconciled last, _ ∧ _ := by
            obtain ok := runs_bind_ok.mp rest
            exact ok
          have same : reconciled.watermarks = pass.watermarks := by
            have yields := @yields_foldEach ports SyncError _ _
              (fun next => next.watermarks = pass.watermarks) (reconcileItem project)
              (changedSince (pass.watermarks.watermark project.id) page.items)
              (fun value item _ held =>
                (reconcileItem_watermarks project value item).mono fun _ kept => kept.trans held)
            refine (yields ?_).runs folded
            rfl
          cases finished.1
          rw [← same]
          exact advance_watermark project.id id page reconciled

theorem watermarks_of_fold {provider : Provider} {projects : List Project} {first last : PollPass}
    {before after : Database} (distinct : (projects.map Project.id).Nodup)
    (folded : (foldEach pollProject projects first).Runs (portsOf provider) before (.ok last)
      after) (id : ProjectId) :
    last.watermarks.watermark id = nextWatermark (first.watermarks.watermark id)
      ((projects.find? fun project => project.id = id).bind (pageOf provider)) := by
  let holds (done : List Project) (pass : PollPass) (_ : Database) : Prop :=
    ∀ id, pass.watermarks.watermark id = nextWatermark (first.watermarks.watermark id)
      ((done.find? fun project => project.id = id).bind (pageOf provider))
  refine (runs_foldEach_exits holds (fun _ => True) ?_ ?_ folded).1 last rfl id
  · intro done item rest pass middle split held
    refine ⟨fun next later moved id => ?_, fun _ _ _ => trivial⟩
    rw [runs_pollProject moved id, List.find?_append]
    by_cases same : id = item.id
    · subst same
      have fresh : (done.find? fun project => project.id = item.id) = none := by
        rw [List.find?_eq_none]
        intro project inDone equal
        rw [split, List.map_append, List.nodup_append] at distinct
        exact distinct.2.2 _ (List.mem_map_of_mem inDone) _
          (List.mem_map_of_mem List.mem_cons_self) (of_decide_eq_true equal)
      rw [if_pos rfl, held item.id, fresh]
      simp [nextWatermark]
    · have other : ([item].find? fun project => project.id = id) = none := by
        rw [List.find?_eq_none]
        intro project inItem equal
        rw [List.mem_singleton.mp inItem] at equal
        exact same (of_decide_eq_true equal).symm
      rw [if_neg same, held id, other, Option.or_none]
  · exact fun _ => rfl

def pageShown (provider : Provider) (database : Database) (id : ProjectId) : Option PollPage :=
  (database.projects.find id).bind (pageOf provider)

theorem runs_pollOnce {provider : Provider} {watermarks : Watermarks} {pass : PollPass}
    {before after : Database}
    (ran : (pollOnce watermarks).Runs (portsOf provider) before (.ok pass) after)
    (id : ProjectId) : pass.watermarks.watermark id =
      nextWatermark (watermarks.watermark id) (pageShown provider before id) := by
  unfold pollOnce at ran
  obtain ⟨projects, listed, rest⟩ :=
    runs_quiet_bind_portsOf_ok (query_quiet .listProjects rfl) ran
  obtain rfl : before.projects.rows = projects := by
    obtain ⟨_, performed⟩ := runs_query (runs_portsOf listed)
    exact Except.ok.inj (Prod.mk.inj performed).1
  dsimp only at rest
  by_cases none : before.projects.rows.isEmpty = true
  · rw [if_pos none] at rest
    cases rest.1
    have unshown : pageShown provider before id = .none := by
      rw [pageShown, Table.find, List.isEmpty_iff.mp none]
      rfl
    rw [unshown]
    rfl
  · rw [if_neg none] at rest
    obtain ⟨byItemId, second, _, rest⟩ := runs_bind_ok.mp rest
    obtain ⟨polled, third, folded, rest⟩ := runs_bind_ok.mp rest
    obtain ⟨refreshed, last, _, finished⟩ := runs_bind_ok.mp rest
    cases finished.1
    exact watermarks_of_fold before.projects.distinct folded id

/-- A poll that succeeds, on any database and with any answers, or one that fails. -/
inductive PollMove : Watermarks → Watermarks → Prop where
  | polled {watermarks : Watermarks} {provider : Provider} {before after : Database}
      {pass : PollPass}
      (ran : (pollOnce watermarks).Runs (portsOf provider) before (.ok pass) after) :
      PollMove watermarks pass.watermarks
  | failed (watermarks : Watermarks) : PollMove watermarks watermarks

theorem le_nextWatermark (since : Timestamp) (shown : Option PollPage) :
    since ≤ nextWatermark since shown := by
  cases shown with
  | none => exact Int.le_refl _
  | some page =>
      rw [nextWatermark]
      split
      · exact Int.le_refl _
      · exact le_later _ _

theorem mem_changedSince {since : Timestamp} {items : List RemoteProjectItem}
    {item : RemoteProjectItem} :
    item ∈ changedSince since items ↔ item ∈ items ∧ since < item.updatedAt := by
  rw [changedSince, List.mem_filter, decide_eq_true_eq]

theorem nextWatermark_lt {since newest instant : Timestamp} {page : PollPage}
    (complete : page.truncated = false) (found : ∃ item ∈ page.items, item.updatedAt = newest)
    (bound : ∀ item ∈ page.items, item.updatedAt ≤ newest) :
    nextWatermark since (some page) < instant ↔
      since < instant ∧ newest.minusOneSecond < instant := by
  rw [nextWatermark, complete, if_neg Bool.false_ne_true, maxSeen_of_newest found bound, later_lt]
  refine and_congr_right fun above => ?_
  rw [later]
  split
  · rfl
  · rename_i older
    simp only [Timestamp.lt_def, Timestamp.minusOneSecond] at above older ⊢
    omega

/-- The watermark of a board never falls over any sequence of polls; a board that was not read, or
not to its end, keeps it; and behind a complete page the next filter passes exactly what is later
than both the old watermark and one second before the newest item. -/
theorem poll_watermark_discipline (id : ProjectId) :
    (∀ first last, Relation.ReflTransGen PollMove first last →
      first.watermark id ≤ last.watermark id) ∧
    ∀ (provider : Provider) (watermarks : Watermarks) (pass : PollPass) (before after : Database),
      (pollOnce watermarks).Runs (portsOf provider) before (.ok pass) after →
      ((∀ page, pageShown provider before id = some page → page.truncated = true) →
        pass.watermarks.watermark id = watermarks.watermark id) ∧
      ∀ page newest, pageShown provider before id = some page → page.truncated = false →
        (∃ item ∈ page.items, item.updatedAt = newest) →
        (∀ item ∈ page.items, item.updatedAt ≤ newest) →
        ∀ next item, item ∈ changedSince (pass.watermarks.watermark id) next ↔ item ∈ next ∧
          watermarks.watermark id < item.updatedAt ∧ newest.minusOneSecond < item.updatedAt := by
  refine ⟨fun first last run => ?_, fun provider watermarks pass before after ran => ⟨?_, ?_⟩⟩
  · induction run with
    | refl => exact Int.le_refl _
    | tail _ move ih =>
        refine Int.le_trans ih ?_
        cases move with
        | polled ran =>
            rw [runs_pollOnce ran id]
            exact le_nextWatermark _ _
        | failed => exact Int.le_refl _
  · intro truncated
    rw [runs_pollOnce ran id]
    cases shown : pageShown provider before id with
    | none => rfl
    | some page => rw [nextWatermark, truncated page shown, if_pos rfl]
  · intro page newest shown complete found bound next item
    rw [mem_changedSince, runs_pollOnce ran id, shown, nextWatermark_lt complete found bound]

def itemAt (seconds : Int) : RemoteProjectItem :=
  ⟨"PVTI_1", none, none, none, "t", "", false, none, [], ⟨seconds * 1000000000⟩⟩

def boardAt (seconds : Int) : Provider
  | .pollProjectItems .. => .ok ⟨[itemAt seconds], false⟩
  | _ => .error (.network "offline")

def polledAt (seconds : Int) (watermarks : Watermarks) : Except SyncError PollPass × Scene :=
  ending (boardAt seconds) .epoch (pollOnce watermarks) oneBoard

def watermarksAt (seconds : Int) (watermarks : Watermarks) : Watermarks :=
  match (polledAt seconds watermarks).1 with
  | .ok pass => pass.watermarks
  | .error _ => watermarks

theorem watermarksAt_moves (seconds : Int) (watermarks : Watermarks) :
    PollMove watermarks (watermarksAt seconds watermarks) := by
  have ran := exec_runs (portHandler_portsOf (boardAt seconds) .epoch) (pollOnce watermarks)
    ⟨oneBoard, 0⟩
  change Program.Runs _ _ _ (polledAt seconds watermarks).1 _ at ran
  rw [watermarksAt]
  cases result : (polledAt seconds watermarks).1 with
  | ok pass =>
      rw [result] at ran
      exact .polled ran
  | error error => exact .failed watermarks

/-- The newest item left the board: the next page is older than the watermark, and the newest item
of that page does not pass the filter, although it is later than one second before itself. -/
theorem older_page_keeps_watermark :
    PollMove [] (watermarksAt 11 []) ∧
    PollMove (watermarksAt 11 []) (watermarksAt 10 (watermarksAt 11 [])) ∧
    (polledAt 10 (watermarksAt 11 [])).1.isOk = true ∧
    pageShown (boardAt 10) oneBoard ⟨"PVT_1"⟩ = some ⟨[itemAt 10], false⟩ ∧
    (itemAt 10).updatedAt.minusOneSecond < (itemAt 10).updatedAt ∧
    itemAt 10 ∉ changedSince
      ((watermarksAt 10 (watermarksAt 11 [])).watermark ⟨"PVT_1"⟩) [itemAt 10] :=
  ⟨watermarksAt_moves 11 [], watermarksAt_moves 10 _, by decide, by decide, by decide,
    by decide⟩

end ProjectPoller

end RepoLink
