import RepoLink.Embed.Prepare
import RepoLink.Library.Triples

/-!
The model cache while any number of processes prepare profiles at once, with downloads that may
hold anything: a profile's directory stays as it was found, or it is there whole and verified.
-/

namespace RepoLink

open Effects Program Relation

namespace Prepare

variable {Content : Type} {sha256 : Content → String} {profiles : List ProfileManifest}

/-- A process that prepares a profile. -/
structure Preparer where
  manifest : ProfileManifest
  pid : Nat
  nonce : Nat

def Preparer.tmp (preparer : Preparer) : String :=
  String.ofList (stagingDir preparer.manifest.profileId preparer.pid preparer.nonce)

/-- Manifests whose ids are digests of them. -/
structure Pinned (profiles : List ProfileManifest) : Prop where
  ids : ∀ left ∈ profiles, ∀ right ∈ profiles, left.profileId = right.profileId → left = right
  digests : ∀ manifest ∈ profiles, manifest.profileId.toList.length = 64 ∧
    ∀ char ∈ manifest.profileId.toList, char ∈ "0123456789abcdef".toList
  files : ∀ manifest ∈ profiles, (manifest.artifacts.map ManifestArtifact.filename).Nodup

theorem Pinned.component (pinned : Pinned profiles) {manifest : ProfileManifest}
    (member : manifest ∈ profiles) : isPathComponent manifest.profileId = true := by
  obtain ⟨length, digits⟩ := pinned.digests manifest member
  have other : ∀ text : String, text.toList.length ≠ 64 → manifest.profileId ≠ text :=
    fun text short same => short (same ▸ length)
  have noSlash : '/' ∉ manifest.profileId.toList := fun slash => absurd (digits _ slash) (by decide)
  have filled : manifest.profileId.isEmpty = false := by
    rw [← Bool.not_eq_true, String.isEmpty_iff]
    exact other "" (by decide)
  have notDot := other "." (by decide)
  have notDots := other ".." (by decide)
  simp only [isPathComponent, filled, Bool.not_false, Bool.true_and, Bool.and_eq_true,
    Bool.not_eq_true', decide_eq_true_eq]
  exact ⟨⟨by simpa using noSlash, notDot⟩, notDots⟩

theorem Pinned.tmp_ne (pinned : Pinned profiles) {manifest : ProfileManifest}
    (member : manifest ∈ profiles) (preparer : Preparer) : manifest.profileId ≠ preparer.tmp := by
  intro same
  have first : '.' ∈ ".tmp-prepare-".toList := by decide
  have dot : '.' ∈ manifest.profileId.toList := by
    rw [same, Preparer.tmp, String.toList_ofList]
    exact List.mem_append_left _ (List.mem_append_left _ (List.mem_append_left _ first))
  exact absurd ((pinned.digests manifest member).2 _ dot) (by decide)

theorem cut_at_last {left right first second : List Char} {mark : Char} (plainFirst : mark ∉ first)
    (plainSecond : mark ∉ second) (same : left ++ mark :: first = right ++ mark :: second) :
    left = right ∧ first = second := by
  have aligned : ∀ {left right first second : List Char}, mark ∉ first →
      left ++ mark :: first = right ++ mark :: second → ∀ between, right = left ++ between →
      between = [] := by
    intro left right first second plain same between split
    cases between with
    | nil => rfl
    | cons char rest =>
        rw [split, List.append_assoc, List.append_cancel_left_eq, List.cons_append,
          List.cons.injEq] at same
        exact absurd (same.2 ▸ List.mem_append_right _ List.mem_cons_self) plain
  rcases List.append_eq_append_iff.mp same with ⟨between, split, _⟩ | ⟨between, split, _⟩
  · rw [aligned plainFirst same between split, List.append_nil] at split
    subst split
    exact ⟨rfl, (List.cons.inj (List.append_cancel_left same)).2⟩
  · rw [aligned plainSecond same.symm between split, List.append_nil] at split
    subst split
    exact ⟨rfl, (List.cons.inj (List.append_cancel_left same)).2⟩

theorem dash_not_digit (value : Nat) : '-' ∉ Nat.toDigits 10 value := fun member =>
  absurd (Nat.isDigit_of_mem_toDigits (by decide) (by decide) member) (by decide)

theorem tmp_apart {one other : Preparer} (apart : one.pid ≠ other.pid) : one.tmp ≠ other.tmp := by
  intro same
  have names := String.ofList_injective same
  unfold stagingDir at names
  obtain ⟨front, _⟩ := cut_at_last (dash_not_digit _) (dash_not_digit _) names
  obtain ⟨_, digits⟩ := cut_at_last (dash_not_digit _) (dash_not_digit _) front
  have values := congrArg (Nat.ofDigitChars 10 · 0) digits
  simp only [Nat.ofDigitChars_ten_toDigits] at values
  exact apart values

def SameBut (dir : String) (before after : ModelCache Content) : Prop :=
  ∀ other, other ≠ dir → after.dirs other = before.dirs other

def ModelCache.moved (cache : ModelCache Content) (source target : String)
    (files : String → Option Content) : ModelCache Content :=
  ⟨Function.update (Function.update cache.dirs source none) target (some files)⟩

@[simp] theorem moved_target (cache : ModelCache Content) (source target : String)
    (files : String → Option Content) : (cache.moved source target files).dirs target = some files :=
  Function.update_self ..

theorem moved_other {cache : ModelCache Content} {source target dir : String}
    {files : String → Option Content} (notSource : dir ≠ source) (notTarget : dir ≠ target) :
    (cache.moved source target files).dirs dir = cache.dirs dir :=
  (Function.update_of_ne notTarget ..).trans (Function.update_of_ne notSource ..)

/-- What a call may do to the cache. The hub may answer anything, a copy may leave anything in its
file, and a directory that is removed may be left in part. -/
def meaning (sha256 : Content → String) (preparer : Preparer) :
    Semantics preparePorts (ModelCache Content)
  | .dirExists dir, before, answer, after => after = before ∧ answer = (before.dirs dir).isSome
  | .sha256File place, before, answer, after => after = before ∧
    ∀ digest dir filename, answer = .ok digest → place = .cached dir filename →
      ∃ files content, before.dirs dir = some files ∧ files filename = some content ∧
        sha256 content = digest
  | .createRoot, before, _, after => after = before
  | .stamp, before, answer, after => after = before ∧ answer = (preparer.pid, preparer.nonce)
  | .removeDirAll dir, before, answer, after =>
    SameBut dir before after ∧ (answer = .ok () → after.dirs dir = none)
  | .createDir dir, before, answer, after =>
    SameBut dir before after ∧ (answer = .ok () → (after.dirs dir).isSome)
  | .openHub, before, _, after => after = before
  | .fetch _, before, _, after => after = before
  | .copy _ dir filename, before, _, after => SameBut dir before after ∧
    ∀ files, before.dirs dir = some files → ∃ changed, after.dirs dir = some changed ∧
      ∀ other, other ≠ filename → changed other = files other
  | .rename source target, before, answer, after =>
    (after = before ∧ ∃ error, answer = .error error) ∨
      answer = .ok () ∧ ∃ files, before.dirs source = some files ∧
        (∀ old, before.dirs target = some old → ∀ filename, old filename = none) ∧
        after = before.moved source target files

def Has (sha256 : Content → String) (files : String → Option Content)
    (artifact : ManifestArtifact) : Prop :=
  ∃ content, files artifact.filename = some content ∧ sha256 content = artifact.sha256

def Holds (sha256 : Content → String) (artifacts : List ManifestArtifact)
    (dir : Option (String → Option Content)) : Prop :=
  ∃ files, dir = some files ∧ ∀ artifact ∈ artifacts, Has sha256 files artifact

theorem verifyCached_of_holds (pinned : Pinned profiles) {manifest : ProfileManifest}
    (member : manifest ∈ profiles) {cache : ModelCache Content}
    (holds : Holds sha256 manifest.artifacts (cache.dirs manifest.profileId)) :
    verifyCached sha256 manifest cache = true := by
  obtain ⟨files, there, all⟩ := holds
  simp only [verifyCached, there, Option.bind_some, Bool.and_eq_true, List.all_eq_true,
    Option.any_eq_true, decide_eq_true_eq]
  exact ⟨pinned.component member, all⟩

def Improved (sha256 : Content → String) (manifest : ProfileManifest)
    (before after : ModelCache Content) : Prop :=
  after.dirs manifest.profileId = before.dirs manifest.profileId ∨
    Holds sha256 manifest.artifacts (after.dirs manifest.profileId)

theorem Improved.trans {manifest : ProfileManifest} {first middle last : ModelCache Content}
    (one : Improved sha256 manifest first middle) (two : Improved sha256 manifest middle last) :
    Improved sha256 manifest first last := by
  rcases two with same | verified
  · unfold Improved
    rwa [same]
  · exact .inr verified

theorem Improved.holds {manifest : ProfileManifest} {before after : ModelCache Content}
    {artifacts : List ManifestArtifact} (improved : Improved sha256 manifest before after)
    (listed : artifacts ⊆ manifest.artifacts)
    (holds : Holds sha256 artifacts (before.dirs manifest.profileId)) :
    Holds sha256 artifacts (after.dirs manifest.profileId) := by
  rcases improved with same | ⟨files, there, all⟩
  · rwa [same]
  · exact ⟨files, there, fun artifact member => all artifact (listed member)⟩

/-- A process writes to its own directory, and those of profiles it leaves or improves. -/
def discipline (sha256 : Content → String) (profiles : List ProfileManifest)
    (first : ModelCache Content) : Discipline preparePorts (ModelCache Content) Preparer where
  meaning := meaning sha256
  inv cache := ∀ manifest ∈ profiles, Improved sha256 manifest first cache
  rely preparer before after := after.dirs preparer.tmp = before.dirs preparer.tmp ∧
    ∀ manifest ∈ profiles, Improved sha256 manifest before after
  guarantee preparer before after :=
    (∀ dir, dir ≠ preparer.tmp → (∀ manifest ∈ profiles, dir ≠ manifest.profileId) →
      after.dirs dir = before.dirs dir) ∧
    ∀ manifest ∈ profiles, Improved sha256 manifest before after
  must _ _ _ := True

def together (one other : Preparer) : Prop := one.pid ≠ other.pid

theorem compatible (pinned : Pinned profiles) {first : ModelCache Content} (actor other : Preparer)
    (apart : together actor other) (before after : ModelCache Content)
    (guaranteed : (discipline sha256 profiles first).guarantee actor before after) :
    (discipline sha256 profiles first).rely other before after :=
  ⟨guaranteed.1 other.tmp (tmp_apart apart).symm
    fun _ member same => pinned.tmp_ne member other same.symm, guaranteed.2⟩

section Triples

variable {first : ModelCache Content} {preparer : Preparer} {α β ε : Type}
  {pre : ModelCache Content → Prop} {post : Except PrepareError β → ModelCache Content → Prop}

theorem stable_tmp (about : Option (String → Option Content) → Prop) :
    Stable (discipline sha256 profiles first) preparer fun cache =>
      about (cache.dirs preparer.tmp) :=
  fun _ _ step held => (congrArg about step.1).mpr held

theorem stable_holds {manifest : ProfileManifest} (member : manifest ∈ profiles)
    {artifacts : List ManifestArtifact} (listed : artifacts ⊆ manifest.artifacts) :
    Stable (discipline sha256 profiles first) preparer fun cache =>
      Holds sha256 artifacts (cache.dirs manifest.profileId) :=
  fun _ _ step held => (step.2 manifest member).holds listed held

theorem guarantee_sameBut (pinned : Pinned profiles) {before after : ModelCache Content}
    (same : SameBut preparer.tmp before after) :
    (discipline sha256 profiles first).guarantee preparer before after :=
  ⟨fun dir other _ => same dir other,
    fun _ member => .inl (same _ (pinned.tmp_ne member preparer))⟩

theorem guarantee_moved (pinned : Pinned profiles) {before : ModelCache Content}
    {files : String → Option Content} (member : preparer.manifest ∈ profiles)
    (all : ∀ artifact ∈ preparer.manifest.artifacts, Has sha256 files artifact) :
    (discipline sha256 profiles first).guarantee preparer before
      (before.moved preparer.tmp preparer.manifest.profileId files) := by
  refine ⟨fun dir own listed => moved_other own (listed _ member), fun manifest listed => ?_⟩
  by_cases same : manifest.profileId = preparer.manifest.profileId
  · cases pinned.ids manifest listed _ member same
    exact .inr ⟨files, moved_target .., all⟩
  · exact .inl (moved_other (pinned.tmp_ne listed preparer) same)

theorem inv_guarantee {before after : ModelCache Content}
    (kept : (discipline sha256 profiles first).inv before)
    (guaranteed : (discipline sha256 profiles first).guarantee preparer before after) :
    (discipline sha256 profiles first).inv after :=
  fun manifest member => (kept manifest member).trans (guaranteed.2 manifest member)

theorem triple_perform (pinned : Pinned profiles) {op : PrepareOp}
    {next : op.Answer → Preparing β} (middle : op.Answer → ModelCache Content → Prop)
    (stable : Stable (discipline sha256 profiles first) preparer pre)
    (effect : ∀ before answer after, pre before → meaning sha256 preparer op before answer after →
      SameBut preparer.tmp before after ∧ middle answer after)
    (rest : ∀ answer, Triple (discipline sha256 profiles first) preparer (middle answer)
      (next answer) post) :
    Triple (discipline sha256 profiles first) preparer pre ((perform op).bind next) post := by
  refine triple_call middle stable (fun before whole held => ⟨trivial, ?_⟩) rest
  intro answer after performed
  obtain ⟨same, reached⟩ := effect before answer after held performed
  have guaranteed := @guarantee_sameBut _ sha256 profiles first preparer pinned _ _ same
  exact ⟨inv_guarantee whole guaranteed, guaranteed, reached⟩

theorem triple_ofExcept {answer : Except ε α} {convert : ε → PrepareError}
    {next : α → Preparing β} (stable : Stable (discipline sha256 profiles first) preparer pre)
    (lenient : ∀ error cache, post (.error (convert error)) cache)
    (rest : ∀ value, answer = .ok value →
      Triple (discipline sha256 profiles first) preparer pre (next value) post) :
    Triple (discipline sha256 profiles first) preparer pre
      ((Program.ofExcept (answer.mapError convert)).bind next) post := by
  cases answer with
  | ok value => exact rest value rfl
  | error error => exact triple_fail stable fun cache _ _ => lenient error cache

def PrepareError.IsPort (error : PrepareError) : Prop := ∃ cause, error = .port cause

theorem triple_verifyArtifact (pinned : Pinned profiles) {told : ModelCache Content → Prop}
    {cacheRoot expected : String} {place : Place} {next : Unit → Preparing β}
    (stable : Stable (discipline sha256 profiles first) preparer pre)
    (stableTold : Stable (discipline sha256 profiles first) preparer told)
    (tells : ∀ cache, pre cache → (∀ dir filename, place = .cached dir filename →
      ∃ files content, cache.dirs dir = some files ∧ files filename = some content ∧
        sha256 content = expected) → told cache)
    (lenient : ∀ error cache, post (.error (.port error)) cache)
    (rest : Triple (discipline sha256 profiles first) preparer told (next ()) post) :
    Triple (discipline sha256 profiles first) preparer pre
      ((verifyArtifact cacheRoot place expected).bind next) post := by
  simp only [verifyArtifact, bind_eq, bind_assoc]
  refine triple_perform pinned (fun answer cache => answer = .ok expected → told cache)
    stable (fun before answer after held ⟨unchanged, digest⟩ => ?_) fun answer => ?_
  · subst unchanged
    exact ⟨fun _ _ => rfl, fun same => tells after held fun dir filename isPlace =>
      digest expected dir filename same isPlace⟩
  · have still : Stable (discipline sha256 profiles first) preparer
        fun cache => answer = .ok expected → told cache :=
      fun before after step held same => stableTold before after step (held same)
    refine triple_ofExcept still lenient fun actual answered => ?_
    subst answered
    split
    · next same =>
        subst same
        exact rest.mono (fun _ _ held => held rfl) fun _ _ _ reached => reached
    · exact triple_fail still fun cache _ _ => lenient _ cache

def Filled (sha256 : Content → String) (preparer : Preparer) (done : List ManifestArtifact)
    (cache : ModelCache Content) : Prop := Holds sha256 done (cache.dirs preparer.tmp)

theorem stable_filled {done : List ManifestArtifact} :
    Stable (discipline sha256 profiles first) preparer (Filled sha256 preparer done) :=
  stable_tmp (Holds sha256 done)

theorem Holds.read {done : List ManifestArtifact} {artifact : ManifestArtifact} {dir : String}
    {cache : ModelCache Content} (holds : Holds sha256 done (cache.dirs dir))
    (shown : ∃ files content, cache.dirs dir = some files ∧
      files artifact.filename = some content ∧ sha256 content = artifact.sha256) :
    Holds sha256 (done ++ [artifact]) (cache.dirs dir) := by
  obtain ⟨files, there, all⟩ := holds
  obtain ⟨found, content, same, stored, digest⟩ := shown
  cases there.symm.trans same
  refine ⟨files, there, fun old member => ?_⟩
  rcases List.mem_append.mp member with before | last
  · exact all old before
  · cases List.mem_singleton.mp last
    exact ⟨content, stored, digest⟩

theorem triple_installArtifact (pinned : Pinned profiles) {cacheRoot : String}
    {done : List ManifestArtifact} {artifact : ManifestArtifact}
    (fresh : artifact.filename ∉ done.map ManifestArtifact.filename) :
    Triple (discipline sha256 profiles first) preparer (Filled sha256 preparer done)
      (installArtifact cacheRoot preparer.tmp () artifact) fun result later => match result with
        | .ok () => Filled sha256 preparer (done ++ [artifact]) later
        | .error error => error.IsPort := by
  have lenient : ∀ error, PrepareError.IsPort (.port error) := fun error => ⟨error, rfl⟩
  unfold installArtifact
  refine triple_perform pinned (fun _ => Filled sha256 preparer done) stable_filled
    (fun before _ after held unchanged => ?_) fun answer => ?_
  · cases unchanged
    exact ⟨fun _ _ => rfl, held⟩
  refine triple_ofExcept stable_filled (fun _ _ => lenient _) fun fetched _ => ?_
  refine triple_verifyArtifact pinned stable_filled stable_filled (fun _ held _ => held)
    (fun _ _ => lenient _) ?_
  refine triple_perform pinned (fun _ => Filled sha256 preparer done) stable_filled
    (fun before _ after held ⟨same, copied⟩ => ⟨same, ?_⟩) fun answer => ?_
  · obtain ⟨files, there, all⟩ := held
    obtain ⟨changed, now, others⟩ := copied files there
    refine ⟨changed, now, fun old member => ?_⟩
    have other : old.filename ≠ artifact.filename :=
      fun same => fresh (same ▸ List.mem_map_of_mem member)
    obtain ⟨content, stored, digest⟩ := all old member
    exact ⟨content, (others _ other).trans stored, digest⟩
  refine triple_ofExcept stable_filled (fun _ _ => lenient _) fun _ _ => ?_
  rw [← bind_done (verifyArtifact _ _ _)]
  exact triple_verifyArtifact pinned stable_filled stable_filled
    (fun _ held shown => Holds.read held (shown _ _ rfl)) (fun _ _ => lenient _)
    (triple_done stable_filled fun _ _ held => held)

def Ends {α : Type} (sha256 : Content → String) (manifest : ProfileManifest)
    (result : Except PrepareError α) (cache : ModelCache Content) : Prop :=
  match result with
  | .error (.port _) => True
  | _ => Holds sha256 manifest.artifacts (cache.dirs manifest.profileId)

theorem stable_ends {manifest : ProfileManifest} (member : manifest ∈ profiles)
    (result : Except PrepareError α) :
    Stable (discipline sha256 profiles first) preparer (Ends sha256 manifest result) := by
  match result with
  | .error (.port _) => exact fun _ _ _ _ => trivial
  | .error (.alreadyPrepared ..) => exact stable_holds member (List.Subset.refl _)
  | .ok _ => exact stable_holds member (List.Subset.refl _)

/-- What an install may tell: of a profile that is there already it says nothing. -/
def Settled (sha256 : Content → String) (manifest : ProfileManifest)
    (result : Except PrepareError String) (cache : ModelCache Content) : Prop :=
  match result with
  | .ok _ => Holds sha256 manifest.artifacts (cache.dirs manifest.profileId)
  | .error error => error.IsPort

theorem triple_install (pinned : Pinned profiles) (member : preparer.manifest ∈ profiles)
    {cacheRoot : String} :
    Triple (discipline sha256 profiles first) preparer (Filled sha256 preparer [])
      (install cacheRoot preparer.tmp preparer.manifest) (Settled sha256 preparer.manifest) := by
  have distinct := pinned.files preparer.manifest member
  unfold install
  refine Triple.bind (fun _ => Filled sha256 preparer preparer.manifest.artifacts) ?_
    (fun _ _ _ _ held => held) fun _ => ?_
  · refine triple_foldEach (fun done _ => Filled sha256 preparer done)
      (fun done _ => stable_tmp fun dir =>
        ∃ files, dir = some files ∧ ∀ artifact ∈ done, Has sha256 files artifact)
      (fun _ _ _ _ held => held) (fun done artifact rest _ whole => ?_)
      (fun _ _ _ held => held) (List.nil_append _).symm
    rw [whole, List.map_append, List.map_cons] at distinct
    have fresh : artifact.filename ∉ done.map ManifestArtifact.filename := fun twice =>
      (List.nodup_append.mp distinct).2.2 _ twice _ List.mem_cons_self rfl
    refine (triple_installArtifact pinned fresh).mono (fun _ _ held => held)
      fun result _ _ reached => ?_
    cases result with
    | ok value => exact reached
    | error error => exact reached
  · refine triple_call (fun answer cache => answer = .ok () →
        Holds sha256 preparer.manifest.artifacts (cache.dirs preparer.manifest.profileId))
      stable_filled (fun before whole ⟨files, there, all⟩ => ⟨trivial, ?_⟩) fun answer => ?_
    · rintro answer after (⟨rfl, error, rfl⟩ | ⟨rfl, moved, source, _, rfl⟩)
      · exact ⟨whole, guarantee_sameBut pinned fun _ _ => rfl, fun failed => nomatch failed⟩
      · cases there.symm.trans source
        have guaranteed := @guarantee_moved _ sha256 profiles first preparer pinned before files
          member all
        exact ⟨inv_guarantee whole guaranteed, guaranteed, fun _ => ⟨files, moved_target .., all⟩⟩
    · have stable : Stable (discipline sha256 profiles first) preparer fun cache =>
          answer = .ok () →
            Holds sha256 preparer.manifest.artifacts (cache.dirs preparer.manifest.profileId) :=
        fun before after step held moved =>
          stable_holds member (List.Subset.refl _) before after step (held moved)
      refine triple_ofExcept stable (fun error _ => ⟨_, rfl⟩) fun _ moved => ?_
      exact triple_done stable fun _ _ held => held moved

theorem triple_recheck (pinned : Pinned profiles) (member : preparer.manifest ∈ profiles)
    {cacheRoot : String} :
    Triple (discipline sha256 profiles first) preparer
      (fun cache => (cache.dirs preparer.manifest.profileId).isSome)
      (recheck cacheRoot preparer.manifest) (Ends sha256 preparer.manifest) := by
  have loop : Triple (discipline sha256 profiles first) preparer
      (fun cache => [] ⊆ preparer.manifest.artifacts →
        Holds sha256 [] (cache.dirs preparer.manifest.profileId))
      (Program.foldEach (fun _ artifact => verifyArtifact cacheRoot
        (.cached preparer.manifest.profileId artifact.filename) artifact.sha256)
        preparer.manifest.artifacts ()) (Ends sha256 preparer.manifest) := by
    refine triple_foldEach (fun done _ cache => done ⊆ preparer.manifest.artifacts →
        Holds sha256 done (cache.dirs preparer.manifest.profileId))
      (fun done _ before after step held listed =>
        stable_holds member listed before after step (held listed))
      (fun error => stable_ends member _) (fun done artifact rest _ whole => ?_)
      (fun _ cache _ (held : _ → Holds sha256 _ (cache.dirs _)) => held (List.Subset.refl _))
      (List.nil_append _).symm
    have split : preparer.manifest.artifacts = (done ++ [artifact]) ++ rest := by
      rw [whole, List.append_assoc, List.singleton_append]
    have listed : done ++ [artifact] ⊆ preparer.manifest.artifacts :=
      split ▸ List.subset_append_left _ _
    have before : done ⊆ preparer.manifest.artifacts :=
      List.Subset.trans (List.subset_append_left _ _) listed
    rw [← bind_done (verifyArtifact _ _ _)]
    refine (triple_verifyArtifact pinned (stable_holds member before) (stable_holds member listed)
      (fun _ held shown => Holds.read held (shown _ _ rfl)) (fun _ _ => trivial)
      (triple_done (stable_holds member listed) fun _ _ held _ => held)).mono
      (fun _ _ held => held before) fun _ _ _ reached => reached
  refine Triple.bind (fun _ cache => Holds sha256 preparer.manifest.artifacts
      (cache.dirs preparer.manifest.profileId)) (loop.mono (fun cache _ there _ => ?_)
      fun result _ _ reached => ?_) (fun error => stable_ends member _)
    fun _ => triple_fail (stable_holds member (List.Subset.refl _)) fun _ _ held => held
  · obtain ⟨files, there⟩ := Option.isSome_iff_exists.mp there
    exact ⟨files, there, fun _ listed => (List.not_mem_nil listed).elim⟩
  · match result, reached with
    | .ok _, there => exact there
    | .error (.alreadyPrepared ..), there => exact there
    | .error (.port _), _ => trivial

theorem triple_cleanUp (pinned : Pinned profiles) (member : preparer.manifest ∈ profiles)
    (result : Except PrepareError String) :
    Triple (discipline sha256 profiles first) preparer (Settled sha256 preparer.manifest result)
      (cleanUp preparer.tmp result) (Ends sha256 preparer.manifest) := by
  cases result with
  | ok path =>
      exact triple_done (stable_holds member (List.Subset.refl _)) fun _ _ held => held
  | error error =>
      rintro cache whole ⟨cause, rfl⟩
      have failed : ∀ later : ModelCache Content, Ends sha256 preparer.manifest
          (.error (.port cause) : Except PrepareError String) later := fun _ => trivial
      suffices Triple (discipline sha256 profiles first) preparer (fun _ => True)
          (cleanUp preparer.tmp (.error (.port cause))) (Ends sha256 preparer.manifest) from
        this cache whole trivial
      refine triple_perform pinned (fun _ _ => True) stable_true
        (fun before answer after _ ⟨unchanged, _⟩ => ?_) fun answer => ?_
      · subst unchanged
        exact ⟨fun _ _ => rfl, trivial⟩
      · split
        · exact triple_perform pinned (fun _ _ => True) stable_true
            (fun _ _ _ _ ⟨same, _⟩ => ⟨same, trivial⟩)
            fun _ => triple_fail stable_true fun later _ _ => failed later
        · exact triple_fail stable_true fun later _ _ => failed later

theorem triple_clearStale (pinned : Pinned profiles) {next : Unit → Preparing β}
    (lenient : ∀ error cache, post (.error (.port error)) cache)
    (rest : Triple (discipline sha256 profiles first) preparer (fun _ => True) (next ()) post) :
    Triple (discipline sha256 profiles first) preparer (fun _ => True)
      ((clearStale preparer.tmp).bind next) post := by
  simp only [clearStale, bind_eq, bind_assoc]
  refine triple_perform pinned (fun _ _ => True) stable_true
    (fun before answer after _ ⟨unchanged, _⟩ => ?_) fun answer => ?_
  · subst unchanged
    exact ⟨fun _ _ => rfl, trivial⟩
  · split
    · refine triple_perform pinned (fun _ _ => True) stable_true
        (fun _ _ _ _ ⟨same, _⟩ => ⟨same, trivial⟩) fun cleared => ?_
      exact triple_ofExcept stable_true (fun _ _ => lenient _ _) fun _ _ => rest
    · exact rest

theorem triple_stageAndInstall (pinned : Pinned profiles) (member : preparer.manifest ∈ profiles)
    {cacheRoot : String} :
    Triple (discipline sha256 profiles first) preparer (fun _ => True)
      (stageAndInstall cacheRoot preparer.manifest) (Ends sha256 preparer.manifest) := by
  have quiet : ∀ before after : ModelCache Content, after = before →
      SameBut preparer.tmp before after ∧ True := fun _ _ same => ⟨fun _ _ => same ▸ rfl, trivial⟩
  unfold stageAndInstall
  refine Triple.bind (fun _ _ => True) ?_ (fun error => stable_ends member _) fun _ => ?_
  · refine triple_foldEach (fun _ _ _ => True) (fun _ _ => stable_true)
      (fun error => by exact stable_ends (α := String) member (.error error))
      (fun _ artifact _ _ _ => ?_) (fun _ _ _ _ => trivial) (List.nil_append _).symm
    unfold require
    rw [← bind_done (Program.ofExcept _)]
    exact triple_ofExcept stable_true (fun _ _ => trivial)
      fun _ _ => triple_done stable_true fun _ _ _ => trivial
  refine triple_perform pinned (fun _ _ => True) stable_true
    (fun before _ after _ unchanged => quiet before after unchanged) fun answer => ?_
  refine triple_ofExcept stable_true (fun _ _ => trivial) fun _ _ => ?_
  refine triple_perform pinned (fun answer _ => answer = (preparer.pid, preparer.nonce))
    stable_true (fun before answer after _ ⟨unchanged, stamped⟩ =>
      ⟨(quiet before after unchanged).1, stamped⟩) fun stamp => ?_
  rintro cache whole rfl
  suffices Triple (discipline sha256 profiles first) preparer (fun _ => True) _ _ from
    this cache whole trivial
  refine triple_clearStale pinned (fun _ _ => trivial) ?_
  refine triple_perform pinned
    (fun answer cache => answer = .ok () → (cache.dirs preparer.tmp).isSome) stable_true
    (fun _ _ _ _ ⟨same, made⟩ => ⟨same, made⟩) fun made => ?_
  have stays : Stable (discipline sha256 profiles first) preparer fun cache =>
      made = .ok () → (cache.dirs preparer.tmp).isSome :=
    stable_tmp fun dir => made = .ok () → dir.isSome
  refine triple_ofExcept stays (fun _ _ => trivial) fun _ succeeded => ?_
  refine triple_perform pinned
    (fun _ cache => made = .ok () → (cache.dirs preparer.tmp).isSome) stays
    (fun before _ after held unchanged => ⟨(quiet before after unchanged).1, unchanged ▸ held⟩)
    fun opened => triple_ofExcept stays (fun _ _ => trivial) fun _ _ => ?_
  have installed : Triple (discipline sha256 profiles first) preparer (Filled sha256 preparer [])
      (install cacheRoot preparer.tmp preparer.manifest).attempt
      (fun result later => match result with
        | .ok value => Settled sha256 preparer.manifest value later
        | .error error =>
            Ends sha256 preparer.manifest (.error error : Except PrepareError String) later) :=
    Triple.attempt (triple_install pinned member)
  refine Triple.bind (Settled sha256 preparer.manifest) (installed.mono (fun later _ held => ?_)
    fun result _ _ reached => ?_) (fun error => stable_ends member _)
    (triple_cleanUp pinned member)
  · obtain ⟨files, there⟩ := Option.isSome_iff_exists.mp (held succeeded)
    exact ⟨files, there, fun _ listed => (List.not_mem_nil listed).elim⟩
  · cases result with
    | ok value => exact reached
    | error error => exact reached

theorem triple_prepare (pinned : Pinned profiles) (member : preparer.manifest ∈ profiles)
    {cacheRoot : String} :
    Triple (discipline sha256 profiles first) preparer (fun _ => True)
      (prepare cacheRoot preparer.manifest) (Ends sha256 preparer.manifest) := by
  unfold prepare
  refine triple_ofExcept stable_true (fun _ _ => trivial) fun _ _ => ?_
  refine triple_perform pinned (fun answer cache => answer = true →
    (cache.dirs preparer.manifest.profileId).isSome) stable_true
    (fun before answer after _ ⟨unchanged, told⟩ => ?_) fun answer => ?_
  · subst unchanged
    exact ⟨fun _ _ => rfl, fun present => told ▸ present⟩
  · cases answer with
    | true =>
        exact (triple_recheck pinned member).mono (fun _ _ held => held rfl) fun _ _ _ ends => ends
    | false =>
        exact (triple_stageAndInstall pinned member).mono (fun _ _ _ => trivial)
          fun _ _ _ ends => ends

theorem triple_ends (member : preparer.manifest ∈ profiles) {program : Preparing α}
    (triple : Triple (discipline sha256 profiles first) preparer pre program
      (Ends sha256 preparer.manifest)) :
    Triple (discipline sha256 profiles first) preparer pre (program.bind fun _ => .done ())
      (Ends sha256 preparer.manifest) := by
  have stable := @stable_holds _ sha256 profiles first preparer _ member
    preparer.manifest.artifacts (List.Subset.refl _)
  refine Triple.bind
    (fun _ cache => Holds sha256 preparer.manifest.artifacts
      (cache.dirs preparer.manifest.profileId))
    (triple.mono (fun _ _ held => held) fun result _ _ ended => ?_)
    (fun error => stable_ends member _) fun _ => triple_done stable fun _ _ held => held
  match result, ended with
  | .ok _, there => exact there
  | .error (.alreadyPrepared ..), there => exact there
  | .error (.port _), _ => trivial

end Triples

def begins (cacheRoot : String) (profiles : List ProfileManifest) (_ : ModelCache Content)
    (proc : Proc preparePorts PrepareError Preparer) : Prop :=
  proc.kind.manifest ∈ profiles ∧
    proc.program = (prepare cacheRoot proc.kind.manifest).bind fun _ => .done ()

def EndsListed (sha256 : Content → String) (profiles : List ProfileManifest) (preparer : Preparer)
    (result : Except PrepareError Unit) (cache : ModelCache Content) : Prop :=
  preparer.manifest ∈ profiles ∧ Ends sha256 preparer.manifest result cache

/-- A process that is over and reports its profile as prepared, now or before. -/
def reportsPrepared : Preparing Unit → Bool
  | .done _ => true
  | .fail (.alreadyPrepared ..) => true
  | _ => false

/-- Whatever processes prepare profiles at once, wherever one crashes and whatever is downloaded:
each directory of a profile is as it was found or verified, what was installed stays installed, and
a profile that is reported as prepared is verified. -/
theorem prepared_whole (pinned : Pinned profiles) {cacheRoot : String}
    {cache : ModelCache Content} {last : Pool preparePorts (ModelCache Content) PrepareError Preparer}
    (run : Pool.Run (discipline sha256 profiles cache) together (begins cacheRoot profiles)
      ⟨cache, []⟩ last) :
    (∀ manifest ∈ profiles, (last.shared.dirs manifest.profileId).isSome →
      last.shared.dirs manifest.profileId = cache.dirs manifest.profileId ∨
        verifyCached sha256 manifest last.shared = true) ∧
    (∀ manifest ∈ profiles, (cache.dirs manifest.profileId).isSome →
      (last.shared.dirs manifest.profileId).isSome) ∧
    ∀ proc ∈ last.procs, reportsPrepared proc.program = true →
      verifyCached sha256 proc.kind.manifest last.shared = true := by
  have triples : ∀ (shared : ModelCache Content) proc, begins cacheRoot profiles shared proc →
      Triple (discipline sha256 profiles cache) proc.kind (fun _ => True) proc.program
        (EndsListed sha256 profiles proc.kind) := by
    intro shared proc begun
    rw [begun.2]
    exact (triple_ends begun.1 (triple_prepare pinned begun.1)).mono (fun _ _ held => held)
      fun _ _ _ ended => ⟨begun.1, ended⟩
  have sound := Pool.triple_run
    (fun actor other apart before after _ _ => compatible pinned actor other apart before after)
    triples (fun _ _ => .inl rfl) run
  refine ⟨fun manifest member _ => ?_, fun manifest member present => ?_,
    fun proc member reported => ?_⟩
  · exact (sound.inv manifest member).imp_right (verifyCached_of_holds pinned member)
  · rcases sound.inv manifest member with same | ⟨files, there, _⟩
    · rwa [same]
    · rw [there]
      rfl
  · have safe := sound.safe proc member
    match ended : proc.program, reported with
    | .done _, _ =>
        rw [ended] at safe
        obtain ⟨listed, there⟩ := safe _ .refl sound.inv
        exact verifyCached_of_holds pinned listed there
    | .fail (.alreadyPrepared ..), _ =>
        rw [ended] at safe
        obtain ⟨listed, there⟩ := safe _ .refl sound.inv
        exact verifyCached_of_holds pinned listed there

section Race

def selfDigest (content : String) : String := content

def honestHandler (pid nonce : Nat) : Handler preparePorts (ModelCache String)
  | .dirExists dir, cache => ((cache.dirs dir).isSome, cache)
  | .sha256File (.cached dir filename), cache =>
    (((cache.dirs dir).bind fun files => files filename).elim
      (.error (.backend ("open " ++ filename))) .ok, cache)
  | .sha256File (.hub path), cache => (.ok path, cache)
  | .createRoot, cache => (.ok (), cache)
  | .stamp, cache => ((pid, nonce), cache)
  | .removeDirAll dir, cache => (.ok (), ⟨Function.update cache.dirs dir none⟩)
  | .createDir dir, cache =>
    (.ok (), ⟨Function.update cache.dirs dir (some ((cache.dirs dir).getD fun _ => none))⟩)
  | .openHub, cache => (.ok (), cache)
  | .fetch filename, cache =>
    (((profile.artifacts.find? fun artifact => artifact.filename = filename).map
      ManifestArtifact.sha256).elim (.error "not found") .ok, cache)
  | .copy path dir filename, cache =>
    (.ok (), ⟨Function.update cache.dirs dir
      ((cache.dirs dir).map fun files => Function.update files filename (some path))⟩)
  | .rename source target, cache =>
    match cache.dirs source, cache.dirs target with
    | some files, none => (.ok (), cache.moved source target files)
    | _, _ => (.error "Directory not empty", cache)

theorem honestHandler_means (preparer : Preparer) (op : PrepareOp) (cache : ModelCache String)
    (_ : true = true) :
    meaning selfDigest preparer op cache (honestHandler preparer.pid preparer.nonce op cache).1
      (honestHandler preparer.pid preparer.nonce op cache).2 := by
  cases op with
  | dirExists dir => exact ⟨rfl, rfl⟩
  | sha256File place =>
      cases place with
      | hub path => exact ⟨rfl, fun _ _ _ _ isPlace => nomatch isPlace⟩
      | cached dir filename =>
          refine ⟨rfl, fun digest _ _ answered isPlace => ?_⟩
          cases isPlace
          cases there : cache.dirs dir with
          | none => simp [honestHandler, there] at answered
          | some files =>
              cases stored : files filename with
              | none => simp [honestHandler, there, stored] at answered
              | some content =>
                  simp only [honestHandler, there, Option.bind_some, stored, Option.elim_some,
                    Except.ok.injEq] at answered
                  exact ⟨files, content, rfl, stored, answered⟩
  | createRoot => exact rfl
  | stamp => exact ⟨rfl, rfl⟩
  | removeDirAll dir =>
      exact ⟨fun _ other => Function.update_of_ne other .., fun _ => Function.update_self ..⟩
  | createDir dir =>
      refine ⟨fun _ other => Function.update_of_ne other .., fun _ => ?_⟩
      simp [honestHandler]
  | openHub => exact rfl
  | fetch filename => exact rfl
  | copy path dir filename =>
      refine ⟨fun _ other => Function.update_of_ne other .., fun files there => ?_⟩
      refine ⟨Function.update files filename (some path), ?_,
        fun _ other => Function.update_of_ne other ..⟩
      simp [honestHandler, there]
  | rename source target =>
      cases from' : cache.dirs source with
      | none => exact .inl (by simp [honestHandler, from'])
      | some files =>
          cases onto : cache.dirs target with
          | none => exact .inr (by simp [honestHandler, from', onto])
          | some old => exact .inl (by simp [honestHandler, from', onto])

theorem profile_pinned : Pinned [profile] where
  ids left inLeft right inRight _ :=
    (List.mem_singleton.mp inLeft).trans (List.mem_singleton.mp inRight).symm
  digests manifest member := by
    cases List.mem_singleton.mp member
    refine ⟨by decide +kernel, fun char inside => ?_⟩
    have digits : (profile.profileId.toList.all fun char =>
        "0123456789abcdef".toList.contains char) = true := by decide +kernel
    exact List.contains_iff_mem.mp (List.all_eq_true.mp digits char inside)
  files manifest member := by
    cases List.mem_singleton.mp member
    decide +kernel

def preparer (pid : Nat) : Preparer := ⟨profile, pid, 7⟩

def preparation : Preparing Unit := (prepare "cache" profile).bind fun _ => .done ()

def emptyCache : ModelCache String := ⟨fun _ => none⟩

def staged : Preparing Unit × ModelCache String :=
  preparation.advance (honestHandler 1 7) 18 emptyCache

def overtaken : Preparing Unit × ModelCache String :=
  preparation.advance (honestHandler 2 7) 30 staged.2

def raced : Preparing Unit × ModelCache String :=
  staged.1.advance (honestHandler 1 7) 30 overtaken.2

theorem race_runs :
    Pool.Run (discipline selfDigest [profile] emptyCache) together (begins "cache" [profile])
      ⟨emptyCache, []⟩ ⟨raced.2, [⟨preparer 2, overtaken.1⟩, ⟨preparer 1, raced.1⟩]⟩ := by
  have first := @Pool.run_started _ _ _ _ (discipline selfDigest [profile] emptyCache) together
    (begins "cache" [profile]) _ (fun _ _ => true) (honestHandler 1 7) id ⟨preparer 1, preparation⟩ []
    emptyCache 18 (honestHandler_means (preparer 1)) ⟨List.mem_singleton.mpr rfl, rfl⟩
    (fun _ member => (List.not_mem_nil member).elim) (by decide +kernel)
  have second := @Pool.run_started _ _ _ _ (discipline selfDigest [profile] emptyCache) together
    (begins "cache" [profile]) _ (fun _ _ => true) (honestHandler 2 7) id ⟨preparer 2, preparation⟩
    [⟨preparer 1, staged.1⟩] staged.2 30 (honestHandler_means (preparer 2))
    ⟨List.mem_singleton.mpr rfl, rfl⟩ (fun other member => by
      cases List.mem_singleton.mp member
      exact ⟨(by decide : 2 ≠ 1), (by decide : 1 ≠ 2)⟩) (by decide +kernel)
  have third := @Pool.run_advances _ _ _ _ (discipline selfDigest [profile] emptyCache) together
    (begins "cache" [profile]) _ (fun _ _ => true) (honestHandler 1 7) id (preparer 1)
    [⟨preparer 2, overtaken.1⟩] [] (honestHandler_means (preparer 1)) 30 staged.1 overtaken.2
    (by decide +kernel)
  exact (first.trans second).trans third

def returned : Preparing Unit × ModelCache String :=
  preparation.advance (honestHandler 3 7) 30 raced.2

theorem race_returns :
    Pool.Run (discipline selfDigest [profile] emptyCache) together (begins "cache" [profile])
      ⟨raced.2, [⟨preparer 2, overtaken.1⟩, ⟨preparer 1, raced.1⟩]⟩
      ⟨returned.2, [⟨preparer 3, returned.1⟩, ⟨preparer 2, overtaken.1⟩, ⟨preparer 1, raced.1⟩]⟩ :=
  @Pool.run_started _ _ _ _ (discipline selfDigest [profile] emptyCache) together
    (begins "cache" [profile]) _ (fun _ _ => true) (honestHandler 3 7) id ⟨preparer 3, preparation⟩
    [⟨preparer 2, overtaken.1⟩, ⟨preparer 1, raced.1⟩] raced.2 30 (honestHandler_means (preparer 3))
    ⟨List.mem_singleton.mpr rfl, rfl⟩ (fun other member => by
      rcases List.mem_cons.mp member with rfl | member
      · exact ⟨(by decide : 3 ≠ 2), (by decide : 2 ≠ 3)⟩
      · cases List.mem_singleton.mp member
        exact ⟨(by decide : 3 ≠ 1), (by decide : 1 ≠ 3)⟩) (by decide +kernel)

theorem prepared_whole_race : reportsPrepared overtaken.1 = true ∧
    reportsPrepared raced.1 = false ∧ reportsPrepared returned.1 = true ∧
    (raced.2.dirs (preparer 1).tmp).isSome = false ∧
    verifyCached selfDigest profile returned.2 = true :=
  ⟨by decide +kernel, by decide +kernel, by decide +kernel, by decide +kernel,
    (prepared_whole profile_pinned (race_runs.trans race_returns)).2.2 ⟨preparer 3, returned.1⟩
      List.mem_cons_self (by decide +kernel)⟩

end Race

end Prepare

end RepoLink
