import Mathlib.Data.Finset.Card
import Mathlib.Order.Interval.Finset.Nat
import RepoLink.RepoBindings.Origins

/-!
Prefix allocation succeeds. The suffixes of six digits leave the same stem of the base, so they
give pairwise distinct candidates, more than there are prefixes taken.
-/

namespace RepoLink

open KeyedTable

namespace OriginBook

variable {origin : OriginRow} {book : OriginBook}

def takenPrefixes (id : RepoOriginId) (book : OriginBook) : Finset String :=
  ((book.table.rows.filter fun row => row.id ≠ id ∧ row.originPrefix ≠ "").map
    fun row => row.originPrefix).toFinset

theorem mem_takenPrefixes {id : RepoOriginId} {text : String} :
    text ∈ book.takenPrefixes id ↔ ∃ other ∈ book.table.rows, other.id ≠ id ∧
      other.originPrefix = text ∧ other.originPrefix ≠ "" := by
  simp only [takenPrefixes, List.mem_toFinset, List.mem_map, List.mem_filter, decide_eq_true_eq]
  constructor
  · rintro ⟨other, ⟨member, different, isSet⟩, same⟩
    exact ⟨other, member, different, same, isSet⟩
  · rintro ⟨other, member, different, same, isSet⟩
    exact ⟨other, ⟨member, different, isSet⟩, same⟩

theorem saveOrigin_ok (urlFree : ¬book.UrlTaken origin) (prefixFree : ¬book.PrefixTaken origin) :
    ∃ after, book.saveOrigin origin = .ok after ∧ after.table = book.upserted origin := by
  unfold saveOrigin
  rw [dif_neg urlFree, dif_neg prefixFree]
  exact ⟨_, rfl, rfl⟩

theorem saveOrigin_taken (urlFree : ¬book.UrlTaken origin) (taken : book.PrefixTaken origin) :
    book.saveOrigin origin = .error (.conflict (some "repo_origins.prefix")
      "UNIQUE constraint failed: repo_origins.prefix") := by
  unfold saveOrigin
  rw [dif_neg urlFree, dif_pos taken]

theorem prefixTaken_mem (taken : book.PrefixTaken origin) :
    origin.originPrefix ∈ book.takenPrefixes origin.id := by
  exact mem_takenPrefixes.mpr taken

end OriginBook

namespace RepoBindingService

open OriginBook

section Candidates

theorem isAsciiDigit_toDigits {suffix : Nat} {char : Char}
    (member : char ∈ Nat.toDigits 10 suffix) : isAsciiDigit char = true := by
  have digit := Nat.isDigit_of_mem_toDigits (by decide) (by decide) member
  simp only [Char.isDigit, ge_iff_le, Bool.and_eq_true, decide_eq_true_eq] at digit
  simp only [isAsciiDigit, Bool.and_eq_true, decide_eq_true_eq]
  exact digit

theorem candidate_toList (base : String) (suffix : Nat) :
    (candidate base suffix).toList =
      base.toList.take (20 - (Nat.toDigits 10 suffix).length) ++ Nat.toDigits 10 suffix :=
  String.toList_ofList

theorem candidate_valid {base : String} (valid : isValidPrefix base = true) {suffix : Nat}
    (within : suffix ≤ safetyCap) : isValidPrefix (candidate base suffix) = true := by
  have short : (Nat.toDigits 10 suffix).length ≤ 7 := by
    refine (Nat.length_toDigits_le_iff (by decide) (by decide)).mpr ?_
    exact Nat.lt_of_le_of_lt within (by decide)
  have digits : ∀ char ∈ Nat.toDigits 10 suffix, isAsciiDigit char = true :=
    fun char member => isAsciiDigit_toDigits member
  simp only [isValidPrefix, candidate_toList, Bool.and_eq_true, decide_eq_true_eq,
    List.all_eq_true, Bool.or_eq_true] at valid ⊢
  generalize Nat.toDigits 10 suffix = written at short digits ⊢
  obtain ⟨⟨⟨long, bounded⟩, first⟩, others⟩ := valid
  cases chars : base.toList with
  | nil =>
      rw [chars] at long
      exact absurd long (by decide)
  | cons head rest =>
      rw [chars] at long bounded first others
      obtain ⟨room, roomEq⟩ : ∃ room, 20 - written.length = room + 1 := ⟨19 - written.length, by omega⟩
      rw [roomEq, List.take_succ_cons, List.cons_append]
      rw [List.length_cons] at long bounded
      refine ⟨⟨⟨?_, ?_⟩, first⟩, fun char member => ?_⟩
      · rw [List.length_cons, List.length_append, List.length_take]
        omega
      · rw [List.length_cons, List.length_append, List.length_take]
        omega
      · rcases List.mem_append.mp member with stem | digit
        · exact others char (List.mem_of_mem_take stem)
        · exact .inr (digits char digit)

theorem sixDigits {suffix : Nat} (lower : 100000 ≤ suffix) (upper : suffix < 1000000) :
    (Nat.toDigits 10 suffix).length = 6 := by
  have atMost := (@Nat.length_toDigits_le_iff 10 suffix 6 (by decide) (by decide)).mpr upper
  have beyond := mt (@Nat.length_toDigits_le_iff 10 suffix 5 (by decide) (by decide)).mp
    (Nat.not_lt.mpr lower)
  omega

theorem candidate_injOn (base : String) :
    Set.InjOn (candidate base) (Finset.Ico 100000 1000000) := by
  intro left inLeft right inRight same
  obtain ⟨lowerLeft, upperLeft⟩ := Finset.mem_Ico.mp (Finset.mem_coe.mp inLeft)
  obtain ⟨lowerRight, upperRight⟩ := Finset.mem_Ico.mp (Finset.mem_coe.mp inRight)
  have spelled := congrArg String.toList same
  rw [candidate_toList, candidate_toList, sixDigits lowerLeft upperLeft,
    sixDigits lowerRight upperRight] at spelled
  have digits := congrArg (Nat.ofDigitChars 10 · 0) (List.append_cancel_left spelled)
  simpa only [Nat.ofDigitChars_ten_toDigits] using digits

theorem exists_free_candidate (base : String) {taken : Finset String} (fewer : taken.card < 900000) :
    ∃ suffix, 0 < suffix ∧ suffix ≤ safetyCap ∧ candidate base suffix ∉ taken := by
  have card : ((Finset.Ico 100000 1000000).image (candidate base)).card = 900000 := by
    rw [Finset.card_image_of_injOn (candidate_injOn base), Nat.card_Ico]
  obtain ⟨text, member, free⟩ :=
    Finset.exists_mem_notMem_of_card_lt_card (Nat.lt_of_lt_of_eq fewer card.symm)
  obtain ⟨suffix, range, rfl⟩ := Finset.mem_image.mp member
  obtain ⟨lower, upper⟩ := Finset.mem_Ico.mp range
  exact ⟨suffix, by omega, Nat.le_of_lt upper, free⟩

end Candidates

theorem setPrefix_ok {now : Timestamp} {text : String} (valid : isValidPrefix text = true)
    (origin : OriginRow) :
    ∃ renamed, origin.setPrefix now text = .ok renamed ∧ renamed.id = origin.id ∧
      renamed.canonicalUrl = origin.canonicalUrl ∧ renamed.originPrefix = text := by
  unfold OriginRow.setPrefix
  rw [valid, Bool.not_true, if_neg Bool.false_ne_true]
  split
  · rename_i same
    exact ⟨origin, rfl, rfl, rfl, same⟩
  · exact ⟨_, rfl, rfl, rfl, rfl⟩

theorem retryPrefix_taken {now : Timestamp} {base message : String} {left : Nat}
    {origin renamed : OriginRow} {book : OriginBook}
    (taken : book.saveOrigin origin =
      .error (.conflict (some "repo_origins.prefix") message))
    (named : origin.setPrefix now (candidate base (safetyCap - left)) = .ok renamed) :
    retryPrefix now base (left + 1) origin book = retryPrefix now base left renamed book := by
  rw [retryPrefix, taken]
  simp only [PortError.conflictTarget, if_pos, named]

theorem retryPrefix_ok {now : Timestamp} {base : String} (validBase : isValidPrefix base = true)
    {book : OriginBook} : ∀ (left : Nat) (origin : OriginRow), left ≤ safetyCap →
      isValidPrefix origin.originPrefix = true → ¬book.UrlTaken origin →
      (¬book.PrefixTaken origin ∨ ∃ suffix, safetyCap - left < suffix ∧ suffix ≤ safetyCap ∧
        candidate base suffix ∉ book.takenPrefixes origin.id) →
      ∃ saved after, retryPrefix now base left origin book = .ok (saved, after) ∧
        after.table = book.upserted saved ∧ saved.id = origin.id ∧
        isValidPrefix saved.originPrefix = true ∧ ¬book.PrefixTaken saved ∧
        (¬book.PrefixTaken origin → saved = origin) := by
  intro left
  induction left with
  | zero =>
      intro origin _ valid urlFree free
      rcases free with prefixFree | ⟨suffix, lower, upper, _⟩
      · obtain ⟨after, saved, table⟩ := saveOrigin_ok urlFree prefixFree
        rw [retryPrefix, saved]
        exact ⟨origin, after, rfl, table, rfl, valid, prefixFree, fun _ => rfl⟩
      · omega
  | succ left ih =>
      intro origin capped valid urlFree free
      by_cases taken : book.PrefixTaken origin
      · obtain ⟨suffix, lower, upper, unowned⟩ := free.resolve_left (not_not_intro taken)
        obtain ⟨renamed, named, sameId, sameUrl, prefixEq⟩ := @setPrefix_ok now
          (candidate base (safetyCap - left)) (candidate_valid validBase (Nat.sub_le ..)) origin
        have renamedFree : ¬book.UrlTaken renamed := by
          rintro ⟨other, member, different, same⟩
          exact urlFree ⟨other, member, sameId ▸ different, same.trans sameUrl⟩
        have later : ¬book.PrefixTaken renamed ∨ ∃ suffix, safetyCap - left < suffix ∧
            suffix ≤ safetyCap ∧ candidate base suffix ∉ book.takenPrefixes renamed.id := by
          rw [sameId]
          by_cases current : suffix = safetyCap - left
          · refine .inl fun again => unowned ?_
            rw [current, ← prefixEq, ← sameId]
            exact prefixTaken_mem again
          · exact .inr ⟨suffix, by omega, upper, unowned⟩
        obtain ⟨saved, after, ran, table, savedId, savedValid, savedFree, _⟩ :=
          ih renamed (by omega) (prefixEq ▸ candidate_valid validBase (Nat.sub_le ..)) renamedFree
            later
        rw [retryPrefix_taken (saveOrigin_taken urlFree taken) named]
        exact ⟨saved, after, ran, table, savedId.trans sameId, savedValid, savedFree,
          fun prefixFree => (prefixFree taken).elim⟩
      · obtain ⟨after, saved, table⟩ := saveOrigin_ok urlFree taken
        rw [retryPrefix, saved]
        exact ⟨origin, after, rfl, table, rfl, valid, taken, fun _ => rfl⟩

/-- `save_with_unique_prefix` ends well: what it stores is valid, owned by no other origin, and
the base itself when nobody has it. -/
theorem saveWithUniquePrefix_allocates (now : Timestamp) (origin : OriginRow) (book : OriginBook)
    (valid : isValidPrefix origin.originPrefix = true)
    (fewer : (book.takenPrefixes origin.id).card < 900000) (urlFree : ¬book.UrlTaken origin) :
    ∃ saved after stored, saveWithUniquePrefix now origin book = .ok (saved, after) ∧
      after.table.find origin.id = some stored ∧
      isValidPrefix stored.originPrefix = true ∧
      stored.originPrefix ∉ after.takenPrefixes origin.id ∧
      (origin.originPrefix ∉ book.takenPrefixes origin.id →
        stored.originPrefix = origin.originPrefix) := by
  have free : ¬book.PrefixTaken origin ∨ ∃ suffix, safetyCap - safetyCap < suffix ∧
      suffix ≤ safetyCap ∧
        candidate origin.originPrefix suffix ∉ book.takenPrefixes origin.id := by
    obtain ⟨suffix, positive, upper, unowned⟩ := exists_free_candidate origin.originPrefix fewer
    exact .inr ⟨suffix, by omega, upper, unowned⟩
  obtain ⟨saved, after, ran, table, sameId, savedValid, savedFree, keeps⟩ :=
    @retryPrefix_ok now _ valid book safetyCap origin (Nat.le_refl _) valid urlFree free
  obtain ⟨stored, found, prefixEq⟩ := find_upserted saved book
  rw [sameId, ← table] at found
  refine ⟨saved, after, stored, ran, found, prefixEq ▸ savedValid, fun owned => ?_, fun unowned => ?_⟩
  · obtain ⟨other, member, different, same, isSet⟩ := mem_takenPrefixes.mp owned
    rw [table] at member
    rcases mem_upserted member with ⟨old, otherId⟩ | ⟨own, _, _⟩
    · exact savedFree ⟨other, old, otherId, same.trans prefixEq, isSet⟩
    · exact different (own.trans sameId)
  · rw [prefixEq, keeps fun taken => unowned (prefixTaken_mem taken)]

def firstOrigin : OriginRow where
  id := ⟨1⟩
  canonicalUrl := "github.com/o/repo-link"
  originPrefix := "rpl"
  remoteUrl := "git@github.com:o/repo-link.git"
  name := "repo-link"
  aliases := []
  createdAt := ⟨0⟩
  updatedAt := ⟨0⟩

def namesake : OriginRow :=
  { firstOrigin with id := ⟨2⟩, canonicalUrl := "github.com/p/repo-link" }

def firstBook : OriginBook where
  table := ⟨[firstOrigin], List.nodup_singleton _⟩
  urls := by
    intro left inLeft right inRight _
    rw [List.mem_singleton.mp inLeft, List.mem_singleton.mp inRight]
  prefixes := by
    intro left inLeft right inRight _ _
    rw [List.mem_singleton.mp inLeft, List.mem_singleton.mp inRight]

theorem firstBook_taken : firstBook.takenPrefixes namesake.id = {"rpl"} := by decide

theorem saveWithUniquePrefix_namesake :
    ∃ saved after stored, saveWithUniquePrefix ⟨1⟩ namesake firstBook = .ok (saved, after) ∧
      after.table.find namesake.id = some stored ∧
      isValidPrefix stored.originPrefix = true ∧
      stored.originPrefix ∉ after.takenPrefixes namesake.id ∧
      (namesake.originPrefix ∉ firstBook.takenPrefixes namesake.id →
        stored.originPrefix = namesake.originPrefix) :=
  saveWithUniquePrefix_allocates ⟨1⟩ namesake firstBook (by decide)
    (by rw [firstBook_taken]; decide) (by decide)

end RepoBindingService

end RepoLink
