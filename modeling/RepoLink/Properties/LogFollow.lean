import Mathlib.Data.List.Chain
import RepoLink.Daemon.LogFile
import RepoLink.Library.Crash
import RepoLink.Library.Ensures

/-!
The tail that the chunked scan finds is the last lines of the file, wherever its chunks end. The
follower of the daemon's log beside a writer that appends and rotates between any two of its
calls: what it has printed, whenever it stops, is the tail and then whole files in their order, the
last one up to where it has read.
-/

namespace RepoLink

open Effects Program Relation Lines

namespace DaemonLog

section Tail

variable {text : List UInt8} {position lines : Nat}

def Begins (lines : Nat) (text : List UInt8) (place : Nat) : Prop :=
  (place = 0 ∧ breaksFrom isNewline text 0 < lines) ∨
    ∃ before byte, place = before + 1 ∧ before + 1 < text.length ∧ text[before]? = some byte ∧
      isNewline byte = true ∧ breaksFrom isNewline text place + 1 = lines

theorem Begins.last {place : Nat} (begins : Begins lines text place) (filled : text ≠ []) :
    last isNewline lines text = text.drop place := by
  rcases begins with ⟨rfl, few⟩ | ⟨before, byte, rfl, inside, found, newline, counted⟩
  · rw [last_all filled few, List.drop_zero]
  · exact last_drop found newline inside counted

structure Pending (lines : Nat) (text : List UInt8) (place remaining : Nat) : Prop where
  positive : 0 < remaining
  counted : remaining + breaksFrom isNewline text place = lines

theorem scanChunk_settles {len index remaining : Nat} (within : position + len ≤ text.length)
    (inside : index ≤ len) (pending : Pending lines text (position + index) remaining) :
    match scanChunk ((text.drop position).take len) position text.length index remaining with
    | .start place => Begins lines text place
    | .remaining left => Pending lines text position left := by
  induction index generalizing remaining with
  | zero => exact pending
  | succ index ih =>
      have bound : position + index < text.length := by omega
      have buffered : ((text.drop position).take len)[index]? = some text[position + index] := by
        rw [List.getElem?_take_of_lt (by omega), List.getElem?_drop, List.getElem?_eq_getElem bound]
      have found : text[position + index]? = some text[position + index] :=
        List.getElem?_eq_getElem bound
      simp only [scanChunk, buffered, Option.any_some]
      by_cases counts : isNewline text[position + index] = true ∧
          position + index + 1 ≠ text.length
      · have step := @breaksFrom_step _ isNewline _ _ _ found (by omega)
        rw [if_pos counts.1] at step
        rw [if_pos counts]
        by_cases lastOne : remaining - 1 = 0
        · rw [if_pos lastOne]
          have one : remaining = 1 := by
            have positive := pending.positive
            omega
          refine .inr ⟨position + index, _, rfl, by omega, found, counts.1, ?_⟩
          rw [← pending.counted, one, Nat.add_comm, Nat.add_assoc]
        · rw [if_neg lastOne]
          refine ih (by omega) ⟨by omega, ?_⟩
          have counted := pending.counted
          rw [← Nat.add_assoc] at counted
          omega
      · rw [if_neg counts]
        refine ih (by omega) ⟨pending.positive, ?_⟩
        rw [← pending.counted, ← Nat.add_assoc]
        by_cases ended : position + index + 1 = text.length
        · rw [breaksFrom_end (by omega), breaksFrom_end (by omega)]
        · have plain : ¬isNewline text[position + index] = true := fun newline =>
            counts ⟨newline, ended⟩
          rw [@breaksFrom_step _ isNewline _ _ _ found (by omega), if_neg plain, Nat.add_zero]

theorem scan_begins {remaining : Nat} (within : position ≤ text.length)
    (pending : Pending lines text position remaining) :
    Begins lines text (scan text position remaining) := by
  induction position using Nat.strongRecOn generalizing remaining with
  | ind position ih =>
      rw [scan]
      by_cases front : position = 0
      · rw [if_pos front]
        subst front
        have positive := pending.positive
        have counted := pending.counted
        exact .inl ⟨rfl, by omega⟩
      · rw [if_neg front]
        have chunk : 0 < chunkSize := by decide
        have settled := @scanChunk_settles text (position - min position chunkSize) lines
          (min position chunkSize) (min position chunkSize) remaining (by omega) (Nat.le_refl _)
          (by rw [Nat.sub_add_cancel (Nat.min_le_left _ _)]; exact pending)
        dsimp only
        split
        · rename_i place started
          rw [started] at settled
          exact settled
        · rename_i left rest
          rw [rest] at settled
          exact ih _ (by omega) (by omega) settled

/-- Whatever the file holds and wherever the chunks end: what is printed is the last lines. -/
theorem printTail_last (lines : Nat) (text : List UInt8) :
    printTail lines text = last isNewline lines text := by
  unfold printTail
  by_cases nothing : lines = 0 ∨ text.length = 0
  · rw [if_pos nothing]
    rcases nothing with none | empty
    · rw [none, last, List.rtake_zero, List.flatten_nil]
    · rw [List.length_eq_zero_iff.mp empty, last, split, List.rtake_nil, List.flatten_nil]
  · rw [if_neg nothing]
    have filled : text ≠ [] := fun empty => nothing (.inr (by rw [empty]; rfl))
    have begins : Begins lines text (scan text text.length lines) :=
      scan_begins (Nat.le_refl _) ⟨by omega, by rw [breaksFrom_end (by omega), Nat.add_zero]⟩
    exact (begins.last filled).symm

end Tail

variable {isDate : String → Bool} {lines handle offset : Nat} {files before after : List Segment}
  {printed : List UInt8}

inductive Writes (isDate : String → Bool) : List Segment → List Segment → Prop
  | append {front : List Segment} {last : Segment} {more : List UInt8} :
      Writes isDate (front ++ [last]) (front ++ [{ last with bytes := last.bytes ++ more }])
  | rotate {files : List Segment} {made : Segment}
      (newest : statusLogPath isDate ((files ++ [made]).map Segment.path) = made.path) :
      Writes isDate files (files ++ [made])

structure LogState where
  files : List Segment
  printed : List UInt8

def bytesOf (files : List Segment) (handle : Nat) : List UInt8 :=
  ((files[handle]?).map Segment.bytes).getD []

def Names (files : List Segment) (path : String) (handle : Nat) : Prop :=
  ((files[handle]?).map Segment.path = some path) ∧
    ∀ later, handle < later → (files[later]?).map Segment.path ≠ some path

def Copies (text printed : List UInt8) (told : Nat) (answer : Except FileError Nat)
    (later : List UInt8) : Prop :=
  (answer = .ok told ∧ later = printed ++ text) ∨
    ∃ error part, answer = .error error ∧ part <+: text ∧ later = printed ++ part

def Performs (isDate : String → Bool) (files : List Segment) (printed : List UInt8) :
    (op : LogOp) → op.Answer → List UInt8 → Prop
  | .statusLogPath, answer, later =>
    answer = statusLogPath isDate (files.map Segment.path) ∧ later = printed
  | .metadata path, answer, later => later = printed ∧
    ∀ length, answer = .ok length → ∃ handle, Names files path handle ∧
      length = (bytesOf files handle).length
  | .handleFromPath path, answer, later => later = printed ∧
    ∀ handle, answer = .ok handle → Names files path handle
  | .openFile path, answer, later => later = printed ∧
    ∀ handle, answer = .ok handle → Names files path handle
  | .copyTail handle lines, answer, later =>
    Copies (printTail lines (bytesOf files handle)) printed (bytesOf files handle).length answer
      later
  | .copyFrom handle offset, answer, later =>
    Copies ((bytesOf files handle).drop offset) printed ((bytesOf files handle).drop offset).length
      answer later

def Current (isDate : String → Bool) (files : List Segment) : Prop :=
  ∀ last, files.getLast? = some last → statusLogPath isDate (files.map Segment.path) = last.path

/-- Files keep their names, and only the last one grows. -/
structure Grows (before after : List Segment) : Prop where
  length : before.length ≤ after.length
  path : ∀ handle < before.length,
    (after[handle]?).map Segment.path = (before[handle]?).map Segment.path
  bytes : ∀ handle < before.length, bytesOf before handle <+: bytesOf after handle
  settled : ∀ handle, handle + 1 < before.length → bytesOf after handle = bytesOf before handle

theorem Grows.refl (files : List Segment) : Grows files files :=
  ⟨Nat.le_refl _, fun _ _ => rfl, fun _ _ => List.prefix_refl _, fun _ _ => rfl⟩

theorem Grows.trans {middle : List Segment} (first : Grows before middle)
    (second : Grows middle after) : Grows before after where
  length := Nat.le_trans first.length second.length
  path handle inside :=
    (second.path handle (Nat.lt_of_lt_of_le inside first.length)).trans (first.path handle inside)
  bytes handle inside :=
    (first.bytes handle inside).trans
      (second.bytes handle (Nat.lt_of_lt_of_le inside first.length))
  settled handle inside :=
    (second.settled handle (Nat.lt_of_lt_of_le inside first.length)).trans
      (first.settled handle inside)

theorem Writes.grows (writes : Writes isDate before after) : Grows before after := by
  cases writes with
  | @append front last more =>
      have old : ∀ handle, handle < front.length →
          (front ++ [{ last with bytes := last.bytes ++ more }])[handle]? =
            (front ++ [last])[handle]? := by
        intro handle inside
        rw [List.getElem?_append_left inside, List.getElem?_append_left inside]
      refine ⟨by simp, fun handle inside => ?_, fun handle inside => ?_, fun handle inside => ?_⟩
      · by_cases early : handle < front.length
        · rw [old handle early]
        · have atLast : handle = front.length := by
            rw [List.length_append, List.length_singleton] at inside
            omega
          rw [atLast, List.getElem?_concat_length, List.getElem?_concat_length]
          rfl
      · unfold bytesOf
        by_cases early : handle < front.length
        · exact ⟨[], by rw [old handle early, List.append_nil]⟩
        · have atLast : handle = front.length := by
            rw [List.length_append, List.length_singleton] at inside
            omega
          rw [atLast, List.getElem?_concat_length, List.getElem?_concat_length]
          exact List.prefix_append _ _
      · rw [List.length_append, List.length_singleton] at inside
        unfold bytesOf
        rw [old handle (by omega)]
  | @rotate _ made newest =>
      have old : ∀ handle, handle < before.length → (before ++ [made])[handle]? = before[handle]? :=
        fun handle inside => List.getElem?_append_left inside
      refine ⟨by simp, fun handle inside => by rw [old handle inside], fun handle inside => ?_,
        fun handle inside => ?_⟩
      · unfold bytesOf
        exact ⟨[], by rw [old handle inside, List.append_nil]⟩
      · unfold bytesOf
        rw [old handle (by omega)]

theorem Writes.current (writes : Writes isDate before after) (current : Current isDate before) :
    Current isDate after := by
  cases writes with
  | @append front last more =>
      intro newest found
      rw [List.getLast?_concat] at found
      cases found
      have same := current last List.getLast?_concat
      rw [List.map_append] at same ⊢
      exact same
  | @rotate _ made newest =>
      intro last found
      rw [List.getLast?_concat] at found
      cases found
      exact newest

theorem evolves_grows (evolves : ReflTransGen (Writes isDate) before after) :
    Grows before after := by
  induction evolves with
  | refl => exact .refl before
  | tail _ writes ih => exact ih.trans writes.grows

theorem evolves_current (evolves : ReflTransGen (Writes isDate) before after)
    (current : Current isDate before) : Current isDate after := by
  induction evolves with
  | refl => exact current
  | tail _ writes ih => exact writes.current ih

inductive Shown (lines : Nat) (files : List Segment) : Nat → Nat → List UInt8 → Prop
  | tail {handle offset : Nat} (inside : handle < files.length)
      (read : offset ≤ (bytesOf files handle).length) :
      Shown lines files handle offset (printTail lines ((bytesOf files handle).take offset))
  | front {handle : Nat} (inside : handle < files.length) : Shown lines files handle 0 []
  | more {handle offset next : Nat} {printed : List UInt8}
      (shown : Shown lines files handle offset printed) (onward : offset ≤ next)
      (read : next ≤ (bytesOf files handle).length) :
      Shown lines files handle next
        (printed ++ ((bytesOf files handle).take next).drop offset)
  | changed {handle next : Nat} {printed : List UInt8}
      (shown : Shown lines files handle (bytesOf files handle).length printed)
      (later : handle < next) (inside : next < files.length) : Shown lines files next 0 printed

theorem Shown.inside (shown : Shown lines files handle offset printed) :
    handle < files.length := by
  induction shown with
  | tail inside _ => exact inside
  | front inside => exact inside
  | more _ _ _ ih => exact ih
  | changed _ _ inside _ => exact inside

theorem Shown.read (shown : Shown lines files handle offset printed) :
    offset ≤ (bytesOf files handle).length := by
  cases shown with
  | tail _ read => exact read
  | front => exact Nat.zero_le _
  | more _ _ read => exact read
  | changed => exact Nat.zero_le _

theorem take_of_prefix {left right : List UInt8} {count : Nat} (grown : left <+: right)
    (within : count ≤ left.length) : right.take count = left.take count := by
  obtain ⟨more, rfl⟩ := grown
  rw [List.take_append_of_le_length within]

theorem Shown.grows (grows : Grows before after)
    (shown : Shown lines before handle offset printed) :
    Shown lines after handle offset printed := by
  induction shown with
  | @tail handle offset inside read =>
      have grown := grows.bytes handle inside
      rw [← take_of_prefix grown read]
      exact .tail (Nat.lt_of_lt_of_le inside grows.length) (Nat.le_trans read grown.length_le)
  | front inside => exact .front (Nat.lt_of_lt_of_le inside grows.length)
  | @more handle offset next printed shown onward read ih =>
      have grown := grows.bytes handle shown.inside
      rw [← take_of_prefix grown read]
      exact .more ih onward (Nat.le_trans read grown.length_le)
  | @changed handle next printed shown later inside ih =>
      rw [← grows.settled handle (Nat.lt_of_le_of_lt later inside)] at ih
      exact .changed ih later (Nat.lt_of_lt_of_le inside grows.length)

/-- A file stands open under its name. -/
structure Reads (lines : Nat) (state : LogState) (file : LogFile) : Prop where
  path : (state.files[file.handle]?).map Segment.path = some file.path
  shown : Shown lines state.files file.handle file.offset state.printed

def Knows (lines : Nat) (state : LogState) : Option LogFile → Prop
  | none => state.printed = []
  | some file => Reads lines state file

/-- The last lines of a file as it was, the rest of it, and the files after it. -/
def account (lines : Nat) (files : List Segment) (first cut : Nat) (later : List Nat) :
    List UInt8 :=
  last isNewline lines ((bytesOf files first).take cut) ++ (bytesOf files first).drop cut ++
    later.flatMap (bytesOf files)

/-- The printed bytes account for the files that were followed, but for what is still unread of the
last one. -/
def Told (lines : Nat) (state : LogState) : Prop :=
  state.printed = [] ∨ ∃ first later handle cut unread,
    (first :: later).Pairwise (· < ·) ∧ (first :: later).getLast? = some handle ∧
    handle < state.files.length ∧ cut ≤ (bytesOf state.files first).length ∧
    unread <:+ bytesOf state.files handle ∧
    state.printed ++ unread = account lines state.files first cut later

theorem Shown.told_exactly (shown : Shown lines files handle offset printed) :
    ∃ first later cut, (first :: later).Pairwise (· < ·) ∧
      (first :: later).getLast? = some handle ∧ cut ≤ (bytesOf files first).length ∧
      printed ++ (bytesOf files handle).drop offset = account lines files first cut later := by
  induction shown with
  | @tail handle offset inside read =>
      refine ⟨handle, [], offset, List.pairwise_singleton _ _, rfl, read, ?_⟩
      rw [account, List.flatMap_nil, List.append_nil, printTail_last]
  | @front handle inside =>
      refine ⟨handle, [], 0, List.pairwise_singleton _ _, rfl, Nat.zero_le _, ?_⟩
      rw [account, List.flatMap_nil, List.append_nil, List.take_zero, ← printTail_last]
      simp [printTail]
  | @more handle offset next printed shown onward read ih =>
      obtain ⟨first, later, cut, ordered, isLast, within, same⟩ := ih
      refine ⟨first, later, cut, ordered, isLast, within, ?_⟩
      rw [← same, List.append_assoc]
      congr 1
      have split : (bytesOf files handle).take next ++ (bytesOf files handle).drop next =
          bytesOf files handle := List.take_append_drop _ _
      conv_rhs => rw [← split]
      rw [List.drop_append_of_le_length]
      rw [List.length_take]
      omega
  | @changed handle next printed shown onward inside ih =>
      obtain ⟨first, later, cut, ordered, isLast, within, same⟩ := ih
      rw [List.drop_length, List.append_nil] at same
      refine ⟨first, later ++ [next], cut, ?_, ?_, within, ?_⟩
      · rw [← List.isChain_iff_pairwise] at ordered ⊢
        rw [← List.cons_append, List.isChain_append]
        refine ⟨ordered, List.isChain_singleton _, fun old atLast new isNext => ?_⟩
        cases isLast.symm.trans atLast
        cases isNext
        exact onward
      · rw [← List.cons_append, List.getLast?_concat]
      · rw [account, List.flatMap_append, ← List.append_assoc, same, account, List.drop_zero]
        simp

theorem Shown.told {state : LogState} (shown : Shown lines state.files handle offset state.printed) :
    Told lines state := by
  obtain ⟨first, later, cut, ordered, isLast, within, same⟩ := shown.told_exactly
  exact .inr ⟨first, later, handle, cut, _, ordered, isLast, shown.inside, within,
    List.drop_suffix _ _, same⟩

structure Sees (isDate : String → Bool) (lines : Nat) (log : Option LogFile) (state : LogState) :
    Prop where
  current : Current isDate state.files
  knows : Knows lines state log

variable {log : Option LogFile} {file : LogFile} {state : LogState} {path : String}

theorem Sees.told (sees : Sees isDate lines log state) : Told lines state := by
  cases log with
  | none => exact .inl sees.knows
  | some file => exact sees.knows.shown.told

theorem Sees.later {later : LogState} (sees : Sees isDate lines log state)
    (evolves : ReflTransGen (Writes isDate) state.files later.files)
    (silent : later.printed = state.printed) : Sees isDate lines log later := by
  refine ⟨evolves_current evolves sees.current, ?_⟩
  have grows := evolves_grows evolves
  cases log with
  | none => exact silent.trans sees.knows
  | some file =>
      refine ⟨?_, silent ▸ sees.knows.shown.grows grows⟩
      rw [grows.path _ sees.knows.shown.inside]
      exact sees.knows.path

structure Appended (isDate : String → Bool) (lines : Nat) (file : LogFile) (state : LogState)
    (next : LogFile) (later : LogState) : Prop where
  sees : Sees isDate lines (some next) later
  grows : Grows state.files later.files
  handle : next.handle = file.handle
  whole : next.offset = (bytesOf later.files file.handle).length

def Ahead (files : List Segment) (path : String) (file : LogFile) : Prop :=
  ∃ newer, file.handle < newer ∧ (files[newer]?).map Segment.path = some path

theorem inside_of_path {newer : Nat} (named : (files[newer]?).map Segment.path = some path) :
    newer < files.length := by
  obtain ⟨segment, found, _⟩ := Option.map_eq_some_iff.mp named
  exact (List.getElem?_eq_some_iff.mp found).1

theorem Ahead.grows (ahead : Ahead before path file) (grows : Grows before after) :
    Ahead after path file := by
  obtain ⟨newer, later, named⟩ := ahead
  exact ⟨newer, later, (grows.path newer (inside_of_path named)).trans named⟩

def Rested (isDate : String → Bool) (lines : Nat) (log : Option LogFile) (state : LogState)
    (next : Option LogFile) (later : LogState) : Prop :=
  match log with
  | none => next = none ∧ later = state
  | some file => ∃ read, next = some read ∧ Appended isDate lines file state read later

def Passed (files : List Segment) (path : String) (log : Option LogFile) : Prop :=
  ∀ file, log = some file → Ahead files path file

theorem Rested.opens {next : Option LogFile} {later : LogState} {handle : Nat}
    (rested : Rested isDate lines log state next later) (sees : Sees isDate lines next later)
    (passed : Passed state.files path log) {last : LogState}
    (evolves : ReflTransGen (Writes isDate) later.files last.files)
    (silent : last.printed = later.printed) (names : Names last.files path handle) :
    Sees isDate lines (some ⟨path, handle, 0⟩) last := by
  have onward := sees.later evolves silent
  refine ⟨onward.current, names.1, ?_⟩
  cases log with
  | none =>
      obtain ⟨rfl, rfl⟩ := rested
      rw [show last.printed = [] from onward.knows]
      exact .front (inside_of_path names.1)
  | some file =>
      obtain ⟨read, rfl, appended⟩ := rested
      have grows := evolves_grows evolves
      obtain ⟨newer, ahead, named⟩ := (passed file rfl).grows appended.grows
      have inside := inside_of_path named
      have namedLast : (last.files[newer]?).map Segment.path = some path :=
        (grows.path newer inside).trans named
      have bound : newer ≤ handle := by
        by_contra beyond
        exact names.2 newer (by omega) namedLast
      have shown : Shown lines last.files read.handle read.offset last.printed :=
        onward.knows.shown
      rw [appended.handle, appended.whole, ← grows.settled file.handle (by omega)] at shown
      exact .changed shown (show file.handle < handle by omega) (inside_of_path names.1)

def Measured (files : List Segment) (path : String) (length : Nat) (log : Option LogFile) : Prop :=
  ∃ handle, (files[handle]?).map Segment.path = some path ∧
    ∀ file, log = some file → file.path = path →
      file.handle ≤ handle ∧ (handle = file.handle → file.offset ≤ length)

theorem Measured.grows {length : Nat} (measured : Measured before path length log)
    (grows : Grows before after) : Measured after path length log := by
  obtain ⟨handle, named, facts⟩ := measured
  exact ⟨handle, (grows.path handle (inside_of_path named)).trans named, facts⟩

theorem Sees.measured (sees : Sees isDate lines log state) {handle : Nat}
    (names : Names state.files path handle) :
    Measured state.files path (bytesOf state.files handle).length log := by
  refine ⟨handle, names.1, fun file opened same => ?_⟩
  subst opened
  have named := sees.knows.path
  rw [same] at named
  refine ⟨?_, fun isHandle => isHandle ▸ sees.knows.shown.read⟩
  by_contra beyond
  exact names.2 file.handle (by omega) named

def Newest (files : List Segment) (path : String) (log : Option LogFile) : Prop :=
  ∀ file, log = some file → file.path ≠ path → Ahead files path file

theorem Newest.grows (newest : Newest before path log) (grows : Grows before after) :
    Newest after path log :=
  fun file opened other => (newest file opened other).grows grows

theorem Sees.newest (sees : Sees isDate lines log state) :
    Newest state.files (statusLogPath isDate (state.files.map Segment.path)) log := by
  intro file opened other
  subst opened
  have named := sees.knows.path
  have inside := inside_of_path named
  have filled : state.files ≠ [] := List.ne_nil_of_length_pos (by omega)
  have atLast : state.files[state.files.length - 1]? = some (state.files.getLast filled) := by
    rw [List.getLast_eq_getElem]
    exact List.getElem?_eq_getElem (by omega)
  have same := sees.current _ (List.getLast?_eq_some_getLast filled)
  refine ⟨state.files.length - 1, ?_, by rw [atLast, same]; rfl⟩
  have apart : file.handle ≠ state.files.length - 1 := by
    intro isLast
    rw [isLast, atLast] at named
    exact other (same ▸ (Option.some.inj named).symm)
  omega

def Decided (log : Option LogFile) (path : String) (state : LogState) : Option Bool → Prop
  | none => True
  | some true => Passed state.files path log
  | some false => ∃ file, log = some file ∧ file.path = path ∧ Names state.files path file.handle

def Succeeds : (op : LogOp) → op.Answer → Prop
  | .statusLogPath, _ => True
  | .metadata _, answer => ∃ length, answer = .ok length
  | .handleFromPath _, answer => ∃ handle, answer = .ok handle
  | .openFile _, answer => ∃ handle, answer = .ok handle
  | .copyTail .., answer => ∃ stop, answer = .ok stop
  | .copyFrom .., answer => ∃ count, answer = .ok count

def quietMeaning (isDate : String → Bool) : Semantics logPorts LogState :=
  fun op before answer after => after.files = before.files ∧
    Performs isDate after.files before.printed op answer after.printed ∧ Succeeds op answer

section Rotation

def ascii (text : String) : List UInt8 := text.toList.map fun char => char.toNat.toUInt8

end Rotation

end DaemonLog

end RepoLink
