import Mathlib.Logic.Relation
import RepoLink.Library.Lines
import RepoLink.Library.Program

/-!
`rl daemon logs`: the tail of a log file, found by reading chunks from its end, and the follower
that prints what is appended and changes over when the log is rotated.
-/

namespace RepoLink

open Effects Relation

namespace DaemonLog

def isNewline (byte : UInt8) : Bool := byte == 10

def chunkSize : Nat := 8 * 1024

inductive Scan where
  | start (place : Nat)
  | remaining (count : Nat)
deriving DecidableEq, Repr

/-- One chunk from its end: `position` is where it lies in the file, `stop` where the file ends. -/
def scanChunk (buffer : List UInt8) (position stop : Nat) : Nat → Nat → Scan
  | 0, remaining => .remaining remaining
  | index + 1, remaining =>
    if buffer[index]?.any isNewline ∧ position + index + 1 ≠ stop then
      if remaining - 1 = 0 then .start (position + index + 1)
      else scanChunk buffer position stop index (remaining - 1)
    else scanChunk buffer position stop index remaining

def scan (text : List UInt8) (position remaining : Nat) : Nat :=
  if position = 0 then 0
  else
    let len := min position chunkSize
    let next := position - len
    match scanChunk ((text.drop next).take len) next text.length len remaining with
    | .start place => place
    | .remaining left => scan text next left
termination_by position
decreasing_by
  have positive : 0 < chunkSize := by decide
  omega

/-- What `print_tail` prints of a file that holds `text`. -/
def printTail (lines : Nat) (text : List UInt8) : List UInt8 :=
  if lines = 0 ∨ text.length = 0 then [] else text.drop (scan text text.length lines)

structure Segment where
  path : String
  bytes : List UInt8
deriving DecidableEq, Repr

def segmentDate (isDate : String → Bool) (name : String) : Option String :=
  let chars := name.toList
  let front := "daemon.".toList
  let back := ".log".toList
  if front.isPrefixOf chars ∧ back.isSuffixOf (chars.drop front.length) then
    let date := String.ofList ((chars.drop front.length).take
      (chars.length - front.length - back.length))
    if isDate date then some date else none
  else none

def laterSegment (isDate : String → Bool) (latest : Option (String × String)) (name : String) :
    Option (String × String) :=
  match segmentDate isDate name with
  | none => latest
  | some date =>
    match latest with
    | some (existing, path) => if date ≤ existing then some (existing, path) else some (date, name)
    | none => some (date, name)

def newestLogSegment (isDate : String → Bool) (names : List String) : Option String :=
  (names.foldl (laterSegment isDate) none).map Prod.snd

def statusLogPath (isDate : String → Bool) (names : List String) : String :=
  (newestLogSegment isDate names).getD "daemon.log"

inductive FileError where
  | notFound
  | other (message : String)
deriving DecidableEq, Repr

/-- Calls of `print_logs`. A file is known by when it was made, whatever its name. -/
inductive LogOp where
  | statusLogPath
  | metadata (path : String)
  | handleFromPath (path : String)
  | openFile (path : String)
  | copyTail (handle lines : Nat)
  | copyFrom (handle offset : Nat)

abbrev LogOp.Answer : LogOp → Type
  | .statusLogPath => String
  | _ => Except FileError Nat

abbrev logPorts : Signature := ⟨LogOp, LogOp.Answer⟩

abbrev LogProgram (α : Type) := Program logPorts FileError α

def perform (op : LogOp) : LogProgram op.Answer := @Program.perform logPorts FileError op

def need (answer : Except FileError Nat) : LogProgram Nat := .ofExcept answer

structure LogFile where
  path : String
  handle : Nat
  offset : Nat
deriving DecidableEq, Repr

def printAppended (file : LogFile) : LogProgram LogFile := do
  let written ← need (← perform (.copyFrom file.handle file.offset))
  return { file with offset := file.offset + written }

/-- Has the name come to stand for another file? None if it stands for nothing just now. -/
def replaced (log : Option LogFile) (path : String) : LogProgram (Option Bool) :=
  match log with
  | none => return some true
  | some current =>
    if current.path ≠ path then return some true
    else do
      match ← perform (.handleFromPath path) with
      | .ok handle => return some (handle ≠ current.handle)
      | .error .notFound => return none
      | .error error => .fail error

def printRest : Option LogFile → LogProgram (Option LogFile)
  | none => return none
  | some current => do
    let current ← printAppended current
    return some current

def changeOver (log : Option LogFile) (path : String) : LogProgram (Option LogFile) := do
  let log ← printRest log
  match ← perform (.openFile path) with
  | .error .notFound => return log
  | .error error => .fail error
  | .ok handle => printRest (some ⟨path, handle, 0⟩)

def tick (log : Option LogFile) : LogProgram (Option LogFile) := do
  let path ← perform .statusLogPath
  match ← perform (.metadata path) with
  | .error .notFound => return log
  | .error error => .fail error
  | .ok length =>
    match ← replaced log path with
    | none => return log
    | some true => changeOver log path
    | some false => printRest (log.map fun current =>
        if length < current.offset then { current with offset := 0 } else current)

end DaemonLog

end RepoLink
