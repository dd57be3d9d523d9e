import RepoLink.Library.Needle
import RepoLink.Library.Utf8

/-!
The writer of `AGENTS.md` behind `rl agents docs`: a body that is fenced by two marker lines, put
into a new file, behind the text of an old one, or in the place of the block that is there. A text
is its list of scalars; offsets only cut it where a marker begins or ends.
-/

namespace RepoLink.Docs

open Needle

def startMarker : List Char := "<!-- rl:doc:start -->".toList

def endMarker : List Char := "<!-- rl:doc:end -->".toList

def markers : Fence Char where
  opening := startMarker
  closing := endMarker
  separator := '\n'
  mark := '<'
  opensLine := by decide
  closesLine := by decide
  opensMark := by decide
  closesMark := by decide
  markOnce := by decide
  closingApart := by decide
  openingApart := by decide

inductive Action where
  | created
  | appended
  | updated
deriving DecidableEq, Repr

structure WriteOutcome where
  text : List Char
  action : Action
  bytesWritten : Nat
deriving DecidableEq, Repr

def written (text : List Char) (action : Action) : WriteOutcome := ⟨text, action, Utf8.size text⟩

def withHeading (existing : List Char) : List Char :=
  (if existing.getLast? = some '\n' then existing else existing ++ ['\n']) ++
    "\n## Using `rl`\n\n".toList

end RepoLink.Docs
