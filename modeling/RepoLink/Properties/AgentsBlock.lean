import RepoLink.Cli.AgentsDocs

/-!
The block of `AGENTS.md` is the tool's and the rest of the file is not. Once a run has put the
block in place, every later run replaces its body and nothing else.
-/

namespace RepoLink.Docs

open Needle

variable {path : String} {existing : Option (List Char)} {body : List Char}

/-- What surrounds the block after a run, as the file before the run has it. -/
inductive Surrounds : Option (List Char) → List Char → List Char → Action → Prop
  | created : Surrounds none "# AGENTS\n\n".toList ['\n'] .created
  | appended {text : List Char} (free : markers.Free text) :
      Surrounds (some text) (withHeading text) ['\n'] .appended
  | updated {text : List Char} {start stop : Nat} (opens : find startMarker text = some start)
      (closes : find endMarker text = some stop) (ordered : start < stop) :
      Surrounds (some text) (text.take start) (text.drop (stop + endMarker.length)) .updated

theorem free_withHeading {existing : List Char} (free : markers.Free existing) :
    ∃ front, withHeading existing = front ++ ['\n'] ∧ markers.Free front := by
  have heading : markers.Free "## Using `rl`\n".toList := ⟨by decide, by decide⟩
  have joined : ∀ front : List Char, markers.Free front →
      markers.Free (front ++ '\n' :: "## Using `rl`\n".toList) := fun front freeFront =>
    ⟨find_joined markers.opensLine freeFront.1 heading.1,
      find_joined markers.closesLine freeFront.2 heading.2⟩
  unfold withHeading
  split
  · exact ⟨_, by simp, joined existing free⟩
  · refine ⟨_, by simp, joined (existing ++ ['\n']) ⟨?_, ?_⟩⟩
    · exact find_joined markers.opensLine free.1 (by decide)
    · exact find_joined markers.closesLine free.2 (by decide)

theorem Surrounds.clear {before after : List Char} {action : Action}
    (surrounds : Surrounds existing before after action) : markers.Clear before := by
  cases surrounds with
  | created => exact @Fence.clear_of_free _ _ markers "# AGENTS\n".toList ⟨by decide, by decide⟩
  | appended free =>
      obtain ⟨front, split, freeFront⟩ := free_withHeading free
      rw [split]
      exact Fence.clear_of_free freeFront
  | updated opens closes ordered =>
      exact (@Fence.clear_of_find _ _ markers _ _ _ opens closes ordered).1

end RepoLink.Docs
