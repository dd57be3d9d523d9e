import RepoLink.Domain.Handles
import RepoLink.TaskService.Service

/-!
How `TaskService` shows a task to the user and finds it again. The other operations of the model
are given the id that is resolved here.
-/

namespace RepoLink

namespace TaskService

def debugText (text : String) : String := text.quote

def prefixFor (task : Task) : Action (Option String) :=
  match task.repoId with
  | none => return none
  | some repoId => do
    let view ← query (.getBinding repoId)
    return some view.origin.originPrefix

def shownId (uuids : UuidFormat) (task : Task) : Action String := do
  let originPrefix ← prefixFor task
  return assembleTaskDisplayId uuids task originPrefix

def checkPrefix (inputPrefix hash : String) (task : Task) : Action Task := do
  let actualPrefix := (← prefixFor task).getD ""
  if actualPrefix ≠ inputPrefix ∧ !isSupersededPrefix inputPrefix actualPrefix then
    .fail (.prefixMismatch inputPrefix actualPrefix hash)
  else return task

def splitHandle (text : String) : Option String × String :=
  match rsplitOnce '-' text with
  | some (inputPrefix, hash) => (some inputPrefix, hash)
  | none => (none, text)

def validateHandle (text : String) (inputPrefix : Option String) (hash : String) : Action Unit :=
  if !isValidHash hash then
    .fail (.badId (debugText text ++ " is not a task UUID, bare hash, or prefix-hash composite"))
  else
    match inputPrefix with
    | none => return ()
    | some inputPrefix =>
      if !isValidPrefix inputPrefix then
        .fail (.badId (debugText text ++ " has a malformed repo prefix " ++ debugText inputPrefix))
      else return ()

/-- `resolve_task`: by UUID, by bare hash or by `prefix-hash`. -/
def resolveHandle (uuids : UuidFormat) (text : String) : Action Task :=
  match uuids.parse text with
  | some id => query (.getTask id)
  | none => do
    let (inputPrefix, hash) := splitHandle text
    validateHandle text inputPrefix hash
    match ← query (.findByHash hash) with
    | none => .fail (.port (.notFound ("task hash " ++ debugText hash)))
    | some task =>
      match inputPrefix with
      | none => return task
      | some inputPrefix => checkPrefix inputPrefix hash task

end TaskService

end RepoLink
