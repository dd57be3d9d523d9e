import RepoLink.Domain.Types
import RepoLink.Library.Program
import RepoLink.Library.Utf8

/-!
`prepare` of `infra-embed`: a pinned profile is staged in a directory of its own below the cache
root, checked file by file, and renamed into place. Paths are those of a Unix file system.
-/

namespace RepoLink

open Effects

namespace Prepare

structure ManifestArtifact where
  filename : String
  sha256 : String
deriving DecidableEq, Repr

structure ProfileManifest where
  profileId : String
  artifacts : List ManifestArtifact
deriving DecidableEq, Repr

def profile : ProfileManifest where
  profileId := "6962ee9ee1d2cd50f284bd3eefbadd5b99227c1ea80938b138aa0e936e370f3f"
  artifacts :=
    [⟨"model.safetensors", "53aa51172d142c89d9012cce15ae4d6cc0ca6895895114379cacb4fab128d9db"⟩,
      ⟨"config.json", "953f9c0d463486b10a6871cc2fd59f223b2c70184f49815e7efbcab5d8908b41"⟩,
      ⟨"tokenizer.json", "be50c3628f2bf5bb5e3a7f17b1f74611b2561a3a27eeab05e5aa30f411572037"⟩]

def isPathComponent (value : String) : Bool :=
  !value.isEmpty && !value.toList.contains '/' && value ≠ "." && value ≠ ".."

def validatePathComponent (value what : String) : Except PortError Unit :=
  if isPathComponent value then .ok () else .error (.backend ("unsafe " ++ what ++ ": " ++ value))

inductive Place where
  | cached (dir filename : String)
  | hub (path : String)
deriving DecidableEq, Repr

def Place.display (cacheRoot : String) : Place → String
  | .cached dir filename => cacheRoot ++ "/" ++ dir ++ "/" ++ filename
  | .hub path => path

/-- Calls of `prepare`. An error of the file system or of the hub is its text. -/
inductive PrepareOp where
  | dirExists (dir : String)
  | sha256File (place : Place)
  | createRoot
  | stamp
  | removeDirAll (dir : String)
  | createDir (dir : String)
  | openHub
  | fetch (filename : String)
  | copy (path dir filename : String)
  | rename (source target : String)

/-- `stamp` is the process id and the nonce. -/
abbrev PrepareOp.Answer : PrepareOp → Type
  | .dirExists _ => Bool
  | .sha256File _ => Except PortError String
  | .createRoot => Except String Unit
  | .stamp => Nat × Nat
  | .removeDirAll _ => Except String Unit
  | .createDir _ => Except String Unit
  | .openHub => Except String Unit
  | .fetch _ => Except String String
  | .copy .. => Except String Unit
  | .rename .. => Except String Unit

abbrev preparePorts : Signature := ⟨PrepareOp, PrepareOp.Answer⟩

inductive PrepareError where
  | alreadyPrepared (profileId path : String)
  | port (error : PortError)
deriving DecidableEq, Repr

abbrev Preparing (α : Type) := Program preparePorts PrepareError α

def perform (op : PrepareOp) : Preparing op.Answer := @Program.perform preparePorts PrepareError op

def require {α : Type} (answer : Except PortError α) : Preparing α :=
  .ofExcept (answer.mapError .port)

/-- `map_err(|e| PortError::Backend(format!("{what}: {e}")))?`. -/
def orBackend {α : Type} (what : String) (answer : Except String α) : Preparing α :=
  .ofExcept (answer.mapError fun error => .port (.backend (what ++ ": " ++ error)))

def orNetwork {α : Type} (what : String) (answer : Except String α) : Preparing α :=
  .ofExcept (answer.mapError fun error => .port (.network (what ++ ": " ++ error)))

def verifyArtifact (cacheRoot : String) (place : Place) (expected : String) : Preparing Unit := do
  let actual ← require (← perform (.sha256File place))
  if actual = expected then return ()
  else
    .fail (.port (.backend ("digest mismatch for " ++ place.display cacheRoot ++ ": expected " ++
      expected ++ ", got " ++ actual)))

/-- `.tmp-prepare-<id>-<pid>-<nonce>`, of the id its first eight bytes. -/
def stagingDir (profileId : String) (pid nonce : Nat) : List Char :=
  ".tmp-prepare-".toList ++
    ((Utf8.splitAt? profileId.toList 8).map Prod.fst).getD profileId.toList ++
    '-' :: Nat.toDigits 10 pid ++ '-' :: Nat.toDigits 10 nonce

def installArtifact (cacheRoot tmp : String) (_ : Unit) (artifact : ManifestArtifact) :
    Preparing Unit := do
  let fetched ← orNetwork ("fetch " ++ artifact.filename) (← perform (.fetch artifact.filename))
  verifyArtifact cacheRoot (.hub fetched) artifact.sha256
  orBackend ("stage " ++ artifact.filename) (← perform (.copy fetched tmp artifact.filename))
  verifyArtifact cacheRoot (.cached tmp artifact.filename) artifact.sha256

def install (cacheRoot tmp : String) (manifest : ProfileManifest) : Preparing String := do
  Program.foldEach (installArtifact cacheRoot tmp) manifest.artifacts ()
  orBackend "install profile" (← perform (.rename tmp manifest.profileId))
  return cacheRoot ++ "/" ++ manifest.profileId

def recheck (cacheRoot : String) (manifest : ProfileManifest) : Preparing String := do
  Program.foldEach
    (fun _ artifact => verifyArtifact cacheRoot (.cached manifest.profileId artifact.filename)
      artifact.sha256) manifest.artifacts ()
  .fail (.alreadyPrepared manifest.profileId (cacheRoot ++ "/" ++ manifest.profileId))

def clearStale (tmp : String) : Preparing Unit := do
  if ← perform (.dirExists tmp) then
    orBackend "clear stale tmp" (← perform (.removeDirAll tmp))
  else return ()

def cleanUp (tmp : String) (result : Except PrepareError String) : Preparing String := do
  match result with
  | .ok path => return path
  | .error error =>
    if ← perform (.dirExists tmp) then
      let _ ← perform (.removeDirAll tmp)
      .fail error
    else .fail error

def stageAndInstall (cacheRoot : String) (manifest : ProfileManifest) : Preparing String := do
  Program.foldEach (fun _ (artifact : ManifestArtifact) =>
    require (validatePathComponent artifact.filename "artifact filename")) manifest.artifacts ()
  orBackend "create cache root" (← perform .createRoot)
  let (pid, nonce) ← perform .stamp
  let tmp := String.ofList (stagingDir manifest.profileId pid nonce)
  clearStale tmp
  orBackend "create tmp" (← perform (.createDir tmp))
  orNetwork "hf-hub api" (← perform .openHub)
  cleanUp tmp (← (install cacheRoot tmp manifest).attempt)

def prepare (cacheRoot : String) (manifest : ProfileManifest) : Preparing String := do
  require (validatePathComponent manifest.profileId "profile id")
  if ← perform (.dirExists manifest.profileId) then recheck cacheRoot manifest
  else stageAndInstall cacheRoot manifest

/-- The directories below the cache root, with what their files hold. -/
structure ModelCache (Content : Type) where
  dirs : String → Option (String → Option Content)

def verifyCached {Content : Type} (sha256 : Content → String) (manifest : ProfileManifest)
    (cache : ModelCache Content) : Bool :=
  isPathComponent manifest.profileId && manifest.artifacts.all fun artifact =>
    ((cache.dirs manifest.profileId).bind fun dir => dir artifact.filename).any fun content =>
      sha256 content = artifact.sha256

end Prepare

end RepoLink
