import Mathlib.Data.Prod.Lex
import Mathlib.Data.Nat.Basic
import Mathlib.Order.Basic

/-!
Owns stable versions and their order, the errors of the update agent, and the
release manifest with the checks that bind it to a repository, a target and
the installed version.

The JSON form of a manifest and its remaining field checks are not owned here.
-/

namespace BubllioCrm.UpdateAgent

/-! ### Versions -/

structure StableVersion where
  major : Nat
  minor : Nat
  patch : Nat
deriving DecidableEq

namespace StableVersion

/-- The tuple a `dataclass(order=True)` compares. -/
def key (version : StableVersion) : Nat ×ₗ (Nat ×ₗ Nat) :=
  toLex (version.major, toLex (version.minor, version.patch))

theorem key_injective : Function.Injective key := by
  rintro ⟨major, minor, patch⟩ ⟨major', minor', patch'⟩ same
  simpa [key] using same

instance : LinearOrder StableVersion := LinearOrder.lift' key key_injective

end StableVersion

/-! ### Errors -/

/-- The classes of `errors.py`. -/
inductive AgentErrorClass where
  | agent
  | configuration
  | authentication
  | requestValidation
  | manifestVerification
  | updateConflict
  | adapter
deriving DecidableEq

def AgentErrorClass.code : AgentErrorClass → String
  | .agent => "agent_error"
  | .configuration => "invalid_configuration"
  | .authentication => "authentication_failed"
  | .requestValidation => "invalid_request"
  | .manifestVerification => "manifest_verification_failed"
  | .updateConflict => "update_conflict"
  | .adapter => "provider_operation_failed"

def AgentErrorClass.publicMessage : AgentErrorClass → String
  | .agent => "The update agent could not complete the request."
  | .configuration => "The update agent configuration is invalid."
  | .authentication => "Request authentication failed."
  | .requestValidation => "The update request is invalid."
  | .manifestVerification => "The release manifest could not be verified."
  | .updateConflict => "Another update is already active."
  | .adapter => "The deployment provider operation failed."

/-- What a call can raise: an error of the agent with its message, any other
`Exception`, or a `BaseException` that no handler of the agent catches. -/
inductive Raised where
  | agentError (errorClass : AgentErrorClass) (message : String)
  | otherException
  | baseException
deriving DecidableEq

/-! ### Manifests -/

structure ReleaseManifest where
  repository : String
  version : StableVersion
  commitSha : String
  imageDigests : List (String × String)
  minimumVersion : StableVersion
  maximumVersion : StableVersion
  migrationPolicy : String
  expectedSchema : String
  healthTimeoutSeconds : Int
  rollbackCompatible : Bool
deriving DecidableEq

/-- The target and version checks of `parse_verified_manifest`. -/
def ReleaseManifest.checkTarget (manifest : ReleaseManifest) (expectedRepository : String)
    (expectedVersion currentVersion : StableVersion) : Except Raised Unit :=
  if manifest.repository ≠ expectedRepository ∨ manifest.version ≠ expectedVersion then
    .error (.agentError .manifestVerification "Manifest target is not allowlisted")
  else if ¬ (manifest.minimumVersion ≤ currentVersion ∧
      currentVersion ≤ manifest.maximumVersion) then
    .error (.agentError .manifestVerification
      "Installed version is outside the supported upgrade range")
  else if manifest.version ≤ currentVersion then
    .error (.agentError .manifestVerification
      "Downgrades and same-version installs are not supported")
  else .ok ()

/-- A manifest that passes is the one for the target, and the installed
version is in its range and below the target. -/
structure ReleaseManifest.Admits (manifest : ReleaseManifest) (target current : StableVersion) :
    Prop where
  target : manifest.version = target
  minimum : manifest.minimumVersion ≤ current
  maximum : current ≤ manifest.maximumVersion
  upgrade : current < manifest.version

theorem ReleaseManifest.checkTarget_ok {manifest : ReleaseManifest} {repository : String}
    {target current : StableVersion}
    (checked : manifest.checkTarget repository target current = .ok ()) :
    manifest.Admits target current := by
  unfold ReleaseManifest.checkTarget at checked
  split_ifs at checked with wrongTarget outside downgrade
  obtain ⟨-, isTarget⟩ := not_or.mp wrongTarget
  obtain ⟨minimum, maximum⟩ := outside
  exact ⟨not_not.mp isTarget, minimum, maximum, not_le.mp downgrade⟩

end BubllioCrm.UpdateAgent
