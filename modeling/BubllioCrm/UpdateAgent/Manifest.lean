import BubllioCrm.Foundations.Fallible
import BubllioCrm.Foundations.Patterns
import BubllioCrm.UpdateAgent.Versioning

/-!
Owns `parse_verified_manifest`: the checks of a decoded manifest in their
order, with the error of each, and the manifest they build.
-/

namespace BubllioCrm.UpdateAgent

open BubllioCrm.Foundations

def manifestFields : List String := [
  "repository", "version", "commit_sha", "image_digests", "min_version", "max_version",
  "migration_policy", "expected_schema", "health_timeout_seconds", "rollback_compatible"]

/-- `_POLICIES`. -/
def policies : List String := ["online_safe", "maintenance", "irreversible"]

/-- `_SHA`. -/
def isCommitSha (text : String) : Bool :=
  text.toList.length = 40 && matchesAll isLowerHex text

/-- `_DIGEST`. -/
def isDigest (text : String) : Bool :=
  text.toList.take 7 = "sha256:".toList && text.toList.length = 71 &&
    (text.toList.drop 7).all isLowerHex

/-- `[a-z0-9][a-z0-9_.-]*`. -/
def isImageName (text : String) : Bool :=
  matchesHeadTail isLowerAlphanum (fun char => isLowerAlphanum char || char ∈ ['_', '.', '-']) text

/-- `[A-Za-z0-9_.:-]{1,128}`. -/
def isSchemaName (text : String) : Bool :=
  1 ≤ text.toList.length && text.toList.length ≤ 128 &&
    matchesAll (fun char => char.isAlphanum || char ∈ ['_', '.', ':', '-']) text

def invalidManifest {Value : Type} (message : String) : Except Raised Value :=
  .error (.agentError .manifestVerification message)

def requireManifest (condition : Bool) (message : String) : Except Raised Unit :=
  if condition then .ok () else invalidManifest message

/-- The handler around the conversions catches whatever `parse` raises. -/
def manifestVersion (value : Json) : Except Raised StableVersion :=
  match StableVersion.parse value with
  | .ok version => .ok version
  | .error _ => invalidManifest "Manifest values are invalid"

def manifestSha (value : Json) : Except Raised String :=
  match value with
  | .str text => if isCommitSha text then .ok text else invalidManifest "commit_sha is invalid"
  | _ => invalidManifest "commit_sha is invalid"

def imageDigest (field : String × Json) : Option (String × String) :=
  match field.2 with
  | .str digest => if isImageName field.1 && isDigest digest then some (field.1, digest) else none
  | _ => none

def manifestDigests (value : Json) : Except Raised (List (String × String)) :=
  match value with
  | .obj fields =>
      if fields.isEmpty then invalidManifest "image_digests must not be empty"
      else if fields.all fun field => (imageDigest field).isSome then
        .ok (fields.filterMap imageDigest)
      else invalidManifest "image_digests are invalid"
  | _ => invalidManifest "image_digests must not be empty"

/-- A list or an object has no hash, so the test raises a `TypeError`. -/
def manifestPolicy (value : Json) : Except Raised String :=
  match value with
  | .str text =>
      if text ∈ policies then .ok text else invalidManifest "migration_policy is invalid"
  | .arr _ => .error .otherException
  | .obj _ => .error .otherException
  | _ => invalidManifest "migration_policy is invalid"

def manifestSchema (value : Json) : Except Raised String :=
  match value with
  | .str text => if isSchemaName text then .ok text else invalidManifest "expected_schema is invalid"
  | _ => invalidManifest "expected_schema is invalid"

/-- A boolean is an integer too, and is out of range. -/
def manifestTimeout (value : Json) : Except Raised Int :=
  match value with
  | .int number =>
      if 5 ≤ number ∧ number ≤ 900 then .ok number
      else invalidManifest "health_timeout_seconds is invalid"
  | _ => invalidManifest "health_timeout_seconds is invalid"

def manifestRollback (value : Json) : Except Raised Bool :=
  match value with
  | .bool flag => .ok flag
  | _ => invalidManifest "rollback_compatible must be boolean"

def parseVerifiedManifest (raw : Json) (expectedRepository : String)
    (expectedVersion currentVersion : StableVersion) : Except Raised ReleaseManifest :=
  match raw with
  | .obj fields => do
      requireManifest (Json.hasKeys manifestFields fields)
        "Manifest fields do not match the supported schema"
      let version ← manifestVersion (Json.get "version" fields)
      let minimum ← manifestVersion (Json.get "min_version" fields)
      let maximum ← manifestVersion (Json.get "max_version" fields)
      requireManifest
        (Json.isText expectedRepository (Json.get "repository" fields) && version = expectedVersion)
        "Manifest target is not allowlisted"
      requireManifest (minimum ≤ currentVersion && currentVersion ≤ maximum)
        "Installed version is outside the supported upgrade range"
      requireManifest (currentVersion < version)
        "Downgrades and same-version installs are not supported"
      let commitSha ← manifestSha (Json.get "commit_sha" fields)
      let imageDigests ← manifestDigests (Json.get "image_digests" fields)
      let policy ← manifestPolicy (Json.get "migration_policy" fields)
      let expectedSchema ← manifestSchema (Json.get "expected_schema" fields)
      let healthTimeout ← manifestTimeout (Json.get "health_timeout_seconds" fields)
      let rollbackCompatible ← manifestRollback (Json.get "rollback_compatible" fields)
      return {
        repository := expectedRepository
        version := version
        commitSha := commitSha
        imageDigests := imageDigests
        minimumVersion := minimum
        maximumVersion := maximum
        migrationPolicy := policy
        expectedSchema := expectedSchema
        healthTimeoutSeconds := healthTimeout
        rollbackCompatible := rollbackCompatible }
  | _ => invalidManifest "Manifest must be an object"

/-! ### What an accepted manifest satisfies -/

theorem requireManifest_ok {condition : Bool} {message : String} {result : Unit} :
    requireManifest condition message = .ok result ↔ condition = true := by
  cases condition <;> simp [requireManifest, invalidManifest]

theorem manifestDigests_ok {value : Json} {digests : List (String × String)}
    (parsed : manifestDigests value = .ok digests) :
    ∀ entry ∈ digests, isImageName entry.1 = true ∧ isDigest entry.2 = true := by
  unfold manifestDigests at parsed
  cases value with
  | obj fields =>
      simp only [invalidManifest] at parsed
      split_ifs at parsed
      injection parsed with isDigests
      intro entry member
      rw [← isDigests] at member
      obtain ⟨field, -, isEntry⟩ := List.mem_filterMap.mp member
      unfold imageDigest at isEntry
      cases digest : field.2 with
      | str text =>
          simp only [digest] at isEntry
          split_ifs at isEntry with valid
          cases isEntry
          simpa using valid
      | _ => simp [digest] at isEntry
  | _ => cases parsed

/-- An accepted manifest has passed the target check of the agent's model, and
its digests are well formed. -/
theorem parseVerifiedManifest_ok {raw : Json} {repository : String}
    {expected current : StableVersion} {manifest : ReleaseManifest}
    (parsed : parseVerifiedManifest raw repository expected current = .ok manifest) :
    manifest.checkTarget repository expected current = .ok () ∧
      ∀ entry ∈ manifest.imageDigests, isImageName entry.1 = true ∧ isDigest entry.2 = true := by
  unfold parseVerifiedManifest at parsed
  cases raw with
  | obj fields =>
      simp only [bind_eq_ok, requireManifest_ok, pure_eq_ok] at parsed
      obtain ⟨-, -, version, -, minimum, -, maximum, -, -, target, -, range, -, upgrade, commitSha, -,
        digests, digestsOk, policy, -, schema, -, timeout, -, rollback, -, rfl⟩ := parsed
      refine ⟨?_, manifestDigests_ok digestsOk⟩
      simp only [Bool.and_eq_true, decide_eq_true_eq] at target range upgrade
      unfold ReleaseManifest.checkTarget
      rw [if_neg (by simp [target.2]), if_neg (by simp [range]), if_neg (not_le.mpr upgrade)]
  | _ => cases parsed

end BubllioCrm.UpdateAgent
