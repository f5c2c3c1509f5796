import BubllioCrm.Onboarding.AgentClient
import BubllioCrm.Onboarding.UpdateRuns

/-!
Owns what the CRM makes of a preflight answer: `_clean_text`, `_safe_check` and
`sanitize_preflight`.

A test with `in` of a set or a `dict` raises a `TypeError` for a list or a
`dict`, which no handler catches. The texts of an answer may hold surrogates.
-/

namespace BubllioCrm.Onboarding

open BubllioCrm.Foundations

/-- `str.isspace` of one code point. A surrogate is no blank. -/
def isSpacePoint (point : CodePoint) : Bool :=
  !isSurrogate point && isSpace (Char.ofNat point.val)

/-- `str.split` without a separator. -/
def splitWords (text : Text) : List Text :=
  (text.splitOnP isSpacePoint).filter (· ≠ [])

/-- `_clean_text`. -/
def cleanText (value : Document) (maximum : Nat) : Text :=
  match value with
  | .str text => ((ofString " ").intercalate (splitWords text)).take maximum
  | _ => []

/-- `_clean_text(value, maximum) or None`. -/
def cleanTextOrNone (value : Document) (maximum : Nat) : Option Text :=
  let text := cleanText value maximum
  if text = [] then none else some text

/-- `SAFE_KEY_PATTERN`. -/
def isSafeKey (text : String) : Bool :=
  matchesHeadTail isLowerAlphanum
      (fun char => isLowerAlphanum char || char ∈ ['_', '.', '-']) text &&
    text.toList.length ≤ 64

/-- `str.title` of ASCII text, where a letter behind a letter is a small one. -/
def titleChars : Bool → List Char → List Char
  | _, [] => []
  | inWord, char :: rest =>
      (if inWord then char.toLower else char.toUpper) :: titleChars char.isAlpha rest

/-- `key.replace("_", " ").title()`. -/
def keyTitle (key : String) : String :=
  String.ofList (titleChars false (key.toList.map fun char => if char = '_' then ' ' else char))

def isHashable : Document → Bool
  | .arr _ => false
  | .obj _ => false
  | _ => true

/-- The value is `None` or the text. -/
def isNoneOr (expected : String) : Document → Bool
  | .null => true
  | value => value.isText expected

/-- The items of a list, and none of what is no list. -/
def listItems : Document → List Document
  | .arr items => items
  | _ => []

inductive CheckStatus where
  | pass
  | fail
  | warning
deriving DecidableEq

structure Check where
  key : String
  status : CheckStatus
  label : Text
  guidance : Text
deriving DecidableEq

/-- `status not in {"pass", "fail", "warning"}`, where `none` is in none. -/
def readCheckStatus (value : Document) : Except ClientError (Option CheckStatus) :=
  if isHashable value then
    if value.isText "pass" then .ok (some .pass)
    else if value.isText "fail" then .ok (some .fail)
    else if value.isText "warning" then .ok (some .warning)
    else .ok none
  else .error .raised

/-- `_safe_check`. -/
def safeCheck (value : Document) : Except ClientError (Option Check) :=
  match value with
  | .obj fields =>
      match (Document.get "key" fields).matchedText isSafeKey with
      | some key => do
          let status ← readCheckStatus (Document.get "status" fields)
          return status.map fun status => {
            key := key
            status := status
            label := (cleanTextOrNone (Document.get "label" fields) 120).getD
              (ofString (keyTitle key))
            guidance := cleanText (Document.get "guidance" fields) 240 }
      | none => .ok none
  | _ => .ok none

/-- The check that a blocker turns into. -/
def blockerCheck (value : Document) : Option Check :=
  match value with
  | .obj fields =>
      let code := ((Document.get "code" fields).matchedText isSafeKey).getD "preflight_blocker"
      some {
        key := code
        status := .fail
        label := ofString (keyTitle code)
        guidance := cleanText (Document.get "message" fields) 240 }
  | _ => none

structure SafeManifest where
  version : String
  commitSha : Option Text
  releaseUrl : Option Text
  expectedSchema : Option Text
deriving DecidableEq

structure SanitizedPreflight where
  targetVersion : String
  eligible : Bool
  checks : List Check
  migrationPolicy : Option MigrationPolicy
  manifest : SafeManifest
deriving DecidableEq

def safeManifest (payload : Fields) (targetVersion : String) : SafeManifest :=
  let manifest :=
    match Document.get "manifest" payload with
    | .obj fields => fields
    | _ => payload
  { version := targetVersion
    commitSha := cleanTextOrNone (Document.get "commit_sha" manifest) 64
    releaseUrl := cleanTextOrNone (Document.get "release_url" manifest) 240
    expectedSchema := cleanTextOrNone (Document.get "expected_schema" manifest) 120 }

/-- The policy that a value names. -/
def readMigrationPolicy (value : Document) : Option MigrationPolicy :=
  MigrationPolicy.values.find? fun policy => value.isText policy.text

/-- `value is True`. -/
def isTrue : Document → Bool
  | .bool value => value
  | _ => false

/-- `sanitize_preflight`. -/
def sanitizePreflight (payload : Fields) (targetVersion : String) :
    Except ClientError SanitizedPreflight := do
  let target := Document.get "target_version" payload
  if !isHashable target then .error .raised
  else if !isNoneOr targetVersion target then .error .rejected
  else
    let policy := readMigrationPolicy (Document.get "migration_policy" payload)
    let safeChecks ← ((listItems (Document.get "checks" payload)).take 32).mapM safeCheck
    let blockers := ((listItems (Document.get "blockers" payload)).take 32).filterMap blockerCheck
    let checks := safeChecks.filterMap id ++ blockers
    return {
      targetVersion := targetVersion
      eligible := isTrue (Document.get "eligible" payload) && policy.isSome &&
        checks.all (·.status ≠ .fail)
      checks := checks
      migrationPolicy := policy
      manifest := safeManifest payload targetVersion }

/-- The gate lets a run through. -/
def SanitizedPreflight.Passes (preflight : SanitizedPreflight) : Prop :=
  preflight.eligible = true ∧ preflight.migrationPolicy = some .onlineSafe

instance : DecidablePred SanitizedPreflight.Passes :=
  fun preflight => inferInstanceAs (Decidable (preflight.eligible = true ∧ _))

example : sanitizePreflight [(ofString "eligible", .bool true),
    (ofString "migration_policy", .str (ofString "online_safe")),
    (ofString "checks", .arr [.obj [(ofString "key", .str (ofString "disk_space")),
      (ofString "status", .str (ofString "pass"))]])] "1.2.3" =
    .ok {
      targetVersion := "1.2.3"
      eligible := true
      checks := [{
        key := "disk_space"
        status := .pass
        label := ofString "Disk Space"
        guidance := [] }]
      migrationPolicy := some .onlineSafe
      manifest := {
        version := "1.2.3"
        commitSha := none
        releaseUrl := none
        expectedSchema := none } } := by
  rfl

end BubllioCrm.Onboarding
