import BubllioCrm.UpdateAgent.ReleaseFiles

/-!
Owns the script that writes the manifest of a release, `create_release_manifest.py`, and
what the update agent makes of what it writes: the checks of the script cover the schema of
the agent, so that only the versions, the repository and the signature are left to it.
-/

namespace BubllioCrm.UpdateAgent

open BubllioCrm.Foundations

/-! ### The script -/

/-- How the script ends when it does not write a manifest. -/
inductive ScriptFailure where
  /-- A `SystemExit`. -/
  | exit (message : String)
  /-- A `SystemExit` with the text of an `OSError` or a `JSONDecodeError` behind its message. -/
  | unreadable (message : String)
  /-- Any other exception. -/
  | raised
deriving DecidableEq

/-- `parse_args`, without the place of the output. -/
structure ScriptArguments where
  repository : String
  version : String
  commitSha : String
  backendDigest : String
  frontendDigest : String

/-- `POLICY_FIELDS`. -/
def policyFields : List String := [
  "version", "min_version", "max_version", "migration_policy", "expected_schema",
  "health_timeout_seconds", "rollback_compatible"]

/-- `VERSION_PATTERN`. -/
def isVersionText (text : String) : Bool :=
  match text.toList.splitOn '.' with
  | [major, minor, patch] => [major, minor, patch].all fun part => part ≠ [] && part.all isDecimal
  | _ => false

/-- `[A-Za-z0-9_.-]+`. -/
def isRepositoryPart (part : List Char) : Bool :=
  part ≠ [] && part.all fun char => char.isAlphanum || char ∈ ['_', '.', '-']

/-- `REPOSITORY_PATTERN`. -/
def isRepository (text : String) : Bool :=
  match text.toList.splitOn '/' with
  | [owner, name] => isRepositoryPart owner && isRepositoryPart name
  | _ => false

def require (condition : Bool) (message : String) : Except ScriptFailure Unit :=
  if condition then .ok () else .error (.exit message)

def requireText (pattern : String → Bool) (value : Document) (message : String) :
    Except ScriptFailure String :=
  match Document.matchedText pattern value with
  | some text => .ok text
  | none => .error (.exit message)

/-- `policy["migration_policy"] not in {...}`, where a list or an object has no hash. -/
def requirePolicy (value : Document) : Except ScriptFailure String :=
  match value with
  | .arr _ => .error .raised
  | .obj _ => .error .raised
  | _ => requireText (· ∈ policies) value "Release policy has an unsupported migration policy"

/-- A boolean is no integer here. -/
def requireTimeout (value : Document) : Except ScriptFailure ShortInt :=
  match value with
  | .int number =>
      if 5 ≤ number.val ∧ number.val ≤ 900 then .ok number
      else .error (.exit "Release policy health_timeout_seconds must be between 5 and 900")
  | _ => .error (.exit "Release policy health_timeout_seconds must be between 5 and 900")

def requireRollback (value : Document) : Except ScriptFailure Bool :=
  match value with
  | .bool flag => .ok flag
  | _ => .error (.exit "Release policy rollback_compatible must be boolean")

/-- The values of a policy that pass the checks of the script. -/
structure ReleasePolicy where
  minimum : String
  maximum : String
  migration : String
  schema : String
  timeout : ShortInt
  rollback : Bool

/-- `json.loads(policy_path.read_text(encoding="utf-8"))`; there may be no file. -/
def loadPolicy (interpreter : Interpreter) (policyFile : Option (List UInt8)) :
    Except ScriptFailure Document :=
  match policyFile with
  | none => .error (.unreadable "Could not read release policy: ")
  | some file =>
      match readText file with
      | none => .error .raised
      | some text =>
          match JsonReader.read interpreter text with
          | .ok value => .ok value
          | .error .jsonDecode => .error (.unreadable "Could not read release policy: ")
          | .error _ => .error .raised

/-- The checks of the policy for a version. -/
def checkPolicy (version : String) (value : Document) : Except ScriptFailure ReleasePolicy :=
  match value with
  | .obj policy => do
      require (Document.hasKeys policyFields policy)
        "Release policy fields do not match the supported schema"
      require (Document.matchedText (· = version) (Document.get "version" policy)).isSome
        "Release policy version does not match the requested version"
      let minimum ← requireText isVersionText (Document.get "min_version" policy)
        "Release policy min_version must use stable MAJOR.MINOR.PATCH format"
      let maximum ← requireText isVersionText (Document.get "max_version" policy)
        "Release policy max_version must use stable MAJOR.MINOR.PATCH format"
      let migration ← requirePolicy (Document.get "migration_policy" policy)
      let schema ← requireText isSchemaName (Document.get "expected_schema" policy)
        "Release policy expected_schema is invalid"
      let timeout ← requireTimeout (Document.get "health_timeout_seconds" policy)
      let rollback ← requireRollback (Document.get "rollback_compatible" policy)
      return { minimum, maximum, migration, schema, timeout, rollback }
  | _ => .error (.exit "Release policy fields do not match the supported schema")

/-- The manifest that the script builds. -/
def releaseDocument (arguments : ScriptArguments) (policy : ReleasePolicy) : Document :=
  .obj [
    (ofString "repository", .str (ofString arguments.repository)),
    (ofString "version", .str (ofString arguments.version)),
    (ofString "commit_sha", .str (ofString arguments.commitSha)),
    (ofString "image_digests", .obj [
      (ofString "backend", .str (ofString arguments.backendDigest)),
      (ofString "frontend", .str (ofString arguments.frontendDigest))]),
    (ofString "min_version", .str (ofString policy.minimum)),
    (ofString "max_version", .str (ofString policy.maximum)),
    (ofString "migration_policy", .str (ofString policy.migration)),
    (ofString "expected_schema", .str (ofString policy.schema)),
    (ofString "health_timeout_seconds", .int policy.timeout),
    (ofString "rollback_compatible", .bool policy.rollback)]

def checkArguments (arguments : ScriptArguments) : Except ScriptFailure Unit := do
  require (isRepository arguments.repository) "Repository must use owner/name format"
  require (isVersionText arguments.version) "Version must use stable MAJOR.MINOR.PATCH format"
  require (isCommitSha arguments.commitSha) "Commit SHA must be a full lowercase Git SHA"
  require (isDigest arguments.backendDigest)
    "Backend image digest must be sha256:<64 lowercase hex characters>"
  require (isDigest arguments.frontendDigest)
    "Frontend image digest must be sha256:<64 lowercase hex characters>"

/-- `main`, and the file that it writes. -/
def createReleaseManifest (interpreter : Interpreter) (arguments : ScriptArguments)
    (policyFile : Option (List UInt8)) : Except ScriptFailure (List UInt8) := do
  checkArguments arguments
  let value ← loadPolicy interpreter policyFile
  let policy ← checkPolicy arguments.version value
  match ((releaseDocument arguments policy).dumps interpreter).bind encode with
  | some bytes => return bytes
  | none => .error .raised

section

variable {interpreter : Interpreter} {arguments : ScriptArguments} {policy : ReleasePolicy}
variable {policyFile : Option (List UInt8)} {bytes : List UInt8} {message : String}
variable {value : Document}

/-! ### What has passed the checks -/

theorem require_ok {condition : Bool} {result : Unit} :
    require condition message = .ok result ↔ condition = true := by
  cases condition <;> simp [require]

theorem requireText_ok {pattern : String → Bool} {text : String}
    (required : requireText pattern value message = .ok text) : pattern text = true := by
  unfold requireText Document.matchedText at required
  cases value with
  | str content =>
      dsimp only at required
      split_ifs at required with matched
      rw [← Except.ok.inj required]
      exact (Bool.and_eq_true _ _ ▸ matched).2
  | _ => cases required

theorem requirePolicy_ok {migration : String} (required : requirePolicy value = .ok migration) :
    migration ∈ policies := by
  have matched (found : requireText (· ∈ policies) value
      "Release policy has an unsupported migration policy" = .ok migration) :
      migration ∈ policies := of_decide_eq_true (requireText_ok found)
  cases value with
  | arr items => cases required
  | obj fields => cases required
  | _ => exact matched required

theorem requireTimeout_ok {timeout : ShortInt} (required : requireTimeout value = .ok timeout) :
    5 ≤ timeout.val ∧ timeout.val ≤ 900 := by
  unfold requireTimeout at required
  cases value with
  | int number =>
      dsimp only at required
      split_ifs at required with inRange
      cases required
      exact inRange
  | _ => cases required

/-- The values of a manifest that the agent checks by themselves. -/
structure Checked (arguments : ScriptArguments) (policy : ReleasePolicy) : Prop where
  commitSha : isCommitSha arguments.commitSha = true
  backend : isDigest arguments.backendDigest = true
  frontend : isDigest arguments.frontendDigest = true
  migration : policy.migration ∈ policies
  schema : isSchemaName policy.schema = true
  timeout : 5 ≤ policy.timeout.val ∧ policy.timeout.val ≤ 900

theorem checked_of_ok (argumentsOk : checkArguments arguments = .ok ())
    (policyOk : checkPolicy arguments.version value = .ok policy) : Checked arguments policy := by
  unfold checkArguments at argumentsOk
  simp only [bind_eq_ok, require_ok] at argumentsOk
  obtain ⟨-, -, -, -, -, commitSha, -, backend, frontend⟩ := argumentsOk
  unfold checkPolicy at policyOk
  cases value with
  | obj fields =>
      simp only [bind_eq_ok, pure_eq_ok] at policyOk
      obtain ⟨-, -, -, -, minimum, -, maximum, -, migration, isMigration, schema, isSchema, timeout,
        isTimeout, rollback, -, rfl⟩ := policyOk
      exact ⟨commitSha, backend, frontend, requirePolicy_ok isMigration, requireText_ok isSchema,
        requireTimeout_ok isTimeout⟩
  | _ => cases policyOk

/-! ### The manifest that is written -/

/-- The fields in the order in which they are written. -/
def releaseFields (arguments : ScriptArguments) (policy : ReleasePolicy) :
    List (Text × Document) := [
  (ofString "commit_sha", .str (ofString arguments.commitSha)),
  (ofString "expected_schema", .str (ofString policy.schema)),
  (ofString "health_timeout_seconds", .int policy.timeout),
  (ofString "image_digests", .obj [
    (ofString "backend", .str (ofString arguments.backendDigest)),
    (ofString "frontend", .str (ofString arguments.frontendDigest))]),
  (ofString "max_version", .str (ofString policy.maximum)),
  (ofString "migration_policy", .str (ofString policy.migration)),
  (ofString "min_version", .str (ofString policy.minimum)),
  (ofString "repository", .str (ofString arguments.repository)),
  (ofString "rollback_compatible", .bool policy.rollback),
  (ofString "version", .str (ofString arguments.version))]

theorem sorted_releaseDocument :
    (releaseDocument arguments policy).sorted = .obj (releaseFields arguments policy) := by
  rfl

theorem depth_releaseDocument : (releaseDocument arguments policy).depth = 2 := by
  rfl

theorem ofString_nodup {names : List String} (nodup : names.Nodup) :
    (names.map ofString).Nodup :=
  nodup.map ofString_injective

theorem readable_releaseDocument :
    JsonReader.Readable interpreter (releaseDocument arguments policy) := by
  have fields : (["repository", "version", "commit_sha", "image_digests", "min_version",
      "max_version", "migration_policy", "expected_schema", "health_timeout_seconds",
      "rollback_compatible"].map ofString).Nodup := ofString_nodup (by decide)
  have digests : (["backend", "frontend"].map ofString).Nodup := ofString_nodup (by decide)
  exact ⟨fields, trivial, trivial, trivial, ⟨digests, trivial, trivial, trivial⟩, trivial, trivial,
    trivial, trivial, trivial, trivial, trivial⟩

/-- What is written is the canonical form of the fields in order, and is read as them. -/
theorem released_canonical (room : 2 ≤ interpreter.readDepth)
    (written : canonicalManifestBytes interpreter (releaseDocument arguments policy) = .ok bytes) :
    JsonReader.loads interpreter bytes = .ok (.obj (releaseFields arguments policy)) ∧
      canonicalManifestBytes interpreter (.obj (releaseFields arguments policy)) =
        .ok (strip bytes) := by
  have isForm := canonicalManifestBytes_eq_ok.mp written
  have starts : StartsPlain (releaseDocument arguments policy).write :=
    Document.startsPlain_write_obj _
  constructor
  · rw [← isForm.2, JsonReader.loads, decodeDetected_flatMap starts, ← sorted_releaseDocument]
    exact JsonReader.read_write readable_releaseDocument (depth_releaseDocument ▸ room)
  · rw [strip_canonical written, ← sorted_releaseDocument, canonicalManifestBytes_eq_ok,
      Document.depth_sorted, Document.hasSurrogate_sorted, Document.write_sorted]
    exact isForm

/-- The decoded form of the fields. -/
def releaseJson (arguments : ScriptArguments) (policy : ReleasePolicy) : List (String × Json) := [
  ("commit_sha", .str arguments.commitSha),
  ("expected_schema", .str policy.schema),
  ("health_timeout_seconds", .int policy.timeout.val),
  ("image_digests", .obj [
    ("backend", .str arguments.backendDigest),
    ("frontend", .str arguments.frontendDigest)]),
  ("max_version", .str policy.maximum),
  ("migration_policy", .str policy.migration),
  ("min_version", .str policy.minimum),
  ("repository", .str arguments.repository),
  ("rollback_compatible", .bool policy.rollback),
  ("version", .str arguments.version)]

theorem toJson_releaseFields : toJson (.obj (releaseFields arguments policy)) =
    .obj (releaseJson arguments policy) := by
  simp only [releaseFields, toJson, fieldsToJson, toText_ofString, releaseJson]

/-! ### What is left to the agent -/

variable {repository : String} {target current : StableVersion}

/-- The release is for the repository and the target, and the installed version is in its
range and below it. -/
structure Upgrades (arguments : ScriptArguments) (policy : ReleasePolicy) (repository : String)
    (target current : StableVersion) : Prop where
  repository : arguments.repository = repository
  version : StableVersion.parse (.str arguments.version) = .ok target
  minimum : ∃ minimum, StableVersion.parse (.str policy.minimum) = .ok minimum ∧ minimum ≤ current
  maximum : ∃ maximum, StableVersion.parse (.str policy.maximum) = .ok maximum ∧ current ≤ maximum
  upgrade : current < target

/-- A checked manifest is accepted exactly when it upgrades. -/
theorem accepted_release_iff (checked : Checked arguments policy) :
    Accepted (.obj (releaseJson arguments policy)) repository target current ↔
      Upgrades arguments policy repository target current := by
  constructor
  · rintro ⟨fields, same, targeted, -⟩
    cases same
    exact ⟨Json.str.inj targeted.repository, targeted.version, targeted.minimum,
      targeted.maximum, targeted.upgrade⟩
  · intro upgrades
    refine ⟨_, rfl, ⟨?_, ?_, upgrades.version, upgrades.minimum, upgrades.maximum,
      upgrades.upgrade, ⟨_, rfl, checked.commitSha⟩, ⟨_, rfl, by simp, ?_⟩⟩,
      ⟨⟨_, checked.migration, rfl⟩, ⟨_, rfl, checked.schema⟩, ⟨_, rfl, checked.timeout⟩,
        ⟨_, rfl⟩⟩⟩
    · rfl
    · rw [← upgrades.repository]
      rfl
    · have backend : isImageName "backend" = true := by decide
      have frontend : isImageName "frontend" = true := by decide
      intro entry member
      simp only [List.mem_cons, List.not_mem_nil, or_false] at member
      rcases member with rfl | rfl
      · exact ⟨backend, _, rfl, checked.backend⟩
      · exact ⟨frontend, _, rfl, checked.frontend⟩

theorem createReleaseManifest_eq_ok :
    createReleaseManifest interpreter arguments policyFile = .ok bytes ↔
      checkArguments arguments = .ok () ∧ ∃ value policy,
        loadPolicy interpreter policyFile = .ok value ∧
          checkPolicy arguments.version value = .ok policy ∧
            canonicalManifestBytes interpreter (releaseDocument arguments policy) = .ok bytes := by
  have written (policy : ReleasePolicy) :
      (match ((releaseDocument arguments policy).dumps interpreter).bind encode with
        | some bytes => pure bytes
        | none => .error .raised : Except ScriptFailure (List UInt8)) = .ok bytes ↔
        canonicalManifestBytes interpreter (releaseDocument arguments policy) = .ok bytes := by
    unfold canonicalManifestBytes
    cases ((releaseDocument arguments policy).dumps interpreter).bind encode with
    | none => simp
    | some result => simp [pure, Except.pure]
  unfold createReleaseManifest
  simp only [bind_eq_ok, written]
  constructor
  · rintro ⟨_, argumentsOk, value, loaded, policy, policyOk, isWritten⟩
    exact ⟨argumentsOk, value, policy, loaded, policyOk, isWritten⟩
  · rintro ⟨argumentsOk, value, policy, loaded, policyOk, isWritten⟩
    exact ⟨(), argumentsOk, value, loaded, policy, policyOk, isWritten⟩

/-- A manifest of the script that the agent accepts is signed, and parsed with the values
that the script wrote. -/
theorem parsed_of_accepted {bundle : List UInt8} {declared bundleDeclared : Option String}
    {verify : Verifier} {verified : ReleaseManifest × List (Text × Document)}
    (room : 2 ≤ interpreter.readDepth)
    (written : canonicalManifestBytes interpreter (releaseDocument arguments policy) = .ok bytes)
    (delivers : Delivers maxManifestBytes declared bytes)
    (deliversBundle : Delivers maxBundleBytes bundleDeclared bundle)
    (accepted : verifiedManifest interpreter verify repository target current
      (.answered declared bytes) (.answered bundleDeclared bundle) = .ok verified) :
    verify bytes bundle target = .ok () ∧ parseVerifiedManifest
      (.obj (releaseJson arguments policy)) repository target current = .ok verified.1 := by
  have loaded := (released_canonical room written).1
  have stripped : strip bytes = bytes := strip_canonical written
  obtain ⟨isLoaded, publishable⟩ := (verifiedManifest_eq_ok delivers deliversBundle).mp accepted
  have fields : verified.2 = releaseFields arguments policy :=
    Document.obj.inj (Except.ok.inj (isLoaded.symm.trans loaded))
  have parsed := publishable.parsed
  rw [fields, toJson_releaseFields] at parsed
  exact ⟨stripped ▸ publishable.signed, parsed⟩

/-- A signed manifest of the script that upgrades is accepted. -/
theorem accepted_of_upgrades {bundle : List UInt8} {declared bundleDeclared : Option String}
    {verify : Verifier} (room : 2 ≤ interpreter.readDepth)
    (written : canonicalManifestBytes interpreter (releaseDocument arguments policy) = .ok bytes)
    (checked : Checked arguments policy) (delivers : Delivers maxManifestBytes declared bytes)
    (deliversBundle : Delivers maxBundleBytes bundleDeclared bundle)
    (signed : verify bytes bundle target = .ok ())
    (upgrades : Upgrades arguments policy repository target current) :
    ∃ verified, verifiedManifest interpreter verify repository target current
      (.answered declared bytes) (.answered bundleDeclared bundle) = .ok verified := by
  have ⟨loaded, isCanonical⟩ := released_canonical room written
  obtain ⟨manifest, parsed⟩ := parse_returns_iff.mpr ((accepted_release_iff checked).mpr upgrades)
  refine ⟨(manifest, releaseFields arguments policy),
    (verifiedManifest_eq_ok delivers deliversBundle).mpr ⟨loaded, isCanonical, ?_, ?_⟩⟩
  · rw [strip_canonical written]
    exact signed
  · rw [toJson_releaseFields]
    exact parsed

end

/-- Whatever manifest the script writes, the agent accepts it within the limits of a download
exactly when it is signed and the release upgrades the installed version; what it then
deploys are the commit and the two images that the script was given. -/
theorem released_accepted_iff {interpreter : Interpreter} {arguments : ScriptArguments}
    {policyFile : Option (List UInt8)} {bytes bundle : List UInt8}
    {declared bundleDeclared : Option String} (room : 2 ≤ interpreter.readDepth)
    (created : createReleaseManifest interpreter arguments policyFile = .ok bytes)
    (delivers : Delivers maxManifestBytes declared bytes)
    (deliversBundle : Delivers maxBundleBytes bundleDeclared bundle)
    (verify : Verifier) (repository : String) (target current : StableVersion) :
    ((∃ verified, verifiedManifest interpreter verify repository target current
        (.answered declared bytes) (.answered bundleDeclared bundle) = .ok verified) ↔
      verify bytes bundle target = .ok () ∧
        ∃ value policy, loadPolicy interpreter policyFile = .ok value ∧
          checkPolicy arguments.version value = .ok policy ∧
            Upgrades arguments policy repository target current) ∧
      ∀ verified, verifiedManifest interpreter verify repository target current
        (.answered declared bytes) (.answered bundleDeclared bundle) = .ok verified →
          verified.1.commitSha = arguments.commitSha ∧ verified.1.imageDigests =
            [("backend", arguments.backendDigest), ("frontend", arguments.frontendDigest)] := by
  obtain ⟨argumentsOk, value, policy, loadedPolicy, policyOk, written⟩ :=
    createReleaseManifest_eq_ok.mp created
  have checked := checked_of_ok argumentsOk policyOk
  refine ⟨⟨?_, ?_⟩, ?_⟩
  · rintro ⟨verified, accepted⟩
    obtain ⟨signed, parsed⟩ :=
      parsed_of_accepted room written delivers deliversBundle accepted
    exact ⟨signed, value, policy, loadedPolicy, policyOk,
      (accepted_release_iff checked).mp (parse_returns_iff.mp ⟨verified.1, parsed⟩)⟩
  · rintro ⟨signed, otherValue, otherPolicy, otherLoaded, otherOk, upgrades⟩
    have sameValue : otherValue = value := Except.ok.inj (otherLoaded.symm.trans loadedPolicy)
    rw [sameValue] at otherOk
    have samePolicy : otherPolicy = policy := Except.ok.inj (otherOk.symm.trans policyOk)
    rw [samePolicy] at upgrades
    exact accepted_of_upgrades room written checked delivers deliversBundle signed upgrades
  · intro verified accepted
    have parsed := (parsed_of_accepted room written delivers deliversBundle accepted).2
    have same := (parseVerifiedManifest_eq_ok.mp parsed).2.2
    have injective : Function.Injective fun entry : String × String =>
        (entry.1, Json.str entry.2) := by
      rintro ⟨name, digest⟩ ⟨other, otherDigest⟩ sameEntry
      simpa using sameEntry
    have digests : [("backend", arguments.backendDigest),
        ("frontend", arguments.frontendDigest)].map (fun entry => (entry.1, Json.str entry.2)) =
          verified.1.imageDigests.map fun entry => (entry.1, Json.str entry.2) :=
      Json.obj.inj same.imageDigests
    exact ⟨(Json.str.inj same.commitSha).symm, (List.map_injective_iff.mpr injective digests).symm⟩

/-! ### A release -/

/-- A policy that was written as JSON is loaded with its fields in order. -/
theorem loadPolicy_written {interpreter : Interpreter} {policy : Document}
    (readable : JsonReader.Readable interpreter policy)
    (room : policy.depth ≤ interpreter.readDepth) (plain : policy.hasSurrogate = false) :
    loadPolicy interpreter (some (policy.write.flatMap encodePoint)) = .ok policy.sorted := by
  have isText : readText (policy.write.flatMap encodePoint) = some policy.write := by
    have visible := translateNewlines_visible (JsonReader.visible_write policy readable) []
    rw [List.append_nil, translateNewlines, List.append_nil] at visible
    rw [readText, decodeUtf8_flatMap]
    show (if _ then _ else _) = _
    rw [Document.write_surrogate, plain, if_neg Bool.false_ne_true, visible]
    rfl
  unfold loadPolicy
  dsimp only
  rw [isText]
  dsimp only
  rw [JsonReader.read_write readable room]

def sampleTimeout : ShortInt :=
  ⟨180, (show 180 < 10 ^ 3 by decide).trans_le (Nat.pow_le_pow_right (by decide) (by decide))⟩

def samplePolicy : ReleasePolicy where
  minimum := "0.2.10"
  maximum := "0.2.10"
  migration := "online_safe"
  schema := "bubllio-crm-0.2.11"
  timeout := sampleTimeout
  rollback := true

/-- The policy of version 0.2.11. -/
def samplePolicyDocument : Document :=
  .obj [
    (ofString "expected_schema", .str (ofString "bubllio-crm-0.2.11")),
    (ofString "health_timeout_seconds", .int sampleTimeout),
    (ofString "max_version", .str (ofString "0.2.10")),
    (ofString "migration_policy", .str (ofString "online_safe")),
    (ofString "min_version", .str (ofString "0.2.10")),
    (ofString "rollback_compatible", .bool true),
    (ofString "version", .str (ofString "0.2.11"))]

def sampleDigest : String :=
  "sha256:0123456789abcdef0123456789abcdef0123456789abcdef0123456789abcdef"

def sampleArguments : ScriptArguments where
  repository := "apodimi/bubllio-crm"
  version := "0.2.11"
  commitSha := "0123456789abcdef0123456789abcdef01234567"
  backendDigest := sampleDigest
  frontendDigest := sampleDigest

def samplePolicyFile : List UInt8 :=
  samplePolicyDocument.write.flatMap encodePoint

def sampleManifest : List UInt8 :=
  (releaseDocument sampleArguments samplePolicy).write.flatMap encodePoint

theorem sample_loads : loadPolicy usualInterpreter (some samplePolicyFile) =
    .ok samplePolicyDocument := by
  have names : (["expected_schema", "health_timeout_seconds", "max_version", "migration_policy",
      "min_version", "rollback_compatible", "version"].map ofString).Nodup :=
    ofString_nodup (by decide)
  have readable : JsonReader.Readable usualInterpreter samplePolicyDocument :=
    ⟨names, trivial, trivial, trivial, trivial, trivial, trivial, trivial, trivial⟩
  have plain : samplePolicyDocument.hasSurrogate = false := by
    simp [samplePolicyDocument, Document.hasSurrogate, Document.fieldsHaveSurrogate,
      ofString_no_surrogate]
  exact loadPolicy_written readable (by decide) plain

theorem sample_checks :
    checkPolicy sampleArguments.version samplePolicyDocument = .ok samplePolicy := by
  rfl

theorem sample_arguments : checkArguments sampleArguments = .ok () := by
  decide +kernel

theorem sample_canonical : canonicalManifestBytes usualInterpreter
    (releaseDocument sampleArguments samplePolicy) = .ok sampleManifest := by
  have plain : (releaseDocument sampleArguments samplePolicy).write.any isSurrogate = false := by
    rw [Document.write_surrogate]
    simp [releaseDocument, Document.hasSurrogate, Document.fieldsHaveSurrogate,
      ofString_no_surrogate]
  have shallow : ¬ usualInterpreter.writeDepth <
      (releaseDocument sampleArguments samplePolicy).depth := by decide
  rw [canonicalManifestBytes_eq_ok, ← Document.write_surrogate, plain]
  exact ⟨not_or.mpr ⟨shallow, Bool.false_ne_true⟩, rfl⟩

theorem sample_written :
    createReleaseManifest usualInterpreter sampleArguments (some samplePolicyFile) =
      .ok sampleManifest :=
  createReleaseManifest_eq_ok.mpr ⟨sample_arguments, samplePolicyDocument, samplePolicy,
    sample_loads, sample_checks, sample_canonical⟩

theorem sample_delivers : Delivers maxManifestBytes none sampleManifest :=
  ⟨by simp, by decide +kernel⟩

theorem nothing_delivers : Delivers maxBundleBytes none [] :=
  ⟨by simp, by decide⟩

theorem sample_upgrades : Upgrades sampleArguments samplePolicy "apodimi/bubllio-crm" ⟨0, 2, 11⟩
    ⟨0, 2, 10⟩ := by
  have parsed : StableVersion.parse (.str "0.2.10") = .ok ⟨0, 2, 10⟩ := by decide +kernel
  have target : StableVersion.parse (.str "0.2.11") = .ok ⟨0, 2, 11⟩ := by decide +kernel
  exact ⟨rfl, target, ⟨_, parsed, le_rfl⟩, ⟨_, parsed, le_rfl⟩, by decide⟩

theorem sample_accepted :
    ∃ verified, verifiedManifest usualInterpreter (fun _ _ _ => .ok ()) "apodimi/bubllio-crm"
      ⟨0, 2, 11⟩ ⟨0, 2, 10⟩ (.answered none sampleManifest) (.answered none []) = .ok verified :=
  (released_accepted_iff (by decide) sample_written sample_delivers nothing_delivers _ _ _ _).1.mpr
    ⟨rfl, _, _, sample_loads, sample_checks, sample_upgrades⟩

end BubllioCrm.UpdateAgent
