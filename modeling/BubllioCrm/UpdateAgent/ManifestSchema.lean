import BubllioCrm.UpdateAgent.Manifest

/-!
Owns the schema of a release manifest: which decoded values
`parse_verified_manifest` accepts, which errors it raises for the others, and
that the manifest it builds has the fields it was given.
-/

namespace BubllioCrm.UpdateAgent

open BubllioCrm.Foundations

variable {value raw : Json} {fields : List (String × Json)} {repository message : String}
  {expected current : StableVersion} {manifest : ReleaseManifest}

/-! ### The schema -/

/-- The checks in front of the one on the policy. -/
structure Targeted (fields : List (String × Json)) (repository : String)
    (expected current : StableVersion) : Prop where
  keys : Json.hasKeys manifestFields fields = true
  repository : Json.get "repository" fields = .str repository
  version : StableVersion.parse (Json.get "version" fields) = .ok expected
  minimum : ∃ minimum, StableVersion.parse (Json.get "min_version" fields) = .ok minimum ∧
    minimum ≤ current
  maximum : ∃ maximum, StableVersion.parse (Json.get "max_version" fields) = .ok maximum ∧
    current ≤ maximum
  upgrade : current < expected
  commitSha : ∃ sha, Json.get "commit_sha" fields = .str sha ∧ isCommitSha sha = true
  imageDigests : ∃ entries, Json.get "image_digests" fields = .obj entries ∧ entries ≠ [] ∧
    ∀ entry ∈ entries, isImageName entry.1 = true ∧
      ∃ digest, entry.2 = .str digest ∧ isDigest digest = true

/-- The checks from the policy on. -/
structure Complete (fields : List (String × Json)) : Prop where
  policy : ∃ policy ∈ policies, Json.get "migration_policy" fields = .str policy
  schema : ∃ name, Json.get "expected_schema" fields = .str name ∧ isSchemaName name = true
  timeout : ∃ seconds, Json.get "health_timeout_seconds" fields = .int seconds ∧
    5 ≤ seconds ∧ seconds ≤ 900
  rollback : ∃ flag, Json.get "rollback_compatible" fields = .bool flag

/-- The manifest has the fields of the decoded value. -/
structure SameFields (manifest : ReleaseManifest) (fields : List (String × Json)) : Prop where
  repository : Json.get "repository" fields = .str manifest.repository
  version : StableVersion.parse (Json.get "version" fields) = .ok manifest.version
  minimum : StableVersion.parse (Json.get "min_version" fields) = .ok manifest.minimumVersion
  maximum : StableVersion.parse (Json.get "max_version" fields) = .ok manifest.maximumVersion
  commitSha : Json.get "commit_sha" fields = .str manifest.commitSha
  imageDigests : Json.get "image_digests" fields =
    .obj (manifest.imageDigests.map fun entry => (entry.1, .str entry.2))
  policy : Json.get "migration_policy" fields = .str manifest.migrationPolicy
  schema : Json.get "expected_schema" fields = .str manifest.expectedSchema
  timeout : Json.get "health_timeout_seconds" fields = .int manifest.healthTimeoutSeconds
  rollback : Json.get "rollback_compatible" fields = .bool manifest.rollbackCompatible

/-! ### One field -/

theorem manifestVersion_ok {version : StableVersion} :
    manifestVersion value = .ok version ↔ StableVersion.parse value = .ok version := by
  unfold manifestVersion
  cases StableVersion.parse value <;> simp [invalidManifest]

/-- A test gives the value that it was given, if that passes. -/
theorem tested_ok {Value : Type} (accepts : Value → Prop) [DecidablePred accepts]
    {given result : Value} :
    (if accepts given then .ok given else invalidManifest message : Except Raised Value) =
      .ok result ↔ given = result ∧ accepts result := by
  unfold invalidManifest
  split_ifs with valid
  · rw [Except.ok.injEq]
    exact ⟨fun same => ⟨same, same ▸ valid⟩, And.left⟩
  · simp only [false_iff, not_and]
    exact fun same accepted => valid (same ▸ accepted)

theorem manifestSha_ok {sha : String} :
    manifestSha value = .ok sha ↔ value = .str sha ∧ isCommitSha sha = true := by
  cases value with
  | str text =>
      rw [Json.str.injEq]
      exact tested_ok (fun text => isCommitSha text = true)
  | _ => simp [manifestSha, invalidManifest]

theorem manifestPolicy_ok {policy : String} :
    manifestPolicy value = .ok policy ↔ value = .str policy ∧ policy ∈ policies := by
  cases value with
  | str text =>
      rw [Json.str.injEq]
      exact tested_ok (fun text => text ∈ policies)
  | _ => simp [manifestPolicy, invalidManifest]

theorem manifestSchema_ok {name : String} :
    manifestSchema value = .ok name ↔ value = .str name ∧ isSchemaName name = true := by
  cases value with
  | str text =>
      rw [Json.str.injEq]
      exact tested_ok (fun text => isSchemaName text = true)
  | _ => simp [manifestSchema, invalidManifest]

theorem manifestTimeout_ok {seconds : Int} :
    manifestTimeout value = .ok seconds ↔ value = .int seconds ∧ 5 ≤ seconds ∧ seconds ≤ 900 := by
  cases value with
  | int number =>
      rw [Json.int.injEq]
      exact tested_ok (fun number : Int => 5 ≤ number ∧ number ≤ 900)
  | _ => simp [manifestTimeout, invalidManifest]

theorem manifestRollback_ok {flag : Bool} :
    manifestRollback value = .ok flag ↔ value = .bool flag := by
  cases value <;> simp [manifestRollback, invalidManifest]

theorem imageDigest_eq_some {field : String × Json} {name digest : String} :
    imageDigest field = some (name, digest) ↔
      field = (name, .str digest) ∧ isImageName name = true ∧ isDigest digest = true := by
  obtain ⟨key, content⟩ := field
  cases content with
  | str text =>
      simp only [imageDigest, Prod.mk.injEq, Json.str.injEq]
      split_ifs with valid
      · rw [Bool.and_eq_true] at valid
        simp only [Option.some.injEq, Prod.mk.injEq]
        constructor
        · rintro ⟨rfl, rfl⟩
          exact ⟨⟨rfl, rfl⟩, valid⟩
        · exact And.left
      · simp only [false_iff, not_and]
        rintro ⟨rfl, rfl⟩ name digest
        exact valid (by simp [name, digest])
  | _ => simp [imageDigest]

theorem imageDigest_text {entry : String × String} :
    imageDigest (entry.1, .str entry.2) = some entry ↔
      isImageName entry.1 = true ∧ isDigest entry.2 = true :=
  imageDigest_eq_some.trans (and_iff_right rfl)

/-- Entries that are all read are the texts that were read. -/
theorem filterMap_imageDigest {entries : List (String × Json)}
    (readable : ∀ entry ∈ entries, (imageDigest entry).isSome = true) :
    (entries.filterMap imageDigest).map (fun entry => (entry.1, Json.str entry.2)) = entries := by
  induction entries with
  | nil => rfl
  | cons entry rest inductionHypothesis =>
      rw [List.forall_mem_cons] at readable
      obtain ⟨read, isRead⟩ := Option.isSome_iff_exists.mp readable.1
      have isText := (imageDigest_eq_some.mp isRead).1
      rw [List.filterMap_cons_some isRead, List.map_cons, inductionHypothesis readable.2, isText]

theorem manifestDigests_eq_ok {digests : List (String × String)} :
    manifestDigests value = .ok digests ↔
      value = .obj (digests.map fun entry => (entry.1, .str entry.2)) ∧ digests ≠ [] ∧
        ∀ entry ∈ digests, isImageName entry.1 = true ∧ isDigest entry.2 = true := by
  constructor
  · intro parsed
    have valid := manifestDigests_ok parsed
    cases value with
    | obj entries =>
        unfold manifestDigests invalidManifest at parsed
        dsimp only at parsed
        split_ifs at parsed with isEmpty readable
        have same := filterMap_imageDigest (List.all_eq_true.mp readable)
        rw [Except.ok.inj parsed] at same
        refine ⟨congrArg Json.obj same.symm, fun noDigests => isEmpty ?_, valid⟩
        rw [← same, noDigests]
        rfl
    | _ => cases parsed
  · rintro ⟨rfl, nonempty, valid⟩
    have read : ∀ entry ∈ digests, imageDigest (entry.1, .str entry.2) = some entry :=
      fun entry member => imageDigest_text.mpr (valid entry member)
    have readable : (digests.map fun entry => (entry.1, Json.str entry.2)).all
        (fun field => (imageDigest field).isSome) = true := by
      rw [List.all_map, List.all_eq_true]
      intro entry member
      rw [Function.comp_apply, read entry member]
      rfl
    have same : (digests.map fun entry => (entry.1, Json.str entry.2)).filterMap imageDigest =
        digests := by
      rw [List.filterMap_map]
      exact (List.filterMap_congr read).trans List.filterMap_some
    unfold manifestDigests
    dsimp only
    rw [if_neg (by simpa using nonempty), if_pos readable, same]

/-! ### The whole manifest -/

theorem isText_eq_true {text : String} : Json.isText text value = true ↔ value = .str text := by
  cases value <;> simp [Json.isText]

/-- What the parser accepts, and what it builds. -/
theorem parseVerifiedManifest_eq_ok :
    parseVerifiedManifest (.obj fields) repository expected current = .ok manifest ↔
      Targeted fields repository expected current ∧ Complete fields ∧
        SameFields manifest fields := by
  unfold parseVerifiedManifest
  simp only [bind_eq_ok, requireManifest_ok, pure_eq_ok, manifestVersion_ok, manifestSha_ok,
    manifestDigests_eq_ok, manifestPolicy_ok, manifestSchema_ok, manifestTimeout_ok,
    manifestRollback_ok, Bool.and_eq_true, decide_eq_true_eq]
  constructor
  · rintro ⟨-, keys, version, isVersion, minimum, isMinimum, maximum, isMaximum, -,
      ⟨isRepository, rfl⟩, -, range, -, upgrade, sha, isSha, digests, areDigests, policy, isPolicy,
      schema, isSchema, timeout, isTimeout, rollback, isRollback, rfl⟩
    have sameRepository := isText_eq_true.mp isRepository
    refine ⟨⟨keys, sameRepository, isVersion, ⟨minimum, isMinimum, range.1⟩,
      ⟨maximum, isMaximum, range.2⟩, upgrade, ⟨sha, isSha⟩, ⟨_, areDigests.1, ?_, ?_⟩⟩,
      ⟨⟨policy, isPolicy.2, isPolicy.1⟩, ⟨schema, isSchema⟩, ⟨timeout, isTimeout⟩,
        ⟨rollback, isRollback⟩⟩,
      ⟨sameRepository, isVersion, isMinimum, isMaximum, isSha.1, areDigests.1, isPolicy.1,
        isSchema.1, isTimeout.1, isRollback⟩⟩
    · simpa using areDigests.2.1
    · intro entry member
      obtain ⟨digest, isDigest, rfl⟩ := List.mem_map.mp member
      exact ⟨(areDigests.2.2 digest isDigest).1, digest.2, rfl, (areDigests.2.2 digest isDigest).2⟩
  · rintro ⟨targeted, complete, same⟩
    have sameRepository : manifest.repository = repository :=
      Json.str.inj (same.repository.symm.trans targeted.repository)
    have sameVersion : manifest.version = expected :=
      Except.ok.inj (same.version.symm.trans targeted.version)
    obtain ⟨minimum, isMinimum, above⟩ := targeted.minimum
    obtain ⟨maximum, isMaximum, below⟩ := targeted.maximum
    obtain ⟨sha, isSha, validSha⟩ := targeted.commitSha
    obtain ⟨entries, areEntries, nonempty, validEntries⟩ := targeted.imageDigests
    obtain ⟨policy, known, isPolicy⟩ := complete.policy
    obtain ⟨schema, isSchema, validSchema⟩ := complete.schema
    obtain ⟨timeout, isTimeout, inRange⟩ := complete.timeout
    rw [same.minimum] at isMinimum
    rw [same.maximum] at isMaximum
    rw [same.commitSha] at isSha
    rw [same.policy] at isPolicy
    rw [same.schema] at isSchema
    rw [same.timeout] at isTimeout
    rw [same.imageDigests] at areEntries
    have digests : manifest.imageDigests ≠ [] ∧ ∀ entry ∈ manifest.imageDigests,
        isImageName entry.1 = true ∧ isDigest entry.2 = true := by
      rw [← Json.obj.inj areEntries] at nonempty validEntries
      refine ⟨by simpa using nonempty, fun entry member => ?_⟩
      obtain ⟨name, digest, isText, valid⟩ := validEntries _ (List.mem_map_of_mem member)
      exact ⟨name, Json.str.inj isText ▸ valid⟩
    refine ⟨(), targeted.keys, _, same.version, _, same.minimum, _, same.maximum, (),
      ⟨isText_eq_true.mpr targeted.repository, sameVersion⟩, (),
      ⟨Except.ok.inj isMinimum ▸ above, Except.ok.inj isMaximum ▸ below⟩, (),
      sameVersion ▸ targeted.upgrade, _, ⟨same.commitSha, Json.str.inj isSha ▸ validSha⟩, _,
      ⟨same.imageDigests, digests⟩, _, ⟨same.policy, Json.str.inj isPolicy ▸ known⟩, _,
      ⟨same.schema, Json.str.inj isSchema ▸ validSchema⟩, _,
      ⟨same.timeout, Json.int.inj isTimeout ▸ inRange⟩, _, same.rollback, ?_⟩
    rw [← sameRepository]

/-! ### Errors -/

/-- The error is a `ManifestVerificationError`. -/
def IsVerificationError (error : Raised) : Prop :=
  ∃ message, error = .agentError .manifestVerification message

/-- A call that fails does so with a `ManifestVerificationError`. -/
def Refuses {Value : Type} (result : Except Raised Value) : Prop :=
  ∀ error, result = .error error → IsVerificationError error

theorem refuses_ok {Value : Type} (result : Value) : Refuses (.ok result : Except Raised Value) :=
  fun _ failed => by cases failed

theorem refuses_invalid {Value : Type} (message : String) :
    Refuses (invalidManifest message : Except Raised Value) :=
  fun _ failed => ⟨message, (Except.error.inj failed).symm⟩

theorem Refuses.bind {First Value : Type} {first : Except Raised First}
    {next : First → Except Raised Value} (refuses : Refuses first)
    (continues : ∀ result, first = .ok result → Refuses (next result)) :
    Refuses (first >>= next) := by
  intro error failed
  rcases bind_eq_error.mp failed with isFirst | ⟨result, returned, isNext⟩
  · exact refuses error isFirst
  · exact continues result returned error isNext

theorem requireManifest_refuses (condition : Bool) (message : String) :
    Refuses (requireManifest condition message) := by
  cases condition with
  | true => exact refuses_ok ()
  | false => exact refuses_invalid message

theorem manifestVersion_refuses (value : Json) : Refuses (manifestVersion value) := by
  unfold manifestVersion
  cases StableVersion.parse value with
  | ok version => exact refuses_ok version
  | error error => exact refuses_invalid _

/-- A test of a value refuses it or gives it back. -/
theorem tested_refuses {Value : Type} (accepts : Value → Prop) [DecidablePred accepts]
    (given : Value) :
    Refuses (if accepts given then .ok given else invalidManifest message : Except Raised Value) := by
  split_ifs with valid
  · exact refuses_ok given
  · exact refuses_invalid message

theorem manifestSha_refuses (value : Json) : Refuses (manifestSha value) := by
  cases value with
  | str text => exact tested_refuses (fun text => isCommitSha text = true) text
  | _ => exact refuses_invalid _

theorem manifestDigests_refuses (value : Json) : Refuses (manifestDigests value) := by
  cases value with
  | obj entries =>
      unfold manifestDigests
      dsimp only
      split_ifs with isEmpty readable
      · exact refuses_invalid _
      · exact refuses_ok _
      · exact refuses_invalid _
  | _ => exact refuses_invalid _

theorem manifestSchema_refuses (value : Json) : Refuses (manifestSchema value) := by
  cases value with
  | str text => exact tested_refuses (fun text => isSchemaName text = true) text
  | _ => exact refuses_invalid _

theorem manifestTimeout_refuses (value : Json) : Refuses (manifestTimeout value) := by
  cases value with
  | int number => exact tested_refuses (fun number : Int => 5 ≤ number ∧ number ≤ 900) number
  | _ => exact refuses_invalid _

theorem manifestRollback_refuses (value : Json) : Refuses (manifestRollback value) := by
  cases value with
  | bool flag => exact refuses_ok flag
  | _ => exact refuses_invalid _

/-- The value is a list or an object, so it has no hash. -/
def isContainer : Json → Bool
  | .arr _ => true
  | .obj _ => true
  | _ => false

/-- The test of a set raises another exception for a value without a hash. -/
theorem manifestPolicy_refuses_iff : Refuses (manifestPolicy value) ↔ isContainer value = false := by
  have escapes : ¬ Refuses (.error .otherException : Except Raised String) := by
    intro refuses
    obtain ⟨message, isVerification⟩ := refuses _ rfl
    cases isVerification
  cases value with
  | str text => exact iff_of_true (tested_refuses (fun text => text ∈ policies) text) rfl
  | arr items => exact iff_of_false escapes (by simp [isContainer])
  | obj entries => exact iff_of_false escapes (by simp [isContainer])
  | _ => exact iff_of_true (refuses_invalid _) rfl

/-- The checks in front of the policy, as the parser makes them. -/
theorem targeted_of_checks {version minimum maximum : StableVersion} {sha : String}
    {digests : List (String × String)}
    (keys : Json.hasKeys manifestFields fields = true)
    (isVersion : manifestVersion (Json.get "version" fields) = .ok version)
    (isMinimum : manifestVersion (Json.get "min_version" fields) = .ok minimum)
    (isMaximum : manifestVersion (Json.get "max_version" fields) = .ok maximum)
    (target : (Json.isText repository (Json.get "repository" fields) &&
      decide (version = expected)) = true)
    (range : (decide (minimum ≤ current) && decide (current ≤ maximum)) = true)
    (upgrade : decide (current < version) = true)
    (isSha : manifestSha (Json.get "commit_sha" fields) = .ok sha)
    (areDigests : manifestDigests (Json.get "image_digests" fields) = .ok digests) :
    Targeted fields repository expected current := by
  simp only [Bool.and_eq_true, decide_eq_true_eq] at target range upgrade
  obtain ⟨areEntries, nonempty, valid⟩ := manifestDigests_eq_ok.mp areDigests
  refine ⟨keys, isText_eq_true.mp target.1, target.2 ▸ manifestVersion_ok.mp isVersion,
    ⟨minimum, manifestVersion_ok.mp isMinimum, range.1⟩,
    ⟨maximum, manifestVersion_ok.mp isMaximum, range.2⟩, target.2 ▸ upgrade,
    ⟨sha, manifestSha_ok.mp isSha⟩, ⟨_, areEntries, by simpa using nonempty, ?_⟩⟩
  intro entry member
  obtain ⟨digest, stored, rfl⟩ := List.mem_map.mp member
  exact ⟨(valid digest stored).1, digest.2, rfl, (valid digest stored).2⟩

/-- Behind the checks in front of it, the policy is tested next. -/
theorem parse_of_targeted (targeted : Targeted fields repository expected current) :
    ∃ build : String → String → Int → Bool → ReleaseManifest,
      parseVerifiedManifest (.obj fields) repository expected current = do
        let policy ← manifestPolicy (Json.get "migration_policy" fields)
        let schema ← manifestSchema (Json.get "expected_schema" fields)
        let timeout ← manifestTimeout (Json.get "health_timeout_seconds" fields)
        let rollback ← manifestRollback (Json.get "rollback_compatible" fields)
        return build policy schema timeout rollback := by
  obtain ⟨minimum, isMinimum, above⟩ := targeted.minimum
  obtain ⟨maximum, isMaximum, below⟩ := targeted.maximum
  obtain ⟨sha, isSha⟩ := targeted.commitSha
  obtain ⟨entries, areEntries, nonempty, valid⟩ := targeted.imageDigests
  have readable : (entries.all fun field => (imageDigest field).isSome) = true := by
    rw [List.all_eq_true]
    rintro ⟨name, content⟩ member
    obtain ⟨isName, digest, rfl, isText⟩ := valid _ member
    rw [imageDigest_eq_some.mpr ⟨rfl, isName, isText⟩]
    rfl
  have areDigests : manifestDigests (.obj entries) = .ok (entries.filterMap imageDigest) := by
    unfold manifestDigests
    dsimp only
    rw [if_neg (by simpa using nonempty), if_pos readable]
  unfold parseVerifiedManifest
  simp only [targeted.keys, targeted.repository, manifestVersion_ok.mpr targeted.version,
    manifestVersion_ok.mpr isMinimum, manifestVersion_ok.mpr isMaximum, manifestSha_ok.mpr isSha,
    areEntries, areDigests, requireManifest, isText_eq_true.mpr, above, below, targeted.upgrade,
    decide_true, Bool.and_self, if_true, bind, Except.bind]
  exact ⟨_, rfl⟩

/-- The parser refuses what it does not accept, unless the policy is a list or an
object and every check in front of it passes. -/
theorem parse_refuses_iff :
    Refuses (parseVerifiedManifest (.obj fields) repository expected current) ↔
      (Targeted fields repository expected current →
        isContainer (Json.get "migration_policy" fields) = false) := by
  constructor
  · intro refuses targeted
    rw [← manifestPolicy_refuses_iff]
    intro error failed
    apply refuses
    obtain ⟨build, parses⟩ := parse_of_targeted targeted
    rw [parses, failed]
    rfl
  · intro hashable
    refine (requireManifest_refuses _ _).bind fun _ keys => ?_
    refine (manifestVersion_refuses _).bind fun version isVersion => ?_
    refine (manifestVersion_refuses _).bind fun minimum isMinimum => ?_
    refine (manifestVersion_refuses _).bind fun maximum isMaximum => ?_
    refine (requireManifest_refuses _ _).bind fun _ target => ?_
    refine (requireManifest_refuses _ _).bind fun _ range => ?_
    refine (requireManifest_refuses _ _).bind fun _ upgrade => ?_
    refine (manifestSha_refuses _).bind fun sha isSha => ?_
    refine (manifestDigests_refuses _).bind fun digests areDigests => ?_
    have targeted := targeted_of_checks (requireManifest_ok.mp keys) isVersion isMinimum isMaximum
      (requireManifest_ok.mp target) (requireManifest_ok.mp range)
      (requireManifest_ok.mp upgrade) isSha areDigests
    refine (manifestPolicy_refuses_iff.mpr (hashable targeted)).bind fun policy _ => ?_
    refine (manifestSchema_refuses _).bind fun schema _ => ?_
    refine (manifestTimeout_refuses _).bind fun timeout _ => ?_
    refine (manifestRollback_refuses _).bind fun rollback _ => ?_
    exact refuses_ok _

/-! ### All values -/

/-- The value is an object of the schema for the expected target. -/
def Accepted (raw : Json) (repository : String) (expected current : StableVersion) : Prop :=
  ∃ fields, raw = .obj fields ∧ Targeted fields repository expected current ∧ Complete fields

/-- The parser raises `ManifestVerificationError` or returns, returns for the
values of the schema only, and keeps their fields. -/
structure ParsesExactly (raw : Json) (repository : String) (expected current : StableVersion) :
    Prop where
  total : Refuses (parseVerifiedManifest raw repository expected current)
  returns : (∃ manifest, parseVerifiedManifest raw repository expected current = .ok manifest) ↔
    Accepted raw repository expected current
  fields : ∀ manifest fields, raw = .obj fields →
    parseVerifiedManifest raw repository expected current = .ok manifest →
      SameFields manifest fields

theorem parse_returns_iff :
    (∃ manifest, parseVerifiedManifest raw repository expected current = .ok manifest) ↔
      Accepted raw repository expected current := by
  constructor
  · rintro ⟨manifest, parsed⟩
    cases raw with
    | obj fields =>
        obtain ⟨targeted, complete, -⟩ := parseVerifiedManifest_eq_ok.mp parsed
        exact ⟨fields, rfl, targeted, complete⟩
    | _ => cases parsed
  · rintro ⟨fields, rfl, targeted, complete⟩
    obtain ⟨build, parses⟩ := parse_of_targeted targeted
    obtain ⟨policy, known, isPolicy⟩ := complete.policy
    obtain ⟨schema, isSchema⟩ := complete.schema
    obtain ⟨timeout, isTimeout⟩ := complete.timeout
    obtain ⟨rollback, isRollback⟩ := complete.rollback
    refine ⟨build policy schema timeout rollback, ?_⟩
    rw [parses, manifestPolicy_ok.mpr ⟨isPolicy, known⟩, manifestSchema_ok.mpr isSchema,
      manifestTimeout_ok.mpr isTimeout, manifestRollback_ok.mpr isRollback]
    rfl

/-- For every value, repository, target and installed version: the parser is
total and exact unless the policy is a list or an object and every check in
front of it passes. -/
theorem parsesExactly_iff (raw : Json) (repository : String) (expected current : StableVersion) :
    ParsesExactly raw repository expected current ↔
      ∀ fields, raw = .obj fields → Targeted fields repository expected current →
        isContainer (Json.get "migration_policy" fields) = false := by
  have keepsFields : ∀ manifest fields, raw = .obj fields →
      parseVerifiedManifest raw repository expected current = .ok manifest →
        SameFields manifest fields := by
    rintro manifest fields rfl parsed
    exact (parseVerifiedManifest_eq_ok.mp parsed).2.2
  constructor
  · rintro exact fields rfl
    exact parse_refuses_iff.mp exact.total
  · intro hashable
    refine ⟨?_, parse_returns_iff, keepsFields⟩
    cases raw with
    | obj fields => exact parse_refuses_iff.mpr (hashable fields rfl)
    | _ => exact refuses_invalid _

/-- A manifest of a release, but for its policy. -/
def manifestWithPolicy (policy : Json) : List (String × Json) := [
  ("repository", .str "apodimi/bubllio-crm"), ("version", .str "1.2.3"),
  ("commit_sha", .str "0123456789abcdef0123456789abcdef01234567"),
  ("image_digests", .obj [("web",
    .str "sha256:0123456789abcdef0123456789abcdef0123456789abcdef0123456789abcdef")]),
  ("min_version", .str "1.0.0"), ("max_version", .str "1.2.2"), ("migration_policy", policy),
  ("expected_schema", .str "web.0001"), ("health_timeout_seconds", .int 60),
  ("rollback_compatible", .bool true)]

/-- A policy that is a list escapes the parser as a `TypeError`. -/
theorem list_policy_escapes :
    ¬ ParsesExactly (.obj (manifestWithPolicy (.arr []))) "apodimi/bubllio-crm" ⟨1, 2, 3⟩
      ⟨1, 1, 0⟩ := by
  intro exact
  have escapes : parseVerifiedManifest (.obj (manifestWithPolicy (.arr []))) "apodimi/bubllio-crm"
      ⟨1, 2, 3⟩ ⟨1, 1, 0⟩ = .error .otherException := by
    decide +kernel
  obtain ⟨message, isVerification⟩ := exact.total _ escapes
  cases isVerification

end BubllioCrm.UpdateAgent
