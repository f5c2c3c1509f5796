import BubllioCrm.Foundations.JsonAscii
import BubllioCrm.Foundations.Polling
import BubllioCrm.Onboarding.Orchestration
import BubllioCrm.UpdateAgent.ReleaseScript

/-!
Owns the health check of the CRM, `release.py` and `health.py`, and the loop of
the update agent that asks for it until the release of a manifest answers: when
an answer of the CRM is the one that is waited for.

Does not own how a request reaches the CRM. What it comes to is the poll.
-/

namespace BubllioCrm.UpdateAgent

open BubllioCrm.Foundations

/-! ### The identity of a build -/

/-- The variables of the image, and the version of the package where there is one. -/
structure ReleaseBuild where
  releaseVersion : Option String
  releaseSha : Option String
  package : Option String

/-- `current_version`. -/
def ReleaseBuild.currentVersion (build : ReleaseBuild) : String :=
  let configured := Foundations.strip (build.releaseVersion.getD "")
  if configured ≠ "" then
    if isVersionText configured then configured else "development"
  else
    match build.package with
    | none => "development"
    | some version => if isVersionText version then version else "development"

/-- `str.lower`, as far as it gives an ASCII letter. -/
def lower (text : String) : String :=
  String.ofList (text.toList.map Onboarding.lowerChar)

/-- `current_commit_sha`. -/
def ReleaseBuild.commitSha (build : ReleaseBuild) : String :=
  let sha := lower (Foundations.strip (build.releaseSha.getD ""))
  if isCommitSha sha then sha else "unknown"

/-! ### The health check -/

/-- What the health check finds. -/
inductive Readiness where
  | databaseDown
  /-- The migrations cannot be read. -/
  | migrationsFail
  | migrationsPending
  | ready
deriving DecidableEq

structure HttpAnswer where
  status : Nat
  body : List UInt8

/-- `JsonResponse` of a `dict` of texts. -/
def jsonResponse (status : Nat) (fields : List (String × String)) : HttpAnswer where
  status := status
  body := (JsonReader.dumpsTexts fields).flatMap encodePoint

def ReleaseBuild.healthFields (build : ReleaseBuild) : List (String × String) := [
  ("status", "ok"),
  ("version", build.currentVersion),
  ("commit_sha", build.commitSha),
  ("schema", "bubllio-crm-" ++ build.currentVersion)]

/-- `health_check`. -/
def healthCheck (build : ReleaseBuild) : Readiness → HttpAnswer
  | .databaseDown => jsonResponse 503 [("status", "unavailable")]
  | .migrationsFail => jsonResponse 503 [("status", "unavailable")]
  | .migrationsPending => jsonResponse 503 [("status", "unavailable")]
  | .ready => jsonResponse 200 build.healthFields

/-! ### The loop of the agent -/

/-- What a request for the health of the CRM comes to. -/
inductive Poll where
  /-- An `OSError` or a `ValueError`, of which an `HTTPError` is one. -/
  | unreachable
  /-- An exception of `http.client` that is neither. -/
  | interrupted
  | answered (status : Nat) (body : List UInt8)

/-- `urlopen` raises an `HTTPError` for what is no success. -/
def urlopen (answer : HttpAnswer) : Poll :=
  if 200 ≤ answer.status ∧ answer.status < 300 then .answered answer.status answer.body
  else .unreachable

/-- The largest health response. -/
def maxHealthBytes : Nat := 8192

/-- `health.get(name) == expected`. -/
def hasText (name expected : String) (health : List (Text × Document)) : Bool :=
  match Document.get name health with
  | .str text => text = ofString expected
  | _ => false

/-- The comparisons with the manifest. -/
def isHealthy (manifest : ReleaseManifest) (health : List (Text × Document)) : Bool :=
  hasText "status" "ok" health && hasText "version" manifest.version.text health &&
    hasText "commit_sha" manifest.commitSha health &&
      hasText "schema" manifest.expectedSchema health

/-- The body of the `try` statement, where `none` goes on to the next pass. Its
handler catches no `RecursionError`. -/
def judge (interpreter : Interpreter) (manifest : ReleaseManifest) (poll : Poll) :
    Option (Except Raised Unit) :=
  match poll with
  | .unreachable => none
  | .interrupted => some (.error .otherException)
  | .answered status body =>
      let payload := body.take (maxHealthBytes + 1)
      if maxHealthBytes < payload.length then none
      else
        match JsonReader.loads interpreter payload with
        | .ok (.obj health) =>
            if 200 ≤ status ∧ status < 300 ∧ isHealthy manifest health then some (.ok ()) else none
        | .ok _ => none
        | .error .tooDeep => some (.error .otherException)
        | .error _ => none

/-- Nanoseconds. -/
def second : Int := 1000000000

/-- `verify`, which sleeps two seconds between the passes. -/
def verify (interpreter : Interpreter) (manifest : ReleaseManifest) (pacing : Pacing (2 * second))
    (polls : Nat → Poll) : Option (Except Raised Unit) :=
  pollUntil pacing (manifest.healthTimeoutSeconds * second)
    (fun pass => judge interpreter manifest (polls pass))
    (.error (.agentError .adapter "Health verification timed out"))

section

variable {interpreter : Interpreter} {manifest : ReleaseManifest} {build : ReleaseBuild}
  {pacing : Pacing (2 * second)}

theorem verify_isSome (polls : Nat → Poll) :
    ∃ result, verify interpreter manifest pacing polls = some result :=
  pollUntil_isSome (by decide)

/-! ### Answers of the CRM -/

/-- The build is the release of the manifest. -/
structure ReleaseBuild.Matches (build : ReleaseBuild) (manifest : ReleaseManifest) : Prop where
  version : build.currentVersion = manifest.version.text
  commitSha : build.commitSha = manifest.commitSha
  schema : "bubllio-crm-" ++ build.currentVersion = manifest.expectedSchema

theorem hasText_textFields (name found expected : String) {fields : List (String × String)}
    (isFound : fields.lookup name = some found) :
    hasText name expected (JsonReader.textFields fields) = true ↔ found = expected := by
  have isField : Document.get name (JsonReader.textFields fields) = .str (ofString found) := by
    have looked : (JsonReader.textFields fields).lookup (ofString name) =
        some (.str (ofString found)) := by
      induction fields with
      | nil => cases isFound
      | cons field rest inductionHypothesis =>
          unfold JsonReader.textFields
          rw [List.map_cons, List.lookup_cons]
          rw [List.lookup_cons] at isFound
          by_cases isName : name = field.1
          · rw [isName, beq_self_eq_true] at isFound ⊢
            rw [← Option.some.inj isFound]
          · have other : ofString name ≠ ofString field.1 := fun same =>
              isName (ofString_injective same)
            rw [beq_false_of_ne isName] at isFound
            rw [beq_false_of_ne other]
            exact inductionHypothesis isFound
    rw [Document.get, looked]
    rfl
  unfold hasText
  rw [isField]
  exact decide_eq_true_iff.trans ofString_injective.eq_iff

theorem isHealthy_healthFields :
    isHealthy manifest (JsonReader.textFields build.healthFields) = true ↔
      build.Matches manifest := by
  unfold isHealthy
  rw [Bool.and_eq_true, Bool.and_eq_true, Bool.and_eq_true,
    hasText_textFields "status" "ok" _ rfl, hasText_textFields "version" build.currentVersion _ rfl,
    hasText_textFields "commit_sha" build.commitSha _ rfl,
    hasText_textFields "schema" ("bubllio-crm-" ++ build.currentVersion) _ rfl]
  constructor
  · intro ⟨⟨⟨_, version⟩, commitSha⟩, schema⟩
    exact ⟨version, commitSha, schema⟩
  · intro same
    exact ⟨⟨⟨rfl, same.version⟩, same.commitSha⟩, same.schema⟩

/-! ### The size of an answer -/

theorem isLower_range {char : Char} (small : char.isLower = true) :
    97 ≤ char.toNat ∧ char.toNat ≤ 122 := by
  have bounds := (Bool.and_eq_true _ _).mp small
  exact ⟨UInt32.le_iff_toNat_le.mp (of_decide_eq_true bounds.1),
    UInt32.le_iff_toNat_le.mp (of_decide_eq_true bounds.2)⟩

theorem unescaped_of_isAlphanum {char : Char} (isAlphanum : char.isAlphanum = true) :
    (32 ≤ char.toNat ∧ char.toNat ≤ 126) ∧ char ≠ '"' ∧ char ≠ '\\' := by
  have other {mark : Char} (isMark : mark.isAlphanum = false) : char ≠ mark := by
    intro same
    rw [same, isMark] at isAlphanum
    cases isAlphanum
  refine ⟨?_, other (by decide), other (by decide)⟩
  rcases Bool.or_eq_true_iff.mp isAlphanum with letter | digit
  · rcases Bool.or_eq_true_iff.mp letter with upper | lower
    · have range := isUpper_range upper
      omega
    · have range := isLower_range lower
      omega
  · have range : 48 ≤ char.toNat ∧ char.toNat ≤ 57 := Char.isDigit_iff_toNat.mp digit
    omega

theorem unescaped_of_schemaChar {char : Char}
    (isSchemaChar : (char.isAlphanum || char ∈ ['_', '.', ':', '-']) = true) :
    (32 ≤ char.toNat ∧ char.toNat ≤ 126) ∧ char ≠ '"' ∧ char ≠ '\\' := by
  rcases Bool.or_eq_true_iff.mp isSchemaChar with isAlphanum | mark
  · exact unescaped_of_isAlphanum isAlphanum
  · have marks : ['_', '.', ':', '-'].all (fun mark => (32 ≤ mark.toNat ∧ mark.toNat ≤ 126) ∧
        mark ≠ '"' ∧ mark ≠ '\\') = true := by decide
    exact of_decide_eq_true (List.all_eq_true.mp marks char (of_decide_eq_true mark))

theorem isAlphanum_of_isLowerHex {char : Char} (hex : isLowerHex char = true) :
    char.isAlphanum = true := by
  rcases Bool.or_eq_true_iff.mp hex with digit | letter
  · simp [Char.isAlphanum, digit]
  · have letters : ['a', 'b', 'c', 'd', 'e', 'f'].all Char.isAlphanum = true := by decide
    exact List.all_eq_true.mp letters char (of_decide_eq_true letter)

theorem unescaped_of_schema {text : String} (isSchema : isSchemaName text = true) :
    JsonReader.Unescaped text ∧ text.length ≤ 128 := by
  unfold isSchemaName matchesAll at isSchema
  simp only [Bool.and_eq_true, decide_eq_true_eq, List.all_eq_true] at isSchema
  rw [String.length_toList] at isSchema
  exact ⟨fun char member => unescaped_of_schemaChar (isSchema.2 char member), isSchema.1.2⟩

theorem ReleaseBuild.commitSha_short (build : ReleaseBuild) :
    JsonReader.Unescaped build.commitSha ∧ build.commitSha.length ≤ 40 := by
  unfold ReleaseBuild.commitSha
  dsimp only
  split_ifs with isSha
  · unfold isCommitSha matchesAll at isSha
    simp only [Bool.and_eq_true, decide_eq_true_eq, List.all_eq_true] at isSha
    rw [String.length_toList] at isSha
    refine ⟨fun char member => unescaped_of_isAlphanum ?_, by omega⟩
    exact isAlphanum_of_isLowerHex (isSha.2 char member)
  · have schema : isSchemaName "unknown" = true := by decide
    exact ⟨(unescaped_of_schema schema).1, by decide⟩

/-- The health of the release of a manifest fits a response. -/
theorem ReleaseBuild.Matches.fits (same : build.Matches manifest)
    (isSchema : isSchemaName manifest.expectedSchema = true) :
    (jsonResponse 200 build.healthFields).body.length ≤ maxHealthBytes := by
  have ⟨schemaUnescaped, schemaShort⟩ := unescaped_of_schema isSchema
  have ⟨shaUnescaped, shaShort⟩ := build.commitSha_short
  rw [← same.schema, String.length_append] at schemaShort
  rw [← same.schema] at schemaUnescaped
  have versionUnescaped : JsonReader.Unescaped build.currentVersion := by
    intro char member
    apply schemaUnescaped
    rw [String.toList_append]
    exact List.mem_append_right _ member
  have names : ∀ name ∈ ["status", "ok", "version", "commit_sha", "schema"],
      isSchemaName name = true := by decide
  have unescaped (name : String)
      (member : name ∈ ["status", "ok", "version", "commit_sha", "schema"]) :
      JsonReader.Unescaped name := (unescaped_of_schema (names name member)).1
  have all : ∀ field ∈ build.healthFields,
      JsonReader.Unescaped field.1 ∧ JsonReader.Unescaped field.2 := by
    simp only [ReleaseBuild.healthFields, List.forall_mem_cons]
    exact ⟨⟨unescaped _ (by simp), unescaped _ (by simp)⟩,
      ⟨unescaped _ (by simp), versionUnescaped⟩, ⟨unescaped _ (by simp), shaUnescaped⟩,
      ⟨unescaped _ (by simp), schemaUnescaped⟩, nofun⟩
  have bound := JsonReader.length_dumpsTexts all
  have total : (build.healthFields.map fun field => field.1.length + field.2.length + 8).sum =
      75 + 2 * build.currentVersion.length + build.commitSha.length := by
    simp only [ReleaseBuild.healthFields, List.map_cons, List.map_nil, List.sum_cons, List.sum_nil,
      String.length_append]
    show 6 + 2 + 8 + (7 + _ + 8 + (10 + _ + 8 + (6 + (12 + _) + 8 + 0))) = _
    omega
  rw [total] at bound
  show ((JsonReader.dumpsTexts build.healthFields).flatMap encodePoint).length ≤ 8192
  omega

/-! ### Polls of a release -/

/-- What a pass of the loop meets. -/
inductive Reach where
  | unreachable
  | interrupted
  | reached (readiness : Readiness)

/-- What a request to the CRM of a build comes to. -/
def Reach.poll (build : ReleaseBuild) : Reach → Poll
  | .unreachable => .unreachable
  | .interrupted => .interrupted
  | .reached readiness => urlopen (healthCheck build readiness)

theorem judge_unready {readiness : Readiness} (unready : readiness ≠ .ready) :
    judge interpreter manifest (urlopen (healthCheck build readiness)) = none := by
  cases readiness with
  | databaseDown => rfl
  | migrationsFail => rfl
  | migrationsPending => rfl
  | ready => exact absurd rfl unready

/-- A ready CRM is healthy exactly when it is the release of the manifest. -/
theorem judge_ready (room : 0 < interpreter.readDepth)
    (isSchema : isSchemaName manifest.expectedSchema = true) (build : ReleaseBuild)
    (result : Except Raised Unit) :
    judge interpreter manifest (urlopen (healthCheck build .ready)) = some result ↔
      build.Matches manifest ∧ result = .ok () := by
  have distinct : (build.healthFields.map Prod.fst).Nodup := by
    show ["status", "version", "commit_sha", "schema"].Nodup
    decide
  have loaded := JsonReader.loads_dumpsTexts room distinct
  have opened : urlopen (healthCheck build .ready) =
      .answered 200 (jsonResponse 200 build.healthFields).body := rfl
  rw [opened]
  unfold judge
  dsimp only
  by_cases long : maxHealthBytes <
      ((jsonResponse 200 build.healthFields).body.take (maxHealthBytes + 1)).length
  · rw [if_pos long]
    refine iff_of_false nofun fun same => ?_
    have fits := same.1.fits isSchema
    rw [List.length_take] at long
    omega
  · have whole : (jsonResponse 200 build.healthFields).body.take (maxHealthBytes + 1) =
        (JsonReader.dumpsTexts build.healthFields).flatMap encodePoint := by
      rw [List.length_take] at long
      apply List.take_of_length_le
      omega
    rw [if_neg long, whole, loaded]
    dsimp only
    by_cases healthy : isHealthy manifest (JsonReader.textFields build.healthFields) = true
    · have same := isHealthy_healthFields.mp healthy
      rw [if_pos ⟨by decide, by decide, healthy⟩, Option.some.injEq]
      exact ⟨fun isResult => ⟨same, isResult.symm⟩, fun matched => matched.2.symm⟩
    · rw [if_neg fun all => healthy all.2.2]
      exact iff_of_false nofun fun matched => healthy (isHealthy_healthFields.mpr matched.1)

/-- What a pass makes of the CRM of a build. -/
theorem judge_reach (room : 0 < interpreter.readDepth)
    (isSchema : isSchemaName manifest.expectedSchema = true) (build : ReleaseBuild) (reach : Reach)
    (result : Except Raised Unit) :
    judge interpreter manifest (reach.poll build) = some result ↔
      reach = .interrupted ∧ result = .error .otherException ∨
        reach = .reached .ready ∧ build.Matches manifest ∧ result = .ok () := by
  cases reach with
  | unreachable =>
      refine iff_of_false nofun ?_
      simp
  | interrupted =>
      have raises : judge interpreter manifest (Reach.poll build .interrupted) =
          some (.error .otherException) := rfl
      rw [raises, Option.some.injEq]
      simp [eq_comm]
  | reached readiness =>
      by_cases ready : readiness = .ready
      · have isReady : Reach.poll build (.reached .ready) =
            urlopen (healthCheck build .ready) := rfl
        rw [ready, isReady, judge_ready room isSchema build result]
        simp
      · have undecided : judge interpreter manifest
            (Reach.poll build (.reached readiness)) = none := judge_unready ready
        rw [undecided]
        simp [ready]

/-- The agent sees a CRM become ready before its deadline, with nothing that
breaks off a response before. -/
structure BecomesReady (manifest : ReleaseManifest) (pacing : Pacing (2 * second))
    (reaches : Nat → Reach) (pass : Nat) : Prop where
  inTime : pacing.clock pass < pacing.started + manifest.healthTimeoutSeconds * second
  ready : reaches pass = .reached .ready
  before : ∀ earlier < pass, reaches earlier ≠ .interrupted

/-- The loop ends without an exception exactly when the CRM becomes ready and is
the release of the manifest. -/
theorem verify_eq_ok (room : 0 < interpreter.readDepth)
    (isSchema : isSchemaName manifest.expectedSchema = true) (build : ReleaseBuild)
    (reaches : Nat → Reach) :
    verify interpreter manifest pacing (fun pass => (reaches pass).poll build) = some (.ok ()) ↔
      build.Matches manifest ∧ ∃ pass, BecomesReady manifest pacing reaches pass := by
  have positive : 0 < 2 * second := by decide
  have notExpired : (.ok () : Except Raised Unit) ≠
      .error (.agentError .adapter "Health verification timed out") := nofun
  refine (pollUntil_eq_some positive notExpired).trans ?_
  constructor
  · intro ⟨pass, answers⟩
    rcases (judge_reach room isSchema build _ _).mp answers.decides with
      ⟨_, isError⟩ | ⟨ready, same, _⟩
    · cases isError
    · refine ⟨same, pass, answers.inTime, ready, fun earlier before interrupted => ?_⟩
      have raised := answers.before earlier before (.error .otherException)
        ((judge_reach room isSchema build _ _).mpr (.inl ⟨interrupted, rfl⟩))
      cases raised
  · intro ⟨same, pass, becomes⟩
    refine ⟨pass, becomes.inTime, ?_, fun earlier before other decided => ?_⟩
    · exact (judge_reach room isSchema build _ _).mpr (.inr ⟨becomes.ready, same, rfl⟩)
    · rcases (judge_reach room isSchema build _ _).mp decided with
        ⟨interrupted, _⟩ | ⟨_, _, isOk⟩
      · exact absurd interrupted (becomes.before earlier before)
      · exact isOk

end

/-! ### Images of a release -/

/-- The image that a release builds from the version and the commit of its manifest. -/
def ScriptArguments.build (package : Option String) (arguments : ScriptArguments) :
    ReleaseBuild where
  releaseVersion := some arguments.version
  releaseSha := some arguments.commitSha
  package := package

section Images

variable {text : String} {char : Char} {arguments : ScriptArguments}

theorem strip_eq_self (noSpace : ∀ char ∈ text.toList, isSpace char = false) :
    Foundations.strip text = text := by
  have kept : text.toList.dropWhile isSpace = text.toList := by
    rw [List.dropWhile_eq_self_iff]
    intro nonempty
    rw [noSpace _ (List.getElem_mem nonempty)]
    exact Bool.false_ne_true
  have keptBack : text.toList.reverse.dropWhile isSpace = text.toList.reverse := by
    rw [List.dropWhile_eq_self_iff]
    intro nonempty
    rw [noSpace _ (List.mem_reverse.mp (List.getElem_mem nonempty))]
    exact Bool.false_ne_true
  rw [Foundations.strip, kept, keptBack, List.reverse_reverse, String.ofList_toList]

/-- No decimal digit is whitespace. -/
theorem isSpace_of_isDecimal (decimal : isDecimal char = true) : isSpace char = false := by
  have spaces : ∀ number ∈ [0x9, 0xa, 0xb, 0xc, 0xd, 0x20, 0x85, 0xa0, 0x1680, 0x2000, 0x2001,
      0x2002, 0x2003, 0x2004, 0x2005, 0x2006, 0x2007, 0x2008, 0x2009, 0x200a, 0x2028, 0x2029,
      0x202f, 0x205f, 0x3000],
      decimalZeros.find? (fun first => first ≤ number && number < first + 10) = none := by
    decide
  have separators : ∀ number ∈ [0x1c, 0x1d, 0x1e, 0x1f],
      decimalZeros.find? (fun first => first ≤ number && number < first + 10) = none := by
    decide
  rw [isDecimal, decimalValue, Option.isSome_map] at decimal
  by_contra isSpaceChar
  rw [Bool.not_eq_false, isSpace, Bool.or_eq_true] at isSpaceChar
  rcases isSpaceChar with first | second
  · rw [spaces char.toNat (of_decide_eq_true first)] at decimal
    cases decimal
  · rw [separators char.toNat (of_decide_eq_true second)] at decimal
    cases decimal

theorem isSpace_of_mem_version (isVersion : isVersionText text = true)
    (member : char ∈ text.toList) : isSpace char = false := by
  have joined : ['.'].intercalate (text.toList.splitOn '.') = text.toList :=
    List.intercalate_splitOn '.'
  unfold isVersionText at isVersion
  split at isVersion
  · rename_i major minor patch split
    rw [List.all_eq_true] at isVersion
    rw [split] at joined
    rw [← joined] at member
    rcases mem_intercalate member with isDot | ⟨part, isPart, inPart⟩
    · rw [isDot]
      decide
    · have decimals := isVersion part isPart
      simp only [Bool.and_eq_true, List.all_eq_true] at decimals
      exact isSpace_of_isDecimal (decimals.2 char inPart)
  · cases isVersion

theorem currentVersion_build {package : Option String}
    (isVersion : isVersionText arguments.version = true) :
    (arguments.build package).currentVersion = arguments.version := by
  have nonempty : arguments.version ≠ "" := by
    intro isEmpty
    rw [isEmpty] at isVersion
    revert isVersion
    decide
  have stripped : Foundations.strip arguments.version = arguments.version :=
    strip_eq_self fun _ => isSpace_of_mem_version isVersion
  unfold ReleaseBuild.currentVersion ScriptArguments.build
  dsimp only [Option.getD_some]
  rw [stripped, if_pos nonempty, if_pos isVersion]

/-- A hexadecimal digit is neither stripped nor changed. -/
theorem isLowerHex_kept (hex : isLowerHex char = true) :
    isSpace char = false ∧ Onboarding.lowerChar char = char := by
  rcases Bool.or_eq_true_iff.mp hex with digit | letter
  · have range : 48 ≤ char.toNat ∧ char.toNat ≤ 57 := Char.isDigit_iff_toNat.mp digit
    refine ⟨isSpace_of_isDecimal (isDecimal_of_isDigit digit), ?_⟩
    have notUpper : ¬ (char.val ≥ 'A'.val ∧ char.val ≤ 'Z'.val) := by
      intro capital
      have letters := isUpper_range (decide_eq_true capital)
      omega
    rw [Onboarding.lowerChar, if_neg (by omega)]
    exact dif_neg notUpper
  · have letters : ['a', 'b', 'c', 'd', 'e', 'f'].all (fun letter =>
        isSpace letter = false ∧ Onboarding.lowerChar letter = letter) = true := by decide
    exact of_decide_eq_true (List.all_eq_true.mp letters char (of_decide_eq_true letter))

theorem commitSha_build {package : Option String}
    (isSha : isCommitSha arguments.commitSha = true) :
    (arguments.build package).commitSha = arguments.commitSha := by
  have hex : ∀ char ∈ arguments.commitSha.toList, isLowerHex char = true := by
    unfold isCommitSha matchesAll at isSha
    rw [Bool.and_eq_true, List.all_eq_true] at isSha
    exact isSha.2
  have stripped : Foundations.strip arguments.commitSha = arguments.commitSha :=
    strip_eq_self fun char member => (isLowerHex_kept (hex char member)).1
  have lowered : lower arguments.commitSha = arguments.commitSha := by
    have same : arguments.commitSha.toList.map Onboarding.lowerChar =
        arguments.commitSha.toList.map id :=
      List.map_congr_left fun char member => (isLowerHex_kept (hex char member)).2
    rw [lower, same, List.map_id, String.ofList_toList]
  unfold ReleaseBuild.commitSha ScriptArguments.build
  dsimp only [Option.getD_some]
  rw [stripped, lowered, if_pos isSha]

end Images

/-- The agent verifies what it deploys of a manifest of the script, once its CRM becomes
ready, exactly when the version is written in plain digits and the policy expects the
schema that the image of the version reports. -/
theorem released_verified_iff {interpreter : Interpreter} {arguments : ScriptArguments}
    {policyFile : Option (List UInt8)} {bytes bundle : List UInt8}
    {declared bundleDeclared : Option String} {verifier : Verifier} {repository : String}
    {target current : StableVersion} {verified : ReleaseManifest × List (Text × Document)}
    (room : 2 ≤ interpreter.readDepth)
    (created : createReleaseManifest interpreter arguments policyFile = .ok bytes)
    (delivers : Delivers maxManifestBytes declared bytes)
    (deliversBundle : Delivers maxBundleBytes bundleDeclared bundle)
    (accepted : verifiedManifest interpreter verifier repository target current
      (.answered declared bytes) (.answered bundleDeclared bundle) = .ok verified)
    (package : Option String) (pacing : Pacing (2 * second)) (reaches : Nat → Reach) :
    verify interpreter verified.1 pacing
        (fun pass => (reaches pass).poll (arguments.build package)) = some (.ok ()) ↔
      (arguments.version = target.text ∧ ∃ value policy,
        loadPolicy interpreter policyFile = .ok value ∧
          checkPolicy arguments.version value = .ok policy ∧
            policy.schema = "bubllio-crm-" ++ target.text) ∧
        ∃ pass, BecomesReady verified.1 pacing reaches pass := by
  have ⟨argumentsOk, value, policy, loaded, policyOk, written⟩ :=
    createReleaseManifest_eq_ok.mp created
  have checked := checked_of_ok argumentsOk policyOk
  have parsed := (parsed_of_accepted room written delivers deliversBundle accepted).2
  have ⟨targeted, _, same⟩ := parseVerifiedManifest_eq_ok.mp parsed
  have isVersion : isVersionText arguments.version = true := by
    unfold checkArguments at argumentsOk
    simp only [bind_eq_ok, require_ok] at argumentsOk
    obtain ⟨-, -, -, isVersion, -⟩ := argumentsOk
    exact isVersion
  have sameVersion : verified.1.version = target :=
    Except.ok.inj (same.version.symm.trans targeted.version)
  have sameSha : arguments.commitSha = verified.1.commitSha := Json.str.inj same.commitSha
  have sameSchema : policy.schema = verified.1.expectedSchema := Json.str.inj same.schema
  have matched : (arguments.build package).Matches verified.1 ↔
      arguments.version = target.text ∧ policy.schema = "bubllio-crm-" ++ target.text := by
    have version : (arguments.build package).currentVersion = arguments.version :=
      currentVersion_build isVersion
    have sha : (arguments.build package).commitSha = arguments.commitSha :=
      commitSha_build checked.commitSha
    constructor
    · intro isRelease
      have isText := isRelease.version
      have isSchema := isRelease.schema
      rw [version, sameVersion] at isText
      rw [version, isText, ← sameSchema] at isSchema
      exact ⟨isText, isSchema.symm⟩
    · intro ⟨isText, isSchema⟩
      refine ⟨?_, sha.trans sameSha, ?_⟩
      · rw [version, isText, sameVersion]
      · rw [version, isText, ← isSchema, sameSchema]
  rw [verify_eq_ok (by omega) (sameSchema ▸ checked.schema) _ reaches, matched]
  apply and_congr_left
  intro _
  apply and_congr_right
  intro _
  constructor
  · intro isSchema
    exact ⟨value, policy, loaded, policyOk, isSchema⟩
  · intro ⟨other, otherPolicy, otherLoaded, otherOk, isSchema⟩
    have sameValue : other = value := Except.ok.inj (otherLoaded.symm.trans loaded)
    rw [sameValue] at otherOk
    rw [Except.ok.inj (policyOk.symm.trans otherOk)]
    exact isSchema

/-- Passes that follow each other as soon as they can. -/
def promptPacing : Pacing (2 * second) where
  started := 0
  clock pass := pass * (2 * second)
  begins := by simp
  waits pass := by
    push_cast
    rw [add_mul, one_mul]

/-- The CRM starts behind the first pass. -/
def startingCrm (pass : Nat) : Reach :=
  if pass = 0 then .unreachable else .reached .ready

theorem sample_verified :
    ∃ verified, verifiedManifest usualInterpreter (fun _ _ _ => .ok ()) "apodimi/bubllio-crm"
        ⟨0, 2, 11⟩ ⟨0, 2, 10⟩ (.answered none sampleManifest) (.answered none []) = .ok verified ∧
      verify usualInterpreter verified.1 promptPacing
        (fun pass => (startingCrm pass).poll (sampleArguments.build none)) = some (.ok ()) := by
  have room : 2 ≤ usualInterpreter.readDepth := by decide
  have checked := checked_of_ok sample_arguments sample_checks
  have accepts : ∃ verified, verifiedManifest usualInterpreter (fun _ _ _ => .ok ())
      "apodimi/bubllio-crm" ⟨0, 2, 11⟩ ⟨0, 2, 10⟩ (.answered none sampleManifest)
      (.answered none []) = .ok verified :=
    accepted_of_upgrades room sample_canonical checked sample_delivers nothing_delivers rfl
      sample_upgrades
  have ⟨verified, accepted⟩ := accepts
  have parsed :=
    (parsed_of_accepted room sample_canonical sample_delivers nothing_delivers accepted).2
  have timeout : (180 : Int) = verified.1.healthTimeoutSeconds :=
    Json.int.inj (parseVerifiedManifest_eq_ok.mp parsed).2.2.timeout
  have ready : BecomesReady verified.1 promptPacing startingCrm 1 := by
    refine ⟨?_, rfl, fun earlier before => ?_⟩
    · rw [← timeout]
      decide
    · rw [Nat.lt_one_iff.mp before]
      nofun
  refine ⟨verified, accepted, (released_verified_iff room sample_written sample_delivers
    nothing_delivers accepted none promptPacing startingCrm).mpr ⟨⟨?_, ?_⟩, 1, ready⟩⟩
  · decide
  · exact ⟨samplePolicyDocument, samplePolicy, sample_loads, sample_checks, by decide⟩

end BubllioCrm.UpdateAgent
