import BubllioCrm.Foundations.Fallible
import BubllioCrm.Onboarding.Preflight

/-!
Owns when the verdict on a preflight answer is fail-closed: which checks and
blockers `sanitize_preflight` reads, which it drops, and what a verdict of
eligibility says about the answer.
-/

namespace BubllioCrm.Onboarding

open BubllioCrm.Foundations

variable {payload : Fields} {targetVersion : String} {entry value : Document}

/-! ### Entries -/

/-- The entries of a list. `None` has no entries, and any other value is one
entry that is malformed. -/
def entriesOf : Document → List Document
  | .arr items => items
  | .null => []
  | value => [value]

def isListOrNone : Document → Bool
  | .arr _ => true
  | .null => true
  | _ => false

def checksOf (payload : Fields) : List Document :=
  entriesOf (Document.get "checks" payload)

def blockersOf (payload : Fields) : List Document :=
  entriesOf (Document.get "blockers" payload)

/-- The entries of a value that are read. -/
def readOf (value : Document) : List Document :=
  (listItems value).take 32

def isObject : Document → Bool
  | .obj _ => true
  | _ => false

/-- The entry has the status `fail`. -/
def isFailure : Document → Bool
  | .obj fields => (Document.get "status" fields).isText "fail"
  | _ => false

/-- The key of the entry is a text of `SAFE_KEY_PATTERN`. -/
def hasSafeKey : Document → Bool
  | .obj fields => ((Document.get "key" fields).matchedText isSafeKey).isSome
  | _ => false

/-- The status of the entry can be looked up in a set. -/
def hasHashableStatus : Document → Bool
  | .obj fields => isHashable (Document.get "status" fields)
  | _ => true

/-- The status of the entry is one of the three that a check has. -/
def hasKnownStatus : Document → Bool
  | .obj fields =>
      ["pass", "fail", "warning"].any fun status => (Document.get "status" fields).isText status
  | _ => false

/-- The entry is a check with a safe key and a known status. -/
def isCheck (entry : Document) : Bool :=
  hasSafeKey entry && hasKnownStatus entry

/-! ### The verdict on one entry -/

theorem readCheckStatus_fail :
    readCheckStatus value = .ok (some .fail) ↔ value.isText "fail" = true := by
  cases value with
  | str text =>
      simp only [readCheckStatus, isHashable, Document.isText, if_true, decide_eq_true_eq]
      split_ifs with isPass isFail isWarning
      · simp only [isPass, Except.ok.injEq, Option.some.injEq, reduceCtorEq, false_iff]
        decide
      · simp [isFail]
      · simp only [isFail, Except.ok.injEq, Option.some.injEq, reduceCtorEq]
      · simp [isFail]
  | _ => simp [readCheckStatus, isHashable, Document.isText]

theorem readCheckStatus_known : (∃ status, readCheckStatus value = .ok (some status)) ↔
    (["pass", "fail", "warning"].any fun status => value.isText status) = true := by
  unfold readCheckStatus
  cases hashable : isHashable value with
  | false => cases value <;> simp [Document.isText, isHashable] at hashable ⊢
  | true =>
      simp only [if_true, List.any_cons, List.any_nil, Bool.or_false, Bool.or_eq_true]
      split_ifs with isPass isFail isWarning <;> simp [*]

theorem readCheckStatus_isOk :
    (∃ status, readCheckStatus value = .ok status) ↔ isHashable value = true := by
  unfold readCheckStatus
  split_ifs with hashable <;> simp [hashable]

theorem readCheckStatus_error {error : ClientError}
    (failed : readCheckStatus value = .error error) : error = .raised := by
  unfold readCheckStatus at failed
  split_ifs at failed with hashable
  exact (Except.error.inj failed).symm

/-- A check is dropped for its key, or its status decides. -/
theorem safeCheck_cases (entry : Document) :
    hasSafeKey entry = false ∧ safeCheck entry = .ok none ∨
      ∃ fields build, entry = .obj fields ∧ hasSafeKey entry = true ∧
        (∀ status : CheckStatus, (build status : Check).status = status) ∧
        safeCheck entry = do
          let status ← readCheckStatus (Document.get "status" fields)
          return status.map build := by
  cases entry with
  | obj fields =>
      cases isKey : (Document.get "key" fields).matchedText isSafeKey with
      | some key =>
          refine Or.inr ⟨fields, fun status => {
            key := key
            status := status
            label := (cleanTextOrNone (Document.get "label" fields) 120).getD
              (ofString (keyTitle key))
            guidance := cleanText (Document.get "guidance" fields) 240 }, rfl, ?_, ?_, ?_⟩
          · rw [hasSafeKey, isKey, Option.isSome_some]
          · exact fun status => rfl
          · simp only [safeCheck, isKey]
      | none =>
          refine Or.inl ⟨?_, ?_⟩
          · rw [hasSafeKey, isKey, Option.isSome_none]
          · simp only [safeCheck, isKey]
  | _ => exact Or.inl ⟨rfl, rfl⟩

theorem safeCheck_isOk : (∃ check, safeCheck entry = .ok check) ↔
    (hasSafeKey entry = true → hasHashableStatus entry = true) := by
  rcases safeCheck_cases entry with ⟨noKey, isNone⟩ | ⟨fields, build, rfl, safe, -, built⟩
  · simp [noKey, isNone]
  · rw [built, safe, hasHashableStatus, ← readCheckStatus_isOk]
    simp only [bind_eq_ok, pure_eq_ok, true_imp_iff]
    exact ⟨fun ⟨_, status, isStatus, _⟩ => ⟨status, isStatus⟩,
      fun ⟨status, isStatus⟩ => ⟨_, status, isStatus, rfl⟩⟩

theorem safeCheck_error {error : ClientError} (failed : safeCheck entry = .error error) :
    error = .raised := by
  rcases safeCheck_cases entry with ⟨-, isNone⟩ | ⟨fields, build, -, -, -, built⟩
  · rw [isNone] at failed
    cases failed
  · rw [built, bind_eq_error] at failed
    rcases failed with raised | ⟨status, -, impossible⟩
    · exact readCheckStatus_error raised
    · cases impossible

/-- The failures that are read are those with a safe key. -/
theorem safeCheck_fail_iff :
    (∃ check, safeCheck entry = .ok (some check) ∧ check.status = .fail) ↔
      hasSafeKey entry = true ∧ isFailure entry = true := by
  rcases safeCheck_cases entry with ⟨noKey, isNone⟩ | ⟨fields, build, rfl, safe, kept, built⟩
  · simp [noKey, isNone]
  · rw [built, safe, isFailure, ← readCheckStatus_fail]
    simp only [bind_eq_ok, pure_eq_ok, Option.map_eq_some_iff, true_and]
    constructor
    · rintro ⟨check, ⟨status, isStatus, value, rfl, rfl⟩, isFail⟩
      rw [kept] at isFail
      rw [isStatus, isFail]
    · intro isStatus
      exact ⟨build .fail, ⟨_, isStatus, .fail, rfl, rfl⟩, kept _⟩

theorem safeCheck_some_iff :
    (∃ check, safeCheck entry = .ok (some check)) ↔ isCheck entry = true := by
  rw [isCheck, Bool.and_eq_true]
  rcases safeCheck_cases entry with ⟨noKey, isNone⟩ | ⟨fields, build, rfl, safe, -, built⟩
  · simp [noKey, isNone]
  · rw [built, safe, hasKnownStatus, ← readCheckStatus_known]
    simp only [bind_eq_ok, pure_eq_ok, Option.map_eq_some_iff, true_and]
    constructor
    · rintro ⟨check, status, isStatus, known, rfl, -⟩
      exact ⟨known, isStatus⟩
    · rintro ⟨status, isStatus⟩
      exact ⟨build status, some status, isStatus, status, rfl, rfl⟩

/-- The check that is kept of an entry. -/
def keptCheck (entry : Document) : Option Check :=
  match safeCheck entry with
  | .ok check => check
  | .error _ => none

theorem keptCheck_isSome : (keptCheck entry).isSome = isCheck entry := by
  rw [Bool.eq_iff_iff, ← safeCheck_some_iff, keptCheck]
  cases safeCheck entry with
  | error error => simp
  | ok check => cases check <;> simp

theorem blockerCheck_isSome : (blockerCheck entry).isSome = isObject entry := by
  cases entry <;> rfl

theorem blockerCheck_fail {check : Check} (isCheck : blockerCheck entry = some check) :
    check.status = .fail := by
  cases entry with
  | obj fields => exact (Option.some.inj isCheck) ▸ rfl
  | _ => cases isCheck

/-- The entries of a list or of `None` are all read and kept. -/
structure AllKept (keeps : Document → Bool) (value : Document) : Prop where
  listed : isListOrNone value = true
  bounded : (entriesOf value).length ≤ 32
  kept : ∀ entry ∈ entriesOf value, keeps entry = true

instance (keeps : Document → Bool) (value : Document) : Decidable (AllKept keeps value) :=
  decidable_of_iff (isListOrNone value = true ∧ (entriesOf value).length ≤ 32 ∧
    ∀ entry ∈ entriesOf value, keeps entry = true)
    ⟨fun all => ⟨all.1, all.2.1, all.2.2⟩, fun all => ⟨all.listed, all.bounded, all.kept⟩⟩

theorem AllKept.readOf_eq {keeps : Document → Bool} (all : AllKept keeps value) :
    readOf value = entriesOf value := by
  cases value with
  | arr items => exact List.take_of_length_le all.bounded
  | null => rfl
  | _ => cases all.listed

/-- No more is kept of a value than it has entries. -/
theorem length_kept_le (keep : Document → Option Check) (value : Document) :
    ((readOf value).filterMap keep).length ≤ (entriesOf value).length := by
  apply (List.length_filterMap_le keep _).trans
  cases value with
  | arr items => exact List.length_take_le' 32 items
  | _ => exact Nat.zero_le _

/-- As much is kept of a value as it has entries exactly when all are kept. -/
theorem length_kept_eq (keep : Document → Option Check) (value : Document) :
    ((readOf value).filterMap keep).length = (entriesOf value).length ↔
      AllKept (fun entry => (keep entry).isSome) value := by
  constructor
  · intro same
    cases value with
    | arr items =>
        have bound := List.length_filterMap_le keep (items.take 32)
        have short : items.length ≤ 32 := by
          have taken : (items.take 32).length = min 32 items.length := List.length_take
          have same : ((items.take 32).filterMap keep).length = items.length := same
          omega
        refine ⟨rfl, short, ?_⟩
        rw [readOf, listItems, List.take_of_length_le short] at same
        exact List.filterMap_length_eq_length.mp same
    | null => exact ⟨rfl, Nat.zero_le _, fun _ member => absurd member List.not_mem_nil⟩
    | _ => cases same
  · intro all
    rw [all.readOf_eq]
    exact List.filterMap_length_eq_length.mpr all.kept

/-! ### The verdict on an answer -/

/-- The checks that are read. -/
def readChecks (payload : Fields) : List Document :=
  readOf (Document.get "checks" payload)

/-- The blockers that are read. -/
def readBlockers (payload : Fields) : List Document :=
  readOf (Document.get "blockers" payload)

/-- The result of `sanitize_preflight` for the checks that were read. -/
def verdict (payload : Fields) (targetVersion : String) (safeChecks : List (Option Check)) :
    SanitizedPreflight :=
  let policy := readMigrationPolicy (Document.get "migration_policy" payload)
  let checks := safeChecks.filterMap id ++ (readBlockers payload).filterMap blockerCheck
  { targetVersion := targetVersion
    eligible := isTrue (Document.get "eligible" payload) && policy.isSome &&
      checks.all (·.status ≠ .fail)
    checks := checks
    migrationPolicy := policy
    manifest := safeManifest payload targetVersion }

/-- The answer is read to its end: it names no other target, and no value that
cannot be hashed stands where one is looked up. -/
structure Readable (payload : Fields) (targetVersion : String) : Prop where
  hashable : isHashable (Document.get "target_version" payload) = true
  named : isNoneOr targetVersion (Document.get "target_version" payload) = true
  statuses : ∀ entry ∈ readChecks payload,
    hasSafeKey entry = true → hasHashableStatus entry = true

instance (payload : Fields) (targetVersion : String) :
    Decidable (Readable payload targetVersion) :=
  decidable_of_iff (isHashable (Document.get "target_version" payload) = true ∧
    isNoneOr targetVersion (Document.get "target_version" payload) = true ∧
      ∀ entry ∈ readChecks payload, hasSafeKey entry = true → hasHashableStatus entry = true)
    ⟨fun all => ⟨all.1, all.2.1, all.2.2⟩, fun readable =>
      ⟨readable.hashable, readable.named, readable.statuses⟩⟩

theorem sanitizePreflight_eq
    (hashable : isHashable (Document.get "target_version" payload) = true)
    (named : isNoneOr targetVersion (Document.get "target_version" payload) = true) :
    sanitizePreflight payload targetVersion = do
      let safeChecks ← (readChecks payload).mapM safeCheck
      return verdict payload targetVersion safeChecks := by
  unfold sanitizePreflight
  dsimp only
  rw [hashable, named]
  rfl

theorem sanitizePreflight_ok {preflight : SanitizedPreflight} :
    sanitizePreflight payload targetVersion = .ok preflight ↔
      isHashable (Document.get "target_version" payload) = true ∧
      isNoneOr targetVersion (Document.get "target_version" payload) = true ∧
      ∃ safeChecks, (readChecks payload).mapM safeCheck = .ok safeChecks ∧
        verdict payload targetVersion safeChecks = preflight := by
  by_cases hashable : isHashable (Document.get "target_version" payload) = true
  · by_cases named : isNoneOr targetVersion (Document.get "target_version" payload) = true
    · rw [sanitizePreflight_eq hashable named]
      simp only [hashable, named, true_and, bind_eq_ok, pure_eq_ok]
    · simp [sanitizePreflight, hashable, named]
  · simp [sanitizePreflight, hashable]

theorem sanitizePreflight_isOk :
    (∃ preflight, sanitizePreflight payload targetVersion = .ok preflight) ↔
      Readable payload targetVersion := by
  simp only [sanitizePreflight_ok]
  constructor
  · rintro ⟨-, hashable, named, safeChecks, read, -⟩
    exact ⟨hashable, named, fun entry member =>
      safeCheck_isOk.mp (mapM_isOk.mp ⟨safeChecks, read⟩ entry member)⟩
  · rintro ⟨hashable, named, statuses⟩
    obtain ⟨safeChecks, read⟩ := mapM_isOk.mpr fun entry member =>
      safeCheck_isOk.mpr (statuses entry member)
    exact ⟨_, hashable, named, safeChecks, read, rfl⟩

/-- The answer says that the release is eligible under a known policy. -/
def StatesEligible (payload : Fields) : Prop :=
  isTrue (Document.get "eligible" payload) = true ∧
    (readMigrationPolicy (Document.get "migration_policy" payload)).isSome = true

instance : DecidablePred StatesEligible :=
  fun payload => inferInstanceAs (Decidable (isTrue (Document.get "eligible" payload) = true ∧ _))

/-- A failure or a blocker is among the entries that are read. -/
def ReadsFailure (payload : Fields) : Prop :=
  (∃ entry ∈ readChecks payload, hasSafeKey entry = true ∧ isFailure entry = true) ∨
    ∃ entry ∈ readBlockers payload, isObject entry = true

instance : DecidablePred ReadsFailure :=
  fun payload => inferInstanceAs (Decidable ((∃ entry ∈ readChecks payload, _) ∨ _))

/-- The verdict has a failed check exactly where a failure was read. -/
theorem exists_fail_iff {safeChecks : List (Option Check)}
    (read : (readChecks payload).mapM safeCheck = .ok safeChecks) :
    (∃ check ∈ (verdict payload targetVersion safeChecks).checks, check.status = .fail) ↔
      ReadsFailure payload := by
  unfold ReadsFailure
  simp only [verdict, List.mem_append, List.mem_filterMap, id, exists_eq_right, or_and_right,
    exists_or]
  apply or_congr
  · constructor
    · rintro ⟨check, listed, isFail⟩
      obtain ⟨entry, member, isCheck⟩ := (mem_mapM read _).mp listed
      exact ⟨entry, member, safeCheck_fail_iff.mp ⟨check, isCheck, isFail⟩⟩
    · rintro ⟨entry, member, fails⟩
      obtain ⟨check, isCheck, isFail⟩ := safeCheck_fail_iff.mpr fails
      exact ⟨check, (mem_mapM read _).mpr ⟨entry, member, isCheck⟩, isFail⟩
  · constructor
    · rintro ⟨check, ⟨entry, member, isCheck⟩, -⟩
      refine ⟨entry, member, ?_⟩
      rw [← blockerCheck_isSome, isCheck, Option.isSome_some]
    · rintro ⟨entry, member, object⟩
      rw [← blockerCheck_isSome] at object
      obtain ⟨check, isCheck⟩ := Option.isSome_iff_exists.mp object
      exact ⟨check, ⟨entry, member, isCheck⟩, blockerCheck_fail isCheck⟩

/-- When a verdict of eligibility is given. -/
theorem sanitizePreflight_eligible :
    (∃ preflight, sanitizePreflight payload targetVersion = .ok preflight ∧
      preflight.eligible = true) ↔
      Readable payload targetVersion ∧ StatesEligible payload ∧ ¬ ReadsFailure payload := by
  have eligible : ∀ safeChecks, (readChecks payload).mapM safeCheck = .ok safeChecks →
      ((verdict payload targetVersion safeChecks).eligible = true ↔
        StatesEligible payload ∧ ¬ ReadsFailure payload) := by
    intro safeChecks read
    have fails : (∃ check ∈ (verdict payload targetVersion safeChecks).checks,
        check.status = .fail) ↔ ReadsFailure payload := exists_fail_iff read
    have allPass : (verdict payload targetVersion safeChecks).checks.all (·.status ≠ .fail) = true ↔
        ¬ ReadsFailure payload := by
      rw [← fails, List.all_eq_true]
      simp only [decide_eq_true_eq, ne_eq, not_exists, not_and]
    rw [StatesEligible, ← allPass, ← Bool.and_eq_true, ← Bool.and_eq_true]
    rfl
  constructor
  · rintro ⟨preflight, isVerdict, isEligible⟩
    refine ⟨sanitizePreflight_isOk.mp ⟨preflight, isVerdict⟩, ?_⟩
    obtain ⟨-, -, safeChecks, read, rfl⟩ := sanitizePreflight_ok.mp isVerdict
    exact (eligible safeChecks read).mp isEligible
  · rintro ⟨readable, stated⟩
    obtain ⟨preflight, isVerdict⟩ := sanitizePreflight_isOk.mpr readable
    refine ⟨preflight, isVerdict, ?_⟩
    obtain ⟨-, -, safeChecks, read, rfl⟩ := sanitizePreflight_ok.mp isVerdict
    exact (eligible safeChecks read).mpr stated

/-! ### Fail-closed verdicts -/

/-- What eligibility asks of an answer, for all its checks and blockers, of
which the verdict has dropped none. -/
structure Justified (payload : Fields) (preflight : SanitizedPreflight) : Prop where
  stated : StatesEligible payload
  checks : ∀ entry ∈ checksOf payload, isFailure entry = false
  blockers : blockersOf payload = []
  kept : preflight.checks.length = (checksOf payload).length + (blockersOf payload).length

/-- Checks and blockers stand in lists of at most 32 entries, where every check
has a safe key and a known status and every blocker is an object. -/
structure WellFormed (payload : Fields) : Prop where
  checks : AllKept isCheck (Document.get "checks" payload)
  blockers : AllKept isObject (Document.get "blockers" payload)

instance : DecidablePred WellFormed :=
  fun payload => decidable_of_iff (AllKept isCheck (Document.get "checks" payload) ∧
    AllKept isObject (Document.get "blockers" payload))
    ⟨fun both => ⟨both.1, both.2⟩, fun both => ⟨both.checks, both.blockers⟩⟩

/-- The verdict cannot be eligible, whatever was dropped. -/
def RefusedAnyway (payload : Fields) (targetVersion : String) : Prop :=
  ¬ Readable payload targetVersion ∨ ¬ StatesEligible payload ∨ ReadsFailure payload

/-- The checks of a verdict are those that are kept of the two lists. -/
theorem sanitizePreflight_checks {preflight : SanitizedPreflight}
    (isVerdict : sanitizePreflight payload targetVersion = .ok preflight) :
    preflight.checks = (readChecks payload).filterMap keptCheck ++
      (readBlockers payload).filterMap blockerCheck := by
  obtain ⟨-, -, safeChecks, read, rfl⟩ := sanitizePreflight_ok.mp isVerdict
  have returns : ∀ entry ∈ readChecks payload, safeCheck entry = .ok (keptCheck entry) := by
    intro entry member
    obtain ⟨check, isCheck⟩ := mapM_isOk.mp ⟨safeChecks, read⟩ entry member
    rw [keptCheck, isCheck]
  have areKept : safeChecks = (readChecks payload).map keptCheck :=
    Except.ok.inj (read.symm.trans (mapM_eq_ok returns))
  rw [verdict, areKept, List.filterMap_map]
  rfl

/-- The verdict has a check for every entry exactly when the answer is well formed. -/
theorem kept_iff {preflight : SanitizedPreflight}
    (isVerdict : sanitizePreflight payload targetVersion = .ok preflight) :
    preflight.checks.length = (checksOf payload).length + (blockersOf payload).length ↔
      WellFormed payload := by
  have checks : AllKept isCheck (Document.get "checks" payload) ↔
      ((readChecks payload).filterMap keptCheck).length = (checksOf payload).length := by
    rw [readChecks, checksOf, length_kept_eq, funext fun entry => keptCheck_isSome]
  have blockers : AllKept isObject (Document.get "blockers" payload) ↔
      ((readBlockers payload).filterMap blockerCheck).length = (blockersOf payload).length := by
    rw [readBlockers, blockersOf, length_kept_eq, funext fun entry => blockerCheck_isSome]
  have checksBound : ((readChecks payload).filterMap keptCheck).length ≤
    (checksOf payload).length := length_kept_le _ _
  have blockersBound : ((readBlockers payload).filterMap blockerCheck).length ≤
    (blockersOf payload).length := length_kept_le _ _
  rw [sanitizePreflight_checks isVerdict, List.length_append]
  constructor
  · intro same
    exact ⟨checks.mpr (by omega), blockers.mpr (by omega)⟩
  · intro wellFormed
    rw [checks.mp wellFormed.checks, blockers.mp wellFormed.blockers]

theorem justified_iff {preflight : SanitizedPreflight}
    (isVerdict : sanitizePreflight payload targetVersion = .ok preflight)
    (stated : StatesEligible payload) (readsNone : ¬ ReadsFailure payload) :
    Justified payload preflight ↔ WellFormed payload := by
  constructor
  · exact fun justified => (kept_iff isVerdict).mp justified.kept
  · intro wellFormed
    have allChecks : readChecks payload = checksOf payload := wellFormed.checks.readOf_eq
    have allBlockers : readBlockers payload = blockersOf payload := wellFormed.blockers.readOf_eq
    refine ⟨stated, fun entry member => ?_, ?_, (kept_iff isVerdict).mpr wellFormed⟩
    · have isCheck : hasSafeKey entry = true ∧ hasKnownStatus entry = true :=
        Bool.and_eq_true_iff.mp (wellFormed.checks.kept entry member)
      by_contra fails
      exact readsNone (Or.inl ⟨entry, allChecks ▸ member, isCheck.1, by simpa using fails⟩)
    · rw [List.eq_nil_iff_forall_not_mem]
      intro entry member
      exact readsNone (Or.inr ⟨entry, allBlockers ▸ member, wellFormed.blockers.kept entry member⟩)

/-- For every answer of the agent: a verdict of eligibility is justified by the
whole answer exactly when nothing in it is malformed or behind the 32nd entry,
or what is read refuses it anyway. -/
theorem preflight_failClosed_iff (payload : Fields) (targetVersion : String) :
    (∀ preflight, sanitizePreflight payload targetVersion = .ok preflight →
      preflight.eligible = true → Justified payload preflight) ↔
      WellFormed payload ∨ RefusedAnyway payload targetVersion := by
  unfold RefusedAnyway
  by_cases eligible : ∃ preflight, sanitizePreflight payload targetVersion = .ok preflight ∧
      preflight.eligible = true
  · obtain ⟨readable, stated, readsNone⟩ := sanitizePreflight_eligible.mp eligible
    obtain ⟨preflight, isVerdict, isEligible⟩ := eligible
    simp only [readable, stated, readsNone, not_true_eq_false, or_false]
    constructor
    · intro closed
      exact (justified_iff isVerdict stated readsNone).mp (closed preflight isVerdict isEligible)
    · intro wellFormed other isOther _
      exact (justified_iff isOther stated readsNone).mpr wellFormed
  · apply iff_of_true
    · exact fun preflight isVerdict isEligible =>
        absurd ⟨preflight, isVerdict, isEligible⟩ eligible
    · rw [sanitizePreflight_eligible] at eligible
      tauto

example : ¬ WellFormed [(ofString "blockers", .obj [])] := by
  decide

/-- A check that failed is dropped for the capital in its key. -/
def capitalKeyAnswer : Fields :=
  [(ofString "eligible", .bool true),
    (ofString "migration_policy", .str (ofString "online_safe")),
    (ofString "checks", .arr [.obj [(ofString "key", .str (ofString "Disk")),
      (ofString "status", .str (ofString "fail"))]])]

theorem failed_check_dropped : ¬ ∀ preflight,
    sanitizePreflight capitalKeyAnswer "1.2.3" = .ok preflight → preflight.eligible = true →
      Justified capitalKeyAnswer preflight := by
  intro closed
  obtain ⟨preflight, isVerdict, isEligible⟩ := sanitizePreflight_eligible.mpr
    (show Readable capitalKeyAnswer "1.2.3" ∧ StatesEligible capitalKeyAnswer ∧
      ¬ ReadsFailure capitalKeyAnswer by decide +kernel)
  have noFailure := (closed preflight isVerdict isEligible).checks _ List.mem_cons_self
  cases noFailure

end BubllioCrm.Onboarding
