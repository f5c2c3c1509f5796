import BubllioCrm.Onboarding.Eligibility
import BubllioCrm.Onboarding.Steps

/-!
Owns which exceptions an answer of the agent can cause: those of
`sanitize_preflight`, and those of `sync_update_run` with what it stores.

The functions promise the two errors of the client. What escapes is a lookup of
a list or an object in a set or a `dict`, and a text that cannot be stored.
-/

namespace BubllioCrm.Onboarding

open BubllioCrm.Foundations

variable {payload : Fields} {targetVersion : String} {run synced : InstallationUpdateRun}
  {error : ClientError}

/-! ### The stored runs with their events -/

/-- An event of `sync_update_run`. Its details are the progress of the run. -/
structure UpdateEvent where
  run : Nat
  action : RunStatus
  progress : Nat
deriving DecidableEq

structure UpdateStore where
  runs : UpdateRuns
  events : List UpdateEvent

/-- The database takes a text unless it has a NUL, and a surrogate cannot be
encoded for it. -/
def isStorable (text : Text) : Bool :=
  text.all fun point => point.val != 0 && !isSurrogate point

/-- `run.save()`, where `none` is an exception of the database. -/
def UpdateStore.saveRun (synced : InstallationUpdateRun) (store : UpdateStore) :
    Option UpdateStore :=
  if isStorable synced.phaseLabel then
    (store.runs.save synced.id fun _ => synced).map fun runs => { store with runs := runs }
  else none

/-- `record_event` for a status that differs from the one before. -/
def UpdateStore.recordChange (prior : RunStatus) (synced : InstallationUpdateRun)
    (store : UpdateStore) : UpdateStore :=
  if prior ≠ synced.status then
    { store with events := store.events ++ [⟨synced.id, synced.status, synced.progress⟩] }
  else store

/-- `sync_update_run` for the payload that the agent returns. -/
def syncUpdateRun (run : InstallationUpdateRun) (payload : Fields) (store : UpdateStore) :
    UpdateStore × Except ClientError InstallationUpdateRun :=
  if !run.isAcknowledged || run.status.isTerminal then (store, .ok run)
  else
    match readUpdate run payload with
    | .error error => (store, .error error)
    | .ok synced =>
        match store.saveRun synced with
        | none => (store, .error .raised)
        | some saved => (saved.recordChange run.status synced, .ok synced)

/-! ### Exceptions of a preflight answer -/

/-- Where the answer is looked up in a set, it has no list and no object. -/
def PreflightHashable (payload : Fields) (targetVersion : String) : Prop :=
  isHashable (Document.get "target_version" payload) = true ∧
    (isNoneOr targetVersion (Document.get "target_version" payload) = true →
      ∀ entry ∈ readChecks payload,
        hasSafeKey entry = true → hasHashableStatus entry = true)

instance (payload : Fields) (targetVersion : String) :
    Decidable (PreflightHashable payload targetVersion) :=
  inferInstanceAs (Decidable (_ ∧ (_ → ∀ entry ∈ readChecks payload, _)))

theorem sanitizePreflight_raised :
    sanitizePreflight payload targetVersion = .error .raised ↔
      ¬ PreflightHashable payload targetVersion := by
  unfold PreflightHashable
  by_cases hashable : isHashable (Document.get "target_version" payload) = true
  · by_cases named : isNoneOr targetVersion (Document.get "target_version" payload) = true
    · have readable : Readable payload targetVersion ↔ ∀ entry ∈ readChecks payload,
          hasSafeKey entry = true → hasHashableStatus entry = true :=
        ⟨fun readable => readable.statuses, fun statuses => ⟨hashable, named, statuses⟩⟩
      simp only [hashable, named, true_and, true_imp_iff, ← readable, ← sanitizePreflight_isOk]
      cases outcome : sanitizePreflight payload targetVersion with
      | ok preflight => simp
      | error error =>
          rw [sanitizePreflight_eq hashable named, bind_eq_error] at outcome
          rcases outcome with failed | ⟨safeChecks, -, impossible⟩
          · obtain ⟨entry, -, isError⟩ := mapM_eq_error failed
            simp [safeCheck_error isError]
          · cases impossible
    · simp [sanitizePreflight, hashable, named]
  · simp [sanitizePreflight, hashable]

/-! ### Exceptions of an answer for a job -/

/-- The answer reports a status that a run can have behind its request. -/
def Reports (payload : Fields) (status : RunStatus) : Prop :=
  readStatus (getOr "status" "state" payload) = some status ∧ status ≠ .requested

/-- Where the answer is looked up in a set or a `dict`, it has no list and no
object, and the database takes its phase. -/
def UpdateStorable (run : InstallationUpdateRun) (payload : Fields) : Prop :=
  ∀ status, Reports payload status →
    isHashable (Document.get "target_version" payload) = true ∧
      (isNoneOr run.targetVersion (Document.get "target_version" payload) = true →
        (status = .failed ∨ status = .manualIntervention →
          isHashable (reportedFailure payload) = true) ∧
        isStorable (cleanText (getOr "phase_label" "phase" payload) 120) = true)

theorem readFailureCode_cases (value : Document) :
    isHashable value = false ∧ readFailureCode value = .error .raised ∨
      isHashable value = true ∧ ∃ code, readFailureCode value = .ok code := by
  cases value <;> simp [readFailureCode, isHashable]

theorem readUpdate_unreported (unreported : ∀ status, ¬ Reports payload status) :
    readUpdate run payload = .error .unavailable := by
  unfold readUpdate
  cases isStatus : readStatus (getOr "status" "state" payload) with
  | none => rfl
  | some status =>
      cases status with
      | requested => rfl
      | _ => exact absurd ⟨isStatus, by simp⟩ (unreported _)

/-- The assignments before the failure of a run is read. -/
def reportedRun (run : InstallationUpdateRun) (payload : Fields) (status : RunStatus) :
    InstallationUpdateRun :=
  { run with
    status := status
    progress := readProgress payload run.progress
    phaseLabel := cleanText (getOr "phase_label" "phase" payload) 120
    migrationPolicy :=
      (readMigrationPolicy (Document.get "migration_policy" payload)).or run.migrationPolicy }

theorem readUpdate_of_reports {status : RunStatus} (reports : Reports payload status) :
    readUpdate run payload =
      if !isHashable (Document.get "target_version" payload) then .error .raised
      else if !isNoneOr run.targetVersion (Document.get "target_version" payload) then
        .error .unavailable
      else if status = .failed ∨ status = .manualIntervention then do
        let code ← readFailureCode (reportedFailure payload)
        return { reportedRun run payload status with
          failureCode := code, failureMessage := failureMessage code }
      else return reportedRun run payload status := by
  obtain ⟨isStatus, notRequested⟩ := reports
  unfold readUpdate
  simp only [isStatus]
  cases status with
  | requested => exact absurd rfl notRequested
  | _ => rfl

/-- The saved copy has the phase of the answer. -/
theorem readUpdate_phaseLabel (reads : readUpdate run payload = .ok synced) :
    synced.phaseLabel = cleanText (getOr "phase_label" "phase" payload) 120 := by
  obtain ⟨status, reports⟩ : ∃ status, Reports payload status := by
    by_contra unreported
    rw [readUpdate_unreported (not_exists.mp unreported)] at reads
    cases reads
  rw [readUpdate_of_reports reports] at reads
  split_ifs at reads with unhashable otherTarget failed
  · obtain ⟨code, -, returned⟩ := bind_eq_ok.mp reads
    rw [← pure_eq_ok.mp returned]
    rfl
  · rw [← pure_eq_ok.mp reads]
    rfl

/-- The row of a run that is not over can be saved with any text that the
database takes. -/
theorem saveRun_isSome {store : UpdateStore} (stored : run ∈ store.runs.rows)
    (running : run.status.isTerminal = false) (reads : readUpdate run payload = .ok synced) :
    (store.saveRun synced).isSome = isStorable synced.phaseLabel := by
  obtain ⟨identity, jobId, -⟩ := readUpdate_ok reads
  have sameId : synced.id = run.id := congrArg Prod.fst identity
  have active : run.status.isActive = true := by
    rw [RunStatus.isActive_eq, running]
    rfl
  have saved : (store.runs.save run.id fun _ => synced).isSome = true := by
    apply (UpdateRuns.save_isSome stored identity jobId).mpr
    intro _ other otherStored differs
    by_contra otherActive
    have same : other = run := UpdateRuns.active_eq store.runs.consistent otherStored stored
      (by simpa using otherActive) active
    exact differs (congrArg InstallationUpdateRun.id same)
  unfold UpdateStore.saveRun
  cases storable : isStorable synced.phaseLabel with
  | false => rfl
  | true =>
      rw [if_pos rfl, Option.isSome_map, sameId]
      exact saved

/-- An answer that raises leaves the runs and their events as they were. -/
theorem syncUpdateRun_unchanged {store : UpdateStore}
    (raises : (syncUpdateRun run payload store).2 = .error error) :
    (syncUpdateRun run payload store).1 = store := by
  unfold syncUpdateRun at raises ⊢
  split_ifs at raises ⊢ with skipped
  cases reads : readUpdate run payload with
  | error other => rfl
  | ok synced =>
      simp only [reads] at raises ⊢
      cases saves : store.saveRun synced with
      | none => rfl
      | some saved => simp [saves] at raises

/-- The run has a job at the agent and is not over. -/
def Polled (run : InstallationUpdateRun) : Prop :=
  run.isAcknowledged = true ∧ run.status.isTerminal = false

theorem syncUpdateRun_polled {store : UpdateStore} (polled : Polled run) :
    (syncUpdateRun run payload store).2 =
      match readUpdate run payload with
      | .error error => .error error
      | .ok synced => if (store.saveRun synced).isSome then .ok synced else .error .raised := by
  unfold syncUpdateRun
  rw [polled.1, polled.2]
  cases reads : readUpdate run payload with
  | error error => rfl
  | ok synced =>
      dsimp only
      cases saves : store.saveRun synced <;> rfl

theorem syncUpdateRun_raised {store : UpdateStore} (stored : run ∈ store.runs.rows)
    (polled : Polled run) :
    (syncUpdateRun run payload store).2 = .error .raised ↔ ¬ UpdateStorable run payload := by
  rw [syncUpdateRun_polled polled]
  by_cases reported : ∃ status, Reports payload status
  · obtain ⟨status, reports⟩ := reported
    have onlyStatus : UpdateStorable run payload ↔
        isHashable (Document.get "target_version" payload) = true ∧
          (isNoneOr run.targetVersion (Document.get "target_version" payload) = true →
            (status = .failed ∨ status = .manualIntervention →
              isHashable (reportedFailure payload) = true) ∧
            isStorable (cleanText (getOr "phase_label" "phase" payload) 120) = true) := by
      constructor
      · exact fun storable => storable status reports
      · intro storable other otherReports
        rw [Option.some.inj (otherReports.1.symm.trans reports.1)]
        exact storable
    have saved : ∀ synced, readUpdate run payload = .ok synced → (store.saveRun synced).isSome =
        isStorable (cleanText (getOr "phase_label" "phase" payload) 120) := by
      intro synced reads
      rw [saveRun_isSome stored polled.2 reads, readUpdate_phaseLabel reads]
    have outcome : readUpdate run payload = _ := readUpdate_of_reports reports
    rw [onlyStatus]
    by_cases hashable : isHashable (Document.get "target_version" payload) = true
    · by_cases named : isNoneOr run.targetVersion (Document.get "target_version" payload) = true
      · by_cases fails : status = .failed ∨ status = .manualIntervention
        · rcases readFailureCode_cases (reportedFailure payload) with
            ⟨unhashable, raised⟩ | ⟨isCode, code, returned⟩
          · simp only [hashable, named, fails, raised] at outcome
            rw [outcome]
            simp [bind, Except.bind, hashable, named, fails, unhashable]
          · simp only [hashable, named, fails, returned] at outcome
            have reads : readUpdate run payload = .ok _ := outcome
            rw [reads]
            simp [saved _ reads, hashable, named, fails, isCode]
        · simp only [hashable, named, fails] at outcome
          have reads : readUpdate run payload = .ok _ := outcome
          rw [reads]
          simp [saved _ reads, hashable, named, fails]
      · simp only [hashable, named] at outcome
        rw [outcome]
        simp [hashable, named]
    · simp only [hashable] at outcome
      rw [outcome]
      simp [hashable]
  · have vacuous : UpdateStorable run payload :=
      fun status reports => absurd ⟨status, reports⟩ reported
    rw [readUpdate_unreported (not_exists.mp reported)]
    simp [vacuous]

/-! ### Containment -/

/-- The errors that `UpdateAgentError` stands for. -/
def IsAgentError (error : ClientError) : Prop :=
  error ≠ .raised

/-- The functions return or raise an `UpdateAgentError`, and a failed poll stores
nothing. -/
structure Contained (run : InstallationUpdateRun) (payload : Fields) (targetVersion : String)
    (store : UpdateStore) : Prop where
  preflight : ∀ error, sanitizePreflight payload targetVersion = .error error →
    IsAgentError error
  poll : ∀ error, (syncUpdateRun run payload store).2 = .error error → IsAgentError error
  unchanged : ∀ error, (syncUpdateRun run payload store).2 = .error error →
    (syncUpdateRun run payload store).1 = store

/-- For every answer, target, store and stored run: the two functions contain
the answer exactly when no list and no object stands where they look a value up,
and a phase that is to be saved has no NUL and no surrogate. -/
theorem contained_iff {store : UpdateStore} (stored : run ∈ store.runs.rows) :
    Contained run payload targetVersion store ↔
      PreflightHashable payload targetVersion ∧
        (Polled run → UpdateStorable run payload) := by
  constructor
  · intro contained
    constructor
    · by_contra unhashable
      exact contained.preflight _ (sanitizePreflight_raised.mpr unhashable) rfl
    · intro polled
      by_contra unstorable
      exact contained.poll _ ((syncUpdateRun_raised stored polled).mpr unstorable) rfl
  · intro holds
    refine ⟨fun error raises isRaised => ?_, fun error raises isRaised => ?_,
      fun error raises => syncUpdateRun_unchanged raises⟩
    · rw [isRaised] at raises
      exact sanitizePreflight_raised.mp raises holds.1
    · rw [isRaised] at raises
      by_cases polled : Polled run
      · exact (syncUpdateRun_raised stored polled).mp raises (holds.2 polled)
      · have skipped : (!run.isAcknowledged || run.status.isTerminal) = true := by
          by_contra isPolled
          exact polled (by simpa [Polled] using isPolled)
        unfold syncUpdateRun at raises
        rw [skipped] at raises
        cases raises

example : isStorable (cleanText (.str [0xd800]) 120) = false := by
  decide +kernel

/-- A run that the agent is deploying. -/
def deployingRun : InstallationUpdateRun where
  id := 1
  targetVersion := "1.2.3"
  idempotencyKey := "release-1.2.3"
  agentJobId := some "job-1"
  status := .deploying

def deployingStore : UpdateStore where
  runs := { rows := [deployingRun], consistent := by decide }
  events := []

/-- The agent verifies the release. -/
def verifyingAnswer : Fields :=
  [(ofString "status", .str (ofString "verifying")),
    (ofString "target_version", .str (ofString "1.2.3")), (ofString "phase", .null)]

theorem contained_verifying :
    Contained deployingRun verifyingAnswer "1.2.3" deployingStore := by
  refine (contained_iff List.mem_cons_self).mpr ⟨by decide, fun _ status _ => ?_⟩
  exact ⟨rfl, fun _ => ⟨fun _ => rfl, rfl⟩⟩

/-- A list stands for the target version. -/
theorem list_target_escapes :
    ¬ Contained deployingRun [(ofString "target_version", .arr [])] "1.2.3" deployingStore :=
  fun contained => contained.preflight .raised rfl rfl

end BubllioCrm.Onboarding
