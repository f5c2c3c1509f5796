import BubllioCrm.Foundations.Pool
import BubllioCrm.Onboarding.Preflight
import BubllioCrm.UpdateAgent.Versioning

/-!
Owns `services/update_orchestration.py`: the requests that create a run or poll
one, as threads between two statements or agent calls, each with its own copy
of the row.

A thread takes a step for each statement and two for each agent call, so other
threads come in between. It may end at any of them. The agent is an oracle
here: every call may return any payload or fail.

The answered preflights and the runs whose submission has gone on to its start
call are observations: no function reads them.
-/

namespace BubllioCrm.Onboarding

open BubllioCrm.Foundations
open BubllioCrm.UpdateAgent (StableVersion)

/-! ### Validation -/

/-- `STABLE_VERSION_PATTERN`. -/
def versionParts (text : String) : Option (List Char × List Char × List Char) :=
  match text.toList.splitOn '.' with
  | [major, minor, patch] =>
      if StableVersion.isPart major && StableVersion.isPart minor && StableVersion.isPart patch then
        some (major, minor, patch)
      else none
  | _ => none

/-- `tuple(map(int, text.split(".")))`, where `none` is a `ValueError`. -/
def versionNumbers (parts : List Char × List Char × List Char) : Option StableVersion := do
  let major ← digitsInt parts.1
  let minor ← digitsInt parts.2.1
  let patch ← digitsInt parts.2.2
  return { major := major, minor := minor, patch := patch }

/-- `validate_upgrade_target` returns, where `installed` is `current_version()`. -/
def validateUpgradeTarget (installed value : String) : Bool :=
  match versionParts value, versionParts installed with
  | none, _ => false
  | some _, none => true
  | some target, some current =>
      match versionNumbers target, versionNumbers current with
      | some target, some current => current < target
      | _, _ => false

/-- `IDEMPOTENCY_PATTERN`. -/
def isRunKey (text : String) : Bool :=
  matchesHeadTail Char.isAlphanum (fun char => char.isAlphanum || char ∈ ['_', '-']) text &&
    8 ≤ text.toList.length && text.toList.length ≤ 128

/-- The bound of the serializer and of the column on a target version. -/
def maxTargetLength : Nat := 32

/-! ### Failures -/

def failureMessages : List (String × String) := [
  ("agent_rejected", "The update agent rejected the request."),
  ("agent_unavailable", "The update agent is unavailable. Check its connection and try again."),
  ("preflight_failed", "Update preflight checks did not pass."),
  ("maintenance_required", "This release requires a supervised maintenance window."),
  ("update_failed", "The update did not complete. Review the update agent logs."),
  ("verification_failed", "The updated installation did not pass verification."),
  ("rollback_failed", "Automatic rollback did not complete. Operator action is required.")]

/-- `_failure_message`. -/
def failureMessage (code : String) : String :=
  (failureMessages.lookup code).getD
    "The update did not complete. Review the update agent logs."

/-- `code if code in FAILURE_MESSAGES else "update_failed"`. -/
def readFailureCode (value : Document) : Except ClientError String :=
  if isHashable value then
    .ok ((value.matchedText fun code => (failureMessages.lookup code).isSome).getD "update_failed")
  else .error .raised

/-! ### The answer of the agent for a job -/

/-- `str.lower` of a character, as far as it gives an ASCII letter. The Kelvin
sign becomes a small letter. -/
def lowerChar (char : Char) : Char :=
  if char.toNat = 0x212a then 'k' else char.toLower

/-- The status that a value names, in letters of any case. -/
def readStatus (value : Document) : Option RunStatus :=
  RunStatus.values.find? fun status =>
    (value.matchedText fun text => status.text = String.ofList (text.toList.map lowerChar)).isSome

/-- `payload.get(key, payload.get(other))`. -/
def getOr (key other : String) (payload : Fields) : Document :=
  (payload.lookup (ofString key)).getD (Document.get other payload)

/-- The progress that an answer gives, or the one that the run has. -/
def readProgress (payload : Fields) (progress : Nat) : Nat :=
  match Document.get "progress" payload with
  | .int value => if 0 ≤ value.val ∧ value.val ≤ 100 then value.val.toNat else progress
  | _ => progress

def reportedFailure (payload : Fields) : Document :=
  let error :=
    match Document.get "error" payload with
    | .obj fields => fields
    | _ => []
  (payload.lookup (ofString "failure_code")).getD (Document.get "code" error)

/-- The assignments of `sync_update_run`: the copy that it saves. -/
def readUpdate (copy : InstallationUpdateRun) (payload : Fields) :
    Except ClientError InstallationUpdateRun := do
  let target := Document.get "target_version" payload
  match readStatus (getOr "status" "state" payload) with
  | none => .error .unavailable
  | some .requested => .error .unavailable
  | some status =>
      if !isHashable target then .error .raised
      else if !isNoneOr copy.targetVersion target then .error .unavailable
      else
        let synced := {
          copy with
          status := status
          progress := readProgress payload copy.progress
          phaseLabel := cleanText (getOr "phase_label" "phase" payload) 120
          migrationPolicy :=
            (readMigrationPolicy (Document.get "migration_policy" payload)).or
              copy.migrationPolicy }
        if status = .failed ∨ status = .manualIntervention then
          let code ← readFailureCode (reportedFailure payload)
          return { synced with failureCode := code, failureMessage := failureMessage code }
        else return synced

/-- The job id of an accepted start. -/
def readJobId (payload : Fields) : Option String :=
  (Document.get "id" payload).matchedText isAgentJobId

/-! ### Threads -/

/-- A start call is made by the request that created the run or by a replay. -/
inductive Origin where
  | submission
  | replay
deriving DecidableEq

/-- Where a request is, with its copy of the row. -/
inductive Thread where
  | lookup (targetVersion idempotencyKey : String)
  | create (targetVersion idempotencyKey : String)
  | lookupReplay (targetVersion idempotencyKey : String)
  | begin (copy : InstallationUpdateRun)
  | preflight (copy : InstallationUpdateRun)
  | awaitPreflight (copy : InstallationUpdateRun)
  | recordPolicy (copy : InstallationUpdateRun) (code : String) (status : RunStatus)
  | fail (copy : InstallationUpdateRun) (code : String) (status : RunStatus)
  | submit (copy : InstallationUpdateRun) (origin : Origin)
  | awaitStart (copy : InstallationUpdateRun) (origin : Origin)
  | accept (copy : InstallationUpdateRun) (agentJobId : String) (origin : Origin)
  | awaitStatus (copy : InstallationUpdateRun)
  | sync (copy : InstallationUpdateRun)
  | awaitUpdate (copy : InstallationUpdateRun)
  | save (copy : InstallationUpdateRun)
deriving DecidableEq

/-- What the process reads while a thread takes a step: the installed version,
whether the agent is configured, and the id that a new row gets. -/
structure Context where
  installed : String
  configured : Bool
  runId : Nat
deriving DecidableEq

namespace Thread

/-- The first lines of `_resume_unacknowledged_run`. -/
def resume (copy : InstallationUpdateRun) : List Thread :=
  if copy.isAcknowledged || !copy.status.isActive then [] else [.submit copy .replay]

/-- The rest of a request that has found a row with its key, if there is one. -/
def replayOr (missing : List Thread) (targetVersion : String)
    (found : Option InstallationUpdateRun) : List Thread :=
  match found with
  | some existing => if existing.targetVersion = targetVersion then resume existing else []
  | none => missing

/-- The handlers of the preflight call. -/
def preflightFailed (copy : InstallationUpdateRun) : ClientError → List Thread
  | .rejected => [.fail copy "agent_rejected" .failed]
  | .unavailable => [.fail copy "agent_unavailable" .failed]
  | .raised => []

/-- The lines behind the preflight call. -/
def gate (copy : InstallationUpdateRun) (sanitized : SanitizedPreflight) : Thread :=
  let checked := { copy with migrationPolicy := sanitized.migrationPolicy }
  if sanitized.migrationPolicy ≠ some .onlineSafe then
    .recordPolicy checked "maintenance_required" .manualIntervention
  else if sanitized.eligible = false then .recordPolicy checked "preflight_failed" .failed
  else .submit checked .submission

/-- The handlers of the start call. A replay leaves the run where the agent is
unavailable. -/
def startFailed (copy : InstallationUpdateRun) (origin : Origin) : ClientError → List Thread
  | .rejected => [.fail copy "agent_rejected" .failed]
  | .unavailable =>
      match origin with
      | .submission => [.fail copy "agent_unavailable" .failed]
      | .replay => []
  | .raised => []

/-- A statement that writes a row, where an `IntegrityError` ends the thread. -/
def write (runId : Nat) (change : InstallationUpdateRun → InstallationUpdateRun)
    (next : List Thread) (table : UpdateRuns) : UpdateRuns × List Thread :=
  match table.save runId change with
  | some saved => (saved, next)
  | none => (table, [])

/-- The row that a request inserts. -/
def requested (runId : Nat) (targetVersion idempotencyKey : String) : InstallationUpdateRun where
  id := runId
  targetVersion := targetVersion
  idempotencyKey := idempotencyKey

def begun (copy : InstallationUpdateRun) : InstallationUpdateRun :=
  { copy with status := .preflight, phaseLabel := ofString "Running preflight checks" }

def accepted (copy : InstallationUpdateRun) (agentJobId : String) : InstallationUpdateRun :=
  { copy with agentJobId := some agentJobId, phaseLabel := ofString "Update accepted" }

/-- The first statement behind the insertion, with `update_fields`. -/
def saveBegin (copy row : InstallationUpdateRun) : InstallationUpdateRun :=
  { row with status := copy.status, phaseLabel := copy.phaseLabel }

/-- The statement before a failed gate, with `update_fields`. -/
def savePolicy (copy row : InstallationUpdateRun) : InstallationUpdateRun :=
  { row with migrationPolicy := copy.migrationPolicy }

/-- The statement of `_set_failure`, with `update_fields`. -/
def saveFailure (code : String) (status : RunStatus) (row : InstallationUpdateRun) :
    InstallationUpdateRun :=
  { row with status := status, failureCode := code, failureMessage := failureMessage code }

/-- The statement behind an accepted start, where the submission writes its
migration policy as well. -/
def saveAccepted (copy : InstallationUpdateRun) (origin : Origin) (row : InstallationUpdateRun) :
    InstallationUpdateRun :=
  { row with
    agentJobId := copy.agentJobId
    phaseLabel := copy.phaseLabel
    migrationPolicy :=
      match origin with
      | .submission => copy.migrationPolicy
      | .replay => row.migrationPolicy }

/-- The next step of a thread that does not wait for the agent. -/
def advance (context : Context) (table : UpdateRuns) (thread : Thread) :
    UpdateRuns × List Thread :=
  match thread with
  | .lookup target key =>
      (table, replayOr [.create target key] target (table.getByIdempotencyKey key))
  | .create target key =>
      match table.create (requested context.runId target key) with
      | some created => (created, [.begin (requested context.runId target key)])
      | none => (table, [.lookupReplay target key])
  | .lookupReplay target key => (table, replayOr [] target (table.getByIdempotencyKey key))
  | .begin copy => write copy.id (saveBegin (begun copy)) [.preflight (begun copy)] table
  | .preflight copy =>
      if !validateUpgradeTarget context.installed copy.targetVersion then (table, [])
      else if !context.configured then (table, preflightFailed copy .unavailable)
      else (table, [.awaitPreflight copy])
  | .recordPolicy copy code status =>
      write copy.id (savePolicy copy) [.fail copy code status] table
  | .fail copy code status => write copy.id (saveFailure code status) [] table
  | .submit copy origin =>
      if !context.configured then (table, startFailed copy origin .unavailable)
      else (table, [.awaitStart copy origin])
  | .accept copy agentJobId origin =>
      write copy.id (saveAccepted (accepted copy agentJobId) origin)
        [.sync (accepted copy agentJobId)] table
  | .sync copy =>
      if !copy.isAcknowledged || copy.status.isTerminal then (table, [])
      else if !copy.agentJobId.any isAgentJobId || !context.configured then (table, [])
      else (table, [.awaitUpdate copy])
  | .save copy => write copy.id (fun _ => copy) [] table
  | waiting => (table, [waiting])

/-- A thread that waits for the agent goes on with what the call gives. -/
def answer (result : Except ClientError Fields) (thread : Thread) : List Thread :=
  match thread with
  | .awaitPreflight copy =>
      match result >>= (sanitizePreflight · copy.targetVersion) with
      | .ok sanitized => [gate copy sanitized]
      | .error error => preflightFailed copy error
  | .awaitStart copy origin =>
      match result with
      | .error error => startFailed copy origin error
      | .ok payload =>
          match readJobId payload with
          | some agentJobId => [.accept copy agentJobId origin]
          | none => startFailed copy origin .unavailable
  | .awaitStatus copy =>
      match result with
      | .ok payload => if isHashable (Document.get "status" payload) then [.sync copy] else []
      | .error _ => []
  | .awaitUpdate copy =>
      match result >>= readUpdate copy with
      | .ok synced => [.save synced]
      | .error _ => []
  | working => [working]

/-- The sanitized result of a preflight call that returned. -/
def preflightOf (result : Except ClientError Fields) (thread : Thread) :
    Option (Nat × SanitizedPreflight) :=
  match thread with
  | .awaitPreflight copy =>
      match result >>= (sanitizePreflight · copy.targetVersion) with
      | .ok sanitized => some (copy.id, sanitized)
      | .error _ => none
  | _ => none

/-- The run whose submission has reached its start call. -/
def submitting : Thread → Option Nat
  | .submit copy .submission => some copy.id
  | _ => none

end Thread

/-! ### The requests of the CRM -/

structure Crm where
  table : UpdateRuns := .empty
  threads : List Thread := []
  preflights : List (Nat × SanitizedPreflight) := []
  arrived : List Nat := []

inductive CrmAction where
  /-- `create_update_run`. -/
  | request (installed targetVersion idempotencyKey : String)
  /-- The detail view of a run. -/
  | poll (runId : Nat)
  /-- `get_update_center_status`. -/
  | pollStatus (configured : Bool)
  | advance (index : Nat) (context : Context)
  | answer (index : Nat) (result : Except ClientError Fields)
  /-- The worker of a request is lost, or the request ends with an exception. -/
  | drop (index : Nat)

namespace Crm

def start (threads : List Thread) (crm : Crm) : Crm :=
  { crm with threads := crm.threads ++ threads }

def request (installed targetVersion idempotencyKey : String) (crm : Crm) : Crm :=
  if targetVersion.toList.length ≤ maxTargetLength ∧
      validateUpgradeTarget installed targetVersion = true ∧ isRunKey idempotencyKey = true then
    crm.start [.lookup targetVersion idempotencyKey]
  else crm

/-- A status poll goes on to the active run, where the agent is configured. -/
def pollStatus (configured : Bool) (crm : Crm) : Crm :=
  if configured then crm.start (crm.table.firstActive.map Thread.awaitStatus).toList else crm

def advance (index : Nat) (context : Context) (thread : Thread) (crm : Crm) : Crm :=
  let after := thread.advance context crm.table
  { crm with
    table := after.1
    threads := replaceAt index after.2 crm.threads }

def answer (index : Nat) (result : Except ClientError Fields) (thread : Thread) (crm : Crm) :
    Crm :=
  let next := thread.answer result
  { crm with
    threads := replaceAt index next crm.threads
    preflights := crm.preflights ++ (thread.preflightOf result).toList
    arrived := crm.arrived ++ next.filterMap Thread.submitting }

/-- The CRM after an action. An action for a thread that is not there changes
nothing. -/
def step (crm : Crm) (action : CrmAction) : Crm :=
  match action with
  | .request installed targetVersion idempotencyKey =>
      crm.request installed targetVersion idempotencyKey
  | .poll runId => crm.start ((crm.table.getById runId).map Thread.sync).toList
  | .pollStatus configured => crm.pollStatus configured
  | .advance index context =>
      match crm.threads[index]? with
      | some thread => crm.advance index context thread
      | none => crm
  | .answer index result =>
      match crm.threads[index]? with
      | some thread => crm.answer index result thread
      | none => crm
  | .drop index => { crm with threads := replaceAt index [] crm.threads }

end Crm

end BubllioCrm.Onboarding
