import BubllioCrm.Foundations.Pool
import BubllioCrm.UpdateAgent.Store
import Mathlib.Logic.Function.Basic

/-!
Owns the running update agent: the `start` calls in flight, the worker threads
with the body of `_run_job` as a list of statements, the crash of the process
and the recovery before it serves again.

Each action is one call of the store, of the adapter or of the thread library,
in any order between threads. Every call may raise, and a store call may raise
before or after its transaction has committed. An adapter call takes two
actions, so a crash can fall into it. A crash ends all calls and workers.

The history of each job and the list of recorded versions are observations:
no function of the agent reads them.
-/

namespace BubllioCrm.UpdateAgent

open BubllioCrm.Foundations

structure Config where
  repository : String
  installationId : String
  currentVersion : StableVersion
deriving DecidableEq

/-- How a call ends. A call that reads, or that the store does not serve, has
nothing to commit. -/
inductive Outcome where
  | returns
  | raises (exception : Raised)
  | commitsAndRaises (exception : Raised)
deriving DecidableEq

/-! ### Start calls -/

/-- A `start` call before its next step, with the local variables it holds. -/
inductive StartCall where
  | lookup (target : StableVersion) (key : String)
  | verify (target : StableVersion) (key : String)
  | preflight (target : StableVersion) (key : String) (manifest : ReleaseManifest)
  | readSource (target : StableVersion) (key : String) (manifest : ReleaseManifest)
  | create (target : StableVersion) (key : String) (manifest : ReleaseManifest)
      (source : StableVersion)
  | spawn (target : StableVersion) (key : String) (manifest : ReleaseManifest) (job : Job)
deriving DecidableEq

def StartCall.target : StartCall → StableVersion
  | .lookup target _ => target
  | .verify target _ => target
  | .preflight target _ _ => target
  | .readSource target _ _ => target
  | .create target _ _ _ => target
  | .spawn target _ _ _ => target

def StartCall.key : StartCall → String
  | .lookup _ key => key
  | .verify _ key => key
  | .preflight _ key _ => key
  | .readSource _ key _ => key
  | .create _ key _ _ => key
  | .spawn _ key _ _ => key

/-- `_IDEMPOTENCY_KEY.fullmatch`. -/
def isIdempotencyKey (key : String) : Bool :=
  match key.toList with
  | [] => false
  | first :: rest =>
      first.isAlphanum && 7 ≤ rest.length && rest.length ≤ 127 &&
        rest.all fun char => char.isAlphanum || char ∈ ['_', '.', ':', '-']

/-- What a `start` call returned to its caller, or what it raised. -/
structure Answer where
  target : StableVersion
  key : String
  result : Except Raised (Job × Bool)

/-! ### Workers -/

inductive AdapterCall where
  | preflight
  | backup
  | deploy
  | verify
deriving DecidableEq

inductive Statement where
  | update (change : JobUpdate)
  | adapter (call : AdapterCall)
  | setDeploymentStarted
  | setCurrentVersion
deriving DecidableEq

/-- The body of the `try` block of `_run_job`. -/
def runJob : List Statement := [
  .update { state := .preflight, progress := 10, phase := "preflight" },
  .adapter .preflight,
  .update { state := .backingUp, progress := 30, phase := "backing_up" },
  .adapter .backup,
  .update { state := .deploying, progress := 55, phase := "deploying" },
  .setDeploymentStarted,
  .adapter .deploy,
  .update { state := .verifying, progress := 85, phase := "verifying" },
  .adapter .verify,
  .setCurrentVersion,
  .update { state := .succeeded, progress := 100, phase := "succeeded" }]

/-- What the two handlers of `_run_job` write. They catch no other
`BaseException`. -/
def failureUpdate (deploymentStarted : Bool) (exception : Raised) : Option JobUpdate :=
  let state := if deploymentStarted then JobState.manualIntervention else .failed
  let phase := if deploymentStarted then "manual_intervention" else "failed"
  match exception with
  | .agentError errorClass _ =>
      some {
        state := state
        progress := 100
        phase := phase
        errorCode := some errorClass.code
        errorMessage := some errorClass.publicMessage }
  | .otherException =>
      some {
        state := state
        progress := 100
        phase := phase
        errorCode := some "unexpected_failure"
        errorMessage := some "The update agent encountered an unexpected failure." }
  | .baseException => none

/-- Where a worker is: before a line of `runJob`, inside the adapter call of
that line, or in the handler. -/
inductive Control where
  | line (number : Nat)
  | awaiting (number : Nat)
  | handling (exception : Raised)
deriving DecidableEq

structure Worker where
  jobId : Nat
  manifest : ReleaseManifest
  deploymentStarted : Bool := false
  control : Control := .line 0
deriving DecidableEq

/-- The worker before another line, or no worker after the last one. -/
def Worker.goto (number : Nat) (worker : Worker) : List Worker :=
  if number < runJob.length then [{ worker with control := .line number }] else []

def Worker.handling (exception : Raised) (worker : Worker) : Worker :=
  { worker with control := .handling exception }

/-! ### The agent -/

/-- An observation about one job. -/
inductive Entry where
  | invoked (call : AdapterCall)
  | returned (call : AdapterCall)
  | recorded (state : JobState)
  | raised
  | interrupted
deriving DecidableEq

structure Agent where
  store : Store := {}
  calls : List StartCall := []
  workers : List Worker := []
  serving : Bool := false
  answers : List Answer := []
  history : Nat → List Entry := fun _ => []
  written : List StableVersion := []

inductive Action where
  | request (target : StableVersion) (key : String)
  | lookup (index : Nat) (outcome : Outcome)
  /-- The manifest that the release source gives and the verifier passes. -/
  | verify (index : Nat) (material : Except Raised ReleaseManifest)
  | preflight (index : Nat) (outcome : Outcome)
  | readSource (index : Nat) (outcome : Outcome)
  | createJob (index : Nat) (jobId : Nat) (outcome : Outcome)
  | spawn (index : Nat) (outcome : Outcome)
  | work (index : Nat) (outcome : Outcome)
  | crash
  | restart (outcome : Outcome)

namespace Agent

def log (jobId : Nat) (entries : List Entry) (agent : Agent) : Agent :=
  { agent with
    history := Function.update agent.history jobId (agent.history jobId ++ entries) }

def setStore (store : Store) (agent : Agent) : Agent :=
  { agent with store := store }

def startWorker (jobId : Nat) (manifest : ReleaseManifest) (agent : Agent) : Agent :=
  { agent with workers := agent.workers ++ [{ jobId := jobId, manifest := manifest }] }

/-! ### Steps of a start call -/

def continueCall (index : Nat) (call : StartCall) (agent : Agent) : Agent :=
  { agent with calls := replaceAt index [call] agent.calls }

def answer (index : Nat) (call : StartCall) (result : Except Raised (Job × Bool))
    (agent : Agent) : Agent :=
  { agent with
    calls := replaceAt index [] agent.calls
    answers := agent.answers ++ [{ target := call.target, key := call.key, result := result }] }

def currentVersion (config : Config) (agent : Agent) : StableVersion :=
  agent.store.currentVersion config.currentVersion

def request (target : StableVersion) (key : String) (agent : Agent) : Agent :=
  if ¬ agent.serving then agent
  else if ¬ isIdempotencyKey key then
    { agent with
      answers := agent.answers ++ [{
        target := target
        key := key
        result := .error (.agentError .requestValidation "idempotency_key is invalid") }] }
  else { agent with calls := agent.calls ++ [.lookup target key] }

def lookup (index : Nat) (call : StartCall) (outcome : Outcome) (agent : Agent) : Agent :=
  match outcome with
  | .raises exception => agent.answer index call (.error exception)
  | .commitsAndRaises exception => agent.answer index call (.error exception)
  | .returns =>
      match agent.store.getByIdempotencyKey call.key with
      | none => agent.continueCall index (.verify call.target call.key)
      | some existing =>
          if existing.targetVersion ≠ call.target then
            agent.answer index call (.error
              (.agentError .requestValidation "Idempotency key was used for another target"))
          else agent.answer index call (.ok (existing, false))

def verify (config : Config) (index : Nat) (call : StartCall)
    (material : Except Raised ReleaseManifest) (agent : Agent) : Agent :=
  match material with
  | .error exception => agent.answer index call (.error exception)
  | .ok manifest =>
      match manifest.checkTarget config.repository call.target (agent.currentVersion config) with
      | .error exception => agent.answer index call (.error exception)
      | .ok () => agent.continueCall index (.preflight call.target call.key manifest)

/-- An `AdapterError` of the preflight reaches the caller as a refusal. -/
def preflightRefusal : Raised → Raised
  | .agentError .adapter message =>
      .agentError .requestValidation (if message = "" then "Update is not eligible" else message)
  | exception => exception

def preflight (index : Nat) (call : StartCall) (manifest : ReleaseManifest) (outcome : Outcome)
    (agent : Agent) : Agent :=
  match outcome with
  | .raises exception => agent.answer index call (.error (preflightRefusal exception))
  | .commitsAndRaises exception => agent.answer index call (.error (preflightRefusal exception))
  | .returns => agent.continueCall index (.readSource call.target call.key manifest)

def readSource (config : Config) (index : Nat) (call : StartCall) (manifest : ReleaseManifest)
    (outcome : Outcome) (agent : Agent) : Agent :=
  match outcome with
  | .raises exception => agent.answer index call (.error exception)
  | .commitsAndRaises exception => agent.answer index call (.error exception)
  | .returns => agent.continueCall index
      (.create call.target call.key manifest (agent.currentVersion config))

def createJob (config : Config) (index : Nat) (call : StartCall) (manifest : ReleaseManifest)
    (source : StableVersion) (jobId : Nat) (outcome : Outcome) (agent : Agent) : Agent :=
  match outcome, agent.store.createJob
      (requestedJob jobId call.key config.installationId source call.target manifest) with
  | .raises exception, _ => agent.answer index call (.error exception)
  | _, .error exception => agent.answer index call (.error exception)
  | .commitsAndRaises exception, .ok (store, _, _) =>
      (agent.setStore store).answer index call (.error exception)
  | .returns, .ok (store, job, true) =>
      (agent.setStore store).continueCall index
        (.spawn call.target call.key manifest job)
  | .returns, .ok (store, job, false) =>
      (agent.setStore store).answer index call (.ok (job, false))

def spawn (index : Nat) (call : StartCall) (manifest : ReleaseManifest) (job : Job)
    (outcome : Outcome) (agent : Agent) : Agent :=
  match outcome with
  | .raises exception => agent.answer index call (.error exception)
  | .commitsAndRaises exception => agent.answer index call (.error exception)
  | .returns =>
      (agent.startWorker job.id manifest).answer index call (.ok (job, true))

/-! ### Steps of a worker -/

def becomes (index : Nat) (next : List Worker) (agent : Agent) : Agent :=
  { agent with workers := replaceAt index next agent.workers }

def recordState (jobId : Nat) (change : JobUpdate) (agent : Agent) : Option Agent :=
  (agent.store.update jobId change).map fun store =>
    (agent.setStore store).log jobId [.recorded change.state]

def recordVersion (version : StableVersion) (agent : Agent) : Agent :=
  { agent with
    store := agent.store.setCurrentVersion version
    written := agent.written ++ [version] }

/-- A call of the worker raises: the next step is the handler's. -/
def raiseIn (index : Nat) (worker : Worker) (exception : Raised) (agent : Agent) : Agent :=
  (agent.log worker.jobId [.raised]).becomes index [worker.handling exception]

/-- A store call at a line, where `committed` is the agent after its commit. -/
def storeCall (index number : Nat) (worker : Worker) (outcome : Outcome) (committed : Option Agent)
    (agent : Agent) : Agent :=
  match committed, outcome with
  | none, _ => agent.raiseIn index worker .otherException
  | some _, .raises exception => agent.raiseIn index worker exception
  | some done, .commitsAndRaises exception => done.raiseIn index worker exception
  | some done, .returns => done.becomes index (worker.goto (number + 1))

/-- Executes the statement at a line. -/
def execute (index number : Nat) (worker : Worker) (outcome : Outcome) (agent : Agent) : Agent :=
  match runJob[number]? with
  | none => agent
  | some (.update change) =>
      agent.storeCall index number worker outcome (agent.recordState worker.jobId change)
  | some (.adapter call) =>
      (agent.log worker.jobId [.invoked call]).becomes index
        [{ worker with control := .awaiting number }]
  | some .setDeploymentStarted =>
      agent.becomes index ({ worker with deploymentStarted := true }.goto (number + 1))
  | some .setCurrentVersion =>
      agent.storeCall index number worker outcome
        (some (agent.recordVersion worker.manifest.version))

/-- Ends the adapter call of a line. -/
def finishAdapter (index number : Nat) (worker : Worker) (outcome : Outcome) (agent : Agent) :
    Agent :=
  match runJob[number]?, outcome with
  | some (.adapter call), .returns =>
      (agent.log worker.jobId [.returned call]).becomes index (worker.goto (number + 1))
  | some (.adapter _), .raises exception => agent.raiseIn index worker exception
  | some (.adapter _), .commitsAndRaises exception => agent.raiseIn index worker exception
  | _, _ => agent

/-- The handler writes the failure and the thread ends, whatever the write
does. -/
def handleFailure (index : Nat) (worker : Worker) (exception : Raised) (outcome : Outcome)
    (agent : Agent) : Agent :=
  match failureUpdate worker.deploymentStarted exception with
  | none => agent.becomes index []
  | some change =>
      match agent.recordState worker.jobId change, outcome with
      | none, _ => (agent.log worker.jobId [.raised]).becomes index []
      | some _, .raises _ => (agent.log worker.jobId [.raised]).becomes index []
      | some done, .commitsAndRaises _ => (done.log worker.jobId [.raised]).becomes index []
      | some done, .returns => done.becomes index []

def work (index : Nat) (worker : Worker) (outcome : Outcome) (agent : Agent) : Agent :=
  match worker.control with
  | .line number => agent.execute index number worker outcome
  | .awaiting number => agent.finishAdapter index number worker outcome
  | .handling exception => agent.handleFailure index worker exception outcome

/-! ### Crash and recovery -/

def crash (agent : Agent) : Agent :=
  { agent with
    calls := []
    workers := []
    serving := false
    history := fun jobId =>
      if agent.workers.any (·.jobId = jobId) then agent.history jobId ++ [.interrupted]
      else agent.history jobId }

/-- `recover_interrupted` and, where it returns, the start of the server. -/
def restart (outcome : Outcome) (agent : Agent) : Agent :=
  if agent.serving then agent
  else
    match outcome with
    | .raises _ => agent
    | .commitsAndRaises _ => { agent with store := agent.store.recoverInterrupted }
    | .returns => { agent with store := agent.store.recoverInterrupted, serving := true }

/-- The agent after an action. An action that does not fit the thread it is
for changes nothing. -/
def step (config : Config) (agent : Agent) (action : Action) : Agent :=
  match action with
  | .request target key => agent.request target key
  | .lookup index outcome =>
      match agent.calls[index]? with
      | some (.lookup target key) => agent.lookup index (.lookup target key) outcome
      | _ => agent
  | .verify index material =>
      match agent.calls[index]? with
      | some (.verify target key) => agent.verify config index (.verify target key) material
      | _ => agent
  | .preflight index outcome =>
      match agent.calls[index]? with
      | some (.preflight target key manifest) =>
          agent.preflight index (.preflight target key manifest) manifest outcome
      | _ => agent
  | .readSource index outcome =>
      match agent.calls[index]? with
      | some (.readSource target key manifest) =>
          agent.readSource config index (.readSource target key manifest) manifest outcome
      | _ => agent
  | .createJob index jobId outcome =>
      match agent.calls[index]? with
      | some (.create target key manifest source) =>
          agent.createJob config index (.create target key manifest source) manifest source
            jobId outcome
      | _ => agent
  | .spawn index outcome =>
      match agent.calls[index]? with
      | some (.spawn target key manifest job) =>
          agent.spawn index (.spawn target key manifest job) manifest job outcome
      | _ => agent
  | .work index outcome =>
      match agent.workers[index]? with
      | some worker => agent.work index worker outcome
      | none => agent
  | .crash => agent.crash
  | .restart outcome => agent.restart outcome

end Agent

end BubllioCrm.UpdateAgent
