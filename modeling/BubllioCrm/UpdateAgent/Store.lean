import BubllioCrm.Foundations.Table
import BubllioCrm.UpdateAgent.Release

/-!
Owns the state database of the update agent: the jobs, their events and the
recorded current version, and one function for each store method.

Every method is one transaction. Job ids stand for UUIDs, versions for their
canonical text, and the times of rows and events are left out.
-/

namespace BubllioCrm.UpdateAgent

open BubllioCrm.Foundations

inductive JobState where
  | requested
  | preflight
  | backingUp
  | deploying
  | verifying
  | succeeded
  | failed
  | rolledBack
  | manualIntervention
deriving DecidableEq

/-- `ACTIVE_STATES`. -/
def JobState.isActive : JobState → Bool
  | .requested => true
  | .preflight => true
  | .backingUp => true
  | .deploying => true
  | .verifying => true
  | .succeeded => false
  | .failed => false
  | .rolledBack => false
  | .manualIntervention => false

structure Job where
  id : Nat
  idempotencyKey : String
  installationId : String
  sourceVersion : StableVersion
  targetVersion : StableVersion
  state : JobState
  progress : Nat
  phase : String
  manifest : ReleaseManifest
  errorCode : Option String := none
  errorMessage : Option String := none
deriving DecidableEq

/-- The row that `create_job` inserts. -/
def requestedJob (id : Nat) (idempotencyKey installationId : String)
    (sourceVersion targetVersion : StableVersion) (manifest : ReleaseManifest) : Job where
  id := id
  idempotencyKey := idempotencyKey
  installationId := installationId
  sourceVersion := sourceVersion
  targetVersion := targetVersion
  state := .requested
  progress := 0
  phase := "requested"
  manifest := manifest

/-- The columns of a job that `update` writes. -/
structure JobUpdate where
  state : JobState
  progress : Nat
  phase : String
  errorCode : Option String := none
  errorMessage : Option String := none
deriving DecidableEq

def Job.record (change : JobUpdate) (job : Job) : Job :=
  { job with
    state := change.state
    progress := change.progress
    phase := change.phase
    errorCode := change.errorCode
    errorMessage := change.errorMessage }

structure Event where
  jobId : Nat
  state : JobState
  progress : Nat
  phase : String
deriving DecidableEq

structure Store where
  jobs : List Job := []
  events : List Event := []
  metadata : Option StableVersion := none
deriving DecidableEq

namespace Store

def currentVersion (configured : StableVersion) (store : Store) : StableVersion :=
  store.metadata.getD configured

def setCurrentVersion (version : StableVersion) (store : Store) : Store :=
  { store with metadata := some version }

def getByIdempotencyKey (key : String) (store : Store) : Option Job :=
  store.jobs.find? (·.idempotencyKey = key)

/-- Inserts a row with its first event. -/
def insertJob (job : Job) (store : Store) : Store :=
  { store with
    jobs := store.jobs ++ [job]
    events := store.events ++
      [{ jobId := job.id, state := job.state, progress := job.progress, phase := job.phase }] }

/-- The job of an earlier request with the same key, or a new one. A job id
that is taken violates the primary key, which counts as a conflict. -/
def createJob (job : Job) (store : Store) : Except Raised (Store × Job × Bool) :=
  match store.getByIdempotencyKey job.idempotencyKey with
  | some existing =>
      if existing.targetVersion ≠ job.targetVersion then
        .error (.agentError .requestValidation "Idempotency key was used for another target")
      else .ok (store, existing, false)
  | none =>
      if store.jobs.any (·.state.isActive) then
        .error (.agentError .updateConflict "Another update is active")
      else if store.jobs.any (·.id = job.id) then
        .error (.agentError .updateConflict "Another update is active")
      else .ok (store.insertJob job, job, true)

/-- Writes the columns of a job and its event. Without the row the event
violates its foreign key, which is `none`. -/
def update (jobId : Nat) (change : JobUpdate) (store : Store) : Option Store :=
  if store.jobs.any (·.id = jobId) then
    some {
      store with
      jobs := updateWhere (·.id = jobId) (Job.record change) store.jobs
      events := store.events ++
        [{ jobId := jobId, state := change.state, progress := change.progress,
           phase := change.phase }] }
  else none

/-- What `recover_interrupted` writes to an active job. -/
def interruption : JobUpdate where
  state := .manualIntervention
  progress := 100
  phase := "manual_intervention"
  errorCode := some "agent_restarted"
  errorMessage := some "Operator review is required after agent restart."

def recoverInterrupted (store : Store) : Store :=
  { store with
    jobs := updateWhere (fun job => job.state.isActive = true) (Job.record interruption)
      store.jobs }

end Store

/-! ### Effects on the job table -/

variable {store next : Store} {job created : Job}

/-- What a successful `create_job` found: a job with the key and the target, or
no active job, in which case the new row is inserted. -/
theorem Store.createJob_ok {isNew : Bool}
    (made : store.createJob job = .ok (next, created, isNew)) :
    created ∈ store.jobs ∧ created.idempotencyKey = job.idempotencyKey ∧
        created.targetVersion = job.targetVersion ∧ next = store ∧ isNew = false ∨
      (∀ other ∈ store.jobs, other.idempotencyKey ≠ job.idempotencyKey ∧
        other.state.isActive = false ∧ other.id ≠ job.id) ∧
        created = job ∧ next = store.insertJob job ∧ isNew = true := by
  unfold Store.createJob at made
  cases existing : store.getByIdempotencyKey job.idempotencyKey with
  | some found =>
      simp only [existing] at made
      split_ifs at made with otherTarget
      simp only [Except.ok.injEq, Prod.mk.injEq] at made
      obtain ⟨rfl, rfl, rfl⟩ := made
      left
      have sameKey := List.find?_some existing
      exact ⟨List.mem_of_find?_eq_some existing, by simpa using sameKey,
        not_not.mp otherTarget, rfl, rfl⟩
  | none =>
      simp only [existing] at made
      split_ifs at made with active taken
      simp only [Except.ok.injEq, Prod.mk.injEq] at made
      obtain ⟨rfl, rfl, rfl⟩ := made
      right
      refine ⟨fun other stored => ⟨?_, ?_, ?_⟩, rfl, rfl, rfl⟩
      · have missing := List.find?_eq_none.mp existing other stored
        simpa using missing
      · simp only [List.any_eq_true, not_exists, not_and, Bool.not_eq_true] at active
        exact active other stored
      · simp only [List.any_eq_true, not_exists, not_and, decide_eq_true_eq] at taken
        exact taken other stored

/-- A job whose key and id are free is inserted when no job is active. -/
theorem Store.createJob_fresh (fresh : ∀ other ∈ store.jobs,
      other.idempotencyKey ≠ job.idempotencyKey ∧ other.state.isActive = false ∧
        other.id ≠ job.id) :
    store.createJob job = .ok (store.insertJob job, job, true) := by
  have missing : store.getByIdempotencyKey job.idempotencyKey = none :=
    List.find?_eq_none.mpr fun other stored => by simpa using (fresh other stored).1
  have inactive : store.jobs.any (·.state.isActive) = false :=
    List.any_eq_false.mpr fun other stored => by simp [(fresh other stored).2.1]
  have free : store.jobs.any (·.id = job.id) = false :=
    List.any_eq_false.mpr fun other stored => by simpa using (fresh other stored).2.2
  unfold Store.createJob
  rw [missing]
  simp only [inactive, free]
  rfl

theorem Store.update_eq_some {jobId : Nat} {change : JobUpdate}
    (updated : store.update jobId change = some next) :
    next.jobs = updateWhere (·.id = jobId) (Job.record change) store.jobs ∧
      next.metadata = store.metadata := by
  unfold Store.update at updated
  split_ifs at updated
  obtain rfl := Option.some.inj updated
  exact ⟨rfl, rfl⟩

/-- The update of a stored job finds its row. -/
theorem Store.update_isSome {change : JobUpdate} (stored : job ∈ store.jobs) :
    ∃ next, store.update job.id change = some next := by
  have present : store.jobs.any (·.id = job.id) = true := by
    simpa using ⟨job, stored, rfl⟩
  unfold Store.update
  rw [if_pos present]
  exact ⟨_, rfl⟩

end BubllioCrm.UpdateAgent
