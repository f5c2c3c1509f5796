import BubllioCrm.UpdateAgent.Steps

/-!
Owns runs of the state database by itself, any sequence of its calls with
crashes between and inside them, and when its event log tells the state of
every job. The runs of the agent are such sequences.
-/

namespace BubllioCrm.UpdateAgent

open BubllioCrm.Foundations

/-! ### Runs of the store -/

inductive StoreCall where
  | createJob (id : Nat) (idempotencyKey installationId : String)
      (sourceVersion targetVersion : StableVersion) (manifest : ReleaseManifest)
  | update (jobId : Nat) (change : JobUpdate)
  | setCurrentVersion (version : StableVersion)
  | recoverInterrupted
  /-- A call that the process did not survive up to its commit. -/
  | crash
deriving DecidableEq

/-- The tables after a call. A call that raises rolls its transaction back. -/
def Store.call (store : Store) (call : StoreCall) : Store :=
  match call with
  | .createJob id idempotencyKey installationId sourceVersion targetVersion manifest =>
      match store.createJob (requestedJob id idempotencyKey installationId sourceVersion
          targetVersion manifest) with
      | .ok (next, _, _) => next
      | .error _ => store
  | .update jobId change => (store.update jobId change).getD store
  | .setCurrentVersion version => store.setCurrentVersion version
  | .recoverInterrupted => store.recoverInterrupted
  | .crash => store

/-- The event that tells what the row tells. -/
def Job.event (job : Job) : Event where
  jobId := job.id
  state := job.state
  progress := job.progress
  phase := job.phase

/-- The most recent event of a job. -/
def lastEvent (jobId : Nat) (events : List Event) : Option Event :=
  (events.filter (·.jobId = jobId)).getLast?

/-- Every job has an event, and its most recent one agrees with the row. -/
def EventsMatch (store : Store) : Prop :=
  ∀ job ∈ store.jobs, lastEvent job.id store.events = some job.event

instance (store : Store) : Decidable (EventsMatch store) :=
  inferInstanceAs (Decidable (∀ job ∈ store.jobs, _))

/-- A recovery meets no active job. -/
def RecoversNothing (store : Store) (call : StoreCall) : Prop :=
  call = .recoverInterrupted → ∀ job ∈ store.jobs, job.state.isActive = false

/-! ### The three writers -/

variable {store next : Store} {job : Job}

theorem lastEvent_append_self (events : List Event) (event : Event) :
    lastEvent event.jobId (events ++ [event]) = some event := by
  simp [lastEvent, List.filter_append]

theorem lastEvent_append_of_ne {jobId : Nat} (events : List Event) {event : Event}
    (other : event.jobId ≠ jobId) :
    lastEvent jobId (events ++ [event]) = lastEvent jobId events := by
  simp [lastEvent, List.filter_append, other]

theorem EventsMatch.insertJob (agrees : EventsMatch store)
    (fresh : ∀ other ∈ store.jobs, other.id ≠ job.id) : EventsMatch (store.insertJob job) := by
  intro row member
  rcases List.mem_append.mp member with old | new
  · have others : job.event.jobId ≠ row.id := (fresh row old).symm
    exact (lastEvent_append_of_ne store.events others).trans (agrees row old)
  · rw [List.mem_singleton.mp new]
    exact lastEvent_append_self store.events job.event

theorem EventsMatch.update (agrees : EventsMatch store) {jobId : Nat} {change : JobUpdate}
    (updated : store.update jobId change = some next) : EventsMatch next := by
  unfold Store.update at updated
  split_ifs at updated
  cases updated
  intro row member
  obtain ⟨before, stored, ⟨hit, rfl⟩ | ⟨miss, rfl⟩⟩ := mem_updateWhere.mp member
  · subst hit
    exact lastEvent_append_self store.events (before.record change).event
  · apply (lastEvent_append_of_ne store.events _).trans (agrees row stored)
    exact Ne.symm miss

/-- A recovery writes rows and no events, so an active job of a matching log
is left with an event of its old state. -/
theorem eventsMatch_recoverInterrupted (agrees : EventsMatch store) :
    EventsMatch store.recoverInterrupted ↔ ∀ job ∈ store.jobs, job.state.isActive = false := by
  constructor
  · intro stillAgrees job stored
    by_contra active
    have isActive : job.state.isActive = true := by simpa using active
    have last : lastEvent job.id store.events = some (job.record Store.interruption).event :=
      stillAgrees _ (mem_updateWhere_of_selected stored isActive)
    rw [agrees job stored] at last
    have sameState : job.state = .manualIntervention :=
      congrArg Event.state (Option.some.inj last)
    rw [sameState] at isActive
    cases isActive
  · intro inactive row member
    obtain ⟨before, stored, ⟨active, -⟩ | ⟨-, rfl⟩⟩ := mem_updateWhere.mp member
    · rw [inactive before stored] at active
      cases active
    · exact agrees row stored

/-- A call keeps the log in agreement exactly when it is no recovery of an
active job. -/
theorem eventsMatch_call (agrees : EventsMatch store) (call : StoreCall) :
    EventsMatch (store.call call) ↔ RecoversNothing store call := by
  cases call with
  | createJob id idempotencyKey installationId sourceVersion targetVersion manifest =>
      refine iff_of_true ?_ (by simp [RecoversNothing])
      cases made : store.createJob (requestedJob id idempotencyKey installationId sourceVersion
          targetVersion manifest) with
      | error exception =>
          simp only [Store.call, made]
          exact agrees
      | ok value =>
          obtain ⟨after, created, isNew⟩ := value
          simp only [Store.call, made]
          rcases Store.createJob_ok made with ⟨-, -, -, rfl, -⟩ | ⟨fresh, -, rfl, -⟩
          · exact agrees
          · exact agrees.insertJob fun other stored => (fresh other stored).2.2
  | update jobId change =>
      refine iff_of_true ?_ (by simp [RecoversNothing])
      cases updated : store.update jobId change with
      | none =>
          simp only [Store.call, updated]
          exact agrees
      | some after =>
          simp only [Store.call, updated]
          exact agrees.update updated
  | setCurrentVersion version => exact iff_of_true agrees (by simp [RecoversNothing])
  | recoverInterrupted =>
      apply (eventsMatch_recoverInterrupted agrees).trans
      simp [RecoversNothing]
  | crash => exact iff_of_true agrees (by simp [RecoversNothing])

/-! ### Whole runs -/

/-- In every run of the store the event log agrees with the job table in every
state exactly when no recovery meets an active job. -/
theorem eventsMatch_iff (calls : List StoreCall) :
    Always Store.call EventsMatch {} calls ↔ EveryStep Store.call RecoversNothing {} calls := by
  apply always_iff_guarded EventsMatch (fun _ => True)
  · exact fun _ agrees => agrees
  · exact fun store call agrees _ nothing => (eventsMatch_call agrees call).mpr nothing
  · exact fun store call agrees _ stillAgrees => (eventsMatch_call agrees call).mp stillAgrees
  · intro job stored
    cases stored
  · exact fun _ _ => trivial

/-- The agent stops after it has accepted a job, and recovers it. -/
theorem eventsMatch_not_always : ¬ ∀ calls, Always Store.call EventsMatch {} calls := by
  intro always
  have recovered := always [
    .createJob 1 "key-00000001" installed.installationId installed.currentVersion
      nextRelease.version nextRelease,
    .crash,
    .recoverInterrupted]
  revert recovered
  decide

/-! ### Runs of the agent -/

/-- What an effect of a worker does to the store is one of its calls. -/
theorem Commits.call {agent : Agent} {worker : Worker} {effect : Effect}
    {written : List StableVersion} (commits : Commits agent worker effect next written) :
    ∃ call, next = agent.store.call call := by
  cases commits with
  | nothing => exact ⟨.crash, rfl⟩
  | @state change store updated =>
      refine ⟨.update worker.jobId change, ?_⟩
      simp [Store.call, updated]
  | version => exact ⟨.setCurrentVersion worker.manifest.version, rfl⟩

/-- Every action of a coherent agent does to the store what one call does. -/
theorem AgentStep.call {config : Config} {agent after : Agent} {action : Action}
    (steps : AgentStep config agent action after) :
    ∃ call, after.store = agent.store.call call := by
  cases steps with
  | idle => exact ⟨.crash, rfl⟩
  | requested =>
      refine ⟨.crash, ?_⟩
      unfold Agent.request
      split_ifs <;> rfl
  | answered found => exact ⟨.crash, rfl⟩
  | continued found moves => exact ⟨.crash, rfl⟩
  | @created _ jobId _ target source key manifest _ _ _ found commits fresh isJob becomes =>
      refine ⟨.createJob jobId key config.installationId source target manifest, ?_⟩
      subst isJob
      have made : agent.store.createJob
          (requestedJob jobId key config.installationId source target manifest) = .ok _ :=
        Store.createJob_fresh fresh
      simp only [Store.call, made]
      rfl
  | spawned found => exact ⟨.crash, rfl⟩
  | worked found steps commits => exact commits.call
  | crashed => exact ⟨.crash, rfl⟩
  | recovered stopped serving => exact ⟨.recoverInterrupted, rfl⟩

/-- The stores of a run of the agent are the stores of a run of store calls. -/
theorem agent_store_run (config : Config) {agent : Agent} (coherent : Coherent agent)
    (actions : List Action) :
    ∃ calls, (run (Agent.step config) agent actions).store = run Store.call agent.store calls := by
  induction actions generalizing agent with
  | nil => exact ⟨[], rfl⟩
  | cons action rest inductionHypothesis =>
      obtain ⟨call, first⟩ := (agentStep config coherent action).call
      obtain ⟨calls, later⟩ := inductionHypothesis (step_coherent config coherent action)
      refine ⟨call :: calls, ?_⟩
      rw [run_cons, run_cons, later, first]

end BubllioCrm.UpdateAgent
