import BubllioCrm.Foundations.Execution
import BubllioCrm.UpdateAgent.Coherence

/-!
Owns the actions of a coherent agent: one relation with a case for each thing
an action can do, from which every later invariant is derived, the coherence
of every state of a run, and the actions of a sample update.
-/

namespace BubllioCrm.UpdateAgent

open BubllioCrm.Foundations

variable {agent : Agent}

/-- A call goes on to its next step. -/
inductive Moves (config : Config) (agent : Agent) : StartCall → StartCall → Prop where
  | unknown {target : StableVersion} {key : String} :
      Moves config agent (.lookup target key) (.verify target key)
  | verified {target : StableVersion} {key : String} {manifest : ReleaseManifest}
      (admits : manifest.Admits target (agent.currentVersion config)) :
      Moves config agent (.verify target key) (.preflight target key manifest)
  | eligible {target : StableVersion} {key : String} {manifest : ReleaseManifest} :
      Moves config agent (.preflight target key manifest) (.readSource target key manifest)
  | sourced {target : StableVersion} {key : String} {manifest : ReleaseManifest} :
      Moves config agent (.readSource target key manifest)
        (.create target key manifest (agent.currentVersion config))

theorem Moves.sound {config : Config} {call moved : StartCall}
    (moves : Moves config agent call moved) (sound : call.Sound agent) :
    moved.Sound agent ∧ moved.spawning = none := by
  cases moves with
  | unknown => exact ⟨trivial, rfl⟩
  | verified admits => exact ⟨admits.target, rfl⟩
  | eligible => exact ⟨sound, rfl⟩
  | sourced => exact ⟨sound, rfl⟩

/-- The transaction of the call has committed. -/
def Outcome.commits : Outcome → Bool
  | .returns => true
  | .raises _ => false
  | .commitsAndRaises _ => true

/-- No job has the key of the call, no job is active and the id is free. -/
def Agent.Inserts (agent : Agent) (call : StartCall) (jobId : Nat) : Prop :=
  ∀ other ∈ agent.store.jobs, other.idempotencyKey ≠ call.key ∧
    other.state.isActive = false ∧ other.id ≠ jobId

instance (agent : Agent) (call : StartCall) (jobId : Nat) : Decidable (agent.Inserts call jobId) :=
  inferInstanceAs (Decidable (∀ other ∈ agent.store.jobs, _))

/-- The agent after a call has inserted a job: the call turns into `next`. -/
def Agent.inserting (index : Nat) (next : List StartCall) (job : Job) (answers : List Answer)
    (agent : Agent) : Agent :=
  { agent with
    store := agent.store.insertJob job
    calls := replaceAt index next agent.calls
    answers := answers }

/-- The actions of a coherent agent. -/
inductive AgentStep (config : Config) (agent : Agent) : Action → Agent → Prop where
  | idle {action : Action} : AgentStep config agent action agent
  | requested {target : StableVersion} {key : String} :
      AgentStep config agent (.request target key) (agent.request target key)
  | answered {action : Action} {index : Nat} {call : StartCall}
      {result : Except Raised (Job × Bool)} (found : agent.calls[index]? = some call) :
      AgentStep config agent action (agent.answer index call result)
  | continued {action : Action} {index : Nat} {call moved : StartCall}
      (found : agent.calls[index]? = some call) (moves : Moves config agent call moved) :
      AgentStep config agent action (agent.continueCall index moved)
  | created {index jobId : Nat} {outcome : Outcome} {target source : StableVersion} {key : String}
      {manifest : ReleaseManifest} {job : Job} {next : List StartCall} {answers : List Answer}
      (found : agent.calls[index]? = some (.create target key manifest source))
      (commits : outcome.commits = true)
      (fresh : agent.Inserts (.create target key manifest source) jobId)
      (isJob : job = requestedJob jobId key config.installationId source target manifest)
      (becomes : next = [] ∨ next = [.spawn target key manifest job]) :
      AgentStep config agent (.createJob index jobId outcome)
        (agent.inserting index next job answers)
  | spawned {index : Nat} {outcome : Outcome} {target : StableVersion} {key : String}
      {manifest : ReleaseManifest} {job : Job}
      (found : agent.calls[index]? = some (.spawn target key manifest job)) :
      AgentStep config agent (.spawn index outcome)
        ((agent.startWorker job.id manifest).answer index (.spawn target key manifest job)
          (.ok (job, true)))
  | worked {index : Nat} {outcome : Outcome} {worker : Worker} {effect : Effect}
      {entries : List Entry} {next : List Worker} {store : Store} {written : List StableVersion}
      (found : agent.workers[index]? = some worker)
      (steps : WorkerStep worker effect entries next)
      (commits : Commits agent worker effect store written) :
      AgentStep config agent (.work index outcome)
        (agent.afterWork index worker entries next store written)
  | crashed : AgentStep config agent .crash agent.crash
  | recovered {outcome : Outcome} (stopped : agent.serving = false) (serving : Bool) :
      AgentStep config agent (.restart outcome)
        { agent with store := agent.store.recoverInterrupted, serving := serving }

/-! ### One lemma for each step of a call -/

section Calls

variable {config : Config} {action : Action} {index jobId : Nat} {outcome : Outcome}
  {target source : StableVersion} {key : String} {manifest : ReleaseManifest}

theorem lookup_agentStep (found : agent.calls[index]? = some (.lookup target key)) :
    AgentStep config agent action (agent.lookup index (.lookup target key) outcome) := by
  unfold Agent.lookup
  split
  · exact .answered found
  · exact .answered found
  · split
    · exact .continued found .unknown
    · split_ifs
      · exact .answered found
      · exact .answered found

theorem verify_agentStep {material : Except Raised ReleaseManifest}
    (found : agent.calls[index]? = some (.verify target key)) :
    AgentStep config agent action (agent.verify config index (.verify target key) material) := by
  unfold Agent.verify
  cases material with
  | error exception => exact .answered found
  | ok manifest =>
      cases checked : manifest.checkTarget config.repository target
          (agent.currentVersion config) with
      | error exception =>
          simp only [StartCall.target, checked]
          exact .answered found
      | ok value =>
          simp only [StartCall.target, checked]
          exact .continued found (.verified (ReleaseManifest.checkTarget_ok checked))

theorem preflight_agentStep (found : agent.calls[index]? = some (.preflight target key manifest)) :
    AgentStep config agent action
      (agent.preflight index (.preflight target key manifest) manifest outcome) := by
  unfold Agent.preflight
  cases outcome with
  | returns => exact .continued found .eligible
  | raises exception => exact .answered found
  | commitsAndRaises exception => exact .answered found

theorem readSource_agentStep
    (found : agent.calls[index]? = some (.readSource target key manifest)) :
    AgentStep config agent action
      (agent.readSource config index (.readSource target key manifest) manifest outcome) := by
  unfold Agent.readSource
  cases outcome with
  | returns => exact .continued found .sourced
  | raises exception => exact .answered found
  | commitsAndRaises exception => exact .answered found

/-- The call is answered without a new job, or it inserts one, after which it
starts the worker or reports the exception. -/
theorem createJob_agentStep
    (found : agent.calls[index]? = some (.create target key manifest source)) :
    AgentStep config agent (.createJob index jobId outcome)
      (agent.createJob config index (.create target key manifest source) manifest source jobId
        outcome) := by
  unfold Agent.createJob
  simp only [StartCall.key, StartCall.target]
  cases made : agent.store.createJob
      (requestedJob jobId key config.installationId source target manifest) with
  | error exception => cases outcome <;> exact .answered found
  | ok value =>
      obtain ⟨store, created, isNew⟩ := value
      rcases Store.createJob_ok made with ⟨-, -, -, rfl, rfl⟩ | ⟨fresh, rfl, rfl, rfl⟩
      · cases outcome <;> exact .answered found
      · cases outcome with
        | raises exception => exact .answered found
        | returns => exact .created found rfl fresh rfl (Or.inr rfl)
        | commitsAndRaises exception => exact .created found rfl fresh rfl (Or.inl rfl)

theorem spawn_agentStep {job : Job}
    (found : agent.calls[index]? = some (.spawn target key manifest job)) :
    AgentStep config agent (.spawn index outcome)
      (agent.spawn index (.spawn target key manifest job) manifest job outcome) := by
  unfold Agent.spawn
  cases outcome with
  | returns => exact .spawned found
  | raises exception => exact .answered found
  | commitsAndRaises exception => exact .answered found

end Calls

theorem restart_agentStep {config : Config} {outcome : Outcome} :
    AgentStep config agent (.restart outcome) (agent.restart outcome) := by
  unfold Agent.restart
  split_ifs with serving
  · exact .idle
  · have stopped : agent.serving = false := by simpa using serving
    cases outcome with
    | raises exception => exact .idle
    | returns => exact .recovered stopped true
    | commitsAndRaises exception => exact .recovered stopped agent.serving

theorem Performs.agentStep {config : Config} {index : Nat} {outcome : Outcome} {worker : Worker}
    {after : Agent} (performs : Performs agent index worker after)
    (found : agent.workers[index]? = some worker) :
    AgentStep config agent (.work index outcome) after := by
  cases performs with
  | mk steps commits => exact .worked found steps commits

theorem work_agentStep {config : Config} {index : Nat} {outcome : Outcome} {worker : Worker}
    (coherent : Coherent agent) (found : agent.workers[index]? = some worker) :
    AgentStep config agent (.work index outcome) (agent.work index worker outcome) := by
  obtain ⟨job, stored, sameJob, -, tracks⟩ :=
    coherent.workers worker (List.mem_of_getElem? found)
  exact (work_performs stored sameJob tracks).agentStep found

/-! ### The steps of the agent -/

theorem agentStep (config : Config) (coherent : Coherent agent) (action : Action) :
    AgentStep config agent action (agent.step config action) := by
  cases action with
  | request target key => exact .requested
  | crash => exact .crashed
  | restart outcome => exact restart_agentStep
  | work index outcome =>
      simp only [Agent.step]
      cases found : agent.workers[index]? with
      | none => exact .idle
      | some worker => exact work_agentStep coherent found
  | lookup index outcome =>
      simp only [Agent.step]
      split
      · exact lookup_agentStep ‹_›
      · exact .idle
  | verify index material =>
      simp only [Agent.step]
      split
      · exact verify_agentStep ‹_›
      · exact .idle
  | preflight index outcome =>
      simp only [Agent.step]
      split
      · exact preflight_agentStep ‹_›
      · exact .idle
  | readSource index outcome =>
      simp only [Agent.step]
      split
      · exact readSource_agentStep ‹_›
      · exact .idle
  | createJob index jobId outcome =>
      simp only [Agent.step]
      split
      · exact createJob_agentStep ‹_›
      · exact .idle
  | spawn index outcome =>
      simp only [Agent.step]
      split
      · exact spawn_agentStep ‹_›
      · exact .idle

theorem AgentStep.coherent {config : Config} {action : Action} {after : Agent}
    (steps : AgentStep config agent action after) (coherent : Coherent agent) :
    Coherent after := by
  cases steps with
  | idle => exact coherent
  | requested => exact coherent.request _ _
  | answered found =>
      obtain ⟨front, back, pool, replaced⟩ := exists_replaceAt found
      exact coherent.answered pool replaced _
  | continued found moves =>
      obtain ⟨front, back, pool, replaced⟩ := exists_replaceAt found
      obtain ⟨sound, silent⟩ := moves.sound (coherent.calls _ (List.mem_of_getElem? found))
      exact coherent.continued pool replaced sound silent
  | @created _ _ _ target _ _ manifest _ _ _ found _ fresh isJob becomes =>
      obtain ⟨front, back, pool, replaced⟩ := exists_replaceAt found
      have isTarget : manifest.version = target := coherent.calls _ (List.mem_of_getElem? found)
      subst isJob
      exact coherent.inserted pool (replaced _) (fun other stored => (fresh other stored).2) rfl
        isTarget (becomes.imp_right fun starts => ⟨_, _, starts⟩) rfl rfl rfl rfl
  | spawned found =>
      obtain ⟨front, back, pool, replaced⟩ := exists_replaceAt found
      exact coherent.spawned pool replaced _ _
  | worked found steps commits =>
      obtain ⟨front, back, pool, replaced⟩ := exists_replaceAt found
      exact coherent.work pool replaced steps commits
  | crashed => exact coherent.crash
  | recovered stopped serving => exact coherent.recovered stopped serving

theorem step_coherent (config : Config) (coherent : Coherent agent) (action : Action) :
    Coherent (agent.step config action) :=
  (agentStep config coherent action).coherent coherent

/-! ### A sample update -/

def installed : Config where
  repository := "example/bubllio-crm"
  installationId := "00000000-0000-4000-8000-000000000001"
  currentVersion := { major := 0, minor := 3, patch := 0 }

def nextRelease : ReleaseManifest where
  repository := "example/bubllio-crm"
  version := { major := 0, minor := 4, patch := 0 }
  commitSha := "0123456789abcdef0123456789abcdef01234567"
  imageDigests :=
    [("api", "sha256:0123456789abcdef0123456789abcdef0123456789abcdef0123456789abcdef")]
  minimumVersion := { major := 0, minor := 3, patch := 0 }
  maximumVersion := { major := 0, minor := 3, patch := 9 }
  migrationPolicy := "online_safe"
  expectedSchema := "crm-0.4"
  healthTimeoutSeconds := 30
  rollbackCompatible := true

/-- A request for the next release, up to its eligibility. -/
def eligibleRequest (key : String) (index : Nat) : List Action :=
  [.request nextRelease.version key, .lookup index .returns, .verify index (.ok nextRelease),
    .preflight index .returns]

/-- The rest of the first `start` call, whose worker is the first one. -/
def startFirst (jobId : Nat) : List Action :=
  [.readSource 0 .returns, .createJob 0 jobId .returns, .spawn 0 .returns]

/-- The first worker takes its next actions without a failure. -/
def workOn (count : Nat) : List Action :=
  List.replicate count (.work 0 .returns)

end BubllioCrm.UpdateAgent
