import BubllioCrm.UpdateAgent.Lines

/-!
Owns what one action of a worker does to the whole agent: the write to the
store, the observations of its job, and which rows of the job table change.
-/

namespace BubllioCrm.UpdateAgent

open BubllioCrm.Foundations

/-- What an effect makes of the store and of the written versions. -/
inductive Commits (agent : Agent) (worker : Worker) : Effect → Store → List StableVersion → Prop
    where
  | nothing : Commits agent worker .nothing agent.store agent.written
  | state {change : JobUpdate} {store : Store}
      (updated : agent.store.update worker.jobId change = some store) :
      Commits agent worker (.state change) store agent.written
  | version : Commits agent worker .version
      (agent.store.setCurrentVersion worker.manifest.version)
      (agent.written ++ [worker.manifest.version])

/-- The agent after an action of the worker at `index`. -/
def Agent.afterWork (index : Nat) (worker : Worker) (entries : List Entry) (next : List Worker)
    (store : Store) (written : List StableVersion) (agent : Agent) : Agent :=
  (({ agent with store := store, written := written } : Agent).log worker.jobId entries).becomes
    index next

theorem Agent.log_log (agent : Agent) (jobId : Nat) (first second : List Entry) :
    (agent.log jobId first).log jobId second = agent.log jobId (first ++ second) := by
  simp [Agent.log]

theorem Agent.log_nil (agent : Agent) (jobId : Nat) : agent.log jobId [] = agent := by
  simp [Agent.log]

theorem Agent.history_afterWork (index : Nat) (worker : Worker) (entries : List Entry)
    (next : List Worker) (store : Store) (written : List StableVersion) (agent : Agent) :
    (agent.afterWork index worker entries next store written).history worker.jobId =
      agent.history worker.jobId ++ entries :=
  Function.update_self _ _ _

theorem Agent.history_afterWork_of_ne {jobId : Nat} (index : Nat) {worker : Worker}
    (entries : List Entry) (next : List Worker) (store : Store) (written : List StableVersion)
    (agent : Agent) (other : jobId ≠ worker.jobId) :
    (agent.afterWork index worker entries next store written).history jobId =
      agent.history jobId :=
  Function.update_of_ne other _ _

/-- The worker at `index` has performed one of its actions. -/
inductive Performs (agent : Agent) (index : Nat) (worker : Worker) : Agent → Prop where
  | mk {effect : Effect} {entries : List Entry} {next : List Worker} {store : Store}
      {written : List StableVersion} (steps : WorkerStep worker effect entries next)
      (commits : Commits agent worker effect store written) :
      Performs agent index worker (agent.afterWork index worker entries next store written)

variable {agent : Agent} {worker : Worker} {index : Nat} {outcome : Outcome}

/-- The forms in which an action appears in the code: with entries already
logged, or with none. -/
theorem Performs.of_eq {effect : Effect} {entries : List Entry} {next : List Worker}
    {store : Store} {written : List StableVersion} {after : Agent}
    (steps : WorkerStep worker effect entries next)
    (commits : Commits agent worker effect store written)
    (same : agent.afterWork index worker entries next store written = after) :
    Performs agent index worker after :=
  same ▸ .mk steps commits

section Cases

variable {number : Nat}

theorem storeUpdate_performs {change : JobUpdate} {store : Store}
    (control : worker.control = .line number) (found : runJob[number]? = some (.update change))
    (updated : agent.store.update worker.jobId change = some store) :
    Performs agent index worker
      (agent.storeCall index number worker outcome (agent.recordState worker.jobId change)) := by
  simp only [Agent.storeCall, Agent.recordState, updated, Option.map_some]
  cases outcome with
  | returns => exact .of_eq (.updated control found) (.state updated) rfl
  | raises exception => exact .of_eq (.raisedAt control) .nothing rfl
  | commitsAndRaises exception =>
      have steps : WorkerStep worker (.state change) [.recorded change.state, .raised]
          [worker.handling exception] := .updatedThenRaised control found
      refine .of_eq steps (.state updated) ?_
      simp only [Agent.raiseIn, Agent.log_log]
      rfl

theorem versionWrite_performs (control : worker.control = .line number)
    (found : runJob[number]? = some .setCurrentVersion) :
    Performs agent index worker (agent.storeCall index number worker outcome
      (some (agent.recordVersion worker.manifest.version))) := by
  simp only [Agent.storeCall]
  cases outcome with
  | returns =>
      refine .of_eq (.versioned control found) .version ?_
      simp only [Agent.afterWork, Agent.log_nil]
      rfl
  | raises exception => exact .of_eq (.raisedAt control) .nothing rfl
  | commitsAndRaises exception =>
      exact .of_eq (.versionedThenRaised control found) .version rfl

theorem execute_performs (control : worker.control = .line number) (inside : number < 11)
    (updates : ∀ change, ∃ store, agent.store.update worker.jobId change = some store) :
    Performs agent index worker (agent.execute index number worker outcome) := by
  unfold Agent.execute
  cases found : runJob[number]? with
  | none =>
      have outside := List.getElem?_eq_none_iff.mp found
      exact absurd inside (not_lt.mpr outside)
  | some statement =>
      cases statement with
      | update change =>
          obtain ⟨store, updated⟩ := updates change
          exact storeUpdate_performs control found updated
      | adapter call => exact .of_eq (.invoked control found) .nothing rfl
      | setDeploymentStarted =>
          refine .of_eq (.started control found) .nothing ?_
          simp only [Agent.afterWork, Agent.log_nil, control]
      | setCurrentVersion => exact versionWrite_performs control found

theorem finishAdapter_performs {call : AdapterCall} (control : worker.control = .awaiting number)
    (found : runJob[number]? = some (.adapter call)) :
    Performs agent index worker (agent.finishAdapter index number worker outcome) := by
  unfold Agent.finishAdapter
  simp only [found]
  cases outcome with
  | returns => exact .of_eq (.returned control found) .nothing rfl
  | raises exception => exact .of_eq (.raisedInside control) .nothing rfl
  | commitsAndRaises exception => exact .of_eq (.raisedInside control) .nothing rfl

theorem handleFailure_performs {exception : Raised} (control : worker.control = .handling exception)
    (updates : ∀ change, ∃ store, agent.store.update worker.jobId change = some store) :
    Performs agent index worker (agent.handleFailure index worker exception outcome) := by
  unfold Agent.handleFailure
  cases written : failureUpdate worker.deploymentStarted exception with
  | none =>
      refine .of_eq (.ended control (Or.inl rfl)) .nothing ?_
      simp only [Agent.afterWork, Agent.log_nil]
  | some change =>
      obtain ⟨store, updated⟩ := updates change
      simp only [Agent.recordState, updated, Option.map_some]
      cases outcome with
      | returns => exact .of_eq (.handled control written (Or.inl rfl)) (.state updated) rfl
      | raises exception => exact .of_eq (.ended control (Or.inr rfl)) .nothing rfl
      | commitsAndRaises exception =>
          refine .of_eq (.handled control written (Or.inr rfl)) (.state updated) ?_
          simp only [Agent.log_log]
          rfl

end Cases

/-- A worker that tracks a stored job performs one of its actions. -/
theorem work_performs {job : Job} (stored : job ∈ agent.store.jobs)
    (sameJob : job.id = worker.jobId) {history : List Entry} {state : JobState}
    (tracks : worker.Tracks history state) :
    Performs agent index worker (agent.work index worker outcome) := by
  have updates : ∀ change, ∃ store, agent.store.update worker.jobId change = some store :=
    fun change => sameJob ▸ Store.update_isSome stored
  unfold Worker.Tracks at tracks
  unfold Agent.work
  cases control : worker.control with
  | line number =>
      simp only [control] at tracks
      exact execute_performs control tracks.1 updates
  | awaiting number =>
      simp only [control] at tracks
      obtain ⟨⟨call, found⟩, -⟩ := tracks
      exact finishAdapter_performs control found
  | handling exception => exact handleFailure_performs control updates

/-- The job rows after an effect: only the row of the worker is written, and
only its state, progress, phase and error. -/
theorem Commits.row {effect : Effect} {store : Store} {written : List StableVersion}
    (commits : Commits agent worker effect store written) {after : Job}
    (member : after ∈ store.jobs) :
    ∃ before ∈ agent.store.jobs, after.id = before.id ∧
      after.sourceVersion = before.sourceVersion ∧ after.targetVersion = before.targetVersion ∧
      after.manifest = before.manifest ∧
      (before.id ≠ worker.jobId → after = before) ∧
      (before.id = worker.jobId → after.state = effect.stateAfter before.state) := by
  cases commits with
  | nothing => exact ⟨after, member, rfl, rfl, rfl, rfl, fun _ => rfl, fun _ => rfl⟩
  | version => exact ⟨after, member, rfl, rfl, rfl, rfl, fun _ => rfl, fun _ => rfl⟩
  | state updated =>
      rw [(Store.update_eq_some updated).1] at member
      obtain ⟨before, stored, ⟨hit, rfl⟩ | ⟨miss, rfl⟩⟩ := mem_updateWhere.mp member
      · exact ⟨before, stored, rfl, rfl, rfl, rfl, fun other => absurd hit other, fun _ => rfl⟩
      · exact ⟨after, stored, rfl, rfl, rfl, rfl, fun _ => rfl, fun same => absurd same miss⟩

theorem Commits.kept {effect : Effect} {store : Store} {written : List StableVersion}
    (commits : Commits agent worker effect store written) {before : Job}
    (stored : before ∈ agent.store.jobs) :
    ∃ after ∈ store.jobs, after.id = before.id ∧ after.manifest = before.manifest ∧
      (before.id ≠ worker.jobId → after = before) ∧
      (before.id = worker.jobId → after.state = effect.stateAfter before.state) := by
  cases commits with
  | nothing => exact ⟨before, stored, rfl, rfl, fun _ => rfl, fun _ => rfl⟩
  | version => exact ⟨before, stored, rfl, rfl, fun _ => rfl, fun _ => rfl⟩
  | @state change store updated =>
      rw [(Store.update_eq_some updated).1]
      by_cases hit : before.id = worker.jobId
      · exact ⟨before.record change, mem_updateWhere_of_selected stored hit, rfl, rfl,
          fun other => absurd hit other, fun _ => rfl⟩
      · exact ⟨before, mem_updateWhere_of_not_selected stored hit, rfl, rfl, fun _ => rfl,
          fun same => absurd same hit⟩

theorem Commits.ids {effect : Effect} {store : Store} {written : List StableVersion}
    (commits : Commits agent worker effect store written) :
    store.jobs.map Job.id = agent.store.jobs.map Job.id := by
  cases commits with
  | nothing => rfl
  | version => rfl
  | state updated =>
      rw [(Store.update_eq_some updated).1, map_updateWhere]
      exact fun _ => rfl

end BubllioCrm.UpdateAgent
