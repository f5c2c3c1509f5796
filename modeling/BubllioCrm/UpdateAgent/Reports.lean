import BubllioCrm.UpdateAgent.Api
import BubllioCrm.UpdateAgent.LifeCycle
import BubllioCrm.UpdateAgent.Starts
import BubllioCrm.UpdateAgent.Versioning

/-!
Owns what the agent tells about a job and for how long it is true: the public
form of a row, and that a step keeps every job with its key and its end, makes
a job only for the key of a call, and no call for another key.
-/

namespace BubllioCrm.UpdateAgent

open BubllioCrm.Foundations

variable {config : Config} {agent after : Agent} {action : Action}

/-! ### The public form of a job -/

/-- The values of `JobState`. -/
def JobState.text : JobState → String
  | .requested => "REQUESTED"
  | .preflight => "PREFLIGHT"
  | .backingUp => "BACKING_UP"
  | .deploying => "DEPLOYING"
  | .verifying => "VERIFYING"
  | .succeeded => "SUCCEEDED"
  | .failed => "FAILED"
  | .rolledBack => "ROLLED_BACK"
  | .manualIntervention => "MANUAL_INTERVENTION"

/-- `public_dict`, where `idText` is the text of an id. The times are left out. -/
def Job.publicDict (idText : Nat → String) (job : Job) : Payload := [
  ("id", .str (idText job.id)),
  ("installation_id", .str job.installationId),
  ("source_version", .str job.sourceVersion.text),
  ("target_version", .str job.targetVersion.text),
  ("state", .str job.state.text),
  ("progress", .int job.progress),
  ("phase", .str job.phase),
  ("migration_policy", .str job.manifest.migrationPolicy),
  ("error",
    if job.errorCode.any (· ≠ "") then
      .obj [("code", .str (job.errorCode.getD "")),
        ("message", (job.errorMessage.map Json.str).getD .null)]
    else .null)]

/-! ### Jobs over a step -/

/-- A later row of a job, whose end is never taken back. -/
def Job.Becomes (job later : Job) : Prop :=
  later.identity = job.identity ∧ (job.state.isActive = false → later.state.isActive = false)

theorem Job.becomes_refl (job : Job) : job.Becomes job :=
  ⟨rfl, fun ended => ended⟩

theorem Job.Becomes.trans {first second third : Job} (former : first.Becomes second)
    (latter : second.Becomes third) : first.Becomes third :=
  ⟨latter.1.trans former.1, fun ended => latter.2 (former.2 ended)⟩

theorem Job.Becomes.id {job later : Job} (becomes : job.Becomes later) : later.id = job.id :=
  congrArg Prod.fst becomes.1

theorem Job.Becomes.key {job later : Job} (becomes : job.Becomes later) :
    later.idempotencyKey = job.idempotencyKey :=
  congrArg (·.2.1) becomes.1

/-- No step loses a job. One that it makes is for the key of a call, and no
other job has that key. -/
theorem StartStep.jobs (steps : StartStep config agent action after) :
    after.store.jobs.map Job.identity = agent.store.jobs.map Job.identity ∨
      ∃ job, after.store.jobs = agent.store.jobs ++ [job] ∧
        (∃ call ∈ agent.calls, job.idempotencyKey = call.key) ∧
        ∀ other ∈ agent.store.jobs, other.idempotencyKey ≠ job.idempotencyKey := by
  cases steps with
  | background elsewhere answers calls identities workers => exact Or.inl identities
  | accepted found fresh isJob =>
      subst isJob
      exact Or.inr ⟨_, rfl, ⟨_, List.mem_of_getElem? found, rfl⟩,
        fun other stored => (fresh other stored).1⟩
  | lost found fresh isJob =>
      subst isJob
      exact Or.inr ⟨_, rfl, ⟨_, List.mem_of_getElem? found, rfl⟩,
        fun other stored => (fresh other stored).1⟩
  | _ => exact Or.inl rfl

theorem Moves.key {call moved : StartCall} (moves : Moves config agent call moved) :
    moved.key = call.key := by
  cases moves <;> rfl

/-- Every call after a step has the key of an earlier one or of the request. -/
theorem AgentStep.callKeys (steps : AgentStep config agent action after) {call : StartCall}
    (member : call ∈ after.calls) :
    (∃ earlier ∈ agent.calls, earlier.key = call.key) ∨
      ∃ target, action = .request target call.key := by
  have replaced : ∀ {index : Nat} {next : List StartCall}, call ∈ replaceAt index next agent.calls →
      (∀ moved ∈ next, ∃ earlier ∈ agent.calls, earlier.key = moved.key) →
      ∃ earlier ∈ agent.calls, earlier.key = call.key := by
    intro index next isCall keyed
    rcases mem_of_mem_replaceAt isCall with new | old
    · exact keyed call new
    · exact ⟨call, old, rfl⟩
  cases steps with
  | idle => exact Or.inl ⟨call, member, rfl⟩
  | @requested target key =>
      unfold Agent.request at member
      split_ifs at member
      · rcases List.mem_append.mp member with old | new
        · exact Or.inl ⟨call, old, rfl⟩
        · rw [List.mem_singleton.mp new]
          exact Or.inr ⟨target, rfl⟩
      · exact Or.inl ⟨call, member, rfl⟩
      · exact Or.inl ⟨call, member, rfl⟩
  | answered found => exact Or.inl (replaced member (by simp))
  | continued found moves =>
      refine Or.inl (replaced member ?_)
      intro moved isMoved
      rw [List.mem_singleton.mp isMoved]
      exact ⟨_, List.mem_of_getElem? found, moves.key.symm⟩
  | created found commits fresh isJob becomes =>
      refine Or.inl (replaced member ?_)
      intro moved isMoved
      rcases becomes with rfl | rfl
      · cases isMoved
      · rw [List.mem_singleton.mp isMoved]
        exact ⟨_, List.mem_of_getElem? found, rfl⟩
  | spawned found => exact Or.inl (replaced member (by simp))
  | worked found steps commits => exact Or.inl ⟨call, member, rfl⟩
  | crashed => cases member
  | recovered stopped serving => exact Or.inl ⟨call, member, rfl⟩

/-- The jobs and the calls after a step, by their keys. -/
structure Progress (agent : Agent) (action : Action) (after : Agent) : Prop where
  kept : ∀ job ∈ agent.store.jobs, ∃ later ∈ after.store.jobs, job.Becomes later
  origins : ∀ later ∈ after.store.jobs, (∃ job ∈ agent.store.jobs, job.Becomes later) ∨
    (∃ call ∈ agent.calls, call.key = later.idempotencyKey) ∧
      ∀ job ∈ agent.store.jobs, job.idempotencyKey ≠ later.idempotencyKey
  calls : ∀ call ∈ after.calls, (∃ earlier ∈ agent.calls, earlier.key = call.key) ∨
    ∃ target, action = .request target call.key

theorem Coherent.progress (config : Config) (coherent : Coherent agent) (action : Action) :
    Progress agent action (agent.step config action) := by
  have ends : ∀ job ∈ agent.store.jobs, ∀ later ∈ (agent.step config action).store.jobs,
      later.identity = job.identity → job.Becomes later := by
    intro job stored later laterStored same
    refine ⟨same, fun ended => ?_⟩
    have sameId : later.id = job.id := congrArg Prod.fst same
    have lifeCycle : LifeCycleStep config agent action := coherent.lifeCycleStep action
    rcases lifeCycle.terminal job stored ended later laterStored sameId with state | ⟨-, state, -⟩
    · rw [state]
      exact ended
    · rw [state]
      rfl
  refine ⟨?_, ?_, fun call member => (agentStep config coherent action).callKeys member⟩
  · intro job stored
    rcases (startStep config coherent action).jobs with same | ⟨new, jobs, -⟩
    · have member : job.identity ∈ (agent.step config action).store.jobs.map Job.identity :=
        same ▸ List.mem_map_of_mem stored
      obtain ⟨later, laterStored, identity⟩ := List.mem_map.mp member
      exact ⟨later, laterStored, ends job stored later laterStored identity⟩
    · exact ⟨job, jobs ▸ List.mem_append_left _ stored, job.becomes_refl⟩
  · intro later laterStored
    rcases (startStep config coherent action).jobs with same | ⟨new, jobs, called, unused⟩
    · have member : later.identity ∈ agent.store.jobs.map Job.identity :=
        same ▸ List.mem_map_of_mem laterStored
      obtain ⟨job, stored, identity⟩ := List.mem_map.mp member
      exact Or.inl ⟨job, stored, ends job stored later laterStored identity.symm⟩
    · rw [jobs] at laterStored
      rcases List.mem_append.mp laterStored with old | isNew
      · exact Or.inl ⟨later, old, later.becomes_refl⟩
      · obtain rfl := List.mem_singleton.mp isNew
        obtain ⟨call, isCall, sameKey⟩ := called
        exact Or.inr ⟨⟨call, isCall, sameKey.symm⟩, unused⟩

end BubllioCrm.UpdateAgent
