import BubllioCrm.UpdateAgent.Steps

/-!
Owns what one action does for the callers of `start`: one relation with a case
for each way a call is answered, goes on, inserts a job or starts its worker,
and one case for everything that happens in the background.
-/

namespace BubllioCrm.UpdateAgent

open BubllioCrm.Foundations

variable {config : Config} {agent after : Agent} {action : Action}

/-- The columns of a job that no statement writes after its insertion. -/
def Job.identity (job : Job) : Nat × String × StableVersion :=
  (job.id, job.idempotencyKey, job.targetVersion)

def Outcome.raised : Outcome → Option Raised
  | .returns => none
  | .raises exception => some exception
  | .commitsAndRaises exception => some exception

/-- The action is a step of a `start` call. -/
def Action.ofStart : Action → Bool
  | .request _ _ => true
  | .lookup _ _ => true
  | .verify _ _ => true
  | .preflight _ _ => true
  | .readSource _ _ => true
  | .createJob _ _ _ => true
  | .spawn _ _ => true
  | .work _ _ => false
  | .crash => false
  | .restart _ => false

inductive StartStep (config : Config) (agent : Agent) : Action → Agent → Prop where
  | idle {action : Action} : StartStep config agent action agent
  | background {action : Action} {after : Agent} (elsewhere : action.ofStart = false)
      (answers : after.answers = agent.answers) (calls : after.calls = agent.calls)
      (identities : after.store.jobs.map Job.identity = agent.store.jobs.map Job.identity)
      (workers : (after.workers.map Worker.jobId).Sublist (agent.workers.map Worker.jobId)) :
      StartStep config agent action after
  | crashed : StartStep config agent .crash agent.crash
  | requested {target : StableVersion} {key : String} :
      StartStep config agent (.request target key)
        { agent with calls := agent.calls ++ [.lookup target key] }
  | invalid {target : StableVersion} {key : String} {exception : Raised} :
      StartStep config agent (.request target key)
        { agent with
          answers := agent.answers ++ [{ target := target, key := key, result := .error exception }] }
  | refused {action : Action} {index : Nat} {call : StartCall} {exception : Raised}
      (found : agent.calls[index]? = some call) (silent : call.spawning = none) :
      StartStep config agent action (agent.answer index call (.error exception))
  | returned {action : Action} {index : Nat} {call : StartCall} {job : Job}
      (found : agent.calls[index]? = some call) (silent : call.spawning = none)
      (stored : job ∈ agent.store.jobs) (sameKey : job.idempotencyKey = call.key)
      (sameTarget : job.targetVersion = call.target) :
      StartStep config agent action (agent.answer index call (.ok (job, false)))
  | moved {action : Action} {index : Nat} {call next : StartCall}
      (found : agent.calls[index]? = some call) (silent : call.spawning = none)
      (still : next.spawning = none) :
      StartStep config agent action (agent.continueCall index next)
  | accepted {index jobId : Nat} {target source : StableVersion} {key : String}
      {manifest : ReleaseManifest} {job : Job}
      (found : agent.calls[index]? = some (.create target key manifest source))
      (fresh : agent.Inserts (.create target key manifest source) jobId)
      (isJob : job = requestedJob jobId key config.installationId source target manifest) :
      StartStep config agent (.createJob index jobId .returns)
        (agent.inserting index [.spawn target key manifest job] job agent.answers)
  | lost {index jobId : Nat} {exception : Raised} {target source : StableVersion} {key : String}
      {manifest : ReleaseManifest} {job : Job}
      (found : agent.calls[index]? = some (.create target key manifest source))
      (fresh : agent.Inserts (.create target key manifest source) jobId)
      (isJob : job = requestedJob jobId key config.installationId source target manifest) :
      StartStep config agent (.createJob index jobId (.commitsAndRaises exception))
        (agent.inserting index [] job
          (agent.answers ++ [{ target := target, key := key, result := .error exception }]))
  | spawned {index : Nat} {target : StableVersion} {key : String} {manifest : ReleaseManifest}
      {job : Job} (found : agent.calls[index]? = some (.spawn target key manifest job)) :
      StartStep config agent (.spawn index .returns)
        ((agent.startWorker job.id manifest).answer index (.spawn target key manifest job)
          (.ok (job, true)))
  | unspawned {index : Nat} {outcome : Outcome} {exception : Raised} {target : StableVersion}
      {key : String} {manifest : ReleaseManifest} {job : Job}
      (found : agent.calls[index]? = some (.spawn target key manifest job))
      (raised : outcome.raised = some exception) :
      StartStep config agent (.spawn index outcome)
        (agent.answer index (.spawn target key manifest job) (.error exception))

/-! ### The steps of a call -/

section Calls

variable {index jobId : Nat} {outcome : Outcome} {target source : StableVersion} {key : String}
  {manifest : ReleaseManifest}

theorem request_startStep :
    StartStep config agent (.request target key) (agent.request target key) := by
  unfold Agent.request
  split_ifs
  · exact .requested
  · exact .invalid
  · exact .idle

theorem lookup_startStep (found : agent.calls[index]? = some (.lookup target key)) :
    StartStep config agent action (agent.lookup index (.lookup target key) outcome) := by
  unfold Agent.lookup
  cases outcome with
  | raises exception => exact .refused found rfl
  | commitsAndRaises exception => exact .refused found rfl
  | returns =>
      cases existing : agent.store.getByIdempotencyKey (StartCall.lookup target key).key with
      | none =>
          exact .moved found rfl rfl
      | some job =>
          simp only
          split_ifs with otherTarget
          · exact .refused found rfl
          · have sameKey := List.find?_some existing
            exact .returned found rfl (List.mem_of_find?_eq_some existing) (by simpa using sameKey)
              (not_not.mp otherTarget)

theorem verify_startStep {material : Except Raised ReleaseManifest}
    (found : agent.calls[index]? = some (.verify target key)) :
    StartStep config agent action (agent.verify config index (.verify target key) material) := by
  unfold Agent.verify
  cases material with
  | error exception => exact .refused found rfl
  | ok manifest =>
      cases checked : manifest.checkTarget config.repository target
          (agent.currentVersion config) with
      | error exception =>
          simp only [StartCall.target, checked]
          exact .refused found rfl
      | ok value =>
          simp only [StartCall.target, checked]
          exact .moved found rfl rfl

theorem preflight_startStep (found : agent.calls[index]? = some (.preflight target key manifest)) :
    StartStep config agent action
      (agent.preflight index (.preflight target key manifest) manifest outcome) := by
  unfold Agent.preflight
  cases outcome with
  | returns => exact .moved found rfl rfl
  | raises exception => exact .refused found rfl
  | commitsAndRaises exception => exact .refused found rfl

theorem readSource_startStep
    (found : agent.calls[index]? = some (.readSource target key manifest)) :
    StartStep config agent action
      (agent.readSource config index (.readSource target key manifest) manifest outcome) := by
  unfold Agent.readSource
  cases outcome with
  | returns => exact .moved found rfl rfl
  | raises exception => exact .refused found rfl
  | commitsAndRaises exception => exact .refused found rfl

theorem createJob_startStep
    (found : agent.calls[index]? = some (.create target key manifest source)) :
    StartStep config agent (.createJob index jobId outcome)
      (agent.createJob config index (.create target key manifest source) manifest source jobId
        outcome) := by
  unfold Agent.createJob
  simp only [StartCall.key, StartCall.target]
  cases made : agent.store.createJob
      (requestedJob jobId key config.installationId source target manifest) with
  | error exception => cases outcome <;> exact .refused found rfl
  | ok value =>
      obtain ⟨store, created, isNew⟩ := value
      rcases Store.createJob_ok made with
        ⟨stored, sameKey, sameTarget, rfl, rfl⟩ | ⟨fresh, rfl, rfl, rfl⟩
      · cases outcome with
        | returns => exact .returned found rfl stored sameKey sameTarget
        | raises exception => exact .refused found rfl
        | commitsAndRaises exception => exact .refused found rfl
      · cases outcome with
        | returns => exact .accepted found fresh rfl
        | raises exception => exact .refused found rfl
        | commitsAndRaises exception => exact .lost found fresh rfl

theorem spawn_startStep {job : Job}
    (found : agent.calls[index]? = some (.spawn target key manifest job)) :
    StartStep config agent (.spawn index outcome)
      (agent.spawn index (.spawn target key manifest job) manifest job outcome) := by
  unfold Agent.spawn
  cases outcome with
  | returns => exact .spawned found
  | raises exception => exact .unspawned found rfl
  | commitsAndRaises exception => exact .unspawned found rfl

end Calls

/-! ### Workers and restarts -/

theorem Commits.identities {worker : Worker} {effect : Effect} {store : Store}
    {written : List StableVersion} (commits : Commits agent worker effect store written) :
    store.jobs.map Job.identity = agent.store.jobs.map Job.identity := by
  cases commits with
  | nothing => rfl
  | version => rfl
  | state updated =>
      rw [(Store.update_eq_some updated).1, map_updateWhere]
      exact fun _ => rfl

theorem Performs.startStep {index : Nat} {outcome : Outcome} {worker : Worker}
    (performs : Performs agent index worker after) (found : agent.workers[index]? = some worker) :
    StartStep config agent (.work index outcome) after := by
  obtain ⟨front, back, pool, replaced⟩ := exists_replaceAt found
  cases performs with
  | @mk effect entries next store written steps commits =>
      refine .background rfl rfl rfl commits.identities ?_
      have workers : (agent.afterWork index worker entries next store written).workers =
          front ++ next ++ back := replaced next
      rw [workers, pool]
      simp only [List.map_append, List.map_cons, List.append_assoc]
      apply List.Sublist.append (List.Sublist.refl _)
      rcases steps.next_cases with rfl | ⟨moved, rfl, sameId, -⟩
      · exact List.sublist_cons_self _ _
      · simp [sameId]

theorem work_startStep {index : Nat} {outcome : Outcome} {worker : Worker}
    (coherent : Coherent agent) (found : agent.workers[index]? = some worker) :
    StartStep config agent (.work index outcome) (agent.work index worker outcome) := by
  obtain ⟨job, stored, sameJob, -, tracks⟩ :=
    coherent.workers worker (List.mem_of_getElem? found)
  exact (work_performs stored sameJob tracks).startStep found

theorem restart_startStep {outcome : Outcome} :
    StartStep config agent (.restart outcome) (agent.restart outcome) := by
  have identities : agent.store.recoverInterrupted.jobs.map Job.identity =
      agent.store.jobs.map Job.identity := by
    unfold Store.recoverInterrupted
    rw [map_updateWhere]
    exact fun _ => rfl
  unfold Agent.restart
  split_ifs
  · exact .idle
  · cases outcome with
    | raises exception => exact .idle
    | returns => exact .background rfl rfl rfl identities (List.Sublist.refl _)
    | commitsAndRaises exception => exact .background rfl rfl rfl identities (List.Sublist.refl _)

theorem startStep (config : Config) (coherent : Coherent agent) (action : Action) :
    StartStep config agent action (agent.step config action) := by
  cases action with
  | request target key => exact request_startStep
  | crash => exact .crashed
  | restart outcome => exact restart_startStep
  | work index outcome =>
      simp only [Agent.step]
      cases found : agent.workers[index]? with
      | none => exact .idle
      | some worker => exact work_startStep coherent found
  | lookup index outcome =>
      simp only [Agent.step]
      split
      · exact lookup_startStep ‹_›
      · exact .idle
  | verify index material =>
      simp only [Agent.step]
      split
      · exact verify_startStep ‹_›
      · exact .idle
  | preflight index outcome =>
      simp only [Agent.step]
      split
      · exact preflight_startStep ‹_›
      · exact .idle
  | readSource index outcome =>
      simp only [Agent.step]
      split
      · exact readSource_startStep ‹_›
      · exact .idle
  | createJob index jobId outcome =>
      simp only [Agent.step]
      split
      · exact createJob_startStep ‹_›
      · exact .idle
  | spawn index outcome =>
      simp only [Agent.step]
      split
      · exact spawn_startStep ‹_›
      · exact .idle

end BubllioCrm.UpdateAgent
