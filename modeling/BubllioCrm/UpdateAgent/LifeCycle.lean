import BubllioCrm.UpdateAgent.Steps

/-!
Owns the life cycle of update jobs under failures and crashes: what each state
says about the adapter calls behind it, which states can be left, and where a
recorded version comes from.
-/

namespace BubllioCrm.UpdateAgent

open BubllioCrm.Foundations

variable {config : Config} {agent : Agent} {history : List Entry} {state : JobState}

/-! ### What a state says about the past -/

/-- The adapter calls that returned, in their order. -/
def returns (history : List Entry) : List AdapterCall :=
  history.filterMap fun entry =>
    match entry with
    | .returned call => some call
    | _ => none

/-- The deployment is invoked only after the preflight and the backup have
returned. -/
def DeployGuarded (history : List Entry) : Prop :=
  ∀ before after, history = before ++ .invoked .deploy :: after →
    .returned .preflight ∈ before ∧ .returned .backup ∈ before

/-- After a failure behind the invoked deployment, and before a recorded
success, the job is active or needs manual intervention. -/
def FailureGuarded (history : List Entry) (state : JobState) : Prop :=
  ∀ before middle failure after,
    history = before ++ .invoked .deploy :: (middle ++ failure :: after) →
    failure = .raised ∨ failure = .interrupted → .recorded .succeeded ∉ middle →
    state.isActive = true ∨ state = .manualIntervention

structure LifeCycle (history : List Entry) (state : JobState) : Prop where
  failed : state = .failed → .invoked .deploy ∉ history
  deploy : DeployGuarded history
  succeeded : state = .succeeded → returns history = [.preflight, .backup, .deploy, .verify]
  failure : FailureGuarded history state

/-- Every job has the life cycle. -/
def LifeCycleSafe (agent : Agent) : Prop :=
  ∀ job ∈ agent.store.jobs, LifeCycle (agent.history job.id) job.state

private theorem split_front {Item : Type*} {front back before after : List Item} {item : Item}
    (same : front ++ back = before ++ item :: after) (absent : item ∉ front) :
    ∃ more, before = front ++ more := by
  rcases List.append_eq_append_iff.mp same with ⟨more, isBefore, -⟩ | ⟨more, isFront, rest⟩
  · exact ⟨more, isBefore⟩
  · cases more with
    | nil => exact ⟨[], by simpa using isFront.symm⟩
    | cons first others =>
        simp only [List.cons_append, List.cons.injEq] at rest
        rw [isFront, ← rest.1] at absent
        simp at absent

private theorem split_back {Item : Type*} {front back before after : List Item} {item : Item}
    (same : front ++ back = before ++ item :: after) (absent : item ∉ back) :
    ∃ rest, front = before ++ item :: rest ∧ after = rest ++ back := by
  rcases List.append_eq_append_iff.mp same with ⟨more, -, rest⟩ | ⟨more, isFront, rest⟩
  · rw [rest] at absent
    simp at absent
  · cases more with
    | nil =>
        rw [List.nil_append] at rest
        rw [← rest] at absent
        simp at absent
    | cons first others =>
        simp only [List.cons_append, List.cons.injEq] at rest
        obtain ⟨rfl, rfl⟩ := rest
        exact ⟨others, isFront, rfl⟩

/-! ### Facts about the lines -/

private theorem no_deploy_early : ∀ number ≤ 5, ∀ awaiting : Bool,
    .invoked .deploy ∉ reached number awaiting := by
  decide

private theorem guarded_late : ∀ number ≤ 11, 5 < number → ∀ awaiting : Bool,
    done 6 <+: reached number awaiting := by
  decide

private theorem stateAt_ne_failed : ∀ number ≤ 11, stateAt number ≠ .failed := by
  decide

private theorem line_of_succeeded : ∀ number ≤ 11, stateAt number = .succeeded → number = 11 := by
  decide

private theorem afterBody_ne {tail : List Entry} (quiet : ∀ entry ∈ tail, entry.IsAfterBody)
    (call : AdapterCall) : .invoked call ∉ tail ∧ .returned call ∉ tail := by
  constructor
  · intro member
    simpa [Entry.IsAfterBody] using quiet _ member
  · intro member
    simpa [Entry.IsAfterBody] using quiet _ member

private theorem returns_afterBody {tail : List Entry}
    (quiet : ∀ entry ∈ tail, entry.IsAfterBody) : returns tail = [] := by
  apply List.filterMap_eq_nil_iff.mpr
  intro entry member
  cases entry with
  | returned call => exact absurd member (afterBody_ne quiet call).2
  | _ => rfl

/-! ### From the life of a job to its life cycle -/

private theorem Lived.failed (lived : Lived history state) (isFailed : state = .failed) :
    .invoked .deploy ∉ history := by
  obtain ⟨number, inside, awaiting, tail, rfl, quiet, states⟩ := lived
  have early : number ≤ 5 := by
    rcases states with same | ⟨-, early⟩ | manual
    · exact absurd (same.symm.trans isFailed) (stateAt_ne_failed number inside)
    · exact early
    · simp [manual] at isFailed
  rw [List.mem_append, not_or]
  exact ⟨no_deploy_early number early awaiting, (afterBody_ne quiet .deploy).1⟩

private theorem Lived.deployGuarded (lived : Lived history state) : DeployGuarded history := by
  obtain ⟨number, inside, awaiting, tail, rfl, quiet, -⟩ := lived
  intro before after split
  have late : 5 < number := by
    by_contra early
    have absent : .invoked .deploy ∉ reached number awaiting ++ tail := by
      rw [List.mem_append, not_or]
      exact ⟨no_deploy_early number (not_lt.mp early) awaiting, (afterBody_ne quiet .deploy).1⟩
    exact absent (split ▸ by simp)
  obtain ⟨rest, reachedEq⟩ := guarded_late number inside late awaiting
  rw [← reachedEq, List.append_assoc] at split
  obtain ⟨more, rfl⟩ := split_front split (by decide)
  exact ⟨List.mem_append_left _ (by decide), List.mem_append_left _ (by decide)⟩

private theorem Lived.succeeded (lived : Lived history state) (isSucceeded : state = .succeeded) :
    returns history = [.preflight, .backup, .deploy, .verify] := by
  obtain ⟨number, inside, awaiting, tail, rfl, quiet, states⟩ := lived
  have last : number = 11 := by
    rcases states with same | ⟨failed, -⟩ | manual
    · exact line_of_succeeded number inside (same.symm.trans isSucceeded)
    · simp [failed] at isSucceeded
    · simp [manual] at isSucceeded
  subst last
  have body : returns (reached 11 awaiting) = [.preflight, .backup, .deploy, .verify] := by
    cases awaiting <;> decide
  have whole : returns (reached 11 awaiting ++ tail) =
      returns (reached 11 awaiting) ++ returns tail :=
    List.filterMap_append
  rw [whole, body, returns_afterBody quiet, List.append_nil]

private theorem Lived.failureGuarded (lived : Lived history state) :
    FailureGuarded history state := by
  have notFailed := lived.failed
  obtain ⟨number, inside, awaiting, tail, rfl, quiet, states⟩ := lived
  intro before middle failure after split isFailure notRecorded
  rcases states with same | ⟨failed, -⟩ | manual
  · rcases inside.lt_or_eq with early | rfl
    · exact Or.inl (same ▸ stateAt_active number early)
    -- Behind the last line the success was recorded before anything failed.
    · have body : reached 11 awaiting = done 11 := by
        cases awaiting <;> decide
      rw [body] at split
      obtain ⟨rest, doneEq, behind⟩ := split_back split (afterBody_ne quiet .deploy).1
      have noFailure : failure ∉ rest := by
        intro member
        have inBody : failure ∈ done 11 := by
          rw [doneEq]
          exact List.mem_append_right _ (List.mem_cons_of_mem _ member)
        rcases isFailure with rfl | rfl
        · exact absurd inBody (by decide)
        · exact absurd inBody (by decide)
      obtain ⟨more, rfl⟩ := split_front behind.symm noFailure
      have recordedLast : (done 11).getLast? = some (.recorded .succeeded) := by decide
      rw [doneEq, List.getLast?_append] at recordedLast
      cases rest with
      | nil => simp at recordedLast
      | cons first others =>
          have member : .recorded .succeeded ∈ first :: others := by
            refine List.mem_of_getLast? ?_
            simpa using recordedLast
          exact absurd (List.mem_append_left _ member) notRecorded
  · exact absurd (split ▸ by simp) (notFailed failed)
  · exact Or.inr manual

theorem Lived.lifeCycle (lived : Lived history state) : LifeCycle history state :=
  ⟨lived.failed, lived.deployGuarded, lived.succeeded, lived.failureGuarded⟩

/-! ### What an action makes of a job -/

/-- Only the handler leaves a terminal state: behind a call that has recorded
the success and then raised. -/
private theorem WorkerStep.terminal {worker : Worker} {effect : Effect} {entries : List Entry}
    {next : List Worker} (steps : WorkerStep worker effect entries next)
    (tracks : worker.Tracks history state) (terminal : state.isActive = false) :
    effect.stateAfter state = state ∨
      state = .succeeded ∧ effect.stateAfter state = .manualIntervention ∧
        ∃ earlier, history = earlier ++ [.recorded .succeeded, .raised] := by
  have body : ∀ number, worker.control ≠ .line number := by
    intro number control
    unfold Worker.Tracks at tracks
    simp only [control] at tracks
    obtain ⟨inside, -, rfl, -⟩ := tracks
    simp [stateAt_active number inside] at terminal
  cases steps with
  | updated control => exact absurd control (body _)
  | updatedThenRaised control => exact absurd control (body _)
  | handled control written =>
      unfold Worker.Tracks at tracks
      simp only [control] at tracks
      obtain ⟨number, inside, awaiting, rfl, rfl, flag⟩ := tracks
      have last : number = 11 := by
        rcases inside.lt_or_eq with early | last
        · simp [stateAt_active number early] at terminal
        · exact last
      subst last
      refine Or.inr ⟨stateAt_end, ?_, done 10, ?_⟩
      · simp only [Effect.stateAfter, failureUpdate_state written, flag]
        rfl
      · cases awaiting <;> decide
  | _ => exact Or.inl rfl

/-- A stored row after an action: the same row, a row its worker has written,
or an active one that the recovery has moved. -/
private theorem AgentStep.row {action : Action} {next : Agent} {job after : Job}
    (steps : AgentStep config agent action next) (coherent : Coherent agent)
    (stored : job ∈ agent.store.jobs) (member : after ∈ next.store.jobs)
    (sameId : after.id = job.id) :
    after = job ∨
      (∃ worker effect entries workers, WorkerStep worker effect entries workers ∧
        worker.Tracks (agent.history job.id) job.state ∧
        after.state = effect.stateAfter job.state) ∨
      job.state.isActive = true ∧ after.state = .manualIntervention := by
  have unchanged : after ∈ agent.store.jobs → after = job :=
    fun old => coherent.job_eq old stored sameId
  cases steps with
  | idle => exact Or.inl (unchanged member)
  | requested =>
      unfold Agent.request at member
      split_ifs at member <;> exact Or.inl (unchanged member)
  | answered => exact Or.inl (unchanged member)
  | continued => exact Or.inl (unchanged member)
  | spawned => exact Or.inl (unchanged member)
  | crashed => exact Or.inl (unchanged member)
  | created found _ fresh isJob =>
      subst isJob
      rcases List.mem_append.mp member with old | new
      · exact Or.inl (unchanged old)
      · rw [List.mem_singleton.mp new] at sameId
        exact absurd sameId.symm (fresh job stored).2.2
  | @worked index outcome worker effect entries workers store written found steps commits =>
      obtain ⟨before, was, beforeId, -, -, -, untouched, changed⟩ := commits.row member
      obtain rfl := coherent.job_eq was stored (beforeId.symm.trans sameId)
      by_cases hit : before.id = worker.jobId
      · obtain ⟨own, -, -, -, tracks, ownOf⟩ := coherent.own_job (List.mem_of_getElem? found)
        obtain rfl := ownOf before was hit
        rw [← hit] at tracks
        exact Or.inr (Or.inl ⟨worker, effect, entries, workers, steps, tracks, changed hit⟩)
      · exact Or.inl (untouched hit)
  | recovered stopped serving =>
      obtain ⟨before, was, ⟨active, rfl⟩ | ⟨-, rfl⟩⟩ := mem_updateWhere.mp member
      · obtain rfl := coherent.job_eq was stored sameId
        exact Or.inr (Or.inr ⟨active, rfl⟩)
      · exact Or.inl (unchanged was)

/-- The recorded version changes to the target of a job whose verification has
returned. -/
private theorem AgentStep.version {action : Action} {next : Agent}
    (steps : AgentStep config agent action next) (coherent : Coherent agent) :
    next.store.metadata = agent.store.metadata ∨ ∃ job ∈ agent.store.jobs,
      next.store.metadata = some job.targetVersion ∧
        .returned .verify ∈ agent.history job.id := by
  have verified : .returned .verify ∈ reached 9 false := by decide
  cases steps with
  | requested =>
      left
      unfold Agent.request
      split_ifs <;> rfl
  | @worked index outcome worker effect entries workers store written found steps commits =>
      have own : ∀ number, worker.control = .line number →
          runJob[number]? = some .setCurrentVersion → ∃ job ∈ agent.store.jobs,
            some worker.manifest.version = some job.targetVersion ∧
              .returned .verify ∈ agent.history job.id := by
        intro number control isWrite
        obtain ⟨job, stored, -, sameManifest, tracks⟩ :=
          coherent.workers worker (List.mem_of_getElem? found)
        unfold Worker.Tracks at tracks
        simp only [control] at tracks
        obtain ⟨-, historyEq, -⟩ := tracks
        obtain rfl := versioned_line isWrite
        refine ⟨job, stored, ?_, historyEq ▸ verified⟩
        rw [← sameManifest, coherent.targets job stored]
      cases commits with
      | nothing => exact Or.inl rfl
      | state updated => exact Or.inl (Store.update_eq_some updated).2
      | version =>
          cases steps with
          | versioned control isWrite => exact Or.inr (own _ control isWrite)
          | versionedThenRaised control isWrite => exact Or.inr (own _ control isWrite)
  | _ => exact Or.inl rfl

/-! ### Runs -/

/-- What one action does to the jobs and the recorded version: a terminal
state stays, except that a success becomes manual intervention when the call
that recorded it has raised; a restart leaves no job active; and the version
changes only to the target of a verified job. -/
structure LifeCycleStep (config : Config) (agent : Agent) (action : Action) : Prop where
  terminal : ∀ job ∈ agent.store.jobs, job.state.isActive = false →
    ∀ after ∈ (agent.step config action).store.jobs, after.id = job.id →
      after.state = job.state ∨ job.state = .succeeded ∧ after.state = .manualIntervention ∧
        ∃ earlier, agent.history job.id = earlier ++ [.recorded .succeeded, .raised]
  recovery : agent.serving = false → action = .restart .returns →
    ∀ job ∈ agent.store.jobs, ∀ after ∈ (agent.step config action).store.jobs,
      after.id = job.id →
        after.state = if job.state.isActive then .manualIntervention else job.state
  version : (agent.step config action).store.metadata = agent.store.metadata ∨
    ∃ job ∈ agent.store.jobs,
      (agent.step config action).store.metadata = some job.targetVersion ∧
        .returned .verify ∈ agent.history job.id

theorem Coherent.lifeCycleStep (coherent : Coherent agent) (action : Action) :
    LifeCycleStep config agent action where
  terminal := by
    intro job stored terminal after member sameId
    rcases (agentStep config coherent action).row coherent stored member sameId with
      rfl | ⟨worker, effect, entries, workers, steps, tracks, changed⟩ | ⟨active, -⟩
    · exact Or.inl rfl
    · rw [changed]
      exact steps.terminal tracks terminal
    · simp [terminal] at active
  recovery := by
    rintro stopped rfl job stored after member sameId
    have recovered : (agent.step config (.restart .returns)).store =
        agent.store.recoverInterrupted := by
      simp [Agent.step, Agent.restart, stopped]
    rw [recovered] at member
    obtain ⟨before, was, ⟨active, rfl⟩ | ⟨inactive, rfl⟩⟩ := mem_updateWhere.mp member
    · obtain rfl := coherent.job_eq was stored sameId
      rw [if_pos active]
      rfl
    · obtain rfl := coherent.job_eq was stored sameId
      rw [if_neg inactive]
  version := (agentStep config coherent action).version coherent

/-- In every run of the agent, with any failures of the adapter and the store
and any crashes, every job has the life cycle in every state, and every action
keeps it. -/
theorem job_life_cycle (config : Config) (actions : List Action) :
    Always (Agent.step config) LifeCycleSafe {} actions ∧
      EveryStep (Agent.step config) (LifeCycleStep config) {} actions :=
  ⟨Always.imp (fun _ coherent job stored => (coherent.lived job stored).lifeCycle)
      (always_invariant Coherent (fun _ action coherent => step_coherent config coherent action)
        Coherent.initial actions),
    everyStep_invariant Coherent (fun _ action coherent => step_coherent config coherent action)
      (fun _ action coherent => coherent.lifeCycleStep action) Coherent.initial actions⟩

/-! ### A success that is left -/

/-- Every job in a terminal state keeps it. -/
def KeepsTerminal (config : Config) (agent : Agent) (action : Action) : Prop :=
  ∀ job ∈ agent.store.jobs, job.state.isActive = false →
    ∀ after ∈ (agent.step config action).store.jobs, after.id = job.id → after.state = job.state

instance (config : Config) (agent : Agent) (action : Action) :
    Decidable (KeepsTerminal config agent action) := by
  unfold KeepsTerminal
  infer_instance

/-- The call that records the success commits and then raises. -/
def lateFailure : List Action :=
  .restart .returns :: eligibleRequest "request-00000001" 0 ++ startFirst 1 ++ workOn 14 ++
    [.work 0 (.commitsAndRaises .otherException), .work 0 .returns]

/-- The handler takes the recorded success to manual intervention. -/
theorem late_failure_leaves_success :
    ¬ EveryStep (Agent.step installed) (KeepsTerminal installed) {} lateFailure := by
  decide +kernel

end BubllioCrm.UpdateAgent
