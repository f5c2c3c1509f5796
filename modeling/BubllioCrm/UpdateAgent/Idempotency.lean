import BubllioCrm.UpdateAgent.Starts

/-!
Owns what the callers of `start` can rely on in every interleaving with
workers, crashes and restarts: one active job, one job for each key, one
report of its creation and one worker, and no trace of a rejected call.
-/

namespace BubllioCrm.UpdateAgent

open BubllioCrm.Foundations

variable {config : Config} {agent after : Agent} {action : Action}

/-! ### Reports of a new job -/

def Answer.created (answer : Answer) : Option Nat :=
  match answer.result with
  | .ok (job, true) => some job.id
  | _ => none

/-- The jobs that a call has reported as created. -/
def Agent.created (agent : Agent) : List Nat :=
  agent.answers.filterMap Answer.created

/-- The jobs whose call has inserted them and not yet started the worker. -/
def Agent.spawning (agent : Agent) : List Nat :=
  agent.calls.filterMap StartCall.spawning

/-- The rows with an id. -/
def Agent.rows (jobId : Nat) (agent : Agent) : Nat :=
  (agent.store.jobs.map Job.id).count jobId

/-- A call that waits for its worker has a job with its key and target. -/
def StartCall.Keyed : StartCall → Prop
  | .spawn target key _ job => job.idempotencyKey = key ∧ job.targetVersion = target
  | _ => True

/-- An answer with a job has a stored one with the key and target of the call. -/
def Answer.Names (answer : Answer) (jobs : List Job) : Prop :=
  ∀ job isNew, answer.result = .ok (job, isNew) →
    job.identity ∈ jobs.map Job.identity ∧ job.idempotencyKey = answer.key ∧
      job.targetVersion = answer.target

/-- The callers and the tables agree. -/
structure Registered (agent : Agent) : Prop where
  coherent : Coherent agent
  keys : (agent.store.jobs.map Job.idempotencyKey).Nodup
  calls : ∀ call ∈ agent.calls, call.Keyed
  answers : ∀ answer ∈ agent.answers, answer.Names agent.store.jobs
  accounted : ∀ jobId,
    agent.created.count jobId + agent.spawning.count jobId ≤ agent.rows jobId

/-- No step loses a job between its insertion and its worker. -/
def KeepsStart (agent : Agent) (action : Action) : Prop :=
  match action with
  | .crash => agent.spawning = []
  | .createJob _ _ (.commitsAndRaises _) => False
  | .spawn _ outcome => outcome = .returns
  | _ => True

/-! ### One step -/

section Counting

variable {index : Nat} {call : StartCall} {next : List StartCall}

theorem ids_of_identities (same : after.store.jobs.map Job.identity =
      agent.store.jobs.map Job.identity) :
    after.store.jobs.map Job.id = agent.store.jobs.map Job.id := by
  have projected := congrArg (List.map Prod.fst) same
  rw [List.map_map, List.map_map] at projected
  exact projected

theorem keys_of_identities (same : after.store.jobs.map Job.identity =
      agent.store.jobs.map Job.identity) :
    after.store.jobs.map Job.idempotencyKey = agent.store.jobs.map Job.idempotencyKey := by
  have projected := congrArg (List.map fun identity => identity.2.1) same
  rw [List.map_map, List.map_map] at projected
  exact projected

/-- The waiting calls after the call at a position turns into others. -/
theorem count_spawning_replaceAt (jobId : Nat) (next : List StartCall)
    (found : agent.calls[index]? = some call) :
    ((replaceAt index next agent.calls).filterMap StartCall.spawning).count jobId +
        call.spawning.toList.count jobId =
      agent.spawning.count jobId + (next.filterMap StartCall.spawning).count jobId := by
  obtain ⟨front, back, pool, replaced⟩ := exists_replaceAt found
  rw [replaced, Agent.spawning, pool]
  have split : (call :: back).filterMap StartCall.spawning =
      call.spawning.toList ++ back.filterMap StartCall.spawning := by
    cases waits : call.spawning <;> simp [waits]
  simp only [List.filterMap_append, List.count_append, split]
  omega

/-- A call that waits for no worker is answered, or goes on without one. -/
theorem count_spawning_silent (jobId : Nat) (found : agent.calls[index]? = some call)
    (silent : call.spawning = none) (still : ∀ moved ∈ next, moved.spawning = none) :
    ((replaceAt index next agent.calls).filterMap StartCall.spawning).count jobId =
      agent.spawning.count jobId := by
  have counted := count_spawning_replaceAt jobId next found
  rw [silent, List.filterMap_eq_nil_iff.mpr still] at counted
  simpa using counted

theorem created_append (answers : List Answer) (answer : Answer) :
    (answers ++ [answer]).filterMap Answer.created =
      answers.filterMap Answer.created ++ answer.created.toList := by
  cases reports : answer.created <;> simp [reports]

end Counting

theorem created_answer (call : StartCall) (result : Except Raised (Job × Bool)) :
    (agent.answer index call result).created = agent.created ++
      (Answer.created { target := call.target, key := call.key, result := result }).toList :=
  created_append _ _

/-- What a step does to the accounts of a job. -/
structure Accounts (agent after : Agent) (jobId reported ended begun inserted : Nat) : Prop where
  created : after.created.count jobId = agent.created.count jobId + reported
  spawning : after.spawning.count jobId + ended = agent.spawning.count jobId + begun
  rows : after.rows jobId = agent.rows jobId + inserted

/-- A call that waits for no worker gets an answer that reports no new job. -/
theorem Accounts.answered (jobId : Nat) (found : agent.calls[index]? = some call)
    (silent : call.spawning = none) {result : Except Raised (Job × Bool)}
    (old : Answer.created { target := call.target, key := call.key, result := result } = none) :
    Accounts agent (agent.answer index call result) jobId 0 0 0 0 := by
  constructor
  · rw [created_answer, old]
    simp
  · exact count_spawning_silent jobId found silent (by simp)
  · rfl

/-- The accounts of each step, in which nothing is reported or begun that has
not ended or been inserted. -/
theorem StartStep.accounts (steps : StartStep config agent action after) (jobId : Nat) :
    ∃ reported ended begun inserted, Accounts agent after jobId reported ended begun inserted ∧
      reported + begun ≤ ended + inserted ∧
      (KeepsStart agent action → reported + begun = ended + inserted) := by
  cases steps with
  | idle => exact ⟨0, 0, 0, 0, ⟨rfl, rfl, rfl⟩, le_refl _, fun _ => rfl⟩
  | background elsewhere answers calls identities workers =>
      have created : after.created = agent.created := by simp only [Agent.created, answers]
      have spawning : after.spawning = agent.spawning := by simp only [Agent.spawning, calls]
      have rows : after.rows jobId = agent.rows jobId := by
        simp only [Agent.rows, ids_of_identities identities]
      exact ⟨0, 0, 0, 0, ⟨by simp [created], by simp [spawning], rows⟩, le_refl _, fun _ => rfl⟩
  | crashed =>
      refine ⟨0, agent.spawning.count jobId, 0, 0, ⟨rfl, ?_, rfl⟩, Nat.zero_le _, ?_⟩
      · show 0 + _ = _
        omega
      · intro none
        have noneWaits : agent.spawning = [] := none
        simp [noneWaits]
  | requested =>
      refine ⟨0, 0, 0, 0, ⟨rfl, ?_, rfl⟩, le_refl _, fun _ => rfl⟩
      simp only [Agent.spawning, List.filterMap_append, List.count_append]
      rfl
  | invalid =>
      refine ⟨0, 0, 0, 0, ⟨?_, rfl, rfl⟩, le_refl _, fun _ => rfl⟩
      simp only [Agent.created, List.filterMap_append, List.count_append]
      rfl
  | refused found silent =>
      exact ⟨0, 0, 0, 0, .answered jobId found silent rfl, le_refl _, fun _ => rfl⟩
  | returned found silent =>
      exact ⟨0, 0, 0, 0, .answered jobId found silent rfl, le_refl _, fun _ => rfl⟩
  | moved found silent still =>
      refine ⟨0, 0, 0, 0, ⟨rfl, ?_, rfl⟩, le_refl _, fun _ => rfl⟩
      exact count_spawning_silent jobId found silent (by simpa using still)
  | @accepted index newId target source key manifest job found fresh isJob =>
      have calls := count_spawning_replaceAt jobId [.spawn target key manifest job] found
      refine ⟨0, 0, [job.id].count jobId, [job.id].count jobId, ⟨rfl, calls, ?_⟩, by omega,
        fun _ => by omega⟩
      simp only [Agent.rows, Agent.inserting, Store.insertJob, List.map_append, List.count_append,
        List.map_cons, List.map_nil]
  | @lost index newId exception target source key manifest job found fresh isJob =>
      refine ⟨0, 0, 0, [job.id].count jobId, ⟨?_, ?_, ?_⟩, by omega, fun keeps => keeps.elim⟩
      · simp only [Agent.created, Agent.inserting, created_append]
        simp [Answer.created]
      · exact count_spawning_silent jobId found rfl (by simp)
      · simp only [Agent.rows, Agent.inserting, Store.insertJob, List.map_append,
          List.count_append, List.map_cons, List.map_nil]
  | @spawned index target key manifest job found =>
      refine ⟨[job.id].count jobId, [job.id].count jobId, 0, 0, ⟨?_, ?_, rfl⟩, by omega,
        fun _ => by omega⟩
      · rw [created_answer, List.count_append]
        rfl
      · exact count_spawning_replaceAt jobId [] found
  | @unspawned index outcome exception target key manifest job found raised =>
      refine ⟨0, [job.id].count jobId, 0, 0, ⟨?_, ?_, rfl⟩, by omega, fun keeps => ?_⟩
      · rw [created_answer, List.count_append]
        rfl
      · exact count_spawning_replaceAt jobId [] found
      · have returned : outcome = .returns := keeps
        rw [returned] at raised
        cases raised

/-! ### The invariant -/

theorem Answer.Names.mono {answer : Answer} {jobs later : List Job} (names : answer.Names jobs)
    (kept : jobs.map Job.identity ⊆ later.map Job.identity) : answer.Names later := by
  intro job isNew result
  obtain ⟨stored, rest⟩ := names job isNew result
  exact ⟨kept stored, rest⟩

/-- An answer that carries no job names nothing. -/
theorem Answer.names_of_error {target : StableVersion} {key : String} {exception : Raised}
    {jobs : List Job} :
    Answer.Names { target := target, key := key, result := .error exception } jobs := by
  intro job isNew result
  cases result

/-- The key and answer parts of the invariant after a step. -/
theorem StartStep.registered (steps : StartStep config agent action after)
    (registered : Registered agent) :
    (after.store.jobs.map Job.idempotencyKey).Nodup ∧ (∀ call ∈ after.calls, call.Keyed) ∧
      ∀ answer ∈ after.answers, answer.Names after.store.jobs := by
  have addedAnswer : ∀ {answer : Answer}, answer.Names agent.store.jobs →
      ∀ other ∈ agent.answers ++ [answer], other.Names agent.store.jobs := by
    intro answer names other member
    rcases List.mem_append.mp member with old | new
    · exact registered.answers other old
    · exact List.mem_singleton.mp new ▸ names
  have replacedCall : ∀ {index : Nat} {next : List StartCall}, (∀ call ∈ next, call.Keyed) →
      ∀ call ∈ replaceAt index next agent.calls, call.Keyed := by
    intro index next keyed call member
    rcases mem_of_mem_replaceAt member with new | old
    · exact keyed call new
    · exact registered.calls call old
  have inserted : ∀ {target source : StableVersion} {key : String} {manifest : ReleaseManifest}
      {jobId : Nat} {job : Job}, agent.Inserts (.create target key manifest source) jobId →
      job = requestedJob jobId key config.installationId source target manifest →
      ((agent.store.jobs ++ [job]).map Job.idempotencyKey).Nodup := by
    intro target source key manifest jobId job fresh isJob
    rw [List.map_append, List.nodup_append]
    refine ⟨registered.keys, by simp, ?_⟩
    intro first firstMember second secondMember same
    obtain ⟨row, stored, rfl⟩ := List.mem_map.mp firstMember
    have isNew : second = key := by simpa [isJob, requestedJob] using secondMember
    exact (fresh row stored).1 (same.trans isNew)
  have kept : ∀ job : Job, agent.store.jobs.map Job.identity ⊆
      (agent.store.jobs ++ [job]).map Job.identity := by
    intro job identity member
    rw [List.map_append]
    exact List.mem_append_left _ member
  cases steps with
  | idle => exact ⟨registered.keys, registered.calls, registered.answers⟩
  | background elsewhere answers calls identities workers =>
      refine ⟨?_, ?_, ?_⟩
      · rw [keys_of_identities identities]
        exact registered.keys
      · rw [calls]
        exact registered.calls
      · rw [answers]
        intro answer member
        exact (registered.answers answer member).mono (by rw [identities]; exact fun _ => id)
  | crashed => exact ⟨registered.keys, by simp [Agent.crash], registered.answers⟩
  | requested =>
      refine ⟨registered.keys, ?_, registered.answers⟩
      intro call member
      rcases List.mem_append.mp member with old | new
      · exact registered.calls call old
      · rw [List.mem_singleton.mp new]
        trivial
  | invalid => exact ⟨registered.keys, registered.calls, addedAnswer Answer.names_of_error⟩
  | refused found silent =>
      exact ⟨registered.keys, replacedCall (by simp), addedAnswer Answer.names_of_error⟩
  | returned found silent stored sameKey sameTarget =>
      refine ⟨registered.keys, replacedCall (by simp), addedAnswer ?_⟩
      intro job isNew result
      cases result
      exact ⟨List.mem_map_of_mem stored, sameKey, sameTarget⟩
  | @moved _ _ call next found silent still =>
      refine ⟨registered.keys, replacedCall ?_, registered.answers⟩
      intro other member
      rw [List.mem_singleton.mp member]
      cases next with
      | spawn target key manifest job => cases still
      | _ => trivial
  | accepted found fresh isJob =>
      refine ⟨inserted fresh isJob, replacedCall ?_, fun answer member => ?_⟩
      · intro other member
        rw [List.mem_singleton.mp member, isJob]
        exact ⟨rfl, rfl⟩
      · exact (registered.answers answer member).mono (kept _)
  | lost found fresh isJob =>
      refine ⟨inserted fresh isJob, replacedCall (by simp), fun answer member => ?_⟩
      exact (addedAnswer Answer.names_of_error answer member).mono (kept _)
  | @spawned index target key manifest job found =>
      have member := List.mem_of_getElem? found
      refine ⟨registered.keys, replacedCall (by simp), addedAnswer ?_⟩
      intro other isNew result
      cases result
      have stored : job ∈ agent.store.jobs := (registered.coherent.calls _ member).1
      exact ⟨List.mem_map_of_mem stored, registered.calls _ member⟩
  | unspawned found raised =>
      exact ⟨registered.keys, replacedCall (by simp), addedAnswer Answer.names_of_error⟩

theorem step_registered (config : Config) (agent : Agent) (action : Action)
    (registered : Registered agent) : Registered (agent.step config action) := by
  have steps := startStep config registered.coherent action
  obtain ⟨keys, calls, answers⟩ := steps.registered registered
  refine ⟨step_coherent config registered.coherent action, keys, calls, answers, fun jobId => ?_⟩
  obtain ⟨reported, ended, begun, inserted, accounts, bounded, -⟩ := steps.accounts jobId
  have before := registered.accounted jobId
  have created := accounts.created
  have spawning := accounts.spawning
  have rows := accounts.rows
  omega

theorem Registered.initial : Registered {} :=
  ⟨Coherent.initial, List.nodup_nil, by simp, by simp, fun _ => le_refl 0⟩

/-! ### What callers see -/

/-- At most one job is active, a key names one job, the calls with one key that
return do so with its job and its target, and one of them at most reports it as
created. -/
structure Idempotent (agent : Agent) : Prop where
  single : (agent.store.jobs.filter (·.state.isActive)).length ≤ 1
  keys : (agent.store.jobs.map Job.idempotencyKey).Nodup
  returned : ∀ answer ∈ agent.answers, ∀ job isNew, answer.result = .ok (job, isNew) →
    ∃ row ∈ agent.store.jobs, row.id = job.id ∧ row.idempotencyKey = answer.key ∧
      row.targetVersion = answer.target
  agree : ∀ first ∈ agent.answers, ∀ second ∈ agent.answers, first.key = second.key →
    ∀ firstJob firstNew secondJob secondNew, first.result = .ok (firstJob, firstNew) →
      second.result = .ok (secondJob, secondNew) →
      firstJob.id = secondJob.id ∧ first.target = second.target
  created : agent.created.Nodup

/-- Every job has been reported as created once, or its call waits. -/
def ReportsOnce (agent : Agent) : Prop :=
  ∀ job ∈ agent.store.jobs, agent.created.count job.id + agent.spawning.count job.id = 1

/-- A worker is started by the step that reports its job, and by no other. -/
def StartsOneWorker (agent after : Agent) : Prop :=
  (after.created = agent.created ∧
    (after.workers.map Worker.jobId).Sublist (agent.workers.map Worker.jobId)) ∨
  ∃ jobId manifest, after.created = agent.created ++ [jobId] ∧
    after.workers = agent.workers ++ [{ jobId := jobId, manifest := manifest }]

def Raised.isRejection : Raised → Bool
  | .agentError .updateConflict _ => true
  | .agentError .requestValidation _ => true
  | _ => false

def Answer.isRejection (answer : Answer) : Bool :=
  match answer.result with
  | .error exception => exception.isRejection
  | .ok _ => false

def SameTables (agent after : Agent) : Prop :=
  after.store.jobs = agent.store.jobs ∧ after.store.events = agent.store.events

/-- A call that is rejected has changed no table: the step that rejects it
changes none and does not take it from the calls that wait, and a step that
changes one leaves its call waiting or ends it without a rejection. -/
structure RejectionKeeps (agent : Agent) (action : Action) (after : Agent) : Prop where
  rejected : ∀ answer, after.answers = agent.answers ++ [answer] → answer.isRejection = true →
    SameTables agent after ∧ after.spawning = agent.spawning
  wrote : action.ofStart = true → ¬ SameTables agent after →
    ∃ index call, agent.calls[index]? = some call ∧ call.spawning = none ∧
      ((∃ waiting, waiting.spawning.isSome = true ∧
        after.calls = replaceAt index [waiting] agent.calls) ∨
      ∃ answer, answer.isRejection = false ∧ after.calls = replaceAt index [] agent.calls ∧
        after.answers = agent.answers ++ [answer])

/-- How a call of the database or of the thread library ends, where the call has
inserted a job. -/
def Action.libraryOutcome : Action → Outcome
  | .createJob _ _ outcome => outcome
  | .spawn _ outcome => outcome
  | _ => .returns

/-- The database and the thread library raise none of the agent's rejections. -/
def RaisesForeign (action : Action) : Prop :=
  ∀ exception ∈ action.libraryOutcome.raised, exception.isRejection = false

instance (action : Action) : Decidable (RaisesForeign action) :=
  inferInstanceAs (Decidable (∀ exception ∈ action.libraryOutcome.raised, _))

theorem Coherent.one_active (coherent : Coherent agent) :
    (agent.store.jobs.filter (·.state.isActive)).length ≤ 1 := by
  have distinct : (agent.store.jobs.filter (·.state.isActive)).Nodup :=
    (coherent.ids.of_map _).filter _
  apply (length_le_one_iff distinct).mpr
  intro first firstMember second secondMember
  obtain ⟨firstStored, firstActive⟩ := List.mem_filter.mp firstMember
  obtain ⟨secondStored, secondActive⟩ := List.mem_filter.mp secondMember
  exact coherent.single first firstStored second secondStored firstActive secondActive

theorem Registered.idempotent (registered : Registered agent) : Idempotent agent := by
  have stored : ∀ answer ∈ agent.answers, ∀ job isNew, answer.result = .ok (job, isNew) →
      ∃ row ∈ agent.store.jobs, row.id = job.id ∧ row.idempotencyKey = answer.key ∧
        row.targetVersion = answer.target := by
    intro answer member job isNew result
    obtain ⟨named, sameKey, sameTarget⟩ := registered.answers answer member job isNew result
    obtain ⟨row, rowStored, same⟩ := List.mem_map.mp named
    obtain ⟨sameId, rowKey, rowTarget⟩ : row.id = job.id ∧ row.idempotencyKey = job.idempotencyKey ∧
        row.targetVersion = job.targetVersion := by
      simpa [Job.identity] using same
    exact ⟨row, rowStored, sameId, rowKey.trans sameKey, rowTarget.trans sameTarget⟩
  constructor
  · exact registered.coherent.one_active
  · exact registered.keys
  · exact stored
  · intro first firstMember second secondMember sameKey firstJob firstNew secondJob secondNew
      firstResult secondResult
    obtain ⟨row, rowStored, rowId, rowKey, rowTarget⟩ :=
      stored first firstMember firstJob firstNew firstResult
    obtain ⟨other, otherStored, otherId, otherKey, otherTarget⟩ :=
      stored second secondMember secondJob secondNew secondResult
    have same : row = other := List.inj_on_of_nodup_map registered.keys rowStored otherStored
      (rowKey.trans (sameKey.trans otherKey.symm))
    subst same
    exact ⟨rowId.symm.trans otherId, rowTarget.symm.trans otherTarget⟩
  · apply List.nodup_iff_count_le_one.mpr
    intro jobId
    have bounded := registered.accounted jobId
    have one : agent.rows jobId ≤ 1 := List.nodup_iff_count_le_one.mp registered.coherent.ids jobId
    omega

theorem StartStep.startsOneWorker (steps : StartStep config agent action after) :
    StartsOneWorker agent after := by
  have answered : ∀ {index : Nat} {call : StartCall} {result : Except Raised (Job × Bool)},
      Answer.created { target := call.target, key := call.key, result := result } = none →
      StartsOneWorker agent (agent.answer index call result) := by
    intro index call result old
    refine Or.inl ⟨?_, List.Sublist.refl _⟩
    rw [created_answer, old]
    exact List.append_nil _
  cases steps with
  | idle => exact Or.inl ⟨rfl, List.Sublist.refl _⟩
  | background elsewhere answers calls identities workers =>
      exact Or.inl ⟨by simp only [Agent.created, answers], workers⟩
  | crashed => exact Or.inl ⟨rfl, List.nil_sublist _⟩
  | requested => exact Or.inl ⟨rfl, List.Sublist.refl _⟩
  | invalid => exact Or.inl ⟨(created_append _ _).trans (List.append_nil _), List.Sublist.refl _⟩
  | refused found silent => exact answered rfl
  | returned found silent => exact answered rfl
  | moved found silent still => exact Or.inl ⟨rfl, List.Sublist.refl _⟩
  | accepted found fresh isJob => exact Or.inl ⟨rfl, List.Sublist.refl _⟩
  | lost found fresh isJob =>
      exact Or.inl ⟨(created_append _ _).trans (List.append_nil _), List.Sublist.refl _⟩
  | @spawned index target key manifest job found =>
      exact Or.inr ⟨job.id, manifest, created_append _ _, rfl⟩
  | unspawned found raised => exact answered rfl

/-- Calls that wait for no worker may end or go on without touching the ones
that wait. -/
private theorem spawning_replaceAt {index : Nat} {call : StartCall} {next : List StartCall}
    (found : agent.calls[index]? = some call) (silent : call.spawning = none)
    (still : ∀ moved ∈ next, moved.spawning = none) :
    (replaceAt index next agent.calls).filterMap StartCall.spawning = agent.spawning := by
  obtain ⟨front, back, pool, replaced⟩ := exists_replaceAt found
  have none : next.filterMap StartCall.spawning = [] := List.filterMap_eq_nil_iff.mpr still
  rw [replaced, Agent.spawning, pool]
  simp only [List.filterMap_append, List.filterMap_cons, none, silent, List.append_nil]

theorem StartStep.rejectionKeeps (steps : StartStep config agent action after)
    (foreign : RaisesForeign action) : RejectionKeeps agent action after := by
  have noAnswer : ∀ {answer : Answer}, agent.answers ≠ agent.answers ++ [answer] := by
    intro answer same
    simpa using congrArg List.length same
  have answerIs : ∀ {first second : Answer},
      agent.answers ++ [first] = agent.answers ++ [second] → first = second := by
    intro first second same
    simpa using same
  have unchanged : SameTables agent agent := ⟨rfl, rfl⟩
  cases steps with
  | idle => exact ⟨fun _ same => absurd same noAnswer, fun _ wrote => absurd unchanged wrote⟩
  | background elsewhere answers calls identities workers =>
      constructor
      · intro answer same
        rw [answers] at same
        exact absurd same noAnswer
      · intro ofStart
        rw [elsewhere] at ofStart
        cases ofStart
  | crashed => exact ⟨fun _ same => absurd same noAnswer, fun _ wrote => absurd unchanged wrote⟩
  | requested => exact ⟨fun _ same => absurd same noAnswer, fun _ wrote => absurd unchanged wrote⟩
  | invalid => exact ⟨fun _ _ _ => ⟨unchanged, rfl⟩, fun _ wrote => absurd unchanged wrote⟩
  | refused found silent =>
      exact ⟨fun _ _ _ => ⟨unchanged, spawning_replaceAt found silent (by simp)⟩,
        fun _ wrote => absurd unchanged wrote⟩
  | returned found silent =>
      exact ⟨fun _ _ _ => ⟨unchanged, spawning_replaceAt found silent (by simp)⟩,
        fun _ wrote => absurd unchanged wrote⟩
  | moved found silent still =>
      exact ⟨fun _ same => absurd same noAnswer, fun _ wrote => absurd unchanged wrote⟩
  | accepted found fresh isJob =>
      refine ⟨fun _ same => absurd same noAnswer, fun _ _ => ⟨_, _, found, rfl, Or.inl ?_⟩⟩
      exact ⟨_, rfl, rfl⟩
  | lost found fresh isJob =>
      have notRejected := foreign _ rfl
      constructor
      · intro answer same rejected
        rw [← answerIs same] at rejected
        exact absurd rejected (by simp [Answer.isRejection, notRejected])
      · intro _ _
        refine ⟨_, _, found, rfl, Or.inr ⟨_, ?_, rfl, rfl⟩⟩
        exact notRejected
  | spawned found =>
      constructor
      · intro answer same rejected
        rw [← answerIs same] at rejected
        cases rejected
      · exact fun _ wrote => absurd unchanged wrote
  | unspawned found raised =>
      have notRejected := foreign _ raised
      constructor
      · intro answer same rejected
        rw [← answerIs same] at rejected
        exact absurd rejected (by simp [Answer.isRejection, notRejected])
      · exact fun _ wrote => absurd unchanged wrote

/-! ### Whole runs -/

/-- Every row is accounted for by a report or a waiting call. -/
def Balanced (agent : Agent) : Prop :=
  ∀ jobId, agent.created.count jobId + agent.spawning.count jobId = agent.rows jobId

theorem StartStep.balanced (steps : StartStep config agent action after)
    (keeps : KeepsStart agent action) (balanced : Balanced agent) : Balanced after := by
  intro jobId
  obtain ⟨reported, ended, begun, inserted, accounts, -, exact⟩ := steps.accounts jobId
  have before := balanced jobId
  have moved := exact keeps
  have created := accounts.created
  have spawning := accounts.spawning
  have rows := accounts.rows
  omega

theorem Balanced.reportsOnce (balanced : Balanced agent) (coherent : Coherent agent) :
    ReportsOnce agent := by
  intro job stored
  rw [balanced job.id]
  exact List.count_eq_one_of_mem coherent.ids (List.mem_map_of_mem stored)

/-- In every interleaving of starts, workers, crashes and restarts: one job is
active at most, keys name one job each and the calls with a key that return do
so with that job, a rejected call has written nothing, one worker is started
for each reported creation and none without it; and where no start is lost
between the insertion and the worker, every job is reported once. -/
theorem starts_idempotent (config : Config) (actions : List Action)
    (foreign : ∀ action ∈ actions, RaisesForeign action) :
    Always (Agent.step config) Idempotent {} actions ∧
      EveryStep (Agent.step config)
        (fun agent action => StartsOneWorker agent (agent.step config action) ∧
          RejectionKeeps agent action (agent.step config action)) {} actions ∧
      (EveryStep (Agent.step config) KeepsStart {} actions →
        Always (Agent.step config) ReportsOnce {} actions) := by
  have allForeign : EveryStep (Agent.step config) (fun _ action => RaisesForeign action) {}
      actions := everyStep_of_forall foreign
  refine ⟨?_, ?_, fun keeps => ?_⟩
  · exact (always_invariant Registered (step_registered config) Registered.initial
      actions).imp fun _ registered => registered.idempotent
  · apply everyStep_guarded Registered (fun agent action registered _ =>
      step_registered config agent action registered) ?_ Registered.initial allForeign
    intro agent action registered isForeign
    have steps := startStep config registered.coherent action
    exact ⟨steps.startsOneWorker, steps.rejectionKeeps isForeign⟩
  · have both := always_guarded (fun agent => Registered agent ∧ Balanced agent)
      (fun agent action holds kept =>
        ⟨step_registered config agent action holds.1,
          (startStep config holds.1.coherent action).balanced kept holds.2⟩)
      ⟨Registered.initial, fun _ => rfl⟩ keeps
    exact both.imp fun _ holds => holds.2.reportsOnce holds.1.coherent

/-- The first caller starts an update and repeats its request, and the second
is rejected while the update is active. -/
def repeatedStart : List Action :=
  [.restart .returns] ++ eligibleRequest "key-00000001" 0 ++ startFirst 1 ++
    [.request nextRelease.version "key-00000001", .lookup 0 .returns] ++
    eligibleRequest "key-00000002" 0 ++ [.readSource 0 .returns, .createJob 0 2 .returns]

theorem starts_idempotent_repeatedStart :
    Always (Agent.step installed) Idempotent {} repeatedStart ∧
      (run (Agent.step installed) {} repeatedStart).created = [1] ∧
      (run (Agent.step installed) {} repeatedStart).answers.map Answer.isRejection =
        [false, false, true] ∧
      (run (Agent.step installed) {} repeatedStart).store.jobs.map Job.id = [1] :=
  ⟨(starts_idempotent installed repeatedStart (by decide)).1, by decide +kernel⟩

/-- The agent stops between the insertion of the job and its worker. The
repeated start then returns the job, and no call has reported it as created. -/
def lostStart : List Action :=
  [.restart .returns] ++ eligibleRequest "key-00000001" 0 ++
    [.readSource 0 .returns, .createJob 0 1 .returns, .crash, .restart .returns,
      .request nextRelease.version "key-00000001", .lookup 0 .returns]

/-- A job that a call has returned need not have been reported as created. -/
theorem starts_not_always_reported : ¬ ∀ actions,
    ∀ answer ∈ (run (Agent.step installed) {} actions).answers, ∀ job isNew,
      answer.result = .ok (job, isNew) → (run (Agent.step installed) {} actions).calls = [] →
      (run (Agent.step installed) {} actions).created.count job.id = 1 := by
  intro always
  have reported := always lostStart
  have answers : ∃ job, (run (Agent.step installed) {} lostStart).answers =
      [{ target := nextRelease.version, key := "key-00000001", result := .ok (job, false) }] :=
    ⟨_, rfl⟩
  have none : (run (Agent.step installed) {} lostStart).created = [] := by decide +kernel
  have ended : (run (Agent.step installed) {} lostStart).calls = [] := by decide +kernel
  obtain ⟨job, answers⟩ := answers
  have once := reported _ (by rw [answers]; exact List.mem_singleton.mpr rfl) job false rfl ended
  rw [none] at once
  cases once

end BubllioCrm.UpdateAgent
