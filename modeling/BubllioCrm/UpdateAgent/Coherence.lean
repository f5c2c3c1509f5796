import BubllioCrm.UpdateAgent.Effects

/-!
Owns the invariant that ties the parts of the agent together: one active job
at most, one owner at most for each job, every worker where the history of its
job says, and every job within the life that `Lived` describes.

It is kept by every action, in any order of the threads and through any number
of crashes.
-/

namespace BubllioCrm.UpdateAgent

open BubllioCrm.Foundations

variable {agent : Agent} {worker : Worker} {index : Nat}

/-! ### The invariant -/

/-- The job that a call is about to start a worker for. -/
def StartCall.spawning : StartCall → Option Nat
  | .lookup _ _ => none
  | .verify _ _ => none
  | .preflight _ _ _ => none
  | .readSource _ _ _ => none
  | .create _ _ _ _ => none
  | .spawn _ _ _ job => some job.id

/-- The jobs that have a worker or will get one. -/
def Agent.owners (agent : Agent) : List Nat :=
  agent.calls.filterMap StartCall.spawning ++ agent.workers.map Worker.jobId

/-- What the local variables of a call say about the agent. -/
def StartCall.Sound (agent : Agent) : StartCall → Prop
  | .lookup _ _ => True
  | .verify _ _ => True
  | .preflight target _ manifest => manifest.version = target
  | .readSource target _ manifest => manifest.version = target
  | .create target _ manifest _ => manifest.version = target
  | .spawn _ _ manifest job => job ∈ agent.store.jobs ∧ job.manifest = manifest ∧
      job.state = .requested ∧ agent.history job.id = []

/-- A worker works on a stored job and tracks it. -/
def Worker.Sound (agent : Agent) (worker : Worker) : Prop :=
  ∃ job ∈ agent.store.jobs, job.id = worker.jobId ∧ job.manifest = worker.manifest ∧
    worker.Tracks (agent.history job.id) job.state

structure Coherent (agent : Agent) : Prop where
  ids : (agent.store.jobs.map Job.id).Nodup
  owners : agent.owners.Nodup
  single : ∀ first ∈ agent.store.jobs, ∀ second ∈ agent.store.jobs,
    first.state.isActive = true → second.state.isActive = true → first = second
  lived : ∀ job ∈ agent.store.jobs, Lived (agent.history job.id) job.state
  targets : ∀ job ∈ agent.store.jobs, job.manifest.version = job.targetVersion
  calls : ∀ call ∈ agent.calls, call.Sound agent
  workers : ∀ worker ∈ agent.workers, worker.Sound agent
  stopped : agent.serving = false → agent.calls = [] ∧ agent.workers = []
  unborn : ∀ jobId, (∀ job ∈ agent.store.jobs, job.id ≠ jobId) → agent.history jobId = []

theorem Coherent.job_eq (coherent : Coherent agent) {first second : Job}
    (firstStored : first ∈ agent.store.jobs) (secondStored : second ∈ agent.store.jobs)
    (same : first.id = second.id) : first = second :=
  List.inj_on_of_nodup_map coherent.ids firstStored secondStored same

theorem Coherent.initial : Coherent {} := by
  constructor <;> simp [Agent.owners]

/-! ### Steps of a worker -/

/-- No worker brings a job back into an active state. -/
theorem WorkerStep.wasActive {effect : Effect} {entries history : List Entry} {next : List Worker}
    {state : JobState} (steps : WorkerStep worker effect entries next)
    (tracks : worker.Tracks history state)
    (active : (effect.stateAfter state).isActive = true) : state.isActive = true := by
  have body : ∀ number, worker.control = .line number → state.isActive = true := by
    intro number control
    unfold Worker.Tracks at tracks
    simp only [control] at tracks
    obtain ⟨inside, -, rfl, -⟩ := tracks
    exact stateAt_active number inside
  cases steps with
  | updated control => exact body _ control
  | updatedThenRaised control => exact body _ control
  | handled control written =>
      have state := failureUpdate_state written
      cases begun : worker.deploymentStarted <;>
        simp [Effect.stateAfter, state, begun, JobState.isActive] at active
  | _ => exact active

section Work

variable {effect : Effect} {entries : List Entry} {next front back : List Worker} {store : Store}
  {written : List StableVersion}

/-- No other worker and no call that will start one has the job of a worker. -/
theorem Coherent.owners_ne (coherent : Coherent agent)
    (pool : agent.workers = front ++ worker :: back) :
    (∀ jobId ∈ agent.calls.filterMap StartCall.spawning, jobId ≠ worker.jobId) ∧
      ∀ other ∈ front ++ back, other.jobId ≠ worker.jobId := by
  have distinct := coherent.owners
  unfold Agent.owners at distinct
  rw [pool] at distinct
  simp only [List.map_append, List.map_cons] at distinct
  obtain ⟨-, workersDistinct, apart⟩ := List.nodup_append.mp distinct
  constructor
  · intro jobId member same
    exact apart jobId member worker.jobId (by simp) same
  · intro other member same
    have perm := List.perm_middle.nodup_iff.mp workersDistinct
    apply (List.nodup_cons.mp perm).1
    rw [← same, ← List.map_append]
    exact List.mem_map_of_mem member

/-- The worker's own job, which no other row shares. -/
theorem Coherent.own_job (coherent : Coherent agent) (member : worker ∈ agent.workers) :
    ∃ job ∈ agent.store.jobs, job.id = worker.jobId ∧ job.manifest = worker.manifest ∧
      worker.Tracks (agent.history worker.jobId) job.state ∧
      ∀ other ∈ agent.store.jobs, other.id = worker.jobId → other = job := by
  obtain ⟨job, stored, sameJob, sameManifest, tracks⟩ := coherent.workers worker member
  rw [sameJob] at tracks
  exact ⟨job, stored, sameJob, sameManifest, tracks, fun other otherStored same =>
    coherent.job_eq otherStored stored (same.trans sameJob.symm)⟩

private theorem Coherent.work_owners (coherent : Coherent agent)
    (pool : agent.workers = front ++ worker :: back)
    (replaced : ∀ next, replaceAt index next agent.workers = front ++ next ++ back)
    (steps : WorkerStep worker effect entries next) :
    (agent.afterWork index worker entries next store written).owners.Nodup := by
  have workersEq : (agent.afterWork index worker entries next store written).workers =
      front ++ next ++ back := replaced next
  refine coherent.owners.sublist ?_
  unfold Agent.owners
  rw [workersEq, pool]
  apply List.Sublist.append (List.Sublist.refl _)
  simp only [List.map_append, List.map_cons]
  rcases steps.next_cases with rfl | ⟨after, rfl, sameId, -⟩
  · simp
  · simp [sameId]

/-- An active row was active before the effect. -/
private theorem Coherent.work_wasActive (coherent : Coherent agent)
    (member : worker ∈ agent.workers) (steps : WorkerStep worker effect entries next)
    (commits : Commits agent worker effect store written) {row : Job} (stored : row ∈ store.jobs)
    (active : row.state.isActive = true) :
    ∃ before ∈ agent.store.jobs, row.id = before.id ∧ before.state.isActive = true := by
  obtain ⟨job, -, -, -, tracks, jobOf⟩ := coherent.own_job member
  obtain ⟨before, was, sameId, -, -, -, untouched, changed⟩ := commits.row stored
  refine ⟨before, was, sameId, ?_⟩
  by_cases hit : before.id = worker.jobId
  · obtain rfl := jobOf before was hit
    rw [changed hit] at active
    exact steps.wasActive tracks active
  · rw [← untouched hit]
    exact active

private theorem Coherent.work_single (coherent : Coherent agent) (member : worker ∈ agent.workers)
    (steps : WorkerStep worker effect entries next)
    (commits : Commits agent worker effect store written) :
    ∀ first ∈ store.jobs, ∀ second ∈ store.jobs,
      first.state.isActive = true → second.state.isActive = true → first = second := by
  intro first firstStored second secondStored firstActive secondActive
  obtain ⟨oldFirst, firstWas, firstId, firstOld⟩ :=
    coherent.work_wasActive member steps commits firstStored firstActive
  obtain ⟨oldSecond, secondWas, secondId, secondOld⟩ :=
    coherent.work_wasActive member steps commits secondStored secondActive
  have same := coherent.single oldFirst firstWas oldSecond secondWas firstOld secondOld
  have nextIds : (store.jobs.map Job.id).Nodup := commits.ids.symm ▸ coherent.ids
  exact List.inj_on_of_nodup_map nextIds firstStored secondStored
    (firstId.trans (same ▸ secondId.symm))

private theorem Coherent.work_lived (coherent : Coherent agent) (member : worker ∈ agent.workers)
    (steps : WorkerStep worker effect entries next)
    (commits : Commits agent worker effect store written) {row : Job} (stored : row ∈ store.jobs) :
    Lived ((agent.afterWork index worker entries next store written).history row.id)
      row.state := by
  obtain ⟨job, -, -, -, tracks, jobOf⟩ := coherent.own_job member
  obtain ⟨before, was, sameId, -, -, -, untouched, changed⟩ := commits.row stored
  by_cases hit : before.id = worker.jobId
  · obtain rfl := jobOf before was hit
    rw [sameId, hit, Agent.history_afterWork, changed hit]
    exact (steps.tracks tracks).1
  · rw [untouched hit, Agent.history_afterWork_of_ne index entries next store written agent hit]
    exact coherent.lived before was

/-- A call about to start a worker is about another job. -/
private theorem Coherent.work_call (coherent : Coherent agent)
    (pool : agent.workers = front ++ worker :: back)
    (commits : Commits agent worker effect store written) {call : StartCall}
    (callMember : call ∈ agent.calls) :
    call.Sound (agent.afterWork index worker entries next store written) := by
  have sound := coherent.calls call callMember
  cases call with
  | spawn target key manifest started =>
      obtain ⟨startedStored, manifestEq, requested, silent⟩ := sound
      have other : started.id ≠ worker.jobId :=
        (coherent.owners_ne pool).1 started.id (List.mem_filterMap.mpr ⟨_, callMember, rfl⟩)
      obtain ⟨after, afterStored, -, -, untouched, -⟩ := commits.kept startedStored
      refine ⟨untouched other ▸ afterStored, manifestEq, requested, ?_⟩
      rw [Agent.history_afterWork_of_ne index entries next store written agent other]
      exact silent
  | _ => exact sound

private theorem Coherent.work_next (coherent : Coherent agent) (member : worker ∈ agent.workers)
    (steps : WorkerStep worker effect entries next)
    (commits : Commits agent worker effect store written) {successor : Worker}
    (isNext : successor ∈ next) :
    successor.Sound (agent.afterWork index worker entries next store written) := by
  obtain ⟨job, stored, sameJob, sameManifest, tracks, -⟩ := coherent.own_job member
  obtain ⟨after, afterStored, sameId, afterManifest, -, changed⟩ := commits.kept stored
  have tracked := (steps.tracks tracks).2 successor isNext
  rcases steps.next_cases with rfl | ⟨only, rfl, onlyId, onlyManifest⟩
  · simp at isNext
  · obtain rfl := List.mem_singleton.mp isNext
    refine ⟨after, afterStored, sameId.trans (sameJob.trans onlyId.symm),
      afterManifest.trans (sameManifest.trans onlyManifest.symm), ?_⟩
    rw [sameId, sameJob, Agent.history_afterWork, changed sameJob]
    exact tracked

private theorem Coherent.work_other (coherent : Coherent agent)
    (pool : agent.workers = front ++ worker :: back)
    (commits : Commits agent worker effect store written) {other : Worker}
    (isOther : other ∈ front ++ back) :
    other.Sound (agent.afterWork index worker entries next store written) := by
  have wasMember : other ∈ agent.workers := by
    rw [pool]
    simp only [List.mem_append, List.mem_cons] at isOther ⊢
    tauto
  obtain ⟨job, stored, sameJob, sameManifest, tracks⟩ := coherent.workers other wasMember
  have apart : job.id ≠ worker.jobId := sameJob ▸ (coherent.owners_ne pool).2 other isOther
  obtain ⟨after, afterStored, -, -, untouched, -⟩ := commits.kept stored
  obtain rfl := untouched apart
  refine ⟨after, afterStored, sameJob, sameManifest, ?_⟩
  rw [Agent.history_afterWork_of_ne index entries next store written agent apart]
  exact tracks

theorem Coherent.work (coherent : Coherent agent)
    (pool : agent.workers = front ++ worker :: back)
    (replaced : ∀ next, replaceAt index next agent.workers = front ++ next ++ back)
    (steps : WorkerStep worker effect entries next)
    (commits : Commits agent worker effect store written) :
    Coherent (agent.afterWork index worker entries next store written) := by
  have member : worker ∈ agent.workers := by simp [pool]
  have workersEq : (agent.afterWork index worker entries next store written).workers =
      front ++ next ++ back := replaced next
  constructor
  · exact commits.ids.symm ▸ coherent.ids
  · exact coherent.work_owners pool replaced steps
  · exact coherent.work_single member steps commits
  · exact fun row stored => coherent.work_lived member steps commits stored
  · intro row stored
    obtain ⟨before, was, -, -, sameTarget, rowManifest, -⟩ := commits.row stored
    rw [sameTarget, rowManifest]
    exact coherent.targets before was
  · exact fun call callMember => coherent.work_call pool commits callMember
  · intro other otherMember
    rw [workersEq] at otherMember
    simp only [List.mem_append] at otherMember
    rcases otherMember with (isFront | isNext) | isBack
    · exact coherent.work_other pool commits (List.mem_append_left _ isFront)
    · exact coherent.work_next member steps commits isNext
    · exact coherent.work_other pool commits (List.mem_append_right _ isBack)
  · intro stopped
    have none := (coherent.stopped stopped).2
    simp [none] at member
  · intro jobId absent
    obtain ⟨job, stored, sameJob, -⟩ := coherent.own_job member
    have wasAbsent : ∀ row ∈ agent.store.jobs, row.id ≠ jobId := by
      intro row was same
      obtain ⟨after, afterStored, sameId, -⟩ := commits.kept was
      exact absent after afterStored (sameId.trans same)
    have other : jobId ≠ worker.jobId := fun same => wasAbsent job stored (sameJob.trans same.symm)
    rw [Agent.history_afterWork_of_ne index entries next store written agent other]
    exact coherent.unborn jobId wasAbsent

end Work

/-! ### Steps of a call -/

section Calls

variable {config : Config} {call : StartCall} {front back : List StartCall} {after : Agent}

/-- A call goes on to steps that start no worker, or ends. -/
theorem Coherent.callMoves (coherent : Coherent agent) {next : List StartCall}
    (pool : agent.calls = front ++ call :: back) (calls : after.calls = front ++ next ++ back)
    (sound : ∀ moved ∈ next, moved.Sound agent ∧ moved.spawning = none)
    (store : after.store = agent.store) (workers : after.workers = agent.workers)
    (history : after.history = agent.history) (serving : after.serving = agent.serving) :
    Coherent after := by
  have soundIn : ∀ moved : StartCall, moved.Sound agent → moved.Sound after := by
    intro moved holds
    cases moved with
    | spawn target key manifest job =>
        obtain ⟨stored, rest⟩ := holds
        exact ⟨store ▸ stored, history ▸ rest⟩
    | _ => exact holds
  have silent : next.filterMap StartCall.spawning = [] :=
    List.filterMap_eq_nil_iff.mpr fun moved member => (sound moved member).2
  have sub : after.owners.Sublist agent.owners := by
    unfold Agent.owners
    rw [calls, pool, workers]
    simp only [List.filterMap_append, silent, List.append_nil]
    refine List.Sublist.append (List.Sublist.append (List.Sublist.refl _) ?_) (List.Sublist.refl _)
    exact (List.sublist_cons_self call back).filterMap _
  constructor
  · exact store ▸ coherent.ids
  · exact coherent.owners.sublist sub
  · exact store ▸ coherent.single
  · rw [store, history]
    exact coherent.lived
  · exact store ▸ coherent.targets
  · intro moved member
    rw [calls] at member
    simp only [List.mem_append] at member
    rcases member with (early | new) | late
    · exact soundIn moved (coherent.calls moved (by simp [pool, early]))
    · exact soundIn moved (sound moved new).1
    · exact soundIn moved (coherent.calls moved (by simp [pool, late]))
  · intro worker member
    rw [workers] at member
    obtain ⟨job, stored, rest⟩ := coherent.workers worker member
    exact ⟨job, store ▸ stored, history ▸ rest⟩
  · intro stopped
    have none := (coherent.stopped (serving ▸ stopped)).1
    simp [pool] at none
  · rw [store, history]
    exact coherent.unborn

/-- A call ends with an answer. -/
theorem Coherent.answered (coherent : Coherent agent) (pool : agent.calls = front ++ call :: back)
    (replaced : ∀ next, replaceAt index next agent.calls = front ++ next ++ back)
    (result : Except Raised (Job × Bool)) : Coherent (agent.answer index call result) :=
  coherent.callMoves pool (replaced []) (by simp) rfl rfl rfl rfl

/-- A call goes on to a step that starts no worker. -/
theorem Coherent.continued (coherent : Coherent agent) {moved : StartCall}
    (pool : agent.calls = front ++ call :: back)
    (replaced : ∀ next, replaceAt index next agent.calls = front ++ next ++ back)
    (sound : moved.Sound agent) (silent : moved.spawning = none) :
    Coherent (agent.continueCall index moved) :=
  coherent.callMoves pool (replaced [moved])
    (fun _ member => List.mem_singleton.mp member ▸ ⟨sound, silent⟩) rfl rfl rfl rfl

/-- Every owner is the id of a stored job. -/
theorem Coherent.owner_stored (coherent : Coherent agent) {jobId : Nat}
    (isOwner : jobId ∈ agent.owners) : ∃ row ∈ agent.store.jobs, row.id = jobId := by
  rcases List.mem_append.mp isOwner with spawning | working
  · obtain ⟨moved, movedMember, isSpawning⟩ := List.mem_filterMap.mp spawning
    have sound := coherent.calls moved movedMember
    cases moved with
    | spawn goal key manifest other => exact ⟨other, sound.1, Option.some.inj isSpawning⟩
    | _ => cases isSpawning
  · obtain ⟨worker, workerMember, rfl⟩ := List.mem_map.mp working
    obtain ⟨row, stored, sameId, -⟩ := coherent.workers worker workerMember
    exact ⟨row, stored, sameId⟩

/-- A call that owned no job may become the owner of one that had none. -/
private theorem owners_inserted {next : List StartCall} {jobId : Nat}
    (distinct : agent.owners.Nodup) (notOwner : jobId ∉ agent.owners)
    (pool : agent.calls = front ++ call :: back) (calls : after.calls = front ++ next ++ back)
    (becomes : next.filterMap StartCall.spawning = [] ∨
      next.filterMap StartCall.spawning = [jobId])
    (workers : after.workers = agent.workers) : after.owners.Nodup := by
  have sub : ((front ++ back).filterMap StartCall.spawning ++
      agent.workers.map Worker.jobId).Sublist agent.owners := by
    unfold Agent.owners
    rw [pool]
    refine List.Sublist.append ?_ (List.Sublist.refl _)
    exact (List.Sublist.append (List.Sublist.refl _) (List.sublist_cons_self _ _)).filterMap _
  unfold Agent.owners
  rw [calls, workers]
  simp only [List.filterMap_append, List.append_assoc] at sub ⊢
  rcases becomes with none | one
  · rw [none]
    exact distinct.sublist sub
  · rw [one]
    refine List.perm_middle.nodup_iff.mpr (List.nodup_cons.mpr ⟨?_, distinct.sublist sub⟩)
    exact fun member => notOwner (sub.subset member)

/-- A new job is inserted where none is active, and its call goes on to start
the worker or ends. -/
theorem Coherent.inserted (coherent : Coherent agent) {next : List StartCall} {job : Job}
    (pool : agent.calls = front ++ call :: back) (calls : after.calls = front ++ next ++ back)
    (fresh : ∀ other ∈ agent.store.jobs, other.state.isActive = false ∧ other.id ≠ job.id)
    (requested : job.state = .requested) (target : job.manifest.version = job.targetVersion)
    (becomes : next = [] ∨ ∃ goal key, next = [.spawn goal key job.manifest job])
    (store : after.store = agent.store.insertJob job) (workers : after.workers = agent.workers)
    (history : after.history = agent.history) (serving : after.serving = agent.serving) :
    Coherent after := by
  have jobs : after.store.jobs = agent.store.jobs ++ [job] := by
    rw [store]
    rfl
  have silent : agent.history job.id = [] :=
    coherent.unborn job.id fun other stored => (fresh other stored).2
  have storedCases : ∀ row ∈ after.store.jobs, row ∈ agent.store.jobs ∨ row = job := by
    intro row member
    rw [jobs] at member
    simpa using member
  have keeps : ∀ row ∈ agent.store.jobs, row ∈ after.store.jobs :=
    fun row member => jobs ▸ List.mem_append_left _ member
  have isStored : job ∈ after.store.jobs := jobs ▸ List.mem_append_right _ List.mem_cons_self
  have oldCalls : ∀ moved : StartCall, moved.Sound agent → moved.Sound after := by
    intro moved holds
    cases moved with
    | spawn goal key manifest other =>
        obtain ⟨stored, rest⟩ := holds
        exact ⟨keeps other stored, history ▸ rest⟩
    | _ => exact holds
  constructor
  · rw [jobs, List.map_append, List.nodup_append]
    refine ⟨coherent.ids, by simp, ?_⟩
    intro jobId member other otherMember same
    obtain ⟨row, stored, rfl⟩ := List.mem_map.mp member
    have isNew : other = job.id := by simpa using otherMember
    exact (fresh row stored).2 (same.trans isNew)
  · have notOwner : job.id ∉ agent.owners := by
      intro member
      obtain ⟨row, stored, sameId⟩ := coherent.owner_stored member
      exact (fresh row stored).2 sameId
    refine owners_inserted coherent.owners notOwner pool calls ?_ workers
    rcases becomes with rfl | ⟨goal, key, rfl⟩
    · exact Or.inl rfl
    · exact Or.inr rfl
  · intro first firstStored second secondStored firstActive secondActive
    rcases storedCases first firstStored with firstOld | rfl
    · simp [(fresh first firstOld).1] at firstActive
    · rcases storedCases second secondStored with secondOld | rfl
      · simp [(fresh second secondOld).1] at secondActive
      · rfl
  · intro row member
    rw [history]
    rcases storedCases row member with old | rfl
    · exact coherent.lived row old
    · rw [silent, requested]
      exact (Worker.tracks_new row.id row.manifest).lived
  · intro row member
    rcases storedCases row member with old | rfl
    · exact coherent.targets row old
    · exact target
  · intro moved member
    rw [calls] at member
    simp only [List.mem_append] at member
    rcases member with (early | new) | late
    · exact oldCalls moved (coherent.calls moved (by simp [pool, early]))
    · rcases becomes with rfl | ⟨goal, key, rfl⟩
      · simp at new
      · rw [List.mem_singleton.mp new]
        exact ⟨isStored, rfl, requested, history ▸ silent⟩
    · exact oldCalls moved (coherent.calls moved (by simp [pool, late]))
  · intro worker member
    rw [workers] at member
    obtain ⟨row, stored, rest⟩ := coherent.workers worker member
    exact ⟨row, keeps row stored, history ▸ rest⟩
  · intro stopped
    have none := (coherent.stopped (serving ▸ stopped)).1
    simp [pool] at none
  · intro jobId absent
    rw [history]
    exact coherent.unborn jobId fun row stored => absent row (keeps row stored)

/-- The worker of a new job starts and its call ends. -/
theorem Coherent.spawned (coherent : Coherent agent) {goal : StableVersion} {key : String}
    {manifest : ReleaseManifest} {job : Job}
    (pool : agent.calls = front ++ .spawn goal key manifest job :: back)
    (replaced : ∀ next, replaceAt index next agent.calls = front ++ next ++ back)
    (result : Except Raised (Job × Bool)) (answering : StartCall) :
    Coherent ((agent.startWorker job.id manifest).answer index answering result) := by
  have callMember : .spawn goal key manifest job ∈ agent.calls := by simp [pool]
  obtain ⟨stored, sameManifest, requested, silent⟩ := coherent.calls _ callMember
  have calls : ((agent.startWorker job.id manifest).answer index answering result).calls =
      front ++ back := by
    have ended := replaced []
    rw [List.append_nil] at ended
    exact ended
  constructor
  · exact coherent.ids
  · have perm : agent.owners.Perm
        ((agent.startWorker job.id manifest).answer index answering result).owners := by
      unfold Agent.owners
      rw [calls, pool]
      simp only [Agent.answer, Agent.startWorker, List.filterMap_append, List.filterMap_cons,
        StartCall.spawning, List.map_append, List.map_cons, List.map_nil, List.append_assoc,
        List.cons_append]
      apply List.perm_middle.trans
      rw [← List.append_assoc, ← List.append_assoc, ← List.append_assoc]
      exact (List.perm_append_singleton _ _).symm
    exact perm.nodup_iff.mp coherent.owners
  · exact coherent.single
  · exact coherent.lived
  · exact coherent.targets
  · intro moved member
    rw [calls] at member
    have was : moved ∈ agent.calls := by
      rw [pool]
      simp only [List.mem_append, List.mem_cons] at member ⊢
      tauto
    have sound := coherent.calls moved was
    cases moved with
    | _ => exact sound
  · intro worker member
    rcases List.mem_append.mp member with old | new
    · exact coherent.workers worker old
    · rw [List.mem_singleton.mp new]
      refine ⟨job, stored, rfl, sameManifest, ?_⟩
      have tracks := Worker.tracks_new job.id manifest
      rw [← silent, ← requested] at tracks
      exact tracks
  · intro stopped
    have none := (coherent.stopped stopped).1
    simp [pool] at none
  · exact coherent.unborn

end Calls

/-! ### Requests, crashes and restarts -/

theorem Coherent.request (coherent : Coherent agent) (target : StableVersion) (key : String) :
    Coherent (agent.request target key) := by
  unfold Agent.request
  split_ifs with serving validKey
  · refine ⟨coherent.ids, ?_, coherent.single, coherent.lived, coherent.targets, ?_,
      coherent.workers, ?_, coherent.unborn⟩
    · have same : agent.owners.Nodup := coherent.owners
      have silent : [StartCall.lookup target key].filterMap StartCall.spawning = [] := rfl
      simpa [Agent.owners, silent] using same
    · intro call member
      rcases List.mem_append.mp member with old | new
      · have sound := coherent.calls call old
        cases call with
        | _ => exact sound
      · rw [List.mem_singleton.mp new]
        trivial
    · intro stopped
      exact absurd serving (by simpa using stopped)
  · exact ⟨coherent.ids, coherent.owners, coherent.single, coherent.lived, coherent.targets,
      coherent.calls, coherent.workers, coherent.stopped, coherent.unborn⟩
  · exact coherent

theorem Coherent.crash (coherent : Coherent agent) : Coherent agent.crash := by
  constructor
  · exact coherent.ids
  · simp [Agent.owners, Agent.crash]
  · exact coherent.single
  · intro job stored
    have lived := coherent.lived job stored
    simp only [Agent.crash]
    split_ifs
    · exact lived.append (by simp [Entry.IsAfterBody])
    · exact lived
  · exact coherent.targets
  · simp [Agent.crash]
  · simp [Agent.crash]
  · simp [Agent.crash]
  · intro jobId absent
    have silent := coherent.unborn jobId absent
    simp only [Agent.crash]
    split_ifs with working
    · obtain ⟨worker, member, sameId⟩ := List.any_eq_true.mp working
      obtain ⟨job, stored, jobIs, -⟩ := coherent.workers worker member
      exact absurd (jobIs.trans (by simpa using sameId)) (absent job stored)
    · exact silent

/-- Recovery moves the active jobs to `MANUAL_INTERVENTION`, while no call and
no worker runs. -/
theorem Coherent.recovered (coherent : Coherent agent) (stopped : agent.serving = false)
    (serving : Bool) :
    Coherent { agent with store := agent.store.recoverInterrupted, serving := serving } := by
  obtain ⟨noCalls, noWorkers⟩ := coherent.stopped stopped
  have origin : ∀ row ∈ agent.store.recoverInterrupted.jobs, ∃ before ∈ agent.store.jobs,
      row.id = before.id ∧ row.targetVersion = before.targetVersion ∧
      row.manifest = before.manifest ∧
      (row = before ∨ row.state = .manualIntervention) ∧ row.state.isActive = false := by
    intro row member
    obtain ⟨before, was, ⟨active, rfl⟩ | ⟨inactive, rfl⟩⟩ := mem_updateWhere.mp member
    · exact ⟨before, was, rfl, rfl, rfl, Or.inr rfl, rfl⟩
    · exact ⟨row, was, rfl, rfl, rfl, Or.inl rfl, by simpa using inactive⟩
  have ids : agent.store.recoverInterrupted.jobs.map Job.id = agent.store.jobs.map Job.id := by
    unfold Store.recoverInterrupted
    rw [map_updateWhere]
    exact fun _ => rfl
  constructor
  · exact ids.symm ▸ coherent.ids
  · simp [Agent.owners, noCalls, noWorkers]
  · intro first firstStored second _ firstActive
    obtain ⟨-, -, -, -, -, -, inactive⟩ := origin first firstStored
    simp [inactive] at firstActive
  · intro row member
    obtain ⟨before, was, sameId, -, -, rfl | manual, -⟩ := origin row member
    · exact coherent.lived row was
    · obtain ⟨number, inside, awaiting, tail, historyEq, quiet, -⟩ := coherent.lived before was
      rw [sameId, manual]
      exact ⟨number, inside, awaiting, tail, historyEq, quiet, Or.inr (Or.inr rfl)⟩
  · intro row member
    obtain ⟨before, was, -, sameTarget, sameManifest, -⟩ := origin row member
    rw [sameTarget, sameManifest]
    exact coherent.targets before was
  · simp [noCalls]
  · simp [noWorkers]
  · exact fun _ => ⟨noCalls, noWorkers⟩
  · intro jobId absent
    apply coherent.unborn jobId
    intro row stored same
    have member : row.id ∈ agent.store.recoverInterrupted.jobs.map Job.id :=
      ids ▸ List.mem_map_of_mem stored
    obtain ⟨after, afterStored, sameId⟩ := List.mem_map.mp member
    exact absent after afterStored (sameId.trans same)

end BubllioCrm.UpdateAgent
