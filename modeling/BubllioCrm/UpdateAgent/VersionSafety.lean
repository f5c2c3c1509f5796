import BubllioCrm.UpdateAgent.Steps
import Mathlib.Data.List.Chain

/-!
Owns the order of versions: the source version of a job against its target and
its manifest, the versions that are recorded one after another, and the
condition on the creation of jobs under which both are safe.
-/

namespace BubllioCrm.UpdateAgent

open BubllioCrm.Foundations

/-! ### Safe versions -/

/-- The job upgrades a version that its manifest supports. -/
def Job.Upgrades (job : Job) : Prop :=
  job.sourceVersion < job.targetVersion ∧ job.manifest.minimumVersion ≤ job.sourceVersion ∧
    job.sourceVersion ≤ job.manifest.maximumVersion

/-- Every job upgrades, and the configured version with all recorded ones
after it increases up to the one in the metadata. -/
def VersionSafe (config : Config) (agent : Agent) : Prop :=
  (∀ job ∈ agent.store.jobs, job.Upgrades) ∧
    (config.currentVersion :: agent.written).Pairwise (· < ·) ∧
    agent.store.metadata = agent.written.getLast?

instance (config : Config) (agent : Agent) : Decidable (VersionSafe config agent) := by
  unfold VersionSafe Job.Upgrades
  infer_instance

/-! ### The condition -/

/-- A call that is to create its job has read a source version within the
range of the manifest, and the recorded version is below the target. -/
def StartCall.StillUpgrades (current : StableVersion) : StartCall → Prop
  | .create target _ manifest source => source ≤ manifest.maximumVersion ∧ current < target
  | _ => True

/-- Every job that an action inserts is still an upgrade. -/
def InsertsUpgrade (config : Config) (agent : Agent) : Action → Prop
  | .createJob index jobId outcome => outcome.commits = true →
      ∀ call ∈ agent.calls[index]?, agent.Inserts call jobId →
        call.StillUpgrades (agent.currentVersion config)
  | _ => True

instance (current : StableVersion) (call : StartCall) : Decidable (call.StillUpgrades current) := by
  unfold StartCall.StillUpgrades
  cases call <;> infer_instance

instance (config : Config) (agent : Agent) (action : Action) :
    Decidable (InsertsUpgrade config agent action) := by
  unfold InsertsUpgrade
  cases action <;> infer_instance

/-! ### The invariant -/

/-- What the local variables of a call say about the recorded version. -/
def StartCall.Follows (current : StableVersion) : StartCall → Prop
  | .lookup _ _ => True
  | .verify _ _ => True
  | .preflight _ _ manifest => manifest.minimumVersion ≤ current
  | .readSource _ _ manifest => manifest.minimumVersion ≤ current
  | .create _ _ manifest source => manifest.minimumVersion ≤ source ∧ source ≤ current
  | .spawn _ _ manifest _ => current < manifest.version

/-- The worker has not recorded its version, and may still do so. -/
def Worker.BeforeRecord (worker : Worker) : Prop :=
  match worker.control with
  | .line number => number ≤ 9
  | .awaiting number => number ≤ 9
  | .handling _ => False

structure Ascending (config : Config) (agent : Agent) : Prop where
  safe : VersionSafe config agent
  calls : ∀ call ∈ agent.calls, call.Follows (agent.currentVersion config)
  workers : ∀ worker ∈ agent.workers, worker.BeforeRecord →
    agent.currentVersion config < worker.manifest.version

theorem Ascending.initial (config : Config) : Ascending config {} := by
  constructor
  · simp [VersionSafe]
  · simp
  · simp

variable {config : Config} {agent after : Agent} {worker : Worker} {index : Nat}

/-- An action that records no version keeps what it says about the jobs, calls
and workers it keeps. -/
theorem Ascending.unrecorded (ascending : Ascending config agent)
    (metadata : after.store.metadata = agent.store.metadata)
    (written : after.written = agent.written)
    (jobs : ∀ job ∈ after.store.jobs, job.Upgrades)
    (calls : ∀ call ∈ after.calls, call.Follows (agent.currentVersion config))
    (workers : ∀ worker ∈ after.workers, worker.BeforeRecord →
      agent.currentVersion config < worker.manifest.version) : Ascending config after := by
  have same : after.currentVersion config = agent.currentVersion config := by
    unfold Agent.currentVersion Store.currentVersion
    rw [metadata]
  obtain ⟨-, increasing, recorded⟩ := ascending.safe
  exact ⟨⟨jobs, written ▸ increasing, by rw [metadata, written, recorded]⟩, same ▸ calls,
    same ▸ workers⟩

/-- A version above the recorded one continues the increasing list. -/
theorem VersionSafe.increases {version : StableVersion} (safe : VersionSafe config agent)
    (above : agent.currentVersion config < version) :
    (config.currentVersion :: (agent.written ++ [version])).Pairwise (· < ·) := by
  obtain ⟨-, increasing, recorded⟩ := safe
  have last : (config.currentVersion :: agent.written).getLast? =
      some (agent.currentVersion config) := by
    rw [List.getLast?_cons, ← recorded]
    rfl
  rw [← List.isChain_iff_pairwise] at increasing ⊢
  rw [← List.cons_append, List.isChain_append]
  refine ⟨increasing, List.isChain_singleton version, ?_⟩
  intro before isLast next isHead
  rw [last] at isLast
  obtain rfl := Option.some.inj isLast
  obtain rfl := Option.some.inj isHead
  exact above

/-! ### Steps of a worker -/

/-- A worker that may still record its version could do so before, and does not
record it in this step. -/
theorem WorkerStep.beforeRecord {effect : Effect} {entries : List Entry} {next : List Worker}
    (steps : WorkerStep worker effect entries next) {successor : Worker}
    (member : successor ∈ next) (before : successor.BeforeRecord) :
    worker.BeforeRecord ∧ effect ≠ .version := by
  have goto : ∀ (origin : Worker) (number : Nat), successor ∈ origin.goto (number + 1) →
      number + 1 ≤ 9 := by
    intro origin number isNext
    unfold Worker.goto at isNext
    split_ifs at isNext
    · rw [List.mem_singleton.mp isNext] at before
      exact before
    · simp at isNext
  unfold Worker.BeforeRecord
  cases steps with
  | updated control =>
      have bound := goto _ _ member
      simp only [control]
      exact ⟨by omega, by simp⟩
  | invoked control =>
      rw [List.mem_singleton.mp member] at before
      simp only [control]
      exact ⟨before, by simp⟩
  | returned control =>
      have bound := goto _ _ member
      simp only [control]
      exact ⟨by omega, by simp⟩
  | started control =>
      have bound := goto _ _ member
      simp only [control]
      exact ⟨by omega, by simp⟩
  | versioned control found =>
      have bound := goto _ _ member
      obtain rfl := versioned_line found
      omega
  | handled => simp at member
  | ended => simp at member
  | _ =>
      rw [List.mem_singleton.mp member] at before
      exact before.elim

/-- A worker that records its version could do so before the step. -/
theorem WorkerStep.records {effect : Effect} {entries : List Entry} {next : List Worker}
    (steps : WorkerStep worker effect entries next) (isVersion : effect = .version) :
    worker.BeforeRecord := by
  have own : ∀ number, worker.control = .line number →
      runJob[number]? = some .setCurrentVersion → worker.BeforeRecord := by
    intro number control found
    unfold Worker.BeforeRecord
    simp only [control]
    exact (versioned_line found).le
  cases steps with
  | versioned control found => exact own _ control found
  | versionedThenRaised control found => exact own _ control found
  | _ => cases isVersion

/-- The job of a worker that may record its version is active. -/
theorem Worker.Tracks.active {history : List Entry} {state : JobState}
    (tracks : worker.Tracks history state) (before : worker.BeforeRecord) :
    state.isActive = true := by
  unfold Worker.Tracks at tracks
  unfold Worker.BeforeRecord at before
  cases control : worker.control with
  | line number =>
      simp only [control] at tracks
      obtain ⟨inside, -, rfl, -⟩ := tracks
      exact stateAt_active number inside
  | awaiting number =>
      simp only [control] at tracks
      obtain ⟨⟨call, found⟩, -, rfl, -⟩ := tracks
      exact stateAt_active number (line_lt found)
  | handling exception =>
      simp only [control] at before

section Work

variable {effect : Effect} {entries : List Entry} {next front back : List Worker} {store : Store}
  {written : List StableVersion}

/-- While a worker may record its version, no other worker may, and no call is
about to start one. -/
theorem Coherent.only_recorder (coherent : Coherent agent)
    (pool : agent.workers = front ++ worker :: back) (before : worker.BeforeRecord) :
    (∀ call ∈ agent.calls, call.spawning = none) ∧
      ∀ other ∈ front ++ back, ¬ other.BeforeRecord := by
  obtain ⟨spawnsNe, othersNe⟩ := coherent.owners_ne pool
  obtain ⟨job, stored, sameJob, -, tracks⟩ := coherent.workers worker (by simp [pool])
  have active := tracks.active before
  constructor
  · intro call member
    have sound := coherent.calls call member
    cases call with
    | spawn target key manifest started =>
        obtain ⟨startedStored, -, requested, -⟩ := sound
        have startedActive : started.state.isActive = true := by
          rw [requested]
          rfl
        have same := coherent.single started startedStored job stored startedActive active
        refine absurd ?_ (spawnsNe started.id (List.mem_filterMap.mpr ⟨_, member, rfl⟩))
        rw [same, sameJob]
    | _ => rfl
  · intro other member otherBefore
    have wasMember : other ∈ agent.workers := by
      rw [pool]
      simp only [List.mem_append, List.mem_cons] at member ⊢
      tauto
    obtain ⟨otherJob, otherStored, otherId, -, otherTracks⟩ := coherent.workers other wasMember
    have same := coherent.single otherJob otherStored job stored (otherTracks.active otherBefore)
      active
    apply othersNe other member
    rw [← otherId, same, sameJob]

/-- An effect keeps what the jobs upgrade from and to. -/
theorem Commits.upgrades (commits : Commits agent worker effect store written)
    (jobs : ∀ job ∈ agent.store.jobs, job.Upgrades) : ∀ job ∈ store.jobs, job.Upgrades := by
  intro job stored
  obtain ⟨before, was, -, source, target, manifest, -⟩ := commits.row stored
  unfold Job.Upgrades
  rw [source, target, manifest]
  exact jobs before was

/-- A worker that may record its version after a step is the acting one, which
could before, or another one. -/
theorem WorkerStep.recorder (steps : WorkerStep worker effect entries next) {other : Worker}
    (member : other ∈ front ++ next ++ back) (before : other.BeforeRecord) :
    other.manifest = worker.manifest ∧ worker.BeforeRecord ∧ effect ≠ .version ∨
      other ∈ front ++ back := by
  simp only [List.mem_append] at member ⊢
  rcases member with (isFront | isNext) | isBack
  · exact Or.inr (Or.inl isFront)
  · obtain ⟨could, notVersion⟩ := steps.beforeRecord isNext before
    refine Or.inl ⟨?_, could, notVersion⟩
    rcases steps.next_cases with rfl | ⟨only, rfl, -, manifest⟩
    · simp at isNext
    · exact List.mem_singleton.mp isNext ▸ manifest
  · exact Or.inr (Or.inr isBack)

/-- Every write but the one of the version leaves the recorded version. -/
private theorem Ascending.work_kept (ascending : Ascending config agent)
    (pool : agent.workers = front ++ worker :: back)
    (replaced : ∀ next, replaceAt index next agent.workers = front ++ next ++ back)
    (steps : WorkerStep worker effect entries next) (jobs : ∀ job ∈ store.jobs, job.Upgrades)
    (metadata : store.metadata = agent.store.metadata) :
    Ascending config (agent.afterWork index worker entries next store agent.written) := by
  refine ascending.unrecorded metadata rfl jobs ascending.calls ?_
  intro other member before
  have placed : other ∈ front ++ next ++ back := replaced next ▸ member
  rcases steps.recorder placed before with ⟨manifest, could, -⟩ | isOther
  · rw [manifest]
    exact ascending.workers worker (by simp [pool]) could
  · apply ascending.workers other _ before
    rw [pool]
    simp only [List.mem_append, List.mem_cons] at isOther ⊢
    tauto

/-- The version that a worker records is above the one before, and then no
other worker and no call can bring it back. -/
private theorem Ascending.work_version (ascending : Ascending config agent)
    (coherent : Coherent agent) (pool : agent.workers = front ++ worker :: back)
    (replaced : ∀ next, replaceAt index next agent.workers = front ++ next ++ back)
    (steps : WorkerStep worker .version entries next) :
    Ascending config (agent.afterWork index worker entries next
      (agent.store.setCurrentVersion worker.manifest.version)
      (agent.written ++ [worker.manifest.version])) := by
  have before := steps.records rfl
  have above := ascending.workers worker (by simp [pool]) before
  obtain ⟨noSpawn, noRecorder⟩ := coherent.only_recorder pool before
  constructor
  · refine ⟨ascending.safe.1, ascending.safe.increases above, ?_⟩
    simp [Agent.afterWork, Agent.becomes, Agent.log, Store.setCurrentVersion]
  · intro call isCall
    have follows := ascending.calls call isCall
    have silent := noSpawn call isCall
    cases call with
    | lookup target key => trivial
    | verify target key => trivial
    | preflight target key manifest => exact follows.trans above.le
    | readSource target key manifest => exact follows.trans above.le
    | create target key manifest source => exact ⟨follows.1, follows.2.trans above.le⟩
    | spawn target key manifest job => cases silent
  · intro other member otherBefore
    have placed : other ∈ front ++ next ++ back := replaced next ▸ member
    rcases steps.recorder placed otherBefore with ⟨-, -, notVersion⟩ | isOther
    · exact absurd rfl notVersion
    · exact absurd otherBefore (noRecorder other isOther)

theorem Ascending.work (ascending : Ascending config agent) (coherent : Coherent agent)
    (pool : agent.workers = front ++ worker :: back)
    (replaced : ∀ next, replaceAt index next agent.workers = front ++ next ++ back)
    (steps : WorkerStep worker effect entries next)
    (commits : Commits agent worker effect store written) :
    Ascending config (agent.afterWork index worker entries next store written) := by
  have jobs := commits.upgrades ascending.safe.1
  cases commits with
  | nothing => exact ascending.work_kept pool replaced steps jobs rfl
  | state updated =>
      exact ascending.work_kept pool replaced steps jobs (Store.update_eq_some updated).2
  | version => exact ascending.work_version coherent pool replaced steps

end Work

/-! ### Steps of the agent -/

theorem Moves.follows {call moved : StartCall} (moves : Moves config agent call moved)
    (follows : call.Follows (agent.currentVersion config)) :
    moved.Follows (agent.currentVersion config) := by
  cases moves with
  | unknown => trivial
  | verified admits => exact admits.minimum
  | eligible => exact follows
  | sourced => exact ⟨follows, le_rfl⟩

/-- The row of a call that still upgrades is an upgrade. -/
theorem StartCall.Follows.upgrades {target source : StableVersion} {key installationId : String}
    {manifest : ReleaseManifest} {jobId : Nat} {current : StableVersion}
    (follows : (StartCall.create target key manifest source).Follows current)
    (still : (StartCall.create target key manifest source).StillUpgrades current) :
    (requestedJob jobId key installationId source target manifest).Upgrades :=
  ⟨follows.2.trans_lt still.2, follows.1, still.1⟩

theorem AgentStep.ascending {action : Action} (steps : AgentStep config agent action after)
    (coherent : Coherent agent) (ascending : Ascending config agent)
    (guard : InsertsUpgrade config agent action) : Ascending config after := by
  obtain ⟨jobs, -, -⟩ := ascending.safe
  cases steps with
  | idle => exact ascending
  | requested =>
      unfold Agent.request
      split_ifs
      · refine ascending.unrecorded rfl rfl jobs ?_ ascending.workers
        intro call member
        rcases List.mem_append.mp member with old | new
        · exact ascending.calls call old
        · rw [List.mem_singleton.mp new]
          trivial
      · exact ascending.unrecorded rfl rfl jobs ascending.calls ascending.workers
      · exact ascending
  | answered found =>
      refine ascending.unrecorded rfl rfl jobs ?_ ascending.workers
      intro call member
      rcases mem_of_mem_replaceAt member with new | old
      · simp at new
      · exact ascending.calls call old
  | continued found moves =>
      refine ascending.unrecorded rfl rfl jobs ?_ ascending.workers
      intro call member
      rcases mem_of_mem_replaceAt member with new | old
      · rw [List.mem_singleton.mp new]
        exact moves.follows (ascending.calls _ (List.mem_of_getElem? found))
      · exact ascending.calls call old
  | created found commits fresh isJob becomes =>
      have isCall := List.mem_of_getElem? found
      have still := guard commits _ found fresh
      have isTarget := coherent.calls _ isCall
      subst isJob
      refine ascending.unrecorded rfl rfl ?_ ?_ ascending.workers
      · intro job member
        rcases List.mem_append.mp member with old | new
        · exact jobs job old
        · rw [List.mem_singleton.mp new]
          exact (ascending.calls _ isCall).upgrades still
      · intro call member
        rcases mem_of_mem_replaceAt member with new | old
        · rcases becomes with rfl | rfl
          · simp at new
          · rw [List.mem_singleton.mp new]
            exact isTarget.symm ▸ still.2
        · exact ascending.calls call old
  | spawned found =>
      refine ascending.unrecorded rfl rfl jobs ?_ ?_
      · intro call member
        rcases mem_of_mem_replaceAt member with new | old
        · simp at new
        · exact ascending.calls call old
      · intro worker member before
        rcases List.mem_append.mp member with old | new
        · exact ascending.workers worker old before
        · rw [List.mem_singleton.mp new]
          exact ascending.calls _ (List.mem_of_getElem? found)
  | worked found steps commits =>
      obtain ⟨front, back, pool, replaced⟩ := exists_replaceAt found
      exact ascending.work coherent pool replaced steps commits
  | crashed =>
      refine ascending.unrecorded rfl rfl jobs ?_ ?_
      · simp [Agent.crash]
      · simp [Agent.crash]
  | recovered stopped serving =>
      refine ascending.unrecorded rfl rfl ?_ ascending.calls ascending.workers
      intro job member
      obtain ⟨before, was, ⟨-, rfl⟩ | ⟨-, rfl⟩⟩ := mem_updateWhere.mp member
      · exact jobs before was
      · exact jobs job was

/-! ### Runs -/

/-- In every interleaving of start calls, workers, failures and crashes the
versions are safe in every state, provided that every job is still an upgrade
when it is inserted. -/
theorem upgrades_are_safe (config : Config) {actions : List Action}
    (guarded : EveryStep (Agent.step config) (InsertsUpgrade config) {} actions) :
    Always (Agent.step config) (VersionSafe config) {} actions :=
  Always.imp (fun _ sound => sound.2.safe)
    (always_guarded (fun agent => Coherent agent ∧ Ascending config agent)
      (fun _ action sound guard => ⟨step_coherent config sound.1 action,
        (agentStep config sound.1 action).ascending sound.1 sound.2 guard⟩)
      ⟨Coherent.initial, Ascending.initial config⟩ guarded)

/-- Two eligible requests, of which the first creates and finishes its job. -/
def firstUpdate : List Action :=
  .restart .returns :: eligibleRequest "request-00000001" 0 ++
    eligibleRequest "request-00000002" 1 ++ startFirst 1 ++ workOn 15

/-- Without the second creation the versions are safe. -/
theorem upgrades_are_safe_first :
    Always (Agent.step installed) (VersionSafe installed) {} firstUpdate :=
  upgrades_are_safe installed (by decide +kernel)

/-- The second request creates a job from the target to the target, and its
worker records that version once more. -/
theorem second_start_repeats_version :
    ¬ Always (Agent.step installed) (VersionSafe installed) {}
      (firstUpdate ++ startFirst 2 ++ workOn 15) := by
  decide +kernel

end BubllioCrm.UpdateAgent
