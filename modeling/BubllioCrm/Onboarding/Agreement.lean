import BubllioCrm.Onboarding.Terminal

/-!
Owns the agreement of the CRM and the agent on whether an update is running: a
terminal run has no active job, and no start call that is under way makes one.

The invariant sends every job and every start call back to a run, and every
terminal status that a poll will save back to a job that has ended.
-/

namespace BubllioCrm.Onboarding

open BubllioCrm.Foundations
open BubllioCrm.UpdateAgent (Agent Config Job JobState Progress step_registered)

variable {config : Config} {names : JobNames} {system reached : System} {action : SystemAction}
  {context : Context} {table after : UpdateRuns} {thread : Thread} {next : List Thread}
  {copy : InstallationUpdateRun} {jobs laterJobs : List Job} {result : Except ClientError Fields}

/-! ### What agreement is -/

/-- A start call for the key is on its way or being served. -/
def System.UnderWay (system : System) (key : String) : Prop :=
  (∃ request ∈ system.requests, request.idempotencyKey = key) ∨
    ∃ call ∈ system.agent.calls, call.key = key

instance (system : System) (key : String) : Decidable (system.UnderWay key) :=
  inferInstanceAs (Decidable (_ ∨ _))

def System.HasJob (system : System) (key : String) : Prop :=
  ∃ job ∈ system.agent.store.jobs, job.idempotencyKey = key

instance (system : System) (key : String) : Decidable (system.HasJob key) :=
  inferInstanceAs (Decidable (∃ job ∈ system.agent.store.jobs, _))

/-- Nothing is running for the key: its job has ended, or it has no job and no
start call that could make one. -/
def System.Settled (system : System) (key : String) : Prop :=
  (∀ job ∈ system.agent.store.jobs, job.idempotencyKey = key → job.state.isActive = false) ∧
    (system.UnderWay key → system.HasJob key)

instance (system : System) (key : String) : Decidable (system.Settled key) :=
  inferInstanceAs (Decidable (_ ∧ _))

/-- The start request that an action sends. -/
def System.sending (system : System) (action : SystemAction) : List StartRequest :=
  match action with
  | .crm (.advance index context) =>
      match system.crm.threads[index]? with
      | some thread => thread.sends context
      | none => []
  | _ => []

/-- The agent has no active job for a terminal run, and whatever happens without
a new start call, it will have none. -/
def Agreement (config : Config) (names : JobNames) (system : System) : Prop :=
  ∀ row ∈ system.crm.table.rows, row.status.isTerminal = true →
    ∀ later, EveryStep (System.step config names)
      (fun system action => system.sending action = []) system later →
    ∀ job ∈ (run (System.step config names) system later).agent.store.jobs,
      job.idempotencyKey = row.idempotencyKey → job.state.isActive = false

/-- A run is admitted only while the agent executes none. -/
def AdmitsFree (before reached : System) : Prop :=
  before.crm.table.rows.length < reached.crm.table.rows.length →
    ∀ job ∈ before.agent.store.jobs, job.state.isActive = false

/-- The form of agreement that a state shows: terminal runs are settled. -/
def SettledRuns (system : System) : Prop :=
  ∀ row ∈ system.crm.table.rows, row.status.isTerminal = true → system.Settled row.idempotencyKey

/-- A failure is recorded only where nothing is running for the key, and a start
call is made only while the run is active or its job is there. -/
def Careful (system : System) (action : SystemAction) : Prop :=
  match action with
  | .crm (.advance index context) =>
      match system.crm.threads[index]? with
      | some (.fail copy _ _) => system.Settled copy.idempotencyKey
      | some (.submit copy _) => context.configured = true → system.HasJob copy.idempotencyKey ∨
          ∀ row ∈ system.crm.table.rows, row.id = copy.id → row.status.isActive = true
      | _ => True
  | _ => True

instance (system : System) (action : SystemAction) : Decidable (Careful system action) := by
  unfold Careful
  split
  · split <;> infer_instance
  · infer_instance

/-! ### Statuses of jobs -/

/-- The status of a run whose job is in a state. -/
def statusOf : JobState → RunStatus
  | .requested => .requested
  | .preflight => .preflight
  | .backingUp => .backingUp
  | .deploying => .deploying
  | .verifying => .verifying
  | .succeeded => .succeeded
  | .failed => .failed
  | .rolledBack => .rolledBack
  | .manualIntervention => .manualIntervention

theorem isTerminal_statusOf (state : JobState) : (statusOf state).isTerminal = !state.isActive := by
  cases state <;> rfl

/-- The CRM reads the state that the agent writes. -/
theorem readStatus_jobPayload {job : Job} {payload : Fields}
    (isPayload : jobPayload names job = some payload) :
    readStatus (getOr "status" "state" payload) = some (statusOf job.state) := by
  have isState : getOr "status" "state" payload = .str (ofString job.state.text) := by
    rw [getOr, Document.get, Document.lookup_fieldsOfJson isPayload,
      Document.lookup_fieldsOfJson isPayload]
    rfl
  rw [isState]
  cases job.state <;> decide +kernel

/-! ### The invariant -/

/-- What a thread is about to record as ended has ended, as far as the agent
has told it. -/
def Thread.Ends (jobs : List Job) : Thread → Prop
  | .recordPolicy _ _ status => status.isTerminal = true
  | .fail _ _ status => status.isTerminal = true
  | .save copy => copy.status.isTerminal = true →
      ∃ job ∈ jobs, job.idempotencyKey = copy.idempotencyKey ∧ job.state.isActive = false
  | _ => True

structure Agreed (names : JobNames) (system : System) : Prop where
  linked : Linked names system
  reports : ∀ report ∈ system.reports, ∃ job ∈ system.agent.store.jobs, report.Becomes job
  ends : ∀ thread ∈ system.crm.threads, thread.Ends system.agent.store.jobs
  keys : ∀ key, system.HasJob key ∨ system.UnderWay key →
    ∃ row ∈ system.crm.table.rows, row.idempotencyKey = key
  settled : SettledRuns system

theorem Thread.Ends.mono (ends : thread.Ends jobs)
    (kept : ∀ job ∈ jobs, ∃ later ∈ laterJobs, job.Becomes later) : thread.Ends laterJobs := by
  cases thread with
  | save copy =>
      intro terminal
      obtain ⟨job, stored, sameKey, ended⟩ := ends terminal
      obtain ⟨later, laterStored, becomes⟩ := kept job stored
      exact ⟨later, laterStored, becomes.key.trans sameKey, becomes.2 ended⟩
  | _ => exact ends

theorem Agreed.initial : Agreed names {} where
  linked := Linked.initial
  reports := fun _ member => absurd member List.not_mem_nil
  ends := fun _ member => absurd member List.not_mem_nil
  keys := by
    rintro key (⟨job, stored, -⟩ | ⟨request, sent, -⟩ | ⟨call, isCall, -⟩)
    · cases stored
    · cases sent
    · cases isCall
  settled := fun _ stored => absurd stored List.not_mem_nil

/-- A key with an ended job is settled. -/
theorem Linked.settled_of_ended (linked : Linked names system) {key : String}
    (ended : ∃ job ∈ system.agent.store.jobs, job.idempotencyKey = key ∧
      job.state.isActive = false) : system.Settled key := by
  obtain ⟨job, stored, sameKey, isEnded⟩ := ended
  refine ⟨fun other otherStored otherKey => ?_, fun _ => ⟨job, stored, sameKey⟩⟩
  obtain rfl := List.inj_on_of_nodup_map linked.registered.keys otherStored stored
    (otherKey.trans sameKey.symm)
  exact isEnded

/-! ### Settled keys -/

theorem System.Settled.of_same {key : String} (settled : system.Settled key)
    (agent : reached.agent = system.agent) (requests : reached.requests ⊆ system.requests) :
    reached.Settled key := by
  unfold System.Settled System.UnderWay System.HasJob at settled ⊢
  rw [agent]
  refine ⟨settled.1, fun underWay => settled.2 ?_⟩
  exact underWay.imp_left fun ⟨request, sent, sameKey⟩ => ⟨request, requests sent, sameKey⟩

/-- The agent makes no job for a settled key, and takes back no end. -/
theorem System.Settled.moved {key : String} (settled : system.Settled key)
    {agentAction : UpdateAgent.Action} {agent : Agent}
    (progress : Progress system.agent agentAction agent)
    (asked : ∀ target key, agentAction = .request target key →
      ∃ request ∈ system.requests, request.idempotencyKey = key) :
    System.Settled { system with agent := agent } key := by
  constructor
  · intro later laterStored sameKey
    rcases progress.origins later laterStored with ⟨job, stored, becomes⟩ | ⟨called, unused⟩
    · exact becomes.2 (settled.1 job stored (becomes.key.symm.trans sameKey))
    · obtain ⟨call, isCall, callKey⟩ := called
      obtain ⟨job, stored, jobKey⟩ := settled.2 (Or.inr ⟨call, isCall, callKey.trans sameKey⟩)
      exact absurd (jobKey.trans sameKey.symm) (unused job stored)
  · intro underWay
    have before : system.UnderWay key := by
      rcases underWay with sent | ⟨call, isCall, callKey⟩
      · exact Or.inl sent
      · rcases progress.calls call isCall with ⟨earlier, isEarlier, sameKey⟩ | ⟨target, asks⟩
        · exact Or.inr ⟨earlier, isEarlier, sameKey.trans callKey⟩
        · exact Or.inl (callKey ▸ asked target call.key asks)
    obtain ⟨job, stored, jobKey⟩ := settled.2 before
    obtain ⟨later, laterStored, becomes⟩ := progress.kept job stored
    exact ⟨later, laterStored, becomes.key.trans jobKey⟩

/-- A settled key stays settled while no start call is made. -/
theorem System.Settled.step {key : String} (settled : system.Settled key)
    (linked : Linked names system) (silent : system.sending action = []) :
    (system.step config names action).Settled key := by
  have steps := systemStep config names system action
  generalize system.step config names action = reached at steps
  cases steps with
  | @advanced index context thread found =>
      have none : thread.sends context = [] := by
        simpa [System.sending, found] using silent
      refine settled.of_same (by rfl) ?_
      show system.requests ++ thread.sends context ⊆ system.requests
      rw [none, List.append_nil]
      exact List.Subset.refl _
  | moved asked =>
      exact settled.moved (linked.registered.coherent.progress config _) asked
  | expired =>
      refine settled.of_same (by rfl) ?_
      intro request member
      rcases mem_of_mem_replaceAt member with new | old
      · cases new
      · exact old
  | _ => exact settled.of_same (by rfl) (List.Subset.refl _)

theorem SettledRuns.agreement (settled : SettledRuns system) (linked : Linked names system) :
    Agreement config names system := by
  intro row stored terminal later silent job jobStored sameKey
  have always := always_guarded
    (fun system => Linked names system ∧ system.Settled row.idempotencyKey)
    (fun system action holds quiet =>
      ⟨step_linked config system action holds.1, holds.2.step holds.1 quiet⟩)
    ⟨linked, settled row stored terminal⟩ silent
  exact always.at_end.2.1 job jobStored sameKey

/-! ### Steps of a thread -/

/-- The failure that a thread goes on to record is an end. -/
theorem Thread.AdvanceStep.nextEnds (steps : AdvanceStep context table thread after next)
    (ends : thread.Ends jobs) : ∀ thread ∈ next, thread.Ends jobs := by
  intro behind member
  cases steps with
  | ends => cases member
  | wrote writes saved =>
      cases writes with
      | begun => exact List.mem_singleton.mp member ▸ trivial
      | policy => exact List.mem_singleton.mp member ▸ ends
      | failed => cases member
      | accepted => exact List.mem_singleton.mp member ▸ trivial
      | saved => cases member
  | waits => exact List.mem_singleton.mp member ▸ ends
  | unavailable calls => exact List.mem_singleton.mp member ▸ rfl
  | _ => exact List.mem_singleton.mp member ▸ trivial

/-- A terminal status behind an answer is that of an ended job. -/
theorem Thread.AnswerStep.nextEnds (steps : AnswerStep result thread next)
    (told : Told names system thread result) (agreed : Agreed names system)
    (isThread : thread ∈ system.crm.threads) :
    ∀ thread ∈ next, thread.Ends system.agent.store.jobs := by
  intro behind member
  cases steps with
  | working => exact List.mem_singleton.mp member ▸ agreed.ends thread isThread
  | ends => cases member
  | failed calls => exact List.mem_singleton.mp member ▸ rfl
  | stopped terminal => exact List.mem_singleton.mp member ▸ terminal
  | @read copy synced payload returned reads =>
      obtain rfl := List.mem_singleton.mp member
      intro terminal
      obtain ⟨identity, -, status⟩ := readUpdate_ok reads
      obtain ⟨report, reported, jobId, isPayload⟩ := told.update copy payload rfl returned
      have isStatus : synced.status = statusOf report.state :=
        Option.some.inj (status.symm.trans (readStatus_jobPayload isPayload))
      have reportEnded : report.state.isActive = false := by
        rw [isStatus, isTerminal_statusOf] at terminal
        simpa using terminal
      obtain ⟨job, stored, becomes⟩ := agreed.reports report reported
      -- The copy names the job, which has the key of its run.
      obtain ⟨row, rowStored, keeps⟩ := (agreed.linked.threads _ isThread).stored copy rfl
      obtain ⟨own, ownStored, ownId, ownKey⟩ :=
        agreed.linked.named row rowStored _ (keeps.2 _ jobId)
      have sameId : own.id = job.id := (names.injective ownId).trans becomes.id.symm
      obtain rfl := agreed.linked.registered.coherent.job_eq ownStored stored sameId
      refine ⟨own, stored, ?_, becomes.2 reportEnded⟩
      have copyKey : synced.idempotencyKey = copy.idempotencyKey := congrArg (·.2.1) identity
      rw [ownKey, keeps.key, copyKey]
  | _ => exact List.mem_singleton.mp member ▸ trivial

/-- A start request is for the key of a run. -/
theorem Thread.of_mem_sends {request : StartRequest} (sent : request ∈ thread.sends context) :
    ∃ copy origin, thread = .submit copy origin ∧ context.configured = true ∧
      request.idempotencyKey = copy.idempotencyKey := by
  cases thread with
  | submit copy origin =>
      unfold Thread.sends at sent
      simp only at sent
      split_ifs at sent with configured
      · rw [List.mem_singleton.mp sent]
        exact ⟨copy, origin, rfl, configured, rfl⟩
      · cases sent
  | _ => cases sent

theorem Thread.Linked.rowKey {rows : List InstallationUpdateRun}
    (linked : thread.Linked names rows jobs) (isCopy : thread.copy = some copy) :
    ∃ row ∈ rows, row.id = copy.id ∧ row.idempotencyKey = copy.idempotencyKey := by
  obtain ⟨row, stored, keeps⟩ := linked.stored copy isCopy
  exact ⟨row, stored, keeps.id, keeps.key⟩

/-- A write keeps every key. -/
theorem RowsKept.key {rows later : List InstallationUpdateRun} (kept : RowsKept rows later)
    {key : String} (found : ∃ row ∈ rows, row.idempotencyKey = key) :
    ∃ row ∈ later, row.idempotencyKey = key := by
  obtain ⟨row, stored, sameKey⟩ := found
  obtain ⟨other, otherStored, keeps⟩ := kept row stored
  exact ⟨other, otherStored, keeps.key.trans sameKey⟩

/-- A careful step of a thread ends only settled runs. -/
theorem Agreed.advance_settled (agreed : Agreed names system) {index : Nat}
    (found : system.crm.threads[index]? = some thread)
    (careful : Careful system (.crm (.advance index context))) :
    SettledRuns (system.advance index context thread) := by
  have isThread : thread ∈ system.crm.threads := List.mem_of_getElem? found
  have linkedThread := agreed.linked.threads thread isThread
  have stays : ∀ key, system.Settled key → (∀ request ∈ thread.sends context,
      request.idempotencyKey = key → system.HasJob key) →
      (system.advance index context thread).Settled key := by
    intro key settled sends
    refine ⟨settled.1, ?_⟩
    rintro (⟨request, sent, sameKey⟩ | called)
    · rcases List.mem_append.mp sent with old | new
      · exact settled.2 (Or.inl ⟨request, old, sameKey⟩)
      · exact sends request new sameKey
    · exact settled.2 (Or.inr called)
  have old : ∀ row ∈ system.crm.table.rows, row.status.isTerminal = true →
      (system.advance index context thread).Settled row.idempotencyKey := by
    intro row stored terminal
    refine stays _ (agreed.settled row stored terminal) fun request sent sameKey => ?_
    obtain ⟨copy, origin, rfl, configured, requestKey⟩ := Thread.of_mem_sends sent
    simp only [Careful, found] at careful
    rcases careful configured with hasJob | active
    · exact (requestKey.symm.trans sameKey) ▸ hasJob
    · obtain ⟨own, ownStored, ownId, ownKey⟩ := linkedThread.rowKey rfl
      have sameRow : own = row := List.inj_on_of_nodup_map system.crm.table.consistent.keys
        ownStored stored (ownKey.trans (requestKey.symm.trans sameKey))
      have isActive := active own ownStored ownId
      rw [sameRow, RunStatus.isActive_eq, terminal] at isActive
      cases isActive
  intro later laterStored terminal
  change later ∈ (thread.advance context system.crm.table).1.rows at laterStored
  have steps := thread.advanceStep context system.crm.table
  generalize thread.advance context system.crm.table = reached at steps laterStored
  obtain ⟨after, next⟩ := reached
  rcases steps.table_cases with same | ⟨new, isNew, inserted⟩ | ⟨runId, change, writes, saved⟩
  · rw [same] at laterStored
    exact old later laterStored terminal
  · rw [(UpdateRuns.create_eq_some.mp inserted).2] at laterStored
    rcases List.mem_append.mp laterStored with stored | added
    · exact old later stored terminal
    · rw [List.mem_singleton.mp added, isNew] at terminal
      cases terminal
  · rw [(UpdateRuns.save_eq_some.mp saved).2] at laterStored
    obtain ⟨row, stored, ⟨isRow, rfl⟩ | ⟨-, rfl⟩⟩ := mem_updateWhere.mp laterStored
    · have keeps := (writes.keeps linkedThread agreed.linked.named
        agreed.linked.registered.keys stored isRow).1
      rw [keeps.key]
      cases writes with
      | begun => cases terminal
      | policy => exact old row stored terminal
      | accepted => exact old row stored terminal
      | @failed copy code status =>
          simp only [Careful, found] at careful
          rw [(linkedThread.ownRow rfl stored isRow).key]
          exact stays _ careful fun request sent => by cases sent
      | @saved copy =>
          rw [(linkedThread.ownRow rfl stored isRow).key]
          refine stays _ ?_ fun request sent => by cases sent
          exact agreed.linked.settled_of_ended (agreed.ends _ isThread terminal)
    · exact old later stored terminal

/-! ### Runs -/

theorem Agreed.step (agreed : Agreed names system) (careful : Careful system action) :
    Agreed names (system.step config names action) := by
  have steps := systemStep config names system action
  generalize system.step config names action = reached at steps
  obtain ⟨linked, rowsKept⟩ := steps.linked agreed.linked
  have kept := jobsKept_refl system.agent.store.jobs
  have replaced : ∀ {index : Nat} {next : List Thread},
      (∀ thread ∈ next, thread.Ends system.agent.store.jobs) →
      ∀ thread ∈ replaceAt index next system.crm.threads, thread.Ends system.agent.store.jobs := by
    intro index next all thread member
    rcases mem_of_mem_replaceAt member with new | old
    · exact all thread new
    · exact agreed.ends thread old
  cases steps with
  | idle => exact agreed
  | started fresh =>
      refine ⟨linked, agreed.reports, fun thread member => ?_, agreed.keys, agreed.settled⟩
      rcases List.mem_append.mp member with old | new
      · exact agreed.ends thread old
      · rcases fresh thread new with ⟨target, key, rfl⟩ | ⟨row, stored, rfl | rfl⟩ <;> trivial
  | @advanced index context thread found =>
      have isThread : thread ∈ system.crm.threads := List.mem_of_getElem? found
      refine ⟨linked, agreed.reports, ?_, ?_, agreed.advance_settled found careful⟩
      · exact replaced ((thread.advanceStep context system.crm.table).nextEnds
          (agreed.ends thread isThread))
      · rintro key (hasJob | ⟨request, sent, sameKey⟩ | called)
        · exact rowsKept.key (agreed.keys key (Or.inl hasJob))
        · rcases List.mem_append.mp sent with old | new
          · exact rowsKept.key (agreed.keys key (Or.inr (Or.inl ⟨request, old, sameKey⟩)))
          · obtain ⟨copy, origin, rfl, -, requestKey⟩ := Thread.of_mem_sends new
            obtain ⟨row, stored, -, rowKey⟩ := (agreed.linked.threads _ isThread).rowKey rfl
            exact rowsKept.key ⟨row, stored, rowKey.trans (requestKey.symm.trans sameKey)⟩
        · exact rowsKept.key (agreed.keys key (Or.inr (Or.inr called)))
  | @answered _ index thread result found told =>
      have isThread : thread ∈ system.crm.threads := List.mem_of_getElem? found
      exact ⟨linked, agreed.reports,
        replaced ((thread.answerStep result).nextEnds told agreed isThread), agreed.keys,
        agreed.settled⟩
  | dropped =>
      refine ⟨linked, agreed.reports, replaced ?_, agreed.keys, agreed.settled⟩
      exact fun thread member => absurd member List.not_mem_nil
  | @moved _ agentAction asked =>
      have progress := agreed.linked.registered.coherent.progress config agentAction
      refine ⟨linked, fun report reported => ?_,
        fun thread member => (agreed.ends thread member).mono progress.kept, ?_,
        fun row stored terminal => (agreed.settled row stored terminal).moved progress asked⟩
      · obtain ⟨job, stored, becomes⟩ := agreed.reports report reported
        obtain ⟨later, laterStored, becomesLater⟩ := progress.kept job stored
        exact ⟨later, laterStored, becomes.trans becomesLater⟩
      · rintro key (⟨later, laterStored, sameKey⟩ | sent | ⟨call, isCall, callKey⟩)
        · rcases progress.origins later laterStored with ⟨job, stored, becomes⟩ | ⟨called, -⟩
          · exact agreed.keys key (Or.inl ⟨job, stored, becomes.key.symm.trans sameKey⟩)
          · obtain ⟨call, isCall, callKey⟩ := called
            exact agreed.keys key (Or.inr (Or.inr ⟨call, isCall, callKey.trans sameKey⟩))
        · exact agreed.keys key (Or.inr (Or.inl sent))
        · rcases progress.calls call isCall with ⟨earlier, isEarlier, sameKey⟩ | ⟨target, asks⟩
          · exact agreed.keys key (Or.inr (Or.inr ⟨earlier, isEarlier, sameKey.trans callKey⟩))
          · obtain ⟨request, sent, requestKey⟩ := asked target call.key asks
            exact agreed.keys key (Or.inr (Or.inl ⟨request, sent, requestKey.trans callKey⟩))
  | @expired _ index =>
      have fewer : ∀ request ∈ replaceAt index [] system.requests, request ∈ system.requests := by
        intro request member
        exact (mem_of_mem_replaceAt member).resolve_left List.not_mem_nil
      refine ⟨linked, agreed.reports, agreed.ends, ?_, fun row stored terminal =>
        (agreed.settled row stored terminal).of_same (by rfl) fewer⟩
      rintro key (hasJob | ⟨request, sent, sameKey⟩ | called)
      · exact agreed.keys key (Or.inl hasJob)
      · exact agreed.keys key (Or.inr (Or.inl ⟨request, fewer request sent, sameKey⟩))
      · exact agreed.keys key (Or.inr (Or.inr called))
  | @reported _ reports stored =>
      refine ⟨linked, fun report reported => ?_, agreed.ends, agreed.keys, agreed.settled⟩
      rcases List.mem_append.mp reported with old | new
      · exact agreed.reports report old
      · exact ⟨report, stored report new, report.becomes_refl⟩

/-- A step that leaves the terminal runs settled was a careful one. -/
theorem Agreed.careful (agreed : Agreed names system)
    (settled : SettledRuns (system.step config names action)) : Careful system action := by
  unfold Careful
  split
  next index context =>
    have isStep : ∀ thread, system.crm.threads[index]? = some thread →
        system.step config names (.crm (.advance index context)) =
          system.advance index context thread := by
      intro thread found
      simp only [System.step, System.crmStep, found]
    split
    next copy code status found =>
      rw [isStep _ found] at settled
      have isThread := List.mem_of_getElem? found
      have linkedThread := agreed.linked.threads _ isThread
      have terminal : status.isTerminal = true := agreed.ends _ isThread
      obtain ⟨row, stored, rowId, rowKey⟩ := linkedThread.rowKey rfl
      obtain ⟨after, saved⟩ := Option.isSome_iff_exists.mp
        ((linkedThread.save_isSome_iff .failed rfl stored rowId).mpr fun refused => by
          rw [UpdateRuns.Refuses, RunStatus.isActive_eq, terminal] at refused
          cases refused.1)
      have isTable :
          (Thread.fail copy code status).advance context system.crm.table = (after, []) := by
        simp only [Thread.advance, Thread.write, saved]
      have ended := settled (Thread.saveFailure code status row) (by
        show _ ∈ ((Thread.fail copy code status).advance context system.crm.table).1.rows
        rw [isTable, (UpdateRuns.save_eq_some.mp saved).2]
        exact mem_updateWhere_of_selected stored rowId) terminal
      rw [← rowKey]
      exact ended.of_same rfl (List.subset_append_left _ _)
    next copy origin found =>
      intro configured
      rw [isStep _ found] at settled
      obtain ⟨own, ownStored, ownId, ownKey⟩ :=
        (agreed.linked.threads _ (List.mem_of_getElem? found)).rowKey rfl
      by_cases active : own.status.isActive = true
      · right
        intro row stored rowId
        rw [UpdateRuns.row_eq stored ownStored (rowId.trans ownId.symm)]
        exact active
      · left
        have terminal : own.status.isTerminal = true := by
          rw [RunStatus.isActive_eq] at active
          simpa using active
        have isTable : ((Thread.submit copy origin).advance context system.crm.table).1 =
            system.crm.table := by
          simp only [Thread.advance, configured, Bool.not_true, Bool.false_eq_true, if_false]
        have ended := settled own (by
          show _ ∈ ((Thread.submit copy origin).advance context system.crm.table).1.rows
          rw [isTable]
          exact ownStored) terminal
        rw [← ownKey]
        apply ended.2
        refine Or.inl ⟨
          { targetVersion := copy.targetVersion, idempotencyKey := copy.idempotencyKey },
          List.mem_append_right _ ?_, ownKey.symm⟩
        simp [Thread.sends, configured]
    · trivial
  · trivial

theorem Agreed.admitsFree (agreed : Agreed names system) (action : SystemAction) :
    AdmitsFree system (system.step config names action) := by
  have steps := systemStep config names system action
  generalize system.step config names action = reached at steps
  intro grows
  cases steps with
  | @advanced index context thread found =>
      change _ < (thread.advance context system.crm.table).1.rows.length at grows
      have stepsThread := thread.advanceStep context system.crm.table
      generalize thread.advance context system.crm.table = reached at stepsThread grows
      obtain ⟨after, next⟩ := reached
      rcases stepsThread.table_cases with same | ⟨new, isNew, inserted⟩ | ⟨runId, change, -, saved⟩
      · rw [same] at grows
        exact absurd grows (lt_irrefl _)
      · intro job stored
        obtain ⟨row, rowStored, rowKey⟩ := agreed.keys _ (Or.inl ⟨job, stored, rfl⟩)
        have inactive := UpdateRuns.inactive_of_create inserted (by rw [isNew]; rfl) row rowStored
        rw [RunStatus.isActive_eq] at inactive
        exact (agreed.settled row rowStored (by simpa using inactive)).1 job stored rowKey.symm
      · rw [(UpdateRuns.save_eq_some.mp saved).2, length_updateWhere] at grows
        exact absurd grows (lt_irrefl _)
  | _ => exact absurd grows (lt_irrefl _)

/-- In every interleaving of submissions, replays, polls and the agent over a
network that loses, delays and repeats start calls and their answers: where
every step is careful, the CRM and the agent agree in every state and a run is
admitted only while the agent executes none. The terminal runs are settled in
every state exactly when every step is careful. -/
theorem agreement_iff (config : Config) (names : JobNames) (actions : List SystemAction) :
    (EveryStep (System.step config names) Careful {} actions →
      Always (System.step config names) (Agreement config names) {} actions ∧
      EveryStep (System.step config names)
        (fun system action => AdmitsFree system (system.step config names action)) {} actions) ∧
    (Always (System.step config names) SettledRuns {} actions ↔
      EveryStep (System.step config names) Careful {} actions) := by
  have preserved : ∀ system action, Agreed names system → Careful system action →
      Agreed names (system.step config names action) :=
    fun _ _ agreed careful => agreed.step careful
  refine ⟨fun careful => ⟨?_, ?_⟩, ?_⟩
  · exact (always_guarded (Agreed names) preserved Agreed.initial careful).imp
      fun _ agreed => agreed.settled.agreement agreed.linked
  · exact everyStep_guarded (Agreed names) preserved
      (fun _ action agreed _ => agreed.admitsFree action) Agreed.initial careful
  · exact always_iff_guarded (Agreed names) (fun _ => True) (fun _ agreed => agreed.settled)
      (fun system action agreed _ careful => preserved system action agreed careful)
      (fun _ _ agreed _ settled => agreed.careful settled) Agreed.initial fun _ _ => trivial

/-- The job runs to its end before the submission polls for it. -/
def completedUpdate : List SystemAction :=
  submitFirst ++ agentAccepts ++ [.acknowledge 0 0, .crm (.advance 0 (ready 1))] ++
    (UpdateAgent.workOn 16).map .agent ++
    [.crm (.advance 0 (ready 1)), .report 1, .inform 0 0, .crm (.advance 0 (ready 1))]

theorem agreement_iff_completedUpdate :
    (Always (System.step UpdateAgent.installed decimalNames)
        (Agreement UpdateAgent.installed decimalNames) {} completedUpdate ∧
      Always (System.step UpdateAgent.installed decimalNames) SettledRuns {} completedUpdate) ∧
    (run (System.step UpdateAgent.installed decimalNames) {} completedUpdate).crm.table.rows.map
      InstallationUpdateRun.status = [.succeeded] := by
  have careful : EveryStep (System.step UpdateAgent.installed decimalNames) Careful {}
      completedUpdate := by decide +kernel
  have agree := agreement_iff UpdateAgent.installed decimalNames completedUpdate
  exact ⟨⟨(agree.1 careful).1, agree.2.mpr careful⟩, by decide +kernel⟩

/-! ### A lost answer -/

/-- The answer to the start call is lost behind the accepted job, and the
submission records that the agent is unavailable. -/
def lostAnswer : List SystemAction :=
  submitFirst ++ agentAccepts ++
    [.crm (.answer 0 (.error .unavailable)), .crm (.advance 0 (ready 1))]

theorem agreement_not_always : ¬ ∀ (config : Config) (names : JobNames) actions,
    Always (System.step config names) (Agreement config names) {} actions := by
  intro always
  have agree := (always UpdateAgent.installed decimalNames lostAnswer).at_end
  have active : ∃ row ∈ (run (System.step UpdateAgent.installed decimalNames) {}
      lostAnswer).crm.table.rows, row.status.isTerminal = true ∧
      ∃ job ∈ (run (System.step UpdateAgent.installed decimalNames) {}
        lostAnswer).agent.store.jobs,
        job.idempotencyKey = row.idempotencyKey ∧ job.state.isActive = true := by
    decide +kernel
  obtain ⟨row, stored, terminal, job, jobStored, sameKey, isActive⟩ := active
  have ended := agree row stored terminal [] trivial job jobStored sameKey
  rw [ended] at isActive
  cases isActive

end BubllioCrm.Onboarding
