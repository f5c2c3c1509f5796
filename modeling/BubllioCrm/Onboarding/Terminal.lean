import BubllioCrm.Onboarding.Gate
import BubllioCrm.Onboarding.System
import BubllioCrm.UpdateAgent.Idempotency

/-!
Owns what is stored of a run over time: an agent job id stays for good, and a
terminal status does unless a request writes another one from an older copy.

The invariant ties every copy to its row, and every job id to the job of the
agent that has the key of the run.
-/

namespace BubllioCrm.Onboarding

open BubllioCrm.Foundations
open BubllioCrm.UpdateAgent (Agent Config Job Registered step_registered)

/-! ### The invariant -/

/-- A later form of a row, or the row of a copy. -/
def InstallationUpdateRun.Keeps (row later : InstallationUpdateRun) : Prop :=
  later.identity = row.identity ∧ ∀ text ∈ row.agentJobId, later.agentJobId = some text

/-- The text is the id of a job with the key. -/
def NamesJob (names : JobNames) (jobs : List Job) (text key : String) : Prop :=
  ∃ job ∈ jobs, names.text job.id = text ∧ job.idempotencyKey = key

def Thread.copy : Thread → Option InstallationUpdateRun
  | .lookup _ _ => none
  | .create _ _ => none
  | .lookupReplay _ _ => none
  | .begin copy => some copy
  | .preflight copy => some copy
  | .awaitPreflight copy => some copy
  | .recordPolicy copy _ _ => some copy
  | .fail copy _ _ => some copy
  | .submit copy _ => some copy
  | .awaitStart copy _ => some copy
  | .accept copy _ _ => some copy
  | .awaitStatus copy => some copy
  | .sync copy => some copy
  | .awaitUpdate copy => some copy
  | .save copy => some copy

/-- The thread carries a job id that it is about to store. -/
def Thread.accepting : Thread → Option String
  | .accept _ text _ => some text
  | _ => none

/-- The thread polls, so its copy has a job id. -/
def Thread.polls : Thread → Bool
  | .awaitUpdate _ => true
  | .save _ => true
  | _ => false

structure Thread.Linked (names : JobNames) (rows : List InstallationUpdateRun) (jobs : List Job)
    (thread : Thread) : Prop where
  stored : ∀ copy ∈ thread.copy, ∃ row ∈ rows, copy.Keeps row
  named : ∀ copy ∈ thread.copy, ∀ text ∈ thread.accepting,
    NamesJob names jobs text copy.idempotencyKey
  known : ∀ copy ∈ thread.copy, thread.polls = true → copy.agentJobId.isSome = true

/-- Every row is there later. -/
def RowsKept (rows later : List InstallationUpdateRun) : Prop :=
  ∀ row ∈ rows, ∃ kept ∈ later, row.Keeps kept

/-- Every stored job id is that of a job with the key of the run. -/
def RowsNamed (names : JobNames) (rows : List InstallationUpdateRun) (jobs : List Job) : Prop :=
  ∀ row ∈ rows, ∀ text ∈ row.agentJobId, NamesJob names jobs text row.idempotencyKey

structure Linked (names : JobNames) (system : System) : Prop where
  registered : Registered system.agent
  named : RowsNamed names system.crm.table.rows system.agent.store.jobs
  threads : ∀ thread ∈ system.crm.threads,
    thread.Linked names system.crm.table.rows system.agent.store.jobs

variable {config : Config} {names : JobNames} {system : System} {action : SystemAction}
  {context : Context} {table after : UpdateRuns} {thread : Thread} {next : List Thread}
  {row copy later : InstallationUpdateRun} {rows : List InstallationUpdateRun}
  {jobs laterJobs : List Job} {runId : Nat} {change : InstallationUpdateRun → InstallationUpdateRun}
  {result : Except ClientError Fields}

namespace InstallationUpdateRun

theorem keeps_refl (row : InstallationUpdateRun) : row.Keeps row :=
  ⟨rfl, fun _ known => known⟩

theorem Keeps.trans {third : InstallationUpdateRun} (former : row.Keeps later)
    (latter : later.Keeps third) : row.Keeps third :=
  ⟨latter.1.trans former.1, fun text known => latter.2 text (former.2 text known)⟩

theorem Keeps.id (keeps : row.Keeps later) : later.id = row.id :=
  congrArg Prod.fst keeps.1

theorem Keeps.key (keeps : row.Keeps later) : later.idempotencyKey = row.idempotencyKey :=
  congrArg (·.2.1) keeps.1

theorem isSome_of_isAcknowledged (known : row.isAcknowledged = true) :
    row.agentJobId.isSome = true := by
  unfold isAcknowledged at known
  cases jobId : row.agentJobId with
  | none => simp [jobId] at known
  | some text => rfl

end InstallationUpdateRun

theorem NamesJob.mono {text key : String} (named : NamesJob names jobs text key)
    (kept : ∀ job ∈ jobs, ∃ later ∈ laterJobs, job.Becomes later) :
    NamesJob names laterJobs text key := by
  obtain ⟨job, stored, isText, isKey⟩ := named
  obtain ⟨later, laterStored, becomes⟩ := kept job stored
  exact ⟨later, laterStored, by rw [becomes.id, isText], by rw [becomes.key, isKey]⟩

/-- A key has one job, so one text names it. -/
theorem NamesJob.unique {text other key : String} (distinct : (jobs.map Job.idempotencyKey).Nodup)
    (first : NamesJob names jobs text key) (second : NamesJob names jobs other key) :
    text = other := by
  obtain ⟨job, stored, rfl, isKey⟩ := first
  obtain ⟨job', stored', rfl, isKey'⟩ := second
  rw [List.inj_on_of_nodup_map distinct stored stored' (isKey.trans isKey'.symm)]

theorem Thread.Linked.mono {laterRows : List InstallationUpdateRun}
    (linked : thread.Linked names rows jobs) (rowsKept : RowsKept rows laterRows)
    (jobsKept : ∀ job ∈ jobs, ∃ later ∈ laterJobs, job.Becomes later) :
    thread.Linked names laterRows laterJobs := by
  refine ⟨?_, fun copy isCopy text isText => (linked.named copy isCopy text isText).mono jobsKept,
    linked.known⟩
  intro copy isCopy
  obtain ⟨row, stored, keeps⟩ := linked.stored copy isCopy
  obtain ⟨later, laterStored, keepsRow⟩ := rowsKept row stored
  exact ⟨later, laterStored, keeps.trans keepsRow⟩

theorem rowsKept_refl (rows : List InstallationUpdateRun) : RowsKept rows rows :=
  fun row stored => ⟨row, stored, row.keeps_refl⟩

theorem jobsKept_refl (jobs : List Job) : ∀ job ∈ jobs, ∃ later ∈ jobs, job.Becomes later :=
  fun job stored => ⟨job, stored, job.becomes_refl⟩

/-- A thread whose copy has a row and that has nothing to store. -/
theorem Thread.linked_of_stored (isCopy : thread.copy = some copy)
    (silent : thread.accepting = none) (quiet : thread.polls = false) (stored : row ∈ rows)
    (keeps : copy.Keeps row) : thread.Linked names rows jobs := by
  refine ⟨?_, fun _ _ text isText => ?_, fun _ _ polls => ?_⟩
  · intro other isOther
    rw [isCopy] at isOther
    obtain rfl := Option.some.inj isOther
    exact ⟨row, stored, keeps⟩
  · rw [silent] at isText
    cases isText
  · rw [quiet] at polls
    cases polls

theorem Thread.linked_of_none (none : thread.copy = none) : thread.Linked names rows jobs := by
  refine ⟨?_, ?_, ?_⟩ <;> rw [none] <;> rintro _ ⟨⟩

theorem Thread.Linked.ownRow (linked : thread.Linked names table.rows jobs)
    (isCopy : thread.copy = some copy) (stored : row ∈ table.rows) (same : row.id = copy.id) :
    copy.Keeps row := by
  obtain ⟨own, ownStored, keeps⟩ := linked.stored copy isCopy
  obtain rfl := UpdateRuns.row_eq stored ownStored (same.trans keeps.id.symm)
  exact keeps

/-! ### Writes -/

/-- A write keeps the row with its job id, and stores only a job id that has the
key of the run. -/
theorem Thread.Writes.keeps (writes : Writes thread runId change next)
    (linked : thread.Linked names table.rows jobs) (named : RowsNamed names table.rows jobs)
    (distinct : (jobs.map Job.idempotencyKey).Nodup) (stored : row ∈ table.rows)
    (isRow : row.id = runId) :
    row.Keeps (change row) ∧
      ∀ text ∈ (change row).agentJobId, NamesJob names jobs text row.idempotencyKey := by
  cases writes with
  | begun => exact ⟨⟨rfl, fun _ known => known⟩, named row stored⟩
  | policy => exact ⟨⟨rfl, fun _ known => known⟩, named row stored⟩
  | failed => exact ⟨⟨rfl, fun _ known => known⟩, named row stored⟩
  | @accepted copy agentJobId origin =>
      have keeps : copy.Keeps row := linked.ownRow rfl stored isRow
      have isJob : NamesJob names jobs agentJobId row.idempotencyKey := by
        rw [keeps.key]
        exact linked.named copy rfl agentJobId rfl
      constructor
      · refine ⟨rfl, fun text known => ?_⟩
        rw [(named row stored text known).unique distinct isJob]
        rfl
      · rintro text ⟨⟩
        exact isJob
  | @saved copy =>
      have keeps : copy.Keeps row := linked.ownRow rfl stored isRow
      obtain ⟨text, known⟩ := Option.isSome_iff_exists.mp (linked.known copy rfl rfl)
      have rowKnown := keeps.2 text known
      constructor
      · refine ⟨keeps.1.symm, fun other isOther => ?_⟩
        rw [rowKnown] at isOther
        rw [known, Option.some.inj isOther]
      · intro other isOther
        exact named row stored other (keeps.2 other isOther)

/-- The thread behind a write has a copy of the written row. -/
theorem Thread.Writes.linked (writes : Writes thread runId change next)
    (linked : thread.Linked names rows jobs) {laterRows : List InstallationUpdateRun}
    (kept : RowsKept rows laterRows)
    (written : ∀ row ∈ rows, row.id = runId → change row ∈ laterRows) :
    ∀ thread ∈ next, thread.Linked names laterRows jobs := by
  intro behind member
  have mono := linked.mono kept (jobsKept_refl jobs)
  cases writes with
  | @begun copy =>
      obtain ⟨row, stored, keeps⟩ := mono.stored copy rfl
      obtain rfl := List.mem_singleton.mp member
      exact Thread.linked_of_stored rfl rfl rfl stored keeps
  | @policy copy =>
      obtain ⟨row, stored, keeps⟩ := mono.stored copy rfl
      obtain rfl := List.mem_singleton.mp member
      exact Thread.linked_of_stored rfl rfl rfl stored keeps
  | failed => cases member
  | saved => cases member
  | @accepted copy agentJobId origin =>
      obtain ⟨row, stored, keeps⟩ := linked.stored copy rfl
      obtain rfl := List.mem_singleton.mp member
      refine Thread.linked_of_stored rfl rfl rfl (written row stored keeps.id) ⟨keeps.1, ?_⟩
      rintro text ⟨⟩
      rfl

theorem rowsKept_of_save (writes : Thread.Writes thread runId change next)
    (linked : thread.Linked names table.rows jobs) (named : RowsNamed names table.rows jobs)
    (distinct : (jobs.map Job.idempotencyKey).Nodup)
    (saved : table.save runId change = some after) :
    RowsKept table.rows after.rows ∧ RowsNamed names after.rows jobs := by
  have rows := (UpdateRuns.save_eq_some.mp saved).2
  constructor
  · intro row stored
    by_cases isRow : row.id = runId
    · refine ⟨change row, ?_, (writes.keeps linked named distinct stored isRow).1⟩
      rw [rows]
      exact mem_updateWhere_of_selected stored isRow
    · refine ⟨row, ?_, row.keeps_refl⟩
      rw [rows]
      exact mem_updateWhere_of_not_selected stored isRow
  · intro later laterStored text known
    rw [rows] at laterStored
    obtain ⟨before, was, ⟨isRow, rfl⟩ | ⟨-, rfl⟩⟩ := mem_updateWhere.mp laterStored
    · obtain ⟨keeps, namesIt⟩ := writes.keeps linked named distinct was isRow
      rw [keeps.key]
      exact namesIt text known
    · exact named later was text known

/-! ### Steps -/

/-- A step of a thread keeps every row, and links what it goes on to. -/
theorem Thread.AdvanceStep.linked (steps : AdvanceStep context table thread after next)
    (linked : thread.Linked names table.rows jobs) (named : RowsNamed names table.rows jobs)
    (distinct : (jobs.map Job.idempotencyKey).Nodup) :
    RowsKept table.rows after.rows ∧ RowsNamed names after.rows jobs ∧
      ∀ thread ∈ next, thread.Linked names after.rows jobs := by
  have same : ∀ {behind : List Thread}, (∀ thread ∈ behind, thread.Linked names table.rows jobs) →
      RowsKept table.rows table.rows ∧ RowsNamed names table.rows jobs ∧
        ∀ thread ∈ behind, thread.Linked names table.rows jobs :=
    fun all => ⟨rowsKept_refl _, named, all⟩
  have goes : ∀ {behind : Thread}, behind.copy = thread.copy → behind.accepting = none →
      behind.polls = false → ∀ other ∈ [behind], other.Linked names table.rows jobs := by
    intro behind sameCopy silent quiet other member
    rw [List.mem_singleton.mp member]
    cases isCopy : thread.copy with
    | none => exact Thread.linked_of_none (sameCopy.trans isCopy)
    | some copy =>
        obtain ⟨row, stored, keeps⟩ := linked.stored copy isCopy
        exact Thread.linked_of_stored (sameCopy.trans isCopy) silent quiet stored keeps
  cases steps with
  | waits => exact same fun other member => List.mem_singleton.mp member ▸ linked
  | ends => exact same fun other member => absurd member List.not_mem_nil
  | @resumed _ row looks stored unknown active =>
      refine same fun other member => ?_
      rw [List.mem_singleton.mp member]
      exact Thread.linked_of_stored rfl rfl rfl stored row.keeps_refl
  | missing => exact same (goes rfl rfl rfl)
  | conflict => exact same (goes rfl rfl rfl)
  | created inserted =>
      have rows := (UpdateRuns.create_eq_some.mp inserted).2
      refine ⟨fun row stored => ⟨row, ?_, row.keeps_refl⟩, ?_, fun other member => ?_⟩
      · rw [rows]
        exact List.mem_append_left _ stored
      · intro row stored text known
        rw [rows] at stored
        rcases List.mem_append.mp stored with old | new
        · exact named row old text known
        · rw [List.mem_singleton.mp new] at known
          cases known
      · rw [List.mem_singleton.mp member]
        refine Thread.linked_of_stored rfl rfl rfl ?_ (InstallationUpdateRun.keeps_refl _)
        rw [rows]
        exact List.mem_append_right _ List.mem_cons_self
  | wrote writes saved =>
      obtain ⟨kept, stillNamed⟩ := rowsKept_of_save writes linked named distinct saved
      refine ⟨kept, stillNamed, writes.linked linked kept fun row stored isRow => ?_⟩
      rw [(UpdateRuns.save_eq_some.mp saved).2]
      exact mem_updateWhere_of_selected stored isRow
  | checked => exact same (goes rfl rfl rfl)
  | unavailable calls =>
      rcases calls with rfl | rfl
      · exact same (goes rfl rfl rfl)
      · exact same (goes rfl rfl rfl)
  | submitted configured => exact same (goes rfl rfl rfl)
  | @polled copy known running =>
      refine same fun other member => ?_
      rw [List.mem_singleton.mp member]
      refine ⟨linked.stored, fun _ _ _ accepting => (by cases accepting), ?_⟩
      rintro _ ⟨⟩ -
      exact InstallationUpdateRun.isSome_of_isAcknowledged known

/-- The id that an answer of the agent names. -/
theorem readJobId_jobPayload {job : Job} {payload : Fields} {text : String}
    (isPayload : jobPayload names job = some payload)
    (named : readJobId payload = some text) : text = names.text job.id := by
  have isId : Document.get "id" payload = .str (ofString (names.text job.id)) := by
    rw [Document.get, Document.lookup_fieldsOfJson isPayload]
    rfl
  rw [readJobId, isId, Document.matchedText, toText_ofString] at named
  split_ifs at named
  exact (Option.some.inj named).symm

/-- An answer links what the thread goes on to. -/
theorem Thread.AnswerStep.linked (steps : AnswerStep result thread next)
    (told : Told names system thread result) (registered : Registered system.agent)
    (linked : thread.Linked names rows system.agent.store.jobs) :
    ∀ thread ∈ next, thread.Linked names rows system.agent.store.jobs := by
  intro behind member
  have goes : ∀ {copy other : InstallationUpdateRun}, thread.copy = some copy →
      behind.copy = some other → behind.accepting = none → behind.polls = false →
      other.identity = copy.identity → other.agentJobId = copy.agentJobId →
      behind.Linked names rows system.agent.store.jobs := by
    intro copy other isCopy isOther silent quiet identity jobId
    obtain ⟨row, stored, keeps⟩ := linked.stored copy isCopy
    refine Thread.linked_of_stored isOther silent quiet stored ⟨keeps.1.trans identity.symm, ?_⟩
    rw [jobId]
    exact keeps.2
  cases steps with
  | working => exact List.mem_singleton.mp member ▸ linked
  | ends => cases member
  | failed calls =>
      obtain rfl := List.mem_singleton.mp member
      rcases calls with rfl | ⟨origin, rfl⟩
      · exact goes rfl rfl rfl rfl rfl rfl
      · exact goes rfl rfl rfl rfl rfl rfl
  | stopped terminal =>
      obtain rfl := List.mem_singleton.mp member
      exact goes rfl rfl rfl rfl rfl rfl
  | passed =>
      obtain rfl := List.mem_singleton.mp member
      exact goes rfl rfl rfl rfl rfl rfl
  | polled =>
      obtain rfl := List.mem_singleton.mp member
      exact goes rfl rfl rfl rfl rfl rfl
  | @accepted copy origin payload agentJobId returned named =>
      obtain rfl := List.mem_singleton.mp member
      refine ⟨linked.stored, ?_, fun _ _ polls => (by cases polls)⟩
      rintro _ ⟨⟩ _ ⟨⟩
      obtain ⟨answer, isAnswer, job, isNew, answered, sameKey, isPayload⟩ :=
        told.start copy origin payload rfl returned
      obtain ⟨known, jobKey, -⟩ := registered.answers answer isAnswer job isNew answered
      obtain ⟨storedJob, stored, identity⟩ := List.mem_map.mp known
      have sameId : storedJob.id = job.id := congrArg Prod.fst identity
      have storedKey : storedJob.idempotencyKey = job.idempotencyKey := congrArg (·.2.1) identity
      refine ⟨storedJob, stored, ?_, storedKey.trans (jobKey.trans sameKey)⟩
      rw [sameId, readJobId_jobPayload isPayload named]
  | @read copy synced payload returned reads =>
      obtain rfl := List.mem_singleton.mp member
      obtain ⟨identity, jobId, -⟩ := readUpdate_ok reads
      obtain ⟨row, stored, keeps⟩ := linked.stored copy rfl
      refine ⟨?_, fun _ _ _ accepting => (by cases accepting), ?_⟩
      · rintro _ ⟨⟩
        exact ⟨row, stored, keeps.1.trans identity.symm, jobId ▸ keeps.2⟩
      · rintro _ ⟨⟩ -
        rw [jobId]
        exact linked.known copy rfl rfl

theorem Linked.initial : Linked names {} where
  registered := Registered.initial
  named := fun _ stored => absurd stored List.not_mem_nil
  threads := fun _ member => absurd member List.not_mem_nil

/-- An action keeps every row with its job id, and the links. -/
theorem SystemStep.linked {reached : System}
    (steps : SystemStep config names system action reached) (linked : Linked names system) :
    Linked names reached ∧ RowsKept system.crm.table.rows reached.crm.table.rows := by
  obtain ⟨registered, named, threads⟩ := linked
  have kept := rowsKept_refl system.crm.table.rows
  have replaced : ∀ {index : Nat} {next : List Thread} {rows : List InstallationUpdateRun},
      RowsKept system.crm.table.rows rows →
      (∀ thread ∈ next, thread.Linked names rows system.agent.store.jobs) →
      ∀ thread ∈ replaceAt index next system.crm.threads,
        thread.Linked names rows system.agent.store.jobs := by
    intro index next rows rowsKept all thread member
    rcases mem_of_mem_replaceAt member with new | old
    · exact all thread new
    · exact (threads thread old).mono rowsKept (jobsKept_refl _)
  cases steps with
  | idle => exact ⟨⟨registered, named, threads⟩, kept⟩
  | started fresh =>
      refine ⟨⟨registered, named, fun thread member => ?_⟩, kept⟩
      rcases List.mem_append.mp member with old | new
      · exact threads thread old
      · rcases fresh thread new with ⟨target, key, rfl⟩ | ⟨row, stored, rfl | rfl⟩
        · exact Thread.linked_of_none rfl
        · exact Thread.linked_of_stored rfl rfl rfl stored row.keeps_refl
        · exact Thread.linked_of_stored rfl rfl rfl stored row.keeps_refl
  | @advanced index context thread found =>
      obtain ⟨rowsKept, stillNamed, next⟩ :=
        (thread.advanceStep context system.crm.table).linked
          (threads thread (List.mem_of_getElem? found)) named registered.keys
      exact ⟨⟨registered, stillNamed, replaced rowsKept next⟩, rowsKept⟩
  | @answered _ index thread result found told =>
      have next := (thread.answerStep result).linked told registered
        (threads thread (List.mem_of_getElem? found))
      exact ⟨⟨registered, named, replaced kept next⟩, kept⟩
  | dropped =>
      refine ⟨⟨registered, named, replaced kept ?_⟩, kept⟩
      exact fun thread member => absurd member List.not_mem_nil
  | @moved _ agentAction asked =>
      have progress := (registered.coherent.progress config agentAction).kept
      refine ⟨⟨step_registered config _ agentAction registered, ?_, ?_⟩, kept⟩
      · exact fun row stored text known => (named row stored text known).mono progress
      · exact fun thread member => (threads thread member).mono kept progress
  | expired => exact ⟨⟨registered, named, threads⟩, kept⟩
  | reported stored => exact ⟨⟨registered, named, threads⟩, kept⟩

theorem step_linked (config : Config) (system : System) (action : SystemAction)
    (linked : Linked names system) : Linked names (system.step config names action) :=
  ((systemStep config names system action).linked linked).1

/-! ### What stays -/

/-- A stored job id is neither erased nor replaced. -/
def KeepsJobId (before reached : System) : Prop :=
  ∀ row ∈ before.crm.table.rows, ∀ text ∈ row.agentJobId,
    ∃ later ∈ reached.crm.table.rows, later.id = row.id ∧ later.agentJobId = some text

/-- A stored terminal status stays. -/
def KeepsTerminal (before reached : System) : Prop :=
  ∀ row ∈ before.crm.table.rows, row.status.isTerminal = true →
    ∃ later ∈ reached.crm.table.rows, later.id = row.id ∧ later.status = row.status

instance (before reached : System) : Decidable (KeepsTerminal before reached) :=
  inferInstanceAs (Decidable (∀ row ∈ before.crm.table.rows, _))

/-- The run and the status that a thread is about to write. -/
def Thread.writtenStatus : Thread → Option (Nat × RunStatus)
  | .begin copy => some (copy.id, .preflight)
  | .fail copy _ status => some (copy.id, status)
  | .save copy => some (copy.id, copy.status)
  | _ => none

/-- The one-active constraint refuses the status for the run. -/
def UpdateRuns.Refuses (table : UpdateRuns) (runId : Nat) (status : RunStatus) : Prop :=
  status.isActive = true ∧ ∃ other ∈ table.rows, other.id ≠ runId ∧ other.status.isActive = true

instance (table : UpdateRuns) (runId : Nat) (status : RunStatus) :
    Decidable (table.Refuses runId status) :=
  inferInstanceAs (Decidable (_ ∧ _))

/-- The thread that takes a step of its own. -/
def System.advancing (system : System) (action : SystemAction) : Option Thread :=
  match action with
  | .crm (.advance index _) => system.crm.threads[index]?
  | _ => none

/-- A thread writes a status only while the row is active, or the same one, or
one that the table refuses. This excludes the races in which a status is written
from a copy that was loaded before the run ended: a poll that answers with an
older status, and a worker that begins, or fails, a run which is over by now. -/
def WritesInTime (system : System) (action : SystemAction) : Prop :=
  ∀ thread ∈ system.advancing action, ∀ written ∈ thread.writtenStatus,
    ∀ row ∈ system.crm.table.rows, row.id = written.1 → row.status.isTerminal = true →
      row.status = written.2 ∨ system.crm.table.Refuses written.1 written.2

/-- What a write makes of the status. -/
theorem Thread.Writes.status (writes : Writes thread runId change next)
    (row : InstallationUpdateRun) :
    thread.writtenStatus = none ∧ (change row).status = row.status ∨
      ∃ status, thread.writtenStatus = some (runId, status) ∧ (change row).status = status := by
  cases writes with
  | begun => exact Or.inr ⟨_, rfl, rfl⟩
  | policy => exact Or.inl ⟨rfl, rfl⟩
  | failed => exact Or.inr ⟨_, rfl, rfl⟩
  | accepted => exact Or.inl ⟨rfl, rfl⟩
  | saved => exact Or.inr ⟨_, rfl, rfl⟩

theorem Thread.Writes.sameId (writes : Writes thread runId change next) (isRow : row.id = runId) :
    (change row).id = row.id := by
  cases writes with
  | saved => exact isRow.symm
  | _ => rfl

theorem Thread.exists_writes {status : RunStatus}
    (written : thread.writtenStatus = some (runId, status)) :
    ∃ change next, Writes thread runId change next := by
  have isRun : ∀ {copy : InstallationUpdateRun} {other : RunStatus},
      some (copy.id, other) = some (runId, status) → copy.id = runId :=
    fun same => congrArg Prod.fst (Option.some.inj same)
  cases thread with
  | begin copy =>
      obtain rfl := isRun written
      exact ⟨_, _, .begun⟩
  | fail copy code ending =>
      obtain rfl := isRun written
      exact ⟨_, _, .failed⟩
  | save copy =>
      obtain rfl := isRun written
      exact ⟨_, _, .saved⟩
  | _ => cases written

/-- A thread that writes a status keeps the columns that the other constraints
are about. -/
theorem Thread.Linked.columns (linked : thread.Linked names table.rows jobs)
    (writes : Writes thread runId change next) (written : thread.writtenStatus.isSome = true)
    (stored : row ∈ table.rows) (same : row.id = runId) :
    (change row).identity = row.identity ∧ (change row).agentJobId = row.agentJobId := by
  cases writes with
  | begun => exact ⟨rfl, rfl⟩
  | failed => exact ⟨rfl, rfl⟩
  | policy => cases written
  | accepted => cases written
  | @saved copy =>
      have keeps := linked.ownRow rfl stored same
      obtain ⟨text, known⟩ := Option.isSome_iff_exists.mp (linked.known copy rfl rfl)
      exact ⟨keeps.1.symm, known.trans (keeps.2 text known).symm⟩

/-- The status is written to a row unless the constraint refuses it. -/
theorem Thread.Linked.save_isSome_iff (linked : thread.Linked names table.rows jobs)
    (writes : Writes thread runId change next) {status : RunStatus}
    (written : thread.writtenStatus = some (runId, status)) (stored : row ∈ table.rows)
    (same : row.id = runId) :
    (table.save runId change).isSome = true ↔ ¬ table.Refuses runId status := by
  subst same
  obtain ⟨identity, jobId⟩ := linked.columns writes (by rw [written]; rfl) stored rfl
  have isStatus : (change row).status = status := by
    rcases writes.status row with ⟨none, -⟩ | ⟨other, isOther, isStatus⟩
    · rw [written] at none
      cases none
    · rw [written] at isOther
      rw [isStatus, (Prod.mk.inj (Option.some.inj isOther)).2]
  rw [UpdateRuns.save_isSome stored identity jobId, isStatus]
  unfold UpdateRuns.Refuses
  simp only [not_and, not_exists, Bool.not_eq_true]

/-- What a step of a thread makes of the table. -/
theorem Thread.AdvanceStep.table_cases (steps : AdvanceStep context table thread after next) :
    after = table ∨ (∃ row, row.status = .requested ∧ table.create row = some after) ∨
      ∃ runId change, Writes thread runId change next ∧ table.save runId change = some after := by
  cases steps with
  | created inserted => exact Or.inr (Or.inl ⟨_, rfl, inserted⟩)
  | wrote writes saved => exact Or.inr (Or.inr ⟨_, _, writes, saved⟩)
  | _ => exact Or.inl rfl

/-- A step that writes in time keeps the terminal statuses. -/
theorem Thread.AdvanceStep.keepsTerminal (steps : AdvanceStep context table thread after next)
    (linked : thread.Linked names table.rows jobs)
    (inTime : ∀ written ∈ thread.writtenStatus, ∀ row ∈ table.rows, row.id = written.1 →
      row.status.isTerminal = true → row.status = written.2 ∨ table.Refuses written.1 written.2)
    (stored : row ∈ table.rows) (terminal : row.status.isTerminal = true) :
    ∃ later ∈ after.rows, later.id = row.id ∧ later.status = row.status := by
  rcases steps.table_cases with rfl | ⟨new, -, inserted⟩ | ⟨runId, change, writes, saved⟩
  · exact ⟨row, stored, rfl, rfl⟩
  · rw [(UpdateRuns.create_eq_some.mp inserted).2]
    exact ⟨row, List.mem_append_left _ stored, rfl, rfl⟩
  · rw [(UpdateRuns.save_eq_some.mp saved).2]
    by_cases isRow : row.id = runId
    · have member : change row ∈ updateWhere (·.id = runId) change table.rows :=
        mem_updateWhere_of_selected stored isRow
      rcases writes.status row with ⟨none, same⟩ | ⟨status, written, isStatus⟩
      · exact ⟨_, member, writes.sameId isRow, same⟩
      · rcases inTime _ written row stored isRow terminal with same | refused
        · exact ⟨_, member, writes.sameId isRow, isStatus.trans same.symm⟩
        · have accepted := (linked.save_isSome_iff writes written stored isRow).mp (by simp [saved])
          exact absurd refused accepted
    · exact ⟨row, mem_updateWhere_of_not_selected stored isRow, rfl, rfl⟩

theorem WritesInTime.keepsTerminal (inTime : WritesInTime system action)
    (linked : Linked names system) : KeepsTerminal system (system.step config names action) := by
  have steps := systemStep config names system action
  generalize system.step config names action = reached at steps
  intro row stored terminal
  cases steps with
  | @advanced index context thread found =>
      exact (thread.advanceStep context system.crm.table).keepsTerminal
        (linked.threads thread (List.mem_of_getElem? found)) (inTime thread found) stored terminal
  | _ => exact ⟨row, stored, rfl, rfl⟩

/-- A status that is written over another terminal one stays there. -/
theorem KeepsTerminal.writesInTime (keeps : KeepsTerminal system (system.step config names action))
    (linked : Linked names system) : WritesInTime system action := by
  rintro thread isThread ⟨runId, status⟩ written row stored same terminal
  unfold System.advancing at isThread
  split at isThread
  next index context =>
    rw [Option.mem_def] at isThread
    have linkedThread := linked.threads thread (List.mem_of_getElem? isThread)
    by_contra late
    rw [not_or] at late
    obtain ⟨change, next, writes⟩ := Thread.exists_writes written
    obtain ⟨after, saved⟩ := Option.isSome_iff_exists.mp
      ((linkedThread.save_isSome_iff writes written stored same).mpr late.2)
    have reached :
        (system.step config names (.crm (.advance index context))).crm.table = after := by
      simp only [System.step, System.crmStep, isThread, System.advance, Crm.advance, writes.advance,
        Thread.write, saved]
    obtain ⟨later, laterStored, laterId, laterStatus⟩ := keeps row stored terminal
    rw [reached] at laterStored
    have member : change row ∈ after.rows := by
      rw [(UpdateRuns.save_eq_some.mp saved).2]
      exact mem_updateWhere_of_selected stored same
    obtain rfl := UpdateRuns.row_eq laterStored member (laterId.trans (writes.sameId same).symm)
    rcases writes.status row with ⟨none, -⟩ | ⟨other, isOther, isStatus⟩
    · rw [written] at none
      cases none
    · rw [written] at isOther
      obtain ⟨-, rfl⟩ := Prod.mk.inj (Option.some.inj isOther)
      exact late.1 (laterStatus.symm.trans isStatus)
  · cases isThread

/-- In every interleaving of submissions, replays and polls, with the agent's
answers in any order: the stored agent job ids stay, and the terminal statuses
stay exactly when every status is written in time. -/
theorem terminal_runs_iff (config : Config) (names : JobNames) (actions : List SystemAction) :
    EveryStep (System.step config names)
        (fun system action => KeepsJobId system (system.step config names action)) {} actions ∧
      (EveryStep (System.step config names) WritesInTime {} actions ↔
        EveryStep (System.step config names)
          (fun system action => KeepsTerminal system (system.step config names action)) {}
          actions) := by
  constructor
  · apply everyStep_invariant (Linked names) (step_linked config) ?_ Linked.initial
    intro system action linked row stored text known
    obtain ⟨later, laterStored, keeps⟩ :=
      ((systemStep config names system action).linked linked).2 row stored
    exact ⟨later, laterStored, keeps.id, keeps.2 text known⟩
  · exact everyStep_congr (Linked names) (step_linked config)
      (fun _ _ linked => ⟨fun inTime => inTime.keepsTerminal linked,
        fun keeps => keeps.writesInTime linked⟩) Linked.initial actions

/-! ### A late save -/

def decimalNames : JobNames where
  text := Nat.repr
  injective := fun _ _ same => repr_injective same

def passingPreflight : Fields :=
  [(ofString "eligible", .bool true),
    (ofString "migration_policy", .str (ofString "online_safe"))]

/-- The first request, up to its start call. -/
def submitFirst : List SystemAction :=
  [.agent (.restart .returns), .crm submitRequest] ++
    List.replicate 4 (.crm (.advance 0 (ready 1))) ++
    [.crm (.answer 0 (.ok passingPreflight)), .crm (.advance 0 (ready 1)), .deliver 0]

/-- The agent accepts the first request and starts its worker. -/
def agentAccepts : List SystemAction :=
  ((UpdateAgent.eligibleRequest "key-00000001" 0).tail ++ UpdateAgent.startFirst 1).map .agent

/-- The adapter refuses the job at its preflight. -/
def jobFails : List SystemAction :=
  [.agent (.work 0 .returns), .agent (.work 0 (.raises (.agentError .adapter ""))),
    .agent (.work 0 .returns)]

/-- The submission polls before the job fails and saves after another poll has
stored the failure. -/
def latePoll : List SystemAction :=
  submitFirst ++ agentAccepts ++
    [.acknowledge 0 0, .crm (.advance 0 (ready 1)), .crm (.advance 0 (ready 1)),
      .agent (.work 0 .returns), .report 1] ++ jobFails ++
    [.report 1, .crm (.poll 1), .crm (.advance 1 (ready 1)), .inform 1 1,
      .crm (.advance 1 (ready 1)), .inform 0 0, .crm (.advance 0 (ready 1))]

theorem terminal_runs_not_kept : ¬ ∀ (config : Config) (names : JobNames) actions,
    EveryStep (System.step config names)
      (fun system action => KeepsTerminal system (system.step config names action)) {} actions := by
  intro always
  exact absurd (always UpdateAgent.installed decimalNames latePoll) (by decide +kernel)

end BubllioCrm.Onboarding
