import BubllioCrm.Onboarding.Steps
import BubllioCrm.UpdateAgent.Reports

/-!
Owns the CRM and the update agent together, with the start requests and the job
reports between them: any request may be lost, delayed or delivered again, and
so may any answer.

The agent answers a start call with the job of its own `start`, and a poll with
a row that its store has held. A call of the CRM may fail at any moment, whether
the agent has served it or not. Preflight and status answers are left open.
-/

namespace BubllioCrm.Onboarding

open BubllioCrm.Foundations
open BubllioCrm.UpdateAgent (Agent Answer Config Job StableVersion)

/-- The texts of the job ids. -/
structure JobNames where
  text : Nat → String
  injective : Function.Injective text

structure StartRequest where
  targetVersion : String
  idempotencyKey : String
deriving DecidableEq

structure System where
  crm : Crm := {}
  agent : Agent := {}
  /-- The copies of start requests on their way. -/
  requests : List StartRequest := []
  /-- The rows that polls were answered with. -/
  reports : List Job := []

inductive SystemAction where
  | crm (action : CrmAction)
  | agent (action : UpdateAgent.Action)
  /-- A start request reaches the agent, and may do so again. -/
  | deliver (index : Nat)
  | expire (index : Nat)
  /-- A start call gets an answer of the agent. -/
  | acknowledge (index answerIndex : Nat)
  /-- The agent answers a poll for a job. -/
  | report (jobId : Nat)
  /-- A poll gets one of the answers. -/
  | inform (index reportIndex : Nat)

/-- The start request that a thread sends by its next step. -/
def Thread.sends (context : Context) : Thread → List StartRequest
  | .submit copy _ =>
      if context.configured then
        [{ targetVersion := copy.targetVersion, idempotencyKey := copy.idempotencyKey }]
      else []
  | _ => []

/-- The result is one that the agent has no part in. -/
def Thread.isOpen (result : Except ClientError Fields) (thread : Thread) : Bool :=
  match thread, result with
  | .awaitStart _ _, .ok _ => false
  | .awaitUpdate _, .ok _ => false
  | _, _ => true

/-- What the CRM reads of the public form of a job, if the agent can write it. -/
def jobPayload (names : JobNames) (job : Job) : Option Fields :=
  Document.fieldsOfJson (job.publicDict names.text)

/-- The payload that an answer of the agent brings to a start call. -/
def startPayload (names : JobNames) (copy : InstallationUpdateRun) (answer : Answer) :
    Option Fields :=
  match StableVersion.parse (.str copy.targetVersion), answer.result with
  | .ok target, .ok (job, _) =>
      if answer.key = copy.idempotencyKey ∧ answer.target = target then
        jobPayload names job
      else none
  | _, _ => none

namespace System

def advance (index : Nat) (context : Context) (thread : Thread) (system : System) : System :=
  { system with
    crm := system.crm.advance index context thread
    requests := system.requests ++ thread.sends context }

def answer (index : Nat) (result : Except ClientError Fields) (thread : Thread)
    (system : System) : System :=
  { system with crm := system.crm.answer index result thread }

def moveAgent (config : Config) (action : UpdateAgent.Action) (system : System) : System :=
  { system with agent := system.agent.step config action }

def crmStep (system : System) (action : CrmAction) : System :=
  match action with
  | .advance index context =>
      match system.crm.threads[index]? with
      | some thread => system.advance index context thread
      | none => system
  | .answer index result =>
      match system.crm.threads[index]? with
      | some thread => if thread.isOpen result then system.answer index result thread else system
      | none => system
  | action => { system with crm := system.crm.step action }

/-- The system after an action. An action for something that is not there
changes nothing. -/
def step (config : Config) (names : JobNames) (system : System) (action : SystemAction) : System :=
  match action with
  | .crm action => system.crmStep action
  | .agent (.request _ _) => system
  | .agent action => system.moveAgent config action
  | .deliver index =>
      match system.requests[index]? with
      | some request =>
          match StableVersion.parse (.str request.targetVersion) with
          | .ok target => system.moveAgent config (.request target request.idempotencyKey)
          | .error _ => system
      | none => system
  | .expire index => { system with requests := replaceAt index [] system.requests }
  | .acknowledge index answerIndex =>
      match system.crm.threads[index]?, system.agent.answers[answerIndex]? with
      | some (.awaitStart copy origin), some answer =>
          match startPayload names copy answer with
          | some payload => system.answer index (.ok payload) (.awaitStart copy origin)
          | none => system
      | _, _ => system
  | .report jobId =>
      { system with
        reports := system.reports ++ (system.agent.store.jobs.find? (·.id = jobId)).toList }
  | .inform index reportIndex =>
      match system.crm.threads[index]?, system.reports[reportIndex]? with
      | some (.awaitUpdate copy), some job =>
          match jobPayload names job with
          | some payload =>
              if copy.agentJobId = some (names.text job.id) then
                system.answer index (.ok payload) (.awaitUpdate copy)
              else system
          | none => system
      | _, _ => system

end System

/-! ### What an action does -/

/-- What a successful answer says about the agent. -/
structure Told (names : JobNames) (system : System) (thread : Thread)
    (result : Except ClientError Fields) : Prop where
  start : ∀ copy origin payload, thread = .awaitStart copy origin → result = .ok payload →
    ∃ answer ∈ system.agent.answers, ∃ job isNew, answer.result = .ok (job, isNew) ∧
      answer.key = copy.idempotencyKey ∧ jobPayload names job = some payload
  update : ∀ copy payload, thread = .awaitUpdate copy → result = .ok payload →
    ∃ job ∈ system.reports, copy.agentJobId = some (names.text job.id) ∧
      jobPayload names job = some payload

inductive SystemStep (config : Config) (names : JobNames) (system : System) :
    SystemAction → System → Prop where
  | idle {action : SystemAction} : SystemStep config names system action system
  | started {action : SystemAction} {next : List Thread}
      (fresh : ∀ thread ∈ next, (∃ target key, thread = .lookup target key) ∨
        ∃ row ∈ system.crm.table.rows, thread = .sync row ∨ thread = .awaitStatus row) :
      SystemStep config names system action { system with crm := system.crm.start next }
  | advanced {index : Nat} {context : Context} {thread : Thread}
      (found : system.crm.threads[index]? = some thread) :
      SystemStep config names system (.crm (.advance index context))
        (system.advance index context thread)
  | answered {action : SystemAction} {index : Nat} {thread : Thread}
      {result : Except ClientError Fields} (found : system.crm.threads[index]? = some thread)
      (told : Told names system thread result) :
      SystemStep config names system action (system.answer index result thread)
  | dropped {action : SystemAction} {index : Nat} :
      SystemStep config names system action { system with crm := system.crm.step (.drop index) }
  | moved {action : SystemAction} {agentAction : UpdateAgent.Action}
      (asked : ∀ target key, agentAction = .request target key →
        ∃ request ∈ system.requests, request.idempotencyKey = key) :
      SystemStep config names system action (system.moveAgent config agentAction)
  | expired {action : SystemAction} {index : Nat} :
      SystemStep config names system action
        { system with requests := replaceAt index [] system.requests }
  | reported {action : SystemAction} {reports : List Job}
      (stored : ∀ job ∈ reports, job ∈ system.agent.store.jobs) :
      SystemStep config names system action
        { system with reports := system.reports ++ reports }

section
variable {config : Config} {names : JobNames} {system : System} {thread : Thread}
  {result : Except ClientError Fields}

/-- An answer that the agent has no part in tells nothing. -/
theorem told_of_open (isOpen : thread.isOpen result = true) : Told names system thread result := by
  constructor
  · rintro copy origin payload rfl rfl
    cases isOpen
  · rintro copy payload rfl rfl
    cases isOpen

theorem startPayload_eq_some {copy : InstallationUpdateRun} {answer : Answer} {payload : Fields}
    (brought : startPayload names copy answer = some payload) :
    ∃ job isNew, answer.result = .ok (job, isNew) ∧ answer.key = copy.idempotencyKey ∧
      jobPayload names job = some payload := by
  unfold startPayload at brought
  split at brought
  next target job isNew _ returned =>
    split_ifs at brought with same
    exact ⟨job, isNew, returned, same.1, brought⟩
  · cases brought

theorem crm_systemStep (action : CrmAction) :
    SystemStep config names system (.crm action) (system.crmStep action) := by
  cases action with
  | request installed target key =>
      simp only [System.crmStep, Crm.step, Crm.request]
      split_ifs
      · exact .started (by simp)
      · exact .idle
  | poll runId =>
      apply SystemStep.started
      intro thread member
      obtain ⟨row, found, rfl⟩ := Option.map_eq_some_iff.mp (Option.mem_toList.mp member)
      exact Or.inr ⟨row, List.mem_of_find?_eq_some found, Or.inl rfl⟩
  | pollStatus configured =>
      simp only [System.crmStep, Crm.step, Crm.pollStatus]
      split_ifs
      · apply SystemStep.started
        intro thread member
        obtain ⟨row, found, rfl⟩ := Option.map_eq_some_iff.mp (Option.mem_toList.mp member)
        exact Or.inr ⟨row, List.mem_of_find?_eq_some found, Or.inr rfl⟩
      · exact .idle
  | advance index context =>
      simp only [System.crmStep]
      cases found : system.crm.threads[index]? with
      | none => exact .idle
      | some thread => exact .advanced found
  | answer index result =>
      simp only [System.crmStep]
      cases found : system.crm.threads[index]? with
      | none => exact .idle
      | some thread =>
          simp only
          split_ifs with isOpen
          · exact .answered found (told_of_open isOpen)
          · exact .idle
  | drop index => exact .dropped

theorem deliver_systemStep (index : Nat) :
    SystemStep config names system (.deliver index)
      (system.step config names (.deliver index)) := by
  simp only [System.step]
  cases found : system.requests[index]? with
  | none => exact .idle
  | some request =>
      simp only
      cases StableVersion.parse (.str request.targetVersion) with
      | error error => exact .idle
      | ok target =>
          apply SystemStep.moved
          rintro target key ⟨⟩
          exact ⟨request, List.mem_of_getElem? found, rfl⟩

theorem acknowledge_systemStep (index answerIndex : Nat) :
    SystemStep config names system (.acknowledge index answerIndex)
      (system.step config names (.acknowledge index answerIndex)) := by
  simp only [System.step]
  split
  next copy origin answer found answered =>
    cases brought : startPayload names copy answer with
    | none => exact .idle
    | some payload =>
        refine .answered found ⟨?_, fun _ _ awaits => by cases awaits⟩
        rintro _ _ _ ⟨⟩ ⟨⟩
        obtain ⟨job, isNew, returned, sameKey, isPayload⟩ := startPayload_eq_some brought
        exact ⟨answer, List.mem_of_getElem? answered, job, isNew, returned, sameKey, isPayload⟩
  · exact .idle

theorem inform_systemStep (index reportIndex : Nat) :
    SystemStep config names system (.inform index reportIndex)
      (system.step config names (.inform index reportIndex)) := by
  simp only [System.step]
  split
  next copy job found reported =>
    cases isPayload : jobPayload names job with
    | none => exact .idle
    | some payload =>
        simp only
        split_ifs with named
        · refine .answered found ⟨fun _ _ _ awaits => (by cases awaits), ?_⟩
          rintro _ _ ⟨⟩ ⟨⟩
          exact ⟨job, List.mem_of_getElem? reported, named, isPayload⟩
        · exact .idle
  · exact .idle

theorem systemStep (config : Config) (names : JobNames) (system : System) (action : SystemAction) :
    SystemStep config names system action (system.step config names action) := by
  cases action with
  | crm action => exact crm_systemStep action
  | deliver index => exact deliver_systemStep index
  | expire index => exact .expired
  | acknowledge index answerIndex => exact acknowledge_systemStep index answerIndex
  | inform index reportIndex => exact inform_systemStep index reportIndex
  | report jobId =>
      apply SystemStep.reported
      intro job member
      exact List.mem_of_find?_eq_some (Option.mem_toList.mp member)
  | agent action =>
      cases action with
      | request target key => exact .idle
      | _ => exact .moved (fun _ _ asks => by cases asks)

end

end BubllioCrm.Onboarding
