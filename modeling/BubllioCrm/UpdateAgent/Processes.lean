import BubllioCrm.UpdateAgent.Steps

/-!
Owns the processes of the update agent on one state directory: the lifetime
lock, the recovery behind it, the threads of each process, and what ends them.

Does not own what the file of the lock holds, and whether a process may trust
it. Threads are daemons: they run until their process ends, also when its lock
has been released.
-/

namespace BubllioCrm.UpdateAgent

open BubllioCrm.Foundations

/-- How far a process has come in `main`. -/
inductive ProcessPhase where
  | absent
  /-- `AgentProcessLock.acquire` has returned. -/
  | locked
  | serving
  /-- The server is closed and the lock released, and the process has not ended. -/
  | closing
deriving DecidableEq

def ProcessPhase.hasLock : ProcessPhase → Bool
  | .absent => false
  | .locked => true
  | .serving => true
  | .closing => false

/-- The process has had its server started. -/
def ProcessPhase.served : ProcessPhase → Bool
  | .absent => false
  | .locked => false
  | .serving => true
  | .closing => true

structure Process where
  phase : ProcessPhase := .absent
  calls : List StartCall := []
  workers : List Worker := []

/-- What all processes share, and what each of them has of its own. -/
structure Machine where
  store : Store := {}
  answers : List Answer := []
  history : Nat → List Entry := fun _ => []
  written : List StableVersion := []
  /-- The process whose descriptor has the `flock`. -/
  holder : Option Nat := none
  processes : Nat → Process := fun _ => {}

inductive ProcessAction where
  | acquire (process : Nat)
  | recover (process : Nat) (outcome : Outcome)
  /-- A request, or the next step of a thread. -/
  | run (process : Nat) (action : Action)
  /-- `serve_forever` is left by an interrupt, and the lock by its `with`. -/
  | interrupt (process : Nat)
  /-- The process ends, of itself or by a signal. -/
  | exit (process : Nat)

def ProcessAction.process : ProcessAction → Nat
  | .acquire process => process
  | .recover process _ => process
  | .run process _ => process
  | .interrupt process => process
  | .exit process => process

/-- A process in the phase can take the action. A closed server accepts no
request. -/
def ProcessPhase.runs (phase : ProcessPhase) : Action → Bool
  | .crash => false
  | .restart _ => false
  | .request _ _ => phase = .serving
  | _ => phase.served

namespace Machine

/-- The agent as one process has it before it. -/
def view (machine : Machine) (process : Nat) : Agent where
  store := machine.store
  calls := (machine.processes process).calls
  workers := (machine.processes process).workers
  serving := (machine.processes process).phase.served
  answers := machine.answers
  history := machine.history
  written := machine.written

/-- The machine after an action of a process. -/
def record (process : Nat) (phase : ProcessPhase) (agent : Agent) (machine : Machine) : Machine :=
  { machine with
    store := agent.store
    answers := agent.answers
    history := agent.history
    written := agent.written
    processes := Function.update machine.processes process {
      phase := phase
      calls := agent.calls
      workers := agent.workers } }

def release (process : Nat) (machine : Machine) : Machine :=
  { machine with holder := if machine.holder = some process then none else machine.holder }

/-- `AgentProcessLock.acquire`: a lock that another process has is not waited for. -/
def acquire (process : Nat) (machine : Machine) : Machine :=
  match (machine.processes process).phase, machine.holder with
  | .absent, none =>
      { machine with
        holder := some process
        processes := Function.update machine.processes process { phase := .locked } }
  | _, _ => machine

/-- `recover_interrupted` of a process that has the lock. One that fails leaves
the lock and ends. -/
def recover (process : Nat) (outcome : Outcome) (machine : Machine) : Machine :=
  match (machine.processes process).phase, outcome with
  | .locked, .returns =>
      machine.record process .serving ((machine.view process).restart .returns)
  | .locked, outcome =>
      (machine.record process .absent ((machine.view process).restart outcome)).release process
  | _, _ => machine

def interrupt (process : Nat) (machine : Machine) : Machine :=
  match (machine.processes process).phase with
  | .serving =>
      (machine.record process .closing (machine.view process)).release process
  | _ => machine

/-- The end of a process ends its threads, and the kernel releases its lock. -/
def exit (process : Nat) (machine : Machine) : Machine :=
  match (machine.processes process).phase with
  | .absent => machine
  | _ => (machine.record process .absent (machine.view process).crash).release process

/-- An action that does not fit the process changes nothing. -/
def step (config : Config) (machine : Machine) : ProcessAction → Machine
  | .acquire process => machine.acquire process
  | .recover process outcome => machine.recover process outcome
  | .run process action =>
      if (machine.processes process).phase.runs action then
        machine.record process (machine.processes process).phase
          ((machine.view process).step config action)
      else machine
  | .interrupt process => machine.interrupt process
  | .exit process => machine.exit process

end Machine

/-! ### Serving -/

section Serving

variable {agent : Agent} {index : Nat} {outcome : Outcome} {worker : Worker}

theorem serving_storeCall {number : Nat} {committed : Option Agent}
    (same : ∀ done ∈ committed, done.serving = agent.serving) :
    (agent.storeCall index number worker outcome committed).serving = agent.serving := by
  unfold Agent.storeCall
  cases committed with
  | none => rfl
  | some done =>
      cases outcome with
      | returns => exact same done rfl
      | raises exception => rfl
      | commitsAndRaises exception => exact same done rfl

theorem serving_recordState {jobId : Nat} {change : JobUpdate} :
    ∀ done ∈ agent.recordState jobId change, done.serving = agent.serving := by
  intro done isDone
  have ⟨store, _, same⟩ := Option.map_eq_some_iff.mp isDone
  rw [← same]
  rfl

theorem serving_execute {number : Nat} :
    (agent.execute index number worker outcome).serving = agent.serving := by
  unfold Agent.execute
  split
  · rfl
  · exact serving_storeCall serving_recordState
  · rfl
  · rfl
  · apply serving_storeCall
    intro done isDone
    rw [← Option.some.inj isDone]
    rfl

theorem serving_finishAdapter {number : Nat} :
    (agent.finishAdapter index number worker outcome).serving = agent.serving := by
  unfold Agent.finishAdapter
  split
  · rfl
  · rfl
  · rfl
  · rfl

theorem serving_handleFailure {exception : Raised} :
    (agent.handleFailure index worker exception outcome).serving = agent.serving := by
  unfold Agent.handleFailure
  split
  · rfl
  · rename_i change _
    cases recorded : agent.recordState worker.jobId change with
    | none => rfl
    | some done =>
        have same := serving_recordState done recorded
        cases outcome with
        | returns => exact same
        | raises exception => rfl
        | commitsAndRaises exception => exact same

theorem serving_work : (agent.work index worker outcome).serving = agent.serving := by
  unfold Agent.work
  split
  · exact serving_execute
  · exact serving_finishAdapter
  · exact serving_handleFailure

/-- Only a crash and a recovery start or stop an agent. -/
theorem serving_step (config : Config) (phase : ProcessPhase) {action : Action}
    (runs : phase.runs action = true) :
    (agent.step config action).serving = agent.serving := by
  cases action with
  | request target key =>
      simp only [Agent.step, Agent.request]
      split_ifs <;> rfl
  | lookup index outcome =>
      simp only [Agent.step]
      split
      · unfold Agent.lookup
        split
        · rfl
        · rfl
        · split
          · rfl
          · split_ifs <;> rfl
      · rfl
  | verify index material =>
      simp only [Agent.step]
      split
      · unfold Agent.verify
        split
        · rfl
        · split
          · rfl
          · rfl
      · rfl
  | preflight index outcome =>
      simp only [Agent.step]
      split
      · cases outcome <;> rfl
      · rfl
  | readSource index outcome =>
      simp only [Agent.step]
      split
      · cases outcome <;> rfl
      · rfl
  | createJob index jobId outcome =>
      simp only [Agent.step]
      split
      · unfold Agent.createJob
        split <;> rfl
      · rfl
  | spawn index outcome =>
      simp only [Agent.step]
      split
      · cases outcome <;> rfl
      · rfl
  | work index outcome =>
      simp only [Agent.step]
      split
      · exact serving_work
      · rfl
  | crash => cases runs
  | restart outcome => cases runs

end Serving

/-! ### Locks -/

/-- The lock is of the process that has it, and a process that has not served
has no threads. -/
structure Machine.Sound (machine : Machine) : Prop where
  holder : ∀ process, machine.holder = some process ↔
    (machine.processes process).phase.hasLock = true
  idle : ∀ process, (machine.processes process).phase.served = false →
    (machine.processes process).calls = [] ∧ (machine.processes process).workers = []

variable {machine : Machine} {process other : Nat} {phase : ProcessPhase} {agent : Agent}
  {config : Config} {outcome : Outcome}

theorem Machine.Sound.initial : ({} : Machine).Sound where
  holder _ := ⟨nofun, nofun⟩
  idle _ _ := ⟨rfl, rfl⟩

/-- A process that is recorded in a phase of the same standing. -/
theorem Machine.Sound.record (sound : machine.Sound)
    (standing : machine.holder = some process ↔ phase.hasLock = true)
    (idle : phase.served = false → agent.calls = [] ∧ agent.workers = []) :
    (machine.record process phase agent).Sound := by
  constructor
  · intro other
    show machine.holder = some other ↔
      (Function.update machine.processes process _ other).phase.hasLock = true
    by_cases same : other = process
    · rw [same, Function.update_self]
      exact standing
    · rw [Function.update_of_ne same]
      exact sound.holder other
  · intro other
    show (Function.update machine.processes process _ other).phase.served = false → _
    unfold Machine.record
    by_cases same : other = process
    · simp only [same, Function.update_self]
      exact idle
    · simp only [Function.update_of_ne same]
      exact sound.idle other

/-- A process that is recorded without the lock, and releases it. -/
theorem Machine.Sound.release (sound : machine.Sound) (unlocked : phase.hasLock = false)
    (idle : phase.served = false → agent.calls = [] ∧ agent.workers = []) :
    ((machine.record process phase agent).release process).Sound := by
  constructor
  · intro other
    show (if machine.holder = some process then none else machine.holder) = some other ↔
      (Function.update machine.processes process _ other).phase.hasLock = true
    by_cases same : other = process
    · rw [same, Function.update_self]
      simp only [unlocked, Bool.false_eq_true, iff_false]
      split_ifs with held
      · exact nofun
      · exact held
    · rw [Function.update_of_ne same, ← sound.holder other]
      split_ifs with held
      · rw [held, Option.some.injEq]
        exact iff_of_false nofun fun isOther => same isOther.symm
      · rfl
  · intro other
    show (Function.update machine.processes process _ other).phase.served = false → _
    unfold Machine.release Machine.record
    by_cases same : other = process
    · simp only [same, Function.update_self]
      exact idle
    · simp only [Function.update_of_ne same]
      exact sound.idle other

theorem Machine.Sound.acquire (sound : machine.Sound) : (machine.acquire process).Sound := by
  unfold Machine.acquire
  split
  · rename_i isAbsent free
    have nobody : ∀ other, (machine.processes other).phase.hasLock = false := by
      intro other
      have standing := sound.holder other
      rw [free] at standing
      simpa using standing
    constructor
    · intro other
      show some process = some other ↔
        (Function.update machine.processes process _ other).phase.hasLock = true
      by_cases same : other = process
      · rw [same, Function.update_self]
        exact iff_of_true rfl rfl
      · rw [Function.update_of_ne same, nobody other, Option.some.injEq]
        exact iff_of_false (fun isOther => same isOther.symm) nofun
    · intro other
      show (Function.update machine.processes process _ other).phase.served = false → _
      by_cases same : other = process
      · simp only [same, Function.update_self]
        exact fun _ => ⟨trivial, trivial⟩
      · simp only [Function.update_of_ne same]
        exact sound.idle other
  · exact sound

theorem view_stopped (notServed : (machine.processes process).phase.served = false) :
    (machine.view process).serving = false :=
  notServed

/-- A recovery that does not return leaves the agent stopped, with the threads
it had. -/
theorem restart_stopped (stopped : agent.serving = false) (notReturned : outcome ≠ .returns) :
    (agent.restart outcome).serving = false ∧ (agent.restart outcome).calls = agent.calls ∧
      (agent.restart outcome).workers = agent.workers := by
  unfold Agent.restart
  rw [stopped]
  cases outcome with
  | returns => exact absurd rfl notReturned
  | raises exception => exact ⟨stopped, rfl, rfl⟩
  | commitsAndRaises exception => exact ⟨rfl, rfl, rfl⟩

theorem restart_returns (stopped : agent.serving = false) :
    (agent.restart .returns).serving = true := by
  unfold Agent.restart
  rw [stopped]
  rfl

/-- What a recovery does, where it is one. -/
theorem recover_cases (machine : Machine) (process : Nat) (outcome : Outcome) :
    machine.recover process outcome = machine ∨
      (machine.processes process).phase = .locked ∧
        (outcome = .returns ∧ machine.recover process outcome =
            machine.record process .serving ((machine.view process).restart .returns) ∨
          outcome ≠ .returns ∧ machine.recover process outcome =
            (machine.record process .absent ((machine.view process).restart outcome)).release
              process) := by
  unfold Machine.recover
  cases phase : (machine.processes process).phase with
  | locked =>
      cases outcome with
      | returns => exact .inr ⟨rfl, .inl ⟨rfl, rfl⟩⟩
      | raises exception => exact .inr ⟨rfl, .inr ⟨nofun, rfl⟩⟩
      | commitsAndRaises exception => exact .inr ⟨rfl, .inr ⟨nofun, rfl⟩⟩
  | absent => exact .inl rfl
  | serving => exact .inl rfl
  | closing => exact .inl rfl

theorem Machine.Sound.recover (sound : machine.Sound) :
    (machine.recover process outcome).Sound := by
  rcases recover_cases machine process outcome with
    same | ⟨isLocked, ⟨-, recovers⟩ | ⟨notReturned, recovers⟩⟩
  · rw [same]
    exact sound
  · rw [recovers]
    refine sound.record ?_ nofun
    have standing := sound.holder process
    rw [isLocked] at standing
    exact standing
  · rw [recovers]
    have threads := sound.idle process (by rw [isLocked]; rfl)
    have stopped := view_stopped (by rw [isLocked]; rfl)
    have ⟨_, sameCalls, sameWorkers⟩ := restart_stopped stopped notReturned
    exact sound.release rfl fun _ => ⟨sameCalls.trans threads.1, sameWorkers.trans threads.2⟩

theorem Machine.Sound.run {action : Action} (sound : machine.Sound)
    (runs : (machine.processes process).phase.runs action = true) :
    (machine.record process (machine.processes process).phase
      ((machine.view process).step config action)).Sound := by
  apply sound.record (sound.holder process)
  intro notServed
  cases action with
  | request target key =>
      simp only [ProcessPhase.runs, decide_eq_true_eq] at runs
      rw [runs] at notServed
      cases notServed
  | crash => cases runs
  | restart outcome => cases runs
  | _ => exact absurd (notServed.symm.trans runs) nofun

theorem Machine.Sound.step (sound : machine.Sound) (action : ProcessAction) :
    (machine.step config action).Sound := by
  cases action with
  | acquire process => exact sound.acquire
  | recover process outcome => exact sound.recover
  | run process action =>
      simp only [Machine.step]
      split_ifs with runs
      · exact sound.run runs
      · exact sound
  | interrupt process =>
      simp only [Machine.step, Machine.interrupt]
      split
      · exact sound.release rfl nofun
      · exact sound
  | exit process =>
      simp only [Machine.step, Machine.exit]
      split
      · exact sound
      · exact sound.release rfl fun _ => ⟨rfl, rfl⟩

/-! ### One agent -/

/-- The machine is one agent: only one process is there, if any, and the agent
is what that process has before it. -/
def Machine.Is (machine : Machine) (agent : Agent) : Prop :=
  ∃ process, agent = machine.view process ∧
    ∀ other, other ≠ process → machine.processes other = {}

/-- The condition on an action: a process takes the lock only when every process
that released it has ended. -/
def TakesOverAlone (machine : Machine) (action : ProcessAction) : Prop :=
  ∀ process, action = .acquire process → (machine.processes process).phase = .absent →
    machine.holder = none → ∀ other, (machine.processes other).phase ≠ .closing

theorem Process.eq_empty {state : Process} (isAbsent : state.phase = .absent)
    (noCalls : state.calls = []) (noWorkers : state.workers = []) : state = {} := by
  cases state
  simp_all

theorem view_record (phase : ProcessPhase) (serving : agent.serving = phase.served) :
    (machine.record process phase agent).view process = agent := by
  unfold Machine.view Machine.record
  simp only [Function.update_self, ← serving]

/-- What one process does is what the agent does, if it is the one process. -/
theorem is_record (others : ∀ other, other ≠ process → machine.processes other = {})
    (serving : agent.serving = phase.served) : (machine.record process phase agent).Is agent := by
  refine ⟨process, (view_record phase serving).symm, fun other differs => ?_⟩
  show Function.update machine.processes process _ other = {}
  rw [Function.update_of_ne differs]
  exact others other differs

theorem is_release (is : machine.Is agent) : (machine.release process).Is agent :=
  is

/-- A process that is not there does nothing but take the lock. -/
theorem step_of_empty {action : ProcessAction}
    (isEmpty : machine.processes action.process = {})
    (notAcquire : action ≠ .acquire action.process) : machine.step config action = machine := by
  cases action with
  | acquire process => exact absurd rfl notAcquire
  | recover process outcome =>
      simp only [ProcessAction.process] at isEmpty
      simp [Machine.step, Machine.recover, isEmpty]
  | run process action =>
      simp only [ProcessAction.process] at isEmpty
      have stays : (machine.processes process).phase.runs action = false := by
        rw [isEmpty]
        cases action <;> rfl
      simp [Machine.step, stays]
  | interrupt process =>
      simp only [ProcessAction.process] at isEmpty
      simp [Machine.step, Machine.interrupt, isEmpty]
  | exit process =>
      simp only [ProcessAction.process] at isEmpty
      simp [Machine.step, Machine.exit, isEmpty]

/-- The machine is an agent that some actions lead to. -/
def Machine.Reaches (config : Config) (machine : Machine) : Prop :=
  ∃ actions, machine.Is (run (Agent.step config) {} actions)

theorem Machine.Reaches.next {after : Machine} (reaches : machine.Reaches config)
    (simulates : ∀ agent, machine.Is agent →
      ∃ actions, after.Is (run (Agent.step config) agent actions)) : after.Reaches config := by
  have ⟨before, is⟩ := reaches
  have ⟨actions, simulated⟩ := simulates _ is
  refine ⟨before ++ actions, ?_⟩
  rw [run_append]
  exact simulated

/-- A process that takes the lock finds the one agent without threads. -/
theorem acquire_simulates (sound : machine.Sound) (is : machine.Is agent)
    (alone : TakesOverAlone machine (.acquire process)) :
    (machine.acquire process).Is agent := by
  unfold Machine.acquire
  split
  · rename_i isAbsent free
    have ⟨last, isView, others⟩ := is
    have lastAbsent : (machine.processes last).phase = .absent := by
      have standing := sound.holder last
      rw [free] at standing
      have notClosing := alone process rfl isAbsent free last
      cases phase : (machine.processes last).phase with
      | absent => rfl
      | locked => simp [phase, ProcessPhase.hasLock] at standing
      | serving => simp [phase, ProcessPhase.hasLock] at standing
      | closing => exact absurd phase notClosing
    have threads := sound.idle last (by rw [lastAbsent]; rfl)
    have isEmpty := Process.eq_empty lastAbsent threads.1 threads.2
    refine ⟨process, ?_, fun other differs => ?_⟩
    · rw [isView]
      unfold Machine.view
      simp only [isEmpty, Function.update_self]
      rfl
    · show Function.update machine.processes process _ other = {}
      rw [Function.update_of_ne differs]
      by_cases isLast : other = last
      · rw [isLast, isEmpty]
      · exact others other isLast
  · exact is

section OneProcess

variable (others : ∀ other, other ≠ process → machine.processes other = {})

include others

theorem recover_simulates :
    ∃ actions, (machine.recover process outcome).Is
      (run (Agent.step config) (machine.view process) actions) := by
  rcases recover_cases machine process outcome with
    same | ⟨isLocked, ⟨returned, recovers⟩ | ⟨notReturned, recovers⟩⟩
  · rw [same]
    exact ⟨[], process, rfl, others⟩
  · have started := restart_returns (view_stopped (by rw [isLocked]; rfl))
    rw [recovers]
    exact ⟨[.restart .returns], is_record others started⟩
  · have ended := restart_stopped (view_stopped (by rw [isLocked]; rfl)) notReturned
    rw [recovers]
    exact ⟨[.restart outcome], is_release (is_record others ended.1)⟩

theorem run_simulates (action : Action) :
    ∃ actions, (machine.step config (.run process action)).Is
      (run (Agent.step config) (machine.view process) actions) := by
  simp only [Machine.step]
  split_ifs with runs
  · have serving : ((machine.view process).step config action).serving = _ :=
      serving_step config _ runs
    exact ⟨[action], is_record others serving⟩
  · exact ⟨[], process, rfl, others⟩

theorem interrupt_simulates : (machine.interrupt process).Is (machine.view process) := by
  unfold Machine.interrupt
  split
  · rename_i isServing
    have served : (machine.view process).serving = ProcessPhase.closing.served := by
      unfold Machine.view
      rw [isServing]
      rfl
    exact is_release (is_record others served)
  · exact ⟨process, rfl, others⟩

theorem exit_simulates :
    ∃ actions, (machine.exit process).Is
      (run (Agent.step config) (machine.view process) actions) := by
  unfold Machine.exit
  split
  · exact ⟨[], process, rfl, others⟩
  · exact ⟨[.crash], is_release (is_record others rfl)⟩

end OneProcess

/-- Every action of a process that takes the lock only alone is the actions of
one agent. -/
theorem step_simulates (sound : machine.Sound) (is : machine.Is agent) {action : ProcessAction}
    (alone : TakesOverAlone machine action) :
    ∃ actions, (machine.step config action).Is (run (Agent.step config) agent actions) := by
  have ⟨last, isView, others⟩ := is
  by_cases isAcquire : action = .acquire action.process
  · rw [isAcquire] at alone ⊢
    exact ⟨[], acquire_simulates sound is alone⟩
  · by_cases isLast : action.process = last
    · rw [isView]
      subst isLast
      cases action with
      | acquire process => exact absurd rfl isAcquire
      | recover process outcome => exact recover_simulates others
      | run process action => exact run_simulates others action
      | interrupt process => exact ⟨[], interrupt_simulates others⟩
      | exit process => exact exit_simulates others
    · rw [step_of_empty (others _ isLast) isAcquire]
      exact ⟨[], is⟩

/-- A process that takes the lock beside one that has not ended makes two
agents of the machine. -/
theorem takesOverAlone_of_is {action : ProcessAction}
    (is : (machine.step config action).Is agent) : TakesOverAlone machine action := by
  intro process isAcquire isAbsent free other isClosing
  subst isAcquire
  have differs : other ≠ process := by
    intro same
    rw [same, isAbsent] at isClosing
    cases isClosing
  have ⟨last, _, others⟩ := is
  simp only [Machine.step, Machine.acquire, isAbsent, free] at others
  have isLast : process = last := by
    by_contra notLast
    have isEmpty := others process notLast
    rw [Function.update_self] at isEmpty
    cases isEmpty
  have isEmpty := others other (isLast ▸ differs)
  rw [Function.update_of_ne differs] at isEmpty
  rw [isEmpty] at isClosing
  cases isClosing

/-- All processes on one state directory act in every state of a run as one
agent does exactly when each process that takes the lock finds no other that
still ends. -/
theorem processes_refine_iff (config : Config) (actions : List ProcessAction) :
    Always (Machine.step config) (Machine.Reaches config) {} actions ↔
      EveryStep (Machine.step config) TakesOverAlone {} actions := by
  apply always_iff_guarded (fun machine => machine.Sound ∧ machine.Reaches config) (fun _ => True)
  · exact fun _ keeps => keeps.2
  · intro machine action keeps _ alone
    have reaches := keeps.2.next fun agent is => step_simulates keeps.1 is alone
    exact ⟨keeps.1.step action, reaches⟩
  · exact fun machine action _ _ ⟨_, is⟩ => takesOverAlone_of_is is
  · exact ⟨Machine.Sound.initial, [], 0, rfl, fun _ _ => rfl⟩
  · exact fun _ _ => trivial

/-- The first process deploys, is interrupted and has not ended when a second
one takes the lock and recovers. -/
def overtaken : List ProcessAction :=
  [.acquire 0, .recover 0 .returns] ++
    (eligibleRequest "key-00000001" 0 ++ startFirst 1 ++ workOn 10).map (.run 0) ++
      [.interrupt 0, .acquire 1, .recover 1 .returns]

/-- Its thread goes on with the job that the recovery has ended. -/
theorem overtaken_goes_on :
    (run (Machine.step installed) {} overtaken).store.jobs.map Job.state =
      [.manualIntervention] ∧
    (run (Machine.step installed) {} (overtaken ++ (workOn 6).map (.run 0))).store.jobs.map
      Job.state = [.succeeded] := by
  decide

end BubllioCrm.UpdateAgent
