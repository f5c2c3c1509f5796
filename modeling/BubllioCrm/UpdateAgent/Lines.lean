import BubllioCrm.UpdateAgent.Service

/-!
Owns the run of one worker through the lines of `runJob`: what has been
observed and which state is recorded before each line, what one action of a
worker does, and that its job follows the lines until the worker ends.
-/

namespace BubllioCrm.UpdateAgent

open BubllioCrm.Foundations

/-! ### Observations before a line -/

def Statement.entries : Statement → List Entry
  | .update change => [.recorded change.state]
  | .adapter call => [.invoked call, .returned call]
  | .setDeploymentStarted => []
  | .setCurrentVersion => []

def Statement.stateAfter (state : JobState) : Statement → JobState
  | .update change => change.state
  | .adapter _ => state
  | .setDeploymentStarted => state
  | .setCurrentVersion => state

/-- The observations of a job whose worker has executed the lines before
`number`. -/
def done (number : Nat) : List Entry :=
  (runJob.take number).flatMap Statement.entries

/-- The recorded state of such a job. -/
def stateAt (number : Nat) : JobState :=
  (runJob.take number).foldl Statement.stateAfter .requested

/-- The adapter call a worker may be inside at a line. -/
def pending (number : Nat) : List Entry :=
  match runJob[number]? with
  | some (.adapter call) => [.invoked call]
  | _ => []

/-- The observations before a line, or inside its adapter call. -/
def reached (number : Nat) (awaiting : Bool) : List Entry :=
  done number ++ if awaiting then pending number else []

theorem done_succ {number : Nat} {statement : Statement}
    (found : runJob[number]? = some statement) :
    done (number + 1) = done number ++ statement.entries := by
  unfold done
  rw [List.take_add_one, found]
  simp

theorem stateAt_succ {number : Nat} {statement : Statement}
    (found : runJob[number]? = some statement) :
    stateAt (number + 1) = statement.stateAfter (stateAt number) := by
  unfold stateAt
  rw [List.take_add_one, found]
  simp

theorem line_lt {number : Nat} {statement : Statement}
    (found : runJob[number]? = some statement) : number < 11 := by
  obtain ⟨inside, -⟩ := List.getElem?_eq_some_iff.mp found
  exact inside

/-- Before the last line every recorded state is an active one. -/
theorem stateAt_active : ∀ number < 11, (stateAt number).isActive = true := by
  decide

theorem stateAt_end : stateAt 11 = .succeeded := by
  decide

/-! ### The job of a worker -/

/-- An observation that is made outside the body. -/
def Entry.IsAfterBody (entry : Entry) : Prop :=
  entry = .raised ∨ entry = .interrupted ∨ entry = .recorded .failed ∨
    entry = .recorded .manualIntervention

/-- What a job has lived through: some lines of the body, then failures and
their handling. It is in the state of those lines, or in one of the two
failure states, of which `FAILED` means that the deployment had not started. -/
def Lived (history : List Entry) (state : JobState) : Prop :=
  ∃ number ≤ 11, ∃ awaiting tail, history = reached number awaiting ++ tail ∧
    (∀ entry ∈ tail, entry.IsAfterBody) ∧
    (state = stateAt number ∨ state = .failed ∧ number ≤ 5 ∨ state = .manualIntervention)

/-- The worker is where the history and the state of its job say. -/
def Worker.Tracks (worker : Worker) (history : List Entry) (state : JobState) : Prop :=
  match worker.control with
  | .line number => number < 11 ∧ history = reached number false ∧ state = stateAt number ∧
      worker.deploymentStarted = decide (5 < number)
  | .awaiting number => (∃ call, runJob[number]? = some (.adapter call)) ∧
      history = reached number true ∧ state = stateAt number ∧
      worker.deploymentStarted = decide (5 < number)
  | .handling _ => ∃ number ≤ 11, ∃ awaiting, history = reached number awaiting ++ [.raised] ∧
      state = stateAt number ∧ worker.deploymentStarted = decide (5 < number)

theorem Worker.Tracks.lived {worker : Worker} {history : List Entry} {state : JobState}
    (tracks : worker.Tracks history state) : Lived history state := by
  unfold Worker.Tracks at tracks
  cases control : worker.control with
  | line number =>
      simp only [control] at tracks
      obtain ⟨inside, historyEq, stateEq, -⟩ := tracks
      exact ⟨number, inside.le, false, [], by simpa using historyEq, by simp, Or.inl stateEq⟩
  | awaiting number =>
      simp only [control] at tracks
      obtain ⟨⟨call, found⟩, historyEq, stateEq, -⟩ := tracks
      exact ⟨number, (line_lt found).le, true, [], by simpa using historyEq, by simp,
        Or.inl stateEq⟩
  | handling exception =>
      simp only [control] at tracks
      obtain ⟨number, inside, awaiting, historyEq, stateEq, -⟩ := tracks
      exact ⟨number, inside, awaiting, [.raised], historyEq, by simp [Entry.IsAfterBody],
        Or.inl stateEq⟩

/-- A new worker tracks a requested job without observations. -/
theorem Worker.tracks_new (jobId : Nat) (manifest : ReleaseManifest) :
    ({ jobId := jobId, manifest := manifest } : Worker).Tracks [] .requested :=
  ⟨by decide, by decide, by decide, rfl⟩

theorem Lived.append {history more : List Entry} {state : JobState} (lived : Lived history state)
    (afterBody : ∀ entry ∈ more, entry.IsAfterBody) : Lived (history ++ more) state := by
  obtain ⟨number, inside, awaiting, tail, rfl, quiet, states⟩ := lived
  refine ⟨number, inside, awaiting, tail ++ more, by simp, ?_, states⟩
  intro entry member
  rcases List.mem_append.mp member with old | new
  · exact quiet entry old
  · exact afterBody entry new

/-! ### One action of a worker -/

/-- What an action of a worker writes to the store. -/
inductive Effect where
  | nothing
  | state (change : JobUpdate)
  | version

def Effect.stateAfter (state : JobState) : Effect → JobState
  | .nothing => state
  | .state change => change.state
  | .version => state

/-- The actions of a worker: the effect on the store, the observations, and
what becomes of the worker. -/
inductive WorkerStep (worker : Worker) : Effect → List Entry → List Worker → Prop where
  | updated {number : Nat} {change : JobUpdate} (control : worker.control = .line number)
      (found : runJob[number]? = some (.update change)) :
      WorkerStep worker (.state change) [.recorded change.state] (worker.goto (number + 1))
  | updatedThenRaised {number : Nat} {change : JobUpdate} {exception : Raised}
      (control : worker.control = .line number)
      (found : runJob[number]? = some (.update change)) :
      WorkerStep worker (.state change) [.recorded change.state, .raised]
        [worker.handling exception]
  | invoked {number : Nat} {call : AdapterCall} (control : worker.control = .line number)
      (found : runJob[number]? = some (.adapter call)) :
      WorkerStep worker .nothing [.invoked call] [{ worker with control := .awaiting number }]
  | returned {number : Nat} {call : AdapterCall} (control : worker.control = .awaiting number)
      (found : runJob[number]? = some (.adapter call)) :
      WorkerStep worker .nothing [.returned call] (worker.goto (number + 1))
  | started {number : Nat} (control : worker.control = .line number)
      (found : runJob[number]? = some .setDeploymentStarted) :
      WorkerStep worker .nothing [] ({ worker with deploymentStarted := true }.goto (number + 1))
  | versioned {number : Nat} (control : worker.control = .line number)
      (found : runJob[number]? = some .setCurrentVersion) :
      WorkerStep worker .version [] (worker.goto (number + 1))
  | versionedThenRaised {number : Nat} {exception : Raised}
      (control : worker.control = .line number)
      (found : runJob[number]? = some .setCurrentVersion) :
      WorkerStep worker .version [.raised] [worker.handling exception]
  | raisedAt {number : Nat} {exception : Raised} (control : worker.control = .line number) :
      WorkerStep worker .nothing [.raised] [worker.handling exception]
  | raisedInside {number : Nat} {exception : Raised}
      (control : worker.control = .awaiting number) :
      WorkerStep worker .nothing [.raised] [worker.handling exception]
  | handled {exception : Raised} {change : JobUpdate} {more : List Entry}
      (control : worker.control = .handling exception)
      (written : failureUpdate worker.deploymentStarted exception = some change)
      (outcome : more = [] ∨ more = [.raised]) :
      WorkerStep worker (.state change) (.recorded change.state :: more) []
  | ended {exception : Raised} {entries : List Entry}
      (control : worker.control = .handling exception)
      (outcome : entries = [] ∨ entries = [.raised]) :
      WorkerStep worker .nothing entries []

variable {worker after : Worker} {effect : Effect} {entries history : List Entry}
  {next : List Worker} {state : JobState}

/-- The successors of a worker work on the same job and manifest, and there is
at most one. -/
theorem WorkerStep.next_cases (steps : WorkerStep worker effect entries next) :
    next = [] ∨ ∃ after, next = [after] ∧ after.jobId = worker.jobId ∧
      after.manifest = worker.manifest := by
  have goto : ∀ number, worker.goto number = [] ∨ ∃ after, worker.goto number = [after] ∧
      after.jobId = worker.jobId ∧ after.manifest = worker.manifest := by
    intro number
    unfold Worker.goto
    split_ifs
    · exact Or.inr ⟨_, rfl, rfl, rfl⟩
    · exact Or.inl rfl
  cases steps with
  | updated => exact goto _
  | updatedThenRaised => exact Or.inr ⟨_, rfl, rfl, rfl⟩
  | invoked => exact Or.inr ⟨_, rfl, rfl, rfl⟩
  | returned => exact goto _
  | started =>
      unfold Worker.goto
      split_ifs
      · exact Or.inr ⟨_, rfl, rfl, rfl⟩
      · exact Or.inl rfl
  | versioned => exact goto _
  | versionedThenRaised => exact Or.inr ⟨_, rfl, rfl, rfl⟩
  | raisedAt => exact Or.inr ⟨_, rfl, rfl, rfl⟩
  | raisedInside => exact Or.inr ⟨_, rfl, rfl, rfl⟩
  | handled => exact Or.inl rfl
  | ended => exact Or.inl rfl

/-- The deployment flag is set by its own line and read by the handler. -/
theorem started_line {number : Nat} :
    runJob[number]? = some .setDeploymentStarted ↔ number = 5 := by
  constructor
  · intro found
    have onlyFifth : ∀ other < 11, runJob[other]? = some .setDeploymentStarted → other = 5 := by
      decide
    exact onlyFifth number (line_lt found) found
  · rintro rfl
    rfl

/-- The version is recorded by its own line. -/
theorem versioned_line {number : Nat} (found : runJob[number]? = some .setCurrentVersion) :
    number = 9 := by
  have onlyNinth : ∀ other < 11, runJob[other]? = some .setCurrentVersion → other = 9 := by
    decide
  exact onlyNinth number (line_lt found) found

theorem started_succ {number : Nat} {statement : Statement}
    (found : runJob[number]? = some statement) (other : statement ≠ .setDeploymentStarted) :
    decide (5 < number + 1) = decide (5 < number) := by
  have notFive : number ≠ 5 := by
    rintro rfl
    rw [started_line.mpr rfl] at found
    exact other (Option.some.inj found).symm
  rw [decide_eq_decide]
  omega

theorem failureUpdate_state {deploymentStarted : Bool} {exception : Raised} {change : JobUpdate}
    (written : failureUpdate deploymentStarted exception = some change) :
    change.state = if deploymentStarted then .manualIntervention else .failed := by
  cases exception with
  | agentError errorClass message => exact Option.some.inj written ▸ rfl
  | otherException => exact Option.some.inj written ▸ rfl
  | baseException => cases written

/-- The worker has executed a line and goes on to the next, or has executed all
of them. -/
private theorem tracks_line {number : Nat} {statement : Statement}
    (found : runJob[number]? = some statement)
    (historyEq : history = done number ++ statement.entries)
    (stateEq : state = statement.stateAfter (stateAt number))
    (flag : worker.deploymentStarted = decide (5 < number + 1)) :
    Lived history state ∧ ∀ after ∈ worker.goto (number + 1), after.Tracks history state := by
  rw [← done_succ found] at historyEq
  rw [← stateAt_succ found] at stateEq
  constructor
  · exact ⟨number + 1, line_lt found, false, [], by simp [reached, historyEq], by simp,
      Or.inl stateEq⟩
  · intro after member
    unfold Worker.goto at member
    split_ifs at member with before
    · rw [List.mem_singleton.mp member]
      exact ⟨before, by simp [reached, historyEq], stateEq, flag⟩
    · simp at member

private theorem tracks_raise {number : Nat} {awaiting : Bool} {exception : Raised}
    (inside : number ≤ 11) (historyEq : history = reached number awaiting)
    (stateEq : state = stateAt number) (flag : worker.deploymentStarted = decide (5 < number)) :
    Lived (history ++ [.raised]) state ∧
      ∀ after ∈ [worker.handling exception], after.Tracks (history ++ [.raised]) state := by
  have tracks : (worker.handling exception).Tracks (history ++ [.raised]) state :=
    ⟨number, inside, awaiting, by rw [historyEq], stateEq, flag⟩
  refine ⟨tracks.lived, fun after member => ?_⟩
  rw [List.mem_singleton.mp member]
  exact tracks

/-- A state is recorded, and then the line raises. -/
private theorem tracks_recordedThenRaised {number : Nat} {change : JobUpdate}
    {exception : Raised} (found : runJob[number]? = some (.update change))
    (flag : worker.deploymentStarted = decide (5 < number)) :
    Lived (reached number false ++ [.recorded change.state, .raised]) change.state ∧
      ∀ after ∈ [worker.handling exception],
        after.Tracks (reached number false ++ [.recorded change.state, .raised]) change.state := by
  have committed : reached number false ++ [.recorded change.state, .raised] =
      reached (number + 1) false ++ [.raised] := by
    simp [reached, done_succ found, Statement.entries]
  rw [committed]
  refine tracks_raise (line_lt found) rfl ?_ ?_
  · rw [stateAt_succ found]
    rfl
  · rw [started_succ found nofun, flag]

/-- The worker waits for a call of the adapter. -/
private theorem tracks_invoked {number : Nat} {call : AdapterCall}
    (found : runJob[number]? = some (.adapter call))
    (flag : worker.deploymentStarted = decide (5 < number)) :
    Lived (reached number false ++ [.invoked call]) (stateAt number) ∧
      ∀ after ∈ [{ worker with control := .awaiting number }],
        after.Tracks (reached number false ++ [.invoked call]) (stateAt number) := by
  have awaits : ({ worker with control := .awaiting number } : Worker).Tracks
      (reached number false ++ [.invoked call]) (stateAt number) :=
    ⟨⟨call, found⟩, by simp [reached, pending, found], rfl, flag⟩
  refine ⟨awaits.lived, fun after member => ?_⟩
  rw [List.mem_singleton.mp member]
  exact awaits

/-- The handler records one of the two failures. `FAILED` means that the
deployment had not started. -/
private theorem lived_handled {exception : Raised} {change : JobUpdate} {more : List Entry}
    (control : worker.control = .handling exception) (tracks : worker.Tracks history state)
    (written : failureUpdate worker.deploymentStarted exception = some change)
    (outcome : more = [] ∨ more = [.raised]) :
    Lived (history ++ .recorded change.state :: more) change.state := by
  unfold Worker.Tracks at tracks
  simp only [control] at tracks
  obtain ⟨number, inside, awaiting, rfl, rfl, flag⟩ := tracks
  have recorded : change.state = .failed ∧ number ≤ 5 ∨ change.state = .manualIntervention := by
    rw [failureUpdate_state written, flag]
    by_cases begun : 5 < number
    · exact Or.inr (by simp [begun])
    · exact Or.inl ⟨by simp [begun], not_lt.mp begun⟩
  refine ⟨number, inside, awaiting, .raised :: .recorded change.state :: more, by simp, ?_,
    Or.inr recorded⟩
  intro entry member
  rcases List.mem_cons.mp member with rfl | later
  · exact Or.inl rfl
  rcases List.mem_cons.mp later with rfl | last
  · rcases recorded with ⟨failed, -⟩ | manual
    · simp [Entry.IsAfterBody, failed]
    · simp [Entry.IsAfterBody, manual]
  · rcases outcome with rfl | rfl
    · simp at last
    · rw [List.mem_singleton.mp last]
      exact Or.inl rfl

/-- The job follows its worker: after each action it has lived through lines of
the body and failures, and the worker, if it goes on, tracks it. -/
theorem WorkerStep.tracks (steps : WorkerStep worker effect entries next)
    (tracks : worker.Tracks history state) :
    Lived (history ++ entries) (effect.stateAfter state) ∧
      ∀ after ∈ next, after.Tracks (history ++ entries) (effect.stateAfter state) := by
  have lived := tracks.lived
  cases steps with
  | @handled exception change more control written outcome =>
      exact ⟨lived_handled control tracks written outcome, by simp⟩
  | @ended exception entries control outcome =>
      refine ⟨lived.append fun entry member => ?_, by simp⟩
      rcases outcome with rfl | rfl
      · simp at member
      · rw [List.mem_singleton.mp member]
        exact Or.inl rfl
  | @updated number change control found =>
      simp only [Worker.Tracks, control] at tracks
      obtain ⟨-, rfl, rfl, flag⟩ := tracks
      exact tracks_line found (by simp [reached, Statement.entries]) rfl
        (flag.trans (started_succ found nofun).symm)
  | @updatedThenRaised number change exception control found =>
      simp only [Worker.Tracks, control] at tracks
      obtain ⟨-, rfl, rfl, flag⟩ := tracks
      exact tracks_recordedThenRaised found flag
  | @invoked number call control found =>
      simp only [Worker.Tracks, control] at tracks
      obtain ⟨-, rfl, rfl, flag⟩ := tracks
      exact tracks_invoked found flag
  | @returned number call control found =>
      simp only [Worker.Tracks, control] at tracks
      obtain ⟨-, rfl, rfl, flag⟩ := tracks
      exact tracks_line found (by simp [reached, pending, found, Statement.entries]) rfl
        (flag.trans (started_succ found nofun).symm)
  | @started number control found =>
      simp only [Worker.Tracks, control] at tracks
      obtain ⟨-, rfl, rfl, -⟩ := tracks
      refine tracks_line found (by simp [reached, Statement.entries]) rfl ?_
      rw [started_line.mp found]
      rfl
  | @versioned number control found =>
      simp only [Worker.Tracks, control] at tracks
      obtain ⟨-, rfl, rfl, flag⟩ := tracks
      exact tracks_line found (by simp [reached, Statement.entries]) rfl
        (flag.trans (started_succ found nofun).symm)
  | @versionedThenRaised number exception control found =>
      simp only [Worker.Tracks, control] at tracks
      obtain ⟨inside, rfl, rfl, flag⟩ := tracks
      exact tracks_raise inside.le rfl rfl flag
  | @raisedAt number exception control =>
      simp only [Worker.Tracks, control] at tracks
      obtain ⟨inside, rfl, rfl, flag⟩ := tracks
      exact tracks_raise inside.le rfl rfl flag
  | @raisedInside number exception control =>
      simp only [Worker.Tracks, control] at tracks
      obtain ⟨⟨call, found⟩, rfl, rfl, flag⟩ := tracks
      exact tracks_raise (line_lt found).le rfl rfl flag

end BubllioCrm.UpdateAgent
