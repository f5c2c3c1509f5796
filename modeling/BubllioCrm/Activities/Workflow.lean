import BubllioCrm.Activities.Services
import BubllioCrm.Foundations.Chains
import BubllioCrm.Foundations.Execution

/-!
Owns the calls on one task: `update_task`, `move_task`, `complete_task` and
`reopen_task` as transactions that lock its row, in any order of their
statements. From the lock follows the audit law of the task: its completion
columns agree with its status, and its timeline tells how the status changed.
-/

namespace BubllioCrm.Activities

open BubllioCrm.Foundations

inductive Call where
  | idle
  | waiting (request : Request) (user : Nat)
  | running (request : Request) (user : Nat) (body : Body) (point : Point)

/-- What is committed of a task, the call that has locked its row, and the calls. -/
structure Workflow where
  task : Task
  timeline : List Event := []
  holder : Option Nat := none
  calls : Nat → Call := fun _ => .idle
  now : Nat := 0

inductive Action where
  | call (index : Nat) (request : Request) (user : Nat)
  | lock (index : Nat)
  | execute (index : Nat)
  | commit (index : Nat)
  /-- A statement raises, or the connection is lost: the transaction is rolled back. -/
  | fail (index : Nat)
  | advance (elapsed : Nat)
deriving DecidableEq

namespace Workflow

/-- The task as the create request inserts it. -/
def created (task : Task) : Workflow where
  task := { task with workflowStatus := .todo, completedAt := none, completedBy := none }

def become (index : Nat) (call : Call) (workflow : Workflow) : Workflow :=
  { workflow with calls := Function.update workflow.calls index call }

/-- `select_for_update().get(...)`, which waits while another call holds the
row and raises when the row is of another organization. -/
def lock (index : Nat) (request : Request) (user : Nat) (workflow : Workflow) : Workflow :=
  if workflow.holder ≠ none then workflow
  else if workflow.task.organization = request.organization then
    { workflow.become index
        (.running request user (Body.ofRow workflow.task) request.firstPoint) with
      holder := some index }
  else workflow.become index .idle

def rollBack (index : Nat) (workflow : Workflow) : Workflow :=
  { workflow.become index .idle with holder := none }

/-- A statement that breaks the constraint of the table raises. -/
def execute (index : Nat) (request : Request) (user : Nat) (body : Body) (point : Point)
    (workflow : Workflow) : Workflow :=
  let executed := body.execute request user workflow.now point
  if executed.1.row.CompletionMatches then
    workflow.become index (.running request user executed.1 executed.2)
  else workflow.rollBack index

def commit (index : Nat) (body : Body) (workflow : Workflow) : Workflow :=
  { workflow.become index .idle with
    task := body.row
    timeline := workflow.timeline ++ body.recorded
    holder := none }

/-- The task after an action. An action that does not fit the call changes nothing. -/
def step (workflow : Workflow) (action : Action) : Workflow :=
  match action with
  | .call index request user =>
      match workflow.calls index with
      | .idle => workflow.become index (.waiting request user)
      | _ => workflow
  | .lock index =>
      match workflow.calls index with
      | .waiting request user => workflow.lock index request user
      | _ => workflow
  | .execute index =>
      match workflow.calls index with
      | .running request user body point => workflow.execute index request user body point
      | _ => workflow
  | .commit index =>
      match workflow.calls index with
      | .running _ _ body .commit => workflow.commit index body
      | _ => workflow
  | .fail index =>
      match workflow.calls index with
      | .idle => workflow
      | .waiting _ _ => workflow.become index .idle
      | .running _ _ _ _ => workflow.rollBack index
  | .advance elapsed => { workflow with now := workflow.now + elapsed }

end Workflow

/-! ### The law -/

/-- The statuses between which an event reports a change. -/
def changeIn (event : Event) : Option (WorkflowStatus × WorkflowStatus) :=
  match event.details with
  | .fields _ _ => none
  | .workflow _ fromStatus toStatus => some (fromStatus, toStatus)

/-- An event of a change is of the type for its two statuses, and the others
are not workflow events. -/
def Typed (event : Event) : Prop :=
  match event.details with
  | .fields _ _ => event.eventType = .taskUpdated
  | .workflow _ fromStatus toStatus =>
      fromStatus ≠ toStatus ∧ event.eventType = workflowEventType fromStatus toStatus

/-- The columns of the task agree, and the timeline leads to its status. -/
structure Audited (workflow : Workflow) : Prop where
  completion : workflow.task.workflowStatus = .completed ↔
    workflow.task.completedAt.isSome = true
  chain : Chain .todo (workflow.timeline.filterMap changeIn) workflow.task.workflowStatus
  typed : ∀ event ∈ workflow.timeline, Typed event

/-- Only a commit changes the task or its timeline, and it records the change of
the status, if there is one, once. -/
structure Audits (workflow : Workflow) (action : Action) : Prop where
  unchanged : (∀ index, action ≠ .commit index) →
    (workflow.step action).task = workflow.task ∧
      (workflow.step action).timeline = workflow.timeline
  recorded : ∃ events, (workflow.step action).timeline = workflow.timeline ++ events ∧
    events.filterMap changeIn =
      changeOf workflow.task.workflowStatus (workflow.step action).task.workflowStatus

/-- A later row of a task that has been completed all along keeps what its
first completion wrote. -/
def SameCompletion (before after : Task) : Prop :=
  after.completedAt = before.completedAt ∧ after.completedBy = before.completedBy

/-- Through every stretch of a run in which the task is completed, its
completion stays the same. -/
def KeepsCompletion (workflow : Workflow) (actions : List Action) : Prop :=
  ∀ first stretch rest, actions = first ++ stretch ++ rest →
    Always Workflow.step (fun state => state.task.workflowStatus = .completed)
      (run Workflow.step workflow first) stretch →
    SameCompletion (run Workflow.step workflow first).task
      (run Workflow.step workflow (first ++ stretch)).task

/-! ### What a statement does -/

variable {base task row : Task} {body : Body} {request : Request} {user now index : Nat}
  {point : Point} {workflow : Workflow} {action : Action}

/-- The columns that only the workflow writes. -/
structure SameWorkflow (first second : Task) : Prop where
  status : first.workflowStatus = second.workflowStatus
  completedAt : first.completedAt = second.completedAt
  completedBy : first.completedBy = second.completedBy

theorem SameWorkflow.rfl : SameWorkflow task task :=
  ⟨Eq.refl _, Eq.refl _, Eq.refl _⟩

theorem sameWorkflow_saveWorkflow : SameWorkflow task (task.saveWorkflow row) :=
  ⟨rfl, rfl, rfl⟩

theorem SameWorkflow.setOn {first second : Task} (same : SameWorkflow first second)
    (attrs : TaskAttrs) : SameWorkflow (attrs.setOn first) (attrs.setOn second) :=
  ⟨same.status, same.completedAt, same.completedBy⟩

/-- A row that a call may leave behind. -/
structure Advances (base row : Task) : Prop where
  completion : row.CompletionMatches
  kept : base.workflowStatus = .completed → row.workflowStatus = .completed →
    SameCompletion base row

theorem SameWorkflow.advances (same : SameWorkflow base row) (completion : base.CompletionMatches) :
    Advances base row := by
  refine ⟨?_, fun _ _ => ⟨same.completedAt.symm, same.completedBy.symm⟩⟩
  unfold Task.CompletionMatches at completion ⊢
  rw [← same.status, ← same.completedAt]
  exact completion

/-- `_apply_workflow_status` keeps a completion that is there. -/
theorem advances_applyWorkflowStatus (completion : base.CompletionMatches)
    (same : SameWorkflow base task) (workflowStatus : WorkflowStatus) :
    Advances base ((task.applyWorkflowStatus workflowStatus user now).saveWorkflow row) := by
  have isCompleted : base.workflowStatus = .completed → task.completedAt ≠ none := by
    intro completed missing
    have isSome := completion.mp completed
    rw [same.completedAt, missing] at isSome
    cases isSome
  unfold Task.applyWorkflowStatus
  split_ifs with completes missing
  · refine ⟨?_, fun completed => absurd missing (isCompleted completed)⟩
    simp [Task.CompletionMatches, Task.saveWorkflow, completes]
  · refine ⟨?_, fun _ _ => ⟨same.completedAt.symm, same.completedBy.symm⟩⟩
    simp [Task.CompletionMatches, Task.saveWorkflow, completes, Option.isSome_iff_ne_none, missing]
  · refine ⟨?_, fun _ after => absurd after completes⟩
    simp [Task.CompletionMatches, Task.saveWorkflow, completes]

theorem filterMap_workflowEvents (previousStatus : WorkflowStatus) :
    (task.workflowEvents previousStatus user).filterMap changeIn =
      changeOf previousStatus task.workflowStatus := by
  unfold Task.workflowEvents changeOf
  split_ifs <;> rfl

theorem typed_workflowEvents {previousStatus : WorkflowStatus} {event : Event}
    (member : event ∈ task.workflowEvents previousStatus user) : Typed event := by
  unfold Task.workflowEvents at member
  split_ifs at member with same
  · cases member
  · rw [List.mem_singleton.mp member]
    exact ⟨same, rfl⟩

/-- What a call has done before the statement at a point. -/
structure Executed (base : Task) (body : Body) (point : Point) : Prop where
  same : SameWorkflow body.locked body.row
  previous : body.previousStatus = base.workflowStatus
  unsaved : point = .saveFields ∨ point = .saveStatus → SameWorkflow base body.locked
  advances : Advances base body.row
  typed : ∀ event ∈ body.recorded, Typed event
  changes : body.recorded.filterMap changeIn =
    if point = .commit then changeOf base.workflowStatus body.row.workflowStatus else []

theorem executed_ofRow (completion : base.CompletionMatches) (notCommit : point ≠ .commit) :
    Executed base (Body.ofRow base) point where
  same := SameWorkflow.rfl
  previous := rfl
  unsaved _ := SameWorkflow.rfl
  advances := SameWorkflow.rfl.advances completion
  typed := by simp [Body.ofRow]
  changes := by simp [Body.ofRow, notCommit]

theorem Executed.saveFields (executed : Executed base body .saveFields)
    (completion : base.CompletionMatches) (attrs : TaskAttrs) :
    Executed base (body.saveFields attrs) .saveStatus := by
  have same := executed.unsaved (Or.inl rfl)
  have unsaved : SameWorkflow base (attrs.setOn body.locked) :=
    ⟨same.status, same.completedAt, same.completedBy⟩
  have saved : SameWorkflow (attrs.setOn body.locked) (attrs.setOn body.row) :=
    executed.same.setOn attrs
  have advances : Advances base (attrs.setOn body.row) :=
    SameWorkflow.advances ⟨unsaved.status.trans saved.status,
      unsaved.completedAt.trans saved.completedAt,
      unsaved.completedBy.trans saved.completedBy⟩ completion
  exact ⟨saved, executed.previous, fun _ => unsaved, advances, executed.typed, executed.changes⟩

theorem Executed.saveStatus (executed : Executed base body .saveStatus)
    (completion : base.CompletionMatches) (workflowStatus : WorkflowStatus)
    (next : point = .recordUpdated ∨ point = .recordChange) :
    Executed base (body.saveStatus workflowStatus user now) point := by
  have same := executed.unsaved (Or.inr rfl)
  refine ⟨sameWorkflow_saveWorkflow, same.status.symm, ?_, ?_, executed.typed, ?_⟩
  · rcases next with rfl | rfl <;> simp
  · exact advances_applyWorkflowStatus completion same workflowStatus
  · rcases next with rfl | rfl
    · exact executed.changes
    · exact executed.changes

/-- A call goes on without a change. -/
theorem Executed.skip {next : Point} (executed : Executed base body point)
    (notCommit : point ≠ .commit) (nextNotCommit : next ≠ .commit)
    (unsaved : next = .saveFields ∨ next = .saveStatus → point = .saveFields) :
    Executed base body next := by
  refine ⟨executed.same, executed.previous, fun early => ?_, executed.advances,
    executed.typed, ?_⟩
  · exact executed.unsaved (Or.inl (unsaved early))
  · rw [executed.changes, if_neg notCommit, if_neg nextNotCommit]

theorem Executed.recordUpdated (executed : Executed base body .recordUpdated)
    (changedFields : List String) :
    Executed base (body.recordUpdated user changedFields) .recordChange := by
  refine ⟨executed.same, executed.previous, by simp, executed.advances, ?_, ?_⟩
  · intro event member
    rcases List.mem_append.mp member with old | new
    · exact executed.typed event old
    · rw [List.mem_singleton.mp new]
      rfl
  · simp only [Body.recordUpdated, List.filterMap_append, executed.changes]
    rfl

theorem Executed.recordChange (executed : Executed base body .recordChange) :
    Executed base (body.recordChange user) .commit := by
  refine ⟨executed.same, executed.previous, by simp, executed.advances, ?_, ?_⟩
  · intro event member
    rcases List.mem_append.mp member with old | new
    · exact executed.typed event old
    · exact typed_workflowEvents new
  · simp only [Body.recordChange, List.filterMap_append, executed.changes,
      filterMap_workflowEvents, executed.previous, executed.same.status]
    rfl

theorem Executed.execute (executed : Executed base body point)
    (completion : base.CompletionMatches) :
    Executed base (body.execute request user now point).1
      (body.execute request user now point).2 := by
  cases point with
  | saveFields =>
      cases request with
      | updateTask organization attrs workflowStatus => exact executed.saveFields completion attrs
      | moveTask organization workflowStatus =>
          exact executed.skip (by simp) (by simp [Body.execute]) (by simp)
  | saveStatus =>
      cases request with
      | updateTask organization attrs workflowStatus =>
          cases workflowStatus with
          | none => exact executed.skip (by simp) (by simp [Body.execute]) (by simp [Body.execute])
          | some workflowStatus =>
              exact executed.saveStatus completion workflowStatus (Or.inl rfl)
      | moveTask organization workflowStatus =>
          exact executed.saveStatus completion workflowStatus (Or.inr rfl)
  | recordUpdated =>
      cases request with
      | updateTask organization attrs workflowStatus => exact executed.recordUpdated _
      | moveTask organization workflowStatus =>
          exact executed.skip (by simp) (by simp [Body.execute]) (by simp [Body.execute])
  | recordChange => cases request <;> exact executed.recordChange
  | commit => cases request <;> exact executed

/-! ### Runs -/

/-- What holds between the committed task and the call that has locked it. -/
structure Coherent (workflow : Workflow) : Prop where
  audited : Audited workflow
  running : ∀ index request user body point,
    workflow.calls index = .running request user body point →
      workflow.holder = some index ∧ Executed workflow.task body point

theorem Coherent.created (task : Task) : Coherent (Workflow.created task) :=
  ⟨⟨by simp [Workflow.created], rfl, by simp [Workflow.created]⟩, by simp [Workflow.created]⟩

/-- A call that is not running takes its next stage. -/
theorem Coherent.become (coherent : Coherent workflow) {call : Call}
    (notRunning : ∀ request user body point, call ≠ .running request user body point) :
    Coherent (workflow.become index call) := by
  refine ⟨⟨coherent.audited.completion, coherent.audited.chain, coherent.audited.typed⟩, ?_⟩
  intro other request user body point isRunning
  by_cases same : other = index
  · subst same
    simp only [Workflow.become, Function.update_self] at isRunning
    exact absurd isRunning (notRunning request user body point)
  · simp only [Workflow.become, Function.update_of_ne same] at isRunning
    exact coherent.running other request user body point isRunning

/-- A call that holds the row is the only one that runs. -/
theorem Coherent.others (coherent : Coherent workflow) (holds : workflow.holder = some index)
    {other : Nat} (differs : other ≠ index) (request : Request) (user : Nat) (body : Body)
    (point : Point) : workflow.calls other ≠ .running request user body point := by
  intro isRunning
  obtain ⟨otherHolds, -⟩ := coherent.running other request user body point isRunning
  exact differs (Option.some.inj (otherHolds.symm.trans holds))

/-- The call that holds the row ends, and leaves a row and events behind. -/
theorem Coherent.ended (coherent : Coherent workflow) (holds : workflow.holder = some index)
    {after : Workflow} (audited : Audited after)
    (calls : after.calls = Function.update workflow.calls index .idle) : Coherent after := by
  refine ⟨audited, ?_⟩
  intro other request user body point isRunning
  rw [calls] at isRunning
  by_cases same : other = index
  · subst same
    rw [Function.update_self] at isRunning
    cases isRunning
  · rw [Function.update_of_ne same] at isRunning
    exact absurd isRunning (coherent.others holds same request user body point)

theorem Coherent.rollBack (coherent : Coherent workflow) (holds : workflow.holder = some index) :
    Coherent (workflow.rollBack index) :=
  coherent.ended holds
    ⟨coherent.audited.completion, coherent.audited.chain, coherent.audited.typed⟩ rfl

/-- The call that holds the row goes on. -/
theorem Coherent.goesOn (coherent : Coherent workflow)
    (holds : workflow.holder = none ∨ workflow.holder = some index) {request : Request}
    {user : Nat} {body : Body} {point : Point} (executed : Executed workflow.task body point) :
    Coherent { workflow.become index (.running request user body point) with
      holder := some index } := by
  refine ⟨⟨coherent.audited.completion, coherent.audited.chain, coherent.audited.typed⟩, ?_⟩
  intro other otherRequest otherUser otherBody otherPoint isRunning
  by_cases same : other = index
  · subst same
    simp only [Workflow.become, Function.update_self] at isRunning
    cases isRunning
    exact ⟨rfl, executed⟩
  · simp only [Workflow.become, Function.update_of_ne same] at isRunning
    obtain ⟨otherHolds, -⟩ :=
      coherent.running other otherRequest otherUser otherBody otherPoint isRunning
    rw [otherHolds] at holds
    rcases holds with free | mine
    · cases free
    · exact absurd (Option.some.inj mine) same

theorem Coherent.commit (coherent : Coherent workflow)
    (isRunning : workflow.calls index = .running request user body .commit) :
    Coherent (workflow.commit index body) := by
  obtain ⟨holds, executed⟩ := coherent.running index request user body .commit isRunning
  refine coherent.ended holds ⟨executed.advances.completion, ?_, ?_⟩ rfl
  · show Chain .todo ((workflow.timeline ++ body.recorded).filterMap changeIn) _
    rw [List.filterMap_append, executed.changes]
    exact coherent.audited.chain.changed body.row.workflowStatus
  · intro event member
    rcases List.mem_append.mp member with old | new
    · exact coherent.audited.typed event old
    · exact executed.typed event new

theorem firstPoint_ne_commit (request : Request) : request.firstPoint ≠ .commit := by
  cases request <;> simp [Request.firstPoint]

theorem Coherent.step (coherent : Coherent workflow) : Coherent (workflow.step action) := by
  cases action with
  | call index request user =>
      simp only [Workflow.step]
      split
      · exact coherent.become (by simp)
      · exact coherent
  | lock index =>
      simp only [Workflow.step]
      split
      · rename_i request user waiting
        unfold Workflow.lock
        split_ifs with busy organization
        · exact coherent
        · exact coherent.goesOn (Or.inl (not_not.mp busy))
            (executed_ofRow coherent.audited.completion (firstPoint_ne_commit request))
        · exact coherent.become (by simp)
      · exact coherent
  | execute index =>
      simp only [Workflow.step]
      split
      · rename_i request user body point isRunning
        obtain ⟨holds, executed⟩ := coherent.running index request user body point isRunning
        have next : Executed workflow.task (body.execute request user workflow.now point).1
            (body.execute request user workflow.now point).2 :=
          executed.execute coherent.audited.completion
        simp only [Workflow.execute]
        rw [if_pos next.advances.completion]
        have goesOn : Coherent { workflow.become index (.running request user
              (body.execute request user workflow.now point).1
              (body.execute request user workflow.now point).2) with holder := some index } :=
          coherent.goesOn (Or.inr holds) next
        rw [← holds] at goesOn
        exact goesOn
      · exact coherent
  | commit index =>
      simp only [Workflow.step]
      split
      · exact coherent.commit ‹_›
      · exact coherent
  | fail index =>
      simp only [Workflow.step]
      split
      · exact coherent
      · exact coherent.become (by simp)
      · rename_i request user body point isRunning
        exact coherent.rollBack (coherent.running index request user body point isRunning).1
  | advance elapsed =>
      exact ⟨⟨coherent.audited.completion, coherent.audited.chain, coherent.audited.typed⟩,
        coherent.running⟩

theorem step_unchanged (notCommit : ∀ index, action ≠ .commit index) :
    (workflow.step action).task = workflow.task ∧
      (workflow.step action).timeline = workflow.timeline := by
  cases action with
  | commit index => exact absurd rfl (notCommit index)
  | lock index =>
      simp only [Workflow.step]
      split
      · unfold Workflow.lock
        split_ifs <;> exact ⟨rfl, rfl⟩
      · exact ⟨rfl, rfl⟩
  | execute index =>
      simp only [Workflow.step]
      split
      · unfold Workflow.execute
        dsimp only
        split_ifs <;> exact ⟨rfl, rfl⟩
      · exact ⟨rfl, rfl⟩
  | advance elapsed => exact ⟨rfl, rfl⟩
  | _ =>
      simp only [Workflow.step]
      split <;> exact ⟨rfl, rfl⟩

/-- What a step leaves of the task. -/
theorem Coherent.advances (coherent : Coherent workflow) :
    Advances workflow.task (workflow.step action).task ∧
      ∃ events, (workflow.step action).timeline = workflow.timeline ++ events ∧
        events.filterMap changeIn =
          changeOf workflow.task.workflowStatus (workflow.step action).task.workflowStatus := by
  by_cases isCommit : ∃ index, action = .commit index
  · obtain ⟨index, rfl⟩ := isCommit
    simp only [Workflow.step]
    split
    · rename_i request user body isRunning
      obtain ⟨-, executed⟩ := coherent.running index request user body .commit isRunning
      exact ⟨executed.advances, body.recorded, rfl, executed.changes⟩
    · exact ⟨SameWorkflow.rfl.advances coherent.audited.completion, [], by simp, by simp [changeOf]⟩
  · have unchanged : (workflow.step action).task = workflow.task ∧
        (workflow.step action).timeline = workflow.timeline :=
      step_unchanged fun index isIndex => isCommit ⟨index, isIndex⟩
    rw [unchanged.1, unchanged.2]
    exact ⟨SameWorkflow.rfl.advances coherent.audited.completion, [], by simp, by simp [changeOf]⟩

/-- The completion of a task at the start of a stretch is there at its end. -/
theorem Coherent.keepsCompletion (coherent : Coherent workflow) (stretch : List Action)
    (completed : Always Workflow.step (fun state => state.task.workflowStatus = .completed)
      workflow stretch) :
    SameCompletion workflow.task (run Workflow.step workflow stretch).task := by
  induction stretch generalizing workflow with
  | nil => exact ⟨rfl, rfl⟩
  | cons action rest inductionHypothesis =>
      have next : (workflow.step action).task.workflowStatus = .completed := by
        cases rest with
        | nil => exact completed.2
        | cons second others => exact completed.2.1
      obtain ⟨first, second⟩ := coherent.advances.1.kept completed.1 next
      obtain ⟨restAt, restBy⟩ := inductionHypothesis coherent.step completed.2
      exact ⟨restAt.trans first, restBy.trans second⟩

/-- Whatever order the statements of calls on a task are executed in and
whichever of them fail: its completion columns agree with its status, its
timeline is a chain of typed changes from `todo` to that status, a call that
fails changes nothing, and a completion stays what it was until the task is
taken out of `completed`. -/
theorem workflow_audited (task : Task) (actions : List Action) :
    Always Workflow.step Audited (Workflow.created task) actions ∧
    EveryStep Workflow.step Audits (Workflow.created task) actions ∧
    KeepsCompletion (Workflow.created task) actions := by
  have coherent := Coherent.created task
  have preserved : ∀ state action, Coherent state → Coherent (state.step action) :=
    fun _ _ coherent => coherent.step
  refine ⟨?_, ?_, ?_⟩
  · exact (always_invariant Coherent preserved coherent actions).imp
      fun _ coherent => coherent.audited
  · exact everyStep_invariant Coherent preserved
      (fun _ _ coherent => ⟨step_unchanged, coherent.advances.2⟩) coherent actions
  · intro first stretch rest _ completed
    rw [run_append]
    exact (run_invariant Coherent preserved coherent first).keepsCompletion stretch completed

/-- The actions of a call of three statements that nothing disturbs. -/
def movingTo (index : Nat) (request : Request) : List Action :=
  [.call index request 7, .lock index, .execute index, .execute index, .commit index]

example : (run Workflow.step (Workflow.created ⟨1, 1, 1, none, none, none, "Call", .call, .normal,
      .todo, 5, none, "", none, none⟩)
    (movingTo 0 (completeTask 1) ++ movingTo 1 (completeTask 1) ++
      movingTo 2 (reopenTask 1))).timeline.filterMap changeIn =
    [(.todo, .completed), (.completed, .todo)] := by
  decide

end BubllioCrm.Activities
