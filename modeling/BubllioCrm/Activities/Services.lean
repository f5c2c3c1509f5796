import BubllioCrm.Companies.Timeline

/-!
Owns the tasks of a workspace and the statements of `activities/services.py`:
what each of them does to the task that the call has locked, to the row and to
the timeline.

Times are numbers of a clock. A `TaskAttrs` is what the serializer has
validated, with `none` for a field that the request does not name.
-/

namespace BubllioCrm.Activities

open BubllioCrm.Companies

inductive WorkflowStatus where
  | todo
  | inProgress
  | waiting
  | completed
deriving DecidableEq

inductive Kind where
  | task
  | call
  | email
  | meeting
deriving DecidableEq

inductive Priority where
  | low
  | normal
  | high
  | urgent
deriving DecidableEq

structure Task where
  id : Nat
  organization : Nat
  company : Nat
  contact : Option Nat := none
  deal : Option Nat := none
  assignedTo : Option Nat := none
  title : String
  kind : Kind := .task
  priority : Priority := .normal
  workflowStatus : WorkflowStatus := .todo
  dueAt : Nat
  reminderAt : Option Nat := none
  notes : String := ""
  completedAt : Option Nat := none
  completedBy : Option Nat := none
deriving DecidableEq

structure TaskAttrs where
  company : Option Nat := none
  contact : Option (Option Nat) := none
  deal : Option (Option Nat) := none
  assignedTo : Option (Option Nat) := none
  title : Option String := none
  kind : Option Kind := none
  priority : Option Priority := none
  dueAt : Option Nat := none
  reminderAt : Option (Option Nat) := none
  notes : Option String := none
deriving DecidableEq

/-- The names of the fields in the order of the serializer. -/
def TaskAttrs.fields (attrs : TaskAttrs) : List String :=
  [("company", attrs.company.isSome), ("contact", attrs.contact.isSome),
    ("deal", attrs.deal.isSome), ("assigned_to", attrs.assignedTo.isSome),
    ("title", attrs.title.isSome), ("kind", attrs.kind.isSome),
    ("priority", attrs.priority.isSome), ("due_at", attrs.dueAt.isSome),
    ("reminder_at", attrs.reminderAt.isSome), ("notes", attrs.notes.isSome)].filterMap
      fun field => if field.2 then some field.1 else none

/-- The assignments of `update_task`, and the columns that its first `save` writes. -/
def TaskAttrs.setOn (attrs : TaskAttrs) (task : Task) : Task :=
  { task with
    company := attrs.company.getD task.company
    contact := attrs.contact.getD task.contact
    deal := attrs.deal.getD task.deal
    assignedTo := attrs.assignedTo.getD task.assignedTo
    title := attrs.title.getD task.title
    kind := attrs.kind.getD task.kind
    priority := attrs.priority.getD task.priority
    dueAt := attrs.dueAt.getD task.dueAt
    reminderAt := attrs.reminderAt.getD task.reminderAt
    notes := attrs.notes.getD task.notes }

/-- The constraint `task_completion_matches_workflow`. -/
def Task.CompletionMatches (task : Task) : Prop :=
  task.workflowStatus = .completed ↔ task.completedAt.isSome = true

instance : DecidablePred Task.CompletionMatches :=
  fun task => inferInstanceAs (Decidable (task.workflowStatus = .completed ↔ _))

/-- The assignments of `_apply_workflow_status`. -/
def Task.applyWorkflowStatus (workflowStatus : WorkflowStatus) (user now : Nat) (task : Task) :
    Task :=
  if workflowStatus = .completed then
    if task.completedAt = none then
      { task with
        workflowStatus := workflowStatus
        completedAt := some now
        completedBy := some user }
    else { task with workflowStatus := workflowStatus }
  else
    { task with
      workflowStatus := workflowStatus
      completedAt := none
      completedBy := none }

/-- `save` with the columns that `_apply_workflow_status` names. -/
def Task.saveWorkflow (task row : Task) : Task :=
  { row with
    workflowStatus := task.workflowStatus
    completedAt := task.completedAt
    completedBy := task.completedBy }

/-! ### Events -/

inductive Details where
  | fields (taskTitle : String) (fields : List String)
  | workflow (taskTitle : String) (fromStatus toStatus : WorkflowStatus)
deriving DecidableEq

abbrev Event := TimelineEvent Details

/-- The type of the event for a change of the status. -/
def workflowEventType (fromStatus toStatus : WorkflowStatus) : EventType :=
  if toStatus = .completed then .taskCompleted
  else if fromStatus = .completed then .taskReopened
  else .taskStatusChanged

/-- What `update_task` always records. -/
def Task.updatedEvent (task : Task) (user : Nat) (changedFields : List String) : Event where
  company := task.company
  actor := user
  eventType := .taskUpdated
  sourceId := task.id
  details := .fields task.title changedFields

/-- What `_record_workflow_change` records. -/
def Task.workflowEvents (task : Task) (previousStatus : WorkflowStatus) (user : Nat) :
    List Event :=
  if previousStatus = task.workflowStatus then []
  else [{
    company := task.company
    actor := user
    eventType := workflowEventType previousStatus task.workflowStatus
    sourceId := task.id
    details := .workflow task.title previousStatus task.workflowStatus }]

/-! ### The statements of a call -/

inductive Request where
  | updateTask (organization : Nat) (attrs : TaskAttrs) (workflowStatus : Option WorkflowStatus)
  | moveTask (organization : Nat) (workflowStatus : WorkflowStatus)
deriving DecidableEq

def completeTask (organization : Nat) : Request :=
  .moveTask organization .completed

def reopenTask (organization : Nat) : Request :=
  .moveTask organization .todo

/-- The organization with which the row is selected. -/
def Request.organization : Request → Nat
  | .updateTask organization _ _ => organization
  | .moveTask organization _ => organization

/-- The status that a call names. -/
def Request.workflowStatus? : Request → Option WorkflowStatus
  | .updateTask _ _ workflowStatus => workflowStatus
  | .moveTask _ workflowStatus => some workflowStatus

/-- The next statement of a call. -/
inductive Point where
  | saveFields
  | saveStatus
  | recordUpdated
  | recordChange
  | commit
deriving DecidableEq

/-- Where a call starts once it has locked the row. -/
def Request.firstPoint : Request → Point
  | .updateTask _ _ _ => .saveFields
  | .moveTask _ _ => .saveStatus

/-- The object of a call, the row as its transaction sees it, and what it has
recorded. -/
structure Body where
  locked : Task
  row : Task
  previousStatus : WorkflowStatus
  recorded : List Event := []
deriving DecidableEq

/-- A call that has just read the row. -/
def Body.ofRow (row : Task) : Body where
  locked := row
  row := row
  previousStatus := row.workflowStatus

def Body.saveFields (attrs : TaskAttrs) (body : Body) : Body :=
  { body with locked := attrs.setOn body.locked, row := attrs.setOn body.row }

def Body.saveStatus (workflowStatus : WorkflowStatus) (user now : Nat) (body : Body) : Body :=
  let locked := body.locked.applyWorkflowStatus workflowStatus user now
  { body with
    locked := locked
    row := locked.saveWorkflow body.row
    previousStatus := body.locked.workflowStatus }

def Body.recordUpdated (user : Nat) (changedFields : List String) (body : Body) : Body :=
  { body with recorded := body.recorded ++ [body.locked.updatedEvent user changedFields] }

def Body.recordChange (user : Nat) (body : Body) : Body :=
  { body with recorded := body.recorded ++ body.locked.workflowEvents body.previousStatus user }

/-- The statement of a call at a point, and the point behind it. `update_task`
names the status last among the changed fields. -/
def Body.execute (request : Request) (user now : Nat) (point : Point) (body : Body) :
    Body × Point :=
  match point, request with
  | .saveFields, .updateTask _ attrs _ => (body.saveFields attrs, .saveStatus)
  | .saveFields, .moveTask _ _ => (body, .saveStatus)
  | .saveStatus, .updateTask _ _ none => (body, .recordUpdated)
  | .saveStatus, .updateTask _ _ (some workflowStatus) =>
      (body.saveStatus workflowStatus user now, .recordUpdated)
  | .saveStatus, .moveTask _ workflowStatus =>
      (body.saveStatus workflowStatus user now, .recordChange)
  | .recordUpdated, .updateTask _ attrs workflowStatus =>
      (body.recordUpdated user
        (attrs.fields ++ if workflowStatus.isSome then ["workflow_status"] else []), .recordChange)
  | .recordUpdated, .moveTask _ _ => (body, .recordChange)
  | .recordChange, _ => (body.recordChange user, .commit)
  | .commit, _ => (body, .commit)

end BubllioCrm.Activities
