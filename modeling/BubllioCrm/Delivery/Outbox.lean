import BubllioCrm.Foundations.Pool
import BubllioCrm.Foundations.Table
import Mathlib.Algebra.Order.Ring.Nat

/-!
Owns the outbox: the rows of `OutboxMessage`, the delivery tasks with their
stages between two calls, the broker with the tasks it was given, and one
function for each statement of `delivery/tasks.py`.

Times are microseconds of one clock that never goes back. The broker delivers
a task at least once, so what was published may start again at any time. A
task that is still running at the end of its time limit is killed. What
`_send` does with the payload is not owned here, only that it returns or
raises.
-/

namespace BubllioCrm.Delivery

open BubllioCrm.Foundations

inductive Kind where
  | workspaceInvitation
  | ownerInvitation
  | installationAdminInvitation
  | passwordReset
  | automationRun
deriving DecidableEq

inductive Status where
  | queued
  | processing
  | sent
  | failed
deriving DecidableEq

structure OutboxMessage where
  id : Nat
  kind : Kind
  encryptedData : String
  status : Status := .queued
  attempts : Nat := 0
  availableAt : Nat
  lockedAt : Option Nat := none
  sentAt : Option Nat := none
  lastError : String := ""
deriving DecidableEq

def second : Nat := 1000000

/-- `LOCK_TIMEOUT`. -/
def lockTimeout : Nat := 15 * 60 * second

/-- `MAX_ATTEMPTS`. -/
def maxAttempts : Nat := 6

/-- `CELERY_TASK_TIME_LIMIT`. -/
def taskTimeLimit : Nat := 120 * second

/-- The `max_retries` of `deliver_outbox_message`. -/
def maxRetries : Nat := 5

/-- What a `PositiveSmallIntegerField` holds at most. -/
def maxSmallInteger : Nat := 32767

namespace OutboxMessage

/-- The row after `_claim`, which reads the clock for the test and again for
the lock, or no row when it returns `None` or the counter overflows. -/
def claim (checkedAt lockedAt : Nat) (message : OutboxMessage) : Option OutboxMessage :=
  if message.kind = .automationRun then none
  else if message.status = .sent ∨ message.status = .failed then none
  else if message.status = .processing ∧
      message.lockedAt.any (fun lockedAt => checkedAt < lockedAt + lockTimeout) then none
  else if maxSmallInteger < message.attempts + 1 then none
  else some {
    message with
    status := .processing
    lockedAt := some lockedAt
    attempts := message.attempts + 1
    lastError := "" }

/-- `save` with the fields that `_claim` names. -/
def saveClaim (message row : OutboxMessage) : OutboxMessage :=
  { row with
    status := message.status
    lockedAt := message.lockedAt
    attempts := message.attempts
    lastError := message.lastError }

/-- The update in the handler of the task. -/
def recordFailure (attempts delay readAt : Nat) (error : String) (message : OutboxMessage) :
    OutboxMessage :=
  { message with
    status := if maxAttempts ≤ attempts then .failed else .queued
    availableAt := readAt + delay
    lockedAt := none
    lastError := (error.take 2000).toString }

/-- The update after `_send` has returned. -/
def recordSent (readAt : Nat) (message : OutboxMessage) : OutboxMessage :=
  { message with
    status := .sent
    sentAt := some readAt
    lockedAt := none
    lastError := ""
    encryptedData := "" }

/-- The filter of the first statement of `dispatch_pending_outbox`. -/
def IsStale (readAt : Nat) (message : OutboxMessage) : Prop :=
  message.status = .processing ∧
    message.lockedAt.any (fun lockedAt => lockedAt + lockTimeout < readAt) = true

instance (readAt : Nat) : DecidablePred (IsStale readAt) :=
  fun message => inferInstanceAs (Decidable (message.status = .processing ∧ _))

def requeue (message : OutboxMessage) : OutboxMessage :=
  { message with status := .queued, lockedAt := none }

/-- The filter of the second statement. -/
def isPending (readAt : Nat) (message : OutboxMessage) : Bool :=
  message.status = .queued && message.availableAt ≤ readAt && message.kind ≠ .automationRun

end OutboxMessage

/-- The pause before the next attempt, in microseconds. -/
def backoff (attempts : Nat) : Nat :=
  min (60 * 2 ^ (attempts - 1)) 3600 * second

/-! ### Tasks -/

/-- Where a task is, with its copy of the counter and the time `_send` ended. -/
inductive Stage where
  | starting
  | claimed (attempts : Nat)
  | sending (attempts : Nat)
  | sent (attempts since : Nat)
  | raised (attempts since : Nat) (error : String)
  | retrying (delay : Nat)
deriving DecidableEq

structure Task where
  messageId : Nat
  retries : Nat
  startedAt : Nat
  stage : Stage := .starting
deriving DecidableEq

def Task.goto (stage : Stage) (task : Task) : Task :=
  { task with stage := stage }

/-- A task that was published, with the time before which it does not start. -/
structure Published where
  messageId : Nat
  retries : Nat := 0
  eta : Nat := 0
deriving DecidableEq

/-- How a transaction ends: committed, rolled back, or committed while the
task is lost. -/
inductive Commit where
  | commits
  | rollsBack
  | commitsAndEnds
deriving DecidableEq

/-! ### The outbox -/

structure Outbox where
  messages : List OutboxMessage := []
  broker : List Published := []
  tasks : List Task := []
  now : Nat := 0
  /-- The `_send` calls in their order, by message. -/
  sends : List Nat := []
deriving DecidableEq

inductive Action where
  /-- `queue_outbox_message`; the task may not get published. -/
  | queue (kind : Kind) (encryptedData : String) (published : Bool)
  /-- The first statement of `dispatch_pending_outbox`. -/
  | reclaim (readAt : Nat)
  /-- The rest of it, which may end after some of the tasks are published. -/
  | publish (readAt count : Nat)
  | deliver (index : Nat)
  | claim (index checkedAt lockedAt : Nat) (commit : Commit)
  | startSend (index : Nat)
  | finishSend (index : Nat) (error : Option String)
  | record (index readAt : Nat) (commit : Commit)
  | retry (index : Nat) (published : Bool)
  /-- The worker of a task is lost, or the task ends with an exception. -/
  | lose (index : Nat)
  | advance (elapsed : Nat)
deriving DecidableEq

namespace Outbox

def queue (kind : Kind) (encryptedData : String) (published : Bool) (outbox : Outbox) : Outbox :=
  let message : OutboxMessage :=
    { id := outbox.messages.length, kind := kind, encryptedData := encryptedData,
      availableAt := outbox.now }
  { outbox with
    messages := outbox.messages ++ [message]
    broker := outbox.broker ++ if published then [{ messageId := message.id }] else [] }

def reclaim (readAt : Nat) (outbox : Outbox) : Outbox :=
  { outbox with
    messages := updateWhere (OutboxMessage.IsStale readAt) OutboxMessage.requeue outbox.messages }

def publish (readAt count : Nat) (outbox : Outbox) : Outbox :=
  let pending := (outbox.messages.filter (OutboxMessage.isPending readAt)).take 500
  { outbox with
    broker := outbox.broker ++
      (pending.take count).map fun message => { messageId := message.id } }

def deliver (delivery : Published) (outbox : Outbox) : Outbox :=
  { outbox with
    tasks := outbox.tasks ++ [{
      messageId := delivery.messageId
      retries := delivery.retries
      startedAt := outbox.now }] }

def become (index : Nat) (next : List Task) (outbox : Outbox) : Outbox :=
  { outbox with tasks := replaceAt index next outbox.tasks }

def save (messageId : Nat) (change : OutboxMessage → OutboxMessage) (outbox : Outbox) : Outbox :=
  { outbox with messages := updateWhere (·.id = messageId) change outbox.messages }

/-- A task that claims no row ends. -/
def claim (index : Nat) (task : Task) (checkedAt lockedAt : Nat) (commit : Commit)
    (outbox : Outbox) : Outbox :=
  match (outbox.messages.find? (·.id = task.messageId)).bind
      (OutboxMessage.claim checkedAt lockedAt), commit with
  | none, _ => outbox.become index []
  | some _, .rollsBack => outbox.become index []
  | some message, .commits =>
      (outbox.save task.messageId message.saveClaim).become index
        [task.goto (.claimed message.attempts)]
  | some message, .commitsAndEnds =>
      (outbox.save task.messageId message.saveClaim).become index []

def startSend (index : Nat) (task : Task) (attempts : Nat) (outbox : Outbox) : Outbox :=
  { outbox.become index [task.goto (.sending attempts)] with
    sends := outbox.sends ++ [task.messageId] }

def finishSend (index : Nat) (task : Task) (attempts : Nat) (error : Option String)
    (outbox : Outbox) : Outbox :=
  match error with
  | none => outbox.become index [task.goto (.sent attempts outbox.now)]
  | some error => outbox.become index [task.goto (.raised attempts outbox.now error)]

def recordSent (index : Nat) (task : Task) (readAt : Nat) (commit : Commit) (outbox : Outbox) :
    Outbox :=
  match commit with
  | .rollsBack => outbox.become index []
  | _ => (outbox.save task.messageId (OutboxMessage.recordSent readAt)).become index []

/-- After the last attempt the task raises, and after the others it retries. -/
def recordFailure (index : Nat) (task : Task) (attempts : Nat) (error : String) (readAt : Nat)
    (commit : Commit) (outbox : Outbox) : Outbox :=
  let delay := backoff attempts
  let change := OutboxMessage.recordFailure attempts delay readAt error
  match commit with
  | .rollsBack => outbox.become index []
  | .commitsAndEnds => (outbox.save task.messageId change).become index []
  | .commits =>
      (outbox.save task.messageId change).become index
        (if maxAttempts ≤ attempts then [] else [task.goto (.retrying delay)])

/-- `self.retry`, which raises once the retries are used up. -/
def retry (index : Nat) (task : Task) (delay : Nat) (published : Bool) (outbox : Outbox) : Outbox :=
  let again : Published :=
    { messageId := task.messageId, retries := task.retries + 1, eta := outbox.now + delay }
  { outbox.become index [] with
    broker := outbox.broker ++ if published ∧ task.retries < maxRetries then [again] else [] }

/-- Time passes, and tasks that have used up their time are killed. -/
def advance (elapsed : Nat) (outbox : Outbox) : Outbox :=
  { outbox with
    now := outbox.now + elapsed
    tasks := outbox.tasks.filter fun task =>
      outbox.now + elapsed ≤ task.startedAt + taskTimeLimit }

/-- The outbox after an action. An action that does not fit the stage of its
task, or that reads another time than the clock has shown to it, changes
nothing. -/
def step (outbox : Outbox) (action : Action) : Outbox :=
  match action with
  | .queue kind encryptedData published => outbox.queue kind encryptedData published
  | .reclaim readAt => if readAt ≤ outbox.now then outbox.reclaim readAt else outbox
  | .publish readAt count => if readAt ≤ outbox.now then outbox.publish readAt count else outbox
  | .deliver index =>
      match outbox.broker[index]? with
      | some delivery => if delivery.eta ≤ outbox.now then outbox.deliver delivery else outbox
      | none => outbox
  | .claim index checkedAt lockedAt commit =>
      match outbox.tasks[index]? with
      | some ⟨messageId, retries, startedAt, .starting⟩ =>
          if startedAt ≤ checkedAt ∧ checkedAt ≤ lockedAt ∧ lockedAt ≤ outbox.now then
            outbox.claim index ⟨messageId, retries, startedAt, .starting⟩ checkedAt lockedAt commit
          else outbox
      | _ => outbox
  | .startSend index =>
      match outbox.tasks[index]? with
      | some ⟨messageId, retries, startedAt, .claimed attempts⟩ =>
          outbox.startSend index ⟨messageId, retries, startedAt, .claimed attempts⟩ attempts
      | _ => outbox
  | .finishSend index error =>
      match outbox.tasks[index]? with
      | some ⟨messageId, retries, startedAt, .sending attempts⟩ =>
          outbox.finishSend index ⟨messageId, retries, startedAt, .sending attempts⟩ attempts error
      | _ => outbox
  | .record index readAt commit =>
      match outbox.tasks[index]? with
      | some ⟨messageId, retries, startedAt, .sent attempts since⟩ =>
          if since ≤ readAt ∧ readAt ≤ outbox.now then
            outbox.recordSent index ⟨messageId, retries, startedAt, .sent attempts since⟩ readAt
              commit
          else outbox
      | some ⟨messageId, retries, startedAt, .raised attempts since error⟩ =>
          if since ≤ readAt ∧ readAt ≤ outbox.now then
            outbox.recordFailure index
              ⟨messageId, retries, startedAt, .raised attempts since error⟩ attempts error readAt
              commit
          else outbox
      | _ => outbox
  | .retry index published =>
      match outbox.tasks[index]? with
      | some ⟨messageId, retries, startedAt, .retrying delay⟩ =>
          outbox.retry index ⟨messageId, retries, startedAt, .retrying delay⟩ delay published
      | _ => outbox
  | .lose index => outbox.become index []
  | .advance elapsed => outbox.advance elapsed

end Outbox

end BubllioCrm.Delivery
