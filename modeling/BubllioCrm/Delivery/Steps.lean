import BubllioCrm.Delivery.Outbox

/-!
Owns the actions of the outbox as one relation with a case for each thing an
action can do, from which the invariants are derived.
-/

namespace BubllioCrm.Delivery

open BubllioCrm.Foundations

/-- The copy of the counter in a task that has claimed its message and has not
recorded the outcome yet. -/
def Task.holds (task : Task) : Option Nat :=
  match task.stage with
  | .starting => none
  | .claimed attempts => some attempts
  | .sending attempts => some attempts
  | .sent attempts _ => some attempts
  | .raised attempts _ _ => some attempts
  | .retrying _ => none

/-- The message that a task holds. -/
def Task.held (task : Task) : Option Nat :=
  task.holds.map fun _ => task.messageId

/-- The task has the outcome of `_send` and may record it. -/
def Task.Ended (readAt now : Nat) (task : Task) : Prop :=
  match task.stage with
  | .sent _ since => since ≤ readAt ∧ readAt ≤ now
  | .raised _ since _ => since ≤ readAt ∧ readAt ≤ now
  | _ => False

/-- What a recorded outcome does to the row. -/
structure Records (attempts : Nat) (change : OutboxMessage → OutboxMessage) : Prop where
  keepsId : ∀ row, (change row).id = row.id
  keepsAttempts : ∀ row, (change row).attempts = row.attempts
  status : (∀ row, (change row).status = .sent) ∨
    maxAttempts ≤ attempts ∧ (∀ row, (change row).status = .failed) ∨
    ¬ maxAttempts ≤ attempts ∧ ∀ row, (change row).status = .queued

inductive OutboxStep (outbox : Outbox) : Action → Outbox → Prop where
  | idle {action : Action} : OutboxStep outbox action outbox
  | queued {action : Action} {row : OutboxMessage} {broker : List Published}
      (id : row.id = outbox.messages.length) (status : row.status = .queued)
      (attempts : row.attempts = 0) :
      OutboxStep outbox action
        { outbox with messages := outbox.messages ++ [row], broker := broker }
  | reclaimed {readAt : Nat} (past : readAt ≤ outbox.now) :
      OutboxStep outbox (.reclaim readAt) (outbox.reclaim readAt)
  | published {action : Action} {broker : List Published} :
      OutboxStep outbox action { outbox with broker := broker }
  | delivered {action : Action} {task : Task} (starting : task.stage = .starting)
      (startedAt : task.startedAt = outbox.now) :
      OutboxStep outbox action { outbox with tasks := outbox.tasks ++ [task] }
  | freed {action : Action} {index : Nat} {task : Task} {broker : List Published}
      (found : outbox.tasks[index]? = some task) (free : task.holds = none) :
      OutboxStep outbox action { outbox.become index [] with broker := broker }
  | claimed {index checkedAt lockedAt : Nat} {commit : Commit} {task : Task}
      {row message : OutboxMessage} {next : List Task}
      (found : outbox.tasks[index]? = some task) (starting : task.stage = .starting)
      (stored : row ∈ outbox.messages) (same : row.id = task.messageId)
      (claims : row.claim checkedAt lockedAt = some message)
      (started : task.startedAt ≤ lockedAt) (past : checkedAt ≤ outbox.now)
      (becomes : next = [] ∨ next = [task.goto (.claimed message.attempts)]) :
      OutboxStep outbox (.claim index checkedAt lockedAt commit)
        ((outbox.save task.messageId message.saveClaim).become index next)
  | sendStarted {index attempts : Nat} {task : Task}
      (found : outbox.tasks[index]? = some task) (stage : task.stage = .claimed attempts) :
      OutboxStep outbox (.startSend index) (outbox.startSend index task attempts)
  | sendFinished {action : Action} {index attempts : Nat} {task next : Task}
      (found : outbox.tasks[index]? = some task) (stage : task.stage = .sending attempts)
      (holds : next.holds = some attempts) (message : next.messageId = task.messageId)
      (startedAt : next.startedAt = task.startedAt)
      (ended : ∀ attempts, next.stage ≠ .claimed attempts ∧ next.stage ≠ .sending attempts) :
      OutboxStep outbox action (outbox.become index [next])
  | recorded {index attempts readAt : Nat} {commit : Commit} {task : Task} {next : List Task}
      {change : OutboxMessage → OutboxMessage} (found : outbox.tasks[index]? = some task)
      (holds : task.holds = some attempts) (ended : task.Ended readAt outbox.now)
      (records : Records attempts change)
      (free : ∀ other ∈ next, other.holds = none ∧ other.startedAt = task.startedAt) :
      OutboxStep outbox (.record index readAt commit)
        ((outbox.save task.messageId change).become index next)
  | unrecorded {index readAt : Nat} {task : Task} (found : outbox.tasks[index]? = some task)
      (ended : task.Ended readAt outbox.now) :
      OutboxStep outbox (.record index readAt .rollsBack) (outbox.become index [])
  | lost {index : Nat} {task : Task} (found : outbox.tasks[index]? = some task) :
      OutboxStep outbox (.lose index) (outbox.become index [])
  | advanced {elapsed : Nat} : OutboxStep outbox (.advance elapsed) (outbox.advance elapsed)

variable {outbox : Outbox} {index checkedAt lockedAt readAt : Nat} {task : Task} {commit : Commit}

theorem claim_outboxStep (found : outbox.tasks[index]? = some task)
    (starting : task.stage = .starting) (started : task.startedAt ≤ lockedAt)
    (past : checkedAt ≤ outbox.now) :
    OutboxStep outbox (.claim index checkedAt lockedAt commit)
      (outbox.claim index task checkedAt lockedAt commit) := by
  have free : task.holds = none := by simp only [Task.holds, starting]
  unfold Outbox.claim
  cases stored : outbox.messages.find? (·.id = task.messageId) with
  | none => exact .freed found free
  | some row =>
      cases claims : row.claim checkedAt lockedAt with
      | none =>
          simp only [Option.bind_some, claims]
          exact .freed found free
      | some message =>
          simp only [Option.bind_some, claims]
          have member := List.mem_of_find?_eq_some stored
          have same : row.id = task.messageId := by simpa using List.find?_some stored
          cases commit with
          | commits =>
              exact .claimed found starting member same claims started past (Or.inr rfl)
          | rollsBack => exact .freed found free
          | commitsAndEnds =>
              exact .claimed found starting member same claims started past (Or.inl rfl)

theorem recordSent_outboxStep {attempts since : Nat} (found : outbox.tasks[index]? = some task)
    (stage : task.stage = .sent attempts since)
    (times : since ≤ readAt ∧ readAt ≤ outbox.now) :
    OutboxStep outbox (.record index readAt commit)
      (outbox.recordSent index task readAt commit) := by
  have holds : task.holds = some attempts := by simp only [Task.holds, stage]
  have ended : task.Ended readAt outbox.now := by
    simp only [Task.Ended, stage]
    exact times
  have records : Records attempts (OutboxMessage.recordSent readAt) :=
    ⟨fun _ => rfl, fun _ => rfl, Or.inl fun _ => rfl⟩
  unfold Outbox.recordSent
  cases commit with
  | commits => exact .recorded found holds ended records (by simp)
  | rollsBack => exact .unrecorded found ended
  | commitsAndEnds => exact .recorded found holds ended records (by simp)

theorem recordFailure_outboxStep {attempts since : Nat} {error : String}
    (found : outbox.tasks[index]? = some task) (stage : task.stage = .raised attempts since error)
    (times : since ≤ readAt ∧ readAt ≤ outbox.now) :
    OutboxStep outbox (.record index readAt commit)
      (outbox.recordFailure index task attempts error readAt commit) := by
  have holds : task.holds = some attempts := by simp only [Task.holds, stage]
  have ended : task.Ended readAt outbox.now := by
    simp only [Task.Ended, stage]
    exact times
  have records : Records attempts
      (OutboxMessage.recordFailure attempts (backoff attempts) readAt error) := by
    refine ⟨fun _ => rfl, fun _ => rfl, Or.inr ?_⟩
    by_cases terminal : maxAttempts ≤ attempts
    · exact Or.inl ⟨terminal, fun _ => if_pos terminal⟩
    · exact Or.inr ⟨terminal, fun _ => if_neg terminal⟩
  unfold Outbox.recordFailure
  cases commit with
  | rollsBack => exact .unrecorded found ended
  | commitsAndEnds => exact .recorded found holds ended records (by simp)
  | commits =>
      refine .recorded found holds ended records ?_
      intro other member
      split_ifs at member with terminal
      · cases member
      · rw [List.mem_singleton.mp member]
        exact ⟨rfl, rfl⟩

/-- Every action is one of the cases. -/
theorem outboxStep (outbox : Outbox) (action : Action) :
    OutboxStep outbox action (outbox.step action) := by
  cases action with
  | queue kind encryptedData published => exact .queued rfl rfl rfl
  | reclaim readAt =>
      simp only [Outbox.step]
      split_ifs with past
      · exact .reclaimed past
      · exact .idle
  | publish readAt count =>
      simp only [Outbox.step]
      split_ifs
      · exact .published
      · exact .idle
  | deliver index =>
      simp only [Outbox.step]
      split
      · split_ifs
        · exact .delivered rfl rfl
        · exact .idle
      · exact .idle
  | claim index checkedAt lockedAt commit =>
      simp only [Outbox.step]
      split
      · split_ifs with times
        · exact claim_outboxStep ‹_› rfl (Nat.le_trans times.1 times.2.1)
            (Nat.le_trans times.2.1 times.2.2)
        · exact .idle
      · exact .idle
  | startSend index =>
      simp only [Outbox.step]
      split
      · exact .sendStarted ‹_› rfl
      · exact .idle
  | finishSend index error =>
      simp only [Outbox.step]
      split
      · rename_i found
        cases error with
        | none => exact .sendFinished found rfl rfl rfl rfl (by simp [Task.goto])
        | some error => exact .sendFinished found rfl rfl rfl rfl (by simp [Task.goto])
      · exact .idle
  | record index readAt commit =>
      simp only [Outbox.step]
      split
      · split_ifs with times
        · exact recordSent_outboxStep ‹_› rfl times
        · exact .idle
      · split_ifs with times
        · exact recordFailure_outboxStep ‹_› rfl times
        · exact .idle
      · exact .idle
  | retry index published =>
      simp only [Outbox.step]
      split
      · exact .freed ‹_› rfl
      · exact .idle
  | lose index =>
      simp only [Outbox.step]
      cases found : outbox.tasks[index]? with
      | none =>
          rw [Outbox.become, replaceAt_of_none found]
          exact .idle
      | some task => exact .lost found
  | advance elapsed => exact .advanced

end BubllioCrm.Delivery
