import BubllioCrm.Delivery.Attempts

/-!
Owns the pause behind a failed attempt: no send starts before the row is
available, as long as no task claims a row before that. A claim does not look
at the time from which the row is available.
-/

namespace BubllioCrm.Delivery

open BubllioCrm.Foundations

/-- The message whose send an action starts. -/
def Outbox.startingSend (outbox : Outbox) (action : Action) : Option Nat :=
  match action with
  | .startSend index =>
      match outbox.tasks[index]? with
      | some ⟨messageId, _, _, .claimed _⟩ => some messageId
      | _ => none
  | _ => none

/-- A send starts when its row is available. -/
def SendsInTime (outbox : Outbox) (action : Action) : Prop :=
  ∀ messageId ∈ outbox.startingSend action, ∀ row ∈ outbox.messages, row.id = messageId →
    row.availableAt ≤ outbox.now

instance (outbox : Outbox) (action : Action) : Decidable (SendsInTime outbox action) :=
  inferInstanceAs (Decidable (∀ messageId ∈ outbox.startingSend action, _))

/-- The failed attempt that an action records: its message and its number, and
when the send ended. -/
def Outbox.failing (outbox : Outbox) (action : Action) : Option (Nat × Nat × Nat) :=
  match action with
  | .record _ _ .rollsBack => none
  | .record index readAt _ =>
      match outbox.tasks[index]? with
      | some ⟨messageId, _, _, .raised attempts since _⟩ =>
          if since ≤ readAt ∧ readAt ≤ outbox.now then some (messageId, attempts, since) else none
      | _ => none
  | _ => none

/-- Every send behind a recorded failure waits for the pause of that attempt. -/
def BacksOff (actions : List Action) : Prop :=
  ∀ before failure middle start after messageId attempts since,
    actions = before ++ failure :: (middle ++ start :: after) →
    (run Outbox.step {} before).failing failure = some (messageId, attempts, since) →
    (run Outbox.step {} (before ++ failure :: middle)).startingSend start = some messageId →
    since + backoff attempts ≤ (run Outbox.step {} (before ++ failure :: middle)).now

/-- The row that an action claims for a task that goes on to send. -/
def Outbox.claiming (outbox : Outbox) (action : Action) : Option OutboxMessage :=
  match action with
  | .claim index checkedAt lockedAt .commits =>
      match outbox.tasks[index]? with
      | some ⟨messageId, _, startedAt, .starting⟩ =>
          if startedAt ≤ checkedAt ∧ checkedAt ≤ lockedAt ∧ lockedAt ≤ outbox.now then
            (outbox.messages.find? (·.id = messageId)).filter fun row =>
              (row.claim checkedAt lockedAt).isSome
          else none
      | _ => none
  | _ => none

/-- A row is claimed only when it is available. -/
def ClaimsInTime (outbox : Outbox) (action : Action) : Prop :=
  ∀ row ∈ outbox.claiming action, row.availableAt ≤ outbox.now

instance (outbox : Outbox) (action : Action) : Decidable (ClaimsInTime outbox action) :=
  inferInstanceAs (Decidable (∀ row ∈ outbox.claiming action, _))

/-- No task that may start its send has a row that is not available yet. -/
def NoneEarly (outbox : Outbox) : Prop :=
  ∀ task ∈ outbox.tasks, ∀ attempts, task.stage = .claimed attempts →
    ∀ row ∈ outbox.messages, row.id = task.messageId → row.availableAt ≤ outbox.now

/-! ### The invariant -/

/-- When a holder has started its send at the latest. -/
def Task.sentBy (now : Nat) (task : Task) : Nat :=
  match task.stage with
  | .sent _ since => since
  | .raised _ since _ => since
  | _ => now

/-- A holder has claimed an available row, and its send did not end before. -/
structure Timely (outbox : Outbox) : Prop where
  leased : Leased outbox
  available : ∀ task ∈ outbox.tasks, ∀ attempts, task.holds = some attempts →
    ∀ row ∈ outbox.messages, row.id = task.messageId → row.availableAt ≤ task.sentBy outbox.now

theorem Timely.initial : Timely {} :=
  ⟨Leased.initial, by simp⟩

variable {outbox after : Outbox} {task : Task} {index attempts readAt : Nat} {row : OutboxMessage}
  {action : Action}

theorem Timely.noneEarly (timely : Timely outbox) : NoneEarly outbox := by
  intro task member attempts stage row stored same
  have holds : task.holds = some attempts := by simp only [Task.holds, stage]
  have available := timely.available task member attempts holds row stored same
  simpa only [Task.sentBy, stage] using available

theorem sentBy_mono {now later : Nat} (passes : now ≤ later) :
    task.sentBy now ≤ task.sentBy later := by
  unfold Task.sentBy
  split
  · exact le_refl _
  · exact le_refl _
  · exact passes

/-! ### What a step does to the times -/

/-- Every row is available no earlier than before. -/
def AvailableLater (outbox after : Outbox) : Prop :=
  ∀ row ∈ outbox.messages, ∃ later ∈ after.messages, later.id = row.id ∧
    row.availableAt ≤ later.availableAt

theorem availableLater_of_messages (messages : after.messages = outbox.messages) :
    AvailableLater outbox after :=
  fun row stored => ⟨row, messages ▸ stored, rfl, le_refl _⟩

theorem availableLater_of_save {messageId : Nat} {change : OutboxMessage → OutboxMessage}
    (keepsId : ∀ row, (change row).id = row.id)
    (later : ∀ row ∈ outbox.messages, row.id = messageId →
      row.availableAt ≤ (change row).availableAt) :
    AvailableLater outbox (outbox.save messageId change) := by
  intro row stored
  by_cases isMessage : row.id = messageId
  · exact ⟨change row, mem_updateWhere_of_selected stored isMessage, keepsId row,
      later row stored isMessage⟩
  · exact ⟨row, mem_updateWhere_of_not_selected stored isMessage, rfl, le_refl _⟩

/-- Holders of unchanged times stay timely. -/
theorem Timely.kept (timely : Timely outbox) (leased : Leased after)
    (tasks : ∀ other ∈ after.tasks, ∀ attempts, other.holds = some attempts →
      ∃ before ∈ outbox.tasks, before.holds = some attempts ∧
        before.messageId = other.messageId ∧ before.sentBy outbox.now ≤ other.sentBy after.now)
    (rows : ∀ later ∈ after.messages, ∃ row ∈ outbox.messages, row.id = later.id ∧
      row.availableAt = later.availableAt) : Timely after := by
  refine ⟨leased, ?_⟩
  intro other member attempts holds later laterStored same
  obtain ⟨before, was, beforeHolds, sameMessage, sentBy⟩ := tasks other member attempts holds
  obtain ⟨row, stored, sameId, sameTime⟩ := rows later laterStored
  have available := timely.available before was attempts beforeHolds row stored
    (sameId.trans (same.trans sameMessage.symm))
  omega

/-- A task takes the place of another, with nothing held or with what that one
holds. -/
theorem Timely.moved (timely : Timely outbox) {next : List Task}
    (leased : Leased (outbox.become index next)) (found : outbox.tasks[index]? = some task)
    (becomes : ∀ other ∈ next, ∀ attempts, other.holds = some attempts →
      task.holds = some attempts ∧ task.messageId = other.messageId ∧
        task.sentBy outbox.now ≤ other.sentBy outbox.now) :
    Timely (outbox.become index next) := by
  apply timely.kept leased ?_ fun row stored => ⟨row, stored, rfl, rfl⟩
  intro other member attempts holds
  rcases mem_of_mem_replaceAt member with new | old
  · exact ⟨task, List.mem_of_getElem? found, becomes other new attempts holds⟩
  · exact ⟨other, old, holds, rfl, le_refl _⟩

/-- A holder gives up its message with any change of the row. -/
theorem Timely.gaveUp (timely : Timely outbox) {next : List Task}
    {change : OutboxMessage → OutboxMessage}
    (leased : Leased ((outbox.save task.messageId change).become index next))
    (found : outbox.tasks[index]? = some task) (holds : task.holds = some attempts)
    (free : ∀ other ∈ next, other.holds = none) (keepsId : ∀ row, (change row).id = row.id) :
    Timely ((outbox.save task.messageId change).become index next) := by
  refine ⟨leased, ?_⟩
  intro other member copied otherHolds later laterStored same
  obtain ⟨front, back, pool, replaced⟩ := exists_replaceAt found
  have apart := timely.leased.apart pool holds
  have member' : other ∈ replaceAt index next outbox.tasks := member
  rw [replaced] at member'
  have elsewhere : other ∈ front ++ back := by
    simp only [List.mem_append] at member' ⊢
    rcases member' with (early | new) | late
    · exact Or.inl early
    · rw [free other new] at otherHolds
      cases otherHolds
    · exact Or.inr late
  have isTask : other ∈ outbox.tasks := by
    rw [pool]
    simp only [List.mem_append, List.mem_cons] at elsewhere ⊢
    tauto
  have otherMessage : other.messageId ≠ task.messageId := by
    intro sameMessage
    apply apart
    rw [← sameMessage]
    exact List.mem_filterMap.mpr ⟨other, elsewhere, Task.held_of_holds otherHolds⟩
  obtain ⟨before, was, ⟨isMessage, rfl⟩ | ⟨-, rfl⟩⟩ := mem_save laterStored
  · rw [keepsId] at same
    exact absurd (same.symm.trans isMessage) otherMessage
  · exact timely.available other isTask copied otherHolds later was same

/-- A task claims an available row. -/
theorem Timely.claimed (timely : Timely outbox) {next : List Task} {message : OutboxMessage}
    (leased : Leased ((outbox.save task.messageId message.saveClaim).become index next))
    (stored : row ∈ outbox.messages) (same : row.id = task.messageId)
    (becomes : ∀ other ∈ next, other.messageId = task.messageId ∧
      other.stage = .claimed message.attempts ∧ row.availableAt ≤ outbox.now) :
    Timely ((outbox.save task.messageId message.saveClaim).become index next) := by
  refine ⟨leased, ?_⟩
  intro other member attempts holds later laterStored sameMessage
  obtain ⟨before, was, sameId, sameTime⟩ : ∃ before ∈ outbox.messages, before.id = later.id ∧
      before.availableAt = later.availableAt := by
    obtain ⟨before, was, ⟨-, rfl⟩ | ⟨-, rfl⟩⟩ := mem_save laterStored
    · exact ⟨before, was, rfl, rfl⟩
    · exact ⟨later, was, rfl, rfl⟩
  rcases mem_of_mem_replaceAt member with new | old
  · obtain ⟨otherMessage, stage, available⟩ := becomes other new
    have isRow : before = row := timely.leased.unique was stored
      (sameId.trans (sameMessage.trans (otherMessage.trans same.symm)))
    have sentBy : other.sentBy outbox.now = outbox.now := by simp only [Task.sentBy, stage]
    show later.availableAt ≤ other.sentBy outbox.now
    rw [sentBy, ← sameTime, isRow]
    exact available
  · rw [← sameTime]
    exact timely.available other old attempts holds before was (sameId.trans sameMessage)

section Steps

variable {checkedAt lockedAt : Nat} {commit : Commit}

theorem Timely.claim (timely : Timely outbox) (found : outbox.tasks[index]? = some task)
    (starting : task.stage = .starting)
    (leased : Leased (outbox.claim index task checkedAt lockedAt commit))
    (inTime : commit = .commits → ∀ row, outbox.messages.find? (·.id = task.messageId) = some row →
      (row.claim checkedAt lockedAt).isSome = true → row.availableAt ≤ outbox.now) :
    Timely (outbox.claim index task checkedAt lockedAt commit) ∧
      AvailableLater outbox (outbox.claim index task checkedAt lockedAt commit) := by
  have free : task.holds = none := by simp only [Task.holds, starting]
  have ended : Leased (outbox.become index []) →
      Timely (outbox.become index []) ∧ AvailableLater outbox (outbox.become index []) :=
    fun leased => ⟨timely.moved leased found (by simp), availableLater_of_messages rfl⟩
  unfold Outbox.claim at leased ⊢
  cases isRow : outbox.messages.find? (·.id = task.messageId) with
  | none =>
      simp only [isRow, Option.bind_none] at leased ⊢
      exact ended leased
  | some row =>
      have stored := List.mem_of_find?_eq_some isRow
      have same : row.id = task.messageId := by simpa using List.find?_some isRow
      cases claims : row.claim checkedAt lockedAt with
      | none =>
          simp only [isRow, Option.bind_some, claims] at leased ⊢
          exact ended leased
      | some message =>
          simp only [isRow, Option.bind_some, claims] at leased ⊢
          cases commit with
          | rollsBack => exact ended leased
          | commitsAndEnds =>
              exact ⟨timely.claimed leased stored same (by simp),
                availableLater_of_save (fun _ => rfl) fun _ _ _ => le_refl _⟩
          | commits =>
              refine ⟨timely.claimed leased stored same ?_,
                availableLater_of_save (fun _ => rfl) fun _ _ _ => le_refl _⟩
              intro other member
              rw [List.mem_singleton.mp member]
              exact ⟨rfl, rfl, inTime rfl row isRow (by rw [claims]; rfl)⟩

theorem Timely.recordSent {since : Nat} (timely : Timely outbox)
    (found : outbox.tasks[index]? = some task) (stage : task.stage = .sent attempts since)
    (leased : Leased (outbox.recordSent index task readAt commit)) :
    Timely (outbox.recordSent index task readAt commit) ∧
      AvailableLater outbox (outbox.recordSent index task readAt commit) := by
  have holds : task.holds = some attempts := by simp only [Task.holds, stage]
  have saved : AvailableLater outbox
      ((outbox.save task.messageId (OutboxMessage.recordSent readAt)).become index []) :=
    availableLater_of_save (fun _ => rfl) fun _ _ _ => le_refl _
  unfold Outbox.recordSent at leased ⊢
  cases commit with
  | rollsBack => exact ⟨timely.moved leased found (by simp), availableLater_of_messages rfl⟩
  | commits => exact ⟨timely.gaveUp leased found holds (by simp) fun _ => rfl, saved⟩
  | commitsAndEnds => exact ⟨timely.gaveUp leased found holds (by simp) fun _ => rfl, saved⟩

theorem Timely.recordFailure {since : Nat} {error : String} (timely : Timely outbox)
    (found : outbox.tasks[index]? = some task) (stage : task.stage = .raised attempts since error)
    (read : since ≤ readAt)
    (leased : Leased (outbox.recordFailure index task attempts error readAt commit)) :
    Timely (outbox.recordFailure index task attempts error readAt commit) ∧
      AvailableLater outbox (outbox.recordFailure index task attempts error readAt commit) := by
  have holds : task.holds = some attempts := by simp only [Task.holds, stage]
  have saved : ∀ next, AvailableLater outbox ((outbox.save task.messageId
      (OutboxMessage.recordFailure attempts (backoff attempts) readAt error)).become index
        next) := by
    intro next
    refine availableLater_of_save (fun _ => rfl) fun row stored same => ?_
    have available :=
      timely.available task (List.mem_of_getElem? found) attempts holds row stored same
    simp only [Task.sentBy, stage] at available
    show row.availableAt ≤ readAt + backoff attempts
    omega
  unfold Outbox.recordFailure at leased ⊢
  cases commit with
  | rollsBack => exact ⟨timely.moved leased found (by simp), availableLater_of_messages rfl⟩
  | commitsAndEnds => exact ⟨timely.gaveUp leased found holds (by simp) fun _ => rfl, saved _⟩
  | commits =>
      refine ⟨timely.gaveUp leased found holds ?_ fun _ => rfl, saved _⟩
      intro other member
      split_ifs at member
      · cases member
      · rw [List.mem_singleton.mp member]
        rfl

/-- The row that is queued has no holder. -/
theorem Timely.queue {kind : Kind} {encryptedData : String} {published : Bool}
    (timely : Timely outbox) (leased : Leased (outbox.queue kind encryptedData published)) :
    Timely (outbox.queue kind encryptedData published) ∧
      AvailableLater outbox (outbox.queue kind encryptedData published) := by
  refine ⟨⟨leased, ?_⟩, fun row stored => ⟨row, List.mem_append_left _ stored, rfl, le_refl _⟩⟩
  intro task member attempts holds row stored same
  rcases List.mem_append.mp stored with old | new
  · exact timely.available task member attempts holds row old same
  · obtain ⟨locked, lockedStored, sameId, -⟩ := timely.leased.locked task member attempts holds
    have below := key_lt_length timely.leased.numbered lockedStored
    have isNew : row.id = outbox.messages.length := by rw [List.mem_singleton.mp new]
    omega

theorem Timely.reclaim (timely : Timely outbox) (leased : Leased (outbox.reclaim readAt)) :
    Timely (outbox.reclaim readAt) ∧ AvailableLater outbox (outbox.reclaim readAt) := by
  constructor
  · apply timely.kept leased fun task member _ holds => ⟨task, member, holds, rfl, le_refl _⟩
    intro later laterStored
    obtain ⟨before, was, ⟨-, rfl⟩ | ⟨-, rfl⟩⟩ := mem_updateWhere.mp laterStored
    · exact ⟨before, was, rfl, rfl⟩
    · exact ⟨later, was, rfl, rfl⟩
  · intro row stored
    by_cases stale : row.IsStale readAt
    · exact ⟨_, mem_updateWhere_of_selected stored stale, rfl, le_refl _⟩
    · exact ⟨row, mem_updateWhere_of_not_selected stored stale, rfl, le_refl _⟩

theorem Timely.publish {count : Nat} (timely : Timely outbox)
    (leased : Leased (outbox.publish readAt count)) :
    Timely (outbox.publish readAt count) ∧ AvailableLater outbox (outbox.publish readAt count) :=
  ⟨timely.kept leased (fun task member _ holds => ⟨task, member, holds, rfl, le_refl _⟩)
    fun row stored => ⟨row, stored, rfl, rfl⟩, availableLater_of_messages rfl⟩

/-- The task that starts holds nothing. -/
theorem Timely.deliver {delivery : Published} (timely : Timely outbox)
    (leased : Leased (outbox.deliver delivery)) :
    Timely (outbox.deliver delivery) ∧ AvailableLater outbox (outbox.deliver delivery) := by
  refine ⟨⟨leased, ?_⟩, availableLater_of_messages rfl⟩
  intro task member attempts holds row stored same
  rcases List.mem_append.mp member with old | new
  · exact timely.available task old attempts holds row stored same
  · rw [List.mem_singleton.mp new] at holds
    cases holds

theorem Timely.startSend (timely : Timely outbox) (found : outbox.tasks[index]? = some task)
    (stage : task.stage = .claimed attempts)
    (leased : Leased (outbox.startSend index task attempts)) :
    Timely (outbox.startSend index task attempts) ∧
      AvailableLater outbox (outbox.startSend index task attempts) := by
  have holds : task.holds = some attempts := by simp only [Task.holds, stage]
  have sentBy : task.sentBy outbox.now = outbox.now := by simp only [Task.sentBy, stage]
  refine ⟨timely.kept leased ?_ fun row stored => ⟨row, stored, rfl, rfl⟩,
    availableLater_of_messages rfl⟩
  intro other member copied otherHolds
  rcases mem_of_mem_replaceAt member with new | old
  · rw [List.mem_singleton.mp new] at otherHolds ⊢
    exact ⟨task, List.mem_of_getElem? found, holds.trans otherHolds, rfl, sentBy.le⟩
  · exact ⟨other, old, otherHolds, rfl, le_refl _⟩

theorem Timely.finishSend {error : Option String} (timely : Timely outbox)
    (found : outbox.tasks[index]? = some task) (stage : task.stage = .sending attempts)
    (leased : Leased (outbox.finishSend index task attempts error)) :
    Timely (outbox.finishSend index task attempts error) ∧
      AvailableLater outbox (outbox.finishSend index task attempts error) := by
  have holds : task.holds = some attempts := by simp only [Task.holds, stage]
  have sentBy : task.sentBy outbox.now = outbox.now := by simp only [Task.sentBy, stage]
  cases error with
  | none | some error =>
      refine ⟨timely.moved leased found ?_, availableLater_of_messages rfl⟩
      intro other member copied otherHolds
      rw [List.mem_singleton.mp member] at otherHolds ⊢
      exact ⟨holds.trans otherHolds, rfl, sentBy.le⟩

/-- A task is gone, with what it held. -/
theorem Timely.gone (timely : Timely outbox) (leased : Leased after)
    (tasks : after.tasks = replaceAt index [] outbox.tasks)
    (messages : after.messages = outbox.messages) (now : after.now = outbox.now) :
    Timely after ∧ AvailableLater outbox after := by
  refine ⟨timely.kept leased ?_ fun row stored => ⟨row, messages ▸ stored, rfl, rfl⟩,
    availableLater_of_messages messages⟩
  intro other member copied holds
  rw [tasks] at member
  rcases mem_of_mem_replaceAt member with new | old
  · cases new
  · exact ⟨other, old, holds, rfl, now ▸ le_refl _⟩

theorem Timely.advance {elapsed : Nat} (timely : Timely outbox)
    (leased : Leased (outbox.advance elapsed)) :
    Timely (outbox.advance elapsed) ∧ AvailableLater outbox (outbox.advance elapsed) := by
  refine ⟨timely.kept leased ?_ fun row stored => ⟨row, stored, rfl, rfl⟩,
    availableLater_of_messages rfl⟩
  intro other member attempts holds
  exact ⟨other, List.mem_of_mem_filter member, holds, rfl,
    sentBy_mono (Nat.le_add_right outbox.now elapsed)⟩

end Steps

/-- A step that claims no row too early keeps the times. -/
theorem Timely.step (timely : Timely outbox) (inTime : ClaimsInTime outbox action) :
    Timely (outbox.step action) ∧ AvailableLater outbox (outbox.step action) := by
  have leased := step_leased outbox action timely.leased
  have idle : Timely outbox ∧ AvailableLater outbox outbox :=
    ⟨timely, availableLater_of_messages rfl⟩
  cases action with
  | queue kind encryptedData published => exact timely.queue leased
  | reclaim readAt =>
      simp only [Outbox.step] at leased ⊢
      split_ifs at leased ⊢
      · exact timely.reclaim leased
      · exact idle
  | publish readAt count =>
      simp only [Outbox.step] at leased ⊢
      split_ifs at leased ⊢
      · exact timely.publish leased
      · exact idle
  | deliver index =>
      simp only [Outbox.step] at leased ⊢
      split at leased
      · split_ifs at leased ⊢
        · exact timely.deliver leased
        · exact idle
      · exact idle
  | claim index checkedAt lockedAt commit =>
      simp only [Outbox.step] at leased ⊢
      split at leased
      · rename_i messageId retries startedAt found
        split_ifs at leased ⊢ with times
        · apply timely.claim found rfl leased
          rintro rfl row isRow claims
          apply inTime row
          simp only [Outbox.claiming, found, if_pos times, isRow, Option.filter_some, claims,
            if_true, Option.mem_def]
        · exact idle
      · exact idle
  | startSend index =>
      simp only [Outbox.step] at leased ⊢
      split at leased
      · rename_i found
        exact timely.startSend found rfl leased
      · exact idle
  | finishSend index error =>
      simp only [Outbox.step] at leased ⊢
      split at leased
      · rename_i found
        exact timely.finishSend found rfl leased
      · exact idle
  | record index readAt commit =>
      simp only [Outbox.step] at leased ⊢
      split at leased
      · rename_i found
        split_ifs at leased ⊢
        · exact timely.recordSent found rfl leased
        · exact idle
      · rename_i found
        split_ifs at leased ⊢ with times
        · exact timely.recordFailure found rfl times.1 leased
        · exact idle
      · exact idle
  | retry index published =>
      simp only [Outbox.step] at leased ⊢
      split at leased
      · exact timely.gone leased rfl rfl rfl
      · exact idle
  | lose index => exact timely.gone leased rfl rfl rfl
  | advance elapsed => exact timely.advance leased

/-! ### Runs -/

theorem startingSend_eq_some {messageId : Nat}
    (starts : outbox.startingSend action = some messageId) :
    ∃ task ∈ outbox.tasks, task.messageId = messageId ∧
      ∃ attempts, task.stage = .claimed attempts := by
  unfold Outbox.startingSend at starts
  split at starts
  · split at starts
    · rename_i found
      exact ⟨_, List.mem_of_getElem? found, Option.some.inj starts, _, rfl⟩
    · cases starts
  · cases starts

theorem Timely.sendsInTime (timely : Timely outbox) : SendsInTime outbox action := by
  intro messageId starts row stored same
  obtain ⟨task, member, isMessage, attempts, stage⟩ := startingSend_eq_some starts
  exact timely.noneEarly task member attempts stage row stored (same.trans isMessage.symm)

/-- A recorded failure makes the row available after the pause. -/
theorem Timely.failed {messageId since : Nat} (timely : Timely outbox)
    (fails : outbox.failing action = some (messageId, attempts, since)) :
    ∃ row ∈ (outbox.step action).messages, row.id = messageId ∧
      since + backoff attempts ≤ row.availableAt := by
  unfold Outbox.failing at fails
  split at fails
  · cases fails
  · rename_i index readAt commit commits
    split at fails
    · rename_i retries startedAt copied ended error found
      split_ifs at fails with times
      cases fails
      obtain ⟨row, stored, same, -⟩ :=
        timely.leased.locked _ (List.mem_of_getElem? found) attempts rfl
      refine ⟨OutboxMessage.recordFailure attempts (backoff attempts) readAt error row, ?_,
        same, ?_⟩
      · have saved : OutboxMessage.recordFailure attempts (backoff attempts) readAt error row ∈
            (outbox.save messageId
              (OutboxMessage.recordFailure attempts (backoff attempts) readAt error)).messages :=
          mem_updateWhere_of_selected stored same
        simp only [Outbox.step, found, if_pos times, Outbox.recordFailure]
        cases commit with
        | rollsBack => exact absurd rfl commits
        | commits => exact saved
        | commitsAndEnds => exact saved
      · show since + backoff attempts ≤ readAt + backoff attempts
        omega
    · cases fails
  · cases fails

/-- The row of a message is not available before a time. -/
structure Waiting (messageId time : Nat) (outbox : Outbox) : Prop where
  timely : Timely outbox
  waits : ∃ row ∈ outbox.messages, row.id = messageId ∧ time ≤ row.availableAt

theorem Waiting.step {messageId time : Nat} (waiting : Waiting messageId time outbox)
    (inTime : ClaimsInTime outbox action) : Waiting messageId time (outbox.step action) := by
  obtain ⟨timely, later⟩ := waiting.timely.step inTime
  obtain ⟨row, stored, isMessage, waits⟩ := waiting.waits
  obtain ⟨next, nextStored, sameId, noEarlier⟩ := later row stored
  exact ⟨timely, next, nextStored, sameId.trans isMessage, waits.trans noEarlier⟩

theorem backsOff_of_claimsInTime {actions : List Action}
    (inTime : EveryStep Outbox.step ClaimsInTime {} actions) : BacksOff actions := by
  rintro before failure middle start after messageId attempts since rfl fails starts
  obtain ⟨first, failing, rest⟩ := everyStep_append.mp inTime
  obtain ⟨between, -⟩ := everyStep_append.mp rest
  have timely : Timely (run Outbox.step {} before) :=
    (always_guarded Timely (fun _ _ timely inTime => (timely.step inTime).1) Timely.initial
      first).at_end
  have recorded : Waiting messageId (since + backoff attempts)
      ((run Outbox.step {} before).step failure) :=
    ⟨(timely.step failing).1, timely.failed fails⟩
  have waiting := (always_guarded (Waiting messageId (since + backoff attempts))
    (fun _ _ waiting inTime => waiting.step inTime) recorded between).at_end
  rw [run_append, run_cons] at starts ⊢
  obtain ⟨row, stored, same, waits⟩ := waiting.waits
  exact waits.trans (waiting.timely.sendsInTime messageId starts row stored same)

theorem claimsInTime_of_noneEarly (noneEarly : NoneEarly (outbox.step action)) :
    ClaimsInTime outbox action := by
  intro row claiming
  unfold Outbox.claiming at claiming
  split at claiming
  · rename_i index checkedAt lockedAt
    split at claiming
    · rename_i messageId retries startedAt found
      split_ifs at claiming with times
      · obtain ⟨isRow, claims⟩ := Option.filter_eq_some_iff.mp claiming
        have stored := List.mem_of_find?_eq_some isRow
        have same : row.id = messageId := by simpa using List.find?_some isRow
        obtain ⟨message, claims⟩ := Option.isSome_iff_exists.mp claims
        have steps : outbox.step (.claim index checkedAt lockedAt .commits) =
            (outbox.save messageId message.saveClaim).become index
              [⟨messageId, retries, startedAt, .claimed message.attempts⟩] := by
          simp only [Outbox.step, found, if_pos times, Outbox.claim, isRow, Option.bind_some,
            claims]
          rfl
        rw [steps] at noneEarly
        obtain ⟨front, back, pool, replaced⟩ := exists_replaceAt found
        refine noneEarly ⟨messageId, retries, startedAt, .claimed message.attempts⟩ ?_
          message.attempts rfl (message.saveClaim row) (mem_updateWhere_of_selected stored same)
          same
        show _ ∈ replaceAt index _ outbox.tasks
        rw [replaced]
        simp
      · cases claiming
    · cases claiming
  · cases claiming

/-- In every run in which a row is claimed only when it is available, no send
starts before that time, and behind a failed attempt the next send waits for
its pause. No task is about to send early exactly in these runs. -/
theorem backoff_respected (actions : List Action) :
    (EveryStep Outbox.step ClaimsInTime {} actions →
      EveryStep Outbox.step SendsInTime {} actions ∧ BacksOff actions) ∧
    (Always Outbox.step NoneEarly {} actions ↔
      EveryStep Outbox.step ClaimsInTime {} actions) := by
  constructor
  · intro inTime
    refine ⟨?_, backsOff_of_claimsInTime inTime⟩
    exact everyStep_guarded Timely (fun _ _ timely inTime => (timely.step inTime).1)
      (fun _ _ timely _ => timely.sendsInTime) Timely.initial inTime
  · apply always_iff_guarded Timely (fun _ => True)
    · exact fun _ timely => timely.noneEarly
    · exact fun _ _ timely _ inTime => (timely.step inTime).1
    · exact fun _ _ _ _ noneEarly => claimsInTime_of_noneEarly noneEarly
    · exact Timely.initial
    · exact fun _ _ => trivial

/-- A message whose first attempt fails while the broker still has a second
task of it. -/
def failedAttempt : List Action :=
  [.queue .passwordReset "" true, .publish 0 1, .deliver 0, .deliver 1, .claim 0 0 0 .commits,
    .startSend 0, .finishSend 0 (some "smtp"), .record 0 0 .commits]

/-- The second task sends a minute later. -/
theorem backoff_respected_waited :
    EveryStep Outbox.step SendsInTime {}
      (failedAttempt ++ [.advance (60 * second),
        .claim 1 (60 * second) (60 * second) .commits, .startSend 1]) :=
  ((backoff_respected _).1 (by decide +kernel)).1

/-- The second task sends at once. -/
theorem backoff_not_always_respected :
    ¬ ∀ actions, EveryStep Outbox.step SendsInTime {} actions := by
  intro always
  have early := always (failedAttempt ++ [.claim 1 0 0 .commits, .startSend 1])
  revert early
  decide +kernel

end BubllioCrm.Delivery
