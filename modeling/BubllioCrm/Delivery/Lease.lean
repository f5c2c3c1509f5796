import BubllioCrm.Foundations.Execution
import BubllioCrm.Delivery.Steps

/-!
Owns the lease on a message: a task that has claimed it and not recorded the
outcome is the only one, because the lock outlives the time limit of tasks.
From this, sends of one message never overlap and its final states are final.
-/

namespace BubllioCrm.Delivery

open BubllioCrm.Foundations

/-- The row of a message is locked by the task. -/
def LockedBy (task : Task) (attempts : Nat) (row : OutboxMessage) : Prop :=
  row.id = task.messageId ∧ row.status = .processing ∧ row.attempts = attempts ∧
    ∃ lockedAt, row.lockedAt = some lockedAt ∧ task.startedAt ≤ lockedAt

structure Leased (outbox : Outbox) : Prop where
  numbered : outbox.messages.map OutboxMessage.id = List.range outbox.messages.length
  alive : ∀ task ∈ outbox.tasks, outbox.now ≤ task.startedAt + taskTimeLimit
  locked : ∀ task ∈ outbox.tasks, ∀ attempts, task.holds = some attempts →
    ∃ row ∈ outbox.messages, LockedBy task attempts row
  single : (outbox.tasks.filterMap Task.held).Nodup
  failed : ∀ row ∈ outbox.messages, row.status = .failed → maxAttempts ≤ row.attempts

theorem Leased.initial : Leased {} :=
  ⟨rfl, by simp, by simp, List.nodup_nil, by simp⟩

variable {outbox after : Outbox} {task : Task} {index attempts : Nat} {row : OutboxMessage}

theorem taskTimeLimit_lt_lockTimeout : taskTimeLimit < lockTimeout := by
  decide

theorem Task.held_of_holds (holds : task.holds = some attempts) :
    task.held = some task.messageId := by
  simp only [Task.held, holds, Option.map_some]

theorem Task.held_of_free (free : task.holds = none) : task.held = none := by
  simp only [Task.held, free, Option.map_none]

theorem Task.held_eq_some {messageId : Nat} (held : task.held = some messageId) :
    task.messageId = messageId ∧ ∃ attempts, task.holds = some attempts := by
  simp only [Task.held, Option.map_eq_some_iff] at held
  obtain ⟨attempts, holds, same⟩ := held
  exact ⟨same, attempts, holds⟩

theorem Leased.unique (leased : Leased outbox) {first second : OutboxMessage}
    (firstStored : first ∈ outbox.messages) (secondStored : second ∈ outbox.messages)
    (same : first.id = second.id) : first = second :=
  eq_of_key_eq leased.numbered firstStored secondStored same

/-! ### What a lock excludes -/

/-- The lock of a running task is not stale. -/
theorem Leased.fresh (leased : Leased outbox) (member : task ∈ outbox.tasks)
    (holds : task.holds = some attempts) (stored : row ∈ outbox.messages)
    (same : row.id = task.messageId) {readAt : Nat} (past : readAt ≤ outbox.now) :
    row.status = .processing ∧
      row.lockedAt.any (fun lockedAt => readAt < lockedAt + lockTimeout) = true := by
  obtain ⟨locked, lockedStored, sameId, processing, -, lockedAt, isLocked, started⟩ :=
    leased.locked task member attempts holds
  have isRow : locked = row := leased.unique lockedStored stored (sameId.trans same.symm)
  subst isRow
  have running := leased.alive task member
  have limit := taskTimeLimit_lt_lockTimeout
  refine ⟨processing, ?_⟩
  rw [isLocked, Option.any_some, decide_eq_true_eq]
  omega

/-- A message that a task can claim is held by none. -/
theorem Leased.free_of_claim (leased : Leased outbox) (stored : row ∈ outbox.messages)
    {checkedAt lockedAt : Nat} {message : OutboxMessage}
    (claims : row.claim checkedAt lockedAt = some message) (past : checkedAt ≤ outbox.now) :
    row.id ∉ outbox.tasks.filterMap Task.held := by
  intro isHeld
  obtain ⟨holder, member, held⟩ := List.mem_filterMap.mp isHeld
  obtain ⟨same, attempts, holds⟩ := Task.held_eq_some held
  have locked := leased.fresh member holds stored same.symm past
  unfold OutboxMessage.claim at claims
  rw [if_pos locked] at claims
  split_ifs at claims

/-- What a task holds is not stale. -/
theorem Leased.not_stale (leased : Leased outbox) (member : task ∈ outbox.tasks)
    (holds : task.holds = some attempts) (stored : row ∈ outbox.messages)
    (same : row.id = task.messageId) {readAt : Nat} (past : readAt ≤ outbox.now) :
    ¬ row.IsStale readAt := by
  rintro ⟨-, stale⟩
  obtain ⟨-, fresh⟩ := leased.fresh member holds stored same past
  cases lockedAt : row.lockedAt with
  | none => simp [lockedAt] at fresh
  | some time =>
      rw [lockedAt, Option.any_some, decide_eq_true_eq] at stale fresh
      omega

/-! ### Preservation -/

/-- Steps that leave the rows alone and at most drop a holder. -/
theorem Leased.sameRows (leased : Leased outbox) (messages : after.messages = outbox.messages)
    (alive : ∀ other ∈ after.tasks, after.now ≤ other.startedAt + taskTimeLimit)
    (held : (after.tasks.filterMap Task.held).Sublist (outbox.tasks.filterMap Task.held))
    (origin : ∀ other ∈ after.tasks, ∀ attempts, other.holds = some attempts →
      ∃ before ∈ outbox.tasks, before.holds = some attempts ∧
        before.messageId = other.messageId ∧ before.startedAt = other.startedAt) :
    Leased after := by
  refine ⟨messages ▸ leased.numbered, alive, ?_, leased.single.sublist held,
    messages ▸ leased.failed⟩
  intro other member attempts holds
  obtain ⟨before, beforeMember, beforeHolds, sameMessage, sameStart⟩ :=
    origin other member attempts holds
  obtain ⟨row, stored, locked⟩ := leased.locked before beforeMember attempts beforeHolds
  unfold LockedBy at locked
  rw [sameMessage, sameStart] at locked
  exact ⟨row, messages ▸ stored, locked⟩

section Pool

variable {front back next : List Task}

private theorem alive_replaced (leased : Leased outbox)
    (pool : outbox.tasks = front ++ task :: back)
    (started : ∀ other ∈ next, other.startedAt = task.startedAt) :
    ∀ other ∈ front ++ next ++ back, outbox.now ≤ other.startedAt + taskTimeLimit := by
  intro other member
  simp only [List.mem_append] at member
  rcases member with (early | new) | late
  · exact leased.alive other (by simp [pool, early])
  · rw [started other new]
    exact leased.alive task (by simp [pool])
  · exact leased.alive other (by simp [pool, late])

private theorem held_replaced (pool : outbox.tasks = front ++ task :: back)
    (held : next.filterMap Task.held = [] ∨ next.filterMap Task.held = task.held.toList) :
    ((front ++ next ++ back).filterMap Task.held).Sublist (outbox.tasks.filterMap Task.held) := by
  have split : (task :: back).filterMap Task.held =
      task.held.toList ++ back.filterMap Task.held := by
    cases isHeld : task.held <;> simp [isHeld]
  rw [pool, List.filterMap_append, List.filterMap_append, List.filterMap_append, split,
    List.append_assoc]
  apply List.Sublist.append (List.Sublist.refl _)
  rcases held with none | same
  · rw [none]
    exact List.sublist_append_right _ _
  · rw [same]

/-- A task ends, or goes on without a change to what it holds. -/
theorem Leased.replaced (leased : Leased outbox) (pool : outbox.tasks = front ++ task :: back)
    (messages : after.messages = outbox.messages) (now : after.now = outbox.now)
    (tasks : after.tasks = front ++ next ++ back)
    (becomes : next = [] ∨ ∃ moved, next = [moved] ∧ moved.holds = task.holds ∧
      moved.messageId = task.messageId ∧ moved.startedAt = task.startedAt) :
    Leased after := by
  apply leased.sameRows messages
  · rw [tasks, now]
    apply alive_replaced leased pool
    rcases becomes with rfl | ⟨moved, rfl, -, -, started⟩
    · simp
    · simpa using started
  · rw [tasks]
    apply held_replaced pool
    rcases becomes with rfl | ⟨moved, rfl, holds, message, -⟩
    · exact Or.inl rfl
    · right
      have same : moved.held = task.held := by simp only [Task.held, holds, message]
      rw [← same]
      cases isHeld : moved.held <;> simp [isHeld]
  · intro other member attempts holds
    rw [tasks] at member
    simp only [List.mem_append] at member
    rcases member with (early | new) | late
    · exact ⟨other, by simp [pool, early], holds, rfl, rfl⟩
    · rcases becomes with rfl | ⟨moved, rfl, sameHolds, sameMessage, sameStart⟩
      · cases new
      · rw [List.mem_singleton.mp new] at holds ⊢
        exact ⟨task, by simp [pool], sameHolds ▸ holds, sameMessage.symm, sameStart.symm⟩
    · exact ⟨other, by simp [pool, late], holds, rfl, rfl⟩

end Pool

theorem OutboxMessage.claim_eq_some {checkedAt lockedAt : Nat} {message : OutboxMessage}
    (claims : row.claim checkedAt lockedAt = some message) :
    message.status = .processing ∧ message.lockedAt = some lockedAt ∧
      message.attempts = row.attempts + 1 ∧ row.status ≠ .sent ∧ row.status ≠ .failed := by
  unfold OutboxMessage.claim at claims
  split_ifs at claims with automation final busy overflow
  cases claims
  exact ⟨rfl, rfl, rfl, fun sent => final (Or.inl sent), fun failed => final (Or.inr failed)⟩

/-- The rows after a change of one message. -/
theorem mem_save {messageId : Nat} {change : OutboxMessage → OutboxMessage}
    (stored : row ∈ (outbox.save messageId change).messages) :
    ∃ before ∈ outbox.messages, before.id = messageId ∧ row = change before ∨
      before.id ≠ messageId ∧ row = before :=
  mem_updateWhere.mp stored

theorem numbered_save (leased : Leased outbox) {messageId : Nat}
    {change : OutboxMessage → OutboxMessage} (keepsId : ∀ row, (change row).id = row.id) :
    (outbox.save messageId change).messages.map OutboxMessage.id =
      List.range (outbox.save messageId change).messages.length := by
  unfold Outbox.save
  simp only [length_updateWhere]
  rw [map_updateWhere keepsId]
  exact leased.numbered

/-- A task that claims its message becomes its holder, or ends at once. -/
theorem Leased.claimed (leased : Leased outbox) {checkedAt lockedAt : Nat}
    {message : OutboxMessage} {next : List Task} (found : outbox.tasks[index]? = some task)
    (starting : task.stage = .starting) (stored : row ∈ outbox.messages)
    (same : row.id = task.messageId) (claims : row.claim checkedAt lockedAt = some message)
    (started : task.startedAt ≤ lockedAt) (past : checkedAt ≤ outbox.now)
    (becomes : next = [] ∨ next = [task.goto (.claimed message.attempts)]) :
    Leased ((outbox.save task.messageId message.saveClaim).become index next) := by
  obtain ⟨front, back, pool, replaced⟩ := exists_replaceAt found
  obtain ⟨processing, isLocked, -, -, -⟩ := OutboxMessage.claim_eq_some claims
  have free : task.messageId ∉ outbox.tasks.filterMap Task.held :=
    same ▸ leased.free_of_claim stored claims past
  have tasks : ((outbox.save task.messageId message.saveClaim).become index next).tasks =
      front ++ next ++ back := replaced next
  have nothing : task.held = none := Task.held_of_free (by simp only [Task.holds, starting])
  constructor
  · exact numbered_save leased fun _ => rfl
  · rw [tasks]
    apply alive_replaced leased pool
    rcases becomes with rfl | rfl
    · simp
    · simp [Task.goto]
  · intro other member attempts holds
    have kept : other ∈ outbox.tasks →
        ∃ row ∈ (outbox.save task.messageId message.saveClaim).messages,
          LockedBy other attempts row := by
      intro was
      obtain ⟨row, rowStored, locked⟩ := leased.locked other was attempts holds
      have elsewhere : row.id ≠ task.messageId := by
        intro isTask
        apply free
        rw [← isTask, locked.1]
        exact List.mem_filterMap.mpr ⟨other, was, Task.held_of_holds holds⟩
      exact ⟨row, mem_updateWhere_of_not_selected rowStored elsewhere, locked⟩
    rw [tasks] at member
    simp only [List.mem_append] at member
    rcases member with (early | new) | late
    · exact kept (by simp [pool, early])
    · rcases becomes with rfl | rfl
      · cases new
      · rw [List.mem_singleton.mp new] at holds ⊢
        refine ⟨message.saveClaim row, mem_updateWhere_of_selected stored same, same, processing,
          Option.some.inj holds, lockedAt, isLocked, started⟩
    · exact kept (by simp [pool, late])
  · rw [tasks]
    have distinct := leased.single
    rw [pool] at distinct free
    simp only [List.filterMap_append, List.filterMap_cons, nothing, List.append_assoc]
      at distinct free ⊢
    rcases becomes with rfl | rfl
    · exact distinct
    · have isHeld : (task.goto (.claimed message.attempts)).held = some task.messageId := rfl
      simp only [List.filterMap_cons, isHeld, List.filterMap_nil]
      exact List.perm_middle.nodup_iff.mpr (List.nodup_cons.mpr ⟨free, distinct⟩)
  · intro other member failed
    obtain ⟨before, was, ⟨-, rfl⟩ | ⟨-, rfl⟩⟩ := mem_save member
    · have wrong : Status.processing = .failed := processing.symm.trans failed
      cases wrong
    · exact leased.failed other was failed

/-- A holder records its outcome and gives up its lock. -/
theorem Leased.recorded (leased : Leased outbox) {change : OutboxMessage → OutboxMessage}
    {next : List Task} (found : outbox.tasks[index]? = some task)
    (holds : task.holds = some attempts) (records : Records attempts change)
    (free : ∀ other ∈ next, other.holds = none ∧ other.startedAt = task.startedAt) :
    Leased ((outbox.save task.messageId change).become index next) := by
  obtain ⟨front, back, pool, replaced⟩ := exists_replaceAt found
  have tasks : ((outbox.save task.messageId change).become index next).tasks =
      front ++ next ++ back := replaced next
  have none : next.filterMap Task.held = [] :=
    List.filterMap_eq_nil_iff.mpr fun other member => Task.held_of_free (free other member).1
  have distinct := leased.single
  rw [pool] at distinct
  simp only [List.filterMap_append, List.filterMap_cons, Task.held_of_holds holds] at distinct
  obtain ⟨apart, -⟩ := List.nodup_cons.mp (List.perm_middle.nodup_iff.mp distinct)
  constructor
  · exact numbered_save leased records.keepsId
  · intro other member
    rw [tasks] at member
    exact alive_replaced leased pool (fun moved new => (free moved new).2) other member
  · intro other member attempts otherHolds
    have kept : other ∈ front ++ back →
        ∃ row ∈ (outbox.save task.messageId change).messages, LockedBy other attempts row := by
      intro was
      have stillThere : other ∈ outbox.tasks := by
        rw [pool]
        simp only [List.mem_append, List.mem_cons] at was ⊢
        tauto
      obtain ⟨row, rowStored, locked⟩ := leased.locked other stillThere attempts otherHolds
      have elsewhere : row.id ≠ task.messageId := by
        intro isTask
        apply apart
        rw [← isTask, locked.1, ← List.filterMap_append]
        exact List.mem_filterMap.mpr ⟨other, was, Task.held_of_holds otherHolds⟩
      exact ⟨row, mem_updateWhere_of_not_selected rowStored elsewhere, locked⟩
    rw [tasks] at member
    simp only [List.mem_append] at member
    rcases member with (early | new) | late
    · exact kept (List.mem_append_left _ early)
    · rw [(free other new).1] at otherHolds
      cases otherHolds
    · exact kept (List.mem_append_right _ late)
  · rw [tasks]
    exact leased.single.sublist (held_replaced pool (Or.inl none))
  · intro other member failed
    obtain ⟨before, was, ⟨isTask, rfl⟩ | ⟨-, rfl⟩⟩ := mem_save member
    · obtain ⟨row, rowStored, sameId, -, sameAttempts, -⟩ :=
        leased.locked task (by simp [pool]) attempts holds
      have isRow : row = before := leased.unique rowStored was (sameId.trans isTask.symm)
      rw [records.keepsAttempts, ← isRow, sameAttempts]
      rcases records.status with sent | ⟨terminal, -⟩ | ⟨-, queued⟩
      · rw [sent before] at failed
        cases failed
      · exact terminal
      · rw [queued before] at failed
        cases failed
    · exact leased.failed other was failed

theorem Leased.queued (leased : Leased outbox) {broker : List Published}
    (id : row.id = outbox.messages.length) (status : row.status = .queued) :
    Leased { outbox with messages := outbox.messages ++ [row], broker := broker } := by
  refine ⟨?_, leased.alive, ?_, leased.single, ?_⟩
  · simp [leased.numbered, id, List.range_succ]
  · intro other member attempts holds
    obtain ⟨locked, stored, isLocked⟩ := leased.locked other member attempts holds
    exact ⟨locked, List.mem_append_left _ stored, isLocked⟩
  · intro other member failed
    rcases List.mem_append.mp member with old | new
    · exact leased.failed other old failed
    · rw [List.mem_singleton.mp new, status] at failed
      cases failed

/-- A reclaim takes no lock from a running task. -/
theorem Leased.reclaimed (leased : Leased outbox) {readAt : Nat} (past : readAt ≤ outbox.now) :
    Leased (outbox.reclaim readAt) := by
  refine ⟨?_, leased.alive, ?_, leased.single, ?_⟩
  · have keepsId : ∀ row, (OutboxMessage.requeue row).id = row.id := fun _ => rfl
    unfold Outbox.reclaim
    simp only [length_updateWhere]
    rw [map_updateWhere keepsId]
    exact leased.numbered
  · intro other member attempts holds
    obtain ⟨locked, stored, isLocked⟩ := leased.locked other member attempts holds
    have fresh := leased.not_stale member holds stored isLocked.1 past
    exact ⟨locked, mem_updateWhere_of_not_selected stored fresh, isLocked⟩
  · intro other member failed
    obtain ⟨before, was, ⟨-, rfl⟩ | ⟨-, rfl⟩⟩ := mem_updateWhere.mp member
    · cases failed
    · exact leased.failed other was failed

theorem Leased.advanced (leased : Leased outbox) (elapsed : Nat) :
    Leased (outbox.advance elapsed) := by
  have kept : (outbox.advance elapsed).tasks.Sublist outbox.tasks := List.filter_sublist
  refine leased.sameRows rfl ?_ ?_ ?_
  · intro other member
    have running := (List.mem_filter.mp member).2
    rw [decide_eq_true_eq] at running
    exact running
  · exact kept.filterMap _
  · intro other member attempts holds
    exact ⟨other, kept.subset member, holds, rfl, rfl⟩

theorem Leased.delivered (leased : Leased outbox) (starting : task.stage = .starting)
    (startedAt : task.startedAt = outbox.now) :
    Leased { outbox with tasks := outbox.tasks ++ [task] } := by
  have free : task.holds = none := by simp only [Task.holds, starting]
  refine leased.sameRows rfl ?_ ?_ ?_
  · intro other member
    rcases List.mem_append.mp member with old | new
    · exact leased.alive other old
    · rw [List.mem_singleton.mp new, startedAt]
      exact Nat.le_add_right _ _
  · rw [List.filterMap_append]
    simp [Task.held_of_free free]
  · intro other member attempts holds
    rcases List.mem_append.mp member with old | new
    · exact ⟨other, old, holds, rfl, rfl⟩
    · rw [List.mem_singleton.mp new, free] at holds
      cases holds

theorem OutboxStep.leased {action : Action} (steps : OutboxStep outbox action after)
    (leased : Leased outbox) : Leased after := by
  cases steps with
  | idle => exact leased
  | queued id status attempts => exact leased.queued id status
  | reclaimed past => exact leased.reclaimed past
  | published =>
      exact leased.sameRows rfl leased.alive (List.Sublist.refl _)
        fun other member _ holds => ⟨other, member, holds, rfl, rfl⟩
  | delivered starting startedAt => exact leased.delivered starting startedAt
  | freed found free =>
      obtain ⟨front, back, pool, replaced⟩ := exists_replaceAt found
      exact leased.replaced pool rfl rfl (replaced []) (Or.inl rfl)
  | claimed found starting stored same claims started past becomes =>
      exact leased.claimed found starting stored same claims started past becomes
  | sendStarted found stage =>
      obtain ⟨front, back, pool, replaced⟩ := exists_replaceAt found
      refine leased.replaced pool rfl rfl (replaced _) (Or.inr ⟨_, rfl, ?_, rfl, rfl⟩)
      simp only [Task.holds, Task.goto, stage]
  | sendFinished found stage holds message startedAt ended =>
      obtain ⟨front, back, pool, replaced⟩ := exists_replaceAt found
      refine leased.replaced pool rfl rfl (replaced _) (Or.inr ⟨_, rfl, ?_, message, startedAt⟩)
      rw [holds]
      simp only [Task.holds, stage]
  | recorded found holds ended records free =>
      exact leased.recorded found holds records free
  | unrecorded found ended =>
      obtain ⟨front, back, pool, replaced⟩ := exists_replaceAt found
      exact leased.replaced pool rfl rfl (replaced []) (Or.inl rfl)
  | lost found =>
      obtain ⟨front, back, pool, replaced⟩ := exists_replaceAt found
      exact leased.replaced pool rfl rfl (replaced []) (Or.inl rfl)
  | advanced => exact leased.advanced _

/-! ### Exclusive and final -/

/-- The messages for which `_send` is running. -/
def Outbox.sending (outbox : Outbox) : List Nat :=
  outbox.tasks.filterMap fun task =>
    match task.stage with
    | .sending _ => some task.messageId
    | _ => none

/-- No two sends of one message are running, and a message that has failed has
used up its attempts. -/
structure Exclusive (outbox : Outbox) : Prop where
  sending : outbox.sending.Nodup
  failed : ∀ row ∈ outbox.messages, row.status = .failed → maxAttempts ≤ row.attempts

def Status.isFinal : Status → Bool
  | .queued => false
  | .processing => false
  | .sent => true
  | .failed => true

/-- A message that was final has kept its status, and was not sent again. -/
def FinalKept (outbox after : Outbox) : Prop :=
  ∀ row ∈ outbox.messages, row.status.isFinal = true →
    (∃ later ∈ after.messages, later.id = row.id ∧ later.status = row.status) ∧
      after.sends.count row.id = outbox.sends.count row.id

theorem Leased.exclusive (leased : Leased outbox) : Exclusive outbox := by
  refine ⟨?_, leased.failed⟩
  have among : outbox.sending.Sublist (outbox.tasks.filterMap Task.held) := by
    unfold Outbox.sending
    induction outbox.tasks with
    | nil => exact List.Sublist.refl _
    | cons task rest inductionHypothesis =>
        rcases task with ⟨messageId, retries, startedAt, stage⟩
        cases stage with
        | sending attempts => exact inductionHypothesis.cons_cons messageId
        | starting => exact inductionHypothesis
        | retrying delay => exact inductionHypothesis
        | claimed attempts => exact inductionHypothesis.cons messageId
        | sent attempts since => exact inductionHypothesis.cons messageId
        | raised attempts since error => exact inductionHypothesis.cons messageId
  exact leased.single.sublist among

/-- The message of a holder is not final. -/
theorem Leased.ne_of_final (leased : Leased outbox) (member : task ∈ outbox.tasks)
    (holds : task.holds = some attempts) (stored : row ∈ outbox.messages)
    (final : row.status.isFinal = true) : row.id ≠ task.messageId := by
  intro same
  obtain ⟨locked, lockedStored, sameId, processing, -⟩ := leased.locked task member attempts holds
  have isRow : locked = row := leased.unique lockedStored stored (sameId.trans same.symm)
  rw [← isRow, processing] at final
  cases final

theorem OutboxStep.finalKept {action : Action} (steps : OutboxStep outbox action after)
    (leased : Leased outbox) : FinalKept outbox after := by
  intro row stored final
  cases steps with
  | queued id status attempts =>
      exact ⟨⟨row, List.mem_append_left _ stored, rfl, rfl⟩, rfl⟩
  | @reclaimed readAt past =>
      have notStale : ¬ row.IsStale readAt := by
        rintro ⟨processing, -⟩
        rw [processing] at final
        cases final
      exact ⟨⟨row, mem_updateWhere_of_not_selected stored notStale, rfl, rfl⟩, rfl⟩
  | @claimed _ _ _ _ task claimedRow _ _ found starting claimedStored same claims =>
      obtain ⟨-, -, -, notSent, notFailed⟩ := OutboxMessage.claim_eq_some claims
      have other : row.id ≠ task.messageId := by
        intro isTask
        have isRow : claimedRow = row :=
          leased.unique claimedStored stored (same.trans isTask.symm)
        rw [isRow] at notSent notFailed
        cases status : row.status with
        | queued => simp [status, Status.isFinal] at final
        | processing => simp [status, Status.isFinal] at final
        | sent => exact notSent status
        | failed => exact notFailed status
      exact ⟨⟨row, mem_updateWhere_of_not_selected stored other, rfl, rfl⟩, rfl⟩
  | @sendStarted _ attempts task found stage =>
      have holds : task.holds = some attempts := by simp only [Task.holds, stage]
      have other := leased.ne_of_final (List.mem_of_getElem? found) holds stored final
      refine ⟨⟨row, stored, rfl, rfl⟩, ?_⟩
      show List.count row.id (outbox.sends ++ [task.messageId]) = _
      rw [List.count_append, List.count_singleton, if_neg (by simpa using other.symm)]
      rfl
  | @recorded _ _ _ _ task _ _ found holds ended records free =>
      have other := leased.ne_of_final (List.mem_of_getElem? found) holds stored final
      exact ⟨⟨row, mem_updateWhere_of_not_selected stored other, rfl, rfl⟩, rfl⟩
  | _ => exact ⟨⟨row, stored, rfl, rfl⟩, rfl⟩

theorem step_leased (outbox : Outbox) (action : Action) (leased : Leased outbox) :
    Leased (outbox.step action) :=
  (outboxStep outbox action).leased leased

theorem run_finalKept (leased : Leased outbox) (actions : List Action) :
    FinalKept outbox (run Outbox.step outbox actions) := by
  intro row stored final
  have step : ∀ state action, (Leased state ∧
      (∃ later ∈ state.messages, later.id = row.id ∧ later.status = row.status) ∧
        state.sends.count row.id = outbox.sends.count row.id) →
      Leased (state.step action) ∧
        (∃ later ∈ (state.step action).messages, later.id = row.id ∧
          later.status = row.status) ∧
        (state.step action).sends.count row.id = outbox.sends.count row.id := by
    rintro state action ⟨stateLeased, ⟨later, laterStored, sameId, sameStatus⟩, sameCount⟩
    have next := (outboxStep state action).finalKept stateLeased later laterStored
      (sameStatus ▸ final)
    rw [sameId, sameStatus, sameCount] at next
    exact ⟨step_leased state action stateLeased, next⟩
  exact (run_invariant _ step ⟨leased, ⟨row, stored, rfl, rfl⟩, rfl⟩ actions).2

/-- In every run, sends of one message never overlap, a message that is sent or
has failed stays so and is not sent again, and it has failed only after the
last attempt. -/
theorem delivery_exclusive_and_final (before after : List Action) :
    Exclusive (run Outbox.step {} before) ∧
      FinalKept (run Outbox.step {} before) (run Outbox.step {} (before ++ after)) := by
  have leased : Leased (run Outbox.step {} before) :=
    run_invariant Leased step_leased Leased.initial before
  refine ⟨leased.exclusive, ?_⟩
  rw [run_append]
  exact run_finalKept leased after

end BubllioCrm.Delivery
