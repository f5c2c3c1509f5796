import BubllioCrm.Delivery.Lease

/-!
Owns the number of sends of a message: when a run keeps it within
`MAX_ATTEMPTS` and ends it in a final status, and a run that does not, since
the limit is tested only where `_send` raises.
-/

namespace BubllioCrm.Delivery

open BubllioCrm.Foundations

def Outbox.held (outbox : Outbox) : List Nat :=
  outbox.tasks.filterMap Task.held

/-- A message is sent at most `MAX_ATTEMPTS` times. After that many sends it is
final, or the task of the last one has still to record it. -/
def Bounded (outbox : Outbox) : Prop :=
  ∀ row ∈ outbox.messages, outbox.sends.count row.id ≤ maxAttempts ∧
    (outbox.sends.count row.id = maxAttempts →
      row.status.isFinal = true ∨ row.id ∈ outbox.held)

instance (outbox : Outbox) : Decidable (Bounded outbox) :=
  inferInstanceAs (Decidable (∀ row ∈ outbox.messages, _))

instance (readAt now : Nat) (task : Task) : Decidable (task.Ended readAt now) := by
  unfold Task.Ended
  split <;> infer_instance

/-- The tasks that an action takes away before they record an outcome. -/
def Outbox.losing (outbox : Outbox) (action : Action) : List Task :=
  match action with
  | .lose index => outbox.tasks[index]?.toList
  | .record index readAt .rollsBack =>
      outbox.tasks[index]?.toList.filter fun task => task.Ended readAt outbox.now
  | .advance elapsed =>
      outbox.tasks.filter fun task =>
        ¬ outbox.now + elapsed ≤ task.startedAt + taskTimeLimit
  | _ => []

/-- No task is lost during or after the last send that its message may have. -/
def KeepsLastSend (outbox : Outbox) (action : Action) : Prop :=
  ∀ task ∈ outbox.losing action, ∀ messageId, task.held = some messageId →
    outbox.sends.count messageId < maxAttempts

/-- The sends of a message against its counter. -/
structure Attempted (outbox : Outbox) : Prop where
  leased : Leased outbox
  known : ∀ messageId ∈ outbox.sends, messageId < outbox.messages.length
  counted : ∀ row ∈ outbox.messages, outbox.sends.count row.id ≤ row.attempts
  unsent : ∀ task ∈ outbox.tasks, ∀ attempts, task.stage = .claimed attempts →
    outbox.sends.count task.messageId < attempts ∧
      outbox.sends.count task.messageId < maxAttempts
  bounded : Bounded outbox

theorem Attempted.initial : Attempted {} :=
  ⟨Leased.initial, by simp, by simp, by simp, by simp [Bounded]⟩

variable {outbox after : Outbox} {task : Task} {index attempts : Nat} {row : OutboxMessage}
  {action : Action}

/-! ### Steps that send nothing -/

/-- Steps that leave rows and sends alone, and drop a holder only before the
last send. -/
theorem Attempted.quiet (attempted : Attempted outbox) (leased : Leased after)
    (messages : after.messages = outbox.messages) (sends : after.sends = outbox.sends)
    (origin : ∀ other ∈ after.tasks, ∀ attempts, other.stage = .claimed attempts →
      other ∈ outbox.tasks)
    (held : ∀ messageId ∈ outbox.held, messageId ∈ after.held ∨
      outbox.sends.count messageId < maxAttempts) : Attempted after := by
  refine ⟨leased, ?_, ?_, ?_, ?_⟩
  · rw [sends, messages]
    exact attempted.known
  · rw [sends, messages]
    exact attempted.counted
  · rw [sends]
    intro other member attempts stage
    exact attempted.unsent other (origin other member attempts stage) attempts stage
  · intro row stored
    rw [messages] at stored
    rw [sends]
    obtain ⟨atMost, final⟩ := attempted.bounded row stored
    refine ⟨atMost, fun reached => ?_⟩
    rcases final reached with isFinal | isHeld
    · exact Or.inl isFinal
    · rcases held row.id isHeld with stillHeld | below
      · exact Or.inr stillHeld
      · omega

section Pool

variable {front back next : List Task}

theorem held_split (pool : outbox.tasks = front ++ task :: back) :
    outbox.held = front.filterMap Task.held ++ (task.held.toList ++ back.filterMap Task.held) := by
  rw [Outbox.held, pool]
  cases isHeld : task.held <;> simp [isHeld]

/-- What is held after a task has ended. -/
theorem held_ended (pool : outbox.tasks = front ++ task :: back)
    (tasks : after.tasks = front ++ [] ++ back) {messageId : Nat}
    (held : messageId ∈ outbox.held) : messageId ∈ after.held ∨ task.held = some messageId := by
  rw [held_split pool] at held
  rw [Outbox.held, tasks]
  simp only [List.append_nil, List.filterMap_append, List.mem_append] at held ⊢
  rcases held with early | here | late
  · exact Or.inl (Or.inl early)
  · exact Or.inr (by simpa using here)
  · exact Or.inl (Or.inr late)

/-- What is held after a task has gone on with what it holds. -/
theorem held_moved {moved : Task} (pool : outbox.tasks = front ++ task :: back)
    (tasks : after.tasks = front ++ [moved] ++ back) (same : moved.held = task.held) :
    after.held = outbox.held := by
  have split : after.tasks = front ++ moved :: back := by simpa using tasks
  rw [held_split split, held_split pool, same]

theorem mem_replaced (pool : outbox.tasks = front ++ task :: back) {other : Task}
    (member : other ∈ front ++ next ++ back) : other ∈ next ∨ other ∈ outbox.tasks := by
  rw [pool]
  simp only [List.mem_append, List.mem_cons] at member ⊢
  tauto

end Pool

/-- A task ends that holds nothing, or before its last send. -/
theorem Attempted.ended (attempted : Attempted outbox) (leased : Leased after)
    (found : outbox.tasks[index]? = some task) (messages : after.messages = outbox.messages)
    (sends : after.sends = outbox.sends) (tasks : after.tasks = replaceAt index [] outbox.tasks)
    (early : ∀ messageId, task.held = some messageId →
      outbox.sends.count messageId < maxAttempts) : Attempted after := by
  obtain ⟨front, back, pool, replaced⟩ := exists_replaceAt found
  rw [replaced] at tasks
  apply attempted.quiet leased messages sends
  · intro other member attempts stage
    rw [tasks] at member
    rcases mem_replaced pool member with new | old
    · cases new
    · exact old
  · intro messageId held
    rcases held_ended pool tasks held with still | isHeld
    · exact Or.inl still
    · exact Or.inr (early messageId isHeld)

/-! ### Claims, sends and outcomes -/

theorem Attempted.queued (attempted : Attempted outbox) {broker : List Published}
    (id : row.id = outbox.messages.length) (status : row.status = .queued)
    (fresh : row.attempts = 0) :
    Attempted { outbox with messages := outbox.messages ++ [row], broker := broker } := by
  have unsent : outbox.sends.count row.id = 0 := by
    apply List.count_eq_zero.mpr
    intro member
    have below := attempted.known row.id member
    omega
  refine ⟨attempted.leased.queued id status, ?_, ?_, attempted.unsent, ?_⟩
  · intro messageId member
    have below := attempted.known messageId member
    simp only [List.length_append]
    omega
  · intro other member
    rcases List.mem_append.mp member with old | new
    · exact attempted.counted other old
    · rw [List.mem_singleton.mp new, fresh]
      exact Nat.le_of_eq unsent
  · intro other member
    rcases List.mem_append.mp member with old | new
    · exact attempted.bounded other old
    · rw [List.mem_singleton.mp new]
      show outbox.sends.count row.id ≤ _ ∧ (outbox.sends.count row.id = _ → _)
      rw [unsent]
      exact ⟨Nat.zero_le _, fun reached => absurd reached (by decide)⟩

/-- A change of rows that keeps ids and counters. -/
theorem Attempted.rows (attempted : Attempted outbox) (leased : Leased after)
    (length : after.messages.length = outbox.messages.length) (sends : after.sends = outbox.sends)
    (origin : ∀ other ∈ after.tasks, ∀ attempts, other.stage = .claimed attempts →
      other ∈ outbox.tasks)
    (rows : ∀ row ∈ after.messages, ∃ before ∈ outbox.messages, row.id = before.id ∧
      before.attempts ≤ row.attempts ∧ (outbox.sends.count row.id = maxAttempts →
        before.status.isFinal = true ∨ before.id ∈ outbox.held →
        row.status.isFinal = true ∨ row.id ∈ after.held)) : Attempted after := by
  refine ⟨leased, ?_, ?_, ?_, ?_⟩
  · rw [sends, length]
    exact attempted.known
  · intro row stored
    obtain ⟨before, was, sameId, more, -⟩ := rows row stored
    have counted := attempted.counted before was
    rw [sends, sameId]
    omega
  · rw [sends]
    intro other member attempts stage
    exact attempted.unsent other (origin other member attempts stage) attempts stage
  · intro row stored
    obtain ⟨before, was, sameId, -, final⟩ := rows row stored
    obtain ⟨atMost, wasFinal⟩ := attempted.bounded before was
    rw [sends]
    exact ⟨sameId ▸ atMost, fun reached => final reached (wasFinal (sameId ▸ reached))⟩

theorem Attempted.reclaimed (attempted : Attempted outbox) {readAt : Nat}
    (past : readAt ≤ outbox.now) : Attempted (outbox.reclaim readAt) := by
  apply attempted.rows (attempted.leased.reclaimed past)
  · exact length_updateWhere _
  · rfl
  · exact fun other member _ _ => member
  · intro row stored
    obtain ⟨before, was, ⟨stale, rfl⟩ | ⟨-, rfl⟩⟩ := mem_updateWhere.mp stored
    · refine ⟨before, was, rfl, Nat.le_refl _, fun _ final => ?_⟩
      rcases final with isFinal | isHeld
      · rw [stale.1] at isFinal
        cases isFinal
      · exact Or.inr isHeld
    · exact ⟨row, was, rfl, Nat.le_refl _, fun _ final => final⟩

/-- A message that can be claimed has sends left. -/
theorem Attempted.below_of_claim (attempted : Attempted outbox) (stored : row ∈ outbox.messages)
    {checkedAt lockedAt : Nat} {message : OutboxMessage}
    (claims : row.claim checkedAt lockedAt = some message) (past : checkedAt ≤ outbox.now) :
    outbox.sends.count row.id < maxAttempts := by
  obtain ⟨-, -, -, notSent, notFailed⟩ := OutboxMessage.claim_eq_some claims
  obtain ⟨atMost, final⟩ := attempted.bounded row stored
  have free := attempted.leased.free_of_claim stored claims past
  have notFinal : row.status.isFinal = false := by
    cases status : row.status with
    | queued => rfl
    | processing => rfl
    | sent => exact absurd status notSent
    | failed => exact absurd status notFailed
  have notReached : outbox.sends.count row.id ≠ maxAttempts := by
    intro reached
    rcases final reached with isFinal | isHeld
    · rw [notFinal] at isFinal
      cases isFinal
    · exact free isHeld
  omega

theorem Attempted.claimed (attempted : Attempted outbox) {checkedAt lockedAt : Nat}
    {message : OutboxMessage} {next : List Task} (found : outbox.tasks[index]? = some task)
    (starting : task.stage = .starting) (stored : row ∈ outbox.messages)
    (same : row.id = task.messageId) (claims : row.claim checkedAt lockedAt = some message)
    (started : task.startedAt ≤ lockedAt) (past : checkedAt ≤ outbox.now)
    (becomes : next = [] ∨ next = [task.goto (.claimed message.attempts)]) :
    Attempted ((outbox.save task.messageId message.saveClaim).become index next) := by
  have leased := attempted.leased.claimed found starting stored same claims started past becomes
  have below := attempted.below_of_claim stored claims past
  have counted := attempted.counted row stored
  obtain ⟨-, -, oneMore, -, -⟩ := OutboxMessage.claim_eq_some claims
  obtain ⟨front, back, pool, replaced⟩ := exists_replaceAt found
  have tasks : ((outbox.save task.messageId message.saveClaim).become index next).tasks =
      front ++ next ++ back := replaced next
  have nothing : task.held = none := Task.held_of_free (by simp only [Task.holds, starting])
  have stillHeld : ∀ messageId ∈ outbox.held,
      messageId ∈ ((outbox.save task.messageId message.saveClaim).become index next).held := by
    intro messageId held
    rw [held_split pool, nothing] at held
    rw [Outbox.held, tasks]
    simp only [Option.toList_none, List.nil_append, List.filterMap_append, List.mem_append]
      at held ⊢
    tauto
  have isOne : ∀ other ∈ outbox.messages, other.id = task.messageId → other = row :=
    fun other was isTask => attempted.leased.unique was stored (isTask.trans same.symm)
  refine ⟨leased, ?_, ?_, ?_, ?_⟩
  · show ∀ messageId ∈ outbox.sends, messageId < (updateWhere _ _ _).length
    rw [length_updateWhere]
    exact attempted.known
  · intro other member
    obtain ⟨before, was, ⟨isTask, rfl⟩ | ⟨-, rfl⟩⟩ := mem_save member
    · rw [isOne before was isTask]
      show outbox.sends.count row.id ≤ message.attempts
      omega
    · exact attempted.counted other was
  · intro other member attempts stage
    rw [tasks] at member
    rcases mem_replaced pool member with new | old
    · rcases becomes with rfl | rfl
      · cases new
      · rw [List.mem_singleton.mp new] at stage ⊢
        cases stage
        show outbox.sends.count task.messageId < _ ∧ outbox.sends.count task.messageId < _
        rw [← same]
        exact ⟨by omega, below⟩
    · exact attempted.unsent other old attempts stage
  · intro other member
    obtain ⟨before, was, ⟨isTask, rfl⟩ | ⟨-, rfl⟩⟩ := mem_save member
    · rw [isOne before was isTask]
      show outbox.sends.count row.id ≤ _ ∧ (outbox.sends.count row.id = _ → _)
      exact ⟨by omega, fun reached => by omega⟩
    · obtain ⟨atMost, final⟩ := attempted.bounded other was
      exact ⟨atMost, fun reached => (final reached).imp_right (stillHeld other.id)⟩

/-- Two holders at different places hold different messages. -/
theorem Leased.apart (leased : Leased outbox) {front back : List Task}
    (pool : outbox.tasks = front ++ task :: back) (holds : task.holds = some attempts) :
    task.messageId ∉ (front ++ back).filterMap Task.held := by
  have distinct : outbox.held.Nodup := leased.single
  rw [held_split pool, Task.held_of_holds holds] at distinct
  rw [List.filterMap_append]
  exact (List.nodup_cons.mp (List.perm_middle.nodup_iff.mp distinct)).1

theorem Attempted.sendStarted (attempted : Attempted outbox)
    (found : outbox.tasks[index]? = some task) (stage : task.stage = .claimed attempts) :
    Attempted (outbox.startSend index task attempts) := by
  have holds : task.holds = some attempts := by simp only [Task.holds, stage]
  have member := List.mem_of_getElem? found
  obtain ⟨fewer, below⟩ := attempted.unsent task member attempts stage
  obtain ⟨front, back, pool, replaced⟩ := exists_replaceAt found
  have apart := attempted.leased.apart pool holds
  have tasks : (outbox.startSend index task attempts).tasks =
      front ++ [task.goto (.sending attempts)] ++ back := replaced _
  have sends : ∀ messageId, (outbox.startSend index task attempts).sends.count messageId =
      outbox.sends.count messageId + if task.messageId = messageId then 1 else 0 := by
    intro messageId
    simp [Outbox.startSend, List.count_append, List.count_singleton]
  have sameHeld : (outbox.startSend index task attempts).held = outbox.held := by
    apply held_moved pool tasks
    rw [Task.held_of_holds holds]
    rfl
  obtain ⟨locked, lockedStored, sameId, -, sameAttempts, -⟩ :=
    attempted.leased.locked task member attempts holds
  have isHeld : task.messageId ∈ outbox.held :=
    List.mem_filterMap.mpr ⟨task, member, Task.held_of_holds holds⟩
  refine ⟨OutboxStep.leased (.sendStarted found stage) attempted.leased, ?_, ?_, ?_, ?_⟩
  · intro messageId sent
    rcases List.mem_append.mp sent with old | new
    · exact attempted.known messageId old
    · rw [List.mem_singleton.mp new, ← sameId]
      exact key_lt_length attempted.leased.numbered lockedStored
  · intro row stored
    have counted := attempted.counted row stored
    rw [sends]
    split_ifs with isTask
    · have isRow : locked = row :=
        attempted.leased.unique lockedStored stored (sameId.trans isTask)
      rw [← isTask, ← isRow, sameAttempts]
      omega
    · exact counted
  · intro other otherMember otherAttempts otherStage
    rw [tasks] at otherMember
    have elsewhere : other ∈ front ++ back := by
      simp only [List.mem_append, List.mem_singleton] at otherMember ⊢
      rcases otherMember with (early | rfl) | late
      · exact Or.inl early
      · cases otherStage
      · exact Or.inr late
    have otherHolds : other.holds = some otherAttempts := by simp only [Task.holds, otherStage]
    have different : task.messageId ≠ other.messageId := by
      intro sameMessage
      apply apart
      rw [sameMessage]
      exact List.mem_filterMap.mpr ⟨other, elsewhere, Task.held_of_holds otherHolds⟩
    rw [sends, if_neg different]
    refine attempted.unsent other ?_ otherAttempts otherStage
    rw [pool]
    simp only [List.mem_append, List.mem_cons] at elsewhere ⊢
    tauto
  · intro row stored
    obtain ⟨atMost, final⟩ := attempted.bounded row stored
    rw [sends, sameHeld]
    split_ifs with isTask
    · rw [← isTask]
      exact ⟨below, fun _ => Or.inr isHeld⟩
    · exact ⟨atMost, final⟩

theorem Attempted.recorded (attempted : Attempted outbox)
    {change : OutboxMessage → OutboxMessage} {next : List Task}
    (found : outbox.tasks[index]? = some task) (holds : task.holds = some attempts)
    (records : Records attempts change)
    (free : ∀ other ∈ next, other.holds = none ∧ other.startedAt = task.startedAt) :
    Attempted ((outbox.save task.messageId change).become index next) := by
  have leased := attempted.leased.recorded found holds records free
  have member := List.mem_of_getElem? found
  obtain ⟨front, back, pool, replaced⟩ := exists_replaceAt found
  have tasks : ((outbox.save task.messageId change).become index next).tasks =
      front ++ next ++ back := replaced next
  obtain ⟨locked, lockedStored, sameId, -, sameAttempts, -⟩ :=
    attempted.leased.locked task member attempts holds
  apply attempted.rows leased (length_updateWhere _) rfl
  · intro other otherMember otherAttempts stage
    rw [tasks] at otherMember
    rcases mem_replaced pool otherMember with new | old
    · have otherFree := (free other new).1
      simp only [Task.holds, stage] at otherFree
      cases otherFree
    · exact old
  · intro row stored
    obtain ⟨before, was, ⟨isTask, rfl⟩ | ⟨other, rfl⟩⟩ := mem_save stored
    · refine ⟨before, was, records.keepsId before, 
        Nat.le_of_eq (records.keepsAttempts before).symm, ?_⟩
      intro reached _
      have isRow : locked = before :=
        attempted.leased.unique lockedStored was (sameId.trans isTask.symm)
      have counted := attempted.counted before was
      rw [records.keepsId] at reached
      rw [← isRow, sameAttempts, isRow] at counted
      left
      rcases records.status with sent | ⟨-, failed⟩ | ⟨early, -⟩
      · rw [sent before]
        rfl
      · rw [failed before]
        rfl
      · omega
    · refine ⟨row, was, rfl, Nat.le_refl _, fun _ final => final.imp_right fun isHeld => ?_⟩
      rw [held_split pool, Task.held_of_holds holds] at isHeld
      rw [Outbox.held, tasks]
      simp only [Option.toList_some, List.mem_append, List.mem_singleton,
        List.filterMap_append] at isHeld ⊢
      tauto

/-! ### Steps and runs -/

theorem OutboxStep.attempted (steps : OutboxStep outbox action after)
    (attempted : Attempted outbox) (keeps : KeepsLastSend outbox action) : Attempted after := by
  have leased := steps.leased attempted.leased
  cases steps with
  | idle => exact attempted
  | queued id status fresh => exact attempted.queued id status fresh
  | reclaimed past => exact attempted.reclaimed past
  | published =>
      exact attempted.quiet leased rfl rfl (fun _ member _ _ => member) fun _ held => Or.inl held
  | delivered starting startedAt =>
      apply attempted.quiet leased rfl rfl
      · intro other member attempts stage
        rcases List.mem_append.mp member with old | new
        · exact old
        · rw [List.mem_singleton.mp new, starting] at stage
          cases stage
      · intro messageId held
        left
        rw [Outbox.held, List.filterMap_append]
        exact List.mem_append_left _ held
  | freed found free =>
      apply attempted.ended leased found rfl rfl rfl
      intro messageId held
      rw [Task.held_of_free free] at held
      cases held
  | claimed found starting stored same claims started past becomes =>
      exact attempted.claimed found starting stored same claims started past becomes
  | sendStarted found stage => exact attempted.sendStarted found stage
  | @sendFinished _ index attempts task next found stage holds message startedAt ended =>
      obtain ⟨front, back, pool, replaced⟩ := exists_replaceAt found
      apply attempted.quiet leased rfl rfl
      · intro other member otherAttempts otherStage
        have isMember : other ∈ front ++ [next] ++ back := replaced _ ▸ member
        rcases mem_replaced pool isMember with new | old
        · rw [List.mem_singleton.mp new] at otherStage
          exact absurd otherStage (ended otherAttempts).1
        · exact old
      · intro messageId held
        left
        have taskHolds : task.holds = some attempts := by simp only [Task.holds, stage]
        have same : next.held = task.held := by
          rw [Task.held_of_holds holds, Task.held_of_holds taskHolds, message]
        rw [held_moved pool (replaced [next]) same]
        exact held
  | recorded found holds ended records free =>
      exact attempted.recorded found holds records free
  | @unrecorded index readAt task found ended =>
      apply attempted.ended leased found rfl rfl rfl
      exact keeps task (by simp [Outbox.losing, found, ended])
  | @lost index task found =>
      apply attempted.ended leased found rfl rfl rfl
      exact keeps task (by simp [Outbox.losing, found])
  | @advanced elapsed =>
      apply attempted.quiet leased rfl rfl
      · exact fun other member _ _ => List.mem_of_mem_filter member
      · intro messageId held
        obtain ⟨holder, member, isHeld⟩ := List.mem_filterMap.mp held
        by_cases running : outbox.now + elapsed ≤ holder.startedAt + taskTimeLimit
        · left
          refine List.mem_filterMap.mpr ⟨holder, ?_, isHeld⟩
          exact List.mem_filter.mpr ⟨member, by simpa using running⟩
        · right
          apply keeps holder _ messageId isHeld
          exact List.mem_filter.mpr ⟨member, by simpa using running⟩

/-- A lost holder leaves rows and sends alone, and no other task holds its
message. -/
theorem Leased.lost (leased : Leased outbox) (member : task ∈ outbox.losing action)
    {messageId : Nat} (held : task.held = some messageId) :
    task ∈ outbox.tasks ∧ (outbox.step action).messages = outbox.messages ∧
      (outbox.step action).sends = outbox.sends ∧ messageId ∉ (outbox.step action).held := by
  obtain ⟨isMessage, attempts, holds⟩ := Task.held_eq_some held
  have gone : ∀ index, outbox.tasks[index]? = some task →
      messageId ∉ (outbox.become index []).held := by
    intro index found
    obtain ⟨front, back, pool, replaced⟩ := exists_replaceAt found
    have apart := leased.apart pool holds
    have tasks : (outbox.become index []).tasks = front ++ back := by
      have ended := replaced []
      rw [List.append_nil] at ended
      exact ended
    rw [Outbox.held, tasks, ← isMessage]
    exact apart
  cases action with
  | lose index =>
      have found : outbox.tasks[index]? = some task := by
        simpa [Outbox.losing] using member
      exact ⟨List.mem_of_getElem? found, rfl, rfl, gone index found⟩
  | record index readAt commit =>
      cases commit with
      | rollsBack =>
          obtain ⟨found, ended⟩ : outbox.tasks[index]? = some task ∧
              task.Ended readAt outbox.now := by
            simpa [Outbox.losing] using member
          have steps : outbox.step (.record index readAt .rollsBack) = outbox.become index [] := by
            rcases task with ⟨taskMessage, retries, startedAt, stage⟩
            cases stage with
            | sent copied since =>
                have times : since ≤ readAt ∧ readAt ≤ outbox.now := ended
                simp only [Outbox.step, found, if_pos times]
                rfl
            | raised copied since error =>
                have times : since ≤ readAt ∧ readAt ≤ outbox.now := ended
                simp only [Outbox.step, found, if_pos times]
                rfl
            | _ => exact ended.elim
          rw [steps]
          exact ⟨List.mem_of_getElem? found, rfl, rfl, gone index found⟩
      | _ => cases member
  | advance elapsed =>
      obtain ⟨isTask, late⟩ := List.mem_filter.mp member
      refine ⟨isTask, rfl, rfl, fun stillHeld => ?_⟩
      obtain ⟨other, otherMember, otherHeld⟩ := List.mem_filterMap.mp stillHeld
      obtain ⟨otherTask, running⟩ := List.mem_filter.mp otherMember
      obtain ⟨front, back, pool⟩ := List.append_of_mem isTask
      have apart := leased.apart pool holds
      rw [pool] at otherTask
      have elsewhere : other = task ∨ other ∈ front ++ back := by
        simp only [List.mem_append, List.mem_cons] at otherTask ⊢
        tauto
      rcases elsewhere with rfl | elsewhere
      · simp only [decide_eq_true_eq] at late running
        exact late running
      · exact apart (isMessage ▸ List.mem_filterMap.mpr ⟨other, elsewhere, otherHeld⟩)
  | _ => cases member

theorem keepsLastSend_of_bounded (attempted : Attempted outbox)
    (bounded : Bounded (outbox.step action)) : KeepsLastSend outbox action := by
  intro task member messageId held
  obtain ⟨isMessage, attempts, holds⟩ := Task.held_eq_some held
  obtain ⟨isTask, messages, sends, free⟩ := attempted.leased.lost member held
  obtain ⟨row, stored, sameId, processing, -⟩ := attempted.leased.locked task isTask attempts holds
  have isRow : row.id = messageId := sameId.trans isMessage
  obtain ⟨atMost, final⟩ := bounded row (messages ▸ stored)
  rw [sends, isRow] at atMost final
  have notReached : outbox.sends.count messageId ≠ maxAttempts := by
    intro reached
    rcases final reached with isFinal | isHeld
    · rw [processing] at isFinal
      cases isFinal
    · exact free isHeld
  omega

/-- In every run each message is sent at most `MAX_ATTEMPTS` times, and is final
after that many sends once their tasks have ended, exactly when no task is lost
during or after the last of these sends and before it records the outcome. -/
theorem bounded_iff (actions : List Action) :
    Always Outbox.step Bounded {} actions ↔
      EveryStep Outbox.step KeepsLastSend {} actions := by
  apply always_iff_guarded Attempted (fun _ => True)
  · exact fun _ attempted => attempted.bounded
  · exact fun state action attempted _ keeps =>
      (outboxStep state action).attempted attempted keeps
  · exact fun state action attempted _ bounded => keepsLastSend_of_bounded attempted bounded
  · exact Attempted.initial
  · exact fun _ _ => trivial

/-- An attempt whose worker is lost while it sends, up to the reclaim of the
message after its lock has gone stale. -/
def lostAttempt (number : Nat) : List Action :=
  let start := number * (lockTimeout + second)
  [.deliver 0, .claim 0 start start .commits, .startSend 0, .lose 0,
    .advance (lockTimeout + second), .reclaim (start + lockTimeout + second)]

/-- Seven lost attempts send one message seven times. -/
theorem sends_not_always_bounded : ¬ ∀ actions, Always Outbox.step Bounded {} actions := by
  intro always
  have bounded := always (.queue .passwordReset "" true :: (List.range 7).flatMap lostAttempt)
  revert bounded
  decide +kernel

end BubllioCrm.Delivery
