import BubllioCrm.Foundations.Execution
import BubllioCrm.Onboarding.Orchestration

/-!
Owns the gate before the start call: which requests have passed it, and that a
replay goes around it unless the submission of its run has passed before.
-/

namespace BubllioCrm.Onboarding

open BubllioCrm.Foundations

variable {crm : Crm} {thread : Thread} {copy : InstallationUpdateRun} {origin : Origin}
  {context : Context} {table : UpdateRuns} {result : Except ClientError Fields} {runId : Nat}

/-- The start call that an action makes, with the run and the maker. -/
def Crm.starting (crm : Crm) (action : CrmAction) : Option (InstallationUpdateRun × Origin) :=
  match action with
  | .advance index _ =>
      match crm.threads[index]? with
      | some (.submit copy origin) => some (copy, origin)
      | _ => none
  | _ => none

/-- A preflight of the run has returned a result that lets it through. -/
def Crm.Cleared (crm : Crm) (runId : Nat) : Prop :=
  ∃ entry ∈ crm.preflights, entry.1 = runId ∧ entry.2.Passes

instance (crm : Crm) (runId : Nat) : Decidable (crm.Cleared runId) :=
  inferInstanceAs (Decidable (∃ entry ∈ crm.preflights, _))

/-- A start call is made only for a run that is cleared. -/
def Gated (crm : Crm) (action : CrmAction) : Prop :=
  ∀ call ∈ crm.starting action, crm.Cleared call.1.id

instance (crm : Crm) (action : CrmAction) : Decidable (Gated crm action) :=
  inferInstanceAs (Decidable (∀ call ∈ crm.starting action, _))

/-- A replay makes its start call only behind the submission: that one has
come to its own start call before. -/
def ReplaysFollow (crm : Crm) (action : CrmAction) : Prop :=
  ∀ call ∈ crm.starting action, call.2 = .replay → call.1.id ∈ crm.arrived

instance (crm : Crm) (action : CrmAction) : Decidable (ReplaysFollow crm action) :=
  inferInstanceAs (Decidable (∀ call ∈ crm.starting action, _))

/-! ### Steps of a thread -/

theorem gate_submitting {sanitized : SanitizedPreflight} :
    (Thread.gate copy sanitized).submitting = some runId ↔ copy.id = runId ∧ sanitized.Passes := by
  unfold Thread.gate SanitizedPreflight.Passes
  by_cases safe : sanitized.migrationPolicy = some .onlineSafe
  · by_cases eligible : sanitized.eligible = true
    · simp [safe, eligible, Thread.submitting]
    · simp [safe, eligible, Thread.submitting]
  · simp [safe, Thread.submitting]

theorem preflightFailed_submitting {error : ClientError} :
    (Thread.preflightFailed copy error).filterMap Thread.submitting = [] := by
  cases error <;> rfl

theorem startFailed_submitting {error : ClientError} :
    (Thread.startFailed copy origin error).filterMap Thread.submitting = [] := by
  cases error <;> cases origin <;> rfl

theorem replayOr_submitting {missing : List Thread} {target : String}
    {found : Option InstallationUpdateRun} (none : missing.filterMap Thread.submitting = []) :
    (Thread.replayOr missing target found).filterMap Thread.submitting = [] := by
  cases found with
  | none => exact none
  | some existing =>
      simp only [Thread.replayOr, Thread.resume]
      split_ifs <;> rfl

theorem write_submitting {change : InstallationUpdateRun → InstallationUpdateRun}
    {next : List Thread} (none : next.filterMap Thread.submitting = []) :
    (Thread.write runId change next table).2.filterMap Thread.submitting = [] := by
  unfold Thread.write
  cases table.save runId change with
  | none => rfl
  | some saved => exact none

/-- No thread reaches the start call of a submission by a step of its own. -/
theorem advance_submitting :
    (thread.advance context table).2.filterMap Thread.submitting = [] := by
  cases thread with
  | lookup target key => exact replayOr_submitting rfl
  | lookupReplay target key => exact replayOr_submitting rfl
  | create target key =>
      simp only [Thread.advance]
      cases table.create (Thread.requested context.runId target key) with
      | none => rfl
      | some created => rfl
  | begin copy => exact write_submitting rfl
  | recordPolicy copy code status => exact write_submitting rfl
  | fail copy code status => exact write_submitting rfl
  | accept copy agentJobId origin => exact write_submitting rfl
  | save copy => exact write_submitting rfl
  | preflight copy =>
      simp only [Thread.advance]
      split_ifs
      · rfl
      · show (Thread.preflightFailed copy .unavailable).filterMap _ = []
        exact preflightFailed_submitting
      · rfl
  | submit copy origin =>
      simp only [Thread.advance]
      split_ifs
      · show (Thread.startFailed copy origin .unavailable).filterMap _ = []
        exact startFailed_submitting
      · rfl
  | sync copy =>
      simp only [Thread.advance]
      split_ifs <;> rfl
  | awaitPreflight copy => rfl
  | awaitStart copy origin => rfl
  | awaitStatus copy => rfl
  | awaitUpdate copy => rfl

/-- An answer takes a submission to its start call exactly when it is a
preflight that lets the run through. -/
theorem answer_submitting :
    runId ∈ (thread.answer result).filterMap Thread.submitting ↔
      (∃ entry ∈ thread.preflightOf result, entry.1 = runId ∧ entry.2.Passes) ∨
        thread.submitting = some runId := by
  cases thread with
  | awaitPreflight copy =>
      simp only [Thread.answer, Thread.preflightOf]
      cases result >>= (sanitizePreflight · copy.targetVersion) with
      | error error => simp [preflightFailed_submitting, Thread.submitting]
      | ok sanitized =>
          simp only [List.mem_filterMap, List.mem_singleton, exists_eq_left, gate_submitting]
          simp [Thread.submitting]
  | awaitStart copy origin =>
      simp only [Thread.answer, Thread.preflightOf]
      cases result with
      | error error => simp [startFailed_submitting, Thread.submitting]
      | ok payload =>
          simp only
          cases readJobId payload with
          | none => simp [startFailed_submitting, Thread.submitting]
          | some agentJobId => simp [Thread.submitting]
  | awaitStatus copy =>
      cases result with
      | error error => simp [Thread.answer, Thread.preflightOf, Thread.submitting]
      | ok payload =>
          simp only [Thread.answer, Thread.preflightOf]
          split_ifs <;> simp [Thread.submitting]
  | awaitUpdate copy =>
      simp only [Thread.answer, Thread.preflightOf]
      cases result >>= readUpdate copy with
      | error error => simp [Thread.submitting]
      | ok synced => simp [Thread.submitting]
  | _ => simp [Thread.answer, Thread.preflightOf]

/-! ### The invariant -/

/-- The submissions at their start call have arrived there, and those that have
arrived are the cleared ones. -/
structure GateInvariant (crm : Crm) : Prop where
  submissions : ∀ thread ∈ crm.threads, ∀ runId, thread.submitting = some runId →
    runId ∈ crm.arrived
  arrivals : ∀ runId, runId ∈ crm.arrived ↔ crm.Cleared runId

theorem GateInvariant.initial : GateInvariant {} where
  submissions := by simp
  arrivals := by simp [Crm.Cleared]

/-- Threads that are no submission at its start call may take the place of
another. -/
theorem GateInvariant.replaced (holds : GateInvariant crm) {index : Nat} {next : List Thread}
    (none : next.filterMap Thread.submitting = []) :
    GateInvariant { crm with threads := replaceAt index next crm.threads } where
  submissions := by
    intro thread member runId submits
    rcases mem_of_mem_replaceAt member with new | old
    · rw [List.filterMap_eq_nil_iff.mp none thread new] at submits
      cases submits
    · exact holds.submissions thread old runId submits
  arrivals := holds.arrivals

theorem GateInvariant.started (holds : GateInvariant crm) {next : List Thread}
    (none : next.filterMap Thread.submitting = []) : GateInvariant (crm.start next) where
  submissions := by
    intro thread member runId submits
    rcases List.mem_append.mp member with old | new
    · exact holds.submissions thread old runId submits
    · rw [List.filterMap_eq_nil_iff.mp none thread new] at submits
      cases submits
  arrivals := holds.arrivals

theorem GateInvariant.answered (holds : GateInvariant crm) {index : Nat}
    (member : thread ∈ crm.threads) : GateInvariant (crm.answer index result thread) where
  submissions := by
    intro other otherMember runId submits
    apply List.mem_append.mpr
    rcases mem_of_mem_replaceAt otherMember with new | old
    · exact Or.inr (List.mem_filterMap.mpr ⟨other, new, submits⟩)
    · exact Or.inl (holds.submissions other old runId submits)
  arrivals := by
    intro runId
    have cleared : (crm.answer index result thread).Cleared runId ↔ crm.Cleared runId ∨
        ∃ entry ∈ thread.preflightOf result, entry.1 = runId ∧ entry.2.Passes := by
      simp only [Crm.Cleared, Crm.answer, List.mem_append, Option.mem_toList, or_and_right,
        exists_or, Option.mem_def]
    rw [cleared]
    show runId ∈ crm.arrived ++ (thread.answer result).filterMap Thread.submitting ↔ _
    rw [List.mem_append, answer_submitting, holds.arrivals]
    constructor
    · rintro (before | new | submits)
      · exact Or.inl before
      · exact Or.inr new
      · exact Or.inl ((holds.arrivals runId).mp (holds.submissions thread member runId submits))
    · rintro (before | new)
      · exact Or.inl before
      · exact Or.inr (Or.inl new)

theorem step_gateInvariant (crm : Crm) (action : CrmAction) (holds : GateInvariant crm) :
    GateInvariant (crm.step action) := by
  cases action with
  | request installed target key =>
      simp only [Crm.step, Crm.request]
      split_ifs
      · exact holds.started rfl
      · exact holds
  | poll runId =>
      apply holds.started
      cases crm.table.getById runId <;> rfl
  | pollStatus configured =>
      simp only [Crm.step, Crm.pollStatus]
      split_ifs
      · apply holds.started
        cases crm.table.firstActive <;> rfl
      · exact holds
  | advance index context =>
      simp only [Crm.step]
      cases crm.threads[index]? with
      | none => exact holds
      | some thread =>
          have none : (thread.advance context crm.table).2.filterMap Thread.submitting = [] :=
            advance_submitting
          exact ⟨(holds.replaced none).submissions, holds.arrivals⟩
  | answer index result =>
      simp only [Crm.step]
      cases found : crm.threads[index]? with
      | none => exact holds
      | some thread => exact holds.answered (List.mem_of_getElem? found)
  | drop index => exact holds.replaced rfl

/-! ### Runs -/

theorem Crm.starting_mem {action : CrmAction} {call : InstallationUpdateRun × Origin}
    (starts : call ∈ crm.starting action) : .submit call.1 call.2 ∈ crm.threads := by
  unfold Crm.starting at starts
  split at starts
  · split at starts
    next found =>
        obtain rfl := Option.some.inj starts
        exact List.mem_of_getElem? found
    · cases starts
  · cases starts

/-- A submission is always behind its gate, so only replays can be before it. -/
theorem GateInvariant.gated_iff (holds : GateInvariant crm) (action : CrmAction) :
    ReplaysFollow crm action ↔ Gated crm action := by
  unfold ReplaysFollow Gated
  refine forall_congr' fun call => forall_congr' fun starts => ?_
  rw [← holds.arrivals]
  constructor
  · intro follows
    cases origin : call.2 with
    | replay => exact follows origin
    | submission =>
        apply holds.submissions _ (Crm.starting_mem starts)
        simp [Thread.submitting, origin]
  · exact fun arrived _ => arrived

/-- In every interleaving of submissions, replays and polls, with every answer
or failure of the agent: every start call is behind the gate exactly when every
replay makes its start call behind the submission of its run. -/
theorem update_gated_iff (actions : List CrmAction) :
    EveryStep Crm.step ReplaysFollow {} actions ↔ EveryStep Crm.step Gated {} actions :=
  everyStep_congr GateInvariant step_gateInvariant
    (fun _ action holds => holds.gated_iff action) GateInvariant.initial actions

/-! ### A replay during the preflight -/

/-- The process while the installed version is behind the target. -/
def ready (runId : Nat) : Context where
  installed := "0.3.0"
  configured := true
  runId := runId

def submitRequest : CrmAction :=
  .request "0.3.0" "0.4.0" "key-00000001"

/-- The submission waits for its preflight while a replay starts the update. -/
def earlyReplay : List CrmAction := [
  submitRequest, .advance 0 (ready 1), .advance 0 (ready 1), .advance 0 (ready 1),
  .advance 0 (ready 1), submitRequest, .advance 1 (ready 2), .advance 1 (ready 2)]

theorem update_not_always_gated : ¬ ∀ actions, EveryStep Crm.step Gated {} actions := by
  intro always
  exact absurd (always earlyReplay) (by decide +kernel)

end BubllioCrm.Onboarding
