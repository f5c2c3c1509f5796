import BubllioCrm.Foundations.Fallible
import BubllioCrm.Onboarding.Orchestration

/-!
Owns what one step of a request does: one relation with a case for each thing
that a statement or a call can come to, one for the answers of the agent, and
what every write says about the columns of the row.
-/

namespace BubllioCrm.Onboarding

open BubllioCrm.Foundations

namespace Thread

/-- A thread that writes a row, the columns it writes, and the thread behind
the statement. -/
inductive Writes : Thread → Nat → (InstallationUpdateRun → InstallationUpdateRun) →
    List Thread → Prop where
  | begun {copy : InstallationUpdateRun} :
      Writes (.begin copy) copy.id (saveBegin (begun copy)) [.preflight (begun copy)]
  | policy {copy : InstallationUpdateRun} {code : String} {status : RunStatus} :
      Writes (.recordPolicy copy code status) copy.id (savePolicy copy) [.fail copy code status]
  | failed {copy : InstallationUpdateRun} {code : String} {status : RunStatus} :
      Writes (.fail copy code status) copy.id (saveFailure code status) []
  | accepted {copy : InstallationUpdateRun} {agentJobId : String} {origin : Origin} :
      Writes (.accept copy agentJobId origin) copy.id
        (saveAccepted (accepted copy agentJobId) origin) [.sync (accepted copy agentJobId)]
  | saved {copy : InstallationUpdateRun} : Writes (.save copy) copy.id (fun _ => copy) []

/-- What a thread comes to by a step of its own. -/
inductive AdvanceStep (context : Context) (table : UpdateRuns) :
    Thread → UpdateRuns → List Thread → Prop where
  | waits {thread : Thread} : AdvanceStep context table thread table [thread]
  | ends {thread : Thread} : AdvanceStep context table thread table []
  | resumed {thread : Thread} {row : InstallationUpdateRun}
      (looks : thread = .lookup row.targetVersion row.idempotencyKey ∨
        thread = .lookupReplay row.targetVersion row.idempotencyKey)
      (stored : row ∈ table.rows) (unknown : row.isAcknowledged = false)
      (active : row.status.isActive = true) :
      AdvanceStep context table thread table [.submit row .replay]
  | missing {target key : String} :
      AdvanceStep context table (.lookup target key) table [.create target key]
  | created {target key : String} {after : UpdateRuns}
      (inserted : table.create (requested context.runId target key) = some after) :
      AdvanceStep context table (.create target key) after
        [.begin (requested context.runId target key)]
  | conflict {target key : String} :
      AdvanceStep context table (.create target key) table [.lookupReplay target key]
  | wrote {thread : Thread} {runId : Nat} {change : InstallationUpdateRun → InstallationUpdateRun}
      {next : List Thread} {after : UpdateRuns} (writes : Writes thread runId change next)
      (saved : table.save runId change = some after) : AdvanceStep context table thread after next
  | checked {copy : InstallationUpdateRun} :
      AdvanceStep context table (.preflight copy) table [.awaitPreflight copy]
  | unavailable {thread : Thread} {copy : InstallationUpdateRun}
      (calls : thread = .preflight copy ∨ thread = .submit copy .submission) :
      AdvanceStep context table thread table [.fail copy "agent_unavailable" .failed]
  | submitted {copy : InstallationUpdateRun} {origin : Origin}
      (configured : context.configured = true) :
      AdvanceStep context table (.submit copy origin) table [.awaitStart copy origin]
  | polled {copy : InstallationUpdateRun} (known : copy.isAcknowledged = true)
      (running : copy.status.isTerminal = false) :
      AdvanceStep context table (.sync copy) table [.awaitUpdate copy]

/-- What a thread comes to by an answer of the agent. -/
inductive AnswerStep (result : Except ClientError Fields) : Thread → List Thread → Prop where
  | working {thread : Thread} : AnswerStep result thread [thread]
  | ends {thread : Thread} : AnswerStep result thread []
  | failed {thread : Thread} {copy : InstallationUpdateRun} {code : String}
      (calls : thread = .awaitPreflight copy ∨ ∃ origin, thread = .awaitStart copy origin) :
      AnswerStep result thread [.fail copy code .failed]
  | stopped {copy : InstallationUpdateRun} {policy : Option MigrationPolicy} {code : String}
      {status : RunStatus} (terminal : status.isTerminal = true) :
      AnswerStep result (.awaitPreflight copy)
        [.recordPolicy { copy with migrationPolicy := policy } code status]
  | passed {copy : InstallationUpdateRun} {policy : Option MigrationPolicy} :
      AnswerStep result (.awaitPreflight copy)
        [.submit { copy with migrationPolicy := policy } .submission]
  | accepted {copy : InstallationUpdateRun} {origin : Origin} {payload : Fields}
      {agentJobId : String} (returned : result = .ok payload)
      (named : readJobId payload = some agentJobId) :
      AnswerStep result (.awaitStart copy origin) [.accept copy agentJobId origin]
  | polled {copy : InstallationUpdateRun} : AnswerStep result (.awaitStatus copy) [.sync copy]
  | read {copy synced : InstallationUpdateRun} {payload : Fields} (returned : result = .ok payload)
      (reads : readUpdate copy payload = .ok synced) :
      AnswerStep result (.awaitUpdate copy) [.save synced]

variable {context : Context} {table : UpdateRuns} {thread : Thread}
  {copy row : InstallationUpdateRun} {result : Except ClientError Fields}

/-! ### Steps of a thread -/

theorem Writes.advance {runId : Nat} {change : InstallationUpdateRun → InstallationUpdateRun}
    {next : List Thread} (writes : Writes thread runId change next) :
    thread.advance context table = write runId change next table := by
  cases writes <;> rfl

theorem Writes.advanceStep {runId : Nat} {change : InstallationUpdateRun → InstallationUpdateRun}
    {next : List Thread} (writes : Writes thread runId change next) :
    AdvanceStep context table thread (thread.advance context table).1
      (thread.advance context table).2 := by
  rw [writes.advance]
  unfold write
  cases saved : table.save runId change with
  | none => exact .ends
  | some after => exact .wrote writes saved

theorem replayOr_advanceStep {missing : List Thread} {target key : String}
    (looks : thread = .lookup target key ∨ thread = .lookupReplay target key)
    (none : AdvanceStep context table thread table missing) :
    AdvanceStep context table thread table
      (replayOr missing target (table.getByIdempotencyKey key)) := by
  cases found : table.getByIdempotencyKey key with
  | none => exact none
  | some row =>
      have stored : row ∈ table.rows := List.mem_of_find?_eq_some found
      have sameKey : row.idempotencyKey = key := by simpa using List.find?_some found
      simp only [replayOr, resume]
      split_ifs with sameTarget rest
      · exact .ends
      · simp only [Bool.or_eq_true, Bool.not_eq_true', not_or, Bool.not_eq_true,
          Bool.not_eq_false] at rest
        subst sameKey sameTarget
        exact .resumed looks stored rest.1 rest.2
      · exact .ends

theorem advanceStep (context : Context) (table : UpdateRuns) (thread : Thread) :
    AdvanceStep context table thread (thread.advance context table).1
      (thread.advance context table).2 := by
  cases thread with
  | lookup target key => exact replayOr_advanceStep (Or.inl rfl) .missing
  | lookupReplay target key => exact replayOr_advanceStep (Or.inr rfl) .ends
  | create target key =>
      simp only [advance]
      cases inserted : table.create (requested context.runId target key) with
      | none => exact .conflict
      | some after => exact .created inserted
  | begin copy => exact Writes.begun.advanceStep
  | recordPolicy copy code status => exact Writes.policy.advanceStep
  | fail copy code status => exact Writes.failed.advanceStep
  | accept copy agentJobId origin => exact Writes.accepted.advanceStep
  | save copy => exact Writes.saved.advanceStep
  | preflight copy =>
      simp only [advance]
      split_ifs
      · exact .ends
      · exact .unavailable (Or.inl rfl)
      · exact .checked
  | submit copy origin =>
      simp only [advance]
      split_ifs with configured
      · cases origin with
        | submission => exact .unavailable (Or.inr rfl)
        | replay => exact .ends
      · exact .submitted (by simpa using configured)
  | sync copy =>
      simp only [advance]
      split_ifs with rest unreachable
      · exact .ends
      · exact .ends
      · simp only [Bool.or_eq_true, Bool.not_eq_true', not_or, Bool.not_eq_true,
          Bool.not_eq_false] at rest
        exact .polled rest.1 rest.2
  | awaitPreflight copy => exact .waits
  | awaitStart copy origin => exact .waits
  | awaitStatus copy => exact .waits
  | awaitUpdate copy => exact .waits

/-! ### Answers -/

theorem startFailed_answerStep {origin : Origin} {error : ClientError} :
    AnswerStep result (.awaitStart copy origin) (startFailed copy origin error) := by
  cases error with
  | rejected => exact .failed (Or.inr ⟨origin, rfl⟩)
  | raised => exact .ends
  | unavailable =>
      cases origin with
      | submission => exact .failed (Or.inr ⟨.submission, rfl⟩)
      | replay => exact .ends

theorem preflight_answerStep {sanitized : Except ClientError SanitizedPreflight} :
    AnswerStep result (.awaitPreflight copy)
      (match sanitized with
      | .ok sanitized => [gate copy sanitized]
      | .error error => preflightFailed copy error) := by
  cases sanitized with
  | error error =>
      cases error with
      | rejected => exact .failed (Or.inl rfl)
      | unavailable => exact .failed (Or.inl rfl)
      | raised => exact .ends
  | ok sanitized =>
      simp only [gate]
      split_ifs
      · exact .stopped rfl
      · exact .stopped rfl
      · exact .passed

theorem answerStep (result : Except ClientError Fields) (thread : Thread) :
    AnswerStep result thread (thread.answer result) := by
  cases thread with
  | awaitPreflight copy => exact preflight_answerStep
  | awaitStart copy origin =>
      simp only [answer]
      cases returned : result with
      | error error => exact startFailed_answerStep
      | ok payload =>
          simp only
          cases named : readJobId payload with
          | none => exact startFailed_answerStep
          | some agentJobId => exact .accepted rfl named
  | awaitStatus copy =>
      simp only [answer]
      cases result with
      | error error => exact .ends
      | ok payload =>
          simp only
          split_ifs
          · exact .polled
          · exact .ends
  | awaitUpdate copy =>
      simp only [answer]
      cases returned : result with
      | error error => exact .ends
      | ok payload =>
          simp only [bind, Except.bind]
          cases reads : readUpdate copy payload with
          | error error => exact .ends
          | ok synced => exact .read rfl reads
  | _ => exact .working

end Thread

/-- The saved copy of a poll is that of the thread, up to the columns that the
agent reports. -/
theorem readUpdate_ok {copy synced : InstallationUpdateRun} {payload : Fields}
    (reads : readUpdate copy payload = .ok synced) :
    synced.identity = copy.identity ∧ synced.agentJobId = copy.agentJobId ∧
      readStatus (getOr "status" "state" payload) = some synced.status := by
  unfold readUpdate at reads
  simp only at reads
  split at reads
  · cases reads
  · cases reads
  next status _ named =>
    split_ifs at reads with unhashable otherTarget failed
    · obtain ⟨code, -, returned⟩ := bind_eq_ok.mp reads
      obtain rfl := pure_eq_ok.mp returned
      exact ⟨rfl, rfl, named⟩
    · obtain rfl := pure_eq_ok.mp reads
      exact ⟨rfl, rfl, named⟩

end BubllioCrm.Onboarding
