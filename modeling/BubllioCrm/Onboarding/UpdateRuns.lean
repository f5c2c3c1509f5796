import BubllioCrm.Foundations.CodePoints
import BubllioCrm.Foundations.Table

/-!
Owns the table of update runs: the rows of `InstallationUpdateRun`, its
constraints, and the statements that insert a row and write one. A statement
that breaks a constraint is an `IntegrityError` and changes nothing.

Run ids stand for UUIDs. Times, the user of a run and the events are left out.
-/

namespace BubllioCrm.Onboarding

open BubllioCrm.Foundations

inductive RunStatus where
  | requested
  | preflight
  | backingUp
  | deploying
  | verifying
  | succeeded
  | failed
  | rolledBack
  | manualIntervention
deriving DecidableEq

namespace RunStatus

/-- `Status.values`. -/
def values : List RunStatus :=
  [.requested, .preflight, .backingUp, .deploying, .verifying, .succeeded, .failed, .rolledBack,
    .manualIntervention]

def text : RunStatus → String
  | .requested => "requested"
  | .preflight => "preflight"
  | .backingUp => "backing_up"
  | .deploying => "deploying"
  | .verifying => "verifying"
  | .succeeded => "succeeded"
  | .failed => "failed"
  | .rolledBack => "rolled_back"
  | .manualIntervention => "manual_intervention"

/-- `ACTIVE_STATUSES`. -/
def isActive : RunStatus → Bool
  | .requested => true
  | .preflight => true
  | .backingUp => true
  | .deploying => true
  | .verifying => true
  | .succeeded => false
  | .failed => false
  | .rolledBack => false
  | .manualIntervention => false

/-- `TERMINAL_STATUSES`. -/
def isTerminal : RunStatus → Bool
  | .succeeded => true
  | .failed => true
  | .rolledBack => true
  | .manualIntervention => true
  | .requested => false
  | .preflight => false
  | .backingUp => false
  | .deploying => false
  | .verifying => false

/-- The two sets of statuses divide all of them. -/
theorem isActive_eq (status : RunStatus) : status.isActive = !status.isTerminal := by
  cases status <;> rfl

end RunStatus

inductive MigrationPolicy where
  | onlineSafe
  | maintenance
  | irreversible
deriving DecidableEq

namespace MigrationPolicy

def values : List MigrationPolicy :=
  [.onlineSafe, .maintenance, .irreversible]

def text : MigrationPolicy → String
  | .onlineSafe => "online_safe"
  | .maintenance => "maintenance"
  | .irreversible => "irreversible"

end MigrationPolicy

/-- A row, where `migrationPolicy` is `none` for the empty text. -/
structure InstallationUpdateRun where
  id : Nat
  targetVersion : String
  idempotencyKey : String
  agentJobId : Option String := none
  status : RunStatus := .requested
  progress : Nat := 0
  phaseLabel : Text := []
  migrationPolicy : Option MigrationPolicy := none
  failureCode : String := ""
  failureMessage : String := ""
deriving DecidableEq

namespace InstallationUpdateRun

/-- The columns that no statement writes after the insertion. -/
def identity (row : InstallationUpdateRun) : Nat × String × String :=
  (row.id, row.idempotencyKey, row.targetVersion)

/-- `agent_job_id` is neither `None` nor empty. -/
def isAcknowledged (row : InstallationUpdateRun) : Bool :=
  row.agentJobId.any (· ≠ "")

end InstallationUpdateRun

/-- The primary key, the two unique columns, and `one_active_installation_update`. -/
structure RowsConsistent (rows : List InstallationUpdateRun) : Prop where
  ids : (rows.map InstallationUpdateRun.id).Nodup
  keys : (rows.map InstallationUpdateRun.idempotencyKey).Nodup
  jobs : (rows.filterMap InstallationUpdateRun.agentJobId).Nodup
  oneActive : (rows.filter (·.status.isActive)).length ≤ 1

instance (rows : List InstallationUpdateRun) : Decidable (RowsConsistent rows) :=
  decidable_of_iff ((rows.map InstallationUpdateRun.id).Nodup ∧
      (rows.map InstallationUpdateRun.idempotencyKey).Nodup ∧
      (rows.filterMap InstallationUpdateRun.agentJobId).Nodup ∧
      (rows.filter (·.status.isActive)).length ≤ 1)
    ⟨fun ⟨ids, keys, jobs, oneActive⟩ => ⟨ids, keys, jobs, oneActive⟩,
      fun ⟨ids, keys, jobs, oneActive⟩ => ⟨ids, keys, jobs, oneActive⟩⟩

structure UpdateRuns where
  rows : List InstallationUpdateRun
  consistent : RowsConsistent rows

namespace UpdateRuns

def empty : UpdateRuns where
  rows := []
  consistent := by decide

/-- The table with other rows, where `none` is an `IntegrityError`. -/
def commit (rows : List InstallationUpdateRun) : Option UpdateRuns :=
  if consistent : RowsConsistent rows then some { rows := rows, consistent := consistent }
  else none

/-- `objects.create`. -/
def create (row : InstallationUpdateRun) (table : UpdateRuns) : Option UpdateRuns :=
  commit (table.rows ++ [row])

/-- `save` of the columns that `change` writes. -/
def save (runId : Nat) (change : InstallationUpdateRun → InstallationUpdateRun)
    (table : UpdateRuns) : Option UpdateRuns :=
  commit (updateWhere (·.id = runId) change table.rows)

def getById (runId : Nat) (table : UpdateRuns) : Option InstallationUpdateRun :=
  table.rows.find? (·.id = runId)

def getByIdempotencyKey (key : String) (table : UpdateRuns) : Option InstallationUpdateRun :=
  table.rows.find? (·.idempotencyKey = key)

/-- `filter(status__in=ACTIVE_STATUSES).first()`. -/
def firstActive (table : UpdateRuns) : Option InstallationUpdateRun :=
  table.rows.find? (·.status.isActive)

/-! ### What the statements do -/

variable {table next : UpdateRuns} {row : InstallationUpdateRun} {runId : Nat}
  {change : InstallationUpdateRun → InstallationUpdateRun}

theorem commit_eq_some {rows : List InstallationUpdateRun} :
    commit rows = some next ↔ RowsConsistent rows ∧ next.rows = rows := by
  unfold commit
  by_cases consistent : RowsConsistent rows
  · rw [dif_pos consistent, Option.some.injEq]
    constructor
    · rintro rfl
      exact ⟨consistent, rfl⟩
    · rintro ⟨-, same⟩
      cases next
      subst same
      rfl
  · rw [dif_neg consistent]
    simp [consistent]

theorem create_eq_some : table.create row = some next ↔
    RowsConsistent (table.rows ++ [row]) ∧ next.rows = table.rows ++ [row] :=
  commit_eq_some

theorem save_eq_some : table.save runId change = some next ↔
    RowsConsistent (updateWhere (·.id = runId) change table.rows) ∧
      next.rows = updateWhere (·.id = runId) change table.rows :=
  commit_eq_some

/-- Two rows with one id are the same row. -/
theorem row_eq {first second : InstallationUpdateRun} (firstStored : first ∈ table.rows)
    (secondStored : second ∈ table.rows) (same : first.id = second.id) : first = second :=
  List.inj_on_of_nodup_map table.consistent.ids firstStored secondStored same

/-- The one active row. -/
theorem active_eq {rows : List InstallationUpdateRun} (consistent : RowsConsistent rows)
    {first second : InstallationUpdateRun} (firstStored : first ∈ rows)
    (secondStored : second ∈ rows) (firstActive : first.status.isActive = true)
    (secondActive : second.status.isActive = true) :
    first = second :=
  (length_le_one_iff ((consistent.ids.of_map _).filter _)).mp consistent.oneActive first
    (List.mem_filter.mpr ⟨firstStored, firstActive⟩) second
    (List.mem_filter.mpr ⟨secondStored, secondActive⟩)

/-- An active row is inserted only where no row is active. -/
theorem inactive_of_create (created : table.create row = some next)
    (active : row.status.isActive = true) :
    ∀ other ∈ table.rows, other.status.isActive = false := by
  obtain ⟨consistent, -⟩ := create_eq_some.mp created
  intro other stored
  by_contra otherActive
  have same : other = row := active_eq consistent (List.mem_append_left _ stored)
    (List.mem_append_right _ List.mem_cons_self) (by simpa using otherActive) active
  have distinct := consistent.ids
  rw [List.map_append, List.nodup_append] at distinct
  exact distinct.2.2 other.id (List.mem_map_of_mem stored) row.id (by simp) (by rw [same])

/-- A row behind a write is the written row or another one. -/
theorem written_cases (stored : row ∈ table.rows) {written : InstallationUpdateRun}
    (member : written ∈ updateWhere (·.id = row.id) change table.rows) :
    written = change row ∨ written ∈ table.rows ∧ written.id ≠ row.id := by
  obtain ⟨before, was, ⟨same, rfl⟩ | ⟨differs, rfl⟩⟩ := mem_updateWhere.mp member
  · exact Or.inl (by rw [row_eq was stored same])
  · exact Or.inr ⟨was, differs⟩

/-- A write that keeps the key columns is refused exactly when it makes a row
active beside another active one. -/
theorem save_isSome (stored : row ∈ table.rows)
    (identity : (change row).identity = row.identity)
    (jobId : (change row).agentJobId = row.agentJobId) :
    (table.save row.id change).isSome = true ↔ ((change row).status.isActive = true →
      ∀ other ∈ table.rows, other.id ≠ row.id → other.status.isActive = false) := by
  have changed : change row ∈ updateWhere (·.id = row.id) change table.rows :=
    mem_updateWhere_of_selected stored rfl
  have sameId : (change row).id = row.id := congrArg Prod.fst identity
  have keeps : ∀ other ∈ table.rows, other.id = row.id →
      (change other).identity = other.identity ∧ (change other).agentJobId = other.agentJobId := by
    intro other otherStored same
    obtain rfl := row_eq otherStored stored same
    exact ⟨identity, jobId⟩
  have ids : (updateWhere (·.id = row.id) change table.rows).map InstallationUpdateRun.id =
      table.rows.map InstallationUpdateRun.id :=
    map_updateWhere_of_mem fun other otherStored same =>
      congrArg Prod.fst (keeps other otherStored same).1
  constructor
  · intro accepted active other otherStored differs
    obtain ⟨next, saved⟩ := Option.isSome_iff_exists.mp accepted
    by_contra otherActive
    have kept : other ∈ updateWhere (·.id = row.id) change table.rows :=
      mem_updateWhere_of_not_selected otherStored differs
    have same :=
      active_eq (save_eq_some.mp saved).1 kept changed (by simpa using otherActive) active
    exact differs (same ▸ sameId)
  · intro free
    have distinct : ((updateWhere (·.id = row.id) change table.rows).map
        InstallationUpdateRun.id).Nodup := ids ▸ table.consistent.ids
    have keys : (updateWhere (·.id = row.id) change table.rows).map
        InstallationUpdateRun.idempotencyKey =
          table.rows.map InstallationUpdateRun.idempotencyKey :=
      map_updateWhere_of_mem fun other otherStored same =>
        congrArg (·.2.1) (keeps other otherStored same).1
    have jobs : (updateWhere (·.id = row.id) change table.rows).map
        InstallationUpdateRun.agentJobId = table.rows.map InstallationUpdateRun.agentJobId :=
      map_updateWhere_of_mem fun other otherStored same => (keeps other otherStored same).2
    have column : ∀ rows : List InstallationUpdateRun,
        rows.filterMap InstallationUpdateRun.agentJobId =
          (rows.map InstallationUpdateRun.agentJobId).filterMap id := by
      intro rows
      rw [List.filterMap_map]
      rfl
    have consistent : RowsConsistent (updateWhere (·.id = row.id) change table.rows) := by
      refine ⟨distinct, keys ▸ table.consistent.keys, ?_, ?_⟩
      · rw [column, jobs, ← column]
        exact table.consistent.jobs
      · apply (length_le_one_iff ((distinct.of_map _).filter _)).mpr
        intro first firstMember second secondMember
        obtain ⟨firstWritten, firstActive⟩ := List.mem_filter.mp firstMember
        obtain ⟨secondWritten, secondActive⟩ := List.mem_filter.mp secondMember
        rcases written_cases stored firstWritten with rfl | ⟨firstStored, firstOther⟩
        · rcases written_cases stored secondWritten with rfl | ⟨secondStored, secondOther⟩
          · rfl
          · simp [free firstActive second secondStored secondOther] at secondActive
        · rcases written_cases stored secondWritten with rfl | ⟨secondStored, secondOther⟩
          · simp [free secondActive first firstStored firstOther] at firstActive
          · exact active_eq table.consistent firstStored secondStored firstActive secondActive
    exact Option.isSome_iff_exists.mpr ⟨⟨_, consistent⟩, save_eq_some.mpr ⟨consistent, rfl⟩⟩

end UpdateRuns

end BubllioCrm.Onboarding
