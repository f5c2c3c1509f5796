import BubllioCrm.Access.Requests
import BubllioCrm.Foundations.Fallible

/-!
Owns what a commit leaves alone: the memberships and the workspaces that other
transactions hold, and the workspaces that are open.
-/

namespace BubllioCrm.Access

open BubllioCrm.Foundations

/-- The provisioning of a workspace, if it has one. -/
def Tables.provisioningOf (tables : Tables) (organization : Nat) : Option Provisioning :=
  tables.provisioning.find? (·.organization = organization)

/-- What a change of the tables keeps of the rows that are held. -/
structure Frame (heldMember heldOrganization : Nat → Prop) (before after : Tables) : Prop where
  opened : ∀ organization, before.Opened organization → after.Opened organization
  provisioning : ∀ organization ∈ before.organizations, heldOrganization organization →
    after.provisioningOf organization = before.provisioningOf organization
  members : ∀ row ∈ before.memberships, heldMember row.id → row ∈ after.memberships
  invitations : ∀ row ∈ before.invitations, heldOrganization row.organization →
    row ∈ after.invitations

variable {heldMember heldOrganization : Nat → Prop} {tables after : Tables} {text : TextCase}
  {hash : String → String} {now : Nat}

/-- Nothing but memberships is changed by a change of a member. -/
theorem frame_apply {request : MemberRequest} {target : Membership}
    (free : ∀ row ∈ tables.memberships, request.change.Touches target row → ¬ heldMember row.id) :
    Frame heldMember heldOrganization tables (request.apply target tables) where
  opened := fun _ opened => opened
  provisioning := fun _ _ _ => rfl
  members := fun row stored held =>
    mem_write_of_untouched stored fun touched => free row stored touched held
  invitations := fun _ stored _ => stored

theorem frame_deleteAccount {user : Nat}
    (free : ∀ row ∈ tables.memberships, row.user = user → ¬ heldMember row.id) :
    Frame heldMember heldOrganization tables (deleteAccount user tables) where
  opened := fun _ opened => opened
  provisioning := fun _ _ _ => rfl
  members := fun row stored held => by
    apply List.mem_filter.mpr
    rw [decide_eq_true_eq]
    exact ⟨stored, fun same => free row stored same held⟩
  invitations := fun _ stored _ => stored

/-- What a delivery that is not refused writes. -/
theorem deliver_ok {delivery : Delivery}
    (delivered : deliver text hash delivery tables = .ok after) :
    after = { tables with
      invitations :=
        updateWhere (delivery.Replaces text)
          (fun row => { row with revokedAt := some delivery.now }) tables.invitations ++
            [delivery.invitation hash]
      events := tables.events ++ [delivery.event] } := by
  unfold deliver at delivered
  split_ifs at delivered with isMember permitted
  exact (Except.ok.inj delivered).symm

theorem frame_deliver {delivery : Delivery}
    (delivered : deliver text hash delivery tables = .ok after)
    (free : ¬ heldOrganization delivery.organization) :
    Frame heldMember heldOrganization tables after := by
  obtain rfl := deliver_ok delivered
  refine ⟨fun _ opened => opened, fun _ _ _ => rfl, fun _ stored _ => stored, ?_⟩
  intro row stored held
  apply List.mem_append_left
  apply mem_updateWhere_of_not_selected stored
  rintro ⟨same, -⟩
  exact free (same ▸ held)

/-- The invitation that is updated by its id is of a workspace that is not held. -/
theorem mem_invitations_of_held {invitation row : Invitation} {change : Invitation → Invitation}
    (ids : (tables.invitations.map Invitation.id).Nodup)
    (isStored : invitation ∈ tables.invitations)
    (free : ¬ heldOrganization invitation.organization) (stored : row ∈ tables.invitations)
    (held : heldOrganization row.organization) :
    row ∈ updateWhere (·.id = invitation.id) change tables.invitations := by
  apply mem_updateWhere_of_not_selected stored
  intro same
  have isRow : row = invitation := List.inj_on_of_nodup_map ids stored isStored same
  exact free (isRow ▸ held)

theorem frame_revoke {revocation : Revocation} {invitation : Invitation}
    (ids : (tables.invitations.map Invitation.id).Nodup)
    (isStored : invitation ∈ tables.invitations)
    (free : ¬ heldOrganization invitation.organization) :
    Frame heldMember heldOrganization tables (revocation.apply invitation now tables) := by
  unfold Revocation.apply
  split_ifs with isRevoked
  · exact ⟨fun _ opened => opened, fun _ _ _ => rfl, fun _ stored _ => stored,
      fun _ stored _ => stored⟩
  · exact ⟨fun _ opened => opened, fun _ _ _ => rfl, fun _ stored _ => stored,
      fun _ stored held => mem_invitations_of_held ids isStored free stored held⟩

/-! ### Acceptances -/

theorem mem_withoutCreator {row : Membership} {provisioning : Option Provisioning}
    {memberships : List Membership} :
    row ∈ withoutCreator provisioning memberships ↔ row ∈ memberships ∧
      ¬ ∃ pending ∈ provisioning, row.organization = pending.organization ∧
        row.user = pending.creator ∧ row.role = .owner := by
  unfold withoutCreator
  cases provisioning with
  | none => simp
  | some pending =>
      simp only [List.mem_filter, decide_eq_true_eq, Option.mem_def, Option.some.injEq,
        exists_eq_left']

/-- A membership that an acceptance does not touch is there afterwards. -/
theorem mem_memberships_of_untouched {joining : Joining} {row : Membership}
    {memberships : List Membership} (stored : row ∈ memberships)
    (untouched : ¬ joining.Touches row) : row ∈ joining.memberships memberships := by
  have remains : row ∈ withoutCreator joining.provisioning memberships :=
    mem_withoutCreator.mpr ⟨stored, fun creator => untouched (Or.inl creator)⟩
  unfold Joining.memberships
  cases found : joining.membership with
  | none => exact List.mem_append_left _ remains
  | some existing =>
      dsimp only
      split_ifs with promotes
      · apply mem_updateWhere_of_not_selected remains
        exact fun same => untouched (Or.inr ⟨existing, found, promotes.1, same⟩)
      · exact remains

theorem frame_join {joining : Joining} (ids : (tables.invitations.map Invitation.id).Nodup)
    (isStored : joining.invitation ∈ tables.invitations)
    (isProvisioning :
      joining.provisioning = tables.provisioningOf joining.invitation.organization)
    (free : ¬ heldOrganization joining.invitation.organization)
    (untouched : ∀ row ∈ tables.memberships, joining.Touches row → ¬ heldMember row.id) :
    Frame heldMember heldOrganization tables (joining.apply now tables) where
  opened := fun organization opened =>
    ⟨opened.1, fun row stored => opened.2 row (List.mem_of_mem_filter stored)⟩
  provisioning := fun organization _ held => by
    show (tables.provisioning.filter _).find? _ = tables.provisioning.find? _
    rw [List.find?_filter]
    congr 1
    funext row
    by_cases isHeld : row.organization = organization
    · have remains : joining.provisioning.any (·.organization = row.organization) = false := by
        rw [isProvisioning]
        by_contra deleted
        rw [Bool.not_eq_false, Option.any_eq_true] at deleted
        obtain ⟨pending, found, same⟩ := deleted
        have isOwn := List.find?_some found
        simp only [decide_eq_true_eq] at isOwn same
        exact free (by rw [← isOwn, same, isHeld]; exact held)
      rw [isHeld] at remains
      simp [isHeld, remains]
    · simp [isHeld]
  members := fun row stored held =>
    mem_memberships_of_untouched stored fun touched => untouched row stored touched held
  invitations := fun _ stored held => mem_invitations_of_held ids isStored free stored held

/-! ### Commits -/

/-- What a transaction has written when it ends, by what it is. -/
inductive Written (text : TextCase) (hash : String → String) (now : Nat) (tables : Tables) :
    Phase → Tables → Prop where
  | changed {request : MemberRequest} {role : Role} {target : Membership}
      (accepted : request.change.refusal role target.role = none) :
      Written text hash now tables (.changing request role target) (request.apply target tables)
  | deleted {user : Nat} (unprotected : ¬ tables.Protects user) :
      Written text hash now tables (.deleting user) (deleteAccount user tables)
  | delivered {delivery : Delivery} {after : Tables}
      (delivered : deliver text hash delivery tables = .ok after) :
      Written text hash now tables (.delivering delivery) after
  | revoked {revocation : Revocation} {invitation : Invitation} :
      Written text hash now tables (.revoking revocation invitation)
        (revocation.apply invitation now tables)
  | joined {call : Joining} :
      Written text hash now tables (.joining call) (call.apply now tables)

theorem written_of_write {phase : Phase} (written : phase.write text hash now tables = some after) :
    Written text hash now tables phase after := by
  unfold Phase.write at written
  split at written
  · split_ifs at written with accepted
    rw [← Option.some.inj written]
    exact .changed accepted
  · split_ifs at written with protects
    rw [← Option.some.inj written]
    exact .deleted protects
  · exact .delivered (ok_of_toOption written)
  · rw [← Option.some.inj written]
    exact .revoked
  · rw [← Option.some.inj written]
    exact .joined
  · cases written

/-! ### Creations -/

/-- The tables that a creation leaves, but for the events. -/
inductive Created (text : TextCase) (hash : String → String) (creation : Creation) (now : Nat)
    (tables : Tables) : Tables → Prop where
  | forCreator : Created text hash creation now tables
      ((creation.open tables).record (creation.event text))
  | forOwner {invited : Tables}
      (delivered : deliver text hash (creation.delivery now)
        (creation.provision (creation.open tables)) = .ok invited) :
      Created text hash creation now tables (invited.record (creation.event text))

theorem created_of_ok {creation : Creation}
    (created : createWorkspace text hash creation now tables = .ok after) :
    Created text hash creation now tables after := by
  unfold createWorkspace at created
  split_ifs at created with isCreator
  · rw [← Except.ok.inj created]
    exact .forCreator
  · unfold sendOwnerInvitation at created
    split_ifs at created with hasAccount
    · cases delivered : deliver text hash (creation.delivery now)
          (creation.provision (creation.open tables)) with
      | error _ => simp [delivered, Except.mapError, Except.map] at created
      | ok invited =>
          simp only [delivered, Except.mapError, Except.map, Except.ok.injEq] at created
          rw [← created]
          exact .forOwner delivered
    · cases created

/-- A new workspace is new. -/
theorem Created.fresh {creation : Creation} (created : Created text hash creation now tables after)
    (admitted : after.Admitted) : creation.organization ∉ tables.organizations := by
  have nodup : (tables.organizations ++ [creation.organization]).Nodup := by
    cases created with
    | forCreator => exact admitted.keyed.organizations
    | forOwner delivered =>
        obtain rfl := deliver_ok delivered
        exact admitted.keyed.organizations
  intro stored
  exact (List.nodup_append.mp nodup).2.2 _ stored _ (List.mem_singleton_self _) rfl

theorem frame_create {creation : Creation}
    (created : Created text hash creation now tables after) (isAfter : after.Admitted)
    (admitted : tables.Admitted) : Frame heldMember heldOrganization tables after := by
  have fresh := created.fresh isAfter
  have elsewhere : ∀ organization ∈ tables.organizations, creation.organization ≠ organization := by
    rintro organization stored rfl
    exact fresh stored
  cases created with
  | forCreator =>
      refine ⟨?_, fun _ _ _ => rfl, fun _ stored _ => List.mem_append_left _ stored,
        fun _ stored _ => stored⟩
      rintro organization ⟨stored, opened⟩
      exact ⟨List.mem_append_left _ stored, opened⟩
  | forOwner delivered =>
      obtain rfl := deliver_ok delivered
      refine ⟨?_, ?_, fun _ stored _ => List.mem_append_left _ stored, ?_⟩
      · rintro organization ⟨stored, opened⟩
        refine ⟨List.mem_append_left _ stored, fun row member => ?_⟩
        rcases List.mem_append.mp member with old | new
        · exact opened row old
        · rw [List.mem_singleton.mp new]
          exact elsewhere organization stored
      · intro organization stored _
        show (tables.provisioning ++ [_]).find? _ = tables.provisioning.find? _
        rw [List.find?_append, List.find?_singleton, if_neg (by simp [elsewhere _ stored]),
          Option.or_none]
      · intro row stored _
        apply List.mem_append_left
        apply mem_updateWhere_of_not_selected stored
        rintro ⟨same, -⟩
        exact elsewhere _ (admitted.referenced.inviting row stored) same.symm

/-! ### Steps -/

/-- The tables that an action leaves, where it stores something. -/
inductive Stored (text : TextCase) (hash : String → String) (system : System) :
    Action → Tables → Prop where
  | created {creation : Creation} {after : Tables}
      (created : Created text hash creation system.now system.tables after) :
      Stored text hash system (.create creation) after
  | committed {index : Nat} {after : Tables} (succeeds : system.Succeeds text hash index)
      (written : Written text hash system.now system.tables (system.requests index) after) :
      Stored text hash system (.commit index) after

/-- The acceptances that an action commits. -/
def System.recorded (system : System) (action : Action) : List Joining :=
  match action.committed? with
  | some index => (system.requests index).joining?
  | none => []

/-- An action changes the tables where it stores something that the database
admits, and nowhere else. -/
inductive Outcome (text : TextCase) (hash : String → String) (system : System) (action : Action)
    (next : System) : Prop where
  | unchanged (tables : next.tables = system.tables) (joined : next.joined = system.joined)
  | stored (stored : Stored text hash system action next.tables)
      (admitted : next.tables.Admitted)
      (joined : next.joined = system.joined ++ system.recorded action)

section Unchanged

variable {system : System} {index : Nat} {action : Action}

theorem outcome_finish : Outcome text hash system action (system.finish index) :=
  .unchanged rfl rfl

theorem outcome_enterPhase {phase : Option Phase} :
    Outcome text hash system action (system.enterPhase index phase) := by
  cases phase with
  | none => exact outcome_finish
  | some _ => exact .unchanged rfl rfl

theorem outcome_start {phase : Option Phase} :
    Outcome text hash system action (system.start index phase) := by
  unfold System.start
  split
  · exact outcome_enterPhase
  · exact .unchanged rfl rfl

theorem outcome_lockMember {request : MemberRequest} {role : Role} :
    Outcome text hash system action (system.lockMember index request role) := by
  unfold System.lockMember
  split_ifs with grants
  · split
    · exact .unchanged rfl rfl
    · exact outcome_finish
  · exact .unchanged rfl rfl

theorem outcome_lockOrganization {task : Task} :
    Outcome text hash system action (system.lockOrganization text hash index task) := by
  unfold System.lockOrganization
  split_ifs with grants
  · split
    · exact .unchanged rfl rfl
    · exact outcome_finish
  · exact .unchanged rfl rfl

theorem outcome_readRole : Outcome text hash system action (system.readRole index) := by
  unfold System.readRole
  split
  · exact outcome_enterPhase
  · exact .unchanged rfl rfl

theorem outcome_lockTarget : Outcome text hash system action (system.lockTarget index) := by
  unfold System.lockTarget
  split
  · exact outcome_lockMember
  · exact .unchanged rfl rfl

theorem outcome_lockWorkspace :
    Outcome text hash system action (system.lockWorkspace text hash index) := by
  unfold System.lockWorkspace
  split
  · exact outcome_lockOrganization
  · exact .unchanged rfl rfl

theorem outcome_join : Outcome text hash system action (system.join text index) := by
  unfold System.join
  split
  · exact outcome_enterPhase
  · exact .unchanged rfl rfl

theorem outcome_commit :
    Outcome text hash system (.commit index) (system.commit text hash index) := by
  unfold System.commit
  split_ifs with goes
  · split
    · rename_i after written
      unfold System.store
      split_ifs with admitted
      · have succeeds : system.Succeeds text hash index :=
          ⟨goes.1, goes.2, after, written, admitted⟩
        exact .stored (.committed succeeds (written_of_write written)) admitted rfl
      · exact outcome_finish
    · exact outcome_finish
  · exact .unchanged rfl rfl

theorem outcome_create {creation : Creation} :
    Outcome text hash system (.create creation) (system.create text hash creation) := by
  unfold System.create
  split_ifs with permitted
  · split
    · rename_i after created
      split_ifs with admitted
      · exact .stored (.created (created_of_ok created)) admitted (List.append_nil _).symm
      · exact .unchanged rfl rfl
    · exact .unchanged rfl rfl
  · exact .unchanged rfl rfl

theorem outcome_step : Outcome text hash system action (system.step text hash action) := by
  cases action with
  | create creation => exact outcome_create
  | commit index => exact outcome_commit
  | changeMember index request => exact outcome_start
  | readRole index => exact outcome_readRole
  | lockMember index => exact outcome_lockTarget
  | deleteAccount index user => exact outcome_start
  | invite index request email role => exact outcome_start
  | resend index request replaced => exact outcome_start
  | revoke index organization actor invitation => exact outcome_start
  | accept index acceptance => exact outcome_start
  | lockOrganization index => exact outcome_lockWorkspace
  | join index => exact outcome_join
  | fail index => exact outcome_finish
  | advance elapsed => exact .unchanged rfl rfl

end Unchanged

end BubllioCrm.Access
