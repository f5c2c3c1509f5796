import BubllioCrm.Access.Frames
import BubllioCrm.Foundations.Execution
import BubllioCrm.Foundations.Fallible

/-!
Owns what transactions know while others commit: a copy that was read behind a
lock stays current, an open workspace stays open, and a workspace that awaits
its owner has no member but its creator.
-/

namespace BubllioCrm.Access

open BubllioCrm.Foundations

/-- A workspace that awaits its owner has no member but its creator, who owns it. -/
def Tables.Awaiting (tables : Tables) : Prop :=
  ∀ pending ∈ tables.provisioning, ∀ row ∈ tables.memberships,
    row.organization = pending.organization → row.role = .owner ∧ row.user = pending.creator

instance : DecidablePred Tables.Awaiting :=
  fun tables => inferInstanceAs (Decidable (∀ pending ∈ tables.provisioning, _))

/-- What an acceptance knows of the rows that it has locked. -/
structure Current (text : TextCase) (hash : String → String) (tables : Tables)
    (acceptance : Acceptance) (invitation : Invitation) (provisioning : Option Provisioning)
    (checkedAt : Nat) : Prop where
  stored : invitation ∈ tables.invitations
  usable : invitation.Usable hash acceptance.token checkedAt
  unchanged : provisioning = tables.provisioningOf invitation.organization
  accepted : acceptanceRefusal text invitation provisioning = none

/-- What a transaction knows, and the lock that tells it so. -/
def Holds (text : TextCase) (hash : String → String) (tables : Tables)
    (memberLocks organizationLocks : Locks Nat) (index : Nat) : Phase → Prop
  | .authorised request => tables.Opened request.organization
  | .waitingMember request _ => tables.Opened request.organization
  | .changing request _ target =>
      tables.Opened request.organization ∧ memberLocks target.id = some index ∧
        target ∈ tables.memberships ∧ target.organization = request.organization ∧
        target.id = request.membership
  | .delivering delivery => organizationLocks delivery.organization = some index
  | .revoking revocation invitation =>
      organizationLocks invitation.organization = some index ∧
        invitation ∈ tables.invitations ∧ invitation.organization = revocation.organization
  | .accepting acceptance invitation provisioning checkedAt =>
      organizationLocks invitation.organization = some index ∧
        Current text hash tables acceptance invitation provisioning checkedAt
  | .joining call =>
      organizationLocks call.invitation.organization = some index ∧
        Current text hash tables call.acceptance call.invitation call.provisioning
          call.checkedAt ∧
        (call.provisioning.isSome → call.membership = none)
  | _ => True

variable {text : TextCase} {hash : String → String} {tables after : Tables}
  {memberLocks organizationLocks : Locks Nat} {index other : Nat} {phase : Phase}

/-- What a lock shows stays true while others commit. -/
theorem Current.frame {heldMember heldOrganization : Nat → Prop} {acceptance : Acceptance}
    {invitation : Invitation} {provisioning : Option Provisioning} {checkedAt : Nat}
    (current : Current text hash tables acceptance invitation provisioning checkedAt)
    (frame : Frame heldMember heldOrganization tables after) (admitted : tables.Admitted)
    (held : heldOrganization invitation.organization) :
    Current text hash after acceptance invitation provisioning checkedAt where
  stored := frame.invitations invitation current.stored held
  usable := current.usable
  unchanged := by
    rw [frame.provisioning _ (admitted.referenced.inviting _ current.stored) held]
    exact current.unchanged
  accepted := current.accepted

theorem Holds.frame {heldMember heldOrganization : Nat → Prop}
    (holds : Holds text hash tables memberLocks organizationLocks index phase)
    (frame : Frame heldMember heldOrganization tables after) (admitted : tables.Admitted)
    (members : ∀ row, memberLocks row = some index → heldMember row)
    (organizations : ∀ row, organizationLocks row = some index → heldOrganization row) :
    Holds text hash after memberLocks organizationLocks index phase := by
  cases phase with
  | idle => trivial
  | authorised request => exact frame.opened _ holds
  | waitingMember request role => exact frame.opened _ holds
  | changing request role target =>
      obtain ⟨opened, locked, stored, inside⟩ := holds
      exact ⟨frame.opened _ opened, locked, frame.members _ stored (members _ locked), inside⟩
  | deleting user => trivial
  | waitingOrganization task => trivial
  | delivering delivery => exact holds
  | revoking revocation invitation =>
      obtain ⟨locked, stored, inside⟩ := holds
      exact ⟨locked, frame.invitations _ stored (organizations _ locked), inside⟩
  | accepting acceptance invitation provisioning checkedAt =>
      obtain ⟨locked, current⟩ := holds
      exact ⟨locked, current.frame frame admitted (organizations _ locked)⟩
  | joining call =>
      obtain ⟨locked, current, noMembership⟩ := holds
      exact ⟨locked, current.frame frame admitted (organizations _ locked), noMembership⟩

/-- What a transaction knows depends on the locks that it holds. -/
theorem Holds.locks {memberLocks' organizationLocks' : Locks Nat}
    (holds : Holds text hash tables memberLocks organizationLocks index phase)
    (members : ∀ row, memberLocks row = some index → memberLocks' row = some index)
    (organizations : ∀ row, organizationLocks row = some index →
      organizationLocks' row = some index) :
    Holds text hash tables memberLocks' organizationLocks' index phase := by
  cases phase with
  | idle => trivial
  | authorised request => exact holds
  | waitingMember request role => exact holds
  | changing request role target =>
      obtain ⟨opened, locked, stored, inside⟩ := holds
      exact ⟨opened, members _ locked, stored, inside⟩
  | deleting user => trivial
  | waitingOrganization task => trivial
  | delivering delivery => exact organizations _ holds
  | revoking revocation invitation => exact ⟨organizations _ holds.1, holds.2⟩
  | accepting acceptance invitation provisioning checkedAt =>
      exact ⟨organizations _ holds.1, holds.2⟩
  | joining call => exact ⟨organizations _ holds.1, holds.2⟩

/-! ### Phases -/

/-- What a look at the tables shows when the workspace has been locked. -/
theorem holds_enter {task : Task} {now : Nat}
    (entered : tables.enter text hash now task = some phase) :
    Holds text hash tables memberLocks
      (organizationLocks.acquire index (· = task.organization)) index phase := by
  cases task with
  | deliver delivery =>
      obtain rfl := Option.some.inj entered
      exact Locks.acquire_of_mem rfl
  | revoke revocation =>
      simp only [Tables.enter, Option.bind_eq_bind, Option.bind_eq_some_iff, Option.guard_eq_some',
        Option.pure_def, Option.some.injEq] at entered
      obtain ⟨invitation, found, -, -, rfl⟩ := entered
      have inside := List.find?_some found
      rw [decide_eq_true_eq] at inside
      refine ⟨?_, List.mem_of_find?_eq_some found, inside.2⟩
      exact Locks.acquire_of_mem inside.2
  | accept organization acceptance =>
      simp only [Tables.enter, Option.bind_eq_bind, Option.bind_eq_some_iff, Option.guard_eq_some',
        Option.pure_def, Option.some.injEq] at entered
      obtain ⟨invitation, found, -, accepted, rfl⟩ := entered
      have usable := List.find?_some found
      rw [decide_eq_true_eq] at usable
      obtain ⟨usable, rfl⟩ := usable
      exact ⟨Locks.acquire_of_mem rfl, List.mem_of_find?_eq_some found, usable, rfl, accepted⟩

/-- Behind the provisional membership of the creator there is no other. -/
theorem existingMembership_eq_none {provisioning : Provisioning} {organization user : Nat}
    (awaiting : tables.Awaiting) (isProvisioning : provisioning ∈ tables.provisioning)
    (inside : provisioning.organization = organization) :
    existingMembership (some provisioning) organization user tables = none := by
  unfold existingMembership
  apply List.find?_eq_none.mpr
  intro row remains isMember
  rw [decide_eq_true_eq] at isMember
  obtain ⟨stored, notCreator⟩ := mem_withoutCreator.mp remains
  have same : row.organization = provisioning.organization := isMember.1.trans inside.symm
  obtain ⟨isOwner, isCreator⟩ := awaiting provisioning isProvisioning row stored same
  exact notCreator ⟨provisioning, rfl, same, isCreator, isOwner⟩

theorem holds_join {acceptance : Acceptance} {invitation : Invitation}
    {provisioning : Option Provisioning} {checkedAt : Nat} {call : Joining}
    (awaiting : tables.Awaiting)
    (holds : Holds text hash tables memberLocks organizationLocks index
      (.accepting acceptance invitation provisioning checkedAt))
    (joined : tables.join text acceptance invitation provisioning checkedAt = some call) :
    Holds text hash tables memberLocks organizationLocks index (.joining call) := by
  simp only [Tables.join, Option.bind_eq_bind, Option.bind_eq_some_iff, Option.pure_def,
    Option.some.injEq] at joined
  obtain ⟨user, -, rfl⟩ := joined
  obtain ⟨locked, current⟩ := holds
  refine ⟨locked, current, fun isSome => ?_⟩
  obtain ⟨pending, isPending⟩ := Option.isSome_iff_exists.mp isSome
  dsimp only at isPending ⊢
  subst isPending
  have found := current.unchanged.symm
  have inside := List.find?_some found
  rw [decide_eq_true_eq] at inside
  exact existingMembership_eq_none awaiting (List.mem_of_find?_eq_some found) inside

/-! ### Workspaces that await their owner -/

theorem awaiting_apply {request : MemberRequest} {target : Membership} (admitted : tables.Admitted)
    (awaiting : tables.Awaiting) (opened : tables.Opened request.organization)
    (stored : target ∈ tables.memberships) (inside : target.organization = request.organization) :
    (request.apply target tables).Awaiting := by
  intro pending isPending row member same
  apply awaiting pending isPending row _ same
  apply mem_of_mem_write admitted.keyed.memberships stored member
  rw [inside, same]
  exact opened.2 pending isPending

theorem awaiting_deleteAccount {user : Nat} (awaiting : tables.Awaiting) :
    (deleteAccount user tables).Awaiting :=
  fun pending isPending row member same =>
    awaiting pending isPending row (List.mem_of_mem_filter member) same

/-- The rows behind an acceptance are rows before it, or the new membership. -/
theorem mem_memberships {call : Joining} {row : Membership} {memberships : List Membership}
    (noMembership : call.provisioning.isSome → call.membership = none)
    (member : row ∈ call.memberships memberships) :
    row ∈ withoutCreator call.provisioning memberships ∨ row = call.created := by
  unfold Joining.memberships at member
  cases found : call.membership with
  | none =>
      rw [found] at member
      rcases List.mem_append.mp member with old | new
      · exact Or.inl old
      · exact Or.inr (List.mem_singleton.mp new)
  | some existing =>
      have closed : ¬ call.provisioning.isSome := by
        intro isSome
        rw [noMembership isSome] at found
        cases found
      rw [found] at member
      dsimp only at member
      rw [if_neg fun promotes => closed promotes.1] at member
      exact Or.inl member

theorem provisioning_of_current {call : Joining}
    (current : Current text hash tables call.acceptance call.invitation call.provisioning
      call.checkedAt) {pending : Provisioning} (isPending : call.provisioning = some pending) :
    pending ∈ tables.provisioning ∧ pending.organization = call.invitation.organization := by
  have found := current.unchanged.symm.trans isPending
  have inside := List.find?_some found
  rw [decide_eq_true_eq] at inside
  exact ⟨List.mem_of_find?_eq_some found, inside⟩

theorem awaiting_join {call : Joining} {now : Nat} (awaiting : tables.Awaiting)
    (current : Current text hash tables call.acceptance call.invitation call.provisioning
      call.checkedAt)
    (noMembership : call.provisioning.isSome → call.membership = none) :
    (call.apply now tables).Awaiting := by
  intro pending isPending row member same
  obtain ⟨stays, notDeleted⟩ := List.mem_filter.mp isPending
  have isOther : pending.organization ≠ call.invitation.organization := by
    intro isOwn
    cases found : call.provisioning with
    | none =>
        have missing := current.unchanged.symm.trans found
        have differs := List.find?_eq_none.mp missing pending stays
        exact differs (decide_eq_true isOwn)
    | some deleted =>
        have inside := (provisioning_of_current current found).2
        simp [found, inside, isOwn] at notDeleted
  rcases mem_memberships noMembership member with old | rfl
  · exact awaiting pending stays row (mem_withoutCreator.mp old).1 same
  · exact absurd same.symm isOther

theorem awaiting_deliver {delivery : Delivery} (awaiting : tables.Awaiting)
    (delivered : deliver text hash delivery tables = .ok after) : after.Awaiting := by
  obtain rfl := deliver_ok delivered
  exact awaiting

theorem awaiting_revoke {revocation : Revocation} {invitation : Invitation} {now : Nat}
    (awaiting : tables.Awaiting) : (revocation.apply invitation now tables).Awaiting := by
  unfold Revocation.apply
  split_ifs with isRevoked
  · exact awaiting
  · exact awaiting

/-- A row of a new workspace is the membership of its creator. -/
theorem awaiting_create {creation : Creation} {now : Nat} (admitted : tables.Admitted)
    (isAfter : after.Admitted) (awaiting : tables.Awaiting)
    (created : Created text hash creation now tables after) : after.Awaiting := by
  have fresh := created.fresh isAfter
  have oldRow : ∀ row ∈ tables.memberships, row.organization ≠ creation.organization := by
    intro row stored same
    exact fresh (same ▸ admitted.referenced.organization row stored)
  have oldPending : ∀ row ∈ tables.provisioning, row.organization ≠ creation.organization := by
    intro row stored same
    exact fresh (same ▸ admitted.referenced.provisioned row stored)
  cases created with
  | forCreator =>
      intro pending isPending row member same
      rcases List.mem_append.mp member with old | new
      · exact awaiting pending isPending row old same
      · rw [List.mem_singleton.mp new] at same
        exact absurd same.symm (oldPending pending isPending)
  | forOwner delivered =>
      obtain rfl := deliver_ok delivered
      intro pending isPending row member same
      rcases List.mem_append.mp isPending with isOld | isNew
      · rcases List.mem_append.mp member with old | new
        · exact awaiting pending isOld row old same
        · rw [List.mem_singleton.mp new] at same
          exact absurd same.symm (oldPending pending isOld)
      · rw [List.mem_singleton.mp isNew] at same ⊢
        rcases List.mem_append.mp member with old | new
        · exact absurd same (oldRow row old)
        · rw [List.mem_singleton.mp new]
          exact ⟨rfl, rfl⟩

end BubllioCrm.Access
