import BubllioCrm.Access.Models
import Mathlib.Tactic.SplitIfs

/-!
Owns the role changes and removals of `OrganizationMembershipDetailAPIView`: the
refusals of a request that holds its target row, and what it writes.

The companies that a removal unassigns are not owned here.
-/

namespace BubllioCrm.Access

open BubllioCrm.Foundations

inductive Change where
  | setRole (role : Role)
  | remove
deriving DecidableEq

/-- A PATCH request with a valid role or a DELETE request. -/
structure MemberRequest where
  organization : Nat
  requester : Nat
  membership : Nat
  change : Change
deriving DecidableEq

/-- Why `patch` and `delete` refuse a change of the target by a requester whose
membership has been read with the role. -/
def Change.refusal (role target : Role) : Change → Option Refusal
  | .setRole .owner =>
      if role ≠ .owner then some ⟨403, "role", "Only the owner can transfer ownership."⟩ else none
  | .setRole requested =>
      if target = .owner then
        some ⟨400, "role", "Transfer ownership before changing the current owner."⟩
      else if role ≠ .owner ∧ (target = .admin ∨ requested = .admin) then
        some ⟨403, "role", "Administrators can manage only members and viewers."⟩
      else none
  | .remove =>
      if target = .owner then
        some ⟨400, "detail", "Transfer ownership before removing the owner."⟩
      else if role ≠ .owner ∧ target = .admin then
        some ⟨403, "detail", "Administrators cannot remove other administrators."⟩
      else none

/-- `target.save(update_fields=("role", "updated_at"))`. -/
def saveRole (target : Nat) (role : Role) (memberships : List Membership) : List Membership :=
  updateWhere (·.id = target) (fun row => { row with role := role }) memberships

/-- The update of a transfer on the current owners. -/
def demoteOwners (organization : Nat) (memberships : List Membership) : List Membership :=
  updateWhere (fun row => row.organization = organization ∧ row.role = .owner)
    (fun row => { row with role := .admin }) memberships

/-- The memberships that a change leaves. -/
def Change.write (target : Membership) (memberships : List Membership) : Change → List Membership
  | .setRole .owner =>
      if target.role = .owner then memberships
      else saveRole target.id .owner (demoteOwners target.organization memberships)
  | .setRole requested => saveRole target.id requested memberships
  | .remove => memberships.filter (·.id ≠ target.id)

/-- The events that a change records. -/
def Change.events (actor : Nat) (target : Membership) : Change → List AccessEvent
  | .setRole requested =>
      if target.role = requested then []
      else [{
        action := .changeMemberRole
        actor := some actor
        targetUser := some target.user
        organization := target.organization
        details := .roles target.role requested }]
  | .remove =>
      [{
        action := .removeMember
        actor := some actor
        targetUser := some target.user
        organization := target.organization
        details := .removal target.role }]

/-- The tables after a change that is not refused. -/
def MemberRequest.apply (request : MemberRequest) (target : Membership) (tables : Tables) :
    Tables :=
  { tables with
    memberships := request.change.write target tables.memberships
    events := tables.events ++ request.change.events request.requester target }

/-- What a change updates or deletes besides its target: the owners that a
transfer demotes. -/
def Change.Touches (target row : Membership) (change : Change) : Prop :=
  row.id = target.id ∨
    change = .setRole .owner ∧ target.role ≠ .owner ∧
      row.organization = target.organization ∧ row.role = .owner

instance (target row : Membership) (change : Change) : Decidable (change.Touches target row) :=
  inferInstanceAs (Decidable (_ ∨ _))

/-! ### What a change does -/

variable {target row before after : Membership} {memberships : List Membership} {change : Change}
  {role : Role} {organization : Nat}

/-- A row after a change is a row before it. It has another role at most, and
only where the change touches it. -/
structure Rewritten (change : Change) (target before after : Membership) : Prop where
  id : after.id = before.id
  organization : after.organization = before.organization
  user : after.user = before.user
  untouched : ¬ change.Touches target before → after = before

theorem Rewritten.refl : Rewritten change target row row :=
  ⟨rfl, rfl, rfl, fun _ => rfl⟩

theorem mem_saveRole (member : after ∈ saveRole target.id role memberships) :
    ∃ before ∈ memberships, Rewritten (.setRole role) target before after := by
  obtain ⟨before, stored, ⟨isTarget, rfl⟩ | ⟨-, rfl⟩⟩ := mem_updateWhere.mp member
  · exact ⟨before, stored, rfl, rfl, rfl, fun untouched => absurd (Or.inl isTarget) untouched⟩
  · exact ⟨_, stored, .refl⟩

theorem mem_demoteOwners (isOther : target.role ≠ .owner)
    (member : after ∈ demoteOwners target.organization memberships) :
    ∃ before ∈ memberships, Rewritten (.setRole .owner) target before after := by
  obtain ⟨before, stored, ⟨owns, rfl⟩ | ⟨-, rfl⟩⟩ := mem_updateWhere.mp member
  · exact ⟨before, stored, rfl, rfl, rfl,
      fun untouched => absurd (Or.inr ⟨rfl, isOther, owns⟩) untouched⟩
  · exact ⟨_, stored, .refl⟩

/-- A change adds no membership. -/
theorem mem_write (member : after ∈ change.write target memberships) :
    ∃ before ∈ memberships, Rewritten change target before after := by
  unfold Change.write at member
  split at member
  · split_ifs at member with isOwner
    · exact ⟨after, member, .refl⟩
    · obtain ⟨between, demoted, saved⟩ := mem_saveRole member
      obtain ⟨before, stored, first⟩ := mem_demoteOwners isOwner demoted
      refine ⟨before, stored, saved.id.trans first.id,
        saved.organization.trans first.organization, saved.user.trans first.user, ?_⟩
      intro untouched
      have same : between = before := first.untouched untouched
      subst same
      exact saved.untouched untouched
  · exact mem_saveRole member
  · exact ⟨after, List.mem_of_mem_filter member, .refl⟩

theorem saved_mem_saveRole (isTarget : target ∈ memberships) :
    { target with role := role } ∈ saveRole target.id role memberships :=
  mem_updateWhere.mpr ⟨target, isTarget, Or.inl ⟨rfl, rfl⟩⟩

theorem mem_saveRole_of_ne (member : row ∈ memberships) (isOther : row.id ≠ target.id) :
    row ∈ saveRole target.id role memberships :=
  mem_updateWhere_of_not_selected member isOther

/-- A row that a change does not touch is there afterwards. -/
theorem mem_write_of_untouched (member : row ∈ memberships)
    (untouched : ¬ change.Touches target row) : row ∈ change.write target memberships := by
  have isOther : row.id ≠ target.id := fun same => untouched (Or.inl same)
  unfold Change.write
  split
  · split_ifs with isOwner
    · exact member
    · apply mem_saveRole_of_ne _ isOther
      apply mem_updateWhere_of_not_selected member
      exact fun owns => untouched (Or.inr ⟨rfl, isOwner, owns⟩)
  · exact mem_saveRole_of_ne member isOther
  · rw [List.mem_filter, decide_eq_true_eq]
    exact ⟨member, isOther⟩

/-- Memberships of other workspaces stay as they are. -/
theorem mem_of_mem_write (ids : (memberships.map Membership.id).Nodup)
    (isTarget : target ∈ memberships) (member : after ∈ change.write target memberships)
    (elsewhere : after.organization ≠ target.organization) : after ∈ memberships := by
  obtain ⟨before, stored, rewritten⟩ := mem_write member
  rw [rewritten.organization] at elsewhere
  have untouched : ¬ change.Touches target before := by
    rintro (same | ⟨-, -, same, -⟩)
    · have isBefore : before = target := List.inj_on_of_nodup_map ids stored isTarget same
      exact elsewhere (congrArg Membership.organization isBefore)
    · exact elsewhere same
  rw [rewritten.untouched untouched]
  exact stored

/-- A change that is not refused leaves an owner where there was one. -/
theorem owner_write (ids : (memberships.map Membership.id).Nodup) (isTarget : target ∈ memberships)
    (accepted : change.refusal role target.role = none)
    (owned : ∃ row ∈ memberships, row.organization = organization ∧ row.role = .owner) :
    ∃ row ∈ change.write target memberships,
      row.organization = organization ∧ row.role = .owner := by
  obtain ⟨row, member, inside, isOwner⟩ := owned
  by_cases untouched : change.Touches target row
  · rcases untouched with same | ⟨rfl, isOther, within, -⟩
    · -- Only a transfer may have an owner as its target, and it keeps it.
      obtain rfl : row = target := List.inj_on_of_nodup_map ids member isTarget same
      cases change with
      | setRole requested =>
          cases requested with
          | owner =>
              refine ⟨row, ?_, inside, isOwner⟩
              simp only [Change.write, if_pos isOwner]
              exact member
          | admin => simp [Change.refusal, isOwner] at accepted
          | member => simp [Change.refusal, isOwner] at accepted
          | viewer => simp [Change.refusal, isOwner] at accepted
      | remove => simp [Change.refusal, isOwner] at accepted
    · refine ⟨{ target with role := .owner }, ?_, within.symm.trans inside, rfl⟩
      simp only [Change.write, if_neg isOther]
      apply saved_mem_saveRole
      apply mem_updateWhere_of_not_selected isTarget
      exact fun owns => isOther owns.2
  · exact ⟨row, mem_write_of_untouched member untouched, inside, isOwner⟩

end BubllioCrm.Access
