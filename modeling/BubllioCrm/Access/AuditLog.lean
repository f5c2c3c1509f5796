import BubllioCrm.Access.Ownership
import Mathlib.Data.List.ProdSigma

/-!
Owns the history of the workspaces as an account of their members: the replay
of the access events, and the runs in which it gives every member the role that
is stored.

Does not own the order in which the history is displayed.
-/

namespace BubllioCrm.Access

open BubllioCrm.Foundations

/-- The role of a user in a workspace: first the workspace, then the user. -/
abbrev Roles := Nat → Nat → Option Role

namespace Roles

/-- A user gets the role, or leaves where there is none. A user whose account is
deleted is not known any more. -/
def grant (organization : Nat) (user : Option Nat) (role : Option Role) (roles : Roles) : Roles :=
  fun workspace member =>
    if workspace = organization ∧ user = some member then role else roles workspace member

/-- The owners of a workspace get another role, or leave. -/
def replaceOwners (organization : Nat) (role : Option Role) (roles : Roles) : Roles :=
  fun workspace member =>
    if workspace = organization ∧ roles workspace member = some .owner then role
    else roles workspace member

end Roles

/-- What an event says of the members. -/
def AccessEvent.replay (event : AccessEvent) (roles : Roles) : Roles :=
  match event.action, event.details with
  | .createWorkspace, _ => roles.grant event.organization event.actor (some .owner)
  | .acceptOwnerInvitation, _ =>
      (roles.replaceOwners event.organization none).grant event.organization event.targetUser
        (some .owner)
  | .acceptMemberInvitation, .acceptance _ role =>
      roles.grant event.organization event.targetUser (some role)
  | .changeMemberRole, .roles _ .owner =>
      (roles.replaceOwners event.organization (some .admin)).grant event.organization
        event.targetUser (some .owner)
  | .changeMemberRole, .roles _ role =>
      roles.grant event.organization event.targetUser (some role)
  | .removeMember, _ => roles.grant event.organization event.targetUser none
  | _, _ => roles

/-- The members that a history tells. -/
def replayAll (events : List AccessEvent) : Roles :=
  events.foldl (fun roles event => event.replay roles) fun _ _ => none

/-- The role that is stored. -/
def Tables.roleOf (tables : Tables) : Roles := fun organization user =>
  (tables.membershipOf user organization).map Membership.role

/-- The event after the account of a user is deleted. -/
def AccessEvent.clear (user : Nat) (event : AccessEvent) : AccessEvent :=
  { event with
    actor := clearUser user event.actor
    targetUser := clearUser user event.targetUser }

section Stored

variable {memberships : List Membership} {row target : Membership} {organization user : Nat}
  {role : Role}

/-- No user has two memberships of one workspace. -/
def Single (memberships : List Membership) : Prop :=
  (memberships.map fun row => (row.organization, row.user)).Nodup

theorem Single.eq (single : Single memberships) {other : Membership} (stored : row ∈ memberships)
    (otherStored : other ∈ memberships) (sameOrganization : row.organization = other.organization)
    (sameUser : row.user = other.user) : row = other :=
  List.inj_on_of_nodup_map single stored otherStored (Prod.ext sameOrganization sameUser)

theorem find_of_mem (single : Single memberships) (stored : row ∈ memberships) :
    memberships.find? (fun other => other.user = row.user ∧
      other.organization = row.organization) = some row := by
  cases found : memberships.find? (fun other => other.user = row.user ∧
      other.organization = row.organization) with
  | none =>
      have absent := List.find?_eq_none.mp found row stored
      simp at absent
  | some other =>
      have ⟨otherStored, same⟩ := mem_of_find found
      rw [single.eq otherStored stored same.2 same.1]

theorem Single.absent (single : Single (memberships ++ [row])) :
    ∀ other ∈ memberships, other.organization = row.organization → other.user ≠ row.user := by
  intro other stored inside isUser
  unfold Single at single
  rw [List.map_append, List.map_singleton, List.nodup_append] at single
  exact single.2.2 _ (List.mem_map_of_mem stored) _ (List.mem_singleton_self _)
    (Prod.ext inside isUser)

end Stored

/-! ### What the writes say of themselves -/

variable {text : TextCase} {hash : String → String} {tables after : Tables} {system : System}
  {now index : Nat} {action : Action}

/-- The history gives every member the role that is stored. -/
def Tables.Told (tables : Tables) : Prop :=
  ∀ organization user,
    tables.roleOf organization user = replayAll tables.events organization user

theorem Tables.Admitted.single (admitted : tables.Admitted) : Single tables.memberships :=
  admitted.unique.membership

/-- What a delivery that is under way will record. -/
def Phase.auditAction? : Phase → Option AccessAction
  | .waitingOrganization (.deliver delivery) => some delivery.auditAction
  | .delivering delivery => some delivery.auditAction
  | _ => none

/-- A delivery records an invitation, or that it was sent again. -/
def Phase.Audits (phase : Phase) : Prop :=
  ∀ recorded ∈ phase.auditAction?,
    recorded = .inviteMember ∨ recorded = .resendMemberInvitation

def System.Audits (system : System) : Prop :=
  ∀ index, (system.requests index).Audits

end BubllioCrm.Access
