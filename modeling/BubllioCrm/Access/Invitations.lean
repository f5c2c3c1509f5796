import BubllioCrm.Access.Memberships

/-!
Owns the transactions on invitations: `deliver_workspace_invitation`, the
revocation of an invitation and `accept_workspace_invitation`, each as what it
refuses and what it writes once the workspace row is locked.

Queued mail, profiles and the tokens of a registration are not owned here.
-/

namespace BubllioCrm.Access

open BubllioCrm.Foundations

/-! ### Deliveries -/

/-- A call of `deliver_workspace_invitation` that has taken the time. -/
structure Delivery where
  organization : Nat
  email : String
  role : Role
  actor : Nat
  actorRole : Role
  auditAction : AccessAction
  invitationId : Nat
  token : String
  now : Nat
deriving DecidableEq

inductive DeliveryError where
  | invitationAlreadyMember
  | invitationRolePermission
deriving DecidableEq

/-- `timedelta(days=7)` in seconds. -/
def sevenDays : Nat := 7 * 24 * 60 * 60

/-- An active invitation that the new one replaces. -/
def Delivery.Replaces (text : TextCase) (delivery : Delivery) (row : Invitation) : Prop :=
  row.organization = delivery.organization ∧ text.iexact row.email delivery.email ∧ row.Active

instance (text : TextCase) (delivery : Delivery) (row : Invitation) :
    Decidable (delivery.Replaces text row) :=
  inferInstanceAs (Decidable (row.organization = delivery.organization ∧ _ ∧ _))

def Delivery.invitation (hash : String → String) (delivery : Delivery) : Invitation where
  id := delivery.invitationId
  organization := delivery.organization
  email := delivery.email
  role := delivery.role
  tokenHash := hash delivery.token
  expiresAt := delivery.now + sevenDays

def Delivery.event (delivery : Delivery) : AccessEvent where
  action := delivery.auditAction
  actor := some delivery.actor
  organization := delivery.organization
  details := .invitation delivery.email delivery.role delivery.invitationId

/-- The transaction of `deliver_workspace_invitation` behind its lock. -/
def deliver (text : TextCase) (hash : String → String) (delivery : Delivery) (tables : Tables) :
    Except DeliveryError Tables :=
  if tables.HasMember text delivery.organization delivery.email then
    .error .invitationAlreadyMember
  else if delivery.actorRole = .admin ∧ ∃ row ∈ tables.invitations,
      delivery.Replaces text row ∧ (row.role = .admin ∨ row.role = .owner) then
    .error .invitationRolePermission
  else .ok { tables with
    invitations :=
      updateWhere (delivery.Replaces text) (fun row => { row with revokedAt := some delivery.now })
        tables.invitations ++ [delivery.invitation hash]
    events := tables.events ++ [delivery.event] }

/-! ### Revocations -/

structure Revocation where
  organization : Nat
  invitation : Nat
  actor : Nat
  actorRole : Role
deriving DecidableEq

/-- `_can_manage_invitation_role`. -/
def canManageInvitationRole (requester role : Role) : Bool :=
  ¬ (requester = .admin ∧ (role = .admin ∨ role = .owner))

/-- Why the view refuses to revoke the invitation that it has locked. -/
def Revocation.refusal (revocation : Revocation) (invitation : Invitation) : Option Refusal :=
  if ¬ canManageInvitationRole revocation.actorRole invitation.role then
    some ⟨403, "detail", "Only an owner can revoke administrator invitations."⟩
  else if invitation.acceptedAt ≠ none then
    some ⟨409, "detail", "Accepted invitations cannot be revoked."⟩
  else none

/-- What a revocation writes. An invitation that is revoked stays as it is. -/
def Revocation.apply (revocation : Revocation) (invitation : Invitation) (now : Nat)
    (tables : Tables) : Tables :=
  if invitation.revokedAt ≠ none then tables
  else { tables with
    invitations :=
      updateWhere (·.id = invitation.id) (fun row => { row with revokedAt := some now })
        tables.invitations
    events := tables.events ++ [{
      action := .revokeMemberInvitation
      actor := some revocation.actor
      organization := revocation.organization
      details := .invitation invitation.email invitation.role invitation.id }] }

/-! ### Acceptances -/

/-- A call of `accept_workspace_invitation`. Without an authenticated user it
registers one with the id and the username. -/
structure Acceptance where
  token : String
  authenticated : Option User := none
  userId : Nat := 0
  username : String := ""
  membershipId : Nat
deriving DecidableEq

/-- The filter by which both reads of the call find the invitation. -/
def Invitation.Usable (hash : String → String) (token : String) (now : Nat)
    (invitation : Invitation) : Prop :=
  invitation.tokenHash = hash token ∧ invitation.Active ∧ now < invitation.expiresAt

instance (hash : String → String) (token : String) (now : Nat) (invitation : Invitation) :
    Decidable (invitation.Usable hash token now) :=
  inferInstanceAs (Decidable (invitation.tokenHash = hash token ∧ _ ∧ _))

/-- Why the call refuses the invitation and the provisioning that it has locked. -/
def acceptanceRefusal (text : TextCase) (invitation : Invitation)
    (provisioning : Option Provisioning) : Option Refusal :=
  if invitation.role = .owner then
    if provisioning.any fun pending =>
        text.casefold pending.ownerEmail = text.casefold invitation.email then
      none
    else some ⟨404, "detail", "This owner invitation is no longer valid."⟩
  else if provisioning.isSome then
    some ⟨409, "detail", "The workspace is awaiting its owner."⟩
  else none

/-- `_invited_user`. -/
def invitedUser (text : TextCase) (acceptance : Acceptance) (invitation : Invitation)
    (tables : Tables) : Except Refusal User :=
  match acceptance.authenticated with
  | some user =>
      if text.lower user.email ≠ invitation.email then
        .error ⟨403, "detail", "Sign in with the invited email address."⟩
      else .ok user
  | none =>
      if ∃ user ∈ tables.users, text.iexact user.email invitation.email then
        .error ⟨409, "detail",
          "An account with this email exists. Sign in before accepting the invitation."⟩
      else .ok {
        id := acceptance.userId
        username := acceptance.username
        email := invitation.email }

/-- The memberships without the provisional one of the creator. -/
def withoutCreator (provisioning : Option Provisioning) (memberships : List Membership) :
    List Membership :=
  match provisioning with
  | none => memberships
  | some pending => memberships.filter fun row =>
      ¬ (row.organization = pending.organization ∧ row.user = pending.creator ∧
        row.role = .owner)

/-- What `get_or_create` finds. -/
def existingMembership (provisioning : Option Provisioning) (organization user : Nat)
    (tables : Tables) : Option Membership :=
  (withoutCreator provisioning tables.memberships).find? fun row =>
    row.organization = organization ∧ row.user = user

/-- A call behind its locks: what it has read, and the time of its last look at
the expiry. -/
structure Joining where
  acceptance : Acceptance
  invitation : Invitation
  provisioning : Option Provisioning
  checkedAt : Nat
  user : User
  membership : Option Membership
deriving DecidableEq

/-- The membership that `get_or_create` inserts. -/
def Joining.created (joining : Joining) : Membership where
  id := joining.acceptance.membershipId
  organization := joining.invitation.organization
  user := joining.user.id
  role := if joining.provisioning.isSome then .owner else joining.invitation.role

/-- The memberships that the call leaves. -/
def Joining.memberships (joining : Joining) (memberships : List Membership) : List Membership :=
  match joining.membership with
  | none => withoutCreator joining.provisioning memberships ++ [joining.created]
  | some existing =>
      if joining.provisioning.isSome ∧ existing.role ≠ .owner then
        saveRole existing.id .owner (withoutCreator joining.provisioning memberships)
      else withoutCreator joining.provisioning memberships

/-- A membership that the call deletes or saves. -/
def Joining.Touches (joining : Joining) (row : Membership) : Prop :=
  (∃ pending ∈ joining.provisioning, row.organization = pending.organization ∧
    row.user = pending.creator ∧ row.role = .owner) ∨
  ∃ existing ∈ joining.membership, joining.provisioning.isSome ∧ row.id = existing.id

instance (joining : Joining) (row : Membership) : Decidable (joining.Touches row) :=
  inferInstanceAs (Decidable ((∃ _ ∈ joining.provisioning, _ ∧ _) ∨ ∃ _ ∈ joining.membership, _))

def Joining.event (joining : Joining) : AccessEvent where
  action :=
    if joining.provisioning.isSome then .acceptOwnerInvitation else .acceptMemberInvitation
  actor := some joining.user.id
  targetUser := some joining.user.id
  organization := joining.invitation.organization
  details :=
    if joining.provisioning.isSome then .empty
    else .acceptance joining.invitation.email (joining.membership.getD joining.created).role

/-- The tables that the call leaves. -/
def Joining.apply (joining : Joining) (now : Nat) (tables : Tables) : Tables :=
  { tables with
    users := if joining.acceptance.authenticated.isNone then tables.users ++ [joining.user]
      else tables.users
    memberships := joining.memberships tables.memberships
    provisioning := tables.provisioning.filter fun row =>
      ¬ joining.provisioning.any (·.organization = row.organization)
    invitations :=
      updateWhere (·.id = joining.invitation.id) (fun row => { row with acceptedAt := some now })
        tables.invitations
    events := tables.events ++ [joining.event] }

end BubllioCrm.Access
