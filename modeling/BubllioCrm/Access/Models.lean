import BubllioCrm.Foundations.Table

/-!
Owns the rows of users, shared workspaces, memberships, owner provisioning,
invitations and access events, the constraints that the database checks when a
transaction commits, and the capabilities of the roles.

Personal workspaces, profiles, settings and queued mail are not owned here, and
the columns that no request reads are left out. Times are seconds of a clock.
-/

namespace BubllioCrm.Access

open BubllioCrm.Foundations

inductive Role where
  | owner
  | admin
  | member
  | viewer
deriving DecidableEq

inductive Capability where
  | viewCrm
  | manageCrm
  | manageMembers
  | deleteOrganization
  | manageSettings
deriving DecidableEq

/-- `ROLE_CAPABILITIES`. -/
def Role.capabilities : Role → List Capability
  | .owner => [.viewCrm, .manageCrm, .manageMembers, .deleteOrganization, .manageSettings]
  | .admin => [.viewCrm, .manageCrm, .manageMembers, .manageSettings]
  | .member => [.viewCrm, .manageCrm]
  | .viewer => [.viewCrm]

structure User where
  id : Nat
  username : String
  email : String
  isSuperuser : Bool := false
deriving DecidableEq

structure Membership where
  id : Nat
  organization : Nat
  user : Nat
  role : Role
deriving DecidableEq

/-- `OrganizationProvisioning`: the workspace awaits the owner with this email. -/
structure Provisioning where
  organization : Nat
  creator : Nat
  ownerEmail : String
deriving DecidableEq

structure Invitation where
  id : Nat
  organization : Nat
  email : String
  role : Role
  tokenHash : String
  expiresAt : Nat
  acceptedAt : Option Nat := none
  revokedAt : Option Nat := none
deriving DecidableEq

/-- Neither accepted nor revoked. -/
def Invitation.Active (invitation : Invitation) : Prop :=
  invitation.acceptedAt = none ∧ invitation.revokedAt = none

instance : DecidablePred Invitation.Active :=
  fun invitation => inferInstanceAs (Decidable (invitation.acceptedAt = none ∧ _))

inductive AccessAction where
  | createWorkspace
  | acceptOwnerInvitation
  | inviteMember
  | resendMemberInvitation
  | revokeMemberInvitation
  | acceptMemberInvitation
  | changeMemberRole
  | removeMember
deriving DecidableEq

inductive Details where
  | empty
  | invitation (email : String) (role : Role) (invitationId : Nat)
  | acceptance (email : String) (role : Role)
  | roles (previousRole newRole : Role)
  | removal (role : Role)
deriving DecidableEq

/-- `WorkspaceAccessEvent`. -/
structure AccessEvent where
  action : AccessAction
  actor : Option Nat
  targetUser : Option Nat := none
  organization : Nat
  details : Details := .empty
deriving DecidableEq

/-- How the code and the database change the case of text. -/
structure TextCase where
  /-- `str.lower`. -/
  lower : String → String
  /-- `UPPER` of the database, by which `iexact` compares. -/
  upper : String → String
  /-- `str.casefold`. -/
  casefold : String → String

/-- The lookup `iexact` of the database. -/
def TextCase.iexact (text : TextCase) (first second : String) : Prop :=
  text.upper first = text.upper second

instance (text : TextCase) (first second : String) : Decidable (text.iexact first second) :=
  inferInstanceAs (Decidable (text.upper first = text.upper second))

structure Tables where
  users : List User := []
  organizations : List Nat := []
  memberships : List Membership := []
  provisioning : List Provisioning := []
  invitations : List Invitation := []
  events : List AccessEvent := []

/-! ### Constraints -/

/-- Two rows that `unique_owner_per_organization` keeps apart. -/
def Membership.BothOwn (first second : Membership) : Prop :=
  first.organization = second.organization ∧ first.role = .owner ∧ second.role = .owner

instance (first second : Membership) : Decidable (first.BothOwn second) :=
  inferInstanceAs (Decidable (first.organization = second.organization ∧ _))

/-- Two rows that `unique_pending_invitation_per_email` keeps apart. -/
def Invitation.BothPend (first second : Invitation) : Prop :=
  first.organization = second.organization ∧ first.email = second.email ∧
    first.Active ∧ second.Active

instance (first second : Invitation) : Decidable (first.BothPend second) :=
  inferInstanceAs (Decidable (first.organization = second.organization ∧ _))

/-- The keys of the tables. -/
structure Tables.Keyed (tables : Tables) : Prop where
  users : (tables.users.map User.id).Nodup
  usernames : (tables.users.map User.username).Nodup
  organizations : tables.organizations.Nodup
  memberships : (tables.memberships.map Membership.id).Nodup
  invitations : (tables.invitations.map Invitation.id).Nodup

/-- The unique constraints of the tables. -/
structure Tables.Unique (tables : Tables) : Prop where
  membership : (tables.memberships.map fun row => (row.organization, row.user)).Nodup
  owner : tables.memberships.Pairwise fun first second => ¬ first.BothOwn second
  provisioning : (tables.provisioning.map Provisioning.organization).Nodup
  tokenHash : (tables.invitations.map Invitation.tokenHash).Nodup
  pending : tables.invitations.Pairwise fun first second => ¬ first.BothPend second

/-- The foreign keys of the tables. -/
structure Tables.Referenced (tables : Tables) : Prop where
  user : ∀ row ∈ tables.memberships, row.user ∈ tables.users.map User.id
  organization : ∀ row ∈ tables.memberships, row.organization ∈ tables.organizations
  creator : ∀ row ∈ tables.provisioning, row.creator ∈ tables.users.map User.id
  provisioned : ∀ row ∈ tables.provisioning, row.organization ∈ tables.organizations
  inviting : ∀ row ∈ tables.invitations, row.organization ∈ tables.organizations
  actor : ∀ row ∈ tables.events, ∀ user ∈ row.actor, user ∈ tables.users.map User.id
  targetUser : ∀ row ∈ tables.events, ∀ user ∈ row.targetUser, user ∈ tables.users.map User.id

/-- What the database lets a transaction commit. -/
structure Tables.Admitted (tables : Tables) : Prop where
  keyed : tables.Keyed
  unique : tables.Unique
  referenced : tables.Referenced

instance : DecidablePred Tables.Keyed := fun tables =>
  decidable_of_iff
    ((tables.users.map User.id).Nodup ∧ (tables.users.map User.username).Nodup ∧
      tables.organizations.Nodup ∧ (tables.memberships.map Membership.id).Nodup ∧
      (tables.invitations.map Invitation.id).Nodup)
    ⟨fun ⟨users, usernames, organizations, memberships, invitations⟩ =>
      ⟨users, usernames, organizations, memberships, invitations⟩,
    fun keyed => ⟨keyed.users, keyed.usernames, keyed.organizations, keyed.memberships,
      keyed.invitations⟩⟩

instance : DecidablePred Tables.Unique := fun tables =>
  decidable_of_iff
    ((tables.memberships.map fun row => (row.organization, row.user)).Nodup ∧
      (tables.memberships.Pairwise fun first second => ¬ first.BothOwn second) ∧
      (tables.provisioning.map Provisioning.organization).Nodup ∧
      (tables.invitations.map Invitation.tokenHash).Nodup ∧
      tables.invitations.Pairwise fun first second => ¬ first.BothPend second)
    ⟨fun ⟨membership, owner, provisioning, tokenHash, pending⟩ =>
      ⟨membership, owner, provisioning, tokenHash, pending⟩,
    fun unique => ⟨unique.membership, unique.owner, unique.provisioning, unique.tokenHash,
      unique.pending⟩⟩

instance : DecidablePred Tables.Referenced := fun tables =>
  decidable_of_iff
    ((∀ row ∈ tables.memberships, row.user ∈ tables.users.map User.id) ∧
      (∀ row ∈ tables.memberships, row.organization ∈ tables.organizations) ∧
      (∀ row ∈ tables.provisioning, row.creator ∈ tables.users.map User.id) ∧
      (∀ row ∈ tables.provisioning, row.organization ∈ tables.organizations) ∧
      (∀ row ∈ tables.invitations, row.organization ∈ tables.organizations) ∧
      (∀ row ∈ tables.events, ∀ user ∈ row.actor, user ∈ tables.users.map User.id) ∧
      ∀ row ∈ tables.events, ∀ user ∈ row.targetUser, user ∈ tables.users.map User.id)
    ⟨fun ⟨user, organization, creator, provisioned, inviting, actor, targetUser⟩ =>
      ⟨user, organization, creator, provisioned, inviting, actor, targetUser⟩,
    fun referenced => ⟨referenced.user, referenced.organization, referenced.creator,
      referenced.provisioned, referenced.inviting, referenced.actor, referenced.targetUser⟩⟩

instance : DecidablePred Tables.Admitted := fun tables =>
  decidable_of_iff (tables.Keyed ∧ tables.Unique ∧ tables.Referenced)
    ⟨fun ⟨keyed, unique, referenced⟩ => ⟨keyed, unique, referenced⟩,
      fun admitted => ⟨admitted.keyed, admitted.unique, admitted.referenced⟩⟩

/-! ### Permissions -/

/-- A response that refuses a request: its status, and the key and text of its body. -/
structure Refusal where
  status : Nat
  key : String
  text : String
deriving DecidableEq

/-- The workspace has an owner who has accepted it. -/
def Tables.Opened (tables : Tables) (organization : Nat) : Prop :=
  organization ∈ tables.organizations ∧
    ∀ row ∈ tables.provisioning, row.organization ≠ organization

instance (tables : Tables) (organization : Nat) : Decidable (tables.Opened organization) :=
  inferInstanceAs (Decidable (_ ∧ _))

/-- `get_organization_for_user` finds the workspace. -/
def Tables.Permits (tables : Tables) (user organization : Nat) (capability : Capability) : Prop :=
  tables.Opened organization ∧ ∃ row ∈ tables.memberships,
    row.user = user ∧ row.organization = organization ∧ capability ∈ row.role.capabilities

instance (tables : Tables) (user organization : Nat) (capability : Capability) :
    Decidable (tables.Permits user organization capability) :=
  inferInstanceAs (Decidable (_ ∧ _))

/-- `get_membership`. -/
def Tables.membershipOf (tables : Tables) (user organization : Nat) : Option Membership :=
  tables.memberships.find? fun row => row.user = user ∧ row.organization = organization

/-- Somebody with the email belongs to the workspace. -/
def Tables.HasMember (text : TextCase) (tables : Tables) (organization : Nat) (email : String) :
    Prop :=
  ∃ row ∈ tables.memberships, row.organization = organization ∧
    ∃ user ∈ tables.users, user.id = row.user ∧ text.iexact user.email email

instance (text : TextCase) (tables : Tables) (organization : Nat) (email : String) :
    Decidable (tables.HasMember text organization email) :=
  inferInstanceAs (Decidable (∃ row ∈ tables.memberships, _))

end BubllioCrm.Access
