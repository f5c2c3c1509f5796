import BubllioCrm.Access.Invitations

/-!
Owns the creation of a shared workspace, for its creator or for an invited
owner, and the deletion of an account.
-/

namespace BubllioCrm.Access

open BubllioCrm.Foundations

/-- A call of `create_workspace` by an installation administrator. -/
structure Creation where
  organization : Nat
  creator : User
  ownerEmail : String
  membershipId : Nat
  invitationId : Nat := 0
  token : String := ""
  /-- An installation email account is configured. -/
  hasAccount : Bool := true
deriving DecidableEq

inductive CreationError where
  | valueError (message : String)
  | delivery (error : DeliveryError)
deriving DecidableEq

/-- `owner_is_creator`. -/
def Creation.OwnerIsCreator (text : TextCase) (creation : Creation) : Prop :=
  text.casefold creation.ownerEmail = text.casefold creation.creator.email

instance (text : TextCase) (creation : Creation) : Decidable (creation.OwnerIsCreator text) :=
  inferInstanceAs (Decidable (text.casefold creation.ownerEmail = _))

/-- The workspace with its creator as the owner. -/
def Creation.open (creation : Creation) (tables : Tables) : Tables :=
  { tables with
    organizations := tables.organizations ++ [creation.organization]
    memberships := tables.memberships ++ [{
      id := creation.membershipId
      organization := creation.organization
      user := creation.creator.id
      role := .owner }] }

def Creation.delivery (creation : Creation) (now : Nat) : Delivery where
  organization := creation.organization
  email := creation.ownerEmail
  role := .owner
  actor := creation.creator.id
  actorRole := .owner
  auditAction := .inviteMember
  invitationId := creation.invitationId
  token := creation.token
  now := now

/-- `send_owner_invitation`. -/
def sendOwnerInvitation (text : TextCase) (hash : String → String) (creation : Creation)
    (now : Nat) (tables : Tables) : Except CreationError Tables :=
  if ¬ creation.hasAccount then
    .error (.valueError
      "Configure installation fallback SMTP before creating a workspace for another owner.")
  else (deliver text hash (creation.delivery now) tables).mapError .delivery

def Creation.event (text : TextCase) (creation : Creation) : AccessEvent where
  action := .createWorkspace
  actor := some creation.creator.id
  targetUser := if creation.OwnerIsCreator text then some creation.creator.id else none
  organization := creation.organization

def Creation.provision (creation : Creation) (tables : Tables) : Tables :=
  { tables with
    provisioning := tables.provisioning ++ [{
      organization := creation.organization
      creator := creation.creator.id
      ownerEmail := creation.ownerEmail }] }

def Tables.record (event : AccessEvent) (tables : Tables) : Tables :=
  { tables with events := tables.events ++ [event] }

/-- `create_workspace`. -/
def createWorkspace (text : TextCase) (hash : String → String) (creation : Creation) (now : Nat)
    (tables : Tables) : Except CreationError Tables :=
  if creation.OwnerIsCreator text then
    .ok ((creation.open tables).record (creation.event text))
  else
    (sendOwnerInvitation text hash creation now (creation.provision (creation.open tables))).map
      fun invited => invited.record (creation.event text)

/-! ### Account deletions -/

/-- The user is the creator of a workspace that awaits its owner, which protects
the row. -/
def Tables.Protects (tables : Tables) (user : Nat) : Prop :=
  ∃ row ∈ tables.provisioning, row.creator = user

instance (tables : Tables) (user : Nat) : Decidable (tables.Protects user) :=
  inferInstanceAs (Decidable (∃ row ∈ tables.provisioning, row.creator = user))

/-- A reference that the deletion of the user clears. -/
def clearUser (user : Nat) (reference : Option Nat) : Option Nat :=
  if reference = some user then none else reference

/-- `request.user.delete()`: it takes the memberships of the user with it. -/
def deleteAccount (user : Nat) (tables : Tables) : Tables :=
  { tables with
    users := tables.users.filter (·.id ≠ user)
    memberships := tables.memberships.filter (·.user ≠ user)
    events := tables.events.map fun row =>
      { row with
        actor := clearUser user row.actor
        targetUser := clearUser user row.targetUser } }

/-- `owned.exists()`. -/
def Tables.Owns (tables : Tables) (user : Nat) : Prop :=
  ∃ row ∈ tables.memberships, row.user = user ∧ row.role = .owner

instance (tables : Tables) (user : Nat) : Decidable (tables.Owns user) :=
  inferInstanceAs (Decidable (∃ row ∈ tables.memberships, _))

end BubllioCrm.Access
