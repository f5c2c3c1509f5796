import BubllioCrm.Access.Accounts
import BubllioCrm.Foundations.Locks
import BubllioCrm.Foundations.Patterns
import Mathlib.Logic.Function.Basic

/-!
Owns the requests on workspaces and accounts as transactions that interleave:
what each reads before it locks, the membership or the workspace row it waits
for, and the commit by which all it has written becomes visible at once.

A transaction that commits has its constraints checked by the database; one
that raises, or is refused, leaves the tables as they were. A write waits while
another transaction holds a membership that it touches.
-/

namespace BubllioCrm.Access

open BubllioCrm.Foundations

/-- A transaction that locks the row of its workspace. -/
inductive Task where
  | deliver (delivery : Delivery)
  | revoke (revocation : Revocation)
  | accept (organization : Nat) (acceptance : Acceptance)

def Task.organization : Task → Nat
  | .deliver delivery => delivery.organization
  | .revoke revocation => revocation.organization
  | .accept organization _ => organization

/-- How far a request has come. -/
inductive Phase where
  | idle
  /-- `get_organization_for_user` has found the workspace. -/
  | authorised (request : MemberRequest)
  /-- `get_membership` has read the role of the requester. -/
  | waitingMember (request : MemberRequest) (role : Role)
  | changing (request : MemberRequest) (role : Role) (target : Membership)
  /-- The account has been seen to own no workspace. -/
  | deleting (user : Nat)
  | waitingOrganization (task : Task)
  | delivering (delivery : Delivery)
  | revoking (revocation : Revocation) (invitation : Invitation)
  | accepting (acceptance : Acceptance) (invitation : Invitation)
      (provisioning : Option Provisioning) (checkedAt : Nat)
  | joining (call : Joining)

structure System where
  tables : Tables
  memberLocks : Locks Nat := Locks.free
  organizationLocks : Locks Nat := Locks.free
  requests : Nat → Phase := fun _ => .idle
  /-- The acceptances that have been committed. -/
  joined : List Joining := []
  now : Nat := 0

/-- What the requests on invitations name. -/
structure InvitationRequest where
  organization : Nat
  actor : Nat
  invitationId : Nat
  token : String
  /-- An email account is configured. -/
  hasAccount : Bool := true

inductive Action where
  | create (creation : Creation)
  | changeMember (index : Nat) (request : MemberRequest)
  | readRole (index : Nat)
  | lockMember (index : Nat)
  | deleteAccount (index user : Nat)
  | invite (index : Nat) (request : InvitationRequest) (email : String) (role : Role)
  | resend (index : Nat) (request : InvitationRequest) (replaced : Nat)
  | revoke (index organization actor invitation : Nat)
  | accept (index : Nat) (acceptance : Acceptance)
  | lockOrganization (index : Nat)
  /-- An acceptance finds its user and the membership. -/
  | join (index : Nat)
  | commit (index : Nat)
  /-- A statement raises, or the connection is lost. -/
  | fail (index : Nat)
  | advance (elapsed : Nat)

/-- The transaction that an action commits. -/
def Action.committed? : Action → Option Nat
  | .commit index => some index
  | _ => none

/-! ### What a request reads before its lock -/

/-- `OrganizationInvitationListCreateAPIView.post` up to its delivery. -/
def Tables.invite (text : TextCase) (now : Nat) (tables : Tables) (request : InvitationRequest)
    (email : String) (role : Role) : Option Delivery := do
  guard (tables.Permits request.actor request.organization .manageMembers)
  let requester ← tables.membershipOf request.actor request.organization
  let address := text.lower (strip email)
  guard (role ≠ .owner ∧ canManageInvitationRole requester.role role ∧
    ¬ tables.HasMember text request.organization address ∧ request.hasAccount)
  return {
    organization := request.organization
    email := address
    role := role
    actor := request.actor
    actorRole := requester.role
    auditAction := .inviteMember
    invitationId := request.invitationId
    token := request.token
    now := now }

/-- `OrganizationInvitationResendAPIView.post` up to its delivery. -/
def Tables.resend (text : TextCase) (now : Nat) (tables : Tables) (request : InvitationRequest)
    (replaced : Nat) : Option Delivery := do
  guard (tables.Permits request.actor request.organization .manageMembers)
  let requester ← tables.membershipOf request.actor request.organization
  let invitation ← tables.invitations.find? fun row =>
    row.id = replaced ∧ row.organization = request.organization
  guard (canManageInvitationRole requester.role invitation.role ∧
    invitation.acceptedAt = none ∧
    ¬ tables.HasMember text request.organization invitation.email ∧ request.hasAccount)
  return {
    organization := request.organization
    email := invitation.email
    role := invitation.role
    actor := request.actor
    actorRole := requester.role
    auditAction := .resendMemberInvitation
    invitationId := request.invitationId
    token := request.token
    now := now }

/-- The view of a revocation up to its lock. -/
def Tables.revoke (tables : Tables) (organization actor invitation : Nat) :
    Option Revocation := do
  guard (tables.Permits actor organization .manageMembers)
  let requester ← tables.membershipOf actor organization
  return {
    organization := organization
    invitation := invitation
    actor := actor
    actorRole := requester.role }

/-- The unlocked look of an acceptance, which finds the workspace to lock. -/
def Tables.accept (hash : String → String) (now : Nat) (tables : Tables)
    (acceptance : Acceptance) : Option Nat := do
  guard (acceptance.authenticated.all (· ∈ tables.users))
  let invitation ← tables.invitations.find? (Invitation.Usable hash acceptance.token now ·)
  return invitation.organization

/-! ### What a request reads behind its lock -/

/-- What a transaction does when it has the lock on its workspace. It has ended
when there is nothing left to do. -/
def Tables.enter (text : TextCase) (hash : String → String) (now : Nat) (tables : Tables) :
    Task → Option Phase
  | .deliver delivery => some (.delivering delivery)
  | .revoke revocation => do
      let invitation ← tables.invitations.find? fun row =>
        row.id = revocation.invitation ∧ row.organization = revocation.organization
      guard (revocation.refusal invitation = none)
      return .revoking revocation invitation
  | .accept organization acceptance => do
      let invitation ← tables.invitations.find? fun row =>
        row.Usable hash acceptance.token now ∧ row.organization = organization
      let provisioning := tables.provisioning.find? (·.organization = organization)
      guard (acceptanceRefusal text invitation provisioning = none)
      return .accepting acceptance invitation provisioning now

/-- The user and the membership of an acceptance. -/
def Tables.join (text : TextCase) (tables : Tables) (acceptance : Acceptance)
    (invitation : Invitation) (provisioning : Option Provisioning) (checkedAt : Nat) :
    Option Joining := do
  let user ← (invitedUser text acceptance invitation tables).toOption
  return {
    acceptance := acceptance
    invitation := invitation
    provisioning := provisioning
    checkedAt := checkedAt
    user := user
    membership := existingMembership provisioning invitation.organization user.id tables }

/-! ### Commits -/

/-- The tables that a transaction has written when it ends, unless it has been
refused. -/
def Phase.write (text : TextCase) (hash : String → String) (now : Nat) (tables : Tables) :
    Phase → Option Tables
  | .changing request role target =>
      if request.change.refusal role target.role = none then some (request.apply target tables)
      else none
  | .deleting user => if tables.Protects user then none else some (deleteAccount user tables)
  | .delivering delivery => (deliver text hash delivery tables).toOption
  | .revoking revocation invitation => some (revocation.apply invitation now tables)
  | .joining call => some (call.apply now tables)
  | _ => none

/-- The transaction has nothing left to do but to write and commit. -/
def Phase.isReady : Phase → Bool
  | .changing _ _ _ => true
  | .deleting _ => true
  | .delivering _ => true
  | .revoking _ _ => true
  | .joining _ => true
  | _ => false

/-- A membership that a transaction updates or deletes. -/
def Phase.Touches (row : Membership) : Phase → Prop
  | .changing request _ target => request.change.Touches target row
  | .deleting user => row.user = user
  | .joining call => call.Touches row
  | _ => False

instance (row : Membership) : (phase : Phase) → Decidable (phase.Touches row)
  | .changing request _ target =>
      inferInstanceAs (Decidable (request.change.Touches target row))
  | .deleting user => inferInstanceAs (Decidable (row.user = user))
  | .joining call => inferInstanceAs (Decidable (call.Touches row))
  | .idle => inferInstanceAs (Decidable False)
  | .authorised _ => inferInstanceAs (Decidable False)
  | .waitingMember _ _ => inferInstanceAs (Decidable False)
  | .waitingOrganization _ => inferInstanceAs (Decidable False)
  | .delivering _ => inferInstanceAs (Decidable False)
  | .revoking _ _ => inferInstanceAs (Decidable False)
  | .accepting _ _ _ _ => inferInstanceAs (Decidable False)

/-- The acceptance that a commit records. -/
def Phase.joining? : Phase → List Joining
  | .joining call => [call]
  | _ => []

namespace System

def become (index : Nat) (phase : Phase) (system : System) : System :=
  { system with requests := Function.update system.requests index phase }

/-- The end of a transaction. -/
def finish (index : Nat) (system : System) : System :=
  { system.become index .idle with
    memberLocks := system.memberLocks.release index
    organizationLocks := system.organizationLocks.release index }

/-- No other transaction holds a membership that the write touches. -/
def Unhindered (system : System) (index : Nat) : Prop :=
  ∀ row ∈ system.tables.memberships, (system.requests index).Touches row →
    system.memberLocks.Grants index row.id

instance (system : System) (index : Nat) : Decidable (system.Unhindered index) :=
  inferInstanceAs (Decidable (∀ row ∈ system.tables.memberships, _))

/-- What a commit would store. -/
def written (text : TextCase) (hash : String → String) (system : System) (index : Nat) :
    Option Tables :=
  (system.requests index).write text hash system.now system.tables

/-- The transaction of a request ends in success. -/
def Succeeds (text : TextCase) (hash : String → String) (system : System) (index : Nat) : Prop :=
  (system.requests index).isReady ∧ system.Unhindered index ∧
    ∃ after ∈ system.written text hash index, after.Admitted

instance (text : TextCase) (hash : String → String) (system : System) (index : Nat) :
    Decidable (system.Succeeds text hash index) :=
  inferInstanceAs (Decidable ((system.requests index).isReady ∧ _ ∧
    ∃ after ∈ system.written text hash index, _))

/-- The commit of what a transaction has written, which the database refuses
where a constraint is violated. -/
def store (index : Nat) (after : Tables) (system : System) : System :=
  if after.Admitted then
    { system.finish index with
      tables := after
      joined := system.joined ++ (system.requests index).joining? }
  else system.finish index

/-- A transaction that has nothing to store ends as well. -/
def commit (text : TextCase) (hash : String → String) (index : Nat) (system : System) : System :=
  if (system.requests index).isReady ∧ system.Unhindered index then
    match system.written text hash index with
    | some after => system.store index after
    | none => system.finish index
  else system

def create (text : TextCase) (hash : String → String) (creation : Creation) (system : System) :
    System :=
  if creation.creator ∈ system.tables.users ∧ creation.creator.isSuperuser then
    match createWorkspace text hash creation system.now system.tables with
    | .ok after => if after.Admitted then { system with tables := after } else system
    | .error _ => system
  else system

/-- A request that is not refused enters a phase. -/
def enterPhase (index : Nat) (phase : Option Phase) (system : System) : System :=
  match phase with
  | some phase => system.become index phase
  | none => system.finish index

/-- `select_for_update` on the target of a request. -/
def lockMember (index : Nat) (request : MemberRequest) (role : Role) (system : System) : System :=
  if system.memberLocks.Grants index request.membership then
    match system.tables.memberships.find? fun row =>
        row.id = request.membership ∧ row.organization = request.organization with
    | some target =>
        { system.become index (.changing request role target) with
          memberLocks := system.memberLocks.acquire index (· = target.id) }
    | none => system.finish index
  else system

/-- `select_for_update` on the row of a workspace. -/
def lockOrganization (text : TextCase) (hash : String → String) (index : Nat) (task : Task)
    (system : System) : System :=
  if system.organizationLocks.Grants index task.organization then
    match system.tables.enter text hash system.now task with
    | some phase =>
        { system.become index phase with
          organizationLocks := system.organizationLocks.acquire index (· = task.organization) }
    | none => system.finish index
  else system

/-- A request that starts, unless the index is taken. -/
def start (index : Nat) (phase : Option Phase) (system : System) : System :=
  match system.requests index with
  | .idle => system.enterPhase index phase
  | _ => system

def readRole (index : Nat) (system : System) : System :=
  match system.requests index with
  | .authorised request =>
      system.enterPhase index
        ((system.tables.membershipOf request.requester request.organization).map
          fun requester => .waitingMember request requester.role)
  | _ => system

def lockTarget (index : Nat) (system : System) : System :=
  match system.requests index with
  | .waitingMember request role => system.lockMember index request role
  | _ => system

def lockWorkspace (text : TextCase) (hash : String → String) (index : Nat) (system : System) :
    System :=
  match system.requests index with
  | .waitingOrganization task => system.lockOrganization text hash index task
  | _ => system

def join (text : TextCase) (index : Nat) (system : System) : System :=
  match system.requests index with
  | .accepting acceptance invitation provisioning checkedAt =>
      system.enterPhase index
        ((system.tables.join text acceptance invitation provisioning checkedAt).map .joining)
  | _ => system

/-- The system after an action. An action that does not fit the request changes nothing. -/
def step (text : TextCase) (hash : String → String) (system : System) : Action → System
  | .create creation => system.create text hash creation
  | .changeMember index request =>
      system.start index
        (if system.tables.Permits request.requester request.organization .manageMembers then
          some (.authorised request) else none)
  | .readRole index => system.readRole index
  | .lockMember index => system.lockTarget index
  | .deleteAccount index user =>
      system.start index (if system.tables.Owns user then none else some (.deleting user))
  | .invite index request email role =>
      system.start index ((system.tables.invite text system.now request email role).map
        fun delivery => .waitingOrganization (.deliver delivery))
  | .resend index request replaced =>
      system.start index ((system.tables.resend text system.now request replaced).map
        fun delivery => .waitingOrganization (.deliver delivery))
  | .revoke index organization actor invitation =>
      system.start index ((system.tables.revoke organization actor invitation).map
        fun revocation => .waitingOrganization (.revoke revocation))
  | .accept index acceptance =>
      system.start index ((system.tables.accept hash system.now acceptance).map
        fun organization => .waitingOrganization (.accept organization acceptance))
  | .lockOrganization index => system.lockWorkspace text hash index
  | .join index => system.join text index
  | .commit index => system.commit text hash index
  | .fail index => system.finish index
  | .advance elapsed => { system with now := system.now + elapsed }

end System

end BubllioCrm.Access
