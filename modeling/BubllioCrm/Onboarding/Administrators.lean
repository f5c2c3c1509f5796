import BubllioCrm.Access.Models
import BubllioCrm.Foundations.Execution
import BubllioCrm.Foundations.Fallible
import BubllioCrm.UpdateAgent.Auth

/-!
Owns who administers an installation: the first-run set-up, the invitations of
further administrators, the sign-ins that carry a copy of a user into a
request, and the law that every administrator is an heir of the set-up.

Memberships and email accounts are not owned here. An account or a workspace
may be deleted and the fallback account may change at any time, which allows
more runs than the code has. Rows changed by hand, through the administration
site or a command of the server, are outside.
-/

namespace BubllioCrm.Onboarding.Administration

open BubllioCrm.Foundations
open BubllioCrm.Access (TextCase Refusal)
open BubllioCrm.UpdateAgent (compareDigest)

/-- A row of the user model, which a sign-in copies into its requests. -/
structure User where
  id : Nat
  username : String
  email : String
  isSuperuser : Bool := false
  isStaff : Bool := false
  isActive : Bool := true
deriving DecidableEq

structure InstallationAdminInvitation where
  email : String
  tokenHash : String
  invitedBy : Option Nat
  expiresAt : Nat
  acceptedAt : Option Nat := none
deriving DecidableEq

/-- What has happened to the administration, which no row keeps in full: the
audit rows forget the actor when its account is deleted. -/
inductive Event where
  | setUp (user : Nat)
  | invited (issuer : Nat) (email tokenHash : String) (expiresAt : Nat)
  | accepted (user : Nat) (address tokenHash : String) (moment : Nat)
deriving DecidableEq

structure Installation where
  now : Nat := 0
  /-- `InstallationState.completed_at`. -/
  completedAt : Option Nat := none
  /-- `InstallationState.fallback_email_account`, by its `is_active`. -/
  fallback : Option Bool := none
  users : List User := []
  nextUser : Nat := 0
  /-- The slugs of the workspaces. -/
  organizations : List String := []
  invitations : List InstallationAdminInvitation := []
  /-- The users as their requests have them. -/
  signedIn : List User := []
  /-- The invitations that were checked and not written yet. -/
  inviting : List (User × String) := []
  /-- The newest event first. -/
  history : List Event := []

/-- What the code relies on outside these files. -/
structure Environment where
  text : TextCase
  /-- `UserManager.normalize_email`. -/
  normalizeEmail : String → String
  /-- `AbstractBaseUser.normalize_username`. -/
  normalizeUsername : String → String
  tokenHash : String → String
  /-- `BUBLLIO_SETUP_TOKEN`, empty where it is not set. -/
  setupToken : String

/-- An exception that the view does not catch. -/
def serverError : Refusal := ⟨500, "", ""⟩

variable (environment : Environment)

/-! ### The first-run set-up -/

/-- `setup_available`. -/
def setupAvailable (state : Installation) : Bool :=
  decide (32 ≤ environment.setupToken.length) && state.completedAt.isNone &&
    state.users.isEmpty && state.organizations.isEmpty

/-- `setup_access_error`, where a token that is not a string is none. -/
def setupAccessError (state : Installation) (setupToken : Option String) : Option Refusal :=
  if !setupAvailable environment state then
    some ⟨403, "detail", "Installation setup is unavailable."⟩
  else
    match setupToken with
    | none => some ⟨400, "setup_token", "Invalid setup token."⟩
    | some supplied =>
        match compareDigest supplied environment.setupToken with
        | .error _ => some serverError
        | .ok true => none
        | .ok false => some ⟨400, "setup_token", "Invalid setup token."⟩

/-- The email account of the set-up request. -/
structure Smtp where
  isActive : Bool := true
  /-- `encrypt_secret` finds a valid key. -/
  encryptable : Bool
deriving DecidableEq

structure SetupRequest where
  setupToken : Option String
  username : String
  email : String
  organizationSlug : String
  smtp : Option Smtp := none
  /-- What the serializer raises. -/
  invalid : Option Refusal := none
deriving DecidableEq

/-- `create_superuser`: the user is the last row. -/
def createSuperuser (username email : String) (state : Installation) :
    Except Refusal Installation :=
  if ∃ other ∈ state.users, other.username = environment.normalizeUsername username then
    .error serverError
  else
    .ok { state with
      nextUser := state.nextUser + 1
      users := state.users ++ [{
        id := state.nextUser
        username := environment.normalizeUsername username
        email := environment.normalizeEmail email
        isSuperuser := true
        isStaff := true }] }

/-- `InstallationSetupAPIView.post`. -/
def setUp (request : SetupRequest) (state : Installation) : Except Refusal Installation :=
  match setupAccessError environment state request.setupToken with
  | some refusal => .error refusal
  | none =>
      if state.completedAt.isSome then
        .error ⟨403, "detail", "Installation setup is unavailable."⟩
      else
        match request.invalid with
        | some refusal => .error refusal
        | none =>
            if request.organizationSlug ∈ state.organizations then
              .error ⟨400, "organization_slug", "This slug is already in use."⟩
            else if request.smtp.any (!·.encryptable) then
              .error ⟨400, "smtp", "Set a valid BUBLLIO_EMAIL_ENCRYPTION_KEYS value on the " ++
                "server before adding SMTP."⟩
            else do
              let created ← createSuperuser environment request.username request.email state
              .ok { created with
                organizations := created.organizations ++ [request.organizationSlug]
                fallback := (request.smtp.map Smtp.isActive).or created.fallback
                completedAt := some state.now
                history := .setUp state.nextUser :: created.history }

/-! ### Invitations -/

/-- `IsInstallationAdmin.has_permission` of a user who is signed in. -/
def User.isInstallationAdmin (user : User) : Bool :=
  user.isActive && user.isSuperuser

/-- `InstallationAdminInvitationListCreateAPIView.post` up to its transaction.
The result is the validated email. -/
def checkInvitation (requester : User) (email : String) (state : Installation) :
    Except Refusal String :=
  let validated := environment.text.lower email
  if !requester.isInstallationAdmin then
    .error ⟨403, "detail", "You do not have permission to perform this action."⟩
  else if ∃ user ∈ state.users, environment.text.iexact user.email validated ∧
      user.isSuperuser = true ∧ user.isActive = true then
    .error ⟨400, "email", "This person is already an installation administrator."⟩
  else if state.fallback ≠ some true then
    .error ⟨400, "detail",
      "Configure installation fallback SMTP before inviting administrators."⟩
  else .ok validated

/-- `timedelta(days=7)` in seconds. -/
def invitationLifetime : Nat := 7 * 24 * 60 * 60

/-- The invitations without those that a new one to the email replaces. -/
def withoutPending (email : String) (invitations : List InstallationAdminInvitation) :
    List InstallationAdminInvitation :=
  invitations.filter fun row =>
    ¬ (environment.text.iexact row.email email ∧ row.acceptedAt = none)

/-- The transaction of `InstallationAdminInvitationListCreateAPIView.post`, which
fails on a token hash that is in use and on a requester whose row is gone. -/
def writeInvitation (requester : User) (email token : String) (state : Installation) :
    Except Refusal Installation :=
  let remaining := withoutPending environment email state.invitations
  let tokenHash := environment.tokenHash token
  let expiresAt := state.now + invitationLifetime
  if tokenHash ∈ remaining.map InstallationAdminInvitation.tokenHash ∨
      requester.id ∉ state.users.map User.id then
    .error ⟨500, "detail", "The invitation could not be queued. Check the server logs."⟩
  else
    .ok { state with
      invitations := remaining ++ [{
        email := email
        tokenHash := tokenHash
        invitedBy := some requester.id
        expiresAt := expiresAt }]
      history := .invited requester.id email tokenHash expiresAt :: state.history }

/-! ### Acceptances -/

/-- The fields of `InvitationRegistrationSerializer`. -/
structure Registration where
  username : String
  /-- What the serializer raises, the test for the username apart. -/
  invalid : Option Refusal := none
deriving DecidableEq

/-- The invitation that `get_object_or_404` locks. -/
def openInvitation (token : String) (state : Installation) : Except Refusal
    InstallationAdminInvitation :=
  match state.invitations.find? fun row =>
      row.tokenHash = environment.tokenHash token ∧ row.acceptedAt = none ∧
        state.now < row.expiresAt with
  | some invitation => .ok invitation
  | none => .error ⟨404, "detail", "No InstallationAdminInvitation matches the given query."⟩

/-- The rows that end an acceptance. -/
def closeInvitation (user : Nat) (address : String) (invitation : InstallationAdminInvitation)
    (state : Installation) : Installation :=
  { state with
    invitations := state.invitations.map fun row =>
      if row.tokenHash = invitation.tokenHash then { row with acceptedAt := some state.now }
      else row
    history := .accepted user address invitation.tokenHash state.now :: state.history }

/-- The user of the row with the two flags that an administrator has. -/
def User.promoted (user : User) : User :=
  { user with isSuperuser := true, isStaff := true }

/-- `InstallationAdminInvitationAcceptAPIView.post` by a user who is signed in:
`requester` is the row as the request has it. A save or an audit row of a user
who is gone fails. -/
def acceptInvitation (requester : User) (token : String) (state : Installation) :
    Except Refusal Installation := do
  let invitation ← openInvitation environment token state
  if environment.text.lower requester.email ≠ environment.text.lower invitation.email then
    .error ⟨403, "detail", "Sign in with the invited email address."⟩
  else if requester.id ∉ state.users.map User.id then .error serverError
  else
    let users :=
      if requester.isSuperuser && requester.isStaff then state.users
      else state.users.map fun row => if row.id = requester.id then row.promoted else row
    .ok (closeInvitation requester.id requester.email invitation { state with users := users })

/-- `InstallationAdminInvitationAcceptAPIView.post` by somebody without an account. -/
def registerAdministrator (registration : Registration) (token : String) (state : Installation) :
    Except Refusal Installation := do
  let invitation ← openInvitation environment token state
  if ∃ user ∈ state.users, environment.text.iexact user.email invitation.email then
    .error ⟨409, "detail",
      "An account with this email exists. Sign in before accepting the invitation."⟩
  else if ∃ user ∈ state.users, environment.text.iexact user.username registration.username then
    .error ⟨400, "username", "This username is already in use."⟩
  else
    match registration.invalid with
    | some refusal => .error refusal
    | none =>
        let created ←
          createSuperuser environment registration.username invitation.email state
        .ok (closeInvitation state.nextUser invitation.email invitation created)

/-! ### The other requests -/

/-- `_invited_user`: a user who registers with the invitation of a workspace. -/
def joinWorkspace (username email : String) (state : Installation) :
    Except Refusal Installation :=
  if state.organizations = [] then
    .error ⟨404, "detail", "Not found."⟩
  else if ∃ user ∈ state.users, environment.text.iexact user.email email then
    .error ⟨409, "detail",
      "An account with this email exists. Sign in before accepting the invitation."⟩
  else if ∃ other ∈ state.users, other.username = environment.normalizeUsername username then
    .error serverError
  else
    .ok { state with
      nextUser := state.nextUser + 1
      users := state.users ++ [{
        id := state.nextUser
        username := environment.normalizeUsername username
        email := environment.normalizeEmail email }] }

/-- `can_create_workspace` and the insertion of a workspace. -/
def openWorkspace (requester : User) (slug : String) (state : Installation) :
    Except Refusal Installation :=
  if !requester.isInstallationAdmin then
    .error ⟨403, "detail", "Only an installation administrator can create workspaces."⟩
  else if slug ∈ state.organizations ∨ requester.id ∉ state.users.map User.id then
    .error serverError
  else .ok { state with organizations := state.organizations ++ [slug] }

/-- `AccountSettingsSerializer.update` of the email. -/
def changeEmail (requester : User) (email : String) (state : Installation) :
    Except Refusal Installation :=
  if ∃ other ∈ state.users, environment.text.iexact other.email email ∧ other.id ≠ requester.id
  then .error ⟨400, "email", "This email address is already in use."⟩
  else
    .ok { state with
      users := state.users.map fun row =>
        if row.id = requester.id then { row with email := email } else row }

/-- `request.user.delete()`: the invitations of the user stay, without their sender. -/
def deleteAccount (user : Nat) (state : Installation) : Installation :=
  { state with
    users := state.users.filter (·.id ≠ user)
    invitations := state.invitations.map fun row =>
      if row.invitedBy = some user then { row with invitedBy := none } else row }

inductive Action where
  | setUp (request : SetupRequest)
  | signIn (user : Nat)
  | checkInvitation (requester : User) (email : String)
  | writeInvitation (index : Nat) (token : String)
  | accept (requester : User) (token : String)
  | register (registration : Registration) (token : String)
  | joinWorkspace (username email : String)
  | openWorkspace (requester : User) (slug : String)
  | deleteWorkspace (slug : String)
  | changeEmail (requester : User) (email : String)
  | deleteAccount (user : Nat)
  | setFallback (account : Option Bool)
  | tick (seconds : Nat)

/-- Requests without a valid sign-in. -/
def notAuthenticated : Refusal :=
  ⟨401, "detail", "Authentication credentials were not provided."⟩

/-- What a request makes of the installation, or how it is refused. -/
def perform (state : Installation) : Action → Except Refusal Installation
  | .setUp request => setUp environment request state
  | .signIn user =>
      match state.users.find? fun row => row.id = user ∧ row.isActive = true with
      | some row => .ok { state with signedIn := state.signedIn ++ [row] }
      | none => .error notAuthenticated
  | .checkInvitation requester email =>
      if requester ∉ state.signedIn then .error notAuthenticated
      else do
        let validated ← checkInvitation environment requester email state
        .ok { state with inviting := state.inviting ++ [(requester, validated)] }
  | .writeInvitation index token =>
      match state.inviting[index]? with
      | some call => writeInvitation environment call.1 call.2 token state
      | none => .error notAuthenticated
  | .accept requester token =>
      if requester ∉ state.signedIn then .error notAuthenticated
      else acceptInvitation environment requester token state
  | .register registration token => registerAdministrator environment registration token state
  | .joinWorkspace username email => joinWorkspace environment username email state
  | .openWorkspace requester slug =>
      if requester ∉ state.signedIn then .error notAuthenticated
      else openWorkspace requester slug state
  | .deleteWorkspace slug =>
      .ok { state with organizations := state.organizations.filter (· ≠ slug) }
  | .changeEmail requester email =>
      if requester ∉ state.signedIn then .error notAuthenticated
      else changeEmail environment requester email state
  | .deleteAccount user => .ok (deleteAccount user state)
  | .setFallback account => .ok { state with fallback := account }
  | .tick seconds => .ok { state with now := state.now + seconds }

/-- A refused request leaves the installation as it was. -/
def step (state : Installation) (action : Action) : Installation :=
  match perform environment state action with
  | .ok after => after
  | .error _ => state

/-! ### The law -/

/-- The event takes the force of an earlier invitation to the email: it used the
token, or it sent a newer invitation to the same address. -/
def Event.Ends (text : TextCase) (email tokenHash : String) : Event → Prop
  | .setUp _ => False
  | .invited _ other _ _ => text.iexact email other
  | .accepted _ _ used _ => used = tokenHash

/-- The user set the installation up, or accepted in time an invitation to its
address that was still in force and that a trusted user had sent. -/
inductive Trusted (text : TextCase) : List Event → Nat → Prop where
  | root {user : Nat} {earlier : List Event} : Trusted text (.setUp user :: earlier) user
  | accepted {user issuer expiresAt moment : Nat} {address email tokenHash : String}
      {between earlier : List Event} (issued : Trusted text earlier issuer)
      (inForce : ∀ event ∈ between, ¬ event.Ends text email tokenHash)
      (addressed : text.lower address = text.lower email) (inTime : moment < expiresAt) :
      Trusted text (.accepted user address tokenHash moment ::
        (between ++ .invited issuer email tokenHash expiresAt :: earlier)) user
  | later {user : Nat} {event : Event} {earlier : List Event}
      (already : Trusted text earlier user) : Trusted text (event :: earlier) user

def Event.isSetUp : Event → Bool
  | .setUp _ => true
  | _ => false

def Event.usedToken? : Event → Option String
  | .accepted _ _ tokenHash _ => some tokenHash
  | _ => none

/-- Administration descends from one set-up: it happens at most once and is open
only before it happened, no invitation is accepted twice, and every
administrator is trusted. -/
structure Governed (environment : Environment) (state : Installation) : Prop where
  trusted : ∀ user ∈ state.users, user.isSuperuser = true →
    Trusted environment.text state.history user.id
  founded : (state.history.filter Event.isSetUp).length ≤ 1
  closed : setupAvailable environment state = true ↔
    32 ≤ environment.setupToken.length ∧ ∀ event ∈ state.history, event.isSetUp = false
  singleUse : (state.history.filterMap Event.usedToken?).Nodup

/-! ### The invariant -/

/-- The invitation was sent by a trusted user, and nothing has ended it since. -/
def Sent (text : TextCase) (history : List Event) (row : InstallationAdminInvitation) : Prop :=
  ∃ between issuer earlier,
    history = between ++ .invited issuer row.email row.tokenHash row.expiresAt :: earlier ∧
      Trusted text earlier issuer ∧ ∀ event ∈ between, ¬ event.Ends text row.email row.tokenHash

/-- What is true of an installation before its set-up. -/
structure Vacant (state : Installation) : Prop where
  users : state.users = []
  organizations : state.organizations = []
  invitations : state.invitations = []
  signedIn : state.signedIn = []
  inviting : state.inviting = []
  history : state.history = []

structure Invariant (environment : Environment) (state : Installation) : Prop where
  users : ∀ user ∈ state.users, user.isSuperuser = true →
    Trusted environment.text state.history user.id
  signedIn : ∀ user ∈ state.signedIn, user.isSuperuser = true →
    Trusted environment.text state.history user.id
  inviting : ∀ call ∈ state.inviting, Trusted environment.text state.history call.1.id
  pending : ∀ row ∈ state.invitations, row.acceptedAt = none →
    Sent environment.text state.history row
  distinct : (state.invitations.map InstallationAdminInvitation.tokenHash).Nodup
  spent : ∀ token ∈ state.history.filterMap Event.usedToken?,
    ∃ row ∈ state.invitations, row.tokenHash = token ∧ row.acceptedAt ≠ none
  singleUse : (state.history.filterMap Event.usedToken?).Nodup
  founded : (state.history.filter Event.isSetUp).length = if state.completedAt = none then 0 else 1
  vacant : state.completedAt = none → Vacant state

variable {environment : Environment} {state after : Installation} {text : TextCase}
  {history : List Event} {row invitation : InstallationAdminInvitation}

theorem invariant_fresh : Invariant environment {} where
  users := by simp
  signedIn := by simp
  inviting := by simp
  pending := by simp
  distinct := by simp
  spent := by simp
  singleUse := by simp
  founded := by simp
  vacant := fun _ => ⟨rfl, rfl, rfl, rfl, rfl, rfl⟩

theorem Sent.later {event : Event} (sent : Sent text history row)
    (inForce : ¬ event.Ends text row.email row.tokenHash) :
    Sent text (event :: history) row := by
  obtain ⟨between, issuer, earlier, rfl, issued, others⟩ := sent
  exact ⟨event :: between, issuer, earlier, rfl, issued,
    List.forall_mem_cons.mpr ⟨inForce, others⟩⟩

theorem setUp_mem_of_completed (invariant : Invariant environment state)
    (completed : state.completedAt ≠ none) : ∃ event ∈ state.history, event.isSetUp = true := by
  have one := invariant.founded
  rw [if_neg completed] at one
  have isSome : state.history.filter Event.isSetUp ≠ [] := by
    intro isEmpty
    simp [isEmpty] at one
  obtain ⟨event, member⟩ := List.exists_mem_of_ne_nil _ isSome
  exact ⟨event, (List.mem_filter.mp member).1, (List.mem_filter.mp member).2⟩

/-- What the law needs of the invariant. -/
theorem Invariant.governed (invariant : Invariant environment state) :
    Governed environment state where
  trusted := invariant.users
  founded := by
    rw [invariant.founded]
    split <;> omega
  closed := by
    by_cases completed : state.completedAt = none
    · have vacant := invariant.vacant completed
      simp [setupAvailable, completed, vacant.users, vacant.organizations, vacant.history]
    · obtain ⟨event, member, isSetUp⟩ := setUp_mem_of_completed invariant completed
      have isSome : state.completedAt.isNone = false := by
        cases isCompleted : state.completedAt with
        | none => exact absurd isCompleted completed
        | some moment => rfl
      refine iff_of_false (by simp [setupAvailable, isSome]) ?_
      rintro ⟨-, none⟩
      simp [none event member] at isSetUp
  singleUse := invariant.singleUse

/-- An invitation, a sign-in or a user is there only after the set-up. -/
theorem Invariant.completed (invariant : Invariant environment state)
    (inhabited : ¬ Vacant state) : state.completedAt ≠ none :=
  fun incomplete => inhabited (invariant.vacant incomplete)

/-! ### What the requests do -/

theorem createSuperuser_ok {username email : String}
    (created : createSuperuser environment username email state = .ok after) :
    ∃ user : User, user.id = state.nextUser ∧
      after = { state with nextUser := state.nextUser + 1, users := state.users ++ [user] } := by
  unfold createSuperuser at created
  split at created
  · cases created
  · cases created
    exact ⟨_, rfl, rfl⟩

theorem openInvitation_ok {token : String}
    (found : openInvitation environment token state = .ok invitation) :
    invitation ∈ state.invitations ∧ invitation.acceptedAt = none ∧
      state.now < invitation.expiresAt := by
  unfold openInvitation at found
  split at found
  · next isFound =>
      cases found
      obtain ⟨stored, -, pending, inTime⟩ := mem_of_find isFound
      exact ⟨stored, pending, inTime⟩
  · cases found

/-- The set-up needs a vacant installation and completes it with one administrator. -/
theorem setUp_ok {request : SetupRequest}
    (succeeded : setUp environment request state = .ok after) :
    state.completedAt = none ∧ ∃ (user : User) (organizations : List String)
      (fallback : Option Bool), user.id = state.nextUser ∧
        after = { state with
          nextUser := state.nextUser + 1
          users := state.users ++ [user]
          organizations := organizations
          fallback := fallback
          completedAt := some state.now
          history := .setUp state.nextUser :: state.history } := by
  unfold setUp at succeeded
  split at succeeded
  · cases succeeded
  · rw [guard_eq_ok] at succeeded
    obtain ⟨incomplete, rest⟩ := succeeded
    split at rest
    · cases rest
    · rw [guard_eq_ok, guard_eq_ok, bind_eq_ok] at rest
      obtain ⟨-, -, created, isCreated, isAfter⟩ := rest
      obtain ⟨user, isNext, rfl⟩ := createSuperuser_ok isCreated
      cases isAfter
      refine ⟨by simpa using incomplete, user, _, _, isNext, rfl⟩

theorem checkInvitation_ok {requester : User} {email validated : String}
    (checked : checkInvitation environment requester email state = .ok validated) :
    requester.isSuperuser = true := by
  unfold checkInvitation at checked
  dsimp only at checked
  rw [guard_eq_ok] at checked
  have isAdmin : requester.isInstallationAdmin = true := by simpa using checked.1
  exact (Bool.and_eq_true_iff.mp isAdmin).2

theorem writeInvitation_ok {requester : User} {email token : String}
    (written : writeInvitation environment requester email token state = .ok after) :
    environment.tokenHash token ∉ (withoutPending environment email state.invitations).map
        InstallationAdminInvitation.tokenHash ∧
      after = { state with
        invitations := withoutPending environment email state.invitations ++ [{
          email := email
          tokenHash := environment.tokenHash token
          invitedBy := some requester.id
          expiresAt := state.now + invitationLifetime }]
        history := .invited requester.id email (environment.tokenHash token)
          (state.now + invitationLifetime) :: state.history } := by
  unfold writeInvitation at written
  dsimp only at written
  rw [guard_eq_ok, not_or] at written
  obtain ⟨⟨unused, -⟩, isAfter⟩ := written
  cases isAfter
  exact ⟨unused, rfl⟩

/-- Whoever accepts, the invitation is closed in the name of one user, and only
that user may have become an administrator. -/
def Closes (state : Installation) (invitation : InstallationAdminInvitation) (user : Nat)
    (address : String) (after : Installation) : Prop :=
  ∃ users nextUser,
    after = closeInvitation user address invitation
      { state with users := users, nextUser := nextUser } ∧
      ∀ row ∈ users, row.isSuperuser = true → row.id = user ∨
        ∃ old ∈ state.users, old.id = row.id ∧ old.isSuperuser = true

theorem acceptInvitation_ok {requester : User} {token : String}
    (accepted : acceptInvitation environment requester token state = .ok after) :
    ∃ invitation, openInvitation environment token state = .ok invitation ∧
      environment.text.lower requester.email = environment.text.lower invitation.email ∧
        Closes state invitation requester.id requester.email after := by
  unfold acceptInvitation at accepted
  rw [bind_eq_ok] at accepted
  obtain ⟨invitation, found, rest⟩ := accepted
  rw [guard_eq_ok, guard_eq_ok] at rest
  obtain ⟨addressed, -, isAfter⟩ := rest
  cases isAfter
  refine ⟨invitation, found, not_not.mp addressed, _, state.nextUser, rfl, ?_⟩
  intro row member isSuperuser
  split at member
  · exact Or.inr ⟨row, member, rfl, isSuperuser⟩
  · obtain ⟨old, stored, rfl⟩ := List.mem_map.mp member
    split at isSuperuser
    · next isRequester =>
        left
        rw [if_pos isRequester]
        exact isRequester
    · next isOther =>
        right
        rw [if_neg isOther]
        exact ⟨old, stored, rfl, isSuperuser⟩

theorem registerAdministrator_ok {registration : Registration} {token : String}
    (registered : registerAdministrator environment registration token state = .ok after) :
    ∃ invitation, openInvitation environment token state = .ok invitation ∧
      Closes state invitation state.nextUser invitation.email after := by
  unfold registerAdministrator at registered
  rw [bind_eq_ok] at registered
  obtain ⟨invitation, found, rest⟩ := registered
  rw [guard_eq_ok, guard_eq_ok] at rest
  obtain ⟨-, -, rest⟩ := rest
  split at rest
  · cases rest
  · rw [bind_eq_ok] at rest
    obtain ⟨created, isCreated, isAfter⟩ := rest
    obtain ⟨user, isNext, rfl⟩ := createSuperuser_ok isCreated
    cases isAfter
    refine ⟨invitation, found, _, _, rfl, ?_⟩
    intro row member isSuperuser
    rcases List.mem_append.mp member with old | new
    · exact Or.inr ⟨row, old, rfl, isSuperuser⟩
    · rw [List.mem_singleton.mp new]
      exact Or.inl isNext

theorem joinWorkspace_ok {username email : String}
    (joined : joinWorkspace environment username email state = .ok after) :
    state.organizations ≠ [] ∧ ∃ user : User, user.isSuperuser = false ∧
      after = { state with nextUser := state.nextUser + 1, users := state.users ++ [user] } := by
  unfold joinWorkspace at joined
  rw [guard_eq_ok, guard_eq_ok, guard_eq_ok] at joined
  obtain ⟨opened, -, -, isAfter⟩ := joined
  cases isAfter
  exact ⟨opened, _, rfl, rfl⟩

/-! ### What keeps the invariant -/

/-- A step that writes no event and no invitation keeps the invariant when whoever
it lets administer is trusted. -/
theorem Invariant.move (invariant : Invariant environment state)
    (sameHistory : after.history = state.history)
    (sameInvitations : after.invitations = state.invitations)
    (sameCompletion : after.completedAt = state.completedAt)
    (users : ∀ user ∈ after.users, user.isSuperuser = true →
      Trusted environment.text state.history user.id)
    (signedIn : ∀ user ∈ after.signedIn, user.isSuperuser = true →
      Trusted environment.text state.history user.id)
    (inviting : ∀ call ∈ after.inviting, Trusted environment.text state.history call.1.id)
    (vacant : Vacant state → Vacant after) : Invariant environment after where
  users := sameHistory ▸ users
  signedIn := sameHistory ▸ signedIn
  inviting := sameHistory ▸ inviting
  pending := by rw [sameHistory, sameInvitations]; exact invariant.pending
  distinct := by rw [sameInvitations]; exact invariant.distinct
  spent := by rw [sameHistory, sameInvitations]; exact invariant.spent
  singleUse := by rw [sameHistory]; exact invariant.singleUse
  founded := by rw [sameHistory, sameCompletion]; exact invariant.founded
  vacant := by rw [sameCompletion]; exact fun incomplete => vacant (invariant.vacant incomplete)

theorem Invariant.setUp (invariant : Invariant environment state) {request : SetupRequest}
    (succeeded : setUp environment request state = .ok after) : Invariant environment after := by
  obtain ⟨incomplete, user, organizations, fallback, isNext, rfl⟩ := setUp_ok succeeded
  have vacant := invariant.vacant incomplete
  constructor
  case users =>
    intro row member _
    simp only [vacant.users, List.nil_append, List.mem_singleton] at member
    rw [member, isNext]
    exact .root
  case founded => simp [vacant.history, List.filter_cons, Event.isSetUp]
  case vacant => simp
  all_goals simp [vacant.signedIn, vacant.inviting, vacant.invitations, vacant.history,
    List.filterMap_cons, Event.usedToken?]

theorem mem_withoutPending {email : String} {invitations : List InstallationAdminInvitation} :
    row ∈ withoutPending environment email invitations ↔
      row ∈ invitations ∧ ¬ (environment.text.iexact row.email email ∧ row.acceptedAt = none) := by
  simp only [withoutPending, List.mem_filter, decide_eq_true_eq]

theorem Invariant.writeInvitation (invariant : Invariant environment state) {requester : User}
    {email token : String} (issued : Trusted environment.text state.history requester.id)
    (inhabited : ¬ Vacant state)
    (written : writeInvitation environment requester email token state = .ok after) :
    Invariant environment after := by
  have completed := invariant.completed inhabited
  obtain ⟨unused, rfl⟩ := writeInvitation_ok written
  constructor
  case users => exact fun user member flagged => (invariant.users user member flagged).later
  case signedIn => exact fun user member flagged => (invariant.signedIn user member flagged).later
  case inviting => exact fun call member => (invariant.inviting call member).later
  case pending =>
    intro row member isOpen
    rcases List.mem_append.mp member with old | new
    · obtain ⟨stored, notReplaced⟩ := mem_withoutPending.mp old
      exact (invariant.pending row stored isOpen).later fun same => notReplaced ⟨same, isOpen⟩
    · rw [List.mem_singleton.mp new]
      exact ⟨[], requester.id, state.history, rfl, issued, by simp⟩
  case distinct =>
    have kept : ((withoutPending environment email state.invitations).map
        InstallationAdminInvitation.tokenHash).Nodup :=
      invariant.distinct.sublist (List.filter_sublist.map _)
    rw [List.map_append, List.map_singleton]
    exact List.nodup_append.mpr ⟨kept, List.nodup_singleton _,
      fun hash old other new same => unused (by rwa [same, List.mem_singleton.mp new] at old)⟩
  case spent =>
    intro used member
    obtain ⟨row, stored, isToken, closed⟩ := invariant.spent used member
    exact ⟨row, List.mem_append_left _ (mem_withoutPending.mpr ⟨stored, fun both => closed both.2⟩),
      isToken, closed⟩
  case singleUse => exact invariant.singleUse
  case founded => exact invariant.founded
  case vacant => exact fun incomplete => absurd incomplete completed

/-- Closing an invitation that is in force keeps the invariant. -/
theorem Invariant.close (invariant : Invariant environment state) {user : Nat} {address : String}
    (stored : invitation ∈ state.invitations) (pending : invitation.acceptedAt = none)
    (inTime : state.now < invitation.expiresAt)
    (addressed : environment.text.lower address = environment.text.lower invitation.email)
    (closes : Closes state invitation user address after) : Invariant environment after := by
  have completed := invariant.completed fun vacant => by
    rw [vacant.invitations] at stored
    cases stored
  obtain ⟨users, nextUser, rfl, promoted⟩ := closes
  have unused : invitation.tokenHash ∉ state.history.filterMap Event.usedToken? := by
    intro used
    obtain ⟨row, member, same, closed⟩ := invariant.spent _ used
    rw [List.inj_on_of_nodup_map invariant.distinct member stored same] at closed
    exact closed pending
  constructor
  case users =>
    intro row member flagged
    rcases promoted row member flagged with isUser | ⟨old, before, isOld, wasFlagged⟩
    · rw [isUser]
      obtain ⟨between, issuer, earlier, isHistory, issued, inForce⟩ :=
        invariant.pending invitation stored pending
      change Trusted _ (_ :: state.history) _
      rw [isHistory]
      exact .accepted issued inForce addressed inTime
    · rw [← isOld]
      exact (invariant.users old before wasFlagged).later
  case signedIn => exact fun row member flagged => (invariant.signedIn row member flagged).later
  case inviting => exact fun call member => (invariant.inviting call member).later
  case pending =>
    intro row member isOpen
    obtain ⟨old, before, rfl⟩ := List.mem_map.mp member
    by_cases same : old.tokenHash = invitation.tokenHash
    · simp [same] at isOpen
    · rw [if_neg same] at isOpen ⊢
      exact (invariant.pending old before isOpen).later (Ne.symm same)
  case distinct =>
    have sameTokens : (state.invitations.map fun row =>
        if row.tokenHash = invitation.tokenHash then
          { row with acceptedAt := some state.now } else row).map
        InstallationAdminInvitation.tokenHash =
        state.invitations.map InstallationAdminInvitation.tokenHash := by
      rw [List.map_map]
      exact List.map_congr_left fun row _ => by simp only [Function.comp_apply]; split <;> rfl
    exact sameTokens ▸ invariant.distinct
  case spent =>
    intro used member
    have known : used = invitation.tokenHash ∨ used ∈ state.history.filterMap Event.usedToken? := by
      simpa [closeInvitation, Event.usedToken?] using member
    rcases known with rfl | earlier
    · exact ⟨{ invitation with acceptedAt := some state.now },
        List.mem_map.mpr ⟨invitation, stored, if_pos rfl⟩, rfl, by simp⟩
    · obtain ⟨row, before, isToken, closed⟩ := invariant.spent used earlier
      refine ⟨_, List.mem_map_of_mem before, ?_, ?_⟩
      · split <;> exact isToken
      · split
        · simp
        · exact closed
  case singleUse =>
    exact List.nodup_cons.mpr ⟨unused, invariant.singleUse⟩
  case founded => exact invariant.founded
  case vacant => exact fun incomplete => absurd incomplete completed

/-- The deletion of an account forgets who sent its invitations. -/
theorem Invariant.deleteAccount (invariant : Invariant environment state) (user : Nat) :
    Invariant environment (deleteAccount user state) := by
  have sameRow : ∀ row : InstallationAdminInvitation,
      (if row.invitedBy = some user then { row with invitedBy := none } else row) =
        { row with invitedBy := if row.invitedBy = some user then none else row.invitedBy } := by
    intro row
    split <;> rfl
  constructor
  case users =>
    exact fun row member flagged => invariant.users row (List.mem_filter.mp member).1 flagged
  case signedIn => exact invariant.signedIn
  case inviting => exact invariant.inviting
  case pending =>
    intro row member isOpen
    obtain ⟨old, before, rfl⟩ := List.mem_map.mp member
    rw [sameRow] at isOpen ⊢
    exact invariant.pending old before isOpen
  case distinct =>
    simpa only [Administration.deleteAccount, sameRow, List.map_map, Function.comp_def]
      using invariant.distinct
  case spent =>
    intro used member
    obtain ⟨row, before, isToken, closed⟩ := invariant.spent used member
    exact ⟨_, List.mem_map_of_mem before, by rw [sameRow]; exact isToken,
      by rw [sameRow]; exact closed⟩
  case singleUse => exact invariant.singleUse
  case founded => exact invariant.founded
  case vacant =>
    intro incomplete
    have vacant := invariant.vacant incomplete
    exact ⟨by simp [Administration.deleteAccount, vacant.users], vacant.organizations,
      by simp [Administration.deleteAccount, vacant.invitations], vacant.signedIn, vacant.inviting,
      vacant.history⟩

/-! ### Every request -/

theorem Invariant.signIn (invariant : Invariant environment state) {row : User}
    (stored : row ∈ state.users) :
    Invariant environment { state with signedIn := state.signedIn ++ [row] } := by
  refine invariant.move rfl rfl rfl invariant.users ?_ invariant.inviting ?_
  · intro user member flagged
    rcases List.mem_append.mp member with old | new
    · exact invariant.signedIn user old flagged
    · rw [List.mem_singleton.mp new] at flagged ⊢
      exact invariant.users row stored flagged
  · intro vacant
    rw [vacant.users] at stored
    cases stored

theorem Invariant.checkInvitation (invariant : Invariant environment state) {requester : User}
    {email validated : String} (authenticated : requester ∈ state.signedIn)
    (checked : checkInvitation environment requester email state = .ok validated) :
    Invariant environment
      { state with inviting := state.inviting ++ [(requester, validated)] } := by
  refine invariant.move rfl rfl rfl invariant.users invariant.signedIn ?_ ?_
  · intro call member
    rcases List.mem_append.mp member with old | new
    · exact invariant.inviting call old
    · rw [List.mem_singleton.mp new]
      exact invariant.signedIn requester authenticated (checkInvitation_ok checked)
  · intro vacant
    rw [vacant.signedIn] at authenticated
    cases authenticated

theorem Invariant.joinWorkspace (invariant : Invariant environment state)
    {username email : String}
    (joined : joinWorkspace environment username email state = .ok after) :
    Invariant environment after := by
  obtain ⟨opened, user, isPlain, rfl⟩ := joinWorkspace_ok joined
  refine invariant.move rfl rfl rfl ?_ invariant.signedIn invariant.inviting ?_
  · intro row member flagged
    rcases List.mem_append.mp member with old | new
    · exact invariant.users row old flagged
    · rw [List.mem_singleton.mp new, isPlain] at flagged
      cases flagged
  · exact fun vacant => absurd vacant.organizations opened

theorem Invariant.openWorkspace (invariant : Invariant environment state) {requester : User}
    {slug : String} (authenticated : requester ∈ state.signedIn)
    (opened : openWorkspace requester slug state = .ok after) : Invariant environment after := by
  unfold Administration.openWorkspace at opened
  rw [guard_eq_ok, guard_eq_ok] at opened
  obtain ⟨-, -, isAfter⟩ := opened
  cases isAfter
  refine invariant.move rfl rfl rfl invariant.users invariant.signedIn invariant.inviting ?_
  intro vacant
  rw [vacant.signedIn] at authenticated
  cases authenticated

theorem Invariant.changeEmail (invariant : Invariant environment state) {requester : User}
    {email : String} (changed : changeEmail environment requester email state = .ok after) :
    Invariant environment after := by
  unfold Administration.changeEmail at changed
  rw [guard_eq_ok] at changed
  obtain ⟨-, isAfter⟩ := changed
  cases isAfter
  refine invariant.move rfl rfl rfl ?_ invariant.signedIn invariant.inviting ?_
  · intro row member flagged
    obtain ⟨old, stored, rfl⟩ := List.mem_map.mp member
    split at flagged
    · next isRequester =>
        rw [if_pos isRequester]
        exact invariant.users old stored flagged
    · next isOther =>
        rw [if_neg isOther]
        exact invariant.users old stored flagged
  · exact fun vacant => { vacant with users := by simp [vacant.users] }

/-- What a request makes of an installation keeps the invariant. -/
theorem Invariant.perform (invariant : Invariant environment state) {action : Action}
    (performed : perform environment state action = .ok after) : Invariant environment after := by
  cases action with
  | setUp request => exact invariant.setUp performed
  | signIn user =>
      simp only [Administration.perform] at performed
      split at performed
      · next found =>
          cases performed
          exact invariant.signIn (mem_of_find found).1
      · cases performed
  | checkInvitation requester email =>
      simp only [Administration.perform] at performed
      rw [guard_eq_ok, not_not, bind_eq_ok] at performed
      obtain ⟨authenticated, validated, checked, isAfter⟩ := performed
      cases isAfter
      exact invariant.checkInvitation authenticated checked
  | writeInvitation index token =>
      simp only [Administration.perform] at performed
      split at performed
      · next call found =>
          have member := List.mem_of_getElem? found
          refine invariant.writeInvitation (invariant.inviting call member) ?_ performed
          intro vacant
          rw [vacant.inviting] at member
          cases member
      · cases performed
  | accept requester token =>
      simp only [Administration.perform] at performed
      rw [guard_eq_ok] at performed
      obtain ⟨invitation, found, addressed, closes⟩ := acceptInvitation_ok performed.2
      obtain ⟨stored, pending, inTime⟩ := openInvitation_ok found
      exact invariant.close stored pending inTime addressed closes
  | register registration token =>
      obtain ⟨invitation, found, closes⟩ := registerAdministrator_ok performed
      obtain ⟨stored, pending, inTime⟩ := openInvitation_ok found
      exact invariant.close stored pending inTime rfl closes
  | joinWorkspace username email => exact invariant.joinWorkspace performed
  | openWorkspace requester slug =>
      simp only [Administration.perform] at performed
      rw [guard_eq_ok, not_not] at performed
      exact invariant.openWorkspace performed.1 performed.2
  | deleteWorkspace slug =>
      cases performed
      refine invariant.move rfl rfl rfl invariant.users invariant.signedIn invariant.inviting ?_
      exact fun vacant => { vacant with organizations := by simp [vacant.organizations] }
  | changeEmail requester email =>
      simp only [Administration.perform] at performed
      rw [guard_eq_ok] at performed
      exact invariant.changeEmail performed.2
  | deleteAccount user =>
      cases performed
      exact invariant.deleteAccount user
  | setFallback account =>
      cases performed
      exact invariant.move rfl rfl rfl invariant.users invariant.signedIn invariant.inviting
        fun vacant => { vacant with }
  | tick seconds =>
      cases performed
      exact invariant.move rfl rfl rfl invariant.users invariant.signedIn invariant.inviting
        fun vacant => { vacant with }

theorem Invariant.step (invariant : Invariant environment state) (action : Action) :
    Invariant environment (step environment state action) := by
  unfold Administration.step
  split
  · next performed => exact invariant.perform performed
  · exact invariant

/-- From a fresh installation on, whatever requests arrive in whatever order,
and whatever accounts and workspaces are deleted: all administrators descend
from the one set-up by invitations in force, and the set-up never opens again. -/
theorem administration_governed (environment : Environment) (actions : List Action) :
    Always (step environment) (Governed environment) {} actions :=
  (always_invariant (Invariant environment) (fun _ action invariant => invariant.step action)
    invariant_fresh actions).imp fun _ invariant => invariant.governed

/-- A set-up, and a second administrator who registers with an invitation whose
sender has left meanwhile. -/
def succession : List Action :=
  let root : User :=
    { id := 0, username := "root", email := "a", isSuperuser := true, isStaff := true }
  [.setUp {
      setupToken := some (String.ofList (List.replicate 32 'k'))
      username := "root"
      email := "a"
      organizationSlug := "main"
      smtp := some { encryptable := true } },
    .signIn 0, .checkInvitation root "b", .writeInvitation 0 "token", .deleteAccount 0,
    .register { username := "heir" } "token"]

example :
    ((run (step {
        text := { lower := id, upper := id, casefold := id }
        normalizeEmail := id
        normalizeUsername := id
        tokenHash := id
        setupToken := String.ofList (List.replicate 32 'k') }) {} succession).users.map
      fun user => (user.id, user.isSuperuser)) = [(1, true)] := by
  decide +kernel

end BubllioCrm.Onboarding.Administration
