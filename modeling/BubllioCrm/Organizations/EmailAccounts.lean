import BubllioCrm.Access.Models
import BubllioCrm.Foundations.Execution
import BubllioCrm.Foundations.Fallible
import BubllioCrm.Foundations.KeyRing
import BubllioCrm.Foundations.Patterns

/-!
Owns the SMTP accounts of the workspaces and of the installation: the key ring
of the settings, the serializer, the requests that create, change and delete
accounts, the command that rotates the keys, and the secrets of queued
messages, which the same keys seal.

A change reads an account, and writes the whole row back later: another request
may come between. A save that is refused may be tried again with the same row,
which the server leaves to a new request. Who may send a request is not owned
here, and neither is the `provider` of an account, which has one value.
-/

namespace BubllioCrm.Organizations.EmailSettings

open BubllioCrm.Foundations
open BubllioCrm.Access (Refusal)

/-- An exception that the view does not catch. -/
def serverError : Refusal := ⟨500, "", ""⟩

/-! ### The key ring -/

/-- `BUBLLIO_EMAIL_ENCRYPTION_KEYS` and `BUBLLIO_EMAIL_ENCRYPTION_KEY`, empty where
they are not set. -/
structure Configuration where
  keyRing : String := ""
  legacyKey : String := ""
deriving DecidableEq

/-- The keys of `_fernet`. -/
def Configuration.keys (configuration : Configuration) : List String :=
  let listed := (((strip configuration.keyRing).toList.splitOn ',').map
    fun key => strip (String.ofList key)).filter (· ≠ "")
  if listed.isEmpty && strip configuration.legacyKey ≠ "" then [strip configuration.legacyKey]
  else listed

/-- The package `cryptography.fernet`. -/
structure Fernet (Key Token : Type) extends Cipher Key Token String where
  /-- `Fernet(key.encode())`, or none where it raises. -/
  parse : String → Option Key

variable {Key Token : Type} (fernet : Fernet Key Token)

def missingKeys : String :=
  "BUBLLIO_EMAIL_ENCRYPTION_KEYS or BUBLLIO_EMAIL_ENCRYPTION_KEY is required " ++
  "to create or use an email account. " ++
  "Generate one with: python -c \"from cryptography.fernet import Fernet; " ++
  "print(Fernet.generate_key().decode())\""

/-- `_fernet`: the ring, or the text of its `ImproperlyConfigured`. -/
def readRing (configuration : Configuration) : Except String (List Key) :=
  if configuration.keys = [] then .error missingKeys
  else
    match configuration.keys.mapM fernet.parse with
    | some ring => .ok ring
    | none => .error "Every configured email encryption key must be a valid Fernet key."

/-- `encrypt_secret`. The ring of a configuration is not empty. -/
def encryptSecret (configuration : Configuration) (nonce : Nat) (secret : String) :
    Except String Token := do
  let ring ← readRing fernet configuration
  match fernet.encryptWith ring nonce secret with
  | some token => .ok token
  | none => .error ""

/-- `decrypt_secret`. -/
def decryptSecret (configuration : Configuration) (token : Token) : Except String String :=
  match (readRing fernet configuration).toOption.bind fun ring => fernet.decryptWith ring token with
  | some secret => .ok secret
  | none => .error
      "The email account credential could not be decrypted. Check the encryption key."

/-- The ring, where it has the two keys that a rotation needs. -/
def rotationRing (configuration : Configuration) : Except String (List Key) := do
  let ring ← readRing fernet configuration
  if ring.length < 2 then
    .error ("Configure a new primary key and the previous key in " ++
      "BUBLLIO_EMAIL_ENCRYPTION_KEYS before rotating credentials.")
  else .ok ring

/-- `rotate_secret`. -/
def rotateSecret (configuration : Configuration) (nonce : Nat) (token : Token) :
    Except String Token := do
  let ring ← rotationRing fernet configuration
  match fernet.rotateWith ring nonce token with
  | some rotated => .ok rotated
  | none =>
      .error "An email account credential could not be rotated. Check the encryption key ring."

/-! ### Accounts -/

structure EmailAccount (Token : Type) where
  id : Nat
  organization : Nat
  name : String
  host : String
  port : Nat
  username : String
  encryptedPassword : Token
  useTls : Bool
  useSsl : Bool
  fromEmail : String
  fromName : String
  isDefault : Bool
  isActive : Bool
deriving DecidableEq

/-- The fields of a request, where those that it leaves out are none. -/
structure Attributes where
  name : Option String := none
  host : Option String := none
  port : Option Nat := none
  username : Option String := none
  password : Option String := none
  useTls : Option Bool := none
  useSsl : Option Bool := none
  fromEmail : Option String := none
  fromName : Option String := none
  isDefault : Option Bool := none
  isActive : Option Bool := none
deriving DecidableEq

/-- `EmailAccountSerializer.validate`. -/
def validate (instance? : Option (EmailAccount Token)) (attrs : Attributes) : Option Refusal :=
  let useTls := attrs.useTls.getD ((instance?.map EmailAccount.useTls).getD true)
  let useSsl := attrs.useSsl.getD ((instance?.map EmailAccount.useSsl).getD false)
  if useTls && useSsl then
    some ⟨400, "non_field_errors", "use_tls and use_ssl cannot both be enabled."⟩
  else if instance?.isNone && attrs.password.getD "" = "" then
    some ⟨400, "password", "This field is required."⟩
  else none

/-- The first of the required fields that a new account lacks. -/
def missingField (attrs : Attributes) : Option Refusal :=
  ([("name", attrs.name), ("host", attrs.host), ("username", attrs.username),
    ("from_email", attrs.fromEmail)].find? fun field => field.2 = none).map
    fun field => ⟨400, field.1, "This field is required."⟩

/-- The check of the field `password`, with `allow_blank=False`. -/
def blankPassword (attrs : Attributes) : Option Refusal :=
  if attrs.password = some "" then some ⟨400, "password", "This field may not be blank."⟩ else none

/-- The row of `EmailAccountSerializer.create`. -/
def newAccount (id organization : Nat) (token : Token) (attrs : Attributes) :
    EmailAccount Token where
  id := id
  organization := organization
  name := attrs.name.getD ""
  host := attrs.host.getD ""
  port := attrs.port.getD 587
  username := attrs.username.getD ""
  encryptedPassword := token
  useTls := attrs.useTls.getD true
  useSsl := attrs.useSsl.getD false
  fromEmail := attrs.fromEmail.getD ""
  fromName := attrs.fromName.getD ""
  isDefault := attrs.isDefault.getD false
  isActive := attrs.isActive.getD true

/-- The attributes that `EmailAccountSerializer.update` sets, the password apart. -/
def EmailAccount.assign (account : EmailAccount Token) (attrs : Attributes) :
    EmailAccount Token :=
  { account with
    name := attrs.name.getD account.name
    host := attrs.host.getD account.host
    port := attrs.port.getD account.port
    username := attrs.username.getD account.username
    useTls := attrs.useTls.getD account.useTls
    useSsl := attrs.useSsl.getD account.useSsl
    fromEmail := attrs.fromEmail.getD account.fromEmail
    fromName := attrs.fromName.getD account.fromName
    isDefault := attrs.isDefault.getD account.isDefault
    isActive := attrs.isActive.getD account.isActive }

/-- The unique constraints keep the two rows apart. -/
def EmailAccount.Clashes (first second : EmailAccount Token) : Prop :=
  first.organization = second.organization ∧
    (first.name = second.name ∨ first.isDefault = true ∧ second.isDefault = true)

instance (first second : EmailAccount Token) : Decidable (first.Clashes second) :=
  inferInstanceAs (Decidable (_ ∧ _))

/-- `filter(organization=organization).update(is_default=False)`, which an update
does for the other accounts. -/
def clearDefault (organization : Nat) (accounts : List (EmailAccount Token)) :
    List (EmailAccount Token) :=
  accounts.map fun row =>
    if row.organization = organization then { row with isDefault := false } else row

/-- `Model.save`: an update of the row with the id, or an insertion where it is
gone. -/
def saveRow (account : EmailAccount Token) (accounts : List (EmailAccount Token)) :
    List (EmailAccount Token) :=
  if ∃ row ∈ accounts, row.id = account.id then
    accounts.map fun row => if row.id = account.id then account else row
  else accounts ++ [account]

/-! ### The system -/

/-- Where a change came from: the settings of a workspace, or those of the
installation with the value of `allow_personal_workspaces`. -/
inductive Origin where
  | workspace
  | installation (allow : Option Bool)
deriving DecidableEq

/-- A change between the reading of its account and the save. -/
structure Patch (Token : Type) where
  account : EmailAccount Token
  attrs : Attributes
  origin : Origin
  /-- The rotations before the account was read, and the password that had been
  entered last. -/
  rotations : Nat
  expected : Option String
deriving DecidableEq

/-- An outbox message with a secret, and of the secret what no row keeps: the key
that sealed it and its text. -/
structure Message (Key Token : Type) where
  /-- `encrypted_data`, which a delivery empties. -/
  encryptedData : Option Token
  key : Key
  secret : String
deriving DecidableEq

structure System (Key Token : Type) where
  configuration : Configuration := {}
  /-- In the order of their creation. -/
  organizations : List Nat := []
  accounts : List (EmailAccount Token) := []
  nextAccount : Nat := 0
  /-- `InstallationState.fallback_email_account`. -/
  fallback : Option Nat := none
  allowPersonalWorkspaces : Bool := false
  outbox : List (Message Key Token) := []
  patches : List (Patch Token) := []
  /-- The passwords that were entered for the accounts, the newest first. -/
  entered : List (Nat × String) := []
  /-- The rotations so far. -/
  rotations : Nat := 0
  /-- The keys were rotated under the present configuration. -/
  rotatedHere : Bool := false
deriving DecidableEq

/-- The password that was last entered for the account. -/
def System.newest (system : System Key Token) (account : Nat) : Option String :=
  (system.entered.find? fun entry => entry.1 = account).map Prod.snd

/-- The tables after the account was saved, unless the constraints refuse. -/
def System.store (account : EmailAccount Token) (accounts : List (EmailAccount Token))
    (system : System Key Token) : Except Refusal (System Key Token) :=
  if account.organization ∉ system.organizations ∨
      ∃ row ∈ accounts, row.id ≠ account.id ∧ row.Clashes account then .error serverError
  else .ok { system with accounts := saveRow account accounts }

/-- The accounts without another default, where the request sets one. -/
def System.spared (system : System Key Token) (organization : Nat) (isDefault : Option Bool) :
    List (EmailAccount Token) :=
  if isDefault = some true then clearDefault organization system.accounts else system.accounts

/-- How a save fails: with a response or an exception that undoes the request, or
without a usable key ring. -/
inductive Failure where
  | refused (refusal : Refusal)
  | improperlyConfigured (message : String)
deriving DecidableEq

/-- `EmailAccountListCreateAPIView.post`. -/
def createAccount (organization : Nat) (attrs : Attributes) (nonce : Nat)
    (system : System Key Token) : Except Failure (System Key Token) :=
  match (missingField attrs).or
      ((blankPassword attrs).or (validate (none : Option (EmailAccount Token)) attrs)) with
  | some refusal => .error (.refused refusal)
  | none => do
      let password := attrs.password.getD ""
      let token ← (encryptSecret fernet system.configuration nonce password).mapError
        .improperlyConfigured
      let stored ← (system.store (newAccount system.nextAccount organization token attrs)
        (system.spared organization attrs.isDefault)).mapError .refused
      .ok { stored with
        nextAccount := system.nextAccount + 1
        entered := (system.nextAccount, password) :: system.entered }

/-- The first half of a change: the account is read and the request is validated. -/
def readAccount (origin : Origin) (id : Nat) (attrs : Attributes) (system : System Key Token) :
    Except Refusal (System Key Token) :=
  match system.accounts.find? fun row => row.id = id with
  | none => .error ⟨404, "detail", "No EmailAccount matches the given query."⟩
  | some account =>
      match (blankPassword attrs).or (validate (some account) attrs) with
      | some refusal => .error refusal
      | none => .ok { system with
          patches := system.patches ++ [{
            account := account
            attrs := attrs
            origin := origin
            rotations := system.rotations
            expected := system.newest id }] }

/-- What `EmailAccountSerializer.update` makes of the account that was read. -/
def Patch.updated (patch : Patch Token) (nonce : Nat) (configuration : Configuration) :
    Except String (EmailAccount Token) :=
  if patch.attrs.password.getD "" = "" then .ok (patch.account.assign patch.attrs)
  else do
    let token ← encryptSecret fernet configuration nonce (patch.attrs.password.getD "")
    .ok ({ patch.account with encryptedPassword := token }.assign patch.attrs)

/-- The password that the request enters. -/
def Patch.enter (patch : Patch Token) (system : System Key Token) : System Key Token :=
  if patch.attrs.password.getD "" = "" then system
  else { system with
    entered := (patch.account.id, patch.attrs.password.getD "") :: system.entered }

/-- The last lines of `InstallationSettingsAPIView.patch`. The test of the
fallback account comes after its assignment: it saves nothing by itself. -/
def settle (account : Nat) (origin : Origin) (system : System Key Token) : System Key Token :=
  match origin with
  | .installation (some allow) =>
      { system with fallback := some account, allowPersonalWorkspaces := allow }
  | _ => system

/-- The second half of a change: the whole row is written. -/
def savePatch (patch : Patch Token) (nonce : Nat) (system : System Key Token) :
    Except Failure (System Key Token) := do
  let account ← (patch.updated fernet nonce system.configuration).mapError .improperlyConfigured
  let stored ← (system.store account
    (system.spared account.organization patch.attrs.isDefault)).mapError .refused
  .ok (settle account.id patch.origin (patch.enter stored))

/-- What a request answers, where it refuses, and what it leaves. -/
structure Answer (Key Token : Type) where
  refusal : Option Refusal
  system : System Key Token

/-- A request whose exceptions undo it. -/
def undoing (system : System Key Token) : Except Refusal (System Key Token) → Answer Key Token
  | .ok after => ⟨none, after⟩
  | .error refusal => ⟨some refusal, system⟩

/-- A change of a workspace account: the exception of the key ring is not caught. -/
def inWorkspace (system : System Key Token) : Except Failure (System Key Token) → Answer Key Token
  | .ok after => ⟨none, after⟩
  | .error (.refused refusal) => ⟨some refusal, system⟩
  | .error (.improperlyConfigured _) => ⟨some serverError, system⟩

/-- A change of the installation account: the exception of the key ring is caught
inside the transaction, which then commits what came before. -/
def inInstallation (organization : Nat) (system : System Key Token) :
    Except Failure (System Key Token) → Answer Key Token
  | .ok after => ⟨none, after⟩
  | .error (.refused refusal) => ⟨some refusal, system⟩
  | .error (.improperlyConfigured message) => ⟨some ⟨400, "smtp", message⟩,
      { system with accounts := clearDefault organization system.accounts }⟩

/-- The fields with which the settings of the installation are about SMTP. -/
def Attributes.hasSmtpField (attrs : Attributes) : Bool :=
  attrs.name.isSome || attrs.host.isSome || attrs.port.isSome || attrs.username.isSome ||
    attrs.password.isSome || attrs.fromEmail.isSome

/-- `InstallationSettingsAPIView.patch` up to the save of an account that exists. -/
def patchInstallation (allow : Option Bool) (attrs : Attributes) (nonce : Nat)
    (system : System Key Token) : Answer Key Token :=
  let payload := { attrs with isDefault := some true, isActive := some true }
  match allow, attrs.hasSmtpField with
  | some allowed, false => ⟨none, { system with allowPersonalWorkspaces := allowed }⟩
  | _, _ =>
      match system.fallback, system.organizations.head? with
      | some account, _ =>
          undoing system (readAccount (.installation allow) account payload system)
      | none, none => ⟨some ⟨400, "detail",
          "Create the first workspace before configuring installation SMTP."⟩, system⟩
      | none, some organization =>
          inInstallation organization system
            ((createAccount fernet organization payload nonce system).map
              (settle system.nextAccount (.installation allow)))

/-- `EmailAccountDetailAPIView.delete`, where the fallback forgets the account. -/
def deleteAccount (id : Nat) (system : System Key Token) : System Key Token :=
  { system with
    accounts := system.accounts.filter (·.id ≠ id)
    fallback := if system.fallback = some id then none else system.fallback }

/-- The deletion of a workspace takes its accounts with it. -/
def deleteOrganization (organization : Nat) (system : System Key Token) : System Key Token :=
  { system with
    organizations := system.organizations.filter (· ≠ organization)
    accounts := system.accounts.filter (·.organization ≠ organization)
    fallback := system.fallback.filter fun id =>
      ¬ ∃ row ∈ system.accounts, row.id = id ∧ row.organization = organization }

/-- The loop of the command `rotate_email_encryption`, with a nonce for each account. -/
def rotateAccounts (nonces : Nat → Nat) (configuration : Configuration)
    (accounts : List (EmailAccount Token)) : Except String (List (EmailAccount Token)) := do
  let _ ← rotationRing fernet configuration
  accounts.mapM fun row =>
    (rotateSecret fernet configuration (nonces row.id) row.encryptedPassword).map fun token =>
      { row with encryptedPassword := token }

/-- The command `rotate_email_encryption`, which fails without a change. -/
def rotate (nonces : Nat → Nat) (system : System Key Token) :
    Except Refusal (System Key Token) :=
  match rotateAccounts fernet nonces system.configuration system.accounts with
  | .error message => .error ⟨1, "CommandError", message⟩
  | .ok accounts => .ok { system with
      accounts := accounts
      rotations := system.rotations + 1
      rotatedHere := true }

/-- `queue_outbox_message` of a message with a secret. -/
def queueMessage (secret : String) (nonce : Nat) (system : System Key Token) :
    Except Refusal (System Key Token) :=
  match readRing fernet system.configuration with
  | .error _ => .error serverError
  | .ok [] => .error serverError
  | .ok (key :: _) => .ok { system with
      outbox := system.outbox ++ [{
        encryptedData := some (fernet.encrypt key nonce secret)
        key := key
        secret := secret }] }

inductive Action where
  | configure (configuration : Configuration)
  | createOrganization (id : Nat)
  | deleteOrganization (id : Nat)
  | createAccount (organization : Nat) (attrs : Attributes) (nonce : Nat)
  | readAccount (id : Nat) (attrs : Attributes)
  | patchInstallation (allow : Option Bool) (attrs : Attributes) (nonce : Nat)
  | savePatch (index nonce : Nat)
  | deleteAccount (id : Nat)
  | rotate (nonces : Nat → Nat)
  | queueMessage (secret : String) (nonce : Nat)
  | deliver (index : Nat)

/-- The save of the change at the index, which ends its request. -/
def saveAt (index nonce : Nat) (system : System Key Token) : Answer Key Token :=
  match system.patches[index]? with
  | none => ⟨some serverError, system⟩
  | some patch =>
      let saved := (savePatch fernet patch nonce system).map fun after =>
        { after with patches := system.patches.eraseIdx index }
      match patch.origin with
      | .workspace => inWorkspace system saved
      | .installation _ => inInstallation patch.account.organization system saved

/-- What an action answers and what it makes of the system. -/
def perform (system : System Key Token) : Action → Answer Key Token
  | .configure configuration =>
      ⟨none, { system with configuration := configuration, rotatedHere := false }⟩
  | .createOrganization id =>
      if id ∈ system.organizations then ⟨some serverError, system⟩
      else ⟨none, { system with organizations := system.organizations ++ [id] }⟩
  | .deleteOrganization id => ⟨none, deleteOrganization id system⟩
  | .createAccount organization attrs nonce =>
      inWorkspace system (createAccount fernet organization attrs nonce system)
  | .readAccount id attrs => undoing system (readAccount .workspace id attrs system)
  | .patchInstallation allow attrs nonce => patchInstallation fernet allow attrs nonce system
  | .savePatch index nonce => saveAt fernet index nonce system
  | .deleteAccount id => ⟨none, deleteAccount id system⟩
  | .rotate nonces => undoing system (rotate fernet nonces system)
  | .queueMessage secret nonce => undoing system (queueMessage fernet secret nonce system)
  | .deliver index => ⟨none, { system with
      outbox := system.outbox.modify index fun message => { message with encryptedData := none } }⟩

def step (system : System Key Token) (action : Action) : System Key Token :=
  (perform fernet system action).system

/-! ### Rows -/

variable {fernet} {system after : System Key Token} {accounts : List (EmailAccount Token)}
  {row account first second : EmailAccount Token} {patch : Patch Token} {attrs : Attributes}
  {organization nonce : Nat}

theorem mem_saveRow :
    row ∈ saveRow account accounts ↔ row = account ∨ row ∈ accounts ∧ row.id ≠ account.id := by
  unfold saveRow
  split
  · next present =>
      obtain ⟨old, stored, isOld⟩ := present
      rw [List.mem_map]
      constructor
      · rintro ⟨before, member, rfl⟩
        split
        · exact Or.inl rfl
        · next isOther => exact Or.inr ⟨member, isOther⟩
      · rintro (rfl | ⟨member, isOther⟩)
        · exact ⟨old, stored, if_pos isOld⟩
        · exact ⟨row, member, if_neg isOther⟩
  · next absent =>
      rw [List.mem_append, List.mem_singleton, or_comm]
      refine or_congr_right
        ⟨fun member => ⟨member, fun same => absent ⟨row, member, same⟩⟩, And.left⟩

theorem nodup_saveRow (identified : (accounts.map EmailAccount.id).Nodup) :
    ((saveRow account accounts).map EmailAccount.id).Nodup := by
  unfold saveRow
  split
  · have sameIds : (accounts.map fun row => if row.id = account.id then account else row).map
        EmailAccount.id = accounts.map EmailAccount.id := by
      rw [List.map_map]
      apply List.map_congr_left
      intro row _
      by_cases same : row.id = account.id
      · simp [same]
      · simp [same]
    exact sameIds ▸ identified
  · next absent =>
      rw [List.map_append, List.map_singleton, List.nodup_append]
      refine ⟨identified, List.nodup_singleton _, ?_⟩
      intro id old other isNew same
      obtain ⟨row, stored, rfl⟩ := List.mem_map.mp old
      exact absent ⟨row, stored, same.trans (List.mem_singleton.mp isNew)⟩

/-- The second row is the first one with perhaps another token and no default any more. -/
structure EmailAccount.Redraws (old row : EmailAccount Token) : Prop where
  id : row.id = old.id
  organization : row.organization = old.organization
  name : row.name = old.name
  useTls : row.useTls = old.useTls
  useSsl : row.useSsl = old.useSsl
  isDefault : row.isDefault = true → old.isDefault = true

theorem mem_clearDefault (member : row ∈ clearDefault organization accounts) :
    ∃ old ∈ accounts, old.Redraws row ∧ row.encryptedPassword = old.encryptedPassword := by
  obtain ⟨old, stored, rfl⟩ := List.mem_map.mp member
  refine ⟨old, stored, ?_⟩
  split
  · exact ⟨⟨rfl, rfl, rfl, rfl, rfl, fun isDefault => nomatch isDefault⟩, rfl⟩
  · exact ⟨⟨rfl, rfl, rfl, rfl, rfl, fun isDefault => isDefault⟩, rfl⟩

theorem map_id_clearDefault (organization : Nat) (accounts : List (EmailAccount Token)) :
    (clearDefault organization accounts).map EmailAccount.id = accounts.map EmailAccount.id := by
  unfold clearDefault
  rw [List.map_map]
  apply List.map_congr_left
  intro row _
  simp only [Function.comp_apply]
  split <;> rfl

theorem validate_eq_none {instance? : Option (EmailAccount Token)}
    (valid : validate instance? attrs = none) :
    ¬ (attrs.useTls.getD ((instance?.map EmailAccount.useTls).getD true) = true ∧
      attrs.useSsl.getD ((instance?.map EmailAccount.useSsl).getD false) = true) := by
  intro both
  simp [validate, both.1, both.2] at valid

/-! ### Coherence -/

/-- No account is sent through both TLS and SSL, the unique constraints hold,
every account has its workspace, and the fallback is an account. -/
structure Coherent (system : System Key Token) : Prop where
  secure : ∀ row ∈ system.accounts, ¬ (row.useTls = true ∧ row.useSsl = true)
  identified : (system.accounts.map EmailAccount.id).Nodup
  distinct : ∀ first ∈ system.accounts, ∀ second ∈ system.accounts, first.id ≠ second.id →
    ¬ first.Clashes second
  placed : ∀ row ∈ system.accounts, row.organization ∈ system.organizations
  fallback : ∀ id ∈ system.fallback, ∃ row ∈ system.accounts, row.id = id

/-- Coherence with what the changes on their way will write. -/
structure Invariant (system : System Key Token) : Prop extends Coherent system where
  patches : ∀ patch ∈ system.patches, ¬ ((patch.account.assign patch.attrs).useTls = true ∧
    (patch.account.assign patch.attrs).useSsl = true)

theorem invariant_empty : Invariant ({} : System Key Token) where
  secure := by simp
  identified := by simp
  distinct := by simp
  placed := by simp
  fallback := by simp
  patches := by simp

/-- Rows that were redrawn keep the invariant. -/
theorem Invariant.redraw (invariant : Invariant system)
    (sameIds : accounts.map EmailAccount.id = system.accounts.map EmailAccount.id)
    (redrawn : ∀ row ∈ accounts, ∃ old ∈ system.accounts, old.Redraws row) :
    Invariant { system with accounts := accounts } where
  secure := by
    intro row member both
    obtain ⟨old, stored, same⟩ := redrawn row member
    exact invariant.secure old stored (same.useTls ▸ same.useSsl ▸ both)
  identified := sameIds.symm ▸ invariant.identified
  distinct := by
    intro first isFirst second isSecond different clashes
    obtain ⟨old, stored, same⟩ := redrawn first isFirst
    obtain ⟨other, otherStored, otherSame⟩ := redrawn second isSecond
    apply invariant.distinct old stored other otherStored (same.id ▸ otherSame.id ▸ different)
    refine ⟨same.organization ▸ otherSame.organization ▸ clashes.1, ?_⟩
    exact clashes.2.imp (fun names => same.name ▸ otherSame.name ▸ names)
      (And.imp same.isDefault otherSame.isDefault)
  placed := by
    intro row member
    obtain ⟨old, stored, same⟩ := redrawn row member
    exact same.organization ▸ invariant.placed old stored
  fallback := by
    intro id isFallback
    obtain ⟨row, stored, isRow⟩ := invariant.fallback id isFallback
    have known : id ∈ accounts.map EmailAccount.id := by
      rw [sameIds, ← isRow]
      exact List.mem_map_of_mem stored
    obtain ⟨redrawnRow, member, isRedrawn⟩ := List.mem_map.mp known
    exact ⟨redrawnRow, member, isRedrawn⟩
  patches := invariant.patches

theorem Invariant.clearDefault (invariant : Invariant system) (organization : Nat) :
    Invariant { system with accounts := clearDefault organization system.accounts } :=
  invariant.redraw (map_id_clearDefault organization system.accounts) fun _ member =>
    let ⟨old, stored, same, _⟩ := mem_clearDefault member
    ⟨old, stored, same⟩

theorem Invariant.spared (invariant : Invariant system) (organization : Nat)
    (isDefault : Option Bool) :
    Invariant { system with accounts := system.spared organization isDefault } := by
  unfold System.spared
  split
  · exact invariant.clearDefault organization
  · exact invariant

theorem store_ok (stored : system.store account accounts = .ok after) :
    account.organization ∈ system.organizations ∧
      (∀ row ∈ accounts, row.id ≠ account.id → ¬ row.Clashes account) ∧
        after = { system with accounts := saveRow account accounts } := by
  unfold System.store at stored
  rw [guard_eq_ok, not_or, not_not, not_exists] at stored
  obtain ⟨⟨placed, apart⟩, isAfter⟩ := stored
  cases isAfter
  exact ⟨placed, fun row member other clashes => apart row ⟨member, other, clashes⟩, rfl⟩

theorem EmailAccount.Clashes.symm (clashes : first.Clashes second) : second.Clashes first :=
  ⟨clashes.1.symm, clashes.2.imp Eq.symm And.symm⟩

/-- Storing an account that is not sent through both keeps the invariant. -/
theorem Invariant.store (invariant : Invariant { system with accounts := accounts })
    (secure : ¬ (account.useTls = true ∧ account.useSsl = true))
    (stored : system.store account accounts = .ok after) : Invariant after := by
  obtain ⟨placed, apart, rfl⟩ := store_ok stored
  constructor
  case patches => exact invariant.patches
  constructor
  case secure =>
    intro row member
    rcases mem_saveRow.mp member with rfl | ⟨old, -⟩
    · exact secure
    · exact invariant.secure row old
  case identified => exact nodup_saveRow invariant.identified
  case distinct =>
    intro first isFirst second isSecond different clashes
    rcases mem_saveRow.mp isFirst with rfl | ⟨old, isOther⟩
    · rcases mem_saveRow.mp isSecond with rfl | ⟨other, -⟩
      · exact different rfl
      · exact apart second other (Ne.symm different) clashes.symm
    · rcases mem_saveRow.mp isSecond with rfl | ⟨other, -⟩
      · exact apart first old isOther clashes
      · exact invariant.distinct first old second other different clashes
  case placed =>
    intro row member
    rcases mem_saveRow.mp member with rfl | ⟨old, -⟩
    · exact placed
    · exact invariant.placed row old
  case fallback =>
    intro id isFallback
    obtain ⟨row, old, isRow⟩ := invariant.fallback id isFallback
    by_cases same : row.id = account.id
    · exact ⟨account, mem_saveRow.mpr (Or.inl rfl), same ▸ isRow⟩
    · exact ⟨row, mem_saveRow.mpr (Or.inr ⟨old, same⟩), isRow⟩

theorem mapError_eq_ok {Error Other Value : Type} {change : Error → Other}
    {result : Except Error Value} {value : Value} :
    result.mapError change = .ok value ↔ result = .ok value := by
  cases result <;> simp [Except.mapError]

/-- A created account is one that the serializer found valid, stored under a token
of the first key. -/
theorem createAccount_ok
    (created : createAccount fernet organization attrs nonce system = .ok after) :
    ∃ token stored, encryptSecret fernet system.configuration nonce (attrs.password.getD "") =
        .ok token ∧
      system.store (newAccount system.nextAccount organization token attrs)
        (system.spared organization attrs.isDefault) = .ok stored ∧
      validate (none : Option (EmailAccount Token)) attrs = none ∧
      after = { stored with
        nextAccount := system.nextAccount + 1
        entered := (system.nextAccount, attrs.password.getD "") :: system.entered } := by
  unfold createAccount at created
  split at created
  · cases created
  · next valid =>
      simp only [bind_eq_ok, mapError_eq_ok] at created
      obtain ⟨token, isToken, stored, isStored, isAfter⟩ := created
      cases isAfter
      have isValid := (Option.or_eq_none_iff.mp (Option.or_eq_none_iff.mp valid).2).2
      exact ⟨token, stored, isToken, isStored, isValid, rfl⟩

theorem Invariant.createAccount (invariant : Invariant system)
    (created : createAccount fernet organization attrs nonce system = .ok after) :
    Invariant after := by
  obtain ⟨token, stored, -, isStored, valid, rfl⟩ := createAccount_ok created
  have secure : ¬ ((newAccount system.nextAccount organization token attrs).useTls = true ∧
      (newAccount system.nextAccount organization token attrs).useSsl = true) :=
    validate_eq_none valid
  have kept := (invariant.spared organization attrs.isDefault).store secure isStored
  exact { kept with }

/-- A change that was read is a valid one of a stored account. -/
theorem readAccount_ok {origin : Origin} {id : Nat}
    (read : readAccount origin id attrs system = .ok after) :
    ∃ account ∈ system.accounts, account.id = id ∧ validate (some account) attrs = none ∧
      after = { system with
        patches := system.patches ++ [{
          account := account
          attrs := attrs
          origin := origin
          rotations := system.rotations
          expected := system.newest id }] } := by
  unfold readAccount at read
  split at read
  · cases read
  · next account found =>
      split at read
      · cases read
      · next valid =>
          cases read
          obtain ⟨stored, isId⟩ := mem_of_find found
          exact ⟨account, stored, isId, (Option.or_eq_none_iff.mp valid).2, rfl⟩

theorem Invariant.readAccount (invariant : Invariant system) {origin : Origin} {id : Nat}
    (read : readAccount origin id attrs system = .ok after) : Invariant after := by
  obtain ⟨account, -, -, valid, rfl⟩ := readAccount_ok read
  have updated := validate_eq_none valid
  constructor
  case toCoherent => exact { invariant.toCoherent with }
  case patches =>
    intro patch member
    rcases List.mem_append.mp member with old | new
    · exact invariant.patches patch old
    · rw [List.mem_singleton.mp new]
      exact updated

/-- What a change writes: the row as it was read with the attributes of the request,
and with a new token of the first key where the request enters a password. -/
theorem updated_ok {configuration : Configuration}
    (updated : patch.updated fernet nonce configuration = .ok account) :
    (patch.attrs.password.getD "" = "" ∧ account = patch.account.assign patch.attrs) ∨
      ∃ token, patch.attrs.password.getD "" ≠ "" ∧
        encryptSecret fernet configuration nonce (patch.attrs.password.getD "") = .ok token ∧
          account = { patch.account with encryptedPassword := token }.assign patch.attrs := by
  unfold Patch.updated at updated
  split at updated
  · next noPassword =>
      cases updated
      exact Or.inl ⟨noPassword, rfl⟩
  · next hasPassword =>
      rw [bind_eq_ok] at updated
      obtain ⟨token, isToken, isAccount⟩ := updated
      cases isAccount
      exact Or.inr ⟨token, hasPassword, isToken, rfl⟩

theorem savePatch_ok (saved : savePatch fernet patch nonce system = .ok after) :
    ∃ account stored, patch.updated fernet nonce system.configuration = .ok account ∧
      system.store account (system.spared account.organization patch.attrs.isDefault) =
        .ok stored ∧ after = settle account.id patch.origin (patch.enter stored) := by
  unfold savePatch at saved
  simp only [bind_eq_ok, mapError_eq_ok] at saved
  obtain ⟨account, isUpdated, stored, isStored, isAfter⟩ := saved
  cases isAfter
  exact ⟨account, stored, isUpdated, isStored, rfl⟩

theorem Invariant.enter (invariant : Invariant system) (patch : Patch Token) :
    Invariant (patch.enter system) := by
  unfold Patch.enter
  split
  · exact invariant
  · exact { invariant with }

/-- The settings of the installation point to an account that is stored. -/
theorem Invariant.settle (invariant : Invariant system) {origin : Origin} {id : Nat}
    (stored : ∃ row ∈ system.accounts, row.id = id) : Invariant (settle id origin system) := by
  unfold EmailSettings.settle
  split
  · constructor
    case patches => exact invariant.patches
    case toCoherent =>
      exact { invariant.toCoherent with
        fallback := fun other isFallback => Option.some.inj isFallback ▸ stored }
  · exact invariant

@[simp] theorem accounts_enter : (patch.enter system).accounts = system.accounts := by
  unfold Patch.enter
  split <;> rfl

theorem stored_mem (stored : system.store account accounts = .ok after) :
    account ∈ after.accounts := by
  obtain ⟨-, -, rfl⟩ := store_ok stored
  exact mem_saveRow.mpr (Or.inl rfl)

theorem Invariant.savePatch (invariant : Invariant system) (onItsWay : patch ∈ system.patches)
    (saved : savePatch fernet patch nonce system = .ok after) : Invariant after := by
  obtain ⟨account, stored, isUpdated, isStored, rfl⟩ := savePatch_ok saved
  have secure : ¬ (account.useTls = true ∧ account.useSsl = true) := by
    rcases updated_ok isUpdated with ⟨-, rfl⟩ | ⟨token, -, -, rfl⟩
    · exact invariant.patches patch onItsWay
    · exact invariant.patches patch onItsWay
  have kept := (invariant.spared account.organization patch.attrs.isDefault).store secure isStored
  apply (kept.enter patch).settle
  rw [accounts_enter]
  exact ⟨account, stored_mem isStored, rfl⟩

/-! ### Answers -/

theorem undoing_holds (holds : System Key Token → Prop)
    {result : Except Refusal (System Key Token)} (before : holds system)
    (done : ∀ after, result = .ok after → holds after) : holds (undoing system result).system := by
  cases result with
  | ok after => exact done after rfl
  | error refusal => exact before

theorem inWorkspace_holds (holds : System Key Token → Prop)
    {result : Except Failure (System Key Token)} (before : holds system)
    (done : ∀ after, result = .ok after → holds after) :
    holds (inWorkspace system result).system := by
  cases result with
  | ok after => exact done after rfl
  | error failure => cases failure <;> exact before

/-- What holds after a change of the installation account must hold without the
default accounts of its workspace too. -/
theorem inInstallation_holds (holds : System Key Token → Prop)
    {result : Except Failure (System Key Token)} (before : holds system)
    (cleared : holds { system with accounts := clearDefault organization system.accounts })
    (done : ∀ after, result = .ok after → holds after) :
    holds (inInstallation organization system result).system := by
  cases result with
  | ok after => exact done after rfl
  | error failure =>
      cases failure with
      | refused refusal => exact before
      | improperlyConfigured message => exact cleared

/-- The rule for the save of a change. -/
theorem saveAt_holds (holds : System Key Token → Prop) {index : Nat} (before : holds system)
    (cleared : ∀ organization,
      holds { system with accounts := clearDefault organization system.accounts })
    (done : ∀ patch after, system.patches[index]? = some patch →
      savePatch fernet patch nonce system = .ok after →
        holds { after with patches := system.patches.eraseIdx index }) :
    holds (saveAt fernet index nonce system).system := by
  unfold saveAt
  split
  · exact before
  · next patch found =>
      have saved : ∀ after, (savePatch fernet patch nonce system).map (fun after =>
          { after with patches := system.patches.eraseIdx index }) = .ok after → holds after := by
        intro after isAfter
        obtain ⟨stored, isStored, rfl⟩ := map_eq_ok.mp isAfter
        exact done patch stored found isStored
      dsimp only
      split
      · exact inWorkspace_holds holds before saved
      · exact inInstallation_holds holds before (cleared patch.account.organization) saved

/-- The rule for a request for the settings of the installation. -/
theorem patchInstallation_holds (holds : System Key Token → Prop) {allow : Option Bool}
    (before : holds system)
    (allowed : ∀ value, holds { system with allowPersonalWorkspaces := value })
    (cleared : ∀ organization,
      holds { system with accounts := clearDefault organization system.accounts })
    (read : ∀ origin id attrs after, readAccount origin id attrs system = .ok after → holds after)
    (created : ∀ organization attrs origin after,
      createAccount fernet organization attrs nonce system = .ok after →
        holds (settle system.nextAccount origin after)) :
    holds (patchInstallation fernet allow attrs nonce system).system := by
  unfold patchInstallation
  dsimp only
  split
  · exact allowed _
  · split
    · exact undoing_holds holds before (read _ _ _)
    · exact before
    · refine inInstallation_holds holds before (cleared _) ?_
      intro after isAfter
      obtain ⟨stored, isStored, rfl⟩ := map_eq_ok.mp isAfter
      exact created _ _ _ stored isStored

theorem Invariant.saveAt (invariant : Invariant system) (index : Nat) :
    Invariant (saveAt fernet index nonce system).system := by
  apply saveAt_holds Invariant invariant invariant.clearDefault
  intro patch after found saved
  have kept := invariant.savePatch (List.mem_of_getElem? found) saved
  exact { kept with
    patches := fun other member => invariant.patches other (List.mem_of_mem_eraseIdx member) }

theorem Invariant.patchInstallation (invariant : Invariant system) (allow : Option Bool) :
    Invariant (patchInstallation fernet allow attrs nonce system).system := by
  refine patchInstallation_holds Invariant invariant (fun _ => { invariant with })
    invariant.clearDefault (fun _ _ _ _ read => invariant.readAccount read) ?_
  intro organization attrs origin after created
  apply (invariant.createAccount created).settle
  obtain ⟨token, stored, -, isStored, -, rfl⟩ := createAccount_ok created
  have isThere := stored_mem isStored
  exact ⟨newAccount system.nextAccount organization token attrs, isThere, rfl⟩

theorem Invariant.filter (invariant : Invariant system) {keep : EmailAccount Token → Bool}
    {organizations : List Nat} {fallback : Option Nat}
    (placed : ∀ row ∈ system.accounts, keep row = true → row.organization ∈ organizations)
    (isFallback : ∀ id ∈ fallback, ∃ row ∈ system.accounts, keep row = true ∧ row.id = id) :
    Invariant { system with
      accounts := system.accounts.filter keep
      organizations := organizations
      fallback := fallback } := by
  constructor
  case patches => exact invariant.patches
  constructor
  case secure => exact fun row member => invariant.secure row (List.mem_filter.mp member).1
  case identified => exact invariant.identified.sublist (List.filter_sublist.map _)
  case distinct =>
    exact fun first isFirst second isSecond =>
      invariant.distinct first (List.mem_filter.mp isFirst).1 second (List.mem_filter.mp isSecond).1
  case placed =>
    intro row member
    obtain ⟨stored, isKept⟩ := List.mem_filter.mp member
    exact placed row stored isKept
  case fallback =>
    intro id member
    obtain ⟨row, stored, isKept, isRow⟩ := isFallback id member
    exact ⟨row, List.mem_filter.mpr ⟨stored, isKept⟩, isRow⟩

/-- A rotation gives every account a token in the place of its own. -/
theorem rotateAccounts_ok {nonces : Nat → Nat} {configuration : Configuration}
    {rotated : List (EmailAccount Token)}
    (done : rotateAccounts fernet nonces configuration accounts = .ok rotated) :
    rotated.map EmailAccount.id = accounts.map EmailAccount.id ∧
      ∀ row ∈ rotated, ∃ old ∈ accounts, ∃ token,
        rotateSecret fernet configuration (nonces old.id) old.encryptedPassword = .ok token ∧
          { old with encryptedPassword := token } = row := by
  unfold rotateAccounts at done
  rw [bind_eq_ok] at done
  obtain ⟨-, -, done⟩ := done
  constructor
  · induction accounts generalizing rotated with
    | nil =>
        rw [List.mapM_nil, pure_eq_ok] at done
        exact done ▸ rfl
    | cons row rest inductionHypothesis =>
        simp only [List.mapM_cons, bind_eq_ok, pure_eq_ok, map_eq_ok] at done
        obtain ⟨-, ⟨token, -, rfl⟩, others, areOthers, rfl⟩ := done
        rw [List.map_cons, List.map_cons, inductionHypothesis areOthers]
  · intro row member
    obtain ⟨old, stored, isRow⟩ := (mem_mapM done row).mp member
    exact ⟨old, stored, map_eq_ok.mp isRow⟩

theorem rotate_ok {nonces : Nat → Nat} (done : rotate fernet nonces system = .ok after) :
    ∃ rotated, rotateAccounts fernet nonces system.configuration system.accounts = .ok rotated ∧
      after = { system with
        accounts := rotated
        rotations := system.rotations + 1
        rotatedHere := true } := by
  unfold rotate at done
  split at done
  · cases done
  · next rotated isRotated =>
      cases done
      exact ⟨rotated, isRotated, rfl⟩

theorem Invariant.rotate (invariant : Invariant system) {nonces : Nat → Nat}
    (done : rotate fernet nonces system = .ok after) : Invariant after := by
  obtain ⟨rotated, isRotated, rfl⟩ := rotate_ok done
  obtain ⟨sameIds, fromOld⟩ := rotateAccounts_ok isRotated
  have kept : Invariant { system with accounts := rotated } := by
    apply invariant.redraw sameIds
    intro row member
    obtain ⟨old, stored, token, -, rfl⟩ := fromOld row member
    exact ⟨old, stored, ⟨rfl, rfl, rfl, rfl, rfl, fun isDefault => isDefault⟩⟩
  exact { kept with }

theorem queueMessage_ok {secret : String}
    (queued : queueMessage fernet secret nonce system = .ok after) :
    ∃ key, after = { system with
      outbox := system.outbox ++ [{
        encryptedData := some (fernet.encrypt key nonce secret)
        key := key
        secret := secret }] } ∧
      ∃ ring, readRing fernet system.configuration = .ok ring ∧ key ∈ ring := by
  unfold queueMessage at queued
  split at queued
  · cases queued
  · cases queued
  · next key rest isRing =>
      cases queued
      exact ⟨key, rfl, _, isRing, List.mem_cons_self⟩

theorem Invariant.withOutbox (invariant : Invariant system) (outbox : List (Message Key Token)) :
    Invariant { system with outbox := outbox } :=
  { invariant with }

theorem Invariant.queueMessage (invariant : Invariant system) {secret : String}
    (queued : queueMessage fernet secret nonce system = .ok after) : Invariant after := by
  obtain ⟨key, rfl, -⟩ := queueMessage_ok queued
  exact invariant.withOutbox _

theorem Invariant.step (invariant : Invariant system) (action : Action) :
    Invariant (step fernet system action) := by
  cases action with
  | configure configuration => exact { invariant with }
  | createOrganization id =>
      simp only [EmailSettings.step, perform]
      split
      · exact invariant
      · exact { invariant with
          placed := fun row member => List.mem_append_left _ (invariant.placed row member) }
  | deleteOrganization id =>
      apply invariant.filter
      · intro row member isOther
        exact List.mem_filter.mpr ⟨invariant.placed row member, isOther⟩
      · intro account isFallback
        obtain ⟨isAccount, stays⟩ := Option.mem_filter_iff.mp isFallback
        obtain ⟨row, member, isRow⟩ := invariant.fallback account isAccount
        refine ⟨row, member, ?_, isRow⟩
        have elsewhere := of_decide_eq_true stays
        exact decide_eq_true fun same => elsewhere ⟨row, member, isRow, same⟩
  | createAccount organization attrs nonce =>
      simp only [EmailSettings.step, perform]
      exact inWorkspace_holds Invariant invariant fun _ created => invariant.createAccount created
  | readAccount id attrs =>
      simp only [EmailSettings.step, perform]
      exact undoing_holds Invariant invariant fun _ read => invariant.readAccount read
  | patchInstallation allow attrs nonce => exact invariant.patchInstallation allow
  | savePatch index nonce => exact invariant.saveAt index
  | deleteAccount id =>
      apply invariant.filter
      · exact fun row member _ => invariant.placed row member
      · intro account isFallback
        split at isFallback
        · cases isFallback
        · next isOther =>
            obtain ⟨row, member, isRow⟩ := invariant.fallback account isFallback
            refine ⟨row, member, decide_eq_true ?_, isRow⟩
            rintro rfl
            exact isOther (isRow ▸ isFallback)
  | rotate nonces =>
      simp only [EmailSettings.step, perform]
      exact undoing_holds Invariant invariant fun _ done => invariant.rotate done
  | queueMessage secret nonce =>
      simp only [EmailSettings.step, perform]
      exact undoing_holds Invariant invariant fun _ queued => invariant.queueMessage queued
  | deliver index =>
      simp only [EmailSettings.step, perform]
      exact invariant.withOutbox _

/-- However the requests for the accounts interleave, in whatever order they read
and write their rows. -/
theorem accounts_coherent (fernet : Fernet Key Token) (actions : List Action) :
    Always (step fernet) Coherent {} actions :=
  (always_invariant Invariant (fun _ action invariant => invariant.step action) invariant_empty
    actions).imp fun _ invariant => invariant.toCoherent

/-! ### Refused requests -/

/-- The workspace whose default accounts a request for the settings of the
installation clears before it needs the key ring. -/
def clearedFirst (system : System Key Token) : Action → Option Nat
  | .patchInstallation _ _ _ =>
      if system.fallback = none then system.organizations.head? else none
  | .savePatch index _ =>
      match system.patches[index]? with
      | none => none
      | some patch => if patch.origin = .workspace then none else some patch.account.organization
  | _ => none

/-- The refusal is the one of the settings of the installation for a key ring that
cannot be used, and the workspace has a default account. -/
def Forgets (system : System Key Token) (refusal : Refusal) (organization? : Option Nat) : Prop :=
  refusal.key = "smtp" ∧ ∃ organization ∈ organization?, ∃ row ∈ system.accounts,
    row.organization = organization ∧ row.isDefault = true

theorem clearDefault_eq_self :
    clearDefault organization accounts = accounts ↔
      ¬ ∃ row ∈ accounts, row.organization = organization ∧ row.isDefault = true := by
  unfold clearDefault
  conv_lhs => rhs; rw [← List.map_id accounts]
  rw [List.map_inj_left]
  push Not
  refine forall₂_congr fun row _ => ?_
  by_cases inside : row.organization = organization
  · rw [if_pos inside, id]
    constructor
    · intro same _ isDefault
      rw [← same] at isDefault
      cases isDefault
    · intro noDefault
      obtain ⟨⟩ := row
      simp only [EmailAccount.mk.injEq, true_and, and_true]
      exact (Bool.eq_false_iff.mpr (noDefault inside)).symm
  · simp [inside]

theorem key_ne_smtp_of_validate {instance? : Option (EmailAccount Token)} {refusal : Refusal}
    (invalid : validate instance? attrs = some refusal) : refusal.key ≠ "smtp" := by
  unfold validate at invalid
  dsimp only at invalid
  split at invalid
  · cases invalid
    decide
  · split at invalid
    · cases invalid
      decide
    · cases invalid

theorem key_ne_smtp_of_blankPassword {refusal : Refusal}
    (blank : blankPassword attrs = some refusal) : refusal.key ≠ "smtp" := by
  unfold blankPassword at blank
  split at blank
  · cases blank
    decide
  · cases blank

theorem key_ne_smtp_of_missingField {refusal : Refusal}
    (missing : missingField attrs = some refusal) : refusal.key ≠ "smtp" := by
  unfold missingField at missing
  rw [Option.map_eq_some_iff] at missing
  obtain ⟨field, found, rfl⟩ := missing
  have member := List.mem_of_find?_eq_some found
  simp only [List.mem_cons, List.not_mem_nil, or_false] at member
  rcases member with rfl | rfl | rfl | rfl <;> simp

theorem store_eq_error {refusal : Refusal}
    (refused : system.store account accounts = .error refusal) : refusal = serverError := by
  unfold System.store at refused
  split at refused
  · cases refused
    rfl
  · cases refused

theorem mapError_eq_error {Error Other Value : Type} {change : Error → Other}
    {result : Except Error Value} {error : Other} :
    result.mapError change = .error error ↔ ∃ before, result = .error before ∧
      change before = error := by
  cases result <;> simp [Except.mapError]

theorem createAccount_refused {refusal : Refusal}
    (refused : createAccount fernet organization attrs nonce system = .error (.refused refusal)) :
    refusal.key ≠ "smtp" := by
  unfold createAccount at refused
  split at refused
  · next found =>
      cases refused
      rcases Option.or_eq_some_iff.mp found with missing | ⟨-, unmet⟩
      · exact key_ne_smtp_of_missingField missing
      · rcases Option.or_eq_some_iff.mp unmet with blank | ⟨-, invalid⟩
        · exact key_ne_smtp_of_blankPassword blank
        · exact key_ne_smtp_of_validate invalid
  · simp only [bind_eq_error, mapError_eq_error] at refused
    rcases refused with
      ⟨message, -, impossible⟩ | ⟨token, -, ⟨before, isStored, same⟩ | ⟨stored, -, impossible⟩⟩
    · cases impossible
    · cases same
      rw [store_eq_error isStored]
      decide
    · cases impossible

theorem savePatch_refused {refusal : Refusal}
    (refused : savePatch fernet patch nonce system = .error (.refused refusal)) :
    refusal.key ≠ "smtp" := by
  unfold savePatch at refused
  simp only [bind_eq_error, mapError_eq_error] at refused
  rcases refused with
    ⟨message, -, impossible⟩ | ⟨account, -, ⟨before, isStored, same⟩ | ⟨stored, -, impossible⟩⟩
  · cases impossible
  · cases same
    rw [store_eq_error isStored]
    decide
  · cases impossible

/-- A refused change of the installation account. -/
theorem inInstallation_refused {result : Except Failure (System Key Token)} {refusal : Refusal}
    (other : ∀ reason, result = .error (.refused reason) → reason.key ≠ "smtp")
    (refused : (inInstallation organization system result).refusal = some refusal) :
    (inInstallation organization system result).system = system ↔
      ¬ Forgets system refusal (some organization) := by
  cases result with
  | ok after => cases refused
  | error failure =>
      cases failure with
      | refused reason =>
          cases refused
          exact iff_of_true rfl fun forgets => other _ rfl forgets.1
      | improperlyConfigured message =>
          cases refused
          have sameSystem : { system with
              accounts := clearDefault organization system.accounts } = system ↔
              clearDefault organization system.accounts = system.accounts :=
            ⟨congrArg System.accounts, fun same => by rw [same]⟩
          simp only [inInstallation, sameSystem, clearDefault_eq_self, Forgets, true_and,
            Option.mem_some_iff, exists_eq_left']

theorem undoing_refused {result : Except Refusal (System Key Token)} {refusal : Refusal}
    (refused : (undoing system result).refusal = some refusal) :
    (undoing system result).system = system := by
  cases result with
  | ok after => cases refused
  | error reason => rfl

theorem inWorkspace_refused {result : Except Failure (System Key Token)} {refusal : Refusal}
    (refused : (inWorkspace system result).refusal = some refusal) :
    (inWorkspace system result).system = system := by
  cases result with
  | ok after => cases refused
  | error failure => cases failure <;> rfl

theorem not_forgets_none {refusal : Refusal} : ¬ Forgets system refusal none := by
  rintro ⟨-, organization, impossible, -⟩
  cases impossible

theorem saveAt_refused {index : Nat} {refusal : Refusal}
    (refused : (saveAt fernet index nonce system).refusal = some refusal) :
    (saveAt fernet index nonce system).system = system ↔
      ¬ Forgets system refusal (clearedFirst system (.savePatch index nonce)) := by
  unfold saveAt clearedFirst at *
  cases found : system.patches[index]? with
  | none =>
      simp only [found]
      exact iff_of_true trivial not_forgets_none
  | some patch =>
      simp only [found] at refused ⊢
      cases isOrigin : patch.origin with
      | workspace =>
          simp only [isOrigin] at refused ⊢
          exact iff_of_true (inWorkspace_refused refused) not_forgets_none
      | installation allow =>
          simp only [isOrigin] at refused ⊢
          rw [if_neg (by simp)]
          apply inInstallation_refused ?_ refused
          intro reason isReason
          cases isSaved : savePatch fernet patch nonce system with
          | ok after => simp [isSaved, Except.map] at isReason
          | error failure =>
              rw [isSaved] at isReason
              cases isReason
              exact savePatch_refused isSaved

theorem patchInstallation_refused {allow : Option Bool} {refusal : Refusal}
    (refused : (patchInstallation fernet allow attrs nonce system).refusal = some refusal) :
    (patchInstallation fernet allow attrs nonce system).system = system ↔
      ¬ Forgets system refusal
        (clearedFirst system (.patchInstallation allow attrs nonce)) := by
  unfold patchInstallation at *
  dsimp only [clearedFirst] at *
  split at refused
  · cases refused
  · split at refused
    · next isSome =>
        rw [isSome, if_neg (by simp)]
        exact iff_of_true (undoing_refused refused) not_forgets_none
    · next isNone noPlace =>
        rw [isNone, if_pos rfl, noPlace]
        exact iff_of_true rfl not_forgets_none
    · next organization isNone place =>
        rw [isNone, if_pos rfl, place]
        apply inInstallation_refused ?_ refused
        intro reason isReason
        cases isCreated : createAccount fernet organization
            { attrs with isDefault := some true, isActive := some true } nonce system with
        | ok after => simp [isCreated, Except.map] at isReason
        | error failure =>
            rw [isCreated] at isReason
            cases isReason
            exact createAccount_refused isCreated

/-- A refused request leaves everything as it was, except where the settings of the
installation refuse for the key ring: then the default accounts of the workspace
have been cleared, and stay cleared. -/
theorem refused_unchanged_iff (fernet : Fernet Key Token) (system : System Key Token)
    (action : Action) (refusal : Refusal)
    (refused : (perform fernet system action).refusal = some refusal) :
    (perform fernet system action).system = system ↔
      ¬ Forgets system refusal (clearedFirst system action) := by
  cases action with
  | configure configuration => cases refused
  | createOrganization id =>
      refine iff_of_true ?_ not_forgets_none
      simp only [perform] at refused ⊢
      split at refused
      · next taken => rw [if_pos taken]
      · cases refused
  | deleteOrganization id => cases refused
  | createAccount organization attrs nonce =>
      simp only [perform] at refused ⊢
      exact iff_of_true (inWorkspace_refused refused) not_forgets_none
  | readAccount id attrs =>
      simp only [perform] at refused ⊢
      exact iff_of_true (undoing_refused refused) not_forgets_none
  | patchInstallation allow attrs nonce => exact patchInstallation_refused refused
  | savePatch index nonce => exact saveAt_refused refused
  | deleteAccount id => cases refused
  | rotate nonces =>
      simp only [perform] at refused ⊢
      exact iff_of_true (undoing_refused refused) not_forgets_none
  | queueMessage secret nonce =>
      simp only [perform] at refused ⊢
      exact iff_of_true (undoing_refused refused) not_forgets_none
  | deliver index => cases refused

/-- A cipher that writes its key beside the text, and takes texts of the length of
32 bytes in Base64 for keys. -/
def tagged : Fernet String (String × String) where
  encrypt key _ plain := (key, plain)
  decrypt key token := if token.1 = key then some token.2 else none
  parse text := if text.utf8ByteSize = 44 then some text else none

def firstKey : String := "AAAAAAAAAAAAAAAAAAAAAAAAAAAAAAAAAAAAAAAAAAA="

/-- A workspace with a default account, on a server without keys. -/
def keyless : System String (String × String) where
  organizations := [0]
  accounts := [{
    id := 0
    organization := 0
    name := "Sales"
    host := "smtp.example.com"
    port := 587
    username := "sales"
    encryptedPassword := (firstKey, "secret")
    useTls := true
    useSsl := false
    fromEmail := "sales@example.com"
    fromName := ""
    isDefault := true
    isActive := true }]
  nextAccount := 1

def installationSmtp : Attributes where
  name := some "Installation"
  host := some "smtp.example.com"
  username := some "crm"
  password := some "secret"
  fromEmail := some "crm@example.com"

theorem keyless_forgets :
    (perform tagged keyless (.patchInstallation none installationSmtp 0)).system ≠ keyless := by
  have refused : (perform tagged keyless (.patchInstallation none installationSmtp 0)).refusal =
      some ⟨400, "smtp", missingKeys⟩ := by decide +kernel
  intro same
  exact (refused_unchanged_iff tagged keyless _ _ refused).mp same
    ⟨rfl, 0, rfl, _, List.mem_singleton_self _, rfl, rfl⟩

end BubllioCrm.Organizations.EmailSettings
