import BubllioCrm.Organizations.EmailAccounts

/-!
Owns what becomes of stored secrets while keys are rotated, accounts are changed
and the server is given other keys: under the documented rotation every account
opens to the password that was entered last, and a queued secret is lost with
the key that sealed it, since the rotation passes the queue by.

The keys are those that were generated: none opens a token of another.
-/

namespace BubllioCrm.Organizations.EmailSettings

open BubllioCrm.Foundations

variable {Key Token : Type} {fernet : Fernet Key Token} {generated : Set Key}
  {system after : System Key Token} {configuration : Configuration} {nonce : Nat}

/-- The keys of the configuration, none where it is not valid. -/
def ringOf (fernet : Fernet Key Token) (configuration : Configuration) : List Key :=
  (readRing fernet configuration).toOption.getD []

theorem readRing_eq_ok {ring : List Key} (read : readRing fernet configuration = .ok ring) :
    ringOf fernet configuration = ring := by
  simp [ringOf, read, Except.toOption]

theorem encryptSecret_ok {secret : String} {token : Token}
    (encrypted : encryptSecret fernet configuration nonce secret = .ok token) :
    ∃ key, (ringOf fernet configuration).head? = some key ∧
      fernet.encrypt key nonce secret = token := by
  unfold encryptSecret at encrypted
  rw [bind_eq_ok] at encrypted
  obtain ⟨ring, isRing, rest⟩ := encrypted
  split at rest
  · next isToken =>
      cases rest
      rw [readRing_eq_ok isRing]
      exact Cipher.encryptWith_eq_some.mp isToken
  · cases rest

/-- A valid or an empty ring of generated keys opens a token exactly when it has the
key of the token. -/
theorem decryptSecret_sealed (separates : fernet.Separates generated)
    (known : ∀ other ∈ ringOf fernet configuration, other ∈ generated) {key : Key}
    (isGenerated : key ∈ generated) {secret : String} {token : Token}
    (isSealed : fernet.Sealed key secret token) :
    decryptSecret fernet configuration token = .ok secret ↔
      key ∈ ringOf fernet configuration := by
  have opens : (readRing fernet configuration).toOption.bind
      (fun ring => fernet.decryptWith ring token) =
      fernet.decryptWith (ringOf fernet configuration) token := by
    unfold ringOf
    cases readRing fernet configuration with
    | error message => rfl
    | ok ring => rfl
  rw [← Cipher.decryptWith_sealed separates known isGenerated isSealed, ← opens]
  unfold decryptSecret
  split
  · next found => rw [found, Except.ok.injEq, Option.some.injEq]
  · next absent => simp [absent]

/-! ### The discipline of the keys -/

/-- The new keys are generated ones, and they have all the present ones. Only after
a rotation under the present configuration may the first key be enough. -/
def Retains (fernet : Fernet Key Token) (generated : Set Key) (system : System Key Token)
    (configuration : Configuration) : Prop :=
  (∀ key ∈ ringOf fernet configuration, key ∈ generated) ∧
    ((∀ key ∈ ringOf fernet system.configuration, key ∈ ringOf fernet configuration) ∨
      system.rotatedHere = true ∧
        ∀ key ∈ (ringOf fernet system.configuration).head?, key ∈ ringOf fernet configuration)

/-- The change enters a password, or neither a rotation nor another password has
come between its reading and its save. -/
def Timely (system : System Key Token) (patch : Patch Token) : Prop :=
  patch.attrs.password.getD "" ≠ "" ∨
    patch.rotations = system.rotations ∧ patch.expected = system.newest patch.account.id

instance (system : System Key Token) (patch : Patch Token) : Decidable (Timely system patch) :=
  inferInstanceAs (Decidable (_ ∨ _))

/-- The documented rotation, and changes that do not write back an old token. -/
def Disciplined (fernet : Fernet Key Token) (generated : Set Key) (system : System Key Token) :
    Action → Prop
  | .configure configuration => Retains fernet generated system configuration
  | .savePatch index _ => ∀ patch ∈ system.patches[index]?, Timely system patch
  | _ => True

instance (system : System Key Token) (index nonce : Nat) :
    Decidable (Disciplined fernet generated system (.savePatch index nonce)) :=
  inferInstanceAs (Decidable (∀ patch ∈ system.patches[index]?, Timely system patch))

/-- Every account opens to the password that was entered last for it. -/
def Readable (fernet : Fernet Key Token) (system : System Key Token) : Prop :=
  ∀ row ∈ system.accounts, ∃ password, system.newest row.id = some password ∧
    decryptSecret fernet system.configuration row.encryptedPassword = .ok password

/-! ### The invariant -/

/-- The token holds the password under a key of the ring, after a rotation under
the first. -/
def Held (fernet : Fernet Key Token) (ring : List Key) (rotated : Bool)
    (password : Option String) (token : Token) : Prop :=
  ∃ key ∈ ring, ∃ plain, password = some plain ∧ fernet.Sealed key plain token ∧
    (rotated = true → ring.head? = some key)

structure Kept (fernet : Fernet Key Token) (generated : Set Key) (system : System Key Token) :
    Prop where
  known : ∀ key ∈ ringOf fernet system.configuration, key ∈ generated
  held : ∀ row ∈ system.accounts,
    Held fernet (ringOf fernet system.configuration) system.rotatedHere (system.newest row.id)
      row.encryptedPassword
  copied : ∀ patch ∈ system.patches, patch.rotations = system.rotations →
    Held fernet (ringOf fernet system.configuration) system.rotatedHere patch.expected
      patch.account.encryptedPassword
  counted : ∀ patch ∈ system.patches, patch.rotations ≤ system.rotations
  numbered : ∀ row ∈ system.accounts, row.id < system.nextAccount
  copiesNumbered : ∀ patch ∈ system.patches, patch.account.id < system.nextAccount

theorem kept_empty : Kept fernet generated ({} : System Key Token) where
  known := by
    have noKeys : ({} : Configuration).keys = [] := by decide +kernel
    simp [ringOf, readRing, noKeys, Except.toOption]
  held := by simp
  copied := by simp
  counted := by simp
  numbered := by simp
  copiesNumbered := by simp

theorem Kept.readable (kept : Kept fernet generated system)
    (separates : fernet.Separates generated) : Readable fernet system := by
  intro row stored
  obtain ⟨key, member, password, isNewest, isSealed, -⟩ := kept.held row stored
  exact ⟨password, isNewest,
    (decryptSecret_sealed separates kept.known (kept.known key member) isSealed).mpr member⟩

/-- A new token is held under the first key. -/
theorem held_encryptSecret {secret : String} {token : Token} {rotated : Bool}
    (encrypted : encryptSecret fernet configuration nonce secret = .ok token) :
    Held fernet (ringOf fernet configuration) rotated (some secret) token := by
  obtain ⟨key, isFirst, rfl⟩ := encryptSecret_ok encrypted
  exact ⟨key, List.mem_of_mem_head? isFirst, secret, rfl, Cipher.sealed_encrypt key nonce secret,
    fun _ => isFirst⟩

theorem rotateSecret_ok {token rotated : Token}
    (done : rotateSecret fernet configuration nonce token = .ok rotated) :
    fernet.rotateWith (ringOf fernet configuration) nonce token = some rotated := by
  unfold rotateSecret rotationRing at done
  rw [bind_eq_ok] at done
  obtain ⟨ring, isLong, rest⟩ := done
  rw [bind_eq_ok] at isLong
  obtain ⟨read, isRing, same⟩ := isLong
  rw [guard_eq_ok, Except.ok.injEq] at same
  split at rest
  · next isRotated =>
      cases rest
      rw [readRing_eq_ok isRing, same.2]
      exact isRotated
  · cases rest

/-! ### What keeps the invariant -/

/-- Rows that keep their ids and tokens. -/
theorem Kept.rows (kept : Kept fernet generated system) {accounts : List (EmailAccount Token)}
    (redrawn : ∀ row ∈ accounts, ∃ old ∈ system.accounts,
      row.id = old.id ∧ row.encryptedPassword = old.encryptedPassword) :
    Kept fernet generated { system with accounts := accounts } where
  known := kept.known
  held := by
    intro row member
    obtain ⟨old, stored, sameId, sameToken⟩ := redrawn row member
    rw [sameId, sameToken]
    exact kept.held old stored
  copied := kept.copied
  counted := kept.counted
  numbered := by
    intro row member
    obtain ⟨old, stored, sameId, -⟩ := redrawn row member
    exact sameId ▸ kept.numbered old stored
  copiesNumbered := kept.copiesNumbered

theorem Kept.clearDefault (kept : Kept fernet generated system) (organization : Nat) :
    Kept fernet generated
      { system with accounts := clearDefault organization system.accounts } := by
  apply kept.rows
  intro row member
  obtain ⟨old, stored, same, sameToken⟩ := mem_clearDefault member
  exact ⟨old, stored, same.id, sameToken⟩

theorem Kept.spared (kept : Kept fernet generated system) (organization : Nat)
    (isDefault : Option Bool) :
    Kept fernet generated { system with accounts := system.spared organization isDefault } := by
  unfold System.spared
  split
  · exact kept.clearDefault organization
  · exact kept

theorem Kept.filter (kept : Kept fernet generated system) (keep : EmailAccount Token → Bool) :
    Kept fernet generated { system with accounts := system.accounts.filter keep } :=
  kept.rows fun row member => ⟨row, (List.mem_filter.mp member).1, rfl, rfl⟩

/-- A row is saved together with the password that was entered for it. -/
theorem Kept.saveRow (kept : Kept fernet generated system) {account : EmailAccount Token}
    {entered : List (Nat × String)} {nextAccount : Nat}
    (others : ∀ id, id ≠ account.id →
      System.newest { system with entered := entered } id = system.newest id)
    (held : Held fernet (ringOf fernet system.configuration) system.rotatedHere
      (System.newest { system with entered := entered } account.id) account.encryptedPassword)
    (numbered : account.id < nextAccount) (grows : system.nextAccount ≤ nextAccount) :
    Kept fernet generated { system with
      accounts := saveRow account system.accounts
      entered := entered
      nextAccount := nextAccount } where
  known := kept.known
  held := by
    intro row member
    rcases mem_saveRow.mp member with rfl | ⟨old, isOther⟩
    · exact held
    · have same := others row.id isOther
      change Held _ _ _ (System.newest { system with entered := entered } row.id) _
      rw [same]
      exact kept.held row old
  copied := kept.copied
  counted := kept.counted
  numbered := by
    intro row member
    rcases mem_saveRow.mp member with rfl | ⟨old, -⟩
    · exact numbered
    · exact (kept.numbered row old).trans_le grows
  copiesNumbered := fun patch member => (kept.copiesNumbered patch member).trans_le grows

@[simp] theorem newest_entered_self (id : Nat) (password : String) (rest : List (Nat × String)) :
    System.newest { system with entered := (id, password) :: rest } id = some password := by
  simp [System.newest]

theorem newest_entered_other {id other : Nat} (password : String) (different : other ≠ id) :
    System.newest { system with entered := (id, password) :: system.entered } other =
      system.newest other := by
  simp [System.newest, Ne.symm different]

theorem Kept.createAccount (kept : Kept fernet generated system) {organization : Nat}
    {attrs : Attributes}
    (created : createAccount fernet organization attrs nonce system = .ok after) :
    Kept fernet generated after := by
  obtain ⟨token, stored, isToken, isStored, -, rfl⟩ := createAccount_ok created
  obtain ⟨-, -, rfl⟩ := store_ok isStored
  refine Kept.saveRow (kept.spared organization attrs.isDefault) ?_ ?_ (Nat.lt_succ_self _)
    (Nat.le_succ _)
  · exact fun id different => newest_entered_other _ different
  · change Held _ _ _ (System.newest
      { system with entered := (system.nextAccount, attrs.password.getD "") :: system.entered }
      system.nextAccount) token
    rw [newest_entered_self]
    exact held_encryptSecret isToken

theorem Kept.readAccount (kept : Kept fernet generated system) {origin : Origin} {id : Nat}
    {attrs : Attributes} (read : readAccount origin id attrs system = .ok after) :
    Kept fernet generated after := by
  obtain ⟨account, stored, isId, -, rfl⟩ := readAccount_ok read
  constructor
  case copied =>
    intro patch member current
    rcases List.mem_append.mp member with old | new
    · exact kept.copied patch old current
    · rw [List.mem_singleton.mp new, ← isId]
      exact kept.held account stored
  case counted =>
    intro patch member
    rcases List.mem_append.mp member with old | new
    · exact kept.counted patch old
    · rw [List.mem_singleton.mp new]
  case copiesNumbered =>
    intro patch member
    rcases List.mem_append.mp member with old | new
    · exact kept.copiesNumbered patch old
    · rw [List.mem_singleton.mp new]
      exact kept.numbered account stored
  case known => exact kept.known
  case held => exact kept.held
  case numbered => exact kept.numbered

theorem Kept.settle (kept : Kept fernet generated system) (account : Nat) (origin : Origin) :
    Kept fernet generated (settle account origin system) := by
  unfold EmailSettings.settle
  split
  · exact { kept with }
  · exact kept

theorem Kept.savePatch (kept : Kept fernet generated system) {patch : Patch Token}
    (onItsWay : patch ∈ system.patches) (timely : Timely system patch)
    (saved : savePatch fernet patch nonce system = .ok after) : Kept fernet generated after := by
  obtain ⟨account, stored, isUpdated, isStored, rfl⟩ := savePatch_ok saved
  obtain ⟨-, -, rfl⟩ := store_ok isStored
  have spared := kept.spared account.organization patch.attrs.isDefault
  have numbered := kept.copiesNumbered patch onItsWay
  apply Kept.settle
  unfold Patch.enter
  rcases updated_ok isUpdated with ⟨noPassword, rfl⟩ | ⟨token, hasPassword, isToken, rfl⟩
  · rw [if_pos noPassword]
    obtain ⟨sameRotations, isNewest⟩ := timely.resolve_left (not_not.mpr noPassword)
    refine Kept.saveRow spared (fun id _ => rfl) ?_ numbered le_rfl
    change Held _ _ _ (system.newest patch.account.id) patch.account.encryptedPassword
    rw [← isNewest]
    exact kept.copied patch onItsWay sameRotations
  · rw [if_neg hasPassword]
    refine Kept.saveRow spared (fun id different => newest_entered_other _ different) ?_ numbered
      le_rfl
    change Held _ _ _ (System.newest { system with
      entered := (patch.account.id, patch.attrs.password.getD "") :: system.entered }
      patch.account.id) token
    rw [newest_entered_self]
    exact held_encryptSecret isToken

theorem Kept.rotate (kept : Kept fernet generated system)
    (separates : fernet.Separates generated) {nonces : Nat → Nat}
    (done : rotate fernet nonces system = .ok after) : Kept fernet generated after := by
  obtain ⟨rotated, isRotated, rfl⟩ := rotate_ok done
  obtain ⟨-, fromOld⟩ := rotateAccounts_ok isRotated
  constructor
  case held =>
    intro row member
    obtain ⟨old, stored, token, isToken, rfl⟩ := fromOld row member
    obtain ⟨key, hasKey, plain, isNewest, isSealed, -⟩ := kept.held old stored
    obtain ⟨primary, isFirst, isRotation⟩ :=
      Cipher.rotateWith_sealed separates kept.known hasKey isSealed (nonces old.id)
    rw [rotateSecret_ok isToken, Option.some.injEq] at isRotation
    exact ⟨primary, List.mem_of_mem_head? isFirst, plain, isNewest,
      isRotation ▸ Cipher.sealed_encrypt primary (nonces old.id) plain, fun _ => isFirst⟩
  case copied =>
    intro patch member current
    have earlier := kept.counted patch member
    simp only at current
    omega
  case counted => exact fun patch member => (kept.counted patch member).trans (Nat.le_succ _)
  case numbered =>
    intro row member
    obtain ⟨old, stored, token, -, rfl⟩ := fromOld row member
    exact kept.numbered old stored
  case known => exact kept.known
  case copiesNumbered => exact kept.copiesNumbered

theorem Held.retained {ring later : List Key} {rotated : Bool} {password : Option String}
    {token : Token} (held : Held fernet ring rotated password token)
    (retains : (∀ key ∈ ring, key ∈ later) ∨ rotated = true ∧ ∀ key ∈ ring.head?, key ∈ later) :
    Held fernet later false password token := by
  obtain ⟨key, member, plain, isPassword, isSealed, isFirst⟩ := held
  refine ⟨key, ?_, plain, isPassword, isSealed, fun impossible => nomatch impossible⟩
  rcases retains with all | ⟨isRotated, first⟩
  · exact all key member
  · exact first key (isFirst isRotated)

theorem Kept.configure (kept : Kept fernet generated system)
    (retains : Retains fernet generated system configuration) :
    Kept fernet generated { system with configuration := configuration, rotatedHere := false } where
  known := retains.1
  held := fun row stored => (kept.held row stored).retained retains.2
  copied := fun patch member current => (kept.copied patch member current).retained retains.2
  counted := kept.counted
  numbered := kept.numbered
  copiesNumbered := kept.copiesNumbered

/-- A save changes accounts and what was entered, and nothing on its way. -/
theorem savePatch_frame {patch : Patch Token}
    (saved : savePatch fernet patch nonce system = .ok after) :
    after.patches = system.patches ∧ after.configuration = system.configuration ∧
      after.outbox = system.outbox := by
  obtain ⟨account, stored, -, isStored, rfl⟩ := savePatch_ok saved
  obtain ⟨-, -, rfl⟩ := store_ok isStored
  unfold settle Patch.enter
  split <;> split <;> exact ⟨rfl, rfl, rfl⟩

theorem Kept.saveAt (kept : Kept fernet generated system) {index : Nat}
    (timely : ∀ patch ∈ system.patches[index]?, Timely system patch) :
    Kept fernet generated (saveAt fernet index nonce system).system := by
  apply saveAt_holds (Kept fernet generated) kept kept.clearDefault
  intro patch after found saved
  have now := kept.savePatch (List.mem_of_getElem? found) (timely patch found) saved
  have onTheirWay : ∀ other ∈ system.patches.eraseIdx index, other ∈ after.patches := by
    intro other member
    rw [(savePatch_frame saved).1]
    exact List.mem_of_mem_eraseIdx member
  exact { now with
    copied := fun other member => now.copied other (onTheirWay other member)
    counted := fun other member => now.counted other (onTheirWay other member)
    copiesNumbered := fun other member => now.copiesNumbered other (onTheirWay other member) }

theorem Kept.step (kept : Kept fernet generated system) (separates : fernet.Separates generated)
    {action : Action} (disciplined : Disciplined fernet generated system action) :
    Kept fernet generated (step fernet system action) := by
  cases action with
  | configure configuration => exact kept.configure disciplined
  | createOrganization id =>
      simp only [EmailSettings.step, perform]
      split
      · exact kept
      · exact { kept with }
  | deleteOrganization id =>
      have filtered := kept.filter fun row => row.organization ≠ id
      exact { filtered with }
  | createAccount organization attrs nonce =>
      simp only [EmailSettings.step, perform]
      exact inWorkspace_holds (Kept fernet generated) kept fun _ created =>
        kept.createAccount created
  | readAccount id attrs =>
      simp only [EmailSettings.step, perform]
      exact undoing_holds (Kept fernet generated) kept fun _ read => kept.readAccount read
  | patchInstallation allow attrs nonce =>
      simp only [EmailSettings.step, perform]
      exact patchInstallation_holds (Kept fernet generated) kept (fun _ => { kept with })
        kept.clearDefault (fun _ _ _ _ read => kept.readAccount read)
        fun _ _ origin _ created => (kept.createAccount created).settle _ origin
  | savePatch index nonce => exact kept.saveAt disciplined
  | deleteAccount id =>
      have filtered := kept.filter fun row => row.id ≠ id
      exact { filtered with }
  | rotate nonces =>
      simp only [EmailSettings.step, perform]
      exact undoing_holds (Kept fernet generated) kept fun _ done => kept.rotate separates done
  | queueMessage secret nonce =>
      simp only [EmailSettings.step, perform]
      refine undoing_holds (Kept fernet generated) kept fun _ queued => ?_
      obtain ⟨key, rfl, -⟩ := queueMessage_ok queued
      exact { kept with }
  | deliver index =>
      simp only [EmailSettings.step, perform]
      exact { kept with }

theorem tagged_separates : tagged.Separates Set.univ where
  decrypt_encrypt := by simp [tagged]
  decrypt_other := by
    intro key _ other _ different nonce plain
    simp [tagged, Ne.symm different]

def secondKey : String := "AQEBAQEBAQEBAQEBAQEBAQEBAQEBAQEBAQEBAQEBAQE="

/-- The documented rotation, with a change of the account after it. -/
def rotation : List Action :=
  [.createOrganization 0, .configure { keyRing := firstKey },
    .createAccount 0 installationSmtp 0, .queueMessage "token" 0,
    .configure { keyRing := secondKey ++ ", " ++ firstKey }, .rotate id,
    .readAccount 0 { port := some 25 }, .savePatch 0 0,
    .configure { keyRing := secondKey }]

/-- The server when it has rotated its keys. -/
def rotatedServer : System String (String × String) where
  configuration := { keyRing := secondKey ++ ", " ++ firstKey }
  organizations := [0]
  accounts := [newAccount 0 0 (secondKey, "secret") installationSmtp]
  nextAccount := 1
  outbox := [⟨some (firstKey, "token"), firstKey, "token"⟩]
  entered := [(0, "secret")]
  rotations := 1
  rotatedHere := true

theorem run_rotatedServer : run (step tagged) {} (rotation.take 6) = rotatedServer := by
  decide +kernel

/-- A configuration names generated keys. -/
def NamesGenerated (fernet : Fernet Key Token) (generated : Set Key) : Action → Prop
  | .configure configuration => ∀ key ∈ ringOf fernet configuration, key ∈ generated
  | _ => True

/-- A queued secret opens exactly while its key is in the ring. -/
def QueueOpens (fernet : Fernet Key Token) (system : System Key Token) : Prop :=
  ∀ message ∈ system.outbox, ∀ token ∈ message.encryptedData,
    (decryptSecret fernet system.configuration token = .ok message.secret ↔
      message.key ∈ ringOf fernet system.configuration)

structure Queued (fernet : Fernet Key Token) (generated : Set Key) (system : System Key Token) :
    Prop where
  known : ∀ key ∈ ringOf fernet system.configuration, key ∈ generated
  sealedWith : ∀ message ∈ system.outbox, ∀ token ∈ message.encryptedData,
    message.key ∈ generated ∧ fernet.Sealed message.key message.secret token

theorem queued_empty : Queued fernet generated ({} : System Key Token) where
  known := (@kept_empty _ _ fernet generated).known
  sealedWith := by simp

theorem Queued.opens (queued : Queued fernet generated system)
    (separates : fernet.Separates generated) : QueueOpens fernet system := by
  intro message member token isToken
  obtain ⟨isGenerated, isSealed⟩ := queued.sealedWith message member token isToken
  exact decryptSecret_sealed separates queued.known isGenerated isSealed

/-- What changes neither the configuration nor the queue. -/
theorem Queued.frame (queued : Queued fernet generated system)
    (sameConfiguration : after.configuration = system.configuration)
    (sameOutbox : after.outbox = system.outbox) : Queued fernet generated after where
  known := sameConfiguration ▸ queued.known
  sealedWith := sameOutbox ▸ queued.sealedWith

theorem Queued.createAccount (queued : Queued fernet generated system) {organization : Nat}
    {attrs : Attributes}
    (created : createAccount fernet organization attrs nonce system = .ok after) :
    Queued fernet generated after := by
  obtain ⟨token, stored, -, isStored, -, rfl⟩ := createAccount_ok created
  obtain ⟨-, -, rfl⟩ := store_ok isStored
  exact queued.frame rfl rfl

theorem Queued.readAccount (queued : Queued fernet generated system) {origin : Origin} {id : Nat}
    {attrs : Attributes} (read : readAccount origin id attrs system = .ok after) :
    Queued fernet generated after := by
  obtain ⟨account, -, -, -, rfl⟩ := readAccount_ok read
  exact queued.frame rfl rfl

theorem Queued.settle (queued : Queued fernet generated system) (account : Nat) (origin : Origin) :
    Queued fernet generated (settle account origin system) := by
  unfold EmailSettings.settle
  split
  · exact queued.frame rfl rfl
  · exact queued

theorem Queued.queueMessage (queued : Queued fernet generated system) {secret : String}
    (added : queueMessage fernet secret nonce system = .ok after) :
    Queued fernet generated after := by
  obtain ⟨key, rfl, ring, isRing, member⟩ := queueMessage_ok added
  constructor
  case known => exact queued.known
  case sealedWith =>
    intro message stored token isToken
    rcases List.mem_append.mp stored with old | new
    · exact queued.sealedWith message old token isToken
    · rw [List.mem_singleton.mp new] at isToken ⊢
      cases isToken
      exact
        ⟨queued.known key (readRing_eq_ok isRing ▸ member), Cipher.sealed_encrypt key nonce secret⟩

/-- A delivery empties messages and seals none. -/
theorem Queued.deliver (queued : Queued fernet generated system) (index : Nat) :
    Queued fernet generated { system with
      outbox := system.outbox.modify index fun message =>
        { message with encryptedData := none } } where
  known := queued.known
  sealedWith := by
    intro message member token isToken
    obtain ⟨place, inside, isMessage⟩ := List.mem_iff_getElem.mp member
    rw [List.getElem_modify] at isMessage
    split at isMessage
    · rw [← isMessage] at isToken
      cases isToken
    · rw [← isMessage] at isToken ⊢
      exact queued.sealedWith _ (List.getElem_mem _) token isToken

theorem Queued.step (queued : Queued fernet generated system) {action : Action}
    (names : NamesGenerated fernet generated action) :
    Queued fernet generated (step fernet system action) := by
  cases action with
  | configure configuration => exact { queued with known := names }
  | createOrganization id =>
      simp only [EmailSettings.step, perform]
      split
      · exact queued
      · exact queued.frame rfl rfl
  | deleteOrganization id => exact queued.frame rfl rfl
  | createAccount organization attrs nonce =>
      simp only [EmailSettings.step, perform]
      exact inWorkspace_holds (Queued fernet generated) queued fun _ created =>
        queued.createAccount created
  | readAccount id attrs =>
      simp only [EmailSettings.step, perform]
      exact undoing_holds (Queued fernet generated) queued fun _ read => queued.readAccount read
  | patchInstallation allow attrs nonce =>
      simp only [EmailSettings.step, perform]
      exact patchInstallation_holds (Queued fernet generated) queued
        (fun _ => queued.frame rfl rfl) (fun _ => queued.frame rfl rfl)
        (fun _ _ _ _ read => queued.readAccount read)
        fun _ _ origin _ created => (queued.createAccount created).settle _ origin
  | savePatch index nonce =>
      simp only [EmailSettings.step, perform]
      apply saveAt_holds (Queued fernet generated) queued (fun _ => queued.frame rfl rfl)
      intro patch after _ saved
      obtain ⟨-, sameConfiguration, sameOutbox⟩ := savePatch_frame saved
      exact queued.frame sameConfiguration sameOutbox
  | deleteAccount id => exact queued.frame rfl rfl
  | rotate nonces =>
      simp only [EmailSettings.step, perform]
      refine undoing_holds (Queued fernet generated) queued fun _ done => ?_
      obtain ⟨rotated, -, rfl⟩ := rotate_ok done
      exact queued.frame rfl rfl
  | queueMessage secret nonce =>
      simp only [EmailSettings.step, perform]
      exact undoing_holds (Queued fernet generated) queued fun _ added => queued.queueMessage added
  | deliver index =>
      simp only [EmailSettings.step, perform]
      exact queued.deliver index

/-- In every run with generated keys, rotations or not, a queued secret opens in
every state exactly while the key that sealed it is still configured. -/
theorem queued_secret_opens_iff (fernet : Fernet Key Token) (generated : Set Key)
    (separates : fernet.Separates generated) (actions : List Action)
    (names : ∀ action ∈ actions, NamesGenerated fernet generated action) :
    Always (step fernet) (QueueOpens fernet) {} actions := by
  have guarded : EveryStep (step fernet)
      (fun _ action => NamesGenerated fernet generated action) {} actions :=
    everyStep_of_forall names
  have always : Always (step fernet) (Queued fernet generated) {} actions :=
    always_guarded (Queued fernet generated) (fun _ _ queued named => queued.step named)
      queued_empty guarded
  exact always.imp fun _ queued => queued.opens separates

/-- The rotation that keeps the password loses what was queued before it. -/
theorem rotation_loses_queue : QueueOpens tagged (run (step tagged) {} rotation) ∧
    ∃ message ∈ (run (step tagged) {} rotation).outbox, message.encryptedData.isSome = true ∧
      message.key ∉ ringOf tagged (run (step tagged) {} rotation).configuration :=
  ⟨(queued_secret_opens_iff tagged Set.univ tagged_separates rotation (by
      intro action _
      cases action <;> first | trivial | exact fun _ _ => trivial)).at_end,
    by
      rw [← List.take_append_drop 6 rotation, run_append, run_rotatedServer]
      decide +kernel⟩

end BubllioCrm.Organizations.EmailSettings
