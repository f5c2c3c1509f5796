import BubllioCrm.Access.Authority
import BubllioCrm.Foundations.Succession

/-!
Owns the life of invitation tokens: one live invitation for each workspace and
email, the newest; one acceptance for each token; and what an acceptance and a
failing request leave alone.
-/

namespace BubllioCrm.Access

open BubllioCrm.Foundations

variable {text : TextCase} {hash : String → String} {tables after : Tables} {system : System}
  {index now : Nat} {action : Action}

/-- The workspace and the email of an invitation, whatever the case of the email. -/
def Invitation.addressee (text : TextCase) (invitation : Invitation) : Nat × String :=
  (invitation.organization, text.upper invitation.email)

/-! ### The law -/

/-- For each workspace and email at most one invitation is neither accepted nor
revoked, and no token has been accepted twice. -/
structure System.SingleUse (text : TextCase) (system : System) : Prop where
  oneActive : system.tables.invitations.Pairwise fun first second =>
    first.addressee text = second.addressee text → ¬ (first.Active ∧ second.Active)
  acceptedOnce : (system.joined.map fun call => call.acceptance.token).Nodup

/-- The invitation of an accepted token is active, the newest for its workspace
and email, and unexpired at the time at which that is judged: a function of the
time of the commit and of the last check behind the lock. -/
def AcceptsNewest (judgedAt : Nat → Nat → Nat) (text : TextCase) (hash : String → String)
    (system : System) (call : Joining) : Prop :=
  ∃ invitation ∈ system.tables.invitations,
    invitation.tokenHash = hash call.acceptance.token ∧ invitation.Active ∧
    judgedAt system.now call.checkedAt < invitation.expiresAt ∧
    system.tables.invitations.reverse.find?
      (fun other => other.addressee text = invitation.addressee text) = some invitation

/-- An acceptance of an invitation that is not for an owner changes no membership
that is there, and gives nobody a second one. -/
def KeepsMembers (before after : Tables) (call : Joining) : Prop :=
  call.invitation.role ≠ .owner →
    (∀ row ∈ before.memberships, row ∈ after.memberships) ∧
      (after.memberships.map fun row => (row.organization, row.user)).Nodup

/-- What a step does when it commits an acceptance. -/
def AcceptsWell (judgedAt : Nat → Nat → Nat) (text : TextCase) (hash : String → String)
    (system : System) (action : Action) : Prop :=
  ∀ index ∈ action.committed?, ∀ call ∈ (system.requests index).joining?,
    system.Succeeds text hash index →
      AcceptsNewest judgedAt text hash system call ∧
        KeepsMembers system.tables (system.step text hash action).tables call

/-- The request behind an action ends in success. -/
def Action.Succeeds (text : TextCase) (hash : String → String) (system : System) :
    Action → Prop
  | .create creation => ∃ after, createWorkspace text hash creation system.now system.tables =
      .ok after ∧ after.Admitted
  | .commit index => system.Succeeds text hash index
  | _ => False

/-- A request that does not end in success leaves the tables as they are. -/
def FailsCleanly (text : TextCase) (hash : String → String) (system : System)
    (action : Action) : Prop :=
  ¬ action.Succeeds text hash system → (system.step text hash action).tables = system.tables

/-- The law of the tokens along a run. -/
structure TokenLaw (judgedAt : Nat → Nat → Nat) (text : TextCase) (hash : String → String)
    (system : System) (actions : List Action) : Prop where
  singleUse : Always (System.step text hash) (System.SingleUse text) system actions
  accepts : EveryStep (System.step text hash) (AcceptsWell judgedAt text hash) system actions
  fails : EveryStep (System.step text hash) (FailsCleanly text hash) system actions

instance (judgedAt : Nat → Nat → Nat) (text : TextCase) (hash : String → String)
    (system : System) (action : Action) :
    Decidable (AcceptsWell judgedAt text hash system action) :=
  inferInstanceAs (Decidable (∀ index ∈ action.committed?, ∀ call ∈ _, _ →
    (∃ invitation ∈ system.tables.invitations, _ ∧ _ ∧ _ ∧ _) ∧ (_ → _ ∧ _)))

/-! ### Succession -/

/-- The newest invitation of a workspace to an email replaces the others. -/
def Tables.Replaced (text : TextCase) (tables : Tables) : Prop :=
  Superseded (Invitation.addressee text) Invitation.Active tables.invitations

theorem replaced_deliver {delivery : Delivery} (replaced : tables.Replaced text)
    (delivered : deliver text hash delivery tables = .ok after) : after.Replaced text := by
  obtain rfl := deliver_ok delivered
  apply Superseded.insert
  · apply Superseded.update replaced
    · exact fun _ => rfl
    · rintro row ⟨-, revoked⟩
      cases revoked
  · intro other stored same isActive
    obtain ⟨before, -, ⟨-, rfl⟩ | ⟨kept, rfl⟩⟩ := mem_updateWhere.mp stored
    · cases isActive.2
    · obtain ⟨organization, email⟩ := Prod.mk.inj same
      exact kept ⟨organization, email, isActive⟩

theorem replaced_revoke {revocation : Revocation} {invitation : Invitation}
    (replaced : tables.Replaced text) :
    (revocation.apply invitation now tables).Replaced text := by
  unfold Revocation.apply
  split_ifs with isRevoked
  · exact replaced
  · apply Superseded.update replaced
    · exact fun _ => rfl
    · rintro row ⟨-, revoked⟩
      cases revoked

theorem replaced_join {call : Joining} (replaced : tables.Replaced text) :
    (call.apply now tables).Replaced text := by
  apply Superseded.update replaced
  · exact fun _ => rfl
  · rintro row ⟨accepted, -⟩
    cases accepted

theorem replaced_create {creation : Creation} (replaced : tables.Replaced text)
    (created : Created text hash creation now tables after) : after.Replaced text := by
  cases created with
  | forCreator => exact replaced
  | forOwner delivered =>
      have provisioned : (creation.provision (creation.open tables)).Replaced text := replaced
      have invited := replaced_deliver provisioned delivered
      exact invited

theorem replaced_stored (replaced : system.tables.Replaced text)
    (stored : Stored text hash system action after) : after.Replaced text := by
  cases stored with
  | created created => exact replaced_create replaced created
  | @committed index _ succeeds written =>
      generalize system.requests index = phase at written
      cases written with
      | changed accepted => exact replaced
      | deleted unprotected => exact replaced
      | delivered delivered => exact replaced_deliver replaced delivered
      | revoked => exact replaced_revoke replaced
      | joined => exact replaced_join replaced

/-! ### Spent tokens -/

/-- The invitation of the token has been accepted. -/
def Spent (hash : String → String) (token : String) (invitations : List Invitation) : Prop :=
  ∃ row ∈ invitations, row.tokenHash = hash token ∧ row.acceptedAt ≠ none

variable {token : String} {invitations : List Invitation}

theorem Spent.update {selected : Invitation → Prop} [DecidablePred selected]
    {change : Invitation → Invitation} (spent : Spent hash token invitations)
    (keepsHash : ∀ row, (change row).tokenHash = row.tokenHash)
    (keepsAccepted : ∀ row, row.acceptedAt ≠ none → (change row).acceptedAt ≠ none) :
    Spent hash token (updateWhere selected change invitations) := by
  obtain ⟨row, stored, isToken, isAccepted⟩ := spent
  by_cases hit : selected row
  · exact ⟨change row, mem_updateWhere_of_selected stored hit, (keepsHash row).trans isToken,
      keepsAccepted row isAccepted⟩
  · exact ⟨row, mem_updateWhere_of_not_selected stored hit, isToken, isAccepted⟩

theorem Spent.insert {row : Invitation} (spent : Spent hash token invitations) :
    Spent hash token (invitations ++ [row]) := by
  obtain ⟨other, stored, isSpent⟩ := spent
  exact ⟨other, List.mem_append_left _ stored, isSpent⟩

theorem spent_deliver {delivery : Delivery} (spent : Spent hash token tables.invitations)
    (delivered : deliver text hash delivery tables = .ok after) :
    Spent hash token after.invitations := by
  obtain rfl := deliver_ok delivered
  apply Spent.insert
  exact spent.update (fun _ => rfl) fun _ accepted => accepted

theorem spent_revoke {revocation : Revocation} {invitation : Invitation}
    (spent : Spent hash token tables.invitations) :
    Spent hash token (revocation.apply invitation now tables).invitations := by
  unfold Revocation.apply
  split_ifs with isRevoked
  · exact spent
  · exact spent.update (fun _ => rfl) fun _ accepted => accepted

theorem spent_join {call : Joining} (spent : Spent hash token tables.invitations) :
    Spent hash token (call.apply now tables).invitations :=
  spent.update (fun _ => rfl) fun _ _ => Option.some_ne_none _

/-- The token of an acceptance is spent by it. -/
theorem spent_own {call : Joining}
    (current : Current text hash tables call.acceptance call.invitation call.provisioning
      call.checkedAt) :
    Spent hash call.acceptance.token (call.apply now tables).invitations := by
  refine ⟨{ call.invitation with acceptedAt := some now }, ?_, current.usable.1,
    Option.some_ne_none _⟩
  exact mem_updateWhere.mpr ⟨_, current.stored, Or.inl ⟨rfl, rfl⟩⟩

theorem spent_create {creation : Creation} (spent : Spent hash token tables.invitations)
    (created : Created text hash creation now tables after) :
    Spent hash token after.invitations := by
  cases created with
  | forCreator => exact spent
  | forOwner delivered =>
      have provisioned : Spent hash token (creation.provision (creation.open tables)).invitations :=
        spent
      have invited := spent_deliver provisioned delivered
      exact invited

theorem spent_stored (spent : Spent hash token system.tables.invitations)
    (stored : Stored text hash system action after) : Spent hash token after.invitations := by
  cases stored with
  | created created => exact spent_create spent created
  | @committed index _ succeeds written =>
      generalize system.requests index = phase at written
      cases written with
      | changed accepted => exact spent
      | deleted unprotected => exact spent
      | delivered delivered => exact spent_deliver spent delivered
      | revoked => exact spent_revoke spent
      | joined => exact spent_join spent

/-- A usable token is not spent. -/
theorem not_spent_of_current {call : Joining} (admitted : tables.Admitted)
    (current : Current text hash tables call.acceptance call.invitation call.provisioning
      call.checkedAt) : ¬ Spent hash call.acceptance.token tables.invitations := by
  rintro ⟨row, stored, isToken, isAccepted⟩
  have same : row = call.invitation :=
    List.inj_on_of_nodup_map admitted.unique.tokenHash stored current.stored
      (isToken.trans current.usable.1.symm)
  rw [same] at isAccepted
  exact isAccepted current.usable.2.1.1

/-! ### Runs -/

/-- What holds of the tokens in every state. -/
structure TokenInvariant (text : TextCase) (hash : String → String) (system : System) :
    Prop where
  sound : Sound text hash system
  replaced : system.tables.Replaced text
  once : (system.joined.map fun call => call.acceptance.token).Nodup
  spent : ∀ call ∈ system.joined, Spent hash call.acceptance.token system.tables.invitations

theorem joining_eq {phase : Phase} {call : Joining} (isCall : call ∈ phase.joining?) :
    phase = .joining call := by
  cases phase <;> simp_all [Phase.joining?]

/-- The token of a committed acceptance was not spent before, and is afterwards. -/
theorem recorded_spec (sound : Sound text hash system) {call : Joining}
    (stored : Stored text hash system action after) (isRecorded : call ∈ system.recorded action) :
    ¬ Spent hash call.acceptance.token system.tables.invitations ∧
      Spent hash call.acceptance.token after.invitations ∧ system.recorded action = [call] := by
  cases stored with
  | created created => cases isRecorded
  | @committed index _ succeeds written =>
      have isJoining : system.requests index = .joining call := joining_eq isRecorded
      have holds := sound.holds index
      have recorded : system.recorded (.commit index) = [call] := by
        show (system.requests index).joining? = [call]
        rw [isJoining]
        rfl
      rw [isJoining] at holds written
      obtain ⟨-, current, -⟩ := holds
      cases written with
      | joined => exact ⟨not_spent_of_current sound.admitted current, spent_own current, recorded⟩

theorem TokenInvariant.step (invariant : TokenInvariant text hash system) (action : Action) :
    TokenInvariant text hash (system.step text hash action) := by
  have sound := invariant.sound.step action
  cases outcome_step with
  | unchanged tables joined =>
      refine ⟨sound, ?_, ?_, ?_⟩
      · rw [tables]
        exact invariant.replaced
      · rw [joined]
        exact invariant.once
      · rw [tables, joined]
        exact invariant.spent
  | stored stored admitted joined =>
      refine ⟨sound, replaced_stored invariant.replaced stored, ?_, ?_⟩
      · rw [joined, List.map_append]
        apply List.nodup_append.mpr
        refine ⟨invariant.once, ?_, ?_⟩
        · cases recorded : system.recorded action with
          | nil => exact List.nodup_nil
          | cons call rest =>
              have isRecorded : call ∈ system.recorded action := by simp [recorded]
              rw [← recorded, (recorded_spec invariant.sound stored isRecorded).2.2]
              exact List.nodup_singleton _
        · rintro token old other new rfl
          obtain ⟨before, isBefore, rfl⟩ := List.mem_map.mp old
          obtain ⟨call, isRecorded, same⟩ := List.mem_map.mp new
          apply (recorded_spec invariant.sound stored isRecorded).1
          rw [same]
          exact invariant.spent before isBefore
      · rw [joined]
        intro call member
        rcases List.mem_append.mp member with old | new
        · exact spent_stored (invariant.spent call old) stored
        · exact (recorded_spec invariant.sound stored new).2.1

theorem TokenInvariant.singleUse (invariant : TokenInvariant text hash system) :
    system.SingleUse text :=
  ⟨invariant.replaced.one_live, invariant.once⟩

/-- An invitation that is not for an owner is accepted without a provisioning. -/
theorem Current.opened {call : Joining}
    (current : Current text hash tables call.acceptance call.invitation call.provisioning
      call.checkedAt) (notOwner : call.invitation.role ≠ .owner) : call.provisioning = none := by
  have accepted := current.accepted
  unfold acceptanceRefusal at accepted
  rw [if_neg notOwner] at accepted
  split_ifs at accepted with awaits
  exact Option.not_isSome_iff_eq_none.mp awaits

/-- An acceptance that is not for an owner leaves every membership as it is. -/
theorem mem_step_of_joining {call : Joining} {row : Membership}
    (sound : Sound text hash system) (isJoining : system.requests index = .joining call)
    (notOwner : call.invitation.role ≠ .owner) (stored : row ∈ system.tables.memberships) :
    row ∈ (system.step text hash (.commit index)).tables.memberships := by
  cases outcome_step with
  | unchanged same _ =>
      rw [same]
      exact stored
  | stored isStored _ _ =>
      generalize (system.step text hash (.commit index)).tables = after at isStored
      cases isStored with
      | committed succeeds written =>
          have holds := sound.holds index
          rw [isJoining] at holds written
          obtain ⟨-, current, -⟩ := holds
          cases written with
          | joined => exact mem_memberships_of_opened (current.opened notOwner) stored

theorem TokenInvariant.acceptsWell (invariant : TokenInvariant text hash system)
    (action : Action) :
    AcceptsWell (fun _ checkedAt => checkedAt) text hash system action := by
  rintro index isCommit call isCall succeeds
  have isJoining := joining_eq isCall
  have holds := invariant.sound.holds index
  rw [isJoining] at holds
  obtain ⟨-, current, noMembership⟩ := holds
  obtain ⟨isToken, isActive, unexpired⟩ := current.usable
  refine ⟨⟨call.invitation, current.stored, isToken, isActive, unexpired,
    invariant.replaced.newest current.stored isActive⟩, fun notOwner => ⟨?_, ?_⟩⟩
  · obtain rfl : action = .commit index := by
      cases action <;> simp_all [Action.committed?]
    exact fun row stored => mem_step_of_joining invariant.sound isJoining notOwner stored
  · exact (invariant.sound.step action).admitted.unique.membership

/-- Only a request that ends in success changes the tables. -/
theorem failsCleanly (action : Action) : FailsCleanly text hash system action := by
  intro fails
  cases action with
  | create creation =>
      show (system.create text hash creation).tables = system.tables
      unfold System.create
      split_ifs with permitted
      · split
        · rename_i after created
          rw [if_neg fun admitted => fails ⟨after, created, admitted⟩]
        · rfl
      · rfl
  | commit index =>
      cases outcome_step with
      | unchanged same _ => exact same
      | stored stored _ _ =>
          generalize (system.step text hash (.commit index)).tables = after at stored
          cases stored with
          | committed succeeds _ => exact absurd succeeds fails
  | _ =>
      cases outcome_step with
      | unchanged same _ => exact same
      | stored stored _ _ => cases stored

/-- Whatever requests on workspaces and accounts interleave, at most one
invitation for each workspace and email is active; a token is accepted once at
most, while its invitation is active and the newest, and after a look behind the
lock of the workspace that has found it unexpired; an acceptance for a member
leaves the memberships as they are; and what fails changes nothing. -/
theorem tokens_single_use (text : TextCase) (hash : String → String)
    (installation : Installation) (actions : List Action) :
    TokenLaw (fun _ checkedAt => checkedAt) text hash installation.start actions := by
  have start : TokenInvariant text hash installation.start :=
    ⟨sound_installation installation, superseded_nil, List.nodup_nil, List.forall_mem_nil _⟩
  refine ⟨?_, ?_, ?_⟩
  · exact (always_invariant (TokenInvariant text hash)
      (fun _ action invariant => invariant.step action) start actions).imp
        fun _ invariant => invariant.singleUse
  · exact everyStep_invariant (TokenInvariant text hash)
      (fun _ action invariant => invariant.step action)
      (fun _ action invariant => invariant.acceptsWell action) start actions
  · exact everyStep_invariant (fun _ => True) (fun _ _ _ => trivial)
      (fun _ action _ => failsCleanly action) trivial actions

/-- Seven days pass between the last check of an acceptance and its commit. -/
def slowAcceptance : List Action :=
  [.create {
      organization := 1
      creator := ⟨1, "it", "it@example.com", true⟩
      ownerEmail := "it@example.com"
      membershipId := 1 },
    .invite 0 ⟨1, 1, 1, "a", true⟩ "eva@example.com" .member, .lockOrganization 0, .commit 0,
    .accept 0 {
      token := "a"
      authenticated := some ⟨2, "eva", "eva@example.com", false⟩
      membershipId := 2 },
    .lockOrganization 0, .advance sevenDays, .join 0, .commit 0]

/-- A token may be accepted after its expiry. -/
theorem tokens_not_always_unexpired :
    ¬ ∀ (text : TextCase) (hash : String → String) (installation : Installation)
      (actions : List Action), TokenLaw (fun now _ => now) text hash installation.start
        actions := by
  intro always
  have accepts := (always plainText id twoAccounts slowAcceptance).accepts
  revert accepts
  decide +kernel

end BubllioCrm.Access
