import BubllioCrm.Access.Soundness
import Mathlib.Data.List.Pairwise

/-!
Owns the ownership of workspaces: every write but the deletion of an owner's
account leaves each workspace with its one owner.
-/

namespace BubllioCrm.Access

open BubllioCrm.Foundations

/-- Every workspace has one owner, who is the creator and the only member while
the workspace awaits its owner. -/
structure Tables.OwnedOnce (tables : Tables) : Prop where
  owner : ∀ organization ∈ tables.organizations, ∃ owner ∈ tables.memberships,
    owner.organization = organization ∧ owner.role = .owner ∧
      ∀ row ∈ tables.memberships, row.organization = organization → row.role = .owner →
        row = owner
  pending : ∀ pending ∈ tables.provisioning, ∃ owner ∈ tables.memberships,
    owner.organization = pending.organization ∧ owner.role = .owner ∧
      owner.user = pending.creator ∧
      ∀ row ∈ tables.memberships, row.organization = pending.organization → row = owner

instance : DecidablePred Tables.OwnedOnce := fun tables =>
  decidable_of_iff
    ((∀ organization ∈ tables.organizations, ∃ owner ∈ tables.memberships,
        owner.organization = organization ∧ owner.role = .owner ∧
          ∀ row ∈ tables.memberships, row.organization = organization → row.role = .owner →
            row = owner) ∧
      ∀ pending ∈ tables.provisioning, ∃ owner ∈ tables.memberships,
        owner.organization = pending.organization ∧ owner.role = .owner ∧
          owner.user = pending.creator ∧
          ∀ row ∈ tables.memberships, row.organization = pending.organization → row = owner)
    ⟨fun ⟨owner, pending⟩ => ⟨owner, pending⟩, fun owned => ⟨owned.owner, owned.pending⟩⟩

/-- Every workspace has an owner. -/
def Tables.HasOwners (tables : Tables) : Prop :=
  ∀ organization ∈ tables.organizations,
    ∃ row ∈ tables.memberships, row.organization = organization ∧ row.role = .owner

variable {text : TextCase} {hash : String → String} {tables after : Tables} {system : System}
  {index now : Nat} {action : Action}

/-- Two owners of one workspace are the same row. -/
theorem owner_unique (admitted : tables.Admitted) {first second : Membership}
    (firstStored : first ∈ tables.memberships) (secondStored : second ∈ tables.memberships)
    (same : first.organization = second.organization) (firstOwns : first.role = .owner)
    (secondOwns : second.role = .owner) : first = second := by
  by_contra differs
  have symmetric : Std.Symm fun first second : Membership => ¬ first.BothOwn second :=
    ⟨fun _ _ apart both => apart ⟨both.1.symm, both.2.2, both.2.1⟩⟩
  exact admitted.unique.owner.forall firstStored secondStored differs
    ⟨same, firstOwns, secondOwns⟩

theorem ownedOnce_of_hasOwners (admitted : tables.Admitted) (awaiting : tables.Awaiting)
    (hasOwners : tables.HasOwners) : tables.OwnedOnce where
  owner := fun organization stored => by
    obtain ⟨owner, isMember, inside, owns⟩ := hasOwners organization stored
    refine ⟨owner, isMember, inside, owns, fun row member same rowOwns => ?_⟩
    exact owner_unique admitted member isMember (same.trans inside.symm) rowOwns owns
  pending := fun pending isPending => by
    obtain ⟨owner, isMember, inside, owns⟩ :=
      hasOwners _ (admitted.referenced.provisioned pending isPending)
    have isCreator := (awaiting pending isPending owner isMember inside).2
    refine ⟨owner, isMember, inside, owns, isCreator, fun row member same => ?_⟩
    have rowOwns := (awaiting pending isPending row member same).1
    exact owner_unique admitted member isMember (same.trans inside.symm) rowOwns owns

/-! ### What the writes keep -/

theorem hasOwners_apply {request : MemberRequest} {role : Role} {target : Membership}
    (admitted : tables.Admitted) (hasOwners : tables.HasOwners)
    (stored : target ∈ tables.memberships)
    (accepted : request.change.refusal role target.role = none) :
    (request.apply target tables).HasOwners :=
  fun organization isWorkspace =>
    owner_write admitted.keyed.memberships stored accepted (hasOwners organization isWorkspace)

theorem hasOwners_deleteAccount {user : Nat} (hasOwners : tables.HasOwners)
    (ownsNone : ¬ tables.Owns user) : (deleteAccount user tables).HasOwners := by
  intro organization isWorkspace
  obtain ⟨row, stored, inside, owns⟩ := hasOwners organization isWorkspace
  refine ⟨row, ?_, inside, owns⟩
  apply List.mem_filter.mpr
  rw [decide_eq_true_eq]
  exact ⟨stored, fun isUser => ownsNone ⟨row, stored, isUser, owns⟩⟩

theorem hasOwners_deliver {delivery : Delivery} (hasOwners : tables.HasOwners)
    (delivered : deliver text hash delivery tables = .ok after) : after.HasOwners := by
  obtain rfl := deliver_ok delivered
  exact hasOwners

theorem hasOwners_revoke {revocation : Revocation} {invitation : Invitation}
    (hasOwners : tables.HasOwners) : (revocation.apply invitation now tables).HasOwners := by
  unfold Revocation.apply
  split_ifs with isRevoked
  · exact hasOwners
  · exact hasOwners

/-- An acceptance that has found no membership adds one. -/
theorem created_mem_memberships {call : Joining} {memberships : List Membership}
    (noMembership : call.membership = none) : call.created ∈ call.memberships memberships := by
  unfold Joining.memberships
  rw [noMembership]
  exact List.mem_append_right _ (List.mem_singleton_self _)

/-- Without a provisioning an acceptance leaves every membership as it is. -/
theorem mem_memberships_of_opened {call : Joining} {row : Membership}
    {memberships : List Membership} (opened : call.provisioning = none)
    (stored : row ∈ memberships) : row ∈ call.memberships memberships := by
  apply mem_memberships_of_untouched stored
  rintro (⟨pending, isPending, -⟩ | ⟨existing, -, isSome, -⟩)
  · rw [opened] at isPending
    cases isPending
  · rw [opened] at isSome
    cases isSome

/-- An acceptance hands the provisional ownership of the creator over. -/
theorem hasOwners_join {call : Joining} (hasOwners : tables.HasOwners)
    (current : Current text hash tables call.acceptance call.invitation call.provisioning
      call.checkedAt)
    (noMembership : call.provisioning.isSome → call.membership = none) :
    (call.apply now tables).HasOwners := by
  intro organization isWorkspace
  obtain ⟨row, stored, inside, owns⟩ := hasOwners organization isWorkspace
  cases found : call.provisioning with
  | none => exact ⟨row, mem_memberships_of_opened found stored, inside, owns⟩
  | some pending =>
      have isSome : call.provisioning.isSome := by rw [found]; rfl
      have noRow := noMembership isSome
      have isOwn := (provisioning_of_current current found).2
      by_cases same : organization = call.invitation.organization
      · refine ⟨call.created, created_mem_memberships noRow, same.symm, ?_⟩
        exact if_pos isSome
      · refine ⟨row, ?_, inside, owns⟩
        apply mem_memberships_of_untouched stored
        rintro (⟨deleted, isDeleted, within, -⟩ | ⟨existing, isExisting, -⟩)
        · obtain rfl : pending = deleted := Option.some.inj (found.symm.trans isDeleted)
          exact same (inside.symm.trans (within.trans isOwn))
        · rw [noRow] at isExisting
          cases isExisting

theorem hasOwners_create {creation : Creation} (hasOwners : tables.HasOwners)
    (created : Created text hash creation now tables after) : after.HasOwners := by
  have opened : (creation.open tables).HasOwners := by
    intro organization isWorkspace
    rcases List.mem_append.mp isWorkspace with old | new
    · obtain ⟨row, stored, inside, owns⟩ := hasOwners organization old
      exact ⟨row, List.mem_append_left _ stored, inside, owns⟩
    · rw [List.mem_singleton.mp new]
      exact ⟨_, List.mem_append_right _ (List.mem_singleton_self _), rfl, rfl⟩
  cases created with
  | forCreator => exact opened
  | forOwner delivered =>
      have provisioned : (creation.provision (creation.open tables)).HasOwners := opened
      have invited := hasOwners_deliver provisioned delivered
      exact invited

/-! ### Account deletions -/

/-- What the deletion of an account leaves is admitted. -/
theorem admitted_deleteAccount {user : Nat} (admitted : tables.Admitted)
    (unprotected : ¬ tables.Protects user) : (deleteAccount user tables).Admitted := by
  have remains : ∀ other, other ∈ tables.users.map User.id → other ≠ user →
      other ∈ (tables.users.filter (·.id ≠ user)).map User.id := by
    intro other stored differs
    obtain ⟨row, isRow, rfl⟩ := List.mem_map.mp stored
    exact List.mem_map_of_mem (List.mem_filter.mpr ⟨isRow, decide_eq_true differs⟩)
  have cleared : ∀ reference : Option Nat, (∀ other ∈ reference, other ∈ tables.users.map User.id) →
      ∀ other ∈ clearUser user reference,
        other ∈ (tables.users.filter (·.id ≠ user)).map User.id := by
    intro reference stored other isOther
    unfold clearUser at isOther
    split_ifs at isOther with isUser
    · cases isOther
    · apply remains other (stored other isOther)
      rintro rfl
      exact isUser isOther
  obtain ⟨keyed, unique, referenced⟩ := admitted
  refine ⟨⟨?_, ?_, keyed.organizations, ?_, keyed.invitations⟩,
    ⟨?_, ?_, unique.provisioning, unique.tokenHash, unique.pending⟩,
    ⟨?_, ?_, ?_, referenced.provisioned, referenced.inviting, ?_, ?_⟩⟩
  · exact keyed.users.sublist (List.filter_sublist.map _)
  · exact keyed.usernames.sublist (List.filter_sublist.map _)
  · exact keyed.memberships.sublist (List.filter_sublist.map _)
  · exact unique.membership.sublist (List.filter_sublist.map _)
  · exact unique.owner.sublist List.filter_sublist
  · intro row member
    obtain ⟨stored, isOther⟩ := List.mem_filter.mp member
    exact remains _ (referenced.user row stored) (of_decide_eq_true isOther)
  · exact fun row member => referenced.organization row (List.mem_of_mem_filter member)
  · intro row stored
    exact remains _ (referenced.creator row stored) fun isUser => unprotected ⟨row, stored, isUser⟩
  · intro event member
    obtain ⟨row, stored, rfl⟩ := List.mem_map.mp member
    exact cleared _ (referenced.actor row stored)
  · intro event member
    obtain ⟨row, stored, rfl⟩ := List.mem_map.mp member
    exact cleared _ (referenced.targetUser row stored)

/-- The deletion of an owner's account leaves a workspace behind without one. -/
theorem not_ownedOnce_deleteAccount {user : Nat} (admitted : tables.Admitted)
    (owns : tables.Owns user) : ¬ (deleteAccount user tables).OwnedOnce := by
  intro owned
  obtain ⟨row, stored, isUser, isOwner⟩ := owns
  obtain ⟨owner, member, inside, ownerOwns, -⟩ :=
    owned.owner row.organization (admitted.referenced.organization row stored)
  obtain ⟨ownerStored, isOther⟩ := List.mem_filter.mp member
  have same := owner_unique admitted ownerStored stored inside ownerOwns isOwner
  rw [decide_eq_true_eq] at isOther
  exact isOther (same ▸ isUser)

/-! ### Runs -/

/-- The account that a phase is to delete. -/
def Phase.deleted? : Phase → Option Nat
  | .deleting user => some user
  | _ => none

/-- The deletion of an account that owns a workspace. -/
def Phase.DeletesOwner (tables : Tables) (phase : Phase) : Prop :=
  ∃ user ∈ phase.deleted?, ¬ tables.Protects user ∧ tables.Owns user

instance (tables : Tables) (phase : Phase) : Decidable (phase.DeletesOwner tables) :=
  inferInstanceAs (Decidable (∃ user ∈ phase.deleted?, _))

/-- The condition on an action: it does not commit the deletion of an account
that owns a workspace by now. -/
def KeepsOwners (system : System) (action : Action) : Prop :=
  ∀ index ∈ action.committed?,
    ¬ (system.Unhindered index ∧ (system.requests index).DeletesOwner system.tables)

theorem hasOwners_written (sound : Sound text hash system)
    (hasOwners : system.tables.HasOwners)
    (keeps : ¬ (system.requests index).DeletesOwner system.tables)
    (written : Written text hash system.now system.tables (system.requests index) after) :
    after.HasOwners := by
  have holds := sound.holds index
  generalize system.requests index = phase at holds keeps written
  cases written with
  | changed accepted => exact hasOwners_apply sound.admitted hasOwners holds.2.2.1 accepted
  | deleted unprotected =>
      exact hasOwners_deleteAccount hasOwners fun owns => keeps ⟨_, rfl, unprotected, owns⟩
  | delivered delivered => exact hasOwners_deliver hasOwners delivered
  | revoked => exact hasOwners_revoke hasOwners
  | joined => exact hasOwners_join hasOwners holds.2.1 holds.2.2

theorem hasOwners_step (sound : Sound text hash system) (hasOwners : system.tables.HasOwners)
    (keeps : KeepsOwners system action) :
    (system.step text hash action).tables.HasOwners := by
  cases outcome_step with
  | unchanged same _ =>
      rw [same]
      exact hasOwners
  | stored stored _ _ =>
      generalize (system.step text hash action).tables = after at stored
      cases stored with
      | created created => exact hasOwners_create hasOwners created
      | committed succeeds written =>
          exact hasOwners_written sound hasOwners
            (fun deletes => keeps _ rfl ⟨succeeds.2.1, deletes⟩) written

/-- The deletion of an owner's account goes through. -/
theorem tables_step_of_deletesOwner {user : Nat} (sound : Sound text hash system)
    (unhindered : system.Unhindered index) (isDeleting : system.requests index = .deleting user)
    (unprotected : ¬ system.tables.Protects user) :
    (system.step text hash (.commit index)).tables = deleteAccount user system.tables := by
  have ready : (system.requests index).isReady = true := by
    rw [isDeleting]
    rfl
  have written : system.written text hash index = some (deleteAccount user system.tables) := by
    unfold System.written
    rw [isDeleting]
    exact if_neg unprotected
  show (system.commit text hash index).tables = _
  unfold System.commit
  rw [if_pos ⟨ready, unhindered⟩, written]
  show (system.store index _).tables = _
  unfold System.store
  rw [if_pos (admitted_deleteAccount sound.admitted unprotected)]

theorem keepsOwners_of_ownedOnce (sound : Sound text hash system)
    (owned : (system.step text hash action).tables.OwnedOnce) : KeepsOwners system action := by
  rintro index isCommit ⟨unhindered, user, isDeleted, unprotected, owns⟩
  have isAction : action = .commit index := by
    cases action <;> simp_all [Action.committed?]
  have isDeleting : system.requests index = .deleting user := by
    cases phase : system.requests index <;> simp_all [Phase.deleted?]
  rw [isAction, tables_step_of_deletesOwner sound unhindered isDeleting unprotected] at owned
  exact not_ownedOnce_deleteAccount sound.admitted owns owned

/-- Every workspace has its one owner, the creator alone while it awaits another,
in every state of exactly the runs in which no account is deleted that owns a
workspace when the deletion commits. -/
theorem workspaces_owned_iff (text : TextCase) (hash : String → String)
    (installation : Installation) (actions : List Action) :
    Always (System.step text hash) (fun system => system.tables.OwnedOnce) installation.start
        actions ↔
      EveryStep (System.step text hash) KeepsOwners installation.start actions := by
  apply always_iff_guarded
    (fun system => Sound text hash system ∧ system.tables.HasOwners) (fun _ => True)
  · rintro system ⟨sound, hasOwners⟩
    exact ownedOnce_of_hasOwners sound.admitted sound.awaiting hasOwners
  · rintro system action ⟨sound, hasOwners⟩ - keeps
    exact ⟨sound.step action, hasOwners_step sound hasOwners keeps⟩
  · rintro system action ⟨sound, -⟩ - owned
    exact keepsOwners_of_ownedOnce sound owned
  · exact ⟨sound_installation installation, List.forall_mem_nil _⟩
  · exact fun _ _ => trivial

/-- An administrator of the installation, and a user. -/
def twoAccounts : Installation where
  users := [⟨1, "it", "it@example.com", true⟩, ⟨2, "eva", "eva@example.com", false⟩]
  ids := by decide
  usernames := by decide

/-- Text without letters that have a case of their own. -/
def plainText : TextCase := ⟨id, id, id⟩

/-- Between the check and the deletion of its account the administrator creates
a workspace. -/
def createdMeanwhile : List Action :=
  [.deleteAccount 0 1,
    .create {
      organization := 1
      creator := ⟨1, "it", "it@example.com", true⟩
      ownerEmail := "it@example.com"
      membershipId := 1 },
    .commit 0]

theorem workspaces_not_always_owned :
    ¬ ∀ (text : TextCase) (hash : String → String) (installation : Installation)
      (actions : List Action),
      Always (System.step text hash) (fun system => system.tables.OwnedOnce) installation.start
        actions := by
  intro always
  have owned := (always plainText id twoAccounts createdMeanwhile).at_end
  revert owned
  decide +kernel

end BubllioCrm.Access
