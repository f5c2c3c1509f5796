import BubllioCrm.Access.Ownership

/-!
Owns the authority behind changes of members: who may change what, and the runs
in which every change is permitted by the role that its requester has when it
commits.
-/

namespace BubllioCrm.Access

open BubllioCrm.Foundations

/-- The role manages members. -/
def Role.Manages (role : Role) : Prop :=
  role = .owner ∨ role = .admin

instance : DecidablePred Role.Manages :=
  fun role => inferInstanceAs (Decidable (role = .owner ∨ role = .admin))

/-- Only the owner transfers ownership, touches administrators or makes others
administrators, and nobody changes or removes the owner. -/
def Change.Allowed (role target : Role) : Change → Prop
  | .setRole requested =>
      if requested = .owner then role = .owner
      else role.Manages ∧ target ≠ .owner ∧
        (target = .admin ∨ requested = .admin → role = .owner)
  | .remove => role.Manages ∧ target ≠ .owner ∧ (target = .admin → role = .owner)

instance (role target : Role) : (change : Change) → Decidable (change.Allowed role target)
  | .setRole requested =>
      inferInstanceAs (Decidable (if requested = .owner then role = .owner
        else role.Manages ∧ target ≠ .owner ∧ _))
  | .remove => inferInstanceAs (Decidable (role.Manages ∧ target ≠ .owner ∧ _))

/-- The requester is allowed the change by the role it has in the tables. -/
def MemberRequest.Authorised (request : MemberRequest) (tables : Tables) : Prop :=
  ∃ requester ∈ tables.memberships, requester.user = request.requester ∧
    requester.organization = request.organization ∧
    ∃ target ∈ tables.memberships, target.id = request.membership ∧
      target.organization = request.organization ∧
      request.change.Allowed requester.role target.role

instance (request : MemberRequest) (tables : Tables) : Decidable (request.Authorised tables) :=
  inferInstanceAs (Decidable (∃ requester ∈ tables.memberships, _))

/-- The requester still manages members, and is still the owner if it has been
read as the owner. -/
def MemberRequest.StillManages (request : MemberRequest) (role : Role) (tables : Tables) : Prop :=
  ∃ requester ∈ tables.memberships, requester.user = request.requester ∧
    requester.organization = request.organization ∧ requester.role.Manages ∧
    (role = .owner → requester.role = .owner)

instance (request : MemberRequest) (role : Role) (tables : Tables) :
    Decidable (request.StillManages role tables) :=
  inferInstanceAs (Decidable (∃ requester ∈ tables.memberships, _))

/-- What a phase changes of the members, if it is a change of a member. -/
def Phase.change? : Phase → Option (MemberRequest × Role × Membership)
  | .changing request role target => some (request, role, target)
  | _ => none

/-- A change of the memberships by a role change or a removal is authorised when
it commits. -/
def CommitsAuthorised (text : TextCase) (hash : String → String) (system : System)
    (action : Action) : Prop :=
  ∀ index ∈ action.committed?, ∀ call ∈ (system.requests index).change?,
    (system.step text hash action).tables.memberships ≠ system.tables.memberships →
      call.1.Authorised system.tables

instance (text : TextCase) (hash : String → String) (system : System) (action : Action) :
    Decidable (CommitsAuthorised text hash system action) :=
  inferInstanceAs (Decidable (∀ index ∈ action.committed?, _))

/-- The condition on an action: the requester of a change that is not refused
has kept the role that was read of it. -/
def KeepsRole (system : System) (action : Action) : Prop :=
  ∀ index ∈ action.committed?, ∀ call ∈ (system.requests index).change?,
    system.Unhindered index → call.1.change.refusal call.2.1 call.2.2.role = none →
      call.1.StillManages call.2.1 system.tables

instance (system : System) (action : Action) : Decidable (KeepsRole system action) :=
  inferInstanceAs (Decidable (∀ index ∈ action.committed?, _))

variable {text : TextCase} {hash : String → String} {system : System} {tables : Tables}
  {action : Action} {request : MemberRequest} {role current target : Role} {change : Change}

/-- A change is allowed to exactly the roles that manage members and that the
request does not refuse. -/
theorem allowed_iff :
    change.Allowed role target ↔ role.Manages ∧ change.refusal role target = none := by
  cases change with
  | setRole requested => cases requested <;> cases role <;> cases target <;> decide
  | remove => cases role <;> cases target <;> decide

/-- A change of a stored membership is authorised exactly when the role that the
requester has now manages members and is not refused. -/
theorem authorised_iff {target : Membership} (keyed : tables.Keyed)
    (stored : target ∈ tables.memberships) (inside : target.organization = request.organization)
    (isTarget : target.id = request.membership) :
    request.Authorised tables ↔
      ∃ requester ∈ tables.memberships, requester.user = request.requester ∧
        requester.organization = request.organization ∧ requester.role.Manages ∧
        request.change.refusal requester.role target.role = none := by
  constructor
  · rintro ⟨requester, isMember, isUser, within, other, otherStored, isOther, -, allowed⟩
    have same : other = target :=
      List.inj_on_of_nodup_map keyed.memberships otherStored stored (isOther.trans isTarget.symm)
    rw [same] at allowed
    exact ⟨requester, isMember, isUser, within, allowed_iff.mp allowed⟩
  · rintro ⟨requester, isMember, isUser, within, passes⟩
    exact ⟨requester, isMember, isUser, within, target, stored, isTarget, inside,
      allowed_iff.mpr passes⟩

/-- A refusal depends on the role of the requester only as far as it is the owner. -/
theorem refusal_of_kept (kept : role = .owner → current = .owner)
    (accepted : change.refusal role target = none) : change.refusal current target = none := by
  cases change with
  | setRole requested =>
      cases requested with
      | owner =>
          simp only [Change.refusal, ite_eq_right_iff, reduceCtorEq, imp_false, not_not]
            at accepted ⊢
          exact kept accepted
      | _ =>
          simp only [Change.refusal] at accepted ⊢
          split_ifs at accepted with isOwner needsOwner
          rw [if_neg isOwner, if_neg]
          rintro ⟨notOwner, touches⟩
          exact needsOwner ⟨fun wasOwner => notOwner (kept wasOwner), by grind⟩
  | remove =>
      simp only [Change.refusal] at accepted ⊢
      split_ifs at accepted with isOwner needsOwner
      rw [if_neg isOwner, if_neg]
      rintro ⟨notOwner, touches⟩
      exact needsOwner ⟨fun wasOwner => notOwner (kept wasOwner), touches⟩

/-- A change that commits was not refused, and its target is as it was locked. -/
theorem commitsAuthorised_of_keepsRole (sound : Sound text hash system)
    (keeps : KeepsRole system action) : CommitsAuthorised text hash system action := by
  rintro index isCommit ⟨request, role, target⟩ isCall changes
  have isChanging : system.requests index = .changing request role target := by
    cases phase : system.requests index <;> simp_all [Phase.change?]
  cases outcome_step with
  | unchanged same _ => exact absurd (congrArg Tables.memberships same) changes
  | stored stored _ _ =>
      generalize (system.step text hash action).tables = after at stored
      cases stored with
      | created _ => cases isCommit
      | @committed committed _ succeeds written =>
          obtain rfl : committed = index := Option.some.inj isCommit
          have holds := sound.holds committed
          rw [isChanging] at holds written
          obtain ⟨-, -, isStored, inside, isTarget⟩ := holds
          cases written with
          | changed accepted =>
              obtain ⟨requester, isMember, isUser, within, manages, kept⟩ :=
                keeps _ rfl _ isCall succeeds.2.1 accepted
              exact (authorised_iff sound.admitted.keyed isStored inside isTarget).mpr
                ⟨requester, isMember, isUser, within, manages, refusal_of_kept kept accepted⟩

/-- In a run in which the requesters keep the roles that were read of them until
their changes commit, every change of a member is permitted to its requester by
the role it has then. -/
theorem changes_authorised (text : TextCase) (hash : String → String)
    (installation : Installation) (actions : List Action)
    (keeps : EveryStep (System.step text hash) KeepsRole installation.start actions) :
    EveryStep (System.step text hash) (CommitsAuthorised text hash) installation.start actions :=
  everyStep_guarded (Sound text hash) (fun _ action sound _ => sound.step action)
    (fun _ _ sound keeps => commitsAuthorised_of_keepsRole sound keeps)
    (sound_installation installation) keeps

/-- The requests by which an owner invites a user who accepts. -/
def admission (invitationId membershipId : Nat) (token : String) (role : Role) (user : User) :
    List Action :=
  [.invite 0 ⟨1, 1, invitationId, token, true⟩ user.email role, .lockOrganization 0, .commit 0,
    .accept 0 { token := token, authenticated := some user, membershipId := membershipId },
    .lockOrganization 0, .join 0, .commit 0]

/-- An administrator of the installation, and two users. -/
def threeAccounts : Installation where
  users := [⟨1, "it", "it@example.com", true⟩, ⟨2, "eva", "eva@example.com", false⟩,
    ⟨3, "ana", "ana@example.com", false⟩]
  ids := by decide
  usernames := by decide

/-- A workspace of user 1 with user 2 as an administrator and user 3 as a viewer. -/
def staffed : List Action :=
  .create {
      organization := 1
      creator := ⟨1, "it", "it@example.com", true⟩
      ownerEmail := "it@example.com"
      membershipId := 1 } ::
    admission 1 2 "a" .admin ⟨2, "eva", "eva@example.com", false⟩ ++
    admission 2 3 "b" .viewer ⟨3, "ana", "ana@example.com", false⟩

/-- The administrator begins to make the viewer a member. -/
def beginsChange : List Action :=
  [.changeMember 1 ⟨1, 2, 3, .setRole .member⟩, .readRole 1]

/-- The owner removes the administrator. -/
def removal : List Action :=
  [.changeMember 0 ⟨1, 1, 2, .remove⟩, .readRole 0, .lockMember 0, .commit 0]

theorem changes_authorised_alone :
    EveryStep (System.step plainText id) (CommitsAuthorised plainText id) threeAccounts.start
      (staffed ++ beginsChange ++ [.lockMember 1, .commit 1] ++ removal) :=
  changes_authorised plainText id threeAccounts _ (by decide +kernel)

/-- The administrator that the owner has removed makes the viewer a member. -/
theorem changes_not_always_authorised :
    ¬ ∀ (text : TextCase) (hash : String → String) (installation : Installation)
      (actions : List Action),
      EveryStep (System.step text hash) (CommitsAuthorised text hash) installation.start
        actions := by
  intro always
  have authorised := always plainText id threeAccounts
    (staffed ++ beginsChange ++ removal ++ [.lockMember 1, .commit 1])
  revert authorised
  decide +kernel

end BubllioCrm.Access
