import BubllioCrm.Access.Locking

/-!
Owns the invariant of the system of requests: the tables keep their constraints,
and what every transaction knows is so, after every step in any order.
-/

namespace BubllioCrm.Access

open BubllioCrm.Foundations

structure Sound (text : TextCase) (hash : String → String) (system : System) : Prop where
  admitted : system.tables.Admitted
  awaiting : system.tables.Awaiting
  holds : ∀ index, Holds text hash system.tables system.memberLocks system.organizationLocks
    index (system.requests index)

variable {text : TextCase} {hash : String → String} {system : System} {after : Tables}
  {index : Nat} {phase : Phase} {action : Action}

/-! ### Ends and starts -/

/-- What the others know is so when one transaction has written and ended. -/
theorem holds_finish
    (others : ∀ other, other ≠ index → Holds text hash after system.memberLocks
      system.organizationLocks other (system.requests other)) (other : Nat) :
    Holds text hash after (system.memberLocks.release index)
      (system.organizationLocks.release index) other
      (Function.update system.requests index .idle other) := by
  by_cases same : other = index
  · subst same
    rw [Function.update_self]
    trivial
  · rw [Function.update_of_ne same]
    exact (others other same).locks (fun _ => Locks.release_of_held same)
      (fun _ => Locks.release_of_held same)

theorem Sound.finish (sound : Sound text hash system) (index : Nat) :
    Sound text hash (system.finish index) :=
  ⟨sound.admitted, sound.awaiting, holds_finish fun other _ => sound.holds other⟩

theorem Sound.become (sound : Sound text hash system)
    (holds : Holds text hash system.tables system.memberLocks system.organizationLocks index
      phase) : Sound text hash (system.become index phase) := by
  refine ⟨sound.admitted, sound.awaiting, fun other => ?_⟩
  show Holds _ _ _ _ _ _ (Function.update system.requests index phase other)
  by_cases same : other = index
  · subst same
    rw [Function.update_self]
    exact holds
  · rw [Function.update_of_ne same]
    exact sound.holds other

theorem Sound.enterPhase {phase : Option Phase} (sound : Sound text hash system)
    (holds : ∀ entered, phase = some entered → Holds text hash system.tables system.memberLocks
      system.organizationLocks index entered) :
    Sound text hash (system.enterPhase index phase) := by
  cases phase with
  | none => exact sound.finish index
  | some entered => exact sound.become (holds entered rfl)

theorem Sound.start {phase : Option Phase} (sound : Sound text hash system)
    (holds : ∀ entered, phase = some entered → Holds text hash system.tables system.memberLocks
      system.organizationLocks index entered) :
    Sound text hash (system.start index phase) := by
  unfold System.start
  split
  · exact sound.enterPhase holds
  · exact sound

/-! ### Locks -/

theorem Sound.lockMember {request : MemberRequest} {role : Role} (sound : Sound text hash system)
    (opened : system.tables.Opened request.organization) :
    Sound text hash (system.lockMember index request role) := by
  unfold System.lockMember
  split_ifs with grants
  · split
    · rename_i target found
      have isTarget := List.find?_some found
      rw [decide_eq_true_eq] at isTarget
      have granted : ∀ row, row = target.id → system.memberLocks.Grants index row := by
        rintro row rfl
        rw [isTarget.1]
        exact grants
      refine ⟨sound.admitted, sound.awaiting, fun other => ?_⟩
      show Holds _ _ _ _ _ _ (Function.update system.requests index _ other)
      by_cases same : other = index
      · subst same
        rw [Function.update_self]
        exact ⟨opened, Locks.acquire_of_mem rfl, List.mem_of_find?_eq_some found, isTarget.2,
          isTarget.1⟩
      · rw [Function.update_of_ne same]
        exact (sound.holds other).locks (fun _ => Locks.acquire_of_held granted) fun _ held => held
    · exact sound.finish index
  · exact sound

theorem Sound.lockOrganization {task : Task} (sound : Sound text hash system) :
    Sound text hash (system.lockOrganization text hash index task) := by
  unfold System.lockOrganization
  split_ifs with grants
  · split
    · rename_i entered found
      have granted : ∀ row, row = task.organization →
          system.organizationLocks.Grants index row := by
        rintro row rfl
        exact grants
      refine ⟨sound.admitted, sound.awaiting, fun other => ?_⟩
      show Holds _ _ _ _ _ _ (Function.update system.requests index entered other)
      by_cases same : other = index
      · subst same
        rw [Function.update_self]
        exact holds_enter found
      · rw [Function.update_of_ne same]
        exact (sound.holds other).locks (fun _ held => held) fun _ => Locks.acquire_of_held granted
    · exact sound.finish index
  · exact sound

theorem Sound.readRole (sound : Sound text hash system) :
    Sound text hash (system.readRole index) := by
  unfold System.readRole
  split
  · rename_i request isAuthorised
    apply sound.enterPhase
    intro entered found
    obtain ⟨requester, -, rfl⟩ := Option.map_eq_some_iff.mp found
    have holds := sound.holds index
    rw [isAuthorised] at holds
    exact holds
  · exact sound

theorem Sound.lockTarget (sound : Sound text hash system) :
    Sound text hash (system.lockTarget index) := by
  unfold System.lockTarget
  split
  · rename_i request role isWaiting
    have holds := sound.holds index
    rw [isWaiting] at holds
    exact sound.lockMember holds
  · exact sound

theorem Sound.lockWorkspace (sound : Sound text hash system) :
    Sound text hash (system.lockWorkspace text hash index) := by
  unfold System.lockWorkspace
  split
  · exact sound.lockOrganization
  · exact sound

theorem Sound.join (sound : Sound text hash system) :
    Sound text hash (system.join text index) := by
  unfold System.join
  split
  · rename_i acceptance invitation provisioning checkedAt isAccepting
    apply sound.enterPhase
    intro entered found
    obtain ⟨call, joined, rfl⟩ := Option.map_eq_some_iff.mp found
    have holds := sound.holds index
    rw [isAccepting] at holds
    exact holds_join sound.awaiting holds joined
  · exact sound

/-! ### Commits -/

/-- Another transaction has locked the row. -/
def HeldByOther (locks : Locks Nat) (index row : Nat) : Prop :=
  ∃ other, other ≠ index ∧ locks row = some other

theorem not_heldByOther {locks : Locks Nat} {row : Nat} (grants : locks.Grants index row) :
    ¬ HeldByOther locks index row := by
  rintro ⟨other, differs, held⟩
  exact differs (grants.eq held)

theorem not_heldByOther_of_held {locks : Locks Nat} {row : Nat} (held : locks row = some index) :
    ¬ HeldByOther locks index row :=
  not_heldByOther (Or.inr held)

/-- What a commit keeps, and that no workspace gets an owner before its time. -/
theorem frame_written (sound : Sound text hash system) (unhindered : system.Unhindered index)
    (written : system.written text hash index = some after) :
    Frame (HeldByOther system.memberLocks index) (HeldByOther system.organizationLocks index)
      system.tables after ∧ after.Awaiting := by
  have holds := sound.holds index
  have free : ∀ row ∈ system.tables.memberships, (system.requests index).Touches row →
      ¬ HeldByOther system.memberLocks index row.id :=
    fun row stored touched => not_heldByOther (unhindered row stored touched)
  have isWritten := written_of_write written
  generalize system.requests index = phase at holds free isWritten
  cases isWritten with
  | changed accepted =>
      obtain ⟨opened, -, stored, inside, -⟩ := holds
      exact ⟨frame_apply free, awaiting_apply sound.admitted sound.awaiting opened stored inside⟩
  | deleted unprotected => exact ⟨frame_deleteAccount free, awaiting_deleteAccount sound.awaiting⟩
  | delivered delivered =>
      exact ⟨frame_deliver delivered (not_heldByOther_of_held holds),
        awaiting_deliver sound.awaiting delivered⟩
  | revoked =>
      obtain ⟨locked, stored, -⟩ := holds
      exact ⟨frame_revoke sound.admitted.keyed.invitations stored (not_heldByOther_of_held locked),
        awaiting_revoke sound.awaiting⟩
  | joined =>
      obtain ⟨locked, current, noMembership⟩ := holds
      exact ⟨frame_join sound.admitted.keyed.invitations current.stored current.unchanged
          (not_heldByOther_of_held locked) free,
        awaiting_join sound.awaiting current noMembership⟩

theorem Sound.store (sound : Sound text hash system) (unhindered : system.Unhindered index)
    (written : system.written text hash index = some after) :
    Sound text hash (system.store index after) := by
  unfold System.store
  split_ifs with admitted
  · obtain ⟨frame, awaiting⟩ := frame_written sound unhindered written
    refine ⟨admitted, awaiting, holds_finish fun other differs => ?_⟩
    exact (sound.holds other).frame frame sound.admitted
      (fun _ held => ⟨other, differs, held⟩) (fun _ held => ⟨other, differs, held⟩)
  · exact sound.finish index

theorem Sound.commit (sound : Sound text hash system) :
    Sound text hash (system.commit text hash index) := by
  unfold System.commit
  split_ifs with goes
  · split
    · rename_i after written
      exact sound.store goes.2 written
    · exact sound.finish index
  · exact sound

theorem Sound.create {creation : Creation} (sound : Sound text hash system) :
    Sound text hash (system.create text hash creation) := by
  unfold System.create
  split_ifs with permitted
  · split
    · rename_i after created
      split_ifs with admitted
      · have isCreated := created_of_ok created
        refine ⟨admitted, awaiting_create sound.admitted admitted sound.awaiting isCreated,
          fun other => ?_⟩
        have frame : Frame (fun _ => True) (fun _ => True) system.tables after :=
          frame_create isCreated admitted sound.admitted
        exact (sound.holds other).frame frame sound.admitted (fun _ _ => trivial)
          (fun _ _ => trivial)
      · exact sound
    · exact sound
  · exact sound

theorem Sound.step (sound : Sound text hash system) (action : Action) :
    Sound text hash (system.step text hash action) := by
  have waits : ∀ {Value : Type} (found : Option Value) (task : Value → Task) (index : Nat)
      (entered : Phase), found.map (fun value => Phase.waitingOrganization (task value)) =
        some entered → Holds text hash system.tables system.memberLocks
          system.organizationLocks index entered := by
    intro Value found task index entered isEntered
    obtain ⟨value, -, rfl⟩ := Option.map_eq_some_iff.mp isEntered
    trivial
  cases action with
  | create creation => exact sound.create
  | changeMember index request =>
      apply sound.start
      intro entered found
      split_ifs at found with permits
      rw [← Option.some.inj found]
      exact permits.1
  | readRole index => exact sound.readRole
  | lockMember index => exact sound.lockTarget
  | deleteAccount index user =>
      apply sound.start
      intro entered found
      split_ifs at found with owns
      rw [← Option.some.inj found]
      trivial
  | invite index request email role => exact sound.start (waits _ _ _)
  | resend index request replaced => exact sound.start (waits _ _ _)
  | revoke index organization actor invitation => exact sound.start (waits _ _ _)
  | accept index acceptance => exact sound.start (waits _ _ _)
  | lockOrganization index => exact sound.lockWorkspace
  | join index => exact sound.join
  | commit index => exact sound.commit
  | fail index => exact sound.finish index
  | advance elapsed => exact ⟨sound.admitted, sound.awaiting, sound.holds⟩

/-! ### Installations -/

/-- The accounts of an installation without a workspace. -/
structure Installation where
  users : List User
  ids : (users.map User.id).Nodup
  usernames : (users.map User.username).Nodup

def Installation.start (installation : Installation) : System where
  tables := { users := installation.users }

theorem sound_installation (installation : Installation) :
    Sound text hash installation.start where
  admitted :=
    { keyed := ⟨installation.ids, installation.usernames, .nil, .nil, .nil⟩
      unique := ⟨.nil, .nil, .nil, .nil, .nil⟩
      referenced := ⟨List.forall_mem_nil _, List.forall_mem_nil _, List.forall_mem_nil _,
        List.forall_mem_nil _, List.forall_mem_nil _, List.forall_mem_nil _,
        List.forall_mem_nil _⟩ }
  awaiting := List.forall_mem_nil _
  holds := fun _ => trivial

end BubllioCrm.Access
