import BubllioCrm.Customers.Offboarding

/-!
Owns what the actions on records and members do to the assignees, and that the
records stay usable while no one is removed who has records and no save is
overtaken by a removal.
-/

namespace BubllioCrm.Customers

open BubllioCrm.Companies BubllioCrm.Foundations
open Access (Membership Role)
open Activities (Task TaskAttrs WorkflowStatus)
open Contacts (Contact ContactAttrs)
open Deals (Deal DealAttrs)
open Subscriptions (Subscription ReferenceAttrs)

/-! ### Assignees of a table -/

section Assignees

variable {Row : Type*} {organization : Row → Nat} {assignedTo : Row → Option Nat}
  {rows : List Row} {owner user : Nat}

theorem AssignedIn.of_insert {row : Row}
    (assigned : AssignedIn organization assignedTo (rows ++ [row]) owner user) :
    AssignedIn organization assignedTo rows owner user ∨
      organization row = owner ∧ assignedTo row = some user := by
  obtain ⟨other, stored, here⟩ := assigned
  rcases List.mem_append.mp stored with old | new
  · exact Or.inl ⟨other, old, here⟩
  · rw [List.mem_singleton.mp new] at here
    exact Or.inr here

theorem AssignedIn.of_update {selected : Row → Prop} [DecidablePred selected]
    {change : Row → Row}
    (assigned : AssignedIn organization assignedTo (updateWhere selected change rows) owner user) :
    AssignedIn organization assignedTo rows owner user ∨
      ∃ row ∈ rows, selected row ∧ organization (change row) = owner ∧
        assignedTo (change row) = some user := by
  obtain ⟨after, stored, here⟩ := assigned
  obtain ⟨before, old, ⟨hit, rfl⟩ | ⟨-, rfl⟩⟩ := mem_updateWhere.mp stored
  · exact Or.inr ⟨before, old, hit, here⟩
  · exact Or.inl ⟨after, old, here⟩

/-- An update that leaves the assignees alone assigns nothing. -/
theorem AssignedIn.of_update_same {selected : Row → Prop} [DecidablePred selected]
    {change : Row → Row} (sameOrganization : ∀ row, organization (change row) = organization row)
    (sameAssignee : ∀ row, assignedTo (change row) = assignedTo row)
    (assigned : AssignedIn organization assignedTo (updateWhere selected change rows) owner user) :
    AssignedIn organization assignedTo rows owner user := by
  rcases assigned.of_update with old | ⟨row, stored, -, here⟩
  · exact old
  · rw [sameOrganization, sameAssignee] at here
    exact ⟨row, stored, here⟩

theorem AssignedIn.of_filter {keep : Row → Bool}
    (assigned : AssignedIn organization assignedTo (rows.filter keep) owner user) :
    AssignedIn organization assignedTo rows owner user := by
  obtain ⟨row, stored, here⟩ := assigned
  exact ⟨row, List.mem_of_mem_filter stored, here⟩

/-- The assignees of a table are read off its columns. -/
theorem AssignedIn.congr {key : Row → Nat} {others : List Row}
    (same : rows.map (fun row => (key row, organization row, assignedTo row)) =
      others.map fun row => (key row, organization row, assignedTo row))
    (assigned : AssignedIn organization assignedTo others owner user) :
    AssignedIn organization assignedTo rows owner user := by
  obtain ⟨row, stored, isOwner, isUser⟩ := assigned
  have listed : (key row, organization row, assignedTo row) ∈
      rows.map fun row => (key row, organization row, assignedTo row) :=
    same ▸ List.mem_map_of_mem stored
  obtain ⟨other, otherStored, alike⟩ := List.mem_map.mp listed
  simp only [Prod.mk.injEq] at alike
  exact ⟨other, otherStored, alike.2.1.trans isOwner, alike.2.2.trans isUser⟩

end Assignees

namespace Records

variable {records next : Records} {organization user index now id : Nat} {write : Write}
  {seen : Related} {phase : Phase}

/-! ### One table at a time -/

theorem Assigned.contact (assigned : AssignedIn Contact.organization Contact.assignedTo
    records.contacts organization user) : records.Assigned organization user :=
  Or.inl assigned

theorem Assigned.deal (assigned : AssignedIn Deal.organization Deal.assignedTo
    records.deals organization user) : records.Assigned organization user :=
  Or.inr (Or.inl assigned)

theorem Assigned.task (assigned : AssignedIn Task.organization Task.assignedTo
    records.tasks organization user) : records.Assigned organization user :=
  Or.inr (Or.inr (Or.inl assigned))

theorem Assigned.subscription (assigned : AssignedIn Subscription.organization
    Subscription.assignedTo records.subscriptions organization user) :
    records.Assigned organization user :=
  Or.inr (Or.inr (Or.inr assigned))

section Writes

variable {others : Prop} {contacts : List Contact} {deals : List Deal} {tasks : List Task}
  {subscriptions : List Subscription}

/-- What is assigned after a table was written was assigned before, if that is
so of the table. -/
theorem Assigned.of_contacts
    (assigned : ({ records with contacts := contacts } : Records).Assigned organization user)
    (new : AssignedIn Contact.organization Contact.assignedTo contacts organization user →
      records.Assigned organization user ∨ others) :
    records.Assigned organization user ∨ others := by
  rcases assigned with contact | rest
  · exact new contact
  · exact Or.inl (Or.inr rest)

theorem Assigned.of_deals
    (assigned : ({ records with deals := deals } : Records).Assigned organization user)
    (new : AssignedIn Deal.organization Deal.assignedTo deals organization user →
      records.Assigned organization user ∨ others) :
    records.Assigned organization user ∨ others := by
  rcases assigned with contact | deal | rest
  · exact Or.inl (Or.inl contact)
  · exact new deal
  · exact Or.inl (Or.inr (Or.inr rest))

theorem Assigned.of_tasks
    (assigned : ({ records with tasks := tasks } : Records).Assigned organization user)
    (new : AssignedIn Task.organization Task.assignedTo tasks organization user →
      records.Assigned organization user ∨ others) :
    records.Assigned organization user ∨ others := by
  rcases assigned with contact | deal | task | subscription
  · exact Or.inl (Or.inl contact)
  · exact Or.inl (Assigned.deal deal)
  · exact new task
  · exact Or.inl (Assigned.subscription subscription)

theorem Assigned.of_subscriptions
    (assigned :
      ({ records with subscriptions := subscriptions } : Records).Assigned organization user)
    (new : AssignedIn Subscription.organization Subscription.assignedTo subscriptions organization
        user → records.Assigned organization user ∨ others) :
    records.Assigned organization user ∨ others := by
  rcases assigned with contact | deal | task | subscription
  · exact Or.inl (Or.inl contact)
  · exact Or.inl (Assigned.deal deal)
  · exact Or.inl (Assigned.task task)
  · exact new subscription

end Writes

/-! ### What a save assigns -/

theorem mem_assignment {assignedTo : Option Nat} {owner : Nat} (isOwner : owner = organization)
    (isUser : assignedTo = some user) : (organization, user) ∈ assignment owner assignedTo := by
  subst isOwner isUser
  exact List.mem_singleton_self _

/-- The contacts that give way keep their assignees. -/
theorem assignedIn_yieldPrimary {attrs : ContactAttrs} {contact : Contact}
    {contacts : List Contact}
    (assigned : AssignedIn Contact.organization Contact.assignedTo
      (Contacts.yieldPrimary attrs contact contacts) organization user) :
    AssignedIn Contact.organization Contact.assignedTo contacts organization user := by
  unfold Contacts.yieldPrimary at assigned
  split_ifs at assigned with names
  · refine AssignedIn.of_update_same ?_ ?_ assigned
    · exact fun _ => rfl
    · exact fun _ => rfl
  · exact assigned

theorem assigned_storeContacts {contacts : List Contact} {others : Prop}
    (new : AssignedIn Contact.organization Contact.assignedTo contacts organization user →
      records.Assigned organization user ∨ others)
    (assigned : (records.storeContacts seen contacts).Assigned organization user) :
    records.Assigned organization user ∨ others := by
  unfold storeContacts at assigned
  split_ifs at assigned with admits
  · exact assigned.of_contacts new
  · exact Or.inl assigned

theorem assigned_createContact {attrs : ContactAttrs} {contact : Contact}
    (assigned : (records.save seen now (.createContact attrs contact)).Assigned organization user) :
    records.Assigned organization user ∨
      (organization, user) ∈ assignment contact.organization contact.assignedTo := by
  refine assigned_storeContacts (fun new => ?_) assigned
  rcases AssignedIn.of_insert new with old | ⟨isOwner, isUser⟩
  · exact Or.inl (Assigned.contact (assignedIn_yieldPrimary old))
  · exact Or.inr (mem_assignment isOwner isUser)

theorem assigned_updateContact {attrs : ContactAttrs} {contact : Contact}
    (assigned : (records.save seen now (.updateContact attrs contact)).Assigned organization user) :
    records.Assigned organization user ∨
      (organization, user) ∈ assignment contact.organization contact.assignedTo := by
  refine assigned_storeContacts (fun new => ?_) assigned
  rcases AssignedIn.of_update new with old | ⟨row, -, -, isOwner, isUser⟩
  · exact Or.inl (Assigned.contact (assignedIn_yieldPrimary old))
  · exact Or.inr (mem_assignment isOwner isUser)

theorem assigned_createDeal {deal : Deal}
    (assigned : (records.save seen now (.createDeal deal)).Assigned organization user) :
    records.Assigned organization user ∨
      (organization, user) ∈ assignment deal.organization deal.assignedTo := by
  unfold save at assigned
  dsimp only at assigned
  split_ifs at assigned with taken
  · exact Or.inl assigned
  refine Assigned.of_deals assigned fun new => ?_
  rcases AssignedIn.of_insert new with old | ⟨isOwner, isUser⟩
  · exact Or.inl (Assigned.deal old)
  · exact Or.inr (mem_assignment isOwner isUser)

theorem assigned_updateDeal {deal : Deal}
    (assigned : (records.save seen now (.updateDeal deal)).Assigned organization user) :
    records.Assigned organization user ∨
      (organization, user) ∈ assignment deal.organization deal.assignedTo := by
  refine Assigned.of_deals assigned fun new => ?_
  rcases AssignedIn.of_update new with old | ⟨row, -, -, isOwner, isUser⟩
  · exact Or.inl (Assigned.deal old)
  · exact Or.inr (mem_assignment isOwner isUser)

theorem assigned_createTask {task : Task}
    (assigned : (records.save seen now (.createTask task)).Assigned organization user) :
    records.Assigned organization user ∨
      (organization, user) ∈ assignment task.organization task.assignedTo := by
  unfold save at assigned
  dsimp only at assigned
  split_ifs at assigned with taken
  · exact Or.inl assigned
  refine Assigned.of_tasks assigned fun new => ?_
  rcases AssignedIn.of_insert new with old | ⟨isOwner, isUser⟩
  · exact Or.inl (Assigned.task old)
  · exact Or.inr (mem_assignment isOwner isUser)

theorem assigned_createSubscription {subscription : Subscription}
    (assigned :
      (records.save seen now (.createSubscription subscription)).Assigned organization user) :
    records.Assigned organization user ∨
      (organization, user) ∈ assignment subscription.organization subscription.assignedTo := by
  unfold save at assigned
  dsimp only at assigned
  split_ifs at assigned with taken
  · exact Or.inl assigned
  refine Assigned.of_subscriptions assigned fun new => ?_
  rcases AssignedIn.of_insert new with old | ⟨isOwner, isUser⟩
  · exact Or.inl (Assigned.subscription old)
  · exact Or.inr (mem_assignment isOwner isUser)

/-- An assignee that is written by name is the one that is named, or the one
that was stored. -/
theorem assignee_getD {named : Option (Option Nat)} {stored : Option Nat}
    (isUser : named.getD stored = some user) : named.join = some user ∨ stored = some user := by
  cases named with
  | none => exact Or.inr isUser
  | some assignedTo => exact Or.inl isUser

theorem assigned_updateTask {attrs : TaskAttrs} {workflowStatus : Option WorkflowStatus}
    {actor : Nat} {loaded : Task}
    (assigned : (records.save seen now
      (.updateTask attrs workflowStatus actor loaded)).Assigned organization user) :
    records.Assigned organization user ∨ (organization, user) ∈
      Write.assignments records (.updateTask attrs workflowStatus actor loaded) := by
  refine Assigned.of_tasks assigned fun new => ?_
  rcases AssignedIn.of_update new with old | ⟨row, stored, isLoaded, isOwner, isUser⟩
  · exact Or.inl (Assigned.task old)
  have written : (Activities.updateTask attrs workflowStatus actor now row).organization =
      row.organization := by
    unfold Activities.updateTask
    cases workflowStatus <;> rfl
  have assignee : (Activities.updateTask attrs workflowStatus actor now row).assignedTo =
      attrs.assignedTo.getD row.assignedTo := by
    unfold Activities.updateTask
    cases workflowStatus <;> rfl
  rw [written] at isOwner
  rw [assignee] at isUser
  rcases assignee_getD isUser with named | kept
  · right
    apply List.mem_flatMap.mpr
    exact ⟨row, List.mem_filter.mpr ⟨stored, decide_eq_true isLoaded⟩,
      mem_assignment isOwner named⟩
  · exact Or.inl (Assigned.task ⟨row, stored, isOwner, kept⟩)

theorem assigned_updateSubscription {attrs : ReferenceAttrs} {loaded : Subscription}
    (assigned : (records.save seen now
      (.updateSubscription attrs loaded)).Assigned organization user) :
    records.Assigned organization user ∨ (organization, user) ∈
      Write.assignments records (.updateSubscription attrs loaded) := by
  refine Assigned.of_subscriptions assigned fun new => ?_
  rcases AssignedIn.of_update new with old | ⟨row, stored, isLoaded, isOwner, isUser⟩
  · exact Or.inl (Assigned.subscription old)
  unfold updateSubscription at isOwner isUser
  cases isUpdated : Subscriptions.updateReferences attrs row with
  | error raised =>
      rw [isUpdated] at isOwner isUser
      exact Or.inl (Assigned.subscription ⟨row, stored, isOwner, isUser⟩)
  | ok updated =>
      rw [isUpdated] at isOwner isUser
      obtain ⟨account, rfl⟩ := Subscriptions.updateReferences_ok isUpdated
      rcases assignee_getD isUser with named | kept
      · right
        apply List.mem_flatMap.mpr
        exact ⟨row, List.mem_filter.mpr ⟨stored, decide_eq_true isLoaded⟩,
          mem_assignment isOwner named⟩
      · exact Or.inl (Assigned.subscription ⟨row, stored, isOwner, kept⟩)

/-- After a save, a record is assigned to whom it was assigned to or to whom the
save assigns it. -/
theorem assigned_save (assigned : (records.save seen now write).Assigned organization user) :
    records.Assigned organization user ∨ (organization, user) ∈ write.assignments records := by
  cases write with
  | createContact attrs contact => exact assigned_createContact assigned
  | updateContact attrs contact => exact assigned_updateContact assigned
  | createDeal deal => exact assigned_createDeal assigned
  | updateDeal deal => exact assigned_updateDeal assigned
  | createTask task => exact assigned_createTask assigned
  | updateTask attrs workflowStatus actor loaded => exact assigned_updateTask assigned
  | createSubscription subscription => exact assigned_createSubscription assigned
  | updateSubscription attrs loaded => exact assigned_updateSubscription assigned

theorem assigned_resave (assigned : (records.resave seen now write).Assigned organization user) :
    records.Assigned organization user ∨ (organization, user) ∈ write.assignments records := by
  have saved (same : records.resave seen now write = records.save seen now write) :
      records.Assigned organization user ∨ (organization, user) ∈ write.assignments records :=
    assigned_save (same ▸ assigned)
  cases write with
  | updateContact attrs contact =>
      unfold resave at assigned
      dsimp only at assigned
      split_ifs at assigned with present
      · exact assigned_updateContact assigned
      · exact assigned_createContact assigned
  | updateDeal deal =>
      unfold resave at assigned
      dsimp only at assigned
      split_ifs at assigned with present
      · exact assigned_updateDeal assigned
      · exact assigned_createDeal assigned
  | createContact attrs contact => exact saved rfl
  | createDeal deal => exact saved rfl
  | createTask task => exact saved rfl
  | updateTask attrs workflowStatus actor loaded => exact saved rfl
  | createSubscription subscription => exact saved rfl
  | updateSubscription attrs loaded => exact saved rfl

/-! ### The other actions -/

theorem assigned_deleteContact {owner : Nat}
    (assigned : (records.deleteContact owner id).Assigned organization user) :
    records.Assigned organization user := by
  unfold deleteContact at assigned
  split_ifs at assigned with found
  · rcases assigned with contact | deal | task | subscription
    · exact Assigned.contact contact.of_filter
    · refine Assigned.deal (AssignedIn.of_update_same ?_ ?_ deal)
      · exact fun _ => rfl
      · exact fun _ => rfl
    · refine Assigned.task (AssignedIn.of_update_same ?_ ?_ task)
      · exact fun _ => rfl
      · exact fun _ => rfl
    · exact Assigned.subscription subscription
  · exact assigned

theorem assigned_deleteDeal {owner : Nat}
    (assigned : (records.deleteDeal owner id).Assigned organization user) :
    records.Assigned organization user := by
  unfold deleteDeal at assigned
  split_ifs at assigned with found
  · rcases assigned with contact | deal | task | subscription
    · exact Assigned.contact contact
    · exact Assigned.deal deal.of_filter
    · refine Assigned.task (AssignedIn.of_update_same ?_ ?_ task)
      · exact fun _ => rfl
      · exact fun _ => rfl
    · refine Assigned.subscription (AssignedIn.of_update_same ?_ ?_ subscription)
      · exact fun _ => rfl
      · exact fun _ => rfl
  · exact assigned

theorem assigned_deleteTask {owner : Nat}
    (assigned : (records.deleteTask owner id).Assigned organization user) :
    records.Assigned organization user := by
  unfold deleteTask at assigned
  split_ifs at assigned with found
  · rcases assigned with contact | deal | task | subscription
    · exact Assigned.contact contact
    · exact Assigned.deal deal
    · exact Assigned.task task.of_filter
    · exact Assigned.subscription subscription
  · exact assigned

theorem assigned_touch (same : SameAssignees records next)
    (assigned : next.Assigned organization user) : records.Assigned organization user := by
  rcases assigned with contact | deal | task | subscription
  · exact Assigned.contact (AssignedIn.congr same.contacts contact)
  · exact Assigned.deal (AssignedIn.congr same.deals deal)
  · exact Assigned.task (AssignedIn.congr same.tasks task)
  · exact Assigned.subscription (AssignedIn.congr same.subscriptions subscription)

/-- A check and a failure write no table. -/
theorem assigned_enter {found : Option Write}
    (assigned : (records.enter index seen found).Assigned organization user) :
    records.Assigned organization user := by
  cases found with
  | none => exact assigned
  | some write => exact assigned

theorem assigned_check {owner actor : Nat} {outside : Surroundings} {request : Request}
    (assigned : (records.step
      (.check index owner actor now request outside)).Assigned organization user) :
    records.Assigned organization user := by
  unfold step at assigned
  dsimp only at assigned
  cases phase : records.requests index with
  | idle =>
      rw [phase] at assigned
      exact assigned_enter assigned
  | checked write seen =>
      rw [phase] at assigned
      exact assigned

end Records

/-! ### Members -/

section Members

variable {memberships : List Membership} {organization user : Nat} {target : Membership}

theorem isMember_iff : isMember memberships organization user = true ↔
    ∃ row ∈ memberships, row.organization = organization ∧ row.user = user := by
  simp [isMember]

theorem isMember_append {membership : Membership}
    (member : isMember memberships organization user = true) :
    isMember (memberships ++ [membership]) organization user = true := by
  rw [isMember_iff] at member ⊢
  obtain ⟨row, stored, here⟩ := member
  exact ⟨row, List.mem_append_left _ stored, here⟩

/-- Who is not the target of a removal stays a member. -/
theorem isMember_filter (keyed : (memberships.map Membership.id).Nodup)
    (stored : target ∈ memberships)
    (others : ¬ (target.organization = organization ∧ target.user = user))
    (member : isMember memberships organization user = true) :
    isMember (memberships.filter (·.id ≠ target.id)) organization user = true := by
  rw [isMember_iff] at member ⊢
  obtain ⟨row, isRow, here⟩ := member
  refine ⟨row, List.mem_filter.mpr ⟨isRow, decide_eq_true fun sameId => others ?_⟩, here⟩
  have same : row = target := List.inj_on_of_nodup_map keyed isRow stored sameId
  exact same ▸ here

end Members

/-! ### PATCH requests -/

/-- A check of the assignee that two memberships decide alike. -/
theorem any_congr {first second : Nat → Bool} {owner : Option Nat}
    (same : ∀ user ∈ owner, first user = second user) :
    (owner.any fun user => decide (¬ first user = true)) =
      owner.any fun user => decide (¬ second user = true) := by
  cases owner with
  | none => rfl
  | some user => rw [Option.any_some, Option.any_some, same user rfl]

section Patches

variable {related : Related} {first second : Nat → Nat → Bool} {organization : Nat}

/-- The serializers ask for the memberships of the assignee only. -/
theorem validate_contact_congr {contacts : List Contact} {stored : Option Contact}
    {attrs : ContactAttrs}
    (same : ∀ user ∈ attrs.assignedTo.getD (stored.bind Contact.assignedTo),
      first organization user = second organization user) :
    Contacts.validate { related with isMember := first } contacts organization stored attrs =
      Contacts.validate { related with isMember := second } contacts organization stored attrs := by
  unfold Contacts.validate
  dsimp only
  rw [any_congr same]

theorem validate_deal_congr {stored : Option Deal} {attrs : DealAttrs}
    (same : ∀ user ∈ attrs.assignedTo.getD (stored.bind Deal.assignedTo),
      first organization user = second organization user) :
    Deals.validate { related with isMember := first } organization stored attrs =
      Deals.validate { related with isMember := second } organization stored attrs := by
  unfold Deals.validate
  dsimp only
  rw [any_congr same]

theorem validate_task_congr {stored : Option Task} {attrs : TaskAttrs}
    (same : ∀ user ∈ attrs.assignedTo.getD (stored.bind Task.assignedTo),
      first organization user = second organization user) :
    Activities.validate { related with isMember := first } organization stored attrs =
      Activities.validate { related with isMember := second } organization stored attrs := by
  unfold Activities.validate
  dsimp only
  rw [any_congr same]

theorem validate_subscription_congr {catalog : Nat → Option Subscriptions.ServiceCatalogItem}
    {today : Date} {stored : Option Subscription} {attrs : ReferenceAttrs}
    (same : ∀ user ∈ attrs.assignedTo.getD (stored.bind Subscription.assignedTo),
      first organization user = second organization user) :
    Subscriptions.validateReferences { related with isMember := first } catalog today organization
        stored attrs =
      Subscriptions.validateReferences { related with isMember := second } catalog today
        organization stored attrs := by
  unfold Subscriptions.validateReferences
  dsimp only
  rw [any_congr same]

end Patches

namespace Workspaces

variable {workspaces : Workspaces} {action : MemberAction}

/-- An assignee that a request leaves alone is a member. -/
theorem AssignedToMembers.same {organization : Nat} {named : Option (Option Nat)}
    {assignedTo : Option Nat} (assigned : workspaces.AssignedToMembers) (unnamed : named = none)
    (stored : ∀ user, assignedTo = some user → workspaces.records.Assigned organization user) :
    ∀ user ∈ named.getD assignedTo, true = isMember workspaces.memberships organization user := by
  intro user isUser
  rw [unnamed] at isUser
  exact (assigned organization user (stored user isUser)).symm

/-- A PATCH request on a record of a member is judged as if everybody were a
member. -/
theorem AssignedToMembers.check_eq {organization user now : Nat} {outside : Surroundings}
    {request : Request} (assigned : workspaces.AssignedToMembers)
    (leaves : request.LeavesAssignee) :
    workspaces.records.check organization user now outside.open request =
      workspaces.records.check organization user now (workspaces.surroundings outside) request := by
  cases request with
  | createContact id attrs => cases leaves
  | createDeal id attrs => cases leaves
  | createTask id attrs => cases leaves
  | createSubscription id attrs => cases leaves
  | patchContact id attrs =>
      unfold Records.check
      dsimp only
      apply Option.bind_congr
      intro loaded found
      have isHere : loaded.id = id ∧ loaded.organization = organization := by
        simpa using List.find?_some found
      have same := assigned.same leaves fun user isUser => Records.Assigned.contact
        ⟨loaded, List.mem_of_find?_eq_some found, isHere.2, isUser⟩
      have valid := @validate_contact_congr (workspaces.records.related outside.related)
        (fun _ _ => true) (isMember workspaces.memberships) organization
        workspaces.records.contacts (some loaded) attrs same
      exact congrArg (fun result => result.toOption.bind fun accepted =>
        some (Write.updateContact accepted (accepted.setOn loaded))) valid
  | patchDeal id attrs =>
      unfold Records.check
      dsimp only
      apply Option.bind_congr
      intro loaded found
      have isHere : loaded.id = id ∧ loaded.organization = organization := by
        simpa using List.find?_some found
      have same := assigned.same leaves fun user isUser => Records.Assigned.deal
        ⟨loaded, List.mem_of_find?_eq_some found, isHere.2, isUser⟩
      have valid := @validate_deal_congr (workspaces.records.related outside.related)
        (fun _ _ => true) (isMember workspaces.memberships) organization (some loaded) attrs same
      exact congrArg (fun result => result.toOption.bind fun accepted =>
        some (Write.updateDeal (accepted.setOn loaded))) valid
  | patchTask id attrs workflowStatus =>
      unfold Records.check
      dsimp only
      apply Option.bind_congr
      intro loaded found
      have isHere : loaded.id = id ∧ loaded.organization = organization := by
        simpa using List.find?_some found
      have same := assigned.same leaves fun user isUser => Records.Assigned.task
        ⟨loaded, List.mem_of_find?_eq_some found, isHere.2, isUser⟩
      have valid := @validate_task_congr (workspaces.records.related outside.related)
        (fun _ _ => true) (isMember workspaces.memberships) organization (some loaded) attrs same
      exact congrArg (fun result => result.toOption.bind fun accepted =>
        some (Write.updateTask accepted workflowStatus user loaded)) valid
  | patchSubscription id attrs =>
      unfold Records.check
      dsimp only
      apply Option.bind_congr
      intro loaded found
      have isHere : loaded.id = id ∧ loaded.organization = organization := by
        simpa using List.find?_some found
      have same := assigned.same leaves fun user isUser => Records.Assigned.subscription
        ⟨loaded, List.mem_of_find?_eq_some found, isHere.2, isUser⟩
      have valid := @validate_subscription_congr (workspaces.records.related outside.related)
        (fun _ _ => true) (isMember workspaces.memberships) organization
        outside.catalog outside.today (some loaded) attrs same
      exact congrArg (fun result => result.toOption.bind fun accepted =>
        some (Write.updateSubscription accepted loaded)) valid

theorem AssignedToMembers.usable (assigned : workspaces.AssignedToMembers) : workspaces.Usable where
  assigned := assigned
  accepts := by
    intro organization user now outside request leaves isAccepted
    rwa [assigned.check_eq leaves] at isAccepted

/-! ### Runs -/

/-- The ids of the memberships are distinct, and the records are assigned to
members. -/
structure Sound (workspaces : Workspaces) : Prop where
  keyed : (workspaces.memberships.map Membership.id).Nodup
  assigned : workspaces.AssignedToMembers

/-- What writes no assignee keeps the records with members. -/
theorem Sound.records {records : Records} (sound : workspaces.Sound)
    (kept : ∀ organization user, records.Assigned organization user →
      workspaces.records.Assigned organization user) :
    Sound { workspaces with records := records } :=
  ⟨sound.keyed, fun organization user assigned =>
    sound.assigned organization user (kept organization user assigned)⟩

theorem Sound.refinish {index now : Nat} {phase : Phase} (sound : workspaces.Sound)
    (members : workspaces.AssignsMembers phase) :
    Sound { workspaces with records := workspaces.records.refinish index now phase } := by
  cases phase with
  | idle => exact sound
  | checked write seen =>
      refine ⟨sound.keyed, fun organization user assigned => ?_⟩
      rcases Records.assigned_resave assigned with stored | written
      · exact sound.assigned organization user stored
      · exact members (organization, user) written

theorem Sound.remove {target : Option Membership} (sound : workspaces.Sound)
    (stored : ∀ membership ∈ target, membership ∈ workspaces.memberships)
    (nothing : workspaces.HasNothing target) : (workspaces.remove target).Sound := by
  cases target with
  | none => exact sound
  | some target =>
      refine ⟨sound.keyed.sublist (List.filter_sublist.map _), fun organization user assigned => ?_⟩
      apply isMember_filter sound.keyed (stored target rfl) ?_
        (sound.assigned organization user assigned)
      rintro ⟨rfl, rfl⟩
      exact nothing assigned

theorem removed_mem {organization membership : Nat} {role : Role} {target : Membership}
    (isTarget : target ∈ workspaces.removed organization membership role) :
    target ∈ workspaces.memberships := by
  unfold removed at isTarget
  exact List.mem_of_find?_eq_some (Option.filter_eq_some_iff.mp isTarget).1

theorem Sound.join {membership : Membership} (sound : workspaces.Sound) :
    (workspaces.join membership).Sound := by
  unfold Workspaces.join
  split_ifs with taken
  · exact sound
  · refine ⟨?_, fun organization user assigned =>
      isMember_append (sound.assigned organization user assigned)⟩
    rw [List.map_append, List.nodup_append]
    refine ⟨sound.keyed, List.nodup_singleton _, ?_⟩
    intro id listed other single same
    obtain ⟨stored, isStored, isId⟩ := List.mem_map.mp listed
    rw [List.map_singleton, List.mem_singleton] at single
    exact taken ⟨stored, isStored, Or.inl (isId.trans (same.trans single))⟩

theorem Sound.step (sound : workspaces.Sound) (orderly : workspaces.Orderly action) :
    (workspaces.step action).Sound := by
  cases action with
  | check index organization user now request outside =>
      exact sound.records fun _ _ => Records.assigned_check
  | save index now => exact sound.refinish orderly
  | fail index => exact sound.records fun _ _ assigned => assigned
  | deleteContact organization id => exact sound.records fun _ _ => Records.assigned_deleteContact
  | deleteDeal organization id => exact sound.records fun _ _ => Records.assigned_deleteDeal
  | deleteTask organization id => exact sound.records fun _ _ => Records.assigned_deleteTask
  | touch records =>
      unfold Workspaces.step
      dsimp only
      split_ifs with same
      · exact sound.records fun _ _ assigned => Records.assigned_touch same assigned
      · exact sound
  | removeMember organization membership role =>
      exact sound.remove (fun _ => removed_mem) orderly
  | join membership => exact sound.join

/-- While no member is removed to whom a record is assigned and no save assigns
to somebody who has been removed since its check, every record stays assigned to
a member and open to edits. -/
theorem records_usable (actions : List MemberAction)
    (orderly : EveryStep step Orderly {} actions) : Always step Usable {} actions := by
  have start : Sound {} := by
    refine ⟨List.nodup_nil, fun organization user assigned => ?_⟩
    rcases assigned with ⟨_, stored, _⟩ | ⟨_, stored, _⟩ | ⟨_, stored, _⟩ | ⟨_, stored, _⟩ <;>
      cases stored
  exact (always_guarded Sound (fun _ _ => Sound.step) start orderly).imp
    fun _ sound => sound.assigned.usable

/-! ### A sample workspace -/

/-- What the tables of the samples do not hold. -/
def elsewhere : Surroundings where
  related := {
    companyOrganization := fun _ => some 1
    contactOrganization := fun _ => none
    contactCompany := fun _ => none
    dealOrganization := fun _ => none
    dealCompany := fun _ => none
    catalogItemOrganization := fun _ => some 1
    isMember := fun _ _ => true
    hasCostLines := fun _ => false
    upper := id
    iexact := fun first second => first = second
    lower := id }
  today := ⟨2026, 1, 1, by decide⟩

/-- The owner 7 and the member 9 of a workspace, and a deal of the member. -/
def dealOfMember : List MemberAction :=
  [.join { id := 1, organization := 1, user := 7, role := .owner },
    .join { id := 2, organization := 1, user := 9, role := .member },
    .check 0 1 7 100 (.createDeal 20
      { company := some 1, assignedTo := some (some 9), title := some "Renewal" }) elsewhere,
    .save 0 100]

/-- The deal is handed over to the owner before the member is removed. -/
theorem records_usable_handed_over :
    Always step Usable {} (dealOfMember ++
      [.check 0 1 7 110 (.patchDeal 20 { assignedTo := some (some 7) }) elsewhere, .save 0 110,
        .removeMember 1 2 .owner]) :=
  records_usable _ (by decide +kernel)

/-- The member is removed while the deal is theirs, and no PATCH request on the
deal is accepted any more. -/
theorem records_not_always_usable :
    ¬ ∀ actions : List MemberAction, Always step Usable {} actions := by
  intro always
  have usable := (always (dealOfMember ++ [.removeMember 1 2 .owner])).at_end
  have accepted := usable.accepts 1 7 120 elsewhere
    (.patchDeal 20 { title := some "Renewal 2027" }) rfl
  revert accepted
  decide +kernel

end Workspaces

end BubllioCrm.Customers
