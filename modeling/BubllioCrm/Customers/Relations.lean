import BubllioCrm.Customers.Records
import BubllioCrm.Foundations.Fallible

/-!
Owns the relation between the records of one customer along the runs of the
requests: what a check has found of the row it leads to, what each save keeps,
and the runs in which every reference stays within its company.
-/

namespace BubllioCrm.Customers

open BubllioCrm.Companies BubllioCrm.Foundations
open Activities (Task TaskAttrs WorkflowStatus)
open Contacts (Contact ContactAttrs)
open Deals (Deal DealAttrs)
open Subscriptions (Subscription ReferenceAttrs)

namespace Records

variable {records : Records} {seen outside : Related} {write : Write} {request : Request}
  {action : Action} {surroundings : Surroundings} {organization user now index : Nat}

/-! ### What a check leaves -/

/-- The references of the row that a check has passed. -/
def Checked (seen : Related) : Write → Prop
  | .createContact _ _ => True
  | .updateContact _ _ => True
  | .createDeal deal => Leads seen.contactCompany deal.company deal.contact
  | .updateDeal deal => Leads seen.contactCompany deal.company deal.contact
  | .createTask task =>
      Leads seen.contactCompany task.company task.contact ∧
        Leads seen.dealCompany task.company task.deal
  | .updateTask attrs _ _ loaded =>
      Leads seen.contactCompany (attrs.company.getD loaded.company)
          (attrs.contact.getD loaded.contact) ∧
        Leads seen.dealCompany (attrs.company.getD loaded.company) (attrs.deal.getD loaded.deal)
  | .createSubscription subscription =>
      Leads seen.dealCompany subscription.company subscription.originatingDeal
  | .updateSubscription attrs loaded =>
      Leads seen.dealCompany (attrs.company.getD loaded.company)
        (attrs.originatingDeal.getD loaded.originatingDeal)

theorem checked_createDeal {id : Nat} {attrs accepted : DealAttrs} {deal : Deal}
    (valid : Deals.validate seen organization none attrs = .ok accepted)
    (isRow : accepted.toRow id organization now = some deal) :
    Checked seen (.createDeal deal) := by
  obtain rfl := Deals.validate_ok valid
  obtain ⟨company, contact⟩ := Deals.toRow_references isRow
  show Leads _ _ _
  rw [contact]
  exact Deals.leads_of_validate valid (by rw [company]; rfl)

theorem checked_updateDeal {attrs accepted : DealAttrs} {loaded : Deal}
    (valid : Deals.validate seen organization (some loaded) attrs = .ok accepted) :
    Checked seen (.updateDeal (accepted.setOn loaded)) := by
  obtain rfl := Deals.validate_ok valid
  exact Deals.leads_of_validate valid (orElse_some _ _)

theorem checked_createTask {id : Nat} {attrs accepted : TaskAttrs} {task : Task}
    (valid : Activities.validate seen organization none attrs = .ok accepted)
    (isRow : accepted.toRow id organization = some task) : Checked seen (.createTask task) := by
  obtain rfl := Activities.validate_ok valid
  obtain ⟨company, contact, deal⟩ := Activities.toRow_references isRow
  show Leads _ _ _ ∧ Leads _ _ _
  rw [contact, deal]
  exact Activities.leads_of_validate valid (by rw [company]; rfl)

theorem checked_updateTask {attrs accepted : TaskAttrs} {loaded : Task}
    (valid : Activities.validate seen organization (some loaded) attrs = .ok accepted)
    (workflowStatus : Option WorkflowStatus) :
    Checked seen (.updateTask accepted workflowStatus user loaded) := by
  obtain rfl := Activities.validate_ok valid
  exact Activities.leads_of_validate valid (orElse_some _ _)

theorem checked_createSubscription {id : Nat} {attrs accepted : ReferenceAttrs}
    {subscription : Subscription}
    (valid : Subscriptions.validateReferences seen surroundings.catalog surroundings.today
      organization none attrs = .ok accepted)
    (isRow : accepted.toSubscription id organization = some subscription) :
    Checked seen (.createSubscription subscription) := by
  obtain ⟨company, deal⟩ := Subscriptions.toSubscription_references isRow
  obtain ⟨terms, rfl⟩ := Subscriptions.validateReferences_ok valid
  show Leads _ _ _
  rw [deal]
  have isCompany : attrs.company = some subscription.company := company
  exact Subscriptions.leads_of_validateReferences valid (by rw [isCompany]; rfl)

theorem checked_updateSubscription {attrs accepted : ReferenceAttrs} {loaded : Subscription}
    (valid : Subscriptions.validateReferences seen surroundings.catalog surroundings.today
      organization (some loaded) attrs = .ok accepted) :
    Checked seen (.updateSubscription accepted loaded) := by
  obtain ⟨terms, rfl⟩ := Subscriptions.validateReferences_ok valid
  exact Subscriptions.leads_of_validateReferences valid (orElse_some _ _)

/-- What a request has passed when it is left to save: its row is found if it has
one, its attributes are valid, and a new row has all its columns. -/
inductive Passes (records : Records) (organization user now : Nat) (surroundings : Surroundings) :
    Request → Write → Prop where
  | createContact {id : Nat} {attrs accepted : ContactAttrs} {contact : Contact}
      (valid : Contacts.validate (records.related surroundings.related) records.contacts
        organization none attrs = .ok accepted)
      (isRow : accepted.toRow id organization = some contact) :
      Passes records organization user now surroundings (.createContact id attrs)
        (.createContact accepted contact)
  | patchContact {id : Nat} {attrs accepted : ContactAttrs} {loaded : Contact}
      (found : loaded ∈ records.contacts ∧ loaded.id = id ∧ loaded.organization = organization)
      (valid : Contacts.validate (records.related surroundings.related) records.contacts
        organization (some loaded) attrs = .ok accepted) :
      Passes records organization user now surroundings (.patchContact id attrs)
        (.updateContact accepted (accepted.setOn loaded))
  | createDeal {id : Nat} {attrs accepted : DealAttrs} {deal : Deal}
      (valid : Deals.validate (records.related surroundings.related) organization none attrs =
        .ok accepted)
      (isRow : accepted.toRow id organization now = some deal) :
      Passes records organization user now surroundings (.createDeal id attrs) (.createDeal deal)
  | patchDeal {id : Nat} {attrs accepted : DealAttrs} {loaded : Deal}
      (found : loaded ∈ records.deals ∧ loaded.id = id ∧ loaded.organization = organization)
      (valid : Deals.validate (records.related surroundings.related) organization (some loaded)
        attrs = .ok accepted) :
      Passes records organization user now surroundings (.patchDeal id attrs)
        (.updateDeal (accepted.setOn loaded))
  | createTask {id : Nat} {attrs accepted : TaskAttrs} {task : Task}
      (valid : Activities.validate (records.related surroundings.related) organization none
        attrs = .ok accepted)
      (isRow : accepted.toRow id organization = some task) :
      Passes records organization user now surroundings (.createTask id attrs) (.createTask task)
  | patchTask {id : Nat} {attrs accepted : TaskAttrs} {workflowStatus : Option WorkflowStatus}
      {loaded : Task}
      (found : loaded ∈ records.tasks ∧ loaded.id = id ∧ loaded.organization = organization)
      (valid : Activities.validate (records.related surroundings.related) organization
        (some loaded) attrs = .ok accepted) :
      Passes records organization user now surroundings (.patchTask id attrs workflowStatus)
        (.updateTask accepted workflowStatus user loaded)
  | createSubscription {id : Nat} {attrs accepted : ReferenceAttrs} {subscription : Subscription}
      (valid : Subscriptions.validateReferences (records.related surroundings.related)
        surroundings.catalog surroundings.today organization none attrs = .ok accepted)
      (isRow : accepted.toSubscription id organization = some subscription) :
      Passes records organization user now surroundings (.createSubscription id attrs)
        (.createSubscription subscription)
  | patchSubscription {id : Nat} {attrs accepted : ReferenceAttrs} {loaded : Subscription}
      (found : loaded ∈ records.subscriptions ∧ loaded.id = id ∧
        loaded.organization = organization)
      (valid : Subscriptions.validateReferences (records.related surroundings.related)
        surroundings.catalog surroundings.today organization (some loaded) attrs = .ok accepted) :
      Passes records organization user now surroundings (.patchSubscription id attrs)
        (.updateSubscription accepted loaded)

theorem passes_of_check
    (isWrite : records.check organization user now surroundings request = some write) :
    Passes records organization user now surroundings request write := by
  cases request with
  | createContact id attrs =>
      obtain ⟨accepted, valid, row, isRow, rfl⟩ :
          ∃ accepted, _ ∧ ∃ row, _ ∧ _ = write := by
        simpa only [check, Option.bind_eq_bind, Option.bind_eq_some_iff, Option.pure_def,
          Option.some.injEq] using isWrite
      exact .createContact (ok_of_toOption valid) isRow
  | patchContact id attrs =>
      obtain ⟨loaded, found, accepted, valid, rfl⟩ :
          ∃ loaded, _ ∧ ∃ accepted, _ ∧ _ = write := by
        simpa only [check, Option.bind_eq_bind, Option.bind_eq_some_iff, Option.pure_def,
          Option.some.injEq] using isWrite
      exact .patchContact (mem_of_find found) (ok_of_toOption valid)
  | createDeal id attrs =>
      obtain ⟨accepted, valid, row, isRow, rfl⟩ :
          ∃ accepted, _ ∧ ∃ row, _ ∧ _ = write := by
        simpa only [check, Option.bind_eq_bind, Option.bind_eq_some_iff, Option.pure_def,
          Option.some.injEq] using isWrite
      exact .createDeal (ok_of_toOption valid) isRow
  | patchDeal id attrs =>
      obtain ⟨loaded, found, accepted, valid, rfl⟩ :
          ∃ loaded, _ ∧ ∃ accepted, _ ∧ _ = write := by
        simpa only [check, Option.bind_eq_bind, Option.bind_eq_some_iff, Option.pure_def,
          Option.some.injEq] using isWrite
      exact .patchDeal (mem_of_find found) (ok_of_toOption valid)
  | createTask id attrs =>
      obtain ⟨accepted, valid, row, isRow, rfl⟩ :
          ∃ accepted, _ ∧ ∃ row, _ ∧ _ = write := by
        simpa only [check, Option.bind_eq_bind, Option.bind_eq_some_iff, Option.pure_def,
          Option.some.injEq] using isWrite
      exact .createTask (ok_of_toOption valid) isRow
  | patchTask id attrs workflowStatus =>
      obtain ⟨loaded, found, accepted, valid, rfl⟩ :
          ∃ loaded, _ ∧ ∃ accepted, _ ∧ _ = write := by
        simpa only [check, Option.bind_eq_bind, Option.bind_eq_some_iff, Option.pure_def,
          Option.some.injEq] using isWrite
      exact .patchTask (mem_of_find found) (ok_of_toOption valid)
  | createSubscription id attrs =>
      obtain ⟨accepted, valid, row, isRow, rfl⟩ :
          ∃ accepted, _ ∧ ∃ row, _ ∧ _ = write := by
        simpa only [check, Option.bind_eq_bind, Option.bind_eq_some_iff, Option.pure_def,
          Option.some.injEq] using isWrite
      exact .createSubscription (ok_of_toOption valid) isRow
  | patchSubscription id attrs =>
      obtain ⟨loaded, found, accepted, valid, rfl⟩ :
          ∃ loaded, _ ∧ ∃ accepted, _ ∧ _ = write := by
        simpa only [check, Option.bind_eq_bind, Option.bind_eq_some_iff, Option.pure_def,
          Option.some.injEq] using isWrite
      exact .patchSubscription (mem_of_find found) (ok_of_toOption valid)

/-- What a check leaves to save has references that are right as the check has
seen the tables. -/
theorem Passes.checked (passes : Passes records organization user now surroundings request write) :
    Checked (records.related surroundings.related) write := by
  cases passes with
  | createContact valid isRow => trivial
  | patchContact found valid => trivial
  | createDeal valid isRow => exact checked_createDeal valid isRow
  | patchDeal found valid => exact checked_updateDeal valid
  | createTask valid isRow => exact checked_createTask valid isRow
  | patchTask found valid => exact checked_updateTask valid _
  | createSubscription valid isRow => exact checked_createSubscription valid isRow
  | patchSubscription found valid => exact checked_updateSubscription valid

/-! ### What a save keeps -/

theorem OneCustomer.become (one : OneCustomer records) (phase : Phase) :
    OneCustomer (records.become index phase) :=
  ⟨one.dealContact, one.taskContact, one.taskDeal, one.originatingDeal⟩

/-- Contacts may be written as long as those in use keep their company. -/
theorem OneCustomer.contacts {contacts : List Contact} (one : OneCustomer records)
    (keeps : ∀ contact, records.ContactInUse contact →
      column Contact.id Contact.company contacts contact = records.contactCompany contact) :
    OneCustomer { records with contacts := contacts } where
  dealContact := one.dealContact.regroup fun deal stored contact refers =>
    keeps contact (Or.inl ⟨deal, stored, refers⟩)
  taskContact := one.taskContact.regroup fun task stored contact refers =>
    keeps contact (Or.inr ⟨task, stored, refers⟩)
  taskDeal := one.taskDeal
  originatingDeal := one.originatingDeal

theorem OneCustomer.deals {deals : List Deal} (one : OneCustomer records)
    (dealContact : Within records.contactCompany Deal.company Deal.contact deals)
    (keeps : ∀ deal, records.DealInUse deal →
      column Deal.id Deal.company deals deal = records.dealCompany deal) :
    OneCustomer { records with deals := deals } where
  dealContact := dealContact
  taskContact := one.taskContact
  taskDeal := one.taskDeal.regroup fun task stored deal refers =>
    keeps deal (Or.inl ⟨task, stored, refers⟩)
  originatingDeal := one.originatingDeal.regroup fun subscription stored deal refers =>
    keeps deal (Or.inr ⟨subscription, stored, refers⟩)

/-- What is in use is there. -/
theorem OneCustomer.contact_present {contact : Nat} (one : OneCustomer records)
    (inUse : records.ContactInUse contact) :
    ∃ company, records.contactCompany contact = some company := by
  rcases inUse with ⟨deal, stored, refers⟩ | ⟨task, stored, refers⟩
  · exact ⟨_, one.dealContact deal stored contact refers⟩
  · exact ⟨_, one.taskContact task stored contact refers⟩

theorem OneCustomer.deal_present {deal : Nat} (one : OneCustomer records)
    (inUse : records.DealInUse deal) : ∃ company, records.dealCompany deal = some company := by
  rcases inUse with ⟨task, stored, refers⟩ | ⟨subscription, stored, refers⟩
  · exact ⟨_, one.taskDeal task stored deal refers⟩
  · exact ⟨_, one.originatingDeal subscription stored deal refers⟩

theorem OneCustomer.storeContacts {contacts : List Contact} (one : OneCustomer records)
    (keeps : ∀ contact, records.ContactInUse contact →
      column Contact.id Contact.company contacts contact = records.contactCompany contact) :
    OneCustomer (records.storeContacts seen contacts) := by
  unfold Records.storeContacts
  split_ifs with admits
  · exact one.contacts keeps
  · exact one

theorem OneCustomer.createContact {attrs : ContactAttrs} {contact : Contact}
    (one : OneCustomer records) :
    OneCustomer (records.save seen now (.createContact attrs contact)) := by
  apply one.storeContacts
  intro used inUse
  obtain ⟨company, present⟩ := one.contact_present inUse
  rw [present]
  exact Contacts.company_create present

theorem OneCustomer.updateContact {attrs : ContactAttrs} {contact : Contact}
    (one : OneCustomer records)
    (steady : records.ContactInUse contact.id →
      records.contactCompany contact.id = some contact.company) :
    OneCustomer (records.save seen now (.updateContact attrs contact)) := by
  apply one.storeContacts
  intro used inUse
  rw [Contacts.company_update]
  split_ifs with isContact
  · subst isContact
    have stays := steady inUse
    unfold contactCompany at stays ⊢
    rw [stays, Option.map_some]
  · rfl

theorem OneCustomer.createDeal {deal : Deal} (one : OneCustomer records)
    (checked : Leads seen.contactCompany deal.company deal.contact)
    (steady : ∀ contact ∈ deal.contact,
      records.contactCompany contact = seen.contactCompany contact) :
    OneCustomer (records.save seen now (.createDeal deal)) := by
  unfold Records.save
  dsimp only
  split_ifs with taken
  · exact one
  · apply one.deals
    · exact one.dealContact.insert (checked.regroup steady)
    · intro used inUse
      obtain ⟨company, present⟩ := one.deal_present inUse
      rw [present]
      exact column_append_of_some present

theorem OneCustomer.updateDeal {deal : Deal} (one : OneCustomer records)
    (checked : Leads seen.contactCompany deal.company deal.contact)
    (inPlace : records.DealInUse deal.id → records.dealCompany deal.id = some deal.company)
    (steady : ∀ contact ∈ deal.contact,
      records.contactCompany contact = seen.contactCompany contact) :
    OneCustomer (records.save seen now (.updateDeal deal)) := by
  apply one.deals
  · exact one.dealContact.update fun _ _ _ => checked.regroup steady
  · intro used inUse
    unfold Deals.saveDeal
    rw [column_replace]
    split_ifs with isDeal
    · subst isDeal
      have stays := inPlace inUse
      unfold dealCompany at stays ⊢
      rw [stays, Option.map_some]
    · rfl

theorem OneCustomer.createTask {task : Task} (one : OneCustomer records)
    (checked : Checked seen (.createTask task))
    (steady : records.Steady seen (.createTask task)) :
    OneCustomer (records.save seen now (.createTask task)) := by
  unfold Records.save
  dsimp only
  split_ifs with taken
  · exact one
  · exact {
      dealContact := one.dealContact
      taskContact := one.taskContact.insert (checked.1.regroup steady.1)
      taskDeal := one.taskDeal.insert (checked.2.regroup steady.2)
      originatingDeal := one.originatingDeal }

theorem OneCustomer.updateTask {attrs : TaskAttrs} {workflowStatus : Option WorkflowStatus}
    {loaded : Task} (one : OneCustomer records)
    (checked : Checked seen (.updateTask attrs workflowStatus user loaded))
    (steady : records.Steady seen (.updateTask attrs workflowStatus user loaded)) :
    OneCustomer (records.save seen now (.updateTask attrs workflowStatus user loaded)) where
  dealContact := one.dealContact
  taskContact := one.taskContact.update fun row stored isLoaded => by
    have same := Activities.sameReferences_updateTask attrs workflowStatus user now row
    rw [same.company, same.contact]
    exact (steady row stored isLoaded).1.leads (one.taskContact row stored) checked.1
  taskDeal := one.taskDeal.update fun row stored isLoaded => by
    have same := Activities.sameReferences_updateTask attrs workflowStatus user now row
    rw [same.company, same.deal]
    exact (steady row stored isLoaded).2.leads (one.taskDeal row stored) checked.2
  originatingDeal := one.originatingDeal

theorem OneCustomer.createSubscription {subscription : Subscription} (one : OneCustomer records)
    (checked : Checked seen (.createSubscription subscription))
    (steady : records.Steady seen (.createSubscription subscription)) :
    OneCustomer (records.save seen now (.createSubscription subscription)) := by
  unfold Records.save
  dsimp only
  split_ifs with taken
  · exact one
  · exact {
      dealContact := one.dealContact
      taskContact := one.taskContact
      taskDeal := one.taskDeal
      originatingDeal := one.originatingDeal.insert (Leads.regroup checked steady) }

theorem leads_updateSubscription {attrs : ReferenceAttrs} {row loaded : Subscription}
    (stored : Leads records.dealCompany row.company row.originatingDeal)
    (checked : Checked seen (.updateSubscription attrs loaded))
    (undisturbed : Undisturbed attrs.company attrs.originatingDeal
      (loaded.company, loaded.originatingDeal) (row.company, row.originatingDeal)
      seen.dealCompany records.dealCompany) :
    Leads records.dealCompany (updateSubscription attrs row).company
      (updateSubscription attrs row).originatingDeal := by
  unfold updateSubscription
  cases isUpdated : Subscriptions.updateReferences attrs row with
  | error _ => exact stored
  | ok updated =>
      obtain ⟨account, rfl⟩ := Subscriptions.updateReferences_ok isUpdated
      exact undisturbed.leads stored checked

theorem OneCustomer.updateSubscription {attrs : ReferenceAttrs} {loaded : Subscription}
    (one : OneCustomer records)
    (checked : Checked seen (.updateSubscription attrs loaded))
    (steady : records.Steady seen (.updateSubscription attrs loaded)) :
    OneCustomer (records.save seen now (.updateSubscription attrs loaded)) where
  dealContact := one.dealContact
  taskContact := one.taskContact
  taskDeal := one.taskDeal
  originatingDeal := one.originatingDeal.update fun row stored isLoaded =>
    leads_updateSubscription (one.originatingDeal row stored) checked
      (steady row stored isLoaded)

theorem OneCustomer.save (one : OneCustomer records) (checked : Checked seen write)
    (steady : records.Steady seen write) : OneCustomer (records.save seen now write) := by
  cases write with
  | createContact attrs contact => exact one.createContact
  | updateContact attrs contact => exact one.updateContact steady
  | createDeal deal => exact one.createDeal checked steady
  | updateDeal deal => exact one.updateDeal checked steady.1 steady.2
  | createTask task => exact one.createTask checked steady
  | updateTask attrs workflowStatus user loaded => exact one.updateTask checked steady
  | createSubscription subscription => exact one.createSubscription checked steady
  | updateSubscription attrs loaded => exact one.updateSubscription checked steady

/-! ### Runs -/

/-- The relation, with what every request that has been checked is to save. -/
structure Coherent (records : Records) : Prop where
  one : OneCustomer records
  checked : ∀ index write seen, records.requests index = .checked write seen → Checked seen write

theorem requests_storeContacts {contacts : List Contact} :
    (records.storeContacts seen contacts).requests = records.requests := by
  unfold storeContacts
  split_ifs <;> rfl

theorem requests_save : (records.save seen now write).requests = records.requests := by
  cases write with
  | createContact attrs contact => exact requests_storeContacts
  | updateContact attrs contact => exact requests_storeContacts
  | createDeal deal =>
      unfold save
      dsimp only
      split_ifs <;> rfl
  | updateDeal deal => rfl
  | createTask task =>
      unfold save
      dsimp only
      split_ifs <;> rfl
  | updateTask attrs workflowStatus user loaded => rfl
  | createSubscription subscription =>
      unfold save
      dsimp only
      split_ifs <;> rfl
  | updateSubscription attrs loaded => rfl

/-- A request that becomes idle, or that has been checked, keeps what is known
of the others. -/
theorem checked_become {phase : Phase}
    (checked : ∀ index write seen, records.requests index = .checked write seen →
      Checked seen write)
    (isChecked : ∀ write seen, phase = .checked write seen → Checked seen write)
    (other : Nat) (write : Write) (seen : Related)
    (at_other : (records.become index phase).requests other = .checked write seen) :
    Checked seen write := by
  unfold become at at_other
  dsimp only at at_other
  by_cases same : other = index
  · subst same
    rw [Function.update_self] at at_other
    exact isChecked write seen at_other
  · rw [Function.update_of_ne same] at at_other
    exact checked other write seen at_other

theorem idle_ne_checked (write : Write) (seen : Related)
    (isChecked : Phase.idle = .checked write seen) : Checked seen write := by
  cases isChecked

theorem Coherent.become {phase : Phase} (coherent : Coherent records)
    (isChecked : ∀ write seen, phase = .checked write seen → Checked seen write) :
    Coherent (records.become index phase) :=
  ⟨coherent.one.become phase, checked_become coherent.checked isChecked⟩

theorem Coherent.save (coherent : Coherent records) (checked : Checked seen write)
    (steady : records.Steady seen write) : Coherent (records.save seen now write) := by
  refine ⟨coherent.one.save checked steady, ?_⟩
  rw [requests_save]
  exact coherent.checked

theorem Coherent.enter {found : Option Write} (coherent : Coherent records)
    (checked : ∀ write, found = some write → Checked seen write) :
    Coherent (records.enter index seen found) := by
  cases found with
  | none => exact coherent
  | some write =>
      apply coherent.become
      rintro _ _ ⟨⟩
      exact checked write rfl

theorem Coherent.finish {phase : Phase} (coherent : Coherent records)
    (checked : ∀ write seen, phase = .checked write seen → Checked seen write)
    (steady : records.SteadyPhase phase) : Coherent (records.finish index now phase) := by
  cases phase with
  | idle => exact coherent
  | checked write seen =>
      exact (coherent.save (checked write seen rfl) steady).become idle_ne_checked

theorem Coherent.step (coherent : Coherent records) (keeps : records.Keeps action) :
    Coherent (records.step action) := by
  unfold Records.step
  cases action with
  | check index organization user now request surroundings =>
      dsimp only
      cases records.requests index with
      | idle => exact coherent.enter fun write isWrite => (passes_of_check isWrite).checked
      | checked _ _ => exact coherent
  | save index now => exact coherent.finish (coherent.checked index) keeps
  | fail index => exact coherent.become idle_ne_checked

/-- While what others refer to is saved with the company it has and no save
relies on a check that the tables have left behind, every reference of a deal, a
task or a subscription stays within its company. -/
theorem records_within_customer (actions : List Action)
    (keeps : EveryStep Records.step Keeps {} actions) :
    Always Records.step OneCustomer {} actions := by
  have start : Coherent {} :=
    ⟨⟨within_nil, within_nil, within_nil, within_nil⟩, fun _ => idle_ne_checked⟩
  exact (always_guarded Coherent (fun _ _ => Coherent.step) start keeps).imp fun _ => Coherent.one

/-- A workspace of whose companies everybody may choose. -/
def oneWorkspace : Surroundings where
  related := {
    companyOrganization := fun _ => some 1
    contactOrganization := fun _ => none
    contactCompany := fun _ => none
    dealOrganization := fun _ => none
    dealCompany := fun _ => none
    catalogItemOrganization := fun _ => some 1
    isMember := fun _ _ => true
    hasCostLines := fun _ => false
    upper := id
    iexact := fun first second => first = second
    lower := id }
  today := ⟨2025, 1, 1, by decide⟩

/-- A contact, a deal with it, and a task on both, of company 1. -/
def oneCustomer : List Action :=
  [.check 0 1 7 100 (.createContact 10 { company := some 1, firstName := some "Ada" })
      oneWorkspace,
    .save 0 100,
    .check 0 1 7 110 (.createDeal 20
      { company := some 1, contact := some (some 10), title := some "Renewal" }) oneWorkspace,
    .save 0 110,
    .check 0 1 7 120 (.createTask 30
      { company := some 1, contact := some (some 10), deal := some (some 20),
        title := some "Call", dueAt := some 500 }) oneWorkspace,
    .save 0 120]

/-- The contact changes its job title and the task moves on with its customer. -/
theorem records_within_customer_edited :
    Always Records.step OneCustomer {} (oneCustomer ++
      [.check 1 1 7 130 (.patchContact 10 { jobTitle := some "CTO" }) oneWorkspace,
        .check 2 1 8 130 (.patchTask 30 { deal := some none } (some .completed)) oneWorkspace,
        .save 2 131, .save 1 132]) :=
  records_within_customer _ (by decide +kernel)

/-- The contact moves to company 2 and the deal and the task keep it. -/
theorem records_not_always_within_customer :
    ¬ ∀ actions : List Action, Always Records.step OneCustomer {} actions := by
  intro always
  have one := (always (oneCustomer ++
    [.check 1 1 7 130 (.patchContact 10 { company := some 2 }) oneWorkspace,
      .save 1 131])).at_end
  revert one
  decide +kernel

end Records

end BubllioCrm.Customers
