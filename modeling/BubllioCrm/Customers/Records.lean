import BubllioCrm.Activities.Serializers
import BubllioCrm.Contacts.Serializers
import BubllioCrm.Deals.Services
import BubllioCrm.Foundations.Execution
import BubllioCrm.Foundations.References
import BubllioCrm.Subscriptions.References
import Mathlib.Logic.Function.Basic

/-!
Owns the create and PATCH requests on contacts, deals, tasks and subscriptions
as steps on their tables: a request loads and checks what it is given in one
step and saves in a later one, and other requests come in between.

The reads of a check are one step. What a check reads outside of the four tables
may be another at every check. The timeline is not owned here.
-/

namespace BubllioCrm.Customers

open BubllioCrm.Companies BubllioCrm.Foundations
open Activities (Task TaskAttrs WorkflowStatus)
open Contacts (Contact ContactAttrs)
open Deals (Deal DealAttrs)
open Subscriptions (Subscription ReferenceAttrs ServiceCatalogItem)

/-- A request to the views of a workspace. A create request has the id of its new row. -/
inductive Request where
  | createContact (id : Nat) (attrs : ContactAttrs)
  | patchContact (id : Nat) (attrs : ContactAttrs)
  | createDeal (id : Nat) (attrs : DealAttrs)
  | patchDeal (id : Nat) (attrs : DealAttrs)
  | createTask (id : Nat) (attrs : TaskAttrs)
  | patchTask (id : Nat) (attrs : TaskAttrs) (workflowStatus : Option WorkflowStatus)
  | createSubscription (id : Nat) (attrs : ReferenceAttrs)
  | patchSubscription (id : Nat) (attrs : ReferenceAttrs)

/-- What a checked request has left to save. The PATCH requests on a task and on
a subscription save onto the row as they find it. -/
inductive Write where
  | createContact (attrs : ContactAttrs) (contact : Contact)
  | updateContact (attrs : ContactAttrs) (contact : Contact)
  | createDeal (deal : Deal)
  | updateDeal (deal : Deal)
  | createTask (task : Task)
  | updateTask (attrs : TaskAttrs) (workflowStatus : Option WorkflowStatus) (user : Nat)
      (loaded : Task)
  | createSubscription (subscription : Subscription)
  | updateSubscription (attrs : ReferenceAttrs) (loaded : Subscription)

inductive Phase where
  | idle
  | checked (write : Write) (seen : Related)

structure Records where
  contacts : List Contact := []
  deals : List Deal := []
  tasks : List Task := []
  subscriptions : List Subscription := []
  requests : Nat → Phase := fun _ => .idle

/-- What a check reads outside of the four tables. -/
structure Surroundings where
  related : Related
  catalog : Nat → Option ServiceCatalogItem := fun _ => none
  today : Date

inductive Action where
  | check (index organization user now : Nat) (request : Request) (surroundings : Surroundings)
  | save (index now : Nat)
  /-- A request raises before it saves. -/
  | fail (index : Nat)

namespace Records

def contactCompany (records : Records) : Nat → Option Nat :=
  column Contact.id Contact.company records.contacts

def dealCompany (records : Records) : Nat → Option Nat :=
  column Deal.id Deal.company records.deals

/-- What the serializers look up. -/
def related (outside : Related) (records : Records) : Related :=
  { outside with
    contactOrganization := column Contact.id Contact.organization records.contacts
    contactCompany := records.contactCompany
    dealOrganization := column Deal.id Deal.organization records.deals
    dealCompany := records.dealCompany }

/-- The request up to its `save`, if it has not been refused. -/
def check (organization user now : Nat) (surroundings : Surroundings) (records : Records) :
    Request → Option Write
  | .createContact id attrs => do
      let accepted ← (Contacts.validate (records.related surroundings.related) records.contacts
        organization none attrs).toOption
      let contact ← accepted.toRow id organization
      return .createContact accepted contact
  | .patchContact id attrs => do
      let loaded ← records.contacts.find? fun row => row.id = id ∧ row.organization = organization
      let accepted ← (Contacts.validate (records.related surroundings.related) records.contacts
        organization (some loaded) attrs).toOption
      return .updateContact accepted (accepted.setOn loaded)
  | .createDeal id attrs => do
      let accepted ← (Deals.validate (records.related surroundings.related) organization none
        attrs).toOption
      let deal ← accepted.toRow id organization now
      return .createDeal deal
  | .patchDeal id attrs => do
      let loaded ← records.deals.find? fun row => row.id = id ∧ row.organization = organization
      let accepted ← (Deals.validate (records.related surroundings.related) organization
        (some loaded) attrs).toOption
      return .updateDeal (accepted.setOn loaded)
  | .createTask id attrs => do
      let accepted ← (Activities.validate (records.related surroundings.related) organization none
        attrs).toOption
      let task ← accepted.toRow id organization
      return .createTask task
  | .patchTask id attrs workflowStatus => do
      let loaded ← records.tasks.find? fun row => row.id = id ∧ row.organization = organization
      let accepted ← (Activities.validate (records.related surroundings.related) organization
        (some loaded) attrs).toOption
      return .updateTask accepted workflowStatus user loaded
  | .createSubscription id attrs => do
      let accepted ← (Subscriptions.validateReferences (records.related surroundings.related)
        surroundings.catalog surroundings.today organization none attrs).toOption
      let subscription ← accepted.toSubscription id organization
      return .createSubscription subscription
  | .patchSubscription id attrs => do
      let loaded ← records.subscriptions.find? fun row =>
        row.id = id ∧ row.organization = organization
      let accepted ← (Subscriptions.validateReferences (records.related surroundings.related)
        surroundings.catalog surroundings.today organization (some loaded) attrs).toOption
      return .updateSubscription accepted loaded

/-- A contact table that its constraints refuse is rolled back. -/
def storeContacts (seen : Related) (contacts : List Contact) (records : Records) : Records :=
  if Contacts.Admits seen contacts then { records with contacts := contacts } else records

/-- `update_subscription`, which changes nothing when it raises. -/
def updateSubscription (attrs : ReferenceAttrs) (row : Subscription) : Subscription :=
  match Subscriptions.updateReferences attrs row with
  | .ok updated => updated
  | .error _ => row

/-- `save` of a checked request. An insert fails where its id is taken. -/
def save (seen : Related) (now : Nat) (records : Records) : Write → Records
  | .createContact attrs contact =>
      records.storeContacts seen (Contacts.create attrs contact records.contacts)
  | .updateContact attrs contact =>
      records.storeContacts seen (Contacts.update attrs contact records.contacts)
  | .createDeal deal =>
      if deal.id ∈ records.deals.map Deal.id then records
      else { records with deals := records.deals ++ [deal] }
  | .updateDeal deal => { records with deals := Deals.saveDeal deal records.deals }
  | .createTask task =>
      if task.id ∈ records.tasks.map Task.id then records
      else { records with tasks := records.tasks ++ [task] }
  | .updateTask attrs workflowStatus user loaded =>
      { records with
        tasks := updateWhere (·.id = loaded.id)
          (Activities.updateTask attrs workflowStatus user now) records.tasks }
  | .createSubscription subscription =>
      if subscription.id ∈ records.subscriptions.map Subscription.id then records
      else { records with subscriptions := records.subscriptions ++ [subscription] }
  | .updateSubscription attrs loaded =>
      { records with
        subscriptions := updateWhere (·.id = loaded.id) (updateSubscription attrs)
          records.subscriptions }

def become (index : Nat) (phase : Phase) (records : Records) : Records :=
  { records with requests := Function.update records.requests index phase }

/-- A request that is not refused goes on to save. -/
def enter (index : Nat) (seen : Related) (records : Records) : Option Write → Records
  | none => records
  | some write => records.become index (.checked write seen)

def finish (index now : Nat) (records : Records) : Phase → Records
  | .idle => records
  | .checked write seen => (records.save seen now write).become index .idle

/-- The tables after an action. An action that does not fit the request changes nothing. -/
def step (records : Records) : Action → Records
  | .check index organization user now request surroundings =>
      match records.requests index with
      | .idle =>
          records.enter index (records.related surroundings.related)
            (records.check organization user now surroundings request)
      | .checked _ _ => records
  | .save index now => records.finish index now (records.requests index)
  | .fail index => records.become index .idle

/-! ### The relation -/

/-- What a contact, a deal, a task or a subscription refers to is of its company. -/
structure OneCustomer (records : Records) : Prop where
  dealContact : Within records.contactCompany Deal.company Deal.contact records.deals
  taskContact : Within records.contactCompany Task.company Task.contact records.tasks
  taskDeal : Within records.dealCompany Task.company Task.deal records.tasks
  originatingDeal : Within records.dealCompany Subscription.company Subscription.originatingDeal
    records.subscriptions

instance : DecidablePred OneCustomer := fun records =>
  decidable_of_iff
    (Within records.contactCompany Deal.company Deal.contact records.deals ∧
      Within records.contactCompany Task.company Task.contact records.tasks ∧
      Within records.dealCompany Task.company Task.deal records.tasks ∧
      Within records.dealCompany Subscription.company Subscription.originatingDeal
        records.subscriptions)
    ⟨fun ⟨dealContact, taskContact, taskDeal, originatingDeal⟩ =>
      ⟨dealContact, taskContact, taskDeal, originatingDeal⟩,
    fun one => ⟨one.dealContact, one.taskContact, one.taskDeal, one.originatingDeal⟩⟩

/-! ### The condition -/

/-- A deal or a task refers to the contact. -/
def ContactInUse (records : Records) (contact : Nat) : Prop :=
  (∃ deal ∈ records.deals, deal.contact = some contact) ∨
    ∃ task ∈ records.tasks, task.contact = some contact

/-- A task or a subscription refers to the deal. -/
def DealInUse (records : Records) (deal : Nat) : Prop :=
  (∃ task ∈ records.tasks, task.deal = some deal) ∨
    ∃ subscription ∈ records.subscriptions, subscription.originatingDeal = some deal

instance (records : Records) (contact : Nat) : Decidable (records.ContactInUse contact) :=
  inferInstanceAs (Decidable (_ ∨ _))

instance (records : Records) (deal : Nat) : Decidable (records.DealInUse deal) :=
  inferInstanceAs (Decidable (_ ∨ _))

/-- A contact or a deal that others refer to is saved with the company it has,
and nothing that the check of the request has relied on has changed since. -/
def Steady (seen : Related) (records : Records) : Write → Prop
  | .createContact _ _ => True
  | .updateContact _ contact =>
      records.ContactInUse contact.id →
        records.contactCompany contact.id = some contact.company
  | .createDeal deal =>
      ∀ contact ∈ deal.contact, records.contactCompany contact = seen.contactCompany contact
  | .updateDeal deal =>
      (records.DealInUse deal.id → records.dealCompany deal.id = some deal.company) ∧
        ∀ contact ∈ deal.contact, records.contactCompany contact = seen.contactCompany contact
  | .createTask task =>
      (∀ contact ∈ task.contact, records.contactCompany contact = seen.contactCompany contact) ∧
        ∀ deal ∈ task.deal, records.dealCompany deal = seen.dealCompany deal
  | .updateTask attrs _ _ loaded =>
      ∀ row ∈ records.tasks, row.id = loaded.id →
        Undisturbed attrs.company attrs.contact (loaded.company, loaded.contact)
          (row.company, row.contact) seen.contactCompany records.contactCompany ∧
        Undisturbed attrs.company attrs.deal (loaded.company, loaded.deal)
          (row.company, row.deal) seen.dealCompany records.dealCompany
  | .createSubscription subscription =>
      ∀ deal ∈ subscription.originatingDeal, records.dealCompany deal = seen.dealCompany deal
  | .updateSubscription attrs loaded =>
      ∀ row ∈ records.subscriptions, row.id = loaded.id →
        Undisturbed attrs.company attrs.originatingDeal (loaded.company, loaded.originatingDeal)
          (row.company, row.originatingDeal) seen.dealCompany records.dealCompany

instance (seen : Related) (records : Records) : (write : Write) →
    Decidable (records.Steady seen write)
  | .createContact _ _ => inferInstanceAs (Decidable True)
  | .updateContact _ _ => inferInstanceAs (Decidable (_ → _))
  | .createDeal _ => inferInstanceAs (Decidable (∀ _ ∈ _, _))
  | .updateDeal _ => inferInstanceAs (Decidable ((_ → _) ∧ ∀ _ ∈ _, _))
  | .createTask _ => inferInstanceAs (Decidable ((∀ _ ∈ _, _) ∧ ∀ _ ∈ _, _))
  | .updateTask _ _ _ _ => inferInstanceAs (Decidable (∀ _ ∈ _, _ → _ ∧ _))
  | .createSubscription _ => inferInstanceAs (Decidable (∀ _ ∈ _, _))
  | .updateSubscription _ _ => inferInstanceAs (Decidable (∀ _ ∈ _, _ → _))

/-- The condition on a request that saves. -/
def SteadyPhase (records : Records) : Phase → Prop
  | .idle => True
  | .checked write seen => records.Steady seen write

instance (records : Records) : (phase : Phase) → Decidable (records.SteadyPhase phase)
  | .idle => inferInstanceAs (Decidable True)
  | .checked write seen => inferInstanceAs (Decidable (records.Steady seen write))

/-- The condition on an action: what it saves is steady. -/
def Keeps (records : Records) : Action → Prop
  | .save index _ => records.SteadyPhase (records.requests index)
  | _ => True

instance (records : Records) : (action : Action) → Decidable (records.Keeps action)
  | .check _ _ _ _ _ _ => inferInstanceAs (Decidable True)
  | .fail _ => inferInstanceAs (Decidable True)
  | .save index _ => inferInstanceAs (Decidable (records.SteadyPhase (records.requests index)))

end Records

end BubllioCrm.Customers
