import BubllioCrm.Contacts.Requests
import BubllioCrm.Costing.Serializers
import BubllioCrm.Customers.Offboarding
import BubllioCrm.Onboarding.BusinessSchema

/-!
Owns the business tables of an installation and the requests of the CRM that
write to them, with the references that each of them sets, checks, copies,
clears or cascades.

A request on a contact, a deal, a task, a subscription or a cost line checks in
one step and saves in a later one; the others are one step. What a request adds
to the history of a company or a contact is a step of its own. A PATCH, archive
or restore request on a company writes no column that is kept here. Amounts and
states of charges and payments are those of the accounts.
-/

namespace BubllioCrm.Tenancy

open BubllioCrm.Companies BubllioCrm.Costing BubllioCrm.Customers BubllioCrm.Foundations
open BubllioCrm.Onboarding.BusinessTransfer
open Activities (Task WorkflowStatus)
open Contacts (Contact)
open Deals (Deal Stage)
open Subscriptions (ServiceCatalogItem Subscription)

/-- A row that refers to nothing but its organization. -/
structure Owned where
  id : Nat
  organization : Nat
deriving DecidableEq

structure CatalogRow extends Owned where
  item : ServiceCatalogItem
deriving DecidableEq

/-- A row that takes its organization from the row it is about. -/
structure Entry extends Owned where
  subject : Nat
deriving DecidableEq

/-- What a checked request on a cost line has left to save. -/
inductive LineWrite where
  | create (line : DealCostLine)
  | update (line : DealCostLine)

def LineWrite.line : LineWrite → DealCostLine
  | create line => line
  | update line => line

structure Database where
  organizations : List Nat := []
  settings : List Owned := []
  memberships : List Owned := []
  counters : List Owned := []
  companies : List Owned := []
  records : Records := {}
  collaborators : List ExternalCollaborator := []
  services : List CollaboratorService := []
  costLines : List DealCostLine := []
  catalogItems : List CatalogRow := []
  charges : List Entry := []
  payments : List Entry := []
  companyActivities : List Entry := []
  contactActivities : List Entry := []
  timelineEvents : List Entry := []
  lineRequests : Nat → Option LineWrite := fun _ => none
  /-- The organization for which an id was drawn. `uuid4` draws no id twice. -/
  issued : Nat → Option Nat := fun _ => none

/-! ### The relations of the rows -/

def ownedRow (id organization : Nat) (references : List (ForeignKey × Option Nat)) :
    OwnedRow ForeignKey where
  id := id
  owner := organization
  references := (.organization, some organization) :: references

def organizationRow (id : Nat) : OwnedRow ForeignKey where
  id := id
  owner := id

def Owned.row (row : Owned) : OwnedRow ForeignKey :=
  ownedRow row.id row.organization []

def Entry.row (key : ForeignKey) (entry : Entry) : OwnedRow ForeignKey :=
  ownedRow entry.id entry.organization [(key, some entry.subject)]

def contactRow (contact : Contact) : OwnedRow ForeignKey :=
  ownedRow contact.id contact.organization [(.company, some contact.company)]

def dealRow (deal : Deal) : OwnedRow ForeignKey :=
  ownedRow deal.id deal.organization [(.company, some deal.company), (.contact, deal.contact)]

def taskRow (task : Task) : OwnedRow ForeignKey :=
  ownedRow task.id task.organization
    [(.company, some task.company), (.contact, task.contact), (.deal, task.deal)]

def subscriptionRow (subscription : Subscription) : OwnedRow ForeignKey :=
  ownedRow subscription.id subscription.organization
    [(.company, some subscription.company), (.catalogItem, subscription.catalogItem),
      (.originatingDeal, subscription.originatingDeal)]

def collaboratorRow (collaborator : ExternalCollaborator) : OwnedRow ForeignKey :=
  ownedRow collaborator.id collaborator.organization []

def serviceRow (service : CollaboratorService) : OwnedRow ForeignKey :=
  ownedRow service.id service.organization [(.collaborator, some service.collaborator)]

def lineRow (line : DealCostLine) : OwnedRow ForeignKey :=
  ownedRow line.id line.organization
    [(.deal, some line.deal), (.collaborator, some line.collaborator),
      (.collaboratorService, line.collaboratorService)]

/-- The tables as the business transfer sees their relations. -/
def Database.tables (database : Database) : Tables
  | .organizations => database.organizations.map organizationRow
  | .organizationSettings => database.settings.map Owned.row
  | .memberships => database.memberships.map Owned.row
  | .customerCodeCounters => database.counters.map Owned.row
  | .companies => database.companies.map Owned.row
  | .contacts => database.records.contacts.map contactRow
  | .deals => database.records.deals.map dealRow
  | .tasks => database.records.tasks.map taskRow
  | .externalCollaborators => database.collaborators.map collaboratorRow
  | .collaboratorServices => database.services.map serviceRow
  | .dealCostLines => database.costLines.map lineRow
  | .serviceCatalogItems => database.catalogItems.map fun item => item.row
  | .customerSubscriptions => database.records.subscriptions.map subscriptionRow
  | .charges => database.charges.map (Entry.row .subscription)
  | .payments => database.payments.map (Entry.row .charge)
  | .companyActivities => database.companyActivities.map (Entry.row .company)
  | .contactActivities => database.contactActivities.map (Entry.row .contact)
  | .companyTimelineEvents => database.timelineEvents.map (Entry.row .company)

/-- The foreign keys of the database hold. -/
def Database.KeysHold (database : Database) : Prop :=
  Linked ForeignKey.relatedModel database.tables

instance : DecidablePred Database.KeysHold := fun database =>
  decidable_of_iff
    (∀ dataset ∈ businessDatasets, ∀ row ∈ database.tables dataset,
      ∀ reference ∈ row.references, ∀ sought ∈ reference.2,
        ∃ other ∈ database.tables reference.1.relatedModel, other.id = sought)
    ⟨fun holds dataset => holds dataset (mem_businessDatasets dataset),
      fun holds dataset _ => holds dataset⟩

/-! ### Requests -/

inductive LineRequest where
  | create (id : Nat) (attrs : LineAttrs)
  | patch (id : Nat) (attrs : LineAttrs)

inductive Action where
  | createWorkspace (organization : Nat)
  | deleteWorkspace (organization : Nat)
  | createSettings (organization id : Nat)
  | join (organization id : Nat)
  | removeMember (organization id : Nat)
  | createCounter (organization id : Nat)
  | createCompany (organization id : Nat)
  | deleteCompany (organization id : Nat)
  | check (index organization user now : Nat) (request : Request) (outside : Surroundings)
  | save (index now : Nat)
  | fail (index : Nat)
  /-- An archive, restore or other request on contacts that runs alone. -/
  | archiveContact (organization id now : Nat) (text : Related)
  | restoreContact (organization id : Nat) (text : Related)
  | deleteContact (organization id : Nat)
  | archiveDeal (organization id now : Nat)
  | moveDeal (organization id : Nat) (stage : Stage) (position : Nat)
  | deleteDeal (organization id : Nat)
  | moveTask (organization id : Nat) (workflowStatus : WorkflowStatus) (user now : Nat)
  | deleteTask (organization id : Nat)
  /-- A payment or a status change, as far as the account of the subscription is
  concerned. -/
  | bill (organization id : Nat) (request : Subscriptions.Request)
  | ensureCharge (id subscription : Nat)
  | recordPayment (id charge : Nat)
  | recordCompanyActivity (id company : Nat)
  | recordContactActivity (id contact : Nat)
  | recordTimelineEvent (id company : Nat)
  | createCatalogItem (organization id : Nat) (item : ServiceCatalogItem)
  | updateCatalogItem (organization id : Nat) (item : ServiceCatalogItem)
  | createCollaborator (organization id : Nat) (name : String) (isActive : Bool)
  | updateCollaborator (organization id : Nat) (name : String) (isActive : Bool)
  | createService (organization id : Nat) (attrs : ServiceAttrs)
  | updateService (organization id : Nat) (attrs : ServiceAttrs)
  | checkLine (index organization deal : Nat) (request : LineRequest)
  | saveLine (index : Nat)
  | failLine (index : Nat)
  | deleteLine (organization deal id : Nat)

/-- The id that a request draws for a new row. -/
def newId : Request → Option Nat
  | .createContact id _ => some id
  | .createDeal id _ => some id
  | .createTask id _ => some id
  | .createSubscription id _ => some id
  | _ => none

namespace Database

/-- A new id is issued to an organization. -/
def issue (id organization : Nat) (database : Database) : Database :=
  { database with issued := Function.update database.issued id (some organization) }

/-- A row of the organization that the request has found gets a new id. -/
def draw (id organization : Nat) (insert : Database → Database) (database : Database) :
    Database :=
  if database.issued id = none ∧ organization ∈ database.organizations then
    insert (database.issue id organization)
  else database

/-- A row about the subject gets its organization. -/
def drawEntry (id subject : Nat) (organization : Option Nat) (insert : Entry → Database → Database)
    (database : Database) : Database :=
  match organization with
  | none => database
  | some organization => database.draw id organization (insert ⟨⟨id, organization⟩, subject⟩)

def createWorkspace (organization : Nat) (database : Database) : Database :=
  if database.issued organization = none then
    { database.issue organization organization with
      organizations := database.organizations ++ [organization] }
  else database

/-- A row of the organization that another row protects: `on_delete=models.PROTECT`. -/
def Protects (organization : Nat) (database : Database) : Prop :=
  (∃ company ∈ database.companies, company.organization = organization ∧
    ((∃ deal ∈ database.records.deals, deal.company = company.id) ∨
      (∃ task ∈ database.records.tasks, task.company = company.id) ∨
      ∃ subscription ∈ database.records.subscriptions, subscription.company = company.id)) ∨
  (∃ collaborator ∈ database.collaborators, collaborator.organization = organization ∧
    ((∃ service ∈ database.services, service.collaborator = collaborator.id) ∨
      ∃ line ∈ database.costLines, line.collaborator = collaborator.id)) ∨
  (∃ item ∈ database.catalogItems, item.organization = organization ∧
    ∃ subscription ∈ database.records.subscriptions, subscription.catalogItem = some item.id) ∨
  (∃ subscription ∈ database.records.subscriptions, subscription.organization = organization ∧
    ∃ charge ∈ database.charges, charge.subject = subscription.id) ∨
  ∃ charge ∈ database.charges, charge.organization = organization ∧
    ∃ payment ∈ database.payments, payment.subject = charge.id

instance (organization : Nat) (database : Database) :
    Decidable (database.Protects organization) :=
  inferInstanceAs (Decidable (_ ∨ _ ∨ _ ∨ _ ∨ _))

/-- `OrganizationDetailAPIView.delete` takes the rows of the organization with it.
A `ProtectedError` undoes the request. -/
def deleteWorkspace (organization : Nat) (database : Database) : Database :=
  if database.Protects organization then database
  else { database with
    organizations := database.organizations.filter (· ≠ organization)
    settings := database.settings.filter (·.organization ≠ organization)
    memberships := database.memberships.filter (·.organization ≠ organization)
    counters := database.counters.filter (·.organization ≠ organization)
    companies := database.companies.filter (·.organization ≠ organization)
    records := { database.records with
      contacts := database.records.contacts.filter (·.organization ≠ organization)
      deals := database.records.deals.filter (·.organization ≠ organization)
      tasks := database.records.tasks.filter (·.organization ≠ organization)
      subscriptions := database.records.subscriptions.filter (·.organization ≠ organization) }
    collaborators := database.collaborators.filter (·.organization ≠ organization)
    services := database.services.filter (·.organization ≠ organization)
    costLines := database.costLines.filter (·.organization ≠ organization)
    catalogItems := database.catalogItems.filter (·.organization ≠ organization)
    charges := database.charges.filter (·.organization ≠ organization)
    payments := database.payments.filter (·.organization ≠ organization)
    companyActivities := database.companyActivities.filter (·.organization ≠ organization)
    contactActivities := database.contactActivities.filter (·.organization ≠ organization)
    timelineEvents := database.timelineEvents.filter (·.organization ≠ organization) }

def removeMember (organization id : Nat) (database : Database) : Database :=
  { database with
    memberships := database.memberships.filter fun membership =>
      ¬ (membership.id = id ∧ membership.organization = organization) }

/-! #### What the serializers look up -/

def companyOrganization (database : Database) : Nat → Option Nat :=
  column Owned.id Owned.organization database.companies

def catalogItemOrganization (database : Database) : Nat → Option Nat :=
  column (fun row : CatalogRow => row.id) (fun row => row.organization) database.catalogItems

def hasCostLines (database : Database) (deal : Nat) : Bool :=
  database.costLines.any (·.deal = deal)

/-- What a check reads outside of the four tables of the records. -/
def surroundings (casing : Casing) (database : Database) (outside : Surroundings) :
    Surroundings :=
  { outside with
    related := { outside.related with
      companyOrganization := database.companyOrganization
      catalogItemOrganization := database.catalogItemOrganization
      hasCostLines := database.hasCostLines
      upper := casing.upper }
    catalog := fun id => (database.catalogItems.find? (·.id = id)).map CatalogRow.item }

def findCollaborator (database : Database) (id : Nat) : Option ExternalCollaborator :=
  database.collaborators.find? (·.id = id)

def catalog (database : Database) : Catalog where
  collaborators := database.findCollaborator
  services := fun id => database.services.find? (·.id = id)

/-! #### Companies, contacts, deals and tasks -/

def deleteCompany (organization id : Nat) (database : Database) : Database :=
  if (∃ row ∈ database.companies, row.id = id ∧ row.organization = organization) ∧
      ¬ ((∃ contact ∈ database.records.contacts, contact.company = id) ∨
        (∃ deal ∈ database.records.deals, deal.company = id) ∨
        (∃ task ∈ database.records.tasks, task.company = id) ∨
        ∃ subscription ∈ database.records.subscriptions, subscription.company = id) then
    { database with
      companies := database.companies.filter (·.id ≠ id)
      companyActivities := database.companyActivities.filter (·.subject ≠ id)
      timelineEvents := database.timelineEvents.filter (·.subject ≠ id) }
  else database

def check (casing : Casing) (index organization user now : Nat) (request : Request)
    (outside : Surroundings) (database : Database) : Database :=
  { database with
    records := database.records.step
      (.check index organization user now request (database.surroundings casing outside)) }

def withContacts (contacts : List Contact) (database : Database) : Database :=
  { database with records := { database.records with contacts := contacts } }

def deleteContact (organization id : Nat) (database : Database) : Database :=
  if ∃ row ∈ database.records.contacts, row.id = id ∧ row.organization = organization then
    { database with
      records := database.records.deleteContact organization id
      contactActivities := database.contactActivities.filter (·.subject ≠ id) }
  else database

def withDeals (deals : List Deal) (database : Database) : Database :=
  { database with records := { database.records with deals := deals } }

/-- `DealArchiveAPIView.post` archives a deal, or restores an archived one. -/
def archiveDeal (organization id now : Nat) (database : Database) : Database :=
  database.withDeals (updateWhere (fun deal => deal.id = id ∧ deal.organization = organization)
    (fun deal => { deal with archivedAt := if deal.archivedAt.isSome then none else some now })
    database.records.deals)

/-- `DealMoveAPIView.post`, among the deals of the organization. -/
def moveDeal (organization id : Nat) (stage : Stage) (position : Nat) (database : Database) :
    Database :=
  match database.records.deals.find? fun deal =>
      deal.id = id ∧ deal.organization = organization with
  | none => database
  | some deal =>
      if deal.IsActive ∧ ¬ (stage = .lost ∧ Deals.IsBlank deal.lostReason) then
        database.withDeals (Deals.moveDeal deal stage position
          (Deals.lane (database.records.deals.filter (·.organization = organization)) stage id)
          database.records.deals)
      else database

def deleteDeal (organization id : Nat) (database : Database) : Database :=
  if ∃ row ∈ database.records.deals, row.id = id ∧ row.organization = organization then
    { database with
      records := database.records.deleteDeal organization id
      costLines := database.costLines.filter (·.deal ≠ id) }
  else database

def moveTask (organization id : Nat) (workflowStatus : WorkflowStatus) (user now : Nat)
    (database : Database) : Database :=
  { database with
    records := { database.records with
      tasks := updateWhere (fun task => task.id = id ∧ task.organization = organization)
        (fun task => (task.applyWorkflowStatus workflowStatus user now).saveWorkflow task)
        database.records.tasks } }

/-! #### Services and charges -/

def bill (organization id : Nat) (request : Subscriptions.Request) (database : Database) :
    Database :=
  { database with
    records := { database.records with
      subscriptions := updateWhere
        (fun subscription => subscription.id = id ∧ subscription.organization = organization)
        (fun subscription =>
          { subscription with account := Subscriptions.step subscription.account request })
        database.records.subscriptions } }

def ensureCharge (id subscription : Nat) (database : Database) : Database :=
  database.drawEntry id subscription
    (column Subscription.id Subscription.organization database.records.subscriptions subscription)
    fun entry database => { database with charges := database.charges ++ [entry] }

def recordPayment (id charge : Nat) (database : Database) : Database :=
  database.drawEntry id charge
    (column (fun row : Entry => row.id) (fun row => row.organization) database.charges charge)
    fun entry database => { database with payments := database.payments ++ [entry] }

def recordCompanyActivity (id company : Nat) (database : Database) : Database :=
  database.drawEntry id company (database.companyOrganization company) fun entry database =>
    { database with companyActivities := database.companyActivities ++ [entry] }

def recordContactActivity (id contact : Nat) (database : Database) : Database :=
  database.drawEntry id contact
    (column Contact.id Contact.organization database.records.contacts contact)
    fun entry database =>
      { database with contactActivities := database.contactActivities ++ [entry] }

def recordCompanyTimelineEvent (id company : Nat) (database : Database) : Database :=
  database.drawEntry id company (database.companyOrganization company) fun entry database =>
    { database with timelineEvents := database.timelineEvents ++ [entry] }

/-! #### Costs -/

/-- A create request on a service. -/
def createService (casing : Casing) (organization id : Nat) (attrs : ServiceAttrs)
    (database : Database) : Database :=
  match validateService casing database.findCollaborator organization none attrs with
  | .error _ => database
  | .ok accepted =>
      match accepted.toRow casing id organization with
      | none => database
      | some service => database.draw id organization fun database =>
          { database with services := database.services ++ [service] }

def updateService (casing : Casing) (organization id : Nat) (attrs : ServiceAttrs)
    (database : Database) : Database :=
  match database.services.find? fun row => row.id = id ∧ row.organization = organization with
  | none => database
  | some service =>
      match validateService casing database.findCollaborator organization (some service) attrs with
      | .error _ => database
      | .ok accepted =>
          { database with
            services := updateWhere (·.id = id) (fun _ => accepted.setOn casing service)
              database.services }

/-- The request up to its `save`, if it has not been refused. The deal is the one
of the path. -/
def checkLine (casing : Casing) (organization deal : Nat) (database : Database) :
    LineRequest → Option LineWrite
  | .create id attrs => do
      let loadedDeal ← database.records.deals.find? fun row =>
        row.id = deal ∧ row.organization = organization
      let accepted ← (validateLine casing database.catalog organization loadedDeal.currency none
        attrs).toOption
      let line ← accepted.toRow casing id organization deal
      return .create line
  | .patch id attrs => do
      let loadedDeal ← database.records.deals.find? fun row =>
        row.id = deal ∧ row.organization = organization
      let line ← database.costLines.find? fun row =>
        row.id = id ∧ row.organization = organization ∧ row.deal = deal
      let accepted ← (validateLine casing database.catalog organization loadedDeal.currency
        (some line) attrs).toOption
      return .update (accepted.setOn casing line)

def becomeLine (index : Nat) (write : Option LineWrite) (database : Database) : Database :=
  { database with lineRequests := Function.update database.lineRequests index write }

/-- A request that is busy is not checked again. A create request draws its id. -/
def enterLine (casing : Casing) (index organization deal : Nat) (request : LineRequest)
    (database : Database) : Database :=
  match database.lineRequests index, request with
  | some _, _ => database
  | none, .create id _ => database.draw id organization
      (becomeLine index (database.checkLine casing organization deal request))
  | none, .patch _ _ =>
      database.becomeLine index (database.checkLine casing organization deal request)

/-- `save` of a cost line. A line that is gone by now is inserted again. -/
def storeLine (line : DealCostLine) (lines : List DealCostLine) : List DealCostLine :=
  if line.id ∈ lines.map DealCostLine.id then updateWhere (·.id = line.id) (fun _ => line) lines
  else lines ++ [line]

def saveLine (index : Nat) (database : Database) : Database :=
  match database.lineRequests index with
  | none => database
  | some write =>
      { database.becomeLine index none with
        costLines := storeLine write.line database.costLines }

def deleteLine (organization deal id : Nat) (database : Database) : Database :=
  { database with
    costLines := database.costLines.filter fun line =>
      ¬ (line.id = id ∧ line.organization = organization ∧ line.deal = deal) }

/-! ### Steps -/

/-- What an action does unless a foreign key refuses it. -/
def attempt (casing : Casing) (database : Database) : Action → Database
  | .createWorkspace organization => database.createWorkspace organization
  | .deleteWorkspace organization => database.deleteWorkspace organization
  | .createSettings organization id => database.draw id organization fun database =>
      { database with settings := database.settings ++ [⟨id, organization⟩] }
  | .join organization id => database.draw id organization fun database =>
      { database with memberships := database.memberships ++ [⟨id, organization⟩] }
  | .removeMember organization id => database.removeMember organization id
  | .createCounter organization id => database.draw id organization fun database =>
      { database with counters := database.counters ++ [⟨id, organization⟩] }
  | .createCompany organization id => database.draw id organization fun database =>
      { database with companies := database.companies ++ [⟨id, organization⟩] }
  | .deleteCompany organization id => database.deleteCompany organization id
  | .check index organization user now request outside =>
      match newId request with
      | none => database.check casing index organization user now request outside
      | some id => database.draw id organization
          (check casing index organization user now request outside)
  | .save index now =>
      { database with
        records := database.records.refinish index now (database.records.requests index) }
  | .fail index => { database with records := database.records.step (.fail index) }
  | .archiveContact organization id now text => database.withContacts
      (Contacts.step text database.records.contacts (.archive organization id now))
  | .restoreContact organization id text => database.withContacts
      (Contacts.step text database.records.contacts (.restore organization id))
  | .deleteContact organization id => database.deleteContact organization id
  | .archiveDeal organization id now => database.archiveDeal organization id now
  | .moveDeal organization id stage position => database.moveDeal organization id stage position
  | .deleteDeal organization id => database.deleteDeal organization id
  | .moveTask organization id workflowStatus user now =>
      database.moveTask organization id workflowStatus user now
  | .deleteTask organization id =>
      { database with records := database.records.deleteTask organization id }
  | .bill organization id request => database.bill organization id request
  | .ensureCharge id subscription => database.ensureCharge id subscription
  | .recordPayment id charge => database.recordPayment id charge
  | .recordCompanyActivity id company => database.recordCompanyActivity id company
  | .recordContactActivity id contact => database.recordContactActivity id contact
  | .recordTimelineEvent id company => database.recordCompanyTimelineEvent id company
  | .createCatalogItem organization id item => database.draw id organization fun database =>
      { database with catalogItems := database.catalogItems ++ [⟨⟨id, organization⟩, item⟩] }
  | .updateCatalogItem organization id item =>
      { database with
        catalogItems := updateWhere (fun row => row.id = id ∧ row.organization = organization)
          (fun row => { row with item := item }) database.catalogItems }
  | .createCollaborator organization id name isActive => database.draw id organization
      fun database =>
        { database with
          collaborators := database.collaborators ++ [⟨id, organization, name, isActive⟩] }
  | .updateCollaborator organization id name isActive =>
      { database with
        collaborators := updateWhere (fun row => row.id = id ∧ row.organization = organization)
          (fun row => { row with name := name, isActive := isActive }) database.collaborators }
  | .createService organization id attrs => database.createService casing organization id attrs
  | .updateService organization id attrs => database.updateService casing organization id attrs
  | .checkLine index organization deal request =>
      database.enterLine casing index organization deal request
  | .saveLine index => database.saveLine index
  | .failLine index => database.becomeLine index none
  | .deleteLine organization deal id => database.deleteLine organization deal id

/-- An action that a foreign key refuses leaves the tables as they are. A request
that was to save has ended. -/
def refuse (database : Database) : Action → Database
  | .save index _ => { database with records := database.records.step (.fail index) }
  | .saveLine index => database.becomeLine index none
  | _ => database

/-- The database after an action. -/
def step (casing : Casing) (database : Database) (action : Action) : Database :=
  if (database.attempt casing action).KeysHold then database.attempt casing action
  else database.refuse action

end Database

end BubllioCrm.Tenancy
