import BubllioCrm.Customers.Relations
import BubllioCrm.Tenancy.Database

/-!
Owns the isolation of organizations along the runs of the CRM: whatever a
request inserts, saves or leaves to save refers to ids of its own organization,
so that a business transfer finds no relation between two organizations.
-/

namespace BubllioCrm.Tenancy

open BubllioCrm.Companies BubllioCrm.Costing BubllioCrm.Customers BubllioCrm.Foundations
open BubllioCrm.Onboarding.BusinessTransfer
open Activities (Task TaskAttrs WorkflowStatus)
open Contacts (Contact ContactAttrs)
open Deals (Deal DealAttrs)
open Subscriptions (ReferenceAttrs Subscription)

variable {issued grown : Nat → Option Nat} {database next : Database} {casing : Casing}
  {id organization : Nat}

/-! ### Placed rows -/

theorem placed_ownedRow {references : List (ForeignKey × Option Nat)} :
    (ownedRow id organization references).Placed issued ↔
      issued id = some organization ∧ issued organization = some organization ∧
        ∀ reference ∈ references, Leads issued organization reference.2 := by
  unfold OwnedRow.Placed ownedRow Leads
  simp only [List.forall_mem_cons, Option.mem_def, Option.some.injEq, forall_eq']

theorem leads_some {owner target : Nat} :
    Leads issued owner (some target) ↔ issued target = some owner := by
  simp [Leads]

theorem leads_none {owner : Nat} : Leads issued owner none := by
  intro target isTarget
  cases isTarget

theorem placed_contactRow {contact : Contact} : (contactRow contact).Placed issued ↔
    issued contact.id = some contact.organization ∧
      issued contact.organization = some contact.organization ∧
      issued contact.company = some contact.organization := by
  simp [contactRow, placed_ownedRow, leads_some]

theorem placed_dealRow {deal : Deal} : (dealRow deal).Placed issued ↔
    issued deal.id = some deal.organization ∧
      issued deal.organization = some deal.organization ∧
      issued deal.company = some deal.organization ∧
      Leads issued deal.organization deal.contact := by
  simp [dealRow, placed_ownedRow, leads_some]

theorem placed_taskRow {task : Task} : (taskRow task).Placed issued ↔
    issued task.id = some task.organization ∧
      issued task.organization = some task.organization ∧
      issued task.company = some task.organization ∧
      Leads issued task.organization task.contact ∧ Leads issued task.organization task.deal := by
  simp [taskRow, placed_ownedRow, leads_some]

theorem placed_subscriptionRow {subscription : Subscription} :
    (subscriptionRow subscription).Placed issued ↔
      issued subscription.id = some subscription.organization ∧
        issued subscription.organization = some subscription.organization ∧
        issued subscription.company = some subscription.organization ∧
        Leads issued subscription.organization subscription.catalogItem ∧
        Leads issued subscription.organization subscription.originatingDeal := by
  simp [subscriptionRow, placed_ownedRow, leads_some]

theorem placed_serviceRow {service : CollaboratorService} : (serviceRow service).Placed issued ↔
    issued service.id = some service.organization ∧
      issued service.organization = some service.organization ∧
      issued service.collaborator = some service.organization := by
  simp [serviceRow, placed_ownedRow, leads_some]

theorem placed_lineRow {line : DealCostLine} : (lineRow line).Placed issued ↔
    issued line.id = some line.organization ∧
      issued line.organization = some line.organization ∧
      issued line.deal = some line.organization ∧
      issued line.collaborator = some line.organization ∧
      Leads issued line.organization line.collaboratorService := by
  simp [lineRow, placed_ownedRow, leads_some]

/-- What a request is to save refers to its organization. What a PATCH request on
a task or a subscription names is of the organization of the row it has loaded. -/
def PlacedWrite (issued : Nat → Option Nat) : Write → Prop
  | .createContact _ contact => (contactRow contact).Placed issued
  | .updateContact _ contact => (contactRow contact).Placed issued
  | .createDeal deal => (dealRow deal).Placed issued
  | .updateDeal deal => (dealRow deal).Placed issued
  | .createTask task => (taskRow task).Placed issued
  | .updateTask attrs _ _ loaded => (taskRow (attrs.setOn loaded)).Placed issued
  | .createSubscription subscription => (subscriptionRow subscription).Placed issued
  | .updateSubscription attrs loaded => (subscriptionRow (attrs.setOn loaded)).Placed issued

theorem PlacedWrite.extend {write : Write} (placed : PlacedWrite issued write)
    (isLater : Extends issued grown) : PlacedWrite grown write := by
  cases write <;> exact OwnedRow.Placed.extend placed isLater

/-- Every row, and whatever a request is to save, is placed. -/
structure Placed (database : Database) : Prop where
  rows : ∀ dataset, ∀ row ∈ database.tables dataset, row.Placed database.issued
  writes : ∀ index write seen, database.records.requests index = .checked write seen →
    PlacedWrite database.issued write
  lines : ∀ index write, database.lineRequests index = some write →
    (lineRow write.line).Placed database.issued

theorem Placed.empty : Placed {} := by
  refine ⟨fun dataset row stored => ?_, fun _ _ _ checked => ?_, fun _ _ checked => ?_⟩
  · cases dataset <;> cases stored
  · cases checked
  · cases checked

/-- A step that keeps the requests keeps what is placed if its new rows are. -/
theorem Placed.rewrite (placed : Placed database) (sameIssued : next.issued = database.issued)
    (sameRequests : next.records.requests = database.records.requests)
    (sameLines : next.lineRequests = database.lineRequests)
    (rows : ∀ dataset, ∀ row ∈ next.tables dataset,
      row ∈ database.tables dataset ∨ row.Placed database.issued) : Placed next := by
  refine ⟨fun dataset row stored => ?_, ?_, ?_⟩
  · rw [sameIssued]
    rcases rows dataset row stored with old | new
    · exact placed.rows dataset row old
    · exact new
  · rw [sameIssued, sameRequests]
    exact placed.writes
  · rw [sameIssued, sameLines]
    exact placed.lines

theorem Placed.issue (placed : Placed database) (fresh : database.issued id = none) :
    Placed (database.issue id organization) := by
  have extended : Extends database.issued (database.issue id organization).issued :=
    extends_update fresh
  refine ⟨fun dataset row stored => ?_, fun index write seen checked => ?_,
    fun index write checked => ?_⟩
  · have isOld : row ∈ database.tables dataset := by cases dataset <;> exact stored
    exact (placed.rows dataset row isOld).extend extended
  · exact (placed.writes index write seen checked).extend extended
  · exact (placed.lines index write checked).extend extended

/-- The organization of a request is its own. -/
theorem Placed.own (placed : Placed database)
    (stored : organization ∈ database.organizations) :
    database.issued organization = some organization :=
  (placed.rows .organizations _ (List.mem_map_of_mem stored)).1

/-! ### Rows of a table -/

section Rows

variable {Row : Type*} {view : Row → OwnedRow ForeignKey} {rows : List Row}
  {row : OwnedRow ForeignKey}

theorem mem_view_append {new : Row} (stored : row ∈ (rows ++ [new]).map view) :
    row ∈ rows.map view ∨ row = view new := by
  rw [List.map_append, List.map_singleton, List.mem_append, List.mem_singleton] at stored
  exact stored

theorem mem_view_filter {keep : Row → Bool} (stored : row ∈ (rows.filter keep).map view) :
    row ∈ rows.map view :=
  (List.filter_sublist.map view).subset stored

theorem mem_view_updateWhere {selected : Row → Prop} [DecidablePred selected]
    {change : Row → Row} (stored : row ∈ (updateWhere selected change rows).map view) :
    row ∈ rows.map view ∨ ∃ old ∈ rows, selected old ∧ row = view (change old) := by
  obtain ⟨after, member, rfl⟩ := List.mem_map.mp stored
  rcases mem_updateWhere.mp member with ⟨old, isOld, ⟨hit, rfl⟩ | ⟨-, rfl⟩⟩
  · exact Or.inr ⟨old, isOld, hit, rfl⟩
  · exact Or.inl (List.mem_map_of_mem isOld)

/-- A change of columns that are no relations. -/
theorem mem_view_touched {selected : Row → Prop} [DecidablePred selected] {change : Row → Row}
    (keeps : ∀ row, view (change row) = view row)
    (stored : row ∈ (updateWhere selected change rows).map view) : row ∈ rows.map view := by
  rwa [map_updateWhere keeps] at stored

end Rows

/-- A request that looks up the organization of a row gets the one for which the
id was drawn. -/
theorem issued_of_column {Row : Type*} {key owner : Row → Nat} {rows : List Row}
    {reference : Option Nat}
    (placed : ∀ row ∈ rows, issued (key row) = some (owner row))
    (leads : Leads (column key owner rows) organization reference) :
    Leads issued organization reference := by
  intro target isTarget
  obtain ⟨row, stored, rfl, rfl⟩ := mem_of_column (leads target isTarget)
  exact placed row stored

/-! ### Insertions -/

theorem Placed.createWorkspace (placed : Placed database) :
    Placed (database.createWorkspace organization) := by
  unfold Database.createWorkspace
  split_ifs with fresh
  · refine (placed.issue fresh).rewrite (by rfl) (by rfl) (by rfl) fun dataset row stored => ?_
    cases dataset with
    | organizations =>
        apply (mem_view_append stored).imp_right
        rintro rfl
        exact ⟨Function.update_self _ _ _, by simp [organizationRow]⟩
    | _ => exact Or.inl stored
  · exact placed

/-- A request that finds its organization may go on with a new id. -/
theorem Placed.draw {insert : Database → Database} (placed : Placed database)
    (goesOn : ∀ drawn, Placed drawn → Extends database.issued drawn.issued →
      drawn.issued id = some organization → drawn.issued organization = some organization →
      drawn = database.issue id organization → Placed (insert drawn)) :
    Placed (database.draw id organization insert) := by
  unfold Database.draw
  split_ifs with may
  · have issued : Placed (database.issue id organization) := placed.issue may.1
    exact goesOn _ issued (extends_update may.1) (Function.update_self _ _ _) (issued.own may.2) rfl
  · exact placed

/-- A request inserts a row with a new id at the end of one table. -/
theorem Placed.insert {insert : Database → Database} {new : OwnedRow ForeignKey}
    (placed : Placed database) (dataset : Dataset)
    (isPlaced : ∀ issued, Extends database.issued issued → issued id = some organization →
      issued organization = some organization → new.Placed issued)
    (appended : ∀ drawn, (insert drawn).tables dataset = drawn.tables dataset ++ [new])
    (others : ∀ drawn other, other ≠ dataset →
      (insert drawn).tables other = drawn.tables other := by
        intro _ other differs; cases other <;> first | rfl | exact absurd rfl differs)
    (sameIssued : ∀ drawn, (insert drawn).issued = drawn.issued := by intro _; rfl)
    (sameRequests : ∀ drawn, (insert drawn).records.requests = drawn.records.requests := by
      intro _; rfl)
    (sameLines : ∀ drawn, (insert drawn).lineRequests = drawn.lineRequests := by intro _; rfl) :
    Placed (database.draw id organization insert) := by
  apply placed.draw
  intro drawn drawnPlaced isLater isId isOwn _
  apply drawnPlaced.rewrite (sameIssued drawn) (sameRequests drawn) (sameLines drawn)
  intro other row stored
  by_cases isTable : other = dataset
  · rw [isTable, appended] at stored
    rw [isTable]
    rcases List.mem_append.mp stored with old | isNew
    · exact Or.inl old
    · rw [List.mem_singleton.mp isNew]
      exact Or.inr (isPlaced _ isLater isId isOwn)
  · rw [others drawn other isTable] at stored
    exact Or.inl stored

/-- A row that refers to nothing but its organization may be inserted. -/
theorem placed_owned {new : Owned} (isId : issued new.id = some new.organization)
    (isOwn : issued new.organization = some new.organization) : new.row.Placed issued :=
  placed_ownedRow.mpr ⟨isId, isOwn, by simp⟩

/-- A row may be inserted that is about one of the organization. -/
theorem placed_entry {entry : Entry} {key : ForeignKey}
    (isId : issued entry.id = some entry.organization)
    (isOwn : issued entry.organization = some entry.organization)
    (isSubject : issued entry.subject = some entry.organization) :
    (entry.row key).Placed issued :=
  placed_ownedRow.mpr ⟨isId, isOwn, by simpa [leads_some] using isSubject⟩

/-- A row that refers to nothing but its organization is inserted. -/
theorem Placed.insertOwned {insert : Database → Database} (placed : Placed database)
    (dataset : Dataset) (appended : ∀ drawn,
      (insert drawn).tables dataset = drawn.tables dataset ++ [Owned.row ⟨id, organization⟩])
    (others : ∀ drawn other, other ≠ dataset →
      (insert drawn).tables other = drawn.tables other := by
        intro _ other differs; cases other <;> first | rfl | exact absurd rfl differs)
    (sameIssued : ∀ drawn, (insert drawn).issued = drawn.issued := by intro _; rfl)
    (sameRequests : ∀ drawn, (insert drawn).records.requests = drawn.records.requests := by
      intro _; rfl)
    (sameLines : ∀ drawn, (insert drawn).lineRequests = drawn.lineRequests := by intro _; rfl) :
    Placed (database.draw id organization insert) :=
  placed.insert dataset (fun _ _ isId isOwn => placed_owned isId isOwn) appended others sameIssued
    sameRequests sameLines

/-- A row about a subject of the organization is inserted. -/
theorem Placed.insertEntry {insert : Entry → Database → Database} {subject : Nat}
    {owner : Option Nat} (placed : Placed database) (key : ForeignKey) (dataset : Dataset)
    (isOwner : ∀ organization, owner = some organization →
      database.issued subject = some organization)
    (appended : ∀ entry drawn,
      (insert entry drawn).tables dataset = drawn.tables dataset ++ [entry.row key])
    (others : ∀ entry drawn other, other ≠ dataset →
      (insert entry drawn).tables other = drawn.tables other := by
        intro _ _ other differs; cases other <;> first | rfl | exact absurd rfl differs)
    (sameIssued : ∀ entry drawn, (insert entry drawn).issued = drawn.issued := by intro _ _; rfl)
    (sameRequests : ∀ entry drawn,
      (insert entry drawn).records.requests = drawn.records.requests := by intro _ _; rfl)
    (sameLines : ∀ entry drawn, (insert entry drawn).lineRequests = drawn.lineRequests := by
      intro _ _; rfl) :
    Placed (database.drawEntry id subject owner insert) := by
  unfold Database.drawEntry
  cases owner with
  | none => exact placed
  | some organization =>
      refine placed.insert dataset (fun issued isLater isId isOwn => ?_) (appended _) (others _)
        (sameIssued _) (sameRequests _) (sameLines _)
      exact placed_entry isId isOwn (isLater _ _ (isOwner organization rfl))

/-! ### What the serializers find -/

theorem Placed.contact (placed : Placed database) {contact : Contact}
    (stored : contact ∈ database.records.contacts) : (contactRow contact).Placed database.issued :=
  placed.rows .contacts _ (List.mem_map_of_mem stored)

theorem Placed.deal (placed : Placed database) {deal : Deal}
    (stored : deal ∈ database.records.deals) : (dealRow deal).Placed database.issued :=
  placed.rows .deals _ (List.mem_map_of_mem stored)

theorem Placed.task (placed : Placed database) {task : Task}
    (stored : task ∈ database.records.tasks) : (taskRow task).Placed database.issued :=
  placed.rows .tasks _ (List.mem_map_of_mem stored)

theorem Placed.subscription (placed : Placed database) {subscription : Subscription}
    (stored : subscription ∈ database.records.subscriptions) :
    (subscriptionRow subscription).Placed database.issued :=
  placed.rows .customerSubscriptions _ (List.mem_map_of_mem stored)

theorem Placed.service (placed : Placed database) {service : CollaboratorService}
    (stored : service ∈ database.services) : (serviceRow service).Placed database.issued :=
  placed.rows .collaboratorServices _ (List.mem_map_of_mem stored)

theorem Placed.line (placed : Placed database) {line : DealCostLine}
    (stored : line ∈ database.costLines) : (lineRow line).Placed database.issued :=
  placed.rows .dealCostLines _ (List.mem_map_of_mem stored)

/-- A reference that the lookups find in the organization is issued to it. -/
structure Finds (issued : Nat → Option Nat) (related : Related) : Prop where
  company : ∀ organization reference, Leads related.companyOrganization organization reference →
    Leads issued organization reference
  contact : ∀ organization reference, Leads related.contactOrganization organization reference →
    Leads issued organization reference
  deal : ∀ organization reference, Leads related.dealOrganization organization reference →
    Leads issued organization reference
  catalogItem : ∀ organization reference,
    Leads related.catalogItemOrganization organization reference →
    Leads issued organization reference

theorem Placed.finds (placed : Placed database) (outside : Surroundings) :
    Finds database.issued
      (database.records.related (database.surroundings casing outside).related) where
  company _ _ leads := issued_of_column
    (fun _ stored => (placed.rows .companies _ (List.mem_map_of_mem stored)).1) leads
  contact _ _ leads := issued_of_column (fun _ stored => (placed.contact stored).1) leads
  deal _ _ leads := issued_of_column (fun _ stored => (placed.deal stored).1) leads
  catalogItem _ _ leads := issued_of_column
    (fun _ stored => (placed.rows .serviceCatalogItems _ (List.mem_map_of_mem stored)).1) leads

/-! ### Checks -/

section Checks

variable {related : Related} {now : Nat}

theorem placed_createContact {contacts : List Contact} {attrs accepted : ContactAttrs}
    {contact : Contact} (finds : Finds issued related) (isId : issued id = some organization)
    (isOwn : issued organization = some organization)
    (valid : Contacts.validate related contacts organization none attrs = .ok accepted)
    (isRow : accepted.toRow id organization = some contact) :
    (contactRow contact).Placed issued := by
  obtain rfl := Contacts.validate_ok valid
  obtain ⟨rfl, rfl, company⟩ := Contacts.toRow_owner isRow
  have leads := finds.company _ _ (Contacts.organization_of_validate valid)
  rw [company] at leads
  exact placed_contactRow.mpr ⟨isId, isOwn, leads _ rfl⟩

theorem placed_patchContact {contacts : List Contact} {attrs accepted : ContactAttrs}
    {loaded : Contact} (finds : Finds issued related)
    (isPlaced : (contactRow loaded).Placed issued)
    (valid : Contacts.validate related contacts loaded.organization (some loaded) attrs =
      .ok accepted) : (contactRow (accepted.setOn loaded)).Placed issued := by
  obtain rfl := Contacts.validate_ok valid
  obtain ⟨isId, isOwn, -⟩ := placed_contactRow.mp isPlaced
  have leads := finds.company _ _ (Contacts.organization_of_validate valid)
  rw [Option.map_some, orElse_some] at leads
  exact placed_contactRow.mpr ⟨isId, isOwn, leads _ rfl⟩

theorem placed_createDeal {attrs accepted : DealAttrs} {deal : Deal}
    (finds : Finds issued related) (isId : issued id = some organization)
    (isOwn : issued organization = some organization)
    (valid : Deals.validate related organization none attrs = .ok accepted)
    (isRow : accepted.toRow id organization now = some deal) : (dealRow deal).Placed issued := by
  obtain rfl := Deals.validate_ok valid
  obtain ⟨rfl, rfl⟩ := Deals.toRow_owner isRow
  obtain ⟨company, contact⟩ := Deals.toRow_references isRow
  obtain ⟨leads, leadsContact⟩ := Deals.organization_of_validate valid
  rw [company] at leads
  rw [Option.bind_none, ← contact] at leadsContact
  exact placed_dealRow.mpr
    ⟨isId, isOwn, finds.company _ _ leads _ rfl, finds.contact _ _ leadsContact⟩

theorem placed_patchDeal {attrs accepted : DealAttrs} {loaded : Deal}
    (finds : Finds issued related) (isPlaced : (dealRow loaded).Placed issued)
    (valid : Deals.validate related loaded.organization (some loaded) attrs = .ok accepted) :
    (dealRow (accepted.setOn loaded)).Placed issued := by
  obtain rfl := Deals.validate_ok valid
  obtain ⟨isId, isOwn, -⟩ := placed_dealRow.mp isPlaced
  obtain ⟨leads, leadsContact⟩ := Deals.organization_of_validate valid
  rw [Option.map_some, orElse_some] at leads
  exact placed_dealRow.mpr
    ⟨isId, isOwn, finds.company _ _ leads _ rfl, finds.contact _ _ leadsContact⟩

theorem placed_createTask {attrs accepted : TaskAttrs} {task : Task}
    (finds : Finds issued related) (isId : issued id = some organization)
    (isOwn : issued organization = some organization)
    (valid : Activities.validate related organization none attrs = .ok accepted)
    (isRow : accepted.toRow id organization = some task) : (taskRow task).Placed issued := by
  obtain rfl := Activities.validate_ok valid
  obtain ⟨rfl, rfl⟩ := Activities.toRow_owner isRow
  obtain ⟨company, contact, deal⟩ := Activities.toRow_references isRow
  obtain ⟨leads, leadsContact, leadsDeal⟩ := Activities.organization_of_validate valid
  rw [company] at leads
  rw [Option.bind_none, ← contact] at leadsContact
  rw [Option.bind_none, ← deal] at leadsDeal
  exact placed_taskRow.mpr ⟨isId, isOwn, finds.company _ _ leads _ rfl,
    finds.contact _ _ leadsContact, finds.deal _ _ leadsDeal⟩

theorem placed_patchTask {attrs accepted : TaskAttrs} {loaded : Task}
    (finds : Finds issued related) (isPlaced : (taskRow loaded).Placed issued)
    (valid : Activities.validate related loaded.organization (some loaded) attrs =
      .ok accepted) : (taskRow (accepted.setOn loaded)).Placed issued := by
  obtain rfl := Activities.validate_ok valid
  obtain ⟨isId, isOwn, -⟩ := placed_taskRow.mp isPlaced
  obtain ⟨leads, leadsContact, leadsDeal⟩ := Activities.organization_of_validate valid
  rw [Option.map_some, orElse_some] at leads
  exact placed_taskRow.mpr ⟨isId, isOwn, finds.company _ _ leads _ rfl,
    finds.contact _ _ leadsContact, finds.deal _ _ leadsDeal⟩

variable {catalog : Nat → Option Subscriptions.ServiceCatalogItem} {today : Date}

theorem placed_createSubscription {attrs accepted : ReferenceAttrs} {subscription : Subscription}
    (finds : Finds issued related) (isId : issued id = some organization)
    (isOwn : issued organization = some organization)
    (valid : Subscriptions.validateReferences related catalog today organization none attrs =
      .ok accepted)
    (isRow : accepted.toSubscription id organization = some subscription) :
    (subscriptionRow subscription).Placed issued := by
  obtain ⟨leads, leadsItem, leadsDeal⟩ := Subscriptions.organization_of_validateReferences valid
  obtain ⟨terms, rfl⟩ := Subscriptions.validateReferences_ok valid
  obtain ⟨company, account, isCompany, rfl⟩ := Subscriptions.toSubscription_eq isRow
  dsimp only at isCompany
  rw [isCompany] at leads
  refine placed_subscriptionRow.mpr ⟨isId, isOwn, ?_, finds.catalogItem _ _ leadsItem,
    finds.deal _ _ leadsDeal⟩
  simpa [ReferenceAttrs.setOn, isCompany] using finds.company _ _ leads company rfl

theorem placed_patchSubscription {attrs accepted : ReferenceAttrs} {loaded : Subscription}
    (finds : Finds issued related) (isPlaced : (subscriptionRow loaded).Placed issued)
    (valid : Subscriptions.validateReferences related catalog today loaded.organization
      (some loaded) attrs = .ok accepted) :
    (subscriptionRow (accepted.setOn loaded)).Placed issued := by
  obtain ⟨leads, leadsItem, leadsDeal⟩ := Subscriptions.organization_of_validateReferences valid
  obtain ⟨terms, rfl⟩ := Subscriptions.validateReferences_ok valid
  obtain ⟨isId, isOwn, -⟩ := placed_subscriptionRow.mp isPlaced
  rw [Option.map_some, orElse_some] at leads
  exact placed_subscriptionRow.mpr ⟨isId, isOwn, finds.company _ _ leads _ rfl,
    finds.catalogItem _ _ leadsItem, finds.deal _ _ leadsDeal⟩

end Checks

/-- What a check leaves to save is placed. A create request has drawn its id. -/
theorem Placed.checked {user now : Nat} {request : Request} {outside : Surroundings}
    {write : Write} (placed : Placed database)
    (drawn : ∀ id, newId request = some id → database.issued id = some organization ∧
      database.issued organization = some organization)
    (isWrite : database.records.check organization user now
      (database.surroundings casing outside) request = some write) :
    PlacedWrite database.issued write := by
  have finds : Finds database.issued
      (database.records.related (database.surroundings casing outside).related) :=
    placed.finds outside
  cases Records.passes_of_check isWrite with
  | createContact valid isRow =>
      obtain ⟨isId, isOwn⟩ := drawn _ rfl
      exact placed_createContact finds isId isOwn valid isRow
  | patchContact found valid =>
      obtain ⟨stored, -, rfl⟩ := found
      exact placed_patchContact finds (placed.contact stored) valid
  | createDeal valid isRow =>
      obtain ⟨isId, isOwn⟩ := drawn _ rfl
      exact placed_createDeal finds isId isOwn valid isRow
  | patchDeal found valid =>
      obtain ⟨stored, -, rfl⟩ := found
      exact placed_patchDeal finds (placed.deal stored) valid
  | createTask valid isRow =>
      obtain ⟨isId, isOwn⟩ := drawn _ rfl
      exact placed_createTask finds isId isOwn valid isRow
  | patchTask found valid =>
      obtain ⟨stored, -, rfl⟩ := found
      exact placed_patchTask finds (placed.task stored) valid
  | createSubscription valid isRow =>
      obtain ⟨isId, isOwn⟩ := drawn _ rfl
      exact placed_createSubscription finds isId isOwn valid isRow
  | patchSubscription found valid =>
      obtain ⟨stored, -, rfl⟩ := found
      exact placed_patchSubscription finds (placed.subscription stored) valid

/-! ### Writes on the records -/

/-- The records are placed. -/
structure PlacedRecords (issued : Nat → Option Nat) (records : Records) : Prop where
  contacts : ∀ contact ∈ records.contacts, (contactRow contact).Placed issued
  deals : ∀ deal ∈ records.deals, (dealRow deal).Placed issued
  tasks : ∀ task ∈ records.tasks, (taskRow task).Placed issued
  subscriptions : ∀ subscription ∈ records.subscriptions,
    (subscriptionRow subscription).Placed issued

theorem Placed.records (placed : Placed database) :
    PlacedRecords database.issued database.records :=
  ⟨fun _ => placed.contact, fun _ => placed.deal, fun _ => placed.task,
    fun _ => placed.subscription⟩

/-- The records may be written as long as they are placed. -/
theorem Placed.withRecords {records : Records} (placed : Placed database)
    (isPlaced : PlacedRecords database.issued records)
    (writes : ∀ index write seen, records.requests index = .checked write seen →
      PlacedWrite database.issued write) : Placed { database with records := records } := by
  refine ⟨fun dataset row stored => ?_, writes, placed.lines⟩
  cases dataset with
  | contacts =>
      obtain ⟨contact, member, rfl⟩ := List.mem_map.mp stored
      exact isPlaced.contacts contact member
  | deals =>
      obtain ⟨deal, member, rfl⟩ := List.mem_map.mp stored
      exact isPlaced.deals deal member
  | tasks =>
      obtain ⟨task, member, rfl⟩ := List.mem_map.mp stored
      exact isPlaced.tasks task member
  | customerSubscriptions =>
      obtain ⟨subscription, member, rfl⟩ := List.mem_map.mp stored
      exact isPlaced.subscriptions subscription member
  | organizations => exact placed.rows .organizations row stored
  | organizationSettings => exact placed.rows .organizationSettings row stored
  | memberships => exact placed.rows .memberships row stored
  | customerCodeCounters => exact placed.rows .customerCodeCounters row stored
  | companies => exact placed.rows .companies row stored
  | externalCollaborators => exact placed.rows .externalCollaborators row stored
  | collaboratorServices => exact placed.rows .collaboratorServices row stored
  | dealCostLines => exact placed.rows .dealCostLines row stored
  | serviceCatalogItems => exact placed.rows .serviceCatalogItems row stored
  | charges => exact placed.rows .charges row stored
  | payments => exact placed.rows .payments row stored
  | companyActivities => exact placed.rows .companyActivities row stored
  | contactActivities => exact placed.rows .contactActivities row stored
  | companyTimelineEvents => exact placed.rows .companyTimelineEvents row stored

section Saves

variable {records : Records} {seen : Related} {now : Nat} {write : Write}

theorem PlacedRecords.withContacts {contacts : List Contact}
    (placed : PlacedRecords issued records)
    (isPlaced : ∀ contact ∈ contacts, (contactRow contact).Placed issued) :
    PlacedRecords issued { records with contacts := contacts } :=
  ⟨isPlaced, placed.deals, placed.tasks, placed.subscriptions⟩

theorem PlacedRecords.withDeals {deals : List Deal} (placed : PlacedRecords issued records)
    (isPlaced : ∀ deal ∈ deals, (dealRow deal).Placed issued) :
    PlacedRecords issued { records with deals := deals } :=
  ⟨placed.contacts, isPlaced, placed.tasks, placed.subscriptions⟩

theorem PlacedRecords.withTasks {tasks : List Task} (placed : PlacedRecords issued records)
    (isPlaced : ∀ task ∈ tasks, (taskRow task).Placed issued) :
    PlacedRecords issued { records with tasks := tasks } :=
  ⟨placed.contacts, placed.deals, isPlaced, placed.subscriptions⟩

theorem PlacedRecords.withSubscriptions {subscriptions : List Subscription}
    (placed : PlacedRecords issued records)
    (isPlaced : ∀ subscription ∈ subscriptions, (subscriptionRow subscription).Placed issued) :
    PlacedRecords issued { records with subscriptions := subscriptions } :=
  ⟨placed.contacts, placed.deals, placed.tasks, isPlaced⟩

theorem forall_mem_append {Row : Type*} {holds : Row → Prop} {rows : List Row} {new : Row}
    (all : ∀ row ∈ rows, holds row) (isNew : holds new) : ∀ row ∈ rows ++ [new], holds row := by
  intro row stored
  rcases List.mem_append.mp stored with old | last
  · exact all row old
  · rw [List.mem_singleton.mp last]
    exact isNew

theorem placed_yieldPrimary {attrs : ContactAttrs} {contact : Contact} {contacts : List Contact}
    (all : ∀ contact ∈ contacts, (contactRow contact).Placed issued) :
    ∀ other ∈ Contacts.yieldPrimary attrs contact contacts, (contactRow other).Placed issued := by
  unfold Contacts.yieldPrimary
  split_ifs
  · exact forall_mem_updateWhere all fun other stored _ => all other stored
  · exact all

theorem PlacedRecords.storeContacts {contacts : List Contact}
    (placed : PlacedRecords issued records)
    (isPlaced : ∀ contact ∈ contacts, (contactRow contact).Placed issued) :
    PlacedRecords issued (records.storeContacts seen contacts) := by
  unfold Records.storeContacts
  split_ifs
  · exact placed.withContacts isPlaced
  · exact placed

/-- What a write merges into a row is named by the request or was there. -/
theorem issued_merged {named : Option Nat} {loaded row owner : Nat}
    (isLoaded : issued (named.getD loaded) = some owner) (stored : issued row = some owner) :
    issued (named.getD row) = some owner := by
  cases named with
  | none => exact stored
  | some _ => exact isLoaded

theorem leads_merged {named : Option (Option Nat)} {loaded row : Option Nat} {owner : Nat}
    (isLoaded : Leads issued owner (named.getD loaded)) (stored : Leads issued owner row) :
    Leads issued owner (named.getD row) := by
  cases named with
  | none => exact stored
  | some _ => exact isLoaded

theorem placed_updateTask {attrs : TaskAttrs} {workflowStatus : Option WorkflowStatus} {user : Nat}
    {loaded row : Task} (isPlaced : (taskRow (attrs.setOn loaded)).Placed issued)
    (stored : (taskRow row).Placed issued) (isLoaded : row.id = loaded.id) :
    (taskRow (Activities.updateTask attrs workflowStatus user now row)).Placed issued := by
  have sameRow : taskRow (Activities.updateTask attrs workflowStatus user now row) =
      taskRow (attrs.setOn row) := by
    cases workflowStatus <;> rfl
  have sameOwner : loaded.organization = row.organization :=
    owner_eq isPlaced stored isLoaded.symm
  obtain ⟨-, -, company, contact, deal⟩ := placed_taskRow.mp isPlaced
  obtain ⟨isId, isOwn, rowCompany, rowContact, rowDeal⟩ := placed_taskRow.mp stored
  have toRow : (attrs.setOn loaded).organization = row.organization := sameOwner
  rw [toRow] at company contact deal
  rw [sameRow, placed_taskRow]
  exact ⟨isId, isOwn, issued_merged company rowCompany, leads_merged contact rowContact,
    leads_merged deal rowDeal⟩

theorem placed_updateSubscription {attrs : ReferenceAttrs} {loaded row : Subscription}
    (isPlaced : (subscriptionRow (attrs.setOn loaded)).Placed issued)
    (stored : (subscriptionRow row).Placed issued) (isLoaded : row.id = loaded.id) :
    (subscriptionRow (Records.updateSubscription attrs row)).Placed issued := by
  have sameOwner : loaded.organization = row.organization :=
    owner_eq isPlaced stored isLoaded.symm
  obtain ⟨-, -, company, item, deal⟩ := placed_subscriptionRow.mp isPlaced
  obtain ⟨isId, isOwn, rowCompany, rowItem, rowDeal⟩ := placed_subscriptionRow.mp stored
  have toRow : (attrs.setOn loaded).organization = row.organization := sameOwner
  rw [toRow] at company item deal
  unfold Records.updateSubscription
  cases isUpdated : Subscriptions.updateReferences attrs row with
  | error _ => exact stored
  | ok updated =>
      obtain ⟨account, rfl⟩ := Subscriptions.updateReferences_ok isUpdated
      exact placed_subscriptionRow.mpr ⟨isId, isOwn, issued_merged company rowCompany,
        leads_merged item rowItem, leads_merged deal rowDeal⟩

theorem PlacedRecords.save (placed : PlacedRecords issued records)
    (isPlaced : PlacedWrite issued write) : PlacedRecords issued (records.save seen now write) := by
  cases write with
  | createContact attrs contact =>
      exact placed.storeContacts
        (forall_mem_append (placed_yieldPrimary placed.contacts) isPlaced)
  | updateContact attrs contact =>
      exact placed.storeContacts
        (forall_mem_updateWhere (placed_yieldPrimary placed.contacts) fun _ _ _ => isPlaced)
  | createDeal deal =>
      unfold Records.save
      dsimp only
      split_ifs
      · exact placed
      · exact placed.withDeals (forall_mem_append placed.deals isPlaced)
  | updateDeal deal =>
      exact placed.withDeals (forall_mem_updateWhere placed.deals fun _ _ _ => isPlaced)
  | createTask task =>
      unfold Records.save
      dsimp only
      split_ifs
      · exact placed
      · exact placed.withTasks (forall_mem_append placed.tasks isPlaced)
  | updateTask attrs workflowStatus user loaded =>
      exact placed.withTasks (forall_mem_updateWhere placed.tasks fun row stored isLoaded =>
        placed_updateTask isPlaced (placed.tasks row stored) isLoaded)
  | createSubscription subscription =>
      unfold Records.save
      dsimp only
      split_ifs
      · exact placed
      · exact placed.withSubscriptions (forall_mem_append placed.subscriptions isPlaced)
  | updateSubscription attrs loaded =>
      exact placed.withSubscriptions
        (forall_mem_updateWhere placed.subscriptions fun row stored isLoaded =>
          placed_updateSubscription isPlaced (placed.subscriptions row stored) isLoaded)

/-- A contact or a deal that is inserted again is the one that was to be saved. -/
theorem PlacedRecords.resave (placed : PlacedRecords issued records)
    (isPlaced : PlacedWrite issued write) :
    PlacedRecords issued (records.resave seen now write) := by
  unfold Records.resave
  split
  · split_ifs
    · exact placed.save isPlaced
    · exact placed.save isPlaced
  · split_ifs
    · exact placed.save isPlaced
    · exact placed.save isPlaced
  · exact placed.save isPlaced

theorem requests_resave : (records.resave seen now write).requests = records.requests := by
  unfold Records.resave
  split
  · split_ifs <;> exact Records.requests_save
  · split_ifs <;> exact Records.requests_save
  · exact Records.requests_save

theorem PlacedRecords.deleteContact (placed : PlacedRecords issued records) :
    PlacedRecords issued (records.deleteContact organization id) := by
  unfold Records.deleteContact
  split_ifs
  · refine ⟨fun contact stored => placed.contacts contact (List.mem_of_mem_filter stored),
      forall_mem_updateWhere placed.deals fun deal stored _ => ?_,
      forall_mem_updateWhere placed.tasks fun task stored _ => ?_, placed.subscriptions⟩
    · obtain ⟨isId, isOwn, company, -⟩ := placed_dealRow.mp (placed.deals deal stored)
      exact placed_dealRow.mpr ⟨isId, isOwn, company, leads_none⟩
    · obtain ⟨isId, isOwn, company, -, deal⟩ := placed_taskRow.mp (placed.tasks task stored)
      exact placed_taskRow.mpr ⟨isId, isOwn, company, leads_none, deal⟩
  · exact placed

theorem PlacedRecords.deleteDeal (placed : PlacedRecords issued records) :
    PlacedRecords issued (records.deleteDeal organization id) := by
  unfold Records.deleteDeal
  split_ifs
  · refine ⟨placed.contacts, fun deal stored => placed.deals deal (List.mem_of_mem_filter stored),
      forall_mem_updateWhere placed.tasks fun task stored _ => ?_,
      forall_mem_updateWhere placed.subscriptions fun subscription stored _ => ?_⟩
    · obtain ⟨isId, isOwn, company, contact, -⟩ := placed_taskRow.mp (placed.tasks task stored)
      exact placed_taskRow.mpr ⟨isId, isOwn, company, contact, leads_none⟩
    · obtain ⟨isId, isOwn, company, item, -⟩ :=
        placed_subscriptionRow.mp (placed.subscriptions subscription stored)
      exact placed_subscriptionRow.mpr ⟨isId, isOwn, company, item, leads_none⟩
  · exact placed

theorem PlacedRecords.deleteTask (placed : PlacedRecords issued records) :
    PlacedRecords issued (records.deleteTask organization id) := by
  unfold Records.deleteTask
  split_ifs
  · exact placed.withTasks fun task stored => placed.tasks task (List.mem_of_mem_filter stored)
  · exact placed

/-- Archiving and restoring write no relation of a contact. -/
theorem placed_saveFields {change : Contact → Contact} {contacts : List Contact}
    {text : Related} {otherwise : Contacts.Answer}
    (all : ∀ contact ∈ contacts, (contactRow contact).Placed issued)
    (keeps : ∀ contact, contactRow (change contact) = contactRow contact) :
    ∀ contact ∈ (Contacts.store text contacts (Contacts.saveFields id change contacts)
      otherwise).1, (contactRow contact).Placed issued := by
  unfold Contacts.store
  split_ifs
  · exact forall_mem_updateWhere all fun contact stored _ => keeps contact ▸ all contact stored
  · exact all

theorem placed_archive {contacts : List Contact} {text : Related}
    (all : ∀ contact ∈ contacts, (contactRow contact).Placed issued) :
    ∀ contact ∈ Contacts.step text contacts (.archive organization id now),
      (contactRow contact).Placed issued := by
  unfold Contacts.step Contacts.execute
  dsimp only
  split
  · exact all
  · split_ifs
    · exact all
    · apply placed_saveFields all
      intro contact
      rfl

theorem placed_restore {contacts : List Contact} {text : Related}
    (all : ∀ contact ∈ contacts, (contactRow contact).Placed issued) :
    ∀ contact ∈ Contacts.step text contacts (.restore organization id),
      (contactRow contact).Placed issued := by
  unfold Contacts.step Contacts.execute
  dsimp only
  split
  · exact all
  · split_ifs
    · exact all
    · apply placed_saveFields all
      intro contact
      rfl

/-- A move writes no relation of a deal. -/
theorem placed_bulkUpdate {stage : Deals.Stage} {changes : List (Nat × Nat)} {deals : List Deal}
    (all : ∀ deal ∈ deals, (dealRow deal).Placed issued) :
    ∀ deal ∈ Deals.bulkUpdate stage changes deals, (dealRow deal).Placed issued := by
  intro deal stored
  obtain ⟨old, member, rfl⟩ := List.mem_map.mp stored
  split
  · exact all old member
  · exact all old member

end Saves

/-! ### Costs -/

theorem Placed.collaborator (placed : Placed database) {reference : Option Nat}
    (leads : Leads (organizations database.findCollaborator) organization reference) :
    Leads database.issued organization reference :=
  issued_of_column
    (fun _ stored => (placed.rows .externalCollaborators _ (List.mem_map_of_mem stored)).1) leads

theorem Placed.catalogService (placed : Placed database) {reference : Option Nat}
    (leads : Leads database.catalog.serviceOrganization organization reference) :
    Leads database.issued organization reference :=
  issued_of_column (fun _ stored => (placed.service stored).1) leads

theorem Placed.createService {attrs : ServiceAttrs} (placed : Placed database) :
    Placed (database.createService casing organization id attrs) := by
  unfold Database.createService
  split
  · exact placed
  · rename_i accepted valid
    split
    · exact placed
    · rename_i service isRow
      obtain ⟨sameCollaborator, leads⟩ := organization_of_validateService valid
      obtain ⟨rfl, rfl, collaborator⟩ := ServiceAttrs.toRow_owner isRow
      rw [← sameCollaborator, collaborator] at leads
      refine placed.insert .collaboratorServices (fun issued isLater isId isOwn => ?_)
        fun _ => List.map_append
      exact placed_serviceRow.mpr ⟨isId, isOwn, isLater _ _ (placed.collaborator leads _ rfl)⟩

theorem Placed.updateService {attrs : ServiceAttrs} (placed : Placed database) :
    Placed (database.updateService casing organization id attrs) := by
  unfold Database.updateService
  split
  · exact placed
  · rename_i service isLoaded
    obtain ⟨stored, -, rfl⟩ := mem_of_find isLoaded
    split
    · exact placed
    · rename_i accepted valid
      obtain ⟨sameCollaborator, leads⟩ := organization_of_validateService valid
      rw [← sameCollaborator, Option.map_some, orElse_some] at leads
      obtain ⟨isId, isOwn, -⟩ := placed_serviceRow.mp (placed.service stored)
      have isPlaced : (serviceRow (accepted.setOn casing service)).Placed database.issued :=
        placed_serviceRow.mpr ⟨isId, isOwn, placed.collaborator leads _ rfl⟩
      refine placed.rewrite (by rfl) (by rfl) (by rfl) fun dataset row member => ?_
      cases dataset with
      | collaboratorServices =>
          apply (mem_view_updateWhere member).imp_right
          rintro ⟨-, -, -, rfl⟩
          exact isPlaced
      | _ => exact Or.inl member

/-- What a request on a cost line has passed when it is left to save: the deal of
the path and the line are found, and the attributes are valid. -/
inductive PassesLine (casing : Casing) (organization deal : Nat) (database : Database) :
    LineRequest → LineWrite → Prop where
  | create {id : Nat} {attrs accepted : LineAttrs} {loadedDeal : Deal} {line : DealCostLine}
      (isDeal : loadedDeal ∈ database.records.deals ∧ loadedDeal.id = deal ∧
        loadedDeal.organization = organization)
      (valid : validateLine casing database.catalog organization loadedDeal.currency none attrs =
        .ok accepted)
      (isRow : accepted.toRow casing id organization deal = some line) :
      PassesLine casing organization deal database (.create id attrs) (.create line)
  | patch {id : Nat} {attrs accepted : LineAttrs} {loadedDeal : Deal} {line : DealCostLine}
      (isDeal : loadedDeal ∈ database.records.deals ∧ loadedDeal.id = deal ∧
        loadedDeal.organization = organization)
      (isLine : line ∈ database.costLines ∧ line.id = id ∧ line.organization = organization ∧
        line.deal = deal)
      (valid : validateLine casing database.catalog organization loadedDeal.currency (some line)
        attrs = .ok accepted) :
      PassesLine casing organization deal database (.patch id attrs)
        (.update (accepted.setOn casing line))

theorem passesLine_of_check {deal : Nat} {request : LineRequest} {write : LineWrite}
    (isWrite : database.checkLine casing organization deal request = some write) :
    PassesLine casing organization deal database request write := by
  cases request with
  | create id attrs =>
      obtain ⟨loadedDeal, isDeal, accepted, valid, line, isRow, rfl⟩ :
          ∃ loadedDeal, _ ∧ ∃ accepted, _ ∧ ∃ line, _ ∧ _ = write := by
        simpa only [Database.checkLine, Option.bind_eq_bind, Option.bind_eq_some_iff,
          Option.pure_def, Option.some.injEq] using isWrite
      exact .create (mem_of_find isDeal) (ok_of_toOption valid) isRow
  | patch id attrs =>
      obtain ⟨loadedDeal, isDeal, line, isLine, accepted, valid, rfl⟩ :
          ∃ loadedDeal, _ ∧ ∃ line, _ ∧ ∃ accepted, _ ∧ _ = write := by
        simpa only [Database.checkLine, Option.bind_eq_bind, Option.bind_eq_some_iff,
          Option.pure_def, Option.some.injEq] using isWrite
      exact .patch (mem_of_find isDeal) (mem_of_find isLine) (ok_of_toOption valid)

/-- A cost line that a check leaves to save is placed. A create request has its id. -/
theorem Placed.checkedLine {deal : Nat} {request : LineRequest} {write : LineWrite}
    (placed : Placed database) {later : Nat → Option Nat} (isLater : Extends database.issued later)
    (drawn : ∀ id attrs, request = .create id attrs → later id = some organization)
    (isWrite : database.checkLine casing organization deal request = some write) :
    (lineRow write.line).Placed later := by
  cases passesLine_of_check isWrite with
  | create isDeal valid isRow =>
      obtain ⟨accepts, same, -⟩ := validateLine_ok valid
      obtain ⟨leads, leadsService⟩ := organization_of_lineRefusal accepts
      obtain ⟨rfl, rfl, isPath, collaborator, service, -⟩ := LineAttrs.toRow_columns isRow
      rw [← same.collaborator, collaborator] at leads
      rw [← same.collaboratorService, Option.bind_none, ← service] at leadsService
      obtain ⟨stored, isPathDeal, sameOwner⟩ := isDeal
      obtain ⟨dealIssued, isOwn, -⟩ := placed_dealRow.mp (placed.deal stored)
      rw [sameOwner] at dealIssued isOwn
      rw [isPathDeal, ← isPath] at dealIssued
      refine placed_lineRow.mpr ⟨drawn _ _ rfl, isLater _ _ isOwn, isLater _ _ dealIssued,
        isLater _ _ (placed.collaborator leads _ rfl), fun target isTarget => ?_⟩
      exact isLater _ _ (placed.catalogService leadsService target isTarget)
  | patch isDeal isLine valid =>
      obtain ⟨accepts, same, -⟩ := validateLine_ok valid
      obtain ⟨leads, leadsService⟩ := organization_of_lineRefusal accepts
      obtain ⟨stored, -, sameOwner, -⟩ := isLine
      obtain ⟨isId, isOwn, isDealIssued, -⟩ := placed_lineRow.mp (placed.line stored)
      rw [← same.collaborator, Option.map_some, orElse_some] at leads
      rw [← same.collaboratorService] at leadsService
      rw [← sameOwner] at leads leadsService
      refine OwnedRow.Placed.extend ?_ isLater
      exact placed_lineRow.mpr ⟨isId, isOwn, isDealIssued, placed.collaborator leads _ rfl,
        placed.catalogService leadsService⟩

theorem Placed.becomeLine {index : Nat} {write : Option LineWrite} (placed : Placed database)
    (isPlaced : ∀ saved, write = some saved → (lineRow saved.line).Placed database.issued) :
    Placed (database.becomeLine index write) := by
  refine ⟨fun dataset row stored => ?_, placed.writes, fun other found atOther => ?_⟩
  · have isOld : row ∈ database.tables dataset := by cases dataset <;> exact stored
    exact placed.rows dataset row isOld
  · unfold Database.becomeLine at atOther
    dsimp only at atOther
    by_cases same : other = index
    · rw [same, Function.update_self] at atOther
      exact isPlaced found atOther
    · rw [Function.update_of_ne same] at atOther
      exact placed.lines other found atOther

theorem Placed.enterLine {index deal : Nat} {request : LineRequest} (placed : Placed database) :
    Placed (database.enterLine casing index organization deal request) := by
  unfold Database.enterLine
  split
  · exact placed
  · rename_i id attrs _
    apply placed.draw
    intro drawn drawnPlaced isLater isId _ _
    apply drawnPlaced.becomeLine
    intro write isWrite
    refine placed.checkedLine isLater (fun other otherAttrs same => ?_) isWrite
    cases same
    exact isId
  · apply placed.becomeLine
    intro write isWrite
    refine placed.checkedLine extends_refl (fun other otherAttrs same => ?_) isWrite
    cases same

theorem Placed.saveLine {index : Nat} (placed : Placed database) :
    Placed (database.saveLine index) := by
  unfold Database.saveLine
  split
  · exact placed
  · rename_i write isWrite
    have isPlaced := placed.lines index write isWrite
    have idle : Placed (database.becomeLine index none) := placed.becomeLine (by simp)
    refine idle.rewrite (by rfl) (by rfl) (by rfl) fun dataset row stored => ?_
    cases dataset with
    | dealCostLines =>
        unfold Database.tables Database.storeLine at stored
        dsimp only at stored
        split_ifs at stored with isStored
        · apply (mem_view_updateWhere stored).imp_right
          rintro ⟨-, -, -, rfl⟩
          exact isPlaced
        · apply (mem_view_append stored).imp_right
          rintro rfl
          exact isPlaced
    | _ => exact Or.inl stored

/-! ### Deletions and writes of columns -/

/-- The records may be written, by other than the requests on them. -/
theorem Placed.writeRecords {records : Records} (placed : Placed database)
    (isPlaced : PlacedRecords database.issued records)
    (same : records.requests = database.records.requests) :
    Placed { database with records := records } := by
  apply placed.withRecords isPlaced
  rw [same]
  exact placed.writes

theorem Placed.deleteCompany (placed : Placed database) :
    Placed (database.deleteCompany organization id) := by
  unfold Database.deleteCompany
  split_ifs
  · refine placed.rewrite (by rfl) (by rfl) (by rfl) fun dataset row stored => Or.inl ?_
    cases dataset with
    | companies => exact mem_view_filter stored
    | companyActivities => exact mem_view_filter stored
    | companyTimelineEvents => exact mem_view_filter stored
    | _ => exact stored
  · exact placed

theorem Placed.deleteWorkspace (placed : Placed database) :
    Placed (database.deleteWorkspace organization) := by
  unfold Database.deleteWorkspace
  split_ifs
  · exact placed
  · refine placed.rewrite (by rfl) (by rfl) (by rfl) fun dataset row stored => Or.inl ?_
    cases dataset <;> exact mem_view_filter stored

theorem Placed.removeMember (placed : Placed database) :
    Placed (database.removeMember organization id) := by
  refine placed.rewrite (by rfl) (by rfl) (by rfl) fun dataset row stored => Or.inl ?_
  cases dataset with
  | memberships => exact mem_view_filter stored
  | _ => exact stored

theorem Placed.deleteContact (placed : Placed database) :
    Placed (database.deleteContact organization id) := by
  unfold Database.deleteContact
  split_ifs with isStored
  · have sameRequests : (database.records.deleteContact organization id).requests =
        database.records.requests := by
      unfold Records.deleteContact
      split_ifs
      rfl
    have records := placed.writeRecords placed.records.deleteContact sameRequests
    refine records.rewrite (by rfl) (by rfl) (by rfl) fun dataset row stored => Or.inl ?_
    cases dataset with
    | contactActivities => exact mem_view_filter stored
    | _ => exact stored
  · exact placed

theorem Placed.deleteDeal (placed : Placed database) :
    Placed (database.deleteDeal organization id) := by
  unfold Database.deleteDeal
  split_ifs with isStored
  · have sameRequests : (database.records.deleteDeal organization id).requests =
        database.records.requests := by
      unfold Records.deleteDeal
      split_ifs
      rfl
    have records := placed.writeRecords placed.records.deleteDeal sameRequests
    refine records.rewrite (by rfl) (by rfl) (by rfl) fun dataset row stored => Or.inl ?_
    cases dataset with
    | dealCostLines => exact mem_view_filter stored
    | _ => exact stored
  · exact placed

theorem Placed.deleteTask (placed : Placed database) :
    Placed { database with records := database.records.deleteTask organization id } := by
  apply placed.writeRecords placed.records.deleteTask
  unfold Records.deleteTask
  split_ifs <;> rfl

theorem Placed.deleteLine {deal : Nat} (placed : Placed database) :
    Placed (database.deleteLine organization deal id) := by
  refine placed.rewrite (by rfl) (by rfl) (by rfl) fun dataset row stored => Or.inl ?_
  cases dataset with
  | dealCostLines => exact mem_view_filter stored
  | _ => exact stored

theorem Placed.withDeals {deals : List Deal} (placed : Placed database)
    (all : ∀ deal ∈ deals, (dealRow deal).Placed database.issued) :
    Placed (database.withDeals deals) :=
  placed.writeRecords (placed.records.withDeals all) rfl

theorem Placed.archiveDeal {now : Nat} (placed : Placed database) :
    Placed (database.archiveDeal organization id now) := by
  apply placed.withDeals
  exact forall_mem_updateWhere placed.records.deals fun deal stored _ =>
    placed.records.deals deal stored

theorem Placed.moveDeal {stage : Deals.Stage} {position : Nat} (placed : Placed database) :
    Placed (database.moveDeal organization id stage position) := by
  unfold Database.moveDeal
  split
  · exact placed
  · split_ifs
    · exact placed.withDeals (placed_bulkUpdate placed.records.deals)
    · exact placed

theorem Placed.moveTask {workflowStatus : WorkflowStatus} {user now : Nat}
    (placed : Placed database) :
    Placed (database.moveTask organization id workflowStatus user now) := by
  refine placed.writeRecords (placed.records.withTasks ?_) rfl
  exact forall_mem_updateWhere placed.records.tasks fun task stored _ =>
    placed.records.tasks task stored

theorem Placed.bill {request : Subscriptions.Request} (placed : Placed database) :
    Placed (database.bill organization id request) := by
  refine placed.writeRecords (placed.records.withSubscriptions ?_) rfl
  exact forall_mem_updateWhere placed.records.subscriptions fun subscription stored _ =>
    placed.records.subscriptions subscription stored

/-! ### Requests on the records -/

section Requests

variable {index now : Nat}

/-- A request becomes idle, or is left with a placed write. -/
theorem Placed.become {phase : Phase} (placed : Placed database)
    (isPlaced : ∀ write seen, phase = .checked write seen → PlacedWrite database.issued write) :
    Placed { database with records := database.records.become index phase } := by
  apply placed.withRecords
  · exact ⟨placed.records.contacts, placed.records.deals, placed.records.tasks,
      placed.records.subscriptions⟩
  · intro other write seen atOther
    unfold Records.become at atOther
    dsimp only at atOther
    by_cases same : other = index
    · rw [same, Function.update_self] at atOther
      exact isPlaced write seen atOther
    · rw [Function.update_of_ne same] at atOther
      exact placed.writes other write seen atOther

theorem Placed.fail (placed : Placed database) :
    Placed { database with records := database.records.step (.fail index) } :=
  placed.become (by simp)

theorem Placed.save (placed : Placed database) :
    Placed { database with
      records := database.records.refinish index now (database.records.requests index) } := by
  cases phase : database.records.requests index with
  | idle => exact placed
  | checked write seen =>
      have isPlaced := placed.writes index write seen phase
      have saved : Placed { database with records := database.records.resave seen now write } :=
        placed.writeRecords (placed.records.resave isPlaced) requests_resave
      exact saved.become (by simp)

theorem Placed.check {user : Nat} {request : Request} {outside : Surroundings}
    (placed : Placed database)
    (drawn : ∀ id, newId request = some id → database.issued id = some organization ∧
      database.issued organization = some organization) :
    Placed (database.check casing index organization user now request outside) := by
  unfold Database.check Records.step
  dsimp only
  cases database.records.requests index with
  | checked _ _ => exact placed
  | idle =>
      dsimp only
      cases isWrite : database.records.check organization user now
          (database.surroundings casing outside) request with
      | none => exact placed
      | some write =>
          apply placed.become
          rintro _ _ ⟨⟩
          exact placed.checked drawn isWrite

end Requests

/-! ### Runs -/

/-- A request that draws no id is checked as it stands, and any other with its id. -/
theorem Placed.enter {index user now : Nat} {request : Request} {outside : Surroundings}
    (placed : Placed database) : Placed (match newId request with
      | none => database.check casing index organization user now request outside
      | some id => database.draw id organization
          (Database.check casing index organization user now request outside)) := by
  cases isNew : newId request with
  | none =>
      apply placed.check
      intro id isDrawn
      rw [isNew] at isDrawn
      cases isDrawn
  | some id =>
      apply placed.draw
      intro drawn drawnPlaced _ isId isOwn _
      apply drawnPlaced.check
      intro other isDrawn
      rw [isNew] at isDrawn
      cases isDrawn
      exact ⟨isId, isOwn⟩

/-- What is stored of an organization is issued to it. -/
theorem Placed.column {Row : Type*} {key owner : Row → Nat} {rows : List Row}
    {view : Row → OwnedRow ForeignKey} {subject : Nat} (placed : Placed database)
    (dataset : Dataset) (isTable : database.tables dataset = rows.map view := by rfl)
    (isKey : ∀ row, (view row).id = key row := by intro _; rfl)
    (isOwner : ∀ row, (view row).owner = owner row := by intro _; rfl) (organization : Nat)
    (found : column key owner rows subject = some organization) :
    database.issued subject = some organization := by
  obtain ⟨row, stored, rfl, rfl⟩ := mem_of_column found
  rw [← isKey, ← isOwner]
  exact (placed.rows dataset _ (isTable ▸ List.mem_map_of_mem stored)).1

theorem Placed.attempt {action : Action} (placed : Placed database) :
    Placed (database.attempt casing action) := by
  unfold Database.attempt
  cases action with
  | createWorkspace organization => exact placed.createWorkspace
  | deleteWorkspace organization => exact placed.deleteWorkspace
  | removeMember organization id => exact placed.removeMember
  | createSettings organization id =>
      exact placed.insertOwned .organizationSettings fun _ => List.map_append
  | join organization id => exact placed.insertOwned .memberships fun _ => List.map_append
  | createCounter organization id =>
      exact placed.insertOwned .customerCodeCounters fun _ => List.map_append
  | createCompany organization id => exact placed.insertOwned .companies fun _ => List.map_append
  | createCatalogItem organization id item =>
      exact placed.insertOwned .serviceCatalogItems fun _ => List.map_append
  | createCollaborator organization id name isActive =>
      exact placed.insertOwned .externalCollaborators fun _ => List.map_append
  | createService organization id attrs => exact placed.createService
  | updateService organization id attrs => exact placed.updateService
  | deleteCompany organization id => exact placed.deleteCompany
  | check index organization user now request outside => exact placed.enter
  | save index now => exact placed.save
  | fail index => exact placed.fail
  | archiveContact organization id now text =>
      exact placed.writeRecords
        (placed.records.withContacts (placed_archive placed.records.contacts)) rfl
  | restoreContact organization id text =>
      exact placed.writeRecords
        (placed.records.withContacts (placed_restore placed.records.contacts)) rfl
  | deleteContact organization id => exact placed.deleteContact
  | archiveDeal organization id now => exact placed.archiveDeal
  | moveDeal organization id stage position => exact placed.moveDeal
  | deleteDeal organization id => exact placed.deleteDeal
  | moveTask organization id workflowStatus user now => exact placed.moveTask
  | deleteTask organization id => exact placed.deleteTask
  | bill organization id request => exact placed.bill
  | ensureCharge id subscription =>
      exact placed.insertEntry .subscription .charges
        (placed.column .customerSubscriptions) fun _ _ => List.map_append
  | recordPayment id charge =>
      exact placed.insertEntry .charge .payments (placed.column .charges)
        fun _ _ => List.map_append
  | recordCompanyActivity id company =>
      exact placed.insertEntry .company .companyActivities (placed.column .companies)
        fun _ _ => List.map_append
  | recordContactActivity id contact =>
      exact placed.insertEntry .contact .contactActivities (placed.column .contacts)
        fun _ _ => List.map_append
  | recordTimelineEvent id company =>
      exact placed.insertEntry .company .companyTimelineEvents (placed.column .companies)
        fun _ _ => List.map_append
  | updateCatalogItem organization id item =>
      dsimp only
      refine placed.rewrite (by rfl) (by rfl) (by rfl) fun dataset row stored => Or.inl ?_
      cases dataset with
      | serviceCatalogItems =>
          apply mem_view_touched (fun row => ?_) stored
          rfl
      | _ => exact stored
  | updateCollaborator organization id name isActive =>
      dsimp only
      refine placed.rewrite (by rfl) (by rfl) (by rfl) fun dataset row stored => Or.inl ?_
      cases dataset with
      | externalCollaborators =>
          apply mem_view_touched (fun row => ?_) stored
          rfl
      | _ => exact stored
  | checkLine index organization deal request => exact placed.enterLine
  | saveLine index => exact placed.saveLine
  | failLine index => exact placed.becomeLine (by simp)
  | deleteLine organization deal id => exact placed.deleteLine

theorem Placed.refuse {action : Action} (placed : Placed database) :
    Placed (database.refuse action) := by
  unfold Database.refuse
  split
  · exact placed.fail
  · exact placed.becomeLine (by simp)
  · exact placed

/-- What no run leaves: the rows are placed and the foreign keys hold. -/
structure Sound (database : Database) : Prop where
  placed : Placed database
  keysHold : database.KeysHold

/-- An action that is refused keeps every table. -/
theorem tables_refuse {action : Action} : (database.refuse action).tables = database.tables := by
  unfold Database.refuse
  split <;> (funext dataset; cases dataset <;> rfl)

theorem keysHold_empty : Database.KeysHold {} := by
  intro dataset row stored
  cases dataset <;> cases stored

/-- The foreign keys hold after every action: one that would break them is refused. -/
theorem keysHold_step {action : Action} (keysHold : database.KeysHold) :
    (database.step casing action).KeysHold := by
  unfold Database.step
  split_ifs with holds
  · exact holds
  · unfold Database.KeysHold
    rw [tables_refuse]
    exact keysHold

theorem Sound.empty : Sound {} :=
  ⟨.empty, keysHold_empty⟩

theorem Sound.step {action : Action} (sound : Sound database) :
    Sound (database.step casing action) := by
  refine ⟨?_, keysHold_step sound.keysHold⟩
  unfold Database.step
  split_ifs
  · exact sound.placed.attempt
  · exact sound.placed.refuse

theorem Sound.isolated (sound : Sound database) :
    Isolated ForeignKey.relatedModel database.tables :=
  isolated_of_placed sound.placed.rows sound.keysHold

/-- An organization is its own. -/
theorem ownedByThemselves : OwnedByThemselves database.tables := by
  intro row stored
  obtain ⟨organization, -, rfl⟩ := List.mem_map.mp stored
  rfl

/-- Whatever requests run in whatever order, every reference of a row leads to a
row of its organization, and a business transfer of the installation is not
refused. -/
theorem tenants_isolated (casing : Casing) (actions : List Action) :
    Always (Database.step casing)
      (fun database => Isolated ForeignKey.relatedModel database.tables ∧
        OwnedByThemselves database.tables ∧
        validateSchemaAndTenants database.tables = .ok ()) {} actions := by
  have sound : Always (Database.step casing) Sound {} actions :=
    always_invariant Sound (fun _ _ => Sound.step) Sound.empty actions
  exact sound.imp fun _ isSound => ⟨isSound.isolated, ownedByThemselves,
    validate_of_isolated isSound.isolated ownedByThemselves⟩

end BubllioCrm.Tenancy
