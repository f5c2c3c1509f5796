import BubllioCrm.Access.Memberships
import BubllioCrm.Customers.Records

/-!
Owns the assignees of contacts, deals, tasks and subscriptions while members
join and are removed: when the records of a workspace stay assigned to members,
and what a PATCH request on a record of somebody who has left is answered.

A removal unassigns the companies of the member, which have a module of their
own, and no other record. The serializers check the stored assignee again on
every PATCH request.
-/

namespace BubllioCrm.Customers

open BubllioCrm.Companies BubllioCrm.Foundations
open Access (Membership Role)
open Activities (Task)
open Contacts (Contact)
open Deals (Deal)
open Subscriptions (Subscription)

/-! ### Assignees -/

section Assignees

variable {Row : Type*}

/-- A row of the organization is assigned to the user. -/
def AssignedIn (organization : Row → Nat) (assignedTo : Row → Option Nat) (rows : List Row)
    (owner user : Nat) : Prop :=
  ∃ row ∈ rows, organization row = owner ∧ assignedTo row = some user

instance (organization : Row → Nat) (assignedTo : Row → Option Nat) (rows : List Row)
    (owner user : Nat) : Decidable (AssignedIn organization assignedTo rows owner user) :=
  inferInstanceAs (Decidable (∃ row ∈ rows, _))

end Assignees

/-- A contact, a deal, a task or a subscription of the organization is assigned
to the user. -/
def Records.Assigned (records : Records) (organization user : Nat) : Prop :=
  AssignedIn Contact.organization Contact.assignedTo records.contacts organization user ∨
  AssignedIn Deal.organization Deal.assignedTo records.deals organization user ∨
  AssignedIn Task.organization Task.assignedTo records.tasks organization user ∨
  AssignedIn Subscription.organization Subscription.assignedTo records.subscriptions organization
    user

instance (records : Records) (organization user : Nat) :
    Decidable (records.Assigned organization user) :=
  inferInstanceAs (Decidable (_ ∨ _ ∨ _ ∨ _))

/-- The tables agree on the rows and their assignees. -/
structure SameAssignees (first second : Records) : Prop where
  contacts : first.contacts.map (fun row => (row.id, row.organization, row.assignedTo)) =
    second.contacts.map fun row => (row.id, row.organization, row.assignedTo)
  deals : first.deals.map (fun row => (row.id, row.organization, row.assignedTo)) =
    second.deals.map fun row => (row.id, row.organization, row.assignedTo)
  tasks : first.tasks.map (fun row => (row.id, row.organization, row.assignedTo)) =
    second.tasks.map fun row => (row.id, row.organization, row.assignedTo)
  subscriptions :
    first.subscriptions.map (fun row => (row.id, row.organization, row.assignedTo)) =
      second.subscriptions.map fun row => (row.id, row.organization, row.assignedTo)

instance (first second : Records) : Decidable (SameAssignees first second) :=
  decidable_of_iff (_ ∧ _ ∧ _ ∧ _)
    ⟨fun ⟨contacts, deals, tasks, subscriptions⟩ => ⟨contacts, deals, tasks, subscriptions⟩,
      fun same => ⟨same.contacts, same.deals, same.tasks, same.subscriptions⟩⟩

/-! ### The system -/

namespace Records

/-- `save` of a contact or a deal that is gone by now inserts it again. -/
def resave (seen : Related) (now : Nat) (records : Records) (write : Write) : Records :=
  match write with
  | .updateContact attrs contact =>
      if contact.id ∈ records.contacts.map Contact.id then records.save seen now write
      else records.save seen now (.createContact attrs contact)
  | .updateDeal deal =>
      if deal.id ∈ records.deals.map Deal.id then records.save seen now write
      else records.save seen now (.createDeal deal)
  | _ => records.save seen now write

def refinish (index now : Nat) (records : Records) : Phase → Records
  | .idle => records
  | .checked write seen => (records.resave seen now write).become index .idle

/-- `contact.delete()`, with the references that it sets to null. -/
def deleteContact (organization id : Nat) (records : Records) : Records :=
  if ∃ row ∈ records.contacts, row.id = id ∧ row.organization = organization then
    { records with
      contacts := records.contacts.filter (·.id ≠ id)
      deals := updateWhere (·.contact = some id) (fun row => { row with contact := none })
        records.deals
      tasks := updateWhere (·.contact = some id) (fun row => { row with contact := none })
        records.tasks }
  else records

/-- `deal.delete()`, with the references that it sets to null. -/
def deleteDeal (organization id : Nat) (records : Records) : Records :=
  if ∃ row ∈ records.deals, row.id = id ∧ row.organization = organization then
    { records with
      deals := records.deals.filter (·.id ≠ id)
      tasks := updateWhere (·.deal = some id) (fun row => { row with deal := none })
        records.tasks
      subscriptions := updateWhere (·.originatingDeal = some id)
        (fun row => { row with originatingDeal := none }) records.subscriptions }
  else records

def deleteTask (organization id : Nat) (records : Records) : Records :=
  if ∃ row ∈ records.tasks, row.id = id ∧ row.organization = organization then
    { records with tasks := records.tasks.filter (·.id ≠ id) }
  else records

end Records

structure Workspaces where
  records : Records := {}
  memberships : List Membership := []

inductive MemberAction where
  /-- A request on a record is checked. Its surroundings are those of the
  workspace as far as its members are concerned. -/
  | check (index organization user now : Nat) (request : Request) (surroundings : Surroundings)
  | save (index now : Nat)
  | fail (index : Nat)
  | deleteContact (organization id : Nat)
  | deleteDeal (organization id : Nat)
  | deleteTask (organization id : Nat)
  /-- An archive, a restoration, a move, a status change or a billing request: it
  writes columns by name, and the assignee is not among them. -/
  | touch (records : Records)
  /-- A DELETE request on a membership by a requester with this role. A requester
  without a membership has the rights of an owner. -/
  | removeMember (organization membership : Nat) (role : Role)
  | join (membership : Membership)

/-- `OrganizationMembership.objects.filter(organization=organization, user=owner).exists()`. -/
def isMember (memberships : List Membership) (organization user : Nat) : Bool :=
  memberships.any fun row => row.organization = organization ∧ row.user = user

namespace Workspaces

/-- What a check reads outside of the tables of the records. -/
def surroundings (workspaces : Workspaces) (outside : Surroundings) : Surroundings :=
  { outside with
    related := { outside.related with isMember := isMember workspaces.memberships } }

/-- The membership of a DELETE request, if it is not refused. -/
def removed (workspaces : Workspaces) (organization membership : Nat) (role : Role) :
    Option Membership :=
  (workspaces.memberships.find? fun row =>
    row.id = membership ∧ row.organization = organization).filter fun target =>
      Access.Change.refusal role target.role .remove = none

/-- A removal as far as these tables are concerned: `target.delete()`. -/
def remove (workspaces : Workspaces) : Option Membership → Workspaces
  | none => workspaces
  | some target =>
      { workspaces with memberships := workspaces.memberships.filter (·.id ≠ target.id) }

def join (membership : Membership) (workspaces : Workspaces) : Workspaces :=
  if ∃ stored ∈ workspaces.memberships, stored.id = membership.id ∨
      stored.organization = membership.organization ∧ stored.user = membership.user then workspaces
  else { workspaces with memberships := workspaces.memberships ++ [membership] }

/-- The tables after an action. -/
def step (workspaces : Workspaces) : MemberAction → Workspaces
  | .check index organization user now request outside =>
      { workspaces with
        records := workspaces.records.step
          (.check index organization user now request (workspaces.surroundings outside)) }
  | .save index now =>
      { workspaces with
        records := workspaces.records.refinish index now (workspaces.records.requests index) }
  | .fail index => { workspaces with records := workspaces.records.step (.fail index) }
  | .deleteContact organization id =>
      { workspaces with records := workspaces.records.deleteContact organization id }
  | .deleteDeal organization id =>
      { workspaces with records := workspaces.records.deleteDeal organization id }
  | .deleteTask organization id =>
      { workspaces with records := workspaces.records.deleteTask organization id }
  | .touch records =>
      if SameAssignees workspaces.records records then
        { workspaces with records := { records with requests := workspaces.records.requests } }
      else workspaces
  | .removeMember organization membership role =>
      workspaces.remove (workspaces.removed organization membership role)
  | .join membership => workspaces.join membership

/-! ### The property -/

/-- Every record is assigned to a member of its workspace, if to anyone. -/
def AssignedToMembers (workspaces : Workspaces) : Prop :=
  ∀ organization user, workspaces.records.Assigned organization user →
    isMember workspaces.memberships organization user = true

end Workspaces

/-- A PATCH request that does not name the assignee. -/
def Request.LeavesAssignee : Request → Prop
  | .patchContact _ attrs => attrs.assignedTo = none
  | .patchDeal _ attrs => attrs.assignedTo = none
  | .patchTask _ attrs _ => attrs.assignedTo = none
  | .patchSubscription _ attrs => attrs.assignedTo = none
  | _ => False

/-- The surroundings of a workspace of which everybody is a member. -/
def Surroundings.open (outside : Surroundings) : Surroundings :=
  { outside with related := { outside.related with isMember := fun _ _ => true } }

/-- A PATCH request that does not name the assignee is accepted if nothing but
the assignee speaks against it. -/
def Workspaces.AcceptsPatches (workspaces : Workspaces) : Prop :=
  ∀ organization user now outside request, Request.LeavesAssignee request →
    (workspaces.records.check organization user now outside.open request).isSome →
    (workspaces.records.check organization user now (workspaces.surroundings outside)
      request).isSome

/-- The records are usable: assigned to members, and open to edits. -/
structure Workspaces.Usable (workspaces : Workspaces) : Prop where
  assigned : workspaces.AssignedToMembers
  accepts : workspaces.AcceptsPatches

/-! ### The condition -/

/-- Whom a row is assigned to, with the organization of the row. -/
def assignment (organization : Nat) (assignedTo : Option Nat) : List (Nat × Nat) :=
  assignedTo.toList.map fun user => (organization, user)

/-- The assignments that a save makes, where the PATCH requests on a task and on
a subscription only make one that they name. -/
def Write.assignments (records : Records) : Write → List (Nat × Nat)
  | .createContact _ contact => assignment contact.organization contact.assignedTo
  | .updateContact _ contact => assignment contact.organization contact.assignedTo
  | .createDeal deal => assignment deal.organization deal.assignedTo
  | .updateDeal deal => assignment deal.organization deal.assignedTo
  | .createTask task => assignment task.organization task.assignedTo
  | .updateTask attrs _ _ loaded =>
      (records.tasks.filter (·.id = loaded.id)).flatMap fun row =>
        assignment row.organization attrs.assignedTo.join
  | .createSubscription subscription =>
      assignment subscription.organization subscription.assignedTo
  | .updateSubscription attrs loaded =>
      (records.subscriptions.filter (·.id = loaded.id)).flatMap fun row =>
        assignment row.organization attrs.assignedTo.join

/-- The condition on a request that saves: the assignee is still a member. -/
def Workspaces.AssignsMembers (workspaces : Workspaces) : Phase → Prop
  | .idle => True
  | .checked write _ => ∀ pair ∈ write.assignments workspaces.records,
      isMember workspaces.memberships pair.1 pair.2 = true

/-- The condition on a removal: no record is assigned to the member. -/
def Workspaces.HasNothing (workspaces : Workspaces) : Option Membership → Prop
  | none => True
  | some target => ¬ workspaces.records.Assigned target.organization target.user

/-- The condition on an action. -/
def Workspaces.Orderly (workspaces : Workspaces) : MemberAction → Prop
  | .save index _ => workspaces.AssignsMembers (workspaces.records.requests index)
  | .removeMember organization membership role =>
      workspaces.HasNothing (workspaces.removed organization membership role)
  | _ => True

instance (workspaces : Workspaces) : (phase : Phase) → Decidable (workspaces.AssignsMembers phase)
  | .idle => inferInstanceAs (Decidable True)
  | .checked _ _ => inferInstanceAs (Decidable (∀ pair ∈ _, _))

instance (workspaces : Workspaces) : (target : Option Membership) →
    Decidable (workspaces.HasNothing target)
  | none => inferInstanceAs (Decidable True)
  | some _ => inferInstanceAs (Decidable (¬ _))

instance (workspaces : Workspaces) : (action : MemberAction) →
    Decidable (workspaces.Orderly action)
  | .save index _ =>
      inferInstanceAs (Decidable (workspaces.AssignsMembers (workspaces.records.requests index)))
  | .removeMember organization membership role =>
      inferInstanceAs (Decidable
        (workspaces.HasNothing (workspaces.removed organization membership role)))
  | .check _ _ _ _ _ _ | .fail _ | .deleteContact _ _ | .deleteDeal _ _ | .deleteTask _ _
  | .touch _ | .join _ => inferInstanceAs (Decidable True)

end BubllioCrm.Customers
