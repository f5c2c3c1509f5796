import BubllioCrm.Access.Memberships
import BubllioCrm.Companies.Models
import BubllioCrm.Foundations.Locks
import Mathlib.Data.List.Sort
import Mathlib.Logic.Function.Basic

/-!
Owns `create_company`, `update_company`, `archive_company`, `restore_company`,
the deletion of a company and the removal of a member with its unassignments,
on the memberships and companies of a workspace: each is a transaction whose
statements wait for the row locks of the others, and read what is committed.

The checks of the serializers read before the locks, so a request brings
whatever data they let through. Codes, activities and events are not owned here.
-/

namespace BubllioCrm.Companies.Services

open BubllioCrm.Foundations
open Access (Membership Role)

/-- `validated_data` of a `CompanySerializer`. -/
structure CompanyAttrs where
  assignedTo : Option (Option Nat) := none
deriving DecidableEq

def CompanyAttrs.setOn (attrs : CompanyAttrs) (company : Company) : Company :=
  { company with assignedTo := attrs.assignedTo.getD company.assignedTo }

inductive Request where
  /-- A create request has the id and the code of its new row. -/
  | create (id : Nat) (customerCode : String) (attrs : CompanyAttrs)
  | update (id : Nat) (attrs : CompanyAttrs)
  | archive (id now : Nat)
  | restore (id : Nat)
  | delete (id : Nat)
  /-- A DELETE request on a membership by a requester with this role. A requester
  without a membership has the rights of an owner. -/
  | removeMember (membership : Nat) (role : Role)
deriving DecidableEq

/-- The user that a request assigns. -/
def Request.assignee : Request → Option Nat
  | .create _ _ attrs => attrs.assignedTo.join
  | .update _ attrs => attrs.assignedTo.join
  | _ => none

inductive Row where
  | membership (id : Nat)
  | company (id : Nat)
deriving DecidableEq

/-- What a transaction has written. -/
structure Draft where
  changes : List Change := []
  removed : Option Membership := none

/-- The statement of a transaction that comes next. -/
inductive Phase where
  | idle
  /-- `_lock_assignee_membership`. -/
  | lockAssignee (request : Request) (user : Nat)
  | insert (company : Company)
  /-- `Company.objects.select_for_update().get(pk=company.pk)`. -/
  | lockCompany (request : Request) (id : Nat)
  | save (company : Company) (updateFields : Option (List Column))
  | drop (id : Nat)
  /-- `_context` of the removal. -/
  | lockTarget (membership : Nat) (role : Role)
  /-- The query of `unassign_companies_for_removed_member`. -/
  | query (target : Membership)
  /-- The rows that the query has seen and not reached, and those it has locked. -/
  | lockRows (target : Membership) (ids : List Nat) (found : List Company)
  | unassign (target : Membership) (companies : List Company)
  | deleteTarget (target : Membership)
  | commit

structure Call where
  draft : Draft := {}
  phase : Phase := .idle

structure Workspace where
  memberships : List Membership
  companies : List Company := []
  locks : Locks Row := Locks.free
  calls : Nat → Call := fun _ => {}

inductive Outcome where
  /-- Another transaction holds the row. -/
  | waits
  | raises
  /-- The statement has locked these rows. -/
  | goesOn (rows : List Row) (draft : Draft) (phase : Phase)

/-- What a service does with the company that it has locked. -/
def Request.onto (company : Company) : Request → Phase
  | .update _ attrs => .save (attrs.setOn company) none
  | .archive _ now =>
      if company.archivedAt.isSome then .commit
      else .save { company with archivedAt := some now } (some [.archivedAt])
  | .restore _ =>
      if company.archivedAt.isNone then .commit
      else .save { company with archivedAt := none } (some [.archivedAt])
  | .delete _ => .drop company.id
  | _ => .commit

/-- Where a request goes on when its assignee is locked or it has none. -/
def Request.enter : Request → Phase
  | .create id customerCode attrs =>
      .insert { id, customerCode, assignedTo := attrs.assignedTo.join }
  | .update id attrs => .lockCompany (.update id attrs) id
  | .archive id now => .lockCompany (.archive id now) id
  | .restore id => .lockCompany (.restore id) id
  | .delete id => .lockCompany (.delete id) id
  | .removeMember membership role => .lockTarget membership role

/-- The first statement of a request. -/
def Request.begin (request : Request) : Phase :=
  match request.assignee with
  | some user => .lockAssignee request user
  | none => request.enter

namespace Workspace

/-- A statement goes on with the lock on a row. -/
def locking (workspace : Workspace) (index : Nat) (row : Row) (draft : Draft) (next : Phase) :
    Outcome :=
  if workspace.locks.Grants index row then .goesOn [row] draft next else .waits

/-- `order_by("id")` of the companies of a user. -/
def assignedIds (workspace : Workspace) (user : Nat) : List Nat :=
  ((workspace.companies.filter (·.assignedTo = some user)).map Company.id).insertionSort (· ≤ ·)

/-- `target.role` is read behind the lock. A refusal is a response, and the
transaction commits. -/
def decide (target : Membership) (role : Role) : Phase :=
  match Access.Change.refusal role target.role .remove with
  | some _ => .commit
  | none => .query target

/-- The next statement of a transaction. -/
def execute (workspace : Workspace) (index : Nat) (draft : Draft) : Phase → Outcome
  | .idle => .waits
  | .lockAssignee request user =>
      match workspace.memberships.find? (·.user = user) with
      | none => .raises
      | some membership => workspace.locking index (.membership membership.id) draft request.enter
  | .insert company =>
      if ∃ stored ∈ workspace.companies, stored.id = company.id then .raises
      else workspace.locking index (.company company.id)
        { draft with changes := draft.changes ++ [.put company] } .commit
  | .lockCompany request id =>
      match workspace.companies.find? (·.id = id) with
      | none => .raises
      | some company => workspace.locking index (.company id) draft (request.onto company)
  | .save company updateFields =>
      match workspace.companies.find? (·.id = company.id) with
      | none => .raises
      | some stored => workspace.locking index (.company company.id)
          { draft with changes := draft.changes ++ [.put (company.onto updateFields stored)] }
          .commit
  | .drop id => workspace.locking index (.company id)
      { draft with changes := draft.changes ++ [.remove id] } .commit
  | .lockTarget membership role =>
      match workspace.memberships.find? (·.id = membership) with
      | none => .raises
      | some target => workspace.locking index (.membership membership) draft (decide target role)
  | .query target =>
      .goesOn [] draft (.lockRows target (workspace.assignedIds target.user) [])
  | .lockRows target [] found => .goesOn [] draft (.unassign target found)
  | .lockRows target (id :: ids) found =>
      -- A row that has been taken away or assigned to another is passed over.
      match workspace.companies.find? (·.id = id) with
      | none => .goesOn [] draft (.lockRows target ids found)
      | some company =>
          if ¬ workspace.locks.Grants index (.company id) then .waits
          else if company.assignedTo = some target.user then
            .goesOn [.company id] draft (.lockRows target ids (found ++ [company]))
          else .goesOn [] draft (.lockRows target ids found)
  | .unassign target [] => .goesOn [] draft (.deleteTarget target)
  | .unassign target (company :: rest) =>
      match workspace.companies.find? (·.id = company.id) with
      | none => .raises
      | some stored => workspace.locking index (.company company.id)
          { draft with changes := draft.changes ++
              [.put (({ company with assignedTo := none } : Company).onto (some [.assignedTo])
                stored)] }
          (.unassign target rest)
  | .deleteTarget target =>
      workspace.locking index (.membership target.id) { draft with removed := some target } .commit
  | .commit => .waits

def become (index : Nat) (call : Call) (workspace : Workspace) : Workspace :=
  { workspace with calls := Function.update workspace.calls index call }

def rollBack (index : Nat) (workspace : Workspace) : Workspace :=
  { workspace.become index {} with locks := workspace.locks.release index }

def settle (index : Nat) (workspace : Workspace) : Outcome → Workspace
  | .waits => workspace
  | .raises => workspace.rollBack index
  | .goesOn rows draft phase =>
      { workspace.become index ⟨draft, phase⟩ with
        locks := workspace.locks.acquire index fun row => row ∈ rows }

def commit (index : Nat) (draft : Draft) (workspace : Workspace) : Workspace :=
  { workspace.rollBack index with
    companies := applyAll draft.changes workspace.companies
    memberships :=
      match draft.removed with
      | none => workspace.memberships
      | some target => workspace.memberships.filter (·.id ≠ target.id) }

/-- A user becomes a member, in a transaction that this module does not own. -/
def join (membership : Membership) (workspace : Workspace) : Workspace :=
  if ∃ stored ∈ workspace.memberships,
      stored.id = membership.id ∨ stored.user = membership.user then workspace
  else { workspace with memberships := workspace.memberships ++ [membership] }

end Workspace

inductive Action where
  | call (index : Nat) (request : Request)
  | execute (index : Nat)
  | commit (index : Nat)
  /-- The transaction ends with an exception. -/
  | fail (index : Nat)
  | join (membership : Membership)

/-- An action that does not fit the transaction changes nothing. -/
def Workspace.step (workspace : Workspace) (action : Action) : Workspace :=
  match action with
  | .call index request =>
      match (workspace.calls index).phase with
      | .idle => workspace.become index ⟨{}, request.begin⟩
      | _ => workspace
  | .execute index =>
      let call := workspace.calls index
      workspace.settle index (workspace.execute index call.draft call.phase)
  | .commit index =>
      let call := workspace.calls index
      match call.phase with
      | .commit => workspace.commit index call.draft
      | _ => workspace
  | .fail index => workspace.rollBack index
  | .join membership => workspace.join membership

end BubllioCrm.Companies.Services
