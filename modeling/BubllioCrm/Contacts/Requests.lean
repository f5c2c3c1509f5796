import BubllioCrm.Contacts.Serializers
import BubllioCrm.Foundations.Execution

/-!
Owns the create, PATCH, archive, restore and delete requests on contacts with
their answers, the translation of `TenantIdentitySaveMixin`, and the condition
under which a request does not run into the constraint on primary contacts.

Each request runs alone. Activities and the references of other tables to a
deleted contact are not owned here.
-/

namespace BubllioCrm.Contacts

open BubllioCrm.Companies BubllioCrm.Foundations

/-! ### Requests -/

/-- A request, with what its serializer looks up in other tables. A create request
has the id of its new row. -/
inductive Request where
  | create (organization id : Nat) (attrs : ContactAttrs) (related : Related)
  | patch (organization id : Nat) (attrs : ContactAttrs) (related : Related)
  | archive (organization id now : Nat)
  | restore (organization id : Nat)
  | delete (organization id : Nat)

inductive Answer where
  | success
  | notFound
  | invalid (errors : FieldErrors)
  /-- `IntegrityError` that nothing handles. -/
  | integrityError
deriving DecidableEq

/-- `get_object_or_404(Contact, id=contact_id, organization=organization)`. -/
def load (organization id : Nat) (contacts : List Contact) : Option Contact :=
  contacts.find? fun row => row.id = id ∧ row.organization = organization

/-- What `identity_fields` finds behind an `IntegrityError`: another row of the
organization has the email. -/
def EmailTaken (text : Related) (organization : Nat) (stored : Option Contact) (email : String)
    (contacts : List Contact) : Prop :=
  email ≠ "" ∧ ∃ row ∈ contacts, row.organization = organization ∧
    (∀ contact ∈ stored, row.id ≠ contact.id) ∧ text.lower row.email = text.lower email

instance (text : Related) (organization : Nat) (stored : Option Contact) (email : String)
    (contacts : List Contact) : Decidable (EmailTaken text organization stored email contacts) :=
  inferInstanceAs (Decidable (email ≠ "" ∧ ∃ row ∈ contacts, _))

/-- `TenantIdentitySaveMixin.save` after an `IntegrityError`. -/
def translate (text : Related) (organization : Nat) (stored : Option Contact) (email : String)
    (contacts : List Contact) : Answer :=
  if EmailTaken text organization stored email contacts then
    .invalid [("email", "A record with this value already exists in this workspace.")]
  else .integrityError

/-- A write that the constraints refuse is rolled back. -/
def store (text : Related) (contacts next : List Contact) (otherwise : Answer) :
    List Contact × Answer :=
  if Admits text next then (next, .success) else (contacts, otherwise)

/-- The required fields that a create request does not name. -/
def missingFields (attrs : ContactAttrs) : FieldErrors :=
  (if attrs.company = none then [("company", "This field is required.")] else []) ++
  (if attrs.firstName = none then [("first_name", "This field is required.")] else [])

/-- `save(update_fields=...)` of a loaded contact. -/
def saveFields (id : Nat) (change : Contact → Contact) (contacts : List Contact) : List Contact :=
  updateWhere (·.id = id) change contacts

/-- The table after a request, and its answer. `text` compares the text of the
table. -/
def execute (text : Related) (contacts : List Contact) : Request → List Contact × Answer
  | .create organization id attrs related =>
      match attrs.toRow id organization with
      | none => (contacts, .invalid (missingFields attrs))
      | some contact =>
          match validate related contacts organization none attrs with
          | .error errors => (contacts, .invalid errors)
          | .ok accepted =>
              store text contacts (create accepted contact contacts)
                (translate text organization none contact.email contacts)
  | .patch organization id attrs related =>
      match load organization id contacts with
      | none => (contacts, .notFound)
      | some contact =>
          match validate related contacts organization (some contact) attrs with
          | .error errors => (contacts, .invalid errors)
          | .ok accepted =>
              store text contacts (update accepted (accepted.setOn contact) contacts)
                (translate text organization (some contact) (accepted.setOn contact).email contacts)
  | .archive organization id now =>
      match load organization id contacts with
      | none => (contacts, .notFound)
      | some contact =>
          if contact.archivedAt.isSome then (contacts, .success)
          else
            store text contacts
              (saveFields id (fun row => { row with archivedAt := some now, isPrimary := false })
                contacts) .integrityError
  | .restore organization id =>
      match load organization id contacts with
      | none => (contacts, .notFound)
      | some contact =>
          if contact.archivedAt.isNone then (contacts, .success)
          else
            store text contacts
              (saveFields id (fun row => { row with archivedAt := none }) contacts) .integrityError
  | .delete organization id =>
      match load organization id contacts with
      | none => (contacts, .notFound)
      | some _ => (contacts.filter (·.id ≠ id), .success)

def step (text : Related) (contacts : List Contact) (request : Request) : List Contact :=
  (execute text contacts request).1

/-! ### The property -/

/-- Primary and not archived. -/
def Contact.IsActivePrimary (contact : Contact) : Prop :=
  contact.isPrimary = true ∧ contact.archivedAt = none

instance : DecidablePred Contact.IsActivePrimary :=
  fun contact => inferInstanceAs (Decidable (contact.isPrimary = true ∧ _))

/-- Every company has one active primary contact at most. -/
def OnePrimary (contacts : List Contact) : Prop :=
  ∀ first ∈ contacts, ∀ second ∈ contacts, first.company = second.company →
    first.IsActivePrimary → second.IsActivePrimary → first = second

/-- The request succeeds, or is rejected and changes nothing. -/
structure Answered (text : Related) (contacts : List Contact) (request : Request) : Prop where
  handled : (execute text contacts request).2 ≠ .integrityError
  unchanged : (execute text contacts request).2 ≠ .success → step text contacts request = contacts

/-! ### The condition -/

/-- No other contact of the company is active and primary, if this one is. -/
def PrimaryFree (contact : Contact) (contacts : List Contact) : Prop :=
  contact.IsActivePrimary → ∀ other ∈ contacts, other.id ≠ contact.id →
    other.company = contact.company → ¬ other.IsActivePrimary

instance (contact : Contact) (contacts : List Contact) : Decidable (PrimaryFree contact contacts) :=
  inferInstanceAs (Decidable (contact.IsActivePrimary → _))

/-- The condition on a request: a new contact has a new id, and a contact that a
PATCH request leaves active and primary without naming it primary, or that a
restoration does, finds no other active primary contact in its company. A PATCH
request that an email speaks against is refused for the email. -/
def Undisputed (text : Related) (contacts : List Contact) : Request → Prop
  | .create organization id attrs related =>
      ∀ contact ∈ attrs.toRow id organization,
        validate related contacts organization none attrs = .ok attrs →
        id ∉ contacts.map Contact.id ∨ EmailTaken text organization none contact.email contacts
  | .patch organization id attrs related =>
      ∀ contact ∈ load organization id contacts,
        validate related contacts organization (some contact) attrs = .ok attrs →
        attrs.isPrimary = some true ∨ PrimaryFree (attrs.setOn contact) contacts ∨
          EmailTaken text organization (some contact) (attrs.setOn contact).email contacts
  | .restore organization id =>
      ∀ contact ∈ load organization id contacts,
        PrimaryFree { contact with archivedAt := none } contacts
  | .archive _ _ _ => True
  | .delete _ _ => True

instance (text : Related) (contacts : List Contact) : (request : Request) →
    Decidable (Undisputed text contacts request)
  | .create organization id attrs _ =>
      inferInstanceAs (Decidable (∀ contact ∈ attrs.toRow id organization, _ → _))
  | .patch organization id _ _ =>
      inferInstanceAs (Decidable (∀ contact ∈ load organization id contacts, _ → _))
  | .restore organization id =>
      inferInstanceAs (Decidable (∀ contact ∈ load organization id contacts, _))
  | .archive _ _ _ => inferInstanceAs (Decidable True)
  | .delete _ _ => inferInstanceAs (Decidable True)

end BubllioCrm.Contacts
