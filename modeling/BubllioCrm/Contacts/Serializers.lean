import BubllioCrm.Companies.Related
import BubllioCrm.Foundations.Patterns
import BubllioCrm.Foundations.References

/-!
Owns the rows of `Contact` with their constraints, and the checks and writes of
`ContactSerializer`.

A `ContactAttrs` is what the fields of the serializer have accepted, with `none`
for a field that is not named.
-/

namespace BubllioCrm.Contacts

open BubllioCrm.Companies BubllioCrm.Foundations

inductive Status where
  | active
  | former
deriving DecidableEq

structure Contact where
  id : Nat
  organization : Nat
  company : Nat
  assignedTo : Option Nat := none
  firstName : String
  lastName : String := ""
  email : String := ""
  phoneNumber : String := ""
  department : String := ""
  jobTitle : String := ""
  status : Status := .active
  isPrimary : Bool := false
  archivedAt : Option Nat := none
deriving DecidableEq

structure ContactAttrs where
  company : Option Nat := none
  assignedTo : Option (Option Nat) := none
  firstName : Option String := none
  lastName : Option String := none
  email : Option String := none
  phoneNumber : Option String := none
  department : Option String := none
  jobTitle : Option String := none
  status : Option Status := none
  isPrimary : Option Bool := none
deriving DecidableEq

/-- `serializer.save()` on the loaded contact. It writes every column of the row. -/
def ContactAttrs.setOn (attrs : ContactAttrs) (contact : Contact) : Contact :=
  { contact with
    company := attrs.company.getD contact.company
    assignedTo := attrs.assignedTo.getD contact.assignedTo
    firstName := attrs.firstName.getD contact.firstName
    lastName := attrs.lastName.getD contact.lastName
    email := attrs.email.getD contact.email
    phoneNumber := attrs.phoneNumber.getD contact.phoneNumber
    department := attrs.department.getD contact.department
    jobTitle := attrs.jobTitle.getD contact.jobTitle
    status := attrs.status.getD contact.status
    isPrimary := attrs.isPrimary.getD contact.isPrimary }

/-- The row of a create request that names the required fields. -/
def ContactAttrs.toRow (attrs : ContactAttrs) (id organization : Nat) : Option Contact := do
  let company ← attrs.company
  let firstName ← attrs.firstName
  return attrs.setOn {
    id := id
    organization := organization
    company := company
    firstName := firstName }

/-- `ContactSerializer.validate`, where `stored` is the instance of a PATCH request. -/
def validate (related : Related) (contacts : List Contact) (organization : Nat)
    (stored : Option Contact) (attrs : ContactAttrs) : Except FieldErrors ContactAttrs :=
  let company := attrs.company <|> stored.map Contact.company
  let owner := attrs.assignedTo.getD (stored.bind Contact.assignedTo)
  let email := strip (attrs.email.getD ((stored.map Contact.email).getD ""))
  if company.any fun company => related.companyOrganization company ≠ some organization then
    .error [("company", "Company must belong to the selected organization.")]
  else if owner.any fun owner => ¬ related.isMember organization owner then
    .error [("assigned_to", "Choose a member of this workspace.")]
  else if email ≠ "" ∧ contacts.any fun contact =>
      contact.organization = organization ∧ related.iexact contact.email email ∧
        stored.all (·.id ≠ contact.id) then
    .error [("email", "A contact with this email already exists.")]
  else .ok attrs

/-- Two rows that a constraint of the table keeps apart: one email in a
workspace, or two active primary contacts of one company. -/
def Contact.Clashes (related : Related) (first second : Contact) : Prop :=
  first.id = second.id ∨
  first.organization = second.organization ∧ first.email ≠ "" ∧ second.email ≠ "" ∧
      related.lower first.email = related.lower second.email ∨
  first.company = second.company ∧ first.isPrimary ∧ second.isPrimary ∧
      first.archivedAt = none ∧ second.archivedAt = none

instance (related : Related) (first second : Contact) :
    Decidable (first.Clashes related second) :=
  inferInstanceAs (Decidable (_ ∨ _ ∧ _ ∨ _))

/-- What the constraints of the table allow. -/
def Admits (related : Related) (contacts : List Contact) : Prop :=
  contacts.Pairwise fun first second => ¬ first.Clashes related second

instance (related : Related) (contacts : List Contact) : Decidable (Admits related contacts) :=
  inferInstanceAs (Decidable (contacts.Pairwise _))

/-- The other primary contact of the company gives way when the request names a
primary contact. -/
def yieldPrimary (attrs : ContactAttrs) (contact : Contact) (contacts : List Contact) :
    List Contact :=
  if attrs.isPrimary = some true then
    updateWhere (fun other => other.company = contact.company ∧ other.isPrimary ∧
      other.id ≠ contact.id) (fun other => { other with isPrimary := false }) contacts
  else contacts

/-- `ContactSerializer.create`. The new row has no id yet that another has. -/
def create (attrs : ContactAttrs) (contact : Contact) (contacts : List Contact) : List Contact :=
  yieldPrimary attrs contact contacts ++ [contact]

/-- `ContactSerializer.update` with the loaded contact as the request has set it. -/
def update (attrs : ContactAttrs) (contact : Contact) (contacts : List Contact) : List Contact :=
  updateWhere (·.id = contact.id) (fun _ => contact) (yieldPrimary attrs contact contacts)

/-! ### What the checks and writes keep -/

variable {attrs accepted : ContactAttrs} {contact : Contact} {contacts : List Contact}
  {stored : Option Contact} {related : Related} {sought organization : Nat}

theorem validate_ok
    (valid : validate related contacts organization stored attrs = .ok accepted) :
    accepted = attrs := by
  unfold validate at valid
  dsimp only at valid
  split_ifs at valid with company owner email
  exact (Except.ok.inj valid).symm

/-- The company of a valid contact is of the organization. -/
theorem organization_of_validate
    (valid : validate related contacts organization stored attrs = .ok accepted) :
    Leads related.companyOrganization organization
      (attrs.company <|> stored.map Contact.company) := by
  unfold validate at valid
  dsimp only at valid
  split_ifs at valid with company owner email
  exact leads_of_grouped company

theorem toRow_owner {id : Nat} (isRow : attrs.toRow id organization = some contact) :
    contact.id = id ∧ contact.organization = organization ∧
      attrs.company = some contact.company := by
  unfold ContactAttrs.toRow at isRow
  cases company : attrs.company with
  | none => simp [company] at isRow
  | some owner =>
      cases firstName : attrs.firstName with
      | none => simp [company, firstName] at isRow
      | some _ =>
          simp only [company, firstName, Option.bind_eq_bind, Option.bind_some, Option.pure_def,
            Option.some.injEq] at isRow
          subst isRow
          simp [ContactAttrs.setOn, company]

/-- No contact changes its company by giving way. -/
theorem company_yieldPrimary :
    column Contact.id Contact.company (yieldPrimary attrs contact contacts) sought =
      column Contact.id Contact.company contacts sought := by
  unfold yieldPrimary
  split_ifs
  · exact column_updateWhere (fun _ _ _ => rfl) (fun _ _ _ _ => rfl)
  · rfl

theorem company_create {company : Nat}
    (present : column Contact.id Contact.company contacts sought = some company) :
    column Contact.id Contact.company (create attrs contact contacts) sought = some company := by
  apply column_append_of_some
  rw [company_yieldPrimary]
  exact present

/-- Only the contact of an update changes its company. -/
theorem company_update :
    column Contact.id Contact.company (update attrs contact contacts) sought =
      if sought = contact.id then
        (column Contact.id Contact.company contacts sought).map fun _ => contact.company
      else column Contact.id Contact.company contacts sought := by
  unfold update
  rw [column_replace, company_yieldPrimary]

end BubllioCrm.Contacts
