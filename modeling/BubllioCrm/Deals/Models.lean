import BubllioCrm.Companies.Related
import BubllioCrm.Companies.Timeline
import BubllioCrm.Foundations.Calendar
import BubllioCrm.Foundations.Patterns
import BubllioCrm.Foundations.References

/-!
Owns the rows of `Deal`, what a PATCH request may set on them, and the checks
of `DealSerializer`.

Amounts are cents and tax rates are hundredths of a percent. The column
`updated_at`, which nothing reads, is left out. A `DealAttrs` is what the fields
of the serializer have accepted, with `none` for a field that is not named.
-/

namespace BubllioCrm.Deals

open BubllioCrm.Companies BubllioCrm.Foundations

inductive Stage where
  | lead
  | qualified
  | proposal
  | negotiation
  | won
  | lost
deriving DecidableEq

structure Deal where
  id : Nat
  organization : Nat
  company : Nat
  contact : Option Nat := none
  assignedTo : Option Nat := none
  title : String
  value : Int := 0
  currency : String := "EUR"
  taxRate : Int := 2400
  amountIncludesTax : Bool := false
  probability : Nat := 10
  stage : Stage := .lead
  sortOrder : Nat := 0
  expectedCloseDate : Option Date := none
  lostReason : String := ""
  notes : String := ""
  archivedAt : Option Nat := none
  createdAt : Nat
deriving DecidableEq

structure DealAttrs where
  company : Option Nat := none
  contact : Option (Option Nat) := none
  assignedTo : Option (Option Nat) := none
  title : Option String := none
  value : Option Int := none
  currency : Option String := none
  taxRate : Option Int := none
  amountIncludesTax : Option Bool := none
  probability : Option Nat := none
  stage : Option Stage := none
  expectedCloseDate : Option (Option Date) := none
  lostReason : Option String := none
  notes : Option String := none
deriving DecidableEq

/-- The names of the fields in the order of the serializer. -/
def DealAttrs.fields (attrs : DealAttrs) : List String :=
  [("company", attrs.company.isSome), ("contact", attrs.contact.isSome),
    ("assigned_to", attrs.assignedTo.isSome), ("title", attrs.title.isSome),
    ("value", attrs.value.isSome), ("currency", attrs.currency.isSome),
    ("tax_rate", attrs.taxRate.isSome),
    ("amount_includes_tax", attrs.amountIncludesTax.isSome),
    ("probability", attrs.probability.isSome), ("stage", attrs.stage.isSome),
    ("expected_close_date", attrs.expectedCloseDate.isSome),
    ("lost_reason", attrs.lostReason.isSome), ("notes", attrs.notes.isSome)].filterMap
      fun field => if field.2 then some field.1 else none

/-- `serializer.save()` on the loaded deal. It writes every column of the row. -/
def DealAttrs.setOn (attrs : DealAttrs) (deal : Deal) : Deal :=
  { deal with
    company := attrs.company.getD deal.company
    contact := attrs.contact.getD deal.contact
    assignedTo := attrs.assignedTo.getD deal.assignedTo
    title := attrs.title.getD deal.title
    value := attrs.value.getD deal.value
    currency := attrs.currency.getD deal.currency
    taxRate := attrs.taxRate.getD deal.taxRate
    amountIncludesTax := attrs.amountIncludesTax.getD deal.amountIncludesTax
    probability := attrs.probability.getD deal.probability
    stage := attrs.stage.getD deal.stage
    expectedCloseDate := attrs.expectedCloseDate.getD deal.expectedCloseDate
    lostReason := attrs.lostReason.getD deal.lostReason
    notes := attrs.notes.getD deal.notes }

/-- The row of a create request that names the required fields. -/
def DealAttrs.toRow (attrs : DealAttrs) (id organization now : Nat) : Option Deal := do
  let company ← attrs.company
  let title ← attrs.title
  return attrs.setOn {
    id := id
    organization := organization
    company := company
    title := title
    createdAt := now }

/-- `not reason.strip()`. -/
def IsBlank (reason : String) : Prop :=
  strip reason = ""

instance : DecidablePred IsBlank :=
  fun reason => inferInstanceAs (Decidable (strip reason = ""))

/-- `DealSerializer.validate`, where `stored` is the instance of a PATCH request. -/
def validate (related : Related) (organization : Nat) (stored : Option Deal)
    (attrs : DealAttrs) : Except FieldErrors DealAttrs :=
  let company := attrs.company <|> stored.map Deal.company
  let contact := attrs.contact.getD (stored.bind Deal.contact)
  let owner := attrs.assignedTo.getD (stored.bind Deal.assignedTo)
  let taxRate := attrs.taxRate.getD ((stored.map Deal.taxRate).getD 2400)
  let currency := attrs.currency.getD ((stored.map Deal.currency).getD "EUR")
  let stage := attrs.stage.getD ((stored.map Deal.stage).getD .lead)
  let reason := attrs.lostReason.getD ((stored.map Deal.lostReason).getD "")
  if company.any fun company => related.companyOrganization company ≠ some organization then
    .error [("company", "Choose a company from this workspace.")]
  else if contact.any fun contact => related.contactOrganization contact ≠ some organization ∨
      related.contactCompany contact ≠ company then
    .error [("contact", "Choose a contact from the selected company.")]
  else if owner.any fun owner => ¬ related.isMember organization owner then
    .error [("assigned_to", "Choose a member of this workspace.")]
  else if taxRate < 0 ∨ 10000 < taxRate then
    .error [("tax_rate", "Enter a VAT rate between 0 and 100.")]
  else if stored.any fun stored => related.upper currency ≠ related.upper stored.currency ∧
      related.hasCostLines stored.id then
    .error [("currency", "Remove this deal's cost lines before changing its currency.")]
  else if stage = .lost ∧ IsBlank reason then
    .error [("lost_reason", "Add a reason when a deal is lost.")]
  else .ok attrs

/-- A deal that is lost has a reason. -/
def Deal.HasReason (deal : Deal) : Prop :=
  deal.stage = .lost → ¬ IsBlank deal.lostReason

instance : DecidablePred Deal.HasReason :=
  fun deal => inferInstanceAs (Decidable (deal.stage = .lost → _))

/-- What passes the checks leaves no lost deal without a reason. -/
theorem hasReason_setOn {related : Related} {organization : Nat} {deal : Deal}
    {attrs accepted : DealAttrs}
    (valid : validate related organization (some deal) attrs = .ok accepted) :
    (attrs.setOn deal).HasReason := by
  unfold validate at valid
  dsimp only at valid
  split_ifs at valid with company contact owner rate currency reason
  intro isLost isBlank
  exact reason ⟨isLost, isBlank⟩

/-! ### References -/

theorem validate_ok {related : Related} {organization : Nat} {stored : Option Deal}
    {attrs accepted : DealAttrs}
    (valid : validate related organization stored attrs = .ok accepted) : accepted = attrs := by
  unfold validate at valid
  dsimp only at valid
  split_ifs at valid with company contact owner rate currency reason
  exact (Except.ok.inj valid).symm

/-- The contact that a valid deal refers to is of its company. -/
theorem leads_of_validate {related : Related} {organization company : Nat} {stored : Option Deal}
    {attrs accepted : DealAttrs}
    (valid : validate related organization stored attrs = .ok accepted)
    (isCompany : (attrs.company <|> stored.map Deal.company) = some company) :
    Leads related.contactCompany company (attrs.contact.getD (stored.bind Deal.contact)) := by
  unfold validate at valid
  dsimp only at valid
  rw [isCompany] at valid
  split_ifs at valid with isElsewhere contact owner rate currency reason
  exact leads_of_checked contact

/-- The company and the contact of a valid deal are of the organization. -/
theorem organization_of_validate {related : Related} {organization : Nat} {stored : Option Deal}
    {attrs accepted : DealAttrs}
    (valid : validate related organization stored attrs = .ok accepted) :
    Leads related.companyOrganization organization (attrs.company <|> stored.map Deal.company) ∧
      Leads related.contactOrganization organization
        (attrs.contact.getD (stored.bind Deal.contact)) := by
  unfold validate at valid
  dsimp only at valid
  split_ifs at valid with company contact owner rate currency reason
  exact ⟨leads_of_grouped company, leads_of_first contact⟩

/-- A valid request changes the currency of no deal that has cost lines, but for case. -/
theorem currency_of_validate {related : Related} {organization : Nat} {deal : Deal}
    {attrs accepted : DealAttrs}
    (valid : validate related organization (some deal) attrs = .ok accepted)
    (hasLines : related.hasCostLines deal.id = true) :
    related.upper deal.currency = related.upper (attrs.setOn deal).currency := by
  unfold validate at valid
  dsimp only at valid
  split_ifs at valid with company contact owner rate currency reason
  by_contra differs
  exact currency (decide_eq_true ⟨fun same => differs same.symm, hasLines⟩)

theorem toRow_owner {attrs : DealAttrs} {id organization now : Nat} {deal : Deal}
    (isRow : attrs.toRow id organization now = some deal) :
    deal.id = id ∧ deal.organization = organization := by
  unfold DealAttrs.toRow at isRow
  cases company : attrs.company with
  | none => simp [company] at isRow
  | some owner =>
      cases title : attrs.title with
      | none => simp [company, title] at isRow
      | some _ =>
          simp only [company, title, Option.bind_eq_bind, Option.bind_some, Option.pure_def,
            Option.some.injEq] at isRow
          subst isRow
          exact ⟨rfl, rfl⟩

theorem toRow_references {attrs : DealAttrs} {id organization now : Nat} {deal : Deal}
    (isRow : attrs.toRow id organization now = some deal) :
    attrs.company = some deal.company ∧ deal.contact = attrs.contact.getD none := by
  unfold DealAttrs.toRow at isRow
  cases company : attrs.company with
  | none => simp [company] at isRow
  | some owner =>
      cases title : attrs.title with
      | none => simp [company, title] at isRow
      | some _ =>
          simp only [company, title, Option.bind_eq_bind, Option.bind_some, Option.pure_def,
            Option.some.injEq] at isRow
          subst isRow
          simp [DealAttrs.setOn, company]

end BubllioCrm.Deals
