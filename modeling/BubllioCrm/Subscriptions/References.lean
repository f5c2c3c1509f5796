import BubllioCrm.Companies.Related
import BubllioCrm.Foundations.References
import BubllioCrm.Subscriptions.Serializers

/-!
Owns the references of a customer service: the columns that name its company,
its catalogue item, the deal it came from and its assignee, and their checks in
`CustomerSubscriptionSerializer`.
-/

namespace BubllioCrm.Subscriptions

open BubllioCrm.Foundations

/-- A row of the table with all its columns that a request may write, and its charges. -/
structure Subscription where
  id : Nat
  organization : Nat
  company : Nat
  catalogItem : Option Nat := none
  originatingDeal : Option Nat := none
  assignedTo : Option Nat := none
  account : Account
deriving DecidableEq

structure ReferenceAttrs where
  company : Option Nat := none
  catalogItem : Option (Option Nat) := none
  originatingDeal : Option (Option Nat) := none
  assignedTo : Option (Option Nat) := none
  terms : SubscriptionAttrs := {}
deriving DecidableEq

/-- `setattr` for the references that the request names. -/
def ReferenceAttrs.setOn (attrs : ReferenceAttrs) (subscription : Subscription) : Subscription :=
  { subscription with
    company := attrs.company.getD subscription.company
    catalogItem := attrs.catalogItem.getD subscription.catalogItem
    originatingDeal := attrs.originatingDeal.getD subscription.originatingDeal
    assignedTo := attrs.assignedTo.getD subscription.assignedTo }

/-- `CustomerSubscriptionSerializer.validate`, where `stored` is the instance of
a PATCH request and `catalog` finds the catalogue items. -/
def validateReferences (related : Companies.Related) (catalog : Nat → Option ServiceCatalogItem)
    (today : Date) (organization : Nat) (stored : Option Subscription) (attrs : ReferenceAttrs) :
    Except FieldErrors ReferenceAttrs :=
  let company := attrs.company <|> stored.map Subscription.company
  let catalogItem := attrs.catalogItem.getD (stored.bind Subscription.catalogItem)
  let deal := attrs.originatingDeal.getD (stored.bind Subscription.originatingDeal)
  let owner := attrs.assignedTo.getD (stored.bind Subscription.assignedTo)
  if company.any fun company => related.companyOrganization company ≠ some organization then
    .error [("company", "Choose a company from this workspace.")]
  else if catalogItem.any fun item => related.catalogItemOrganization item ≠ some organization then
    .error [("catalog_item", "Choose a service from this workspace.")]
  else if deal.any fun deal => related.dealOrganization deal ≠ some organization ∨
      related.dealCompany deal ≠ company then
    .error [("originating_deal", "Choose a deal from the selected company.")]
  else if owner.any fun owner => ¬ related.isMember organization owner then
    .error [("assigned_to", "Choose a member of this workspace.")]
  else
    (validate related.upper today (stored.map fun stored => stored.account.subscription)
      (catalogItem.bind catalog) attrs.terms).map fun terms => { attrs with terms := terms }

/-- The row of a create request that names the required fields, with its charge. -/
def ReferenceAttrs.toSubscription (attrs : ReferenceAttrs) (id organization : Nat) :
    Option Subscription := do
  let company ← attrs.company
  let account ← (createSubscription attrs.terms).toOption
  return attrs.setOn {
    id := id
    organization := organization
    company := company
    account := account }

/-- `update_subscription` on the row that it has locked. -/
def updateReferences (attrs : ReferenceAttrs) (subscription : Subscription) :
    Except BillingError Subscription :=
  (updateSubscription attrs.terms subscription.account).map fun account =>
    { attrs.setOn subscription with account := account }

/-! ### What the checks and writes keep -/

variable {related : Companies.Related} {catalog : Nat → Option ServiceCatalogItem} {today : Date}
  {id organization company : Nat} {stored : Option Subscription}
  {attrs accepted : ReferenceAttrs} {subscription updated : Subscription}

/-- The checks change nothing but the terms of a request. -/
theorem validateReferences_ok
    (valid : validateReferences related catalog today organization stored attrs = .ok accepted) :
    ∃ terms, accepted = { attrs with terms := terms } := by
  unfold validateReferences at valid
  dsimp only at valid
  split_ifs at valid with isElsewhere item deal owner
  cases terms : validate related.upper today (stored.map fun stored => stored.account.subscription)
      ((attrs.catalogItem.getD (stored.bind Subscription.catalogItem)).bind catalog)
      attrs.terms with
  | error _ => simp [terms, Except.map] at valid
  | ok checked =>
      simp only [terms, Except.map, Except.ok.injEq] at valid
      exact ⟨checked, valid.symm⟩

/-- The deal that a valid subscription refers to is of its company. -/
theorem leads_of_validateReferences
    (valid : validateReferences related catalog today organization stored attrs = .ok accepted)
    (isCompany : (attrs.company <|> stored.map Subscription.company) = some company) :
    Leads related.dealCompany company
      (attrs.originatingDeal.getD (stored.bind Subscription.originatingDeal)) := by
  unfold validateReferences at valid
  dsimp only at valid
  rw [isCompany] at valid
  split_ifs at valid with isElsewhere item deal owner
  exact leads_of_checked deal

/-- The company, the catalogue item and the deal of a valid subscription are of
the organization. -/
theorem organization_of_validateReferences
    (valid : validateReferences related catalog today organization stored attrs = .ok accepted) :
    Leads related.companyOrganization organization
        (attrs.company <|> stored.map Subscription.company) ∧
      Leads related.catalogItemOrganization organization
        (attrs.catalogItem.getD (stored.bind Subscription.catalogItem)) ∧
      Leads related.dealOrganization organization
        (attrs.originatingDeal.getD (stored.bind Subscription.originatingDeal)) := by
  unfold validateReferences at valid
  dsimp only at valid
  split_ifs at valid with company item deal owner
  exact ⟨leads_of_grouped company, leads_of_grouped item, leads_of_first deal⟩

theorem toSubscription_eq (isRow : attrs.toSubscription id organization = some subscription) :
    ∃ company account, attrs.company = some company ∧ subscription = attrs.setOn {
      id := id
      organization := organization
      company := company
      account := account } := by
  unfold ReferenceAttrs.toSubscription at isRow
  cases company : attrs.company with
  | none => simp [company] at isRow
  | some owner =>
      cases account : (createSubscription attrs.terms).toOption with
      | none => simp [company, account] at isRow
      | some created =>
          simp only [company, account, Option.bind_eq_bind, Option.bind_some, Option.pure_def,
            Option.some.injEq] at isRow
          exact ⟨owner, created, rfl, isRow.symm⟩

theorem toSubscription_references
    (isRow : attrs.toSubscription id organization = some subscription) :
    attrs.company = some subscription.company ∧
      subscription.originatingDeal = attrs.originatingDeal.getD none := by
  obtain ⟨company, account, isCompany, rfl⟩ := toSubscription_eq isRow
  simp [ReferenceAttrs.setOn, isCompany]

theorem updateReferences_ok (isUpdated : updateReferences attrs subscription = .ok updated) :
    ∃ account, updated = { attrs.setOn subscription with account := account } := by
  unfold updateReferences at isUpdated
  cases account : updateSubscription attrs.terms subscription.account with
  | error _ => simp [account, Except.map] at isUpdated
  | ok saved =>
      simp only [account, Except.map, Except.ok.injEq] at isUpdated
      exact ⟨saved, isUpdated.symm⟩

end BubllioCrm.Subscriptions
