import BubllioCrm.Subscriptions.Services

/-!
Owns the create and update requests of customer services: the defaults and
checks of the serializer, and the two writes of a create request.

The references to the company, the deal and the assignee are not owned here.
-/

namespace BubllioCrm.Subscriptions

open BubllioCrm.Foundations

/-- The commercial defaults of a catalogue item. -/
structure ServiceCatalogItem where
  name : String
  defaultNetPrice : Int
  currency : String
  defaultTaxRate : Int
  billingInterval : BillingInterval
deriving DecidableEq

/-- Field errors of a `ValidationError`: field path and message. -/
abbrev FieldErrors := List (String × String)

/-- `setdefault` for the dates and for the fields a catalogue item supplies. -/
def SubscriptionAttrs.withDefaults (today : Date) (catalogItem : Option ServiceCatalogItem)
    (attrs : SubscriptionAttrs) : SubscriptionAttrs :=
  let startDate := attrs.startDate.getD today
  { attrs with
    startDate := some startDate
    nextBillingDate := some (attrs.nextBillingDate.getD startDate)
    name := attrs.name <|> catalogItem.map ServiceCatalogItem.name
    netPrice := attrs.netPrice <|> catalogItem.map ServiceCatalogItem.defaultNetPrice
    currency := attrs.currency <|> catalogItem.map ServiceCatalogItem.currency
    taxRate := attrs.taxRate <|> catalogItem.map ServiceCatalogItem.defaultTaxRate
    billingInterval :=
      attrs.billingInterval <|> catalogItem.map ServiceCatalogItem.billingInterval }

def missingMessage : String := "This field is required when no service provides a default."

/-- The commercial fields that have no value, neither in the request nor on the
stored row. -/
def missingFields (stored : Option CustomerSubscription) (attrs : SubscriptionAttrs) :
    FieldErrors :=
  let name := attrs.name <|> stored.map CustomerSubscription.name
  let currency := attrs.currency <|> stored.map CustomerSubscription.currency
  (if name = none ∨ name = some "" then [("name", missingMessage)] else []) ++
  (if (attrs.netPrice <|> stored.map CustomerSubscription.netPrice) = none then
    [("net_price", missingMessage)] else []) ++
  (if currency = none ∨ currency = some "" then [("currency", missingMessage)] else []) ++
  (if (attrs.taxRate <|> stored.map CustomerSubscription.taxRate) = none then
    [("tax_rate", missingMessage)] else []) ++
  (if (attrs.billingInterval <|> stored.map CustomerSubscription.billingInterval) = none then
    [("billing_interval", missingMessage)] else [])

/-- `end_date < other`, false when either is missing. -/
def endsBefore (endDate other : Option Date) : Bool :=
  endDate.any fun last => other.any (last < ·)

/-- `CustomerSubscriptionSerializer.validate`. `stored` is the instance of an
update and `upper` is the full Unicode upper-casing of text. -/
def validate (upper : String → String) (today : Date) (stored : Option CustomerSubscription)
    (catalogItem : Option ServiceCatalogItem) (attrs : SubscriptionAttrs) :
    Except FieldErrors SubscriptionAttrs :=
  let attrs := if stored.isSome then attrs else attrs.withDefaults today catalogItem
  let missing := missingFields stored attrs
  let netPrice := (attrs.netPrice <|> stored.map CustomerSubscription.netPrice).getD 0
  let taxRate := (attrs.taxRate <|> stored.map CustomerSubscription.taxRate).getD 0
  let startDate := attrs.startDate <|> stored.map CustomerSubscription.startDate
  let nextBillingDate := attrs.nextBillingDate <|> stored.map CustomerSubscription.nextBillingDate
  let endDate := attrs.endDate.getD (stored.bind CustomerSubscription.endDate)
  if missing ≠ [] then .error missing
  else if netPrice < 0 then .error [("net_price", "Enter an amount of zero or greater.")]
  else if taxRate < 0 ∨ 10000 < taxRate then
    .error [("tax_rate", "Enter a VAT rate between 0 and 100.")]
  else if endsBefore endDate startDate then
    .error [("end_date", "End date cannot be before the start date.")]
  else if endsBefore endDate nextBillingDate then
    .error [("end_date", "End date cannot be before the next billing date.")]
  else .ok { attrs with currency := attrs.currency.map upper }

/-- The row a create request inserts, if no required column is missing. -/
def SubscriptionAttrs.toRow (attrs : SubscriptionAttrs) : Option CustomerSubscription := do
  let name ← attrs.name
  let netPrice ← attrs.netPrice
  let currency ← attrs.currency
  let taxRate ← attrs.taxRate
  let billingInterval ← attrs.billingInterval
  let startDate ← attrs.startDate
  let nextBillingDate ← attrs.nextBillingDate
  return {
    name := name
    netPrice := netPrice
    currency := currency
    taxRate := taxRate
    billingInterval := billingInterval
    startDate := startDate
    nextBillingDate := nextBillingDate
    renewalDate := attrs.renewalDate.join
    endDate := attrs.endDate.join
    autoRenew := attrs.autoRenew.getD true }

/-- First write of a create request: the subscription row. -/
def insertSubscription (validatedData : SubscriptionAttrs) :
    Except BillingError CustomerSubscription :=
  match validatedData.toRow with
  | none => .error (.integrityError "not_null")
  | some row => do
      row.checkRow
      return row

/-- Second write of a create request: the first charge, computed from the row
the request still holds. It is a transaction of its own, so when it raises the
subscription row stays. -/
def firstCharge (row : CustomerSubscription) (charges : List Charge) : List Charge :=
  match ensureCharge row charges row.nextBillingDate with
  | .ok charged => charged
  | .error _ => charges

/-- A create request that no other request interrupts. -/
def createSubscription (validatedData : SubscriptionAttrs) : Except BillingError Account := do
  let row ← insertSubscription validatedData
  return { subscription := row, charges := firstCharge row [] }

end BubllioCrm.Subscriptions
