import BubllioCrm.Foundations.Table
import BubllioCrm.Subscriptions.Models
import Mathlib.Data.List.MinMax

/-!
Owns the billing services: the first charge and every later one, an edit of
the agreement, a payment with the renewal it may trigger, cancellation, pause,
expiry and resumption.

Each service locks the subscription row, reads it again and runs in one
transaction, so it is one function from the account it finds to the account it
leaves, or to the error that rolls it back. The timeline event of a payment
goes to another table and is left out.
-/

namespace BubllioCrm.Subscriptions

open BubllioCrm.Foundations

/-- The server's local date and time when a service runs. -/
structure Clock where
  today : Date
  now : Nat := 0
deriving DecidableEq

/-! ### Charges -/

def periodEnd (subscription : CustomerSubscription) (start : Date) : Except BillingError Date :=
  match subscription.billingInterval.months with
  | none => .ok start
  | some months =>
      match (start.addMonths months).bind Date.previousDay with
      | none => .error .yearOutOfRange
      | some last => .ok last

/-- The row `ensure_charge` inserts. -/
def newCharge (subscription : CustomerSubscription) (id : Nat) (dueDate coverageEnd : Date) :
    Charge where
  id := id
  coverageStart := dueDate
  coverageEnd := coverageEnd
  dueDate := dueDate
  netAmount := subscription.netPrice
  taxRate := subscription.taxRate
  taxAmount := subscription.taxAmount
  grossAmount := subscription.netPrice + subscription.taxAmount
  currency := subscription.currency

/-- `get_or_create` on the subscription and the due date. The defaults are
computed first, so a coverage past the last year raises even where the charge
exists. A new row takes the next free id. -/
def ensureCharge (subscription : CustomerSubscription) (charges : List Charge) (dueDate : Date) :
    Except BillingError (List Charge) := do
  let coverageEnd ← periodEnd subscription dueDate
  if charges.any (·.dueDate = dueDate) then
    return charges
  else
    let charge := newCharge subscription charges.length dueDate coverageEnd
    charge.checkRow
    return charges ++ [charge]

/-! ### Editing the agreement -/

/-- Validated data of a create or update request: a missing field is `none`,
an explicit null is `some none`. -/
structure SubscriptionAttrs where
  name : Option String := none
  netPrice : Option Int := none
  currency : Option String := none
  taxRate : Option Int := none
  billingInterval : Option BillingInterval := none
  startDate : Option Date := none
  nextBillingDate : Option Date := none
  renewalDate : Option (Option Date) := none
  endDate : Option (Option Date) := none
  autoRenew : Option Bool := none
deriving DecidableEq

namespace SubscriptionAttrs

/-- `setattr` for every field that is present. -/
def applyTo (attrs : SubscriptionAttrs) (subscription : CustomerSubscription) :
    CustomerSubscription :=
  { subscription with
    name := attrs.name.getD subscription.name
    netPrice := attrs.netPrice.getD subscription.netPrice
    currency := attrs.currency.getD subscription.currency
    taxRate := attrs.taxRate.getD subscription.taxRate
    billingInterval := attrs.billingInterval.getD subscription.billingInterval
    startDate := attrs.startDate.getD subscription.startDate
    nextBillingDate := attrs.nextBillingDate.getD subscription.nextBillingDate
    renewalDate := attrs.renewalDate.getD subscription.renewalDate
    endDate := attrs.endDate.getD subscription.endDate
    autoRenew := attrs.autoRenew.getD subscription.autoRenew }

/-- Some field of `commercial_fields` is present. -/
def isCommercial (attrs : SubscriptionAttrs) : Bool :=
  attrs.netPrice.isSome || attrs.taxRate.isSome || attrs.currency.isSome

end SubscriptionAttrs

/-- The charges an edit of price, tax or currency rewrites. -/
def Charge.Editable (charge : Charge) : Prop :=
  charge.state = .open ∧ 0 < charge.outstandingAmount

instance : DecidablePred Charge.Editable := fun charge => by
  unfold Charge.Editable
  infer_instance

/-- The two refusals of an edit, in the order of the source. -/
def checkEditable (newGrossAmount : Int) (newCurrency : String) (charge : Charge) :
    Except BillingError Unit :=
  if newGrossAmount < charge.paidAmount then
    .error (.valueError "The updated total cannot be lower than the amount already paid.")
  else if 0 < charge.paidAmount ∧ charge.currency ≠ newCurrency then
    .error (.valueError "The currency cannot be changed after a payment has been recorded.")
  else .ok ()

def updateSubscription (validatedData : SubscriptionAttrs) (account : Account) :
    Except BillingError Account := do
  let subscription := validatedData.applyTo account.subscription
  if ¬ validatedData.isCommercial then
    subscription.checkRow
    return { account with subscription := subscription }
  else
    let editableCharges := account.charges.filter (fun charge => charge.Editable)
    let newNetPrice := validatedData.netPrice.getD account.subscription.netPrice
    let newTaxRate := validatedData.taxRate.getD account.subscription.taxRate
    let newCurrency := validatedData.currency.getD account.subscription.currency
    let newGrossAmount := newNetPrice + taxOf newNetPrice newTaxRate
    editableCharges.forM (checkEditable newGrossAmount newCurrency)
    subscription.checkRow
    editableCharges.forM (fun charge => (charge.reprice subscription).checkRow)
    return {
      subscription := subscription
      charges := updateWhere Charge.Editable (Charge.reprice subscription) account.charges }

/-! ### Payments -/

/-- The branch after a payment: a settled charge of an active, renewing,
recurring subscription moves the next billing date and makes sure of the next
charge, unless that is due after the end of the agreement. -/
def renewAfterPayment (charge : Charge) (account : Account) : Except BillingError Account :=
  match account.subscription.billingInterval.months with
  | none => .ok account
  | some months =>
      if charge.outstandingAmount = 0 ∧ account.subscription.status = .active ∧
          account.subscription.autoRenew then
        match charge.dueDate.addMonths months with
        | none => .error .yearOutOfRange
        | some nextDate =>
            if account.subscription.endDate.all (nextDate ≤ ·) then do
              let subscription := { account.subscription with nextBillingDate := nextDate }
              let charges ← ensureCharge subscription account.charges nextDate
              return { subscription := subscription, charges := charges }
            else .ok account
      else .ok account

def recordPayment (chargeId : Nat) (payment : Payment) (account : Account) :
    Except BillingError Account :=
  match account.charges.find? (·.id = chargeId) with
  | none => .error .doesNotExist
  | some charge =>
      if charge.state ≠ .open then
        .error (.valueError "Payments can only be recorded against an open charge.")
      else if payment.amount ≤ 0 then
        .error (.valueError "Payment amount must be greater than zero.")
      else if charge.outstandingAmount < payment.amount then
        .error (.valueError "Payment amount cannot exceed the outstanding balance.")
      else
        renewAfterPayment (charge.addPayment payment)
          { account with charges :=
              updateWhere (·.id = chargeId) (Charge.addPayment payment) account.charges }

/-! ### Life cycle -/

/-- `charges.exclude(state=CANCELLED)`. -/
def keptCharges (charges : List Charge) : List Charge :=
  charges.filter (·.state ≠ .cancelled)

/-- The latest kept charge whose coverage has started, else the first one that
will start. -/
def currentCharge (today : Date) (charges : List Charge) : Option Charge :=
  (((keptCharges charges).filter (·.coverageStart ≤ today)).argmax Charge.coverageStart) <|>
    (keptCharges charges).argmin Charge.coverageStart

/-- `filter(state=OPEN, coverage_start__gt=date).update(state=CANCELLED)`. -/
def cancelOpenAfter (date : Date) (charges : List Charge) : List Charge :=
  updateWhere (fun charge => charge.state = .open ∧ date < charge.coverageStart)
    (Charge.setState .cancelled) charges

def cancellationDate (immediate : Bool) (today : Date) (charges : List Charge) : Date :=
  match immediate, currentCharge today charges with
  | true, _ => today
  | false, none => today
  | false, some charge => charge.coverageEnd

def cancelSubscription (immediate : Bool) (clock : Clock) (account : Account) : Account :=
  let effectiveDate := cancellationDate immediate clock.today account.charges
  { subscription :=
      { account.subscription with
        status := if immediate then .cancelled else .cancelling
        cancellationEffectiveDate := some effectiveDate
        cancelledAt := some clock.now }
    charges := cancelOpenAfter effectiveDate account.charges }

def pauseSubscription (clock : Clock) (account : Account) : Account where
  subscription := { account.subscription with status := .paused }
  charges := cancelOpenAfter clock.today account.charges

def expireSubscription (clock : Clock) (account : Account) : Account where
  subscription := { account.subscription with status := .expired }
  charges := cancelOpenAfter clock.today account.charges

/-- The kept charge that is due last. -/
def latestCharge (charges : List Charge) : Option Charge :=
  (keptCharges charges).argmax Charge.dueDate

/-- `filter(due_date=date, state=CANCELLED).update(state=OPEN)`, if it finds a
row. -/
def reopenDue (date : Date) (charges : List Charge) : Option (List Charge) :=
  if charges.any (fun charge => charge.dueDate = date ∧ charge.state = .cancelled) then
    some (updateWhere (fun charge => charge.dueDate = date ∧ charge.state = .cancelled)
      (Charge.setState .open) charges)
  else none

/-- The branch of a resumption that takes up the chain of charges again: after
a settled latest charge the next one is reopened or made. -/
def continueCharges (account : Account) : Except BillingError Account :=
  match latestCharge account.charges with
  | none => .ok account
  | some latest =>
      if latest.outstandingAmount ≠ 0 then .ok account
      else
        match account.subscription.billingInterval.months with
        | none => .ok account
        | some months =>
            match latest.dueDate.addMonths months with
            | none => .error .yearOutOfRange
            | some nextDate => do
                let subscription := { account.subscription with nextBillingDate := nextDate }
                match reopenDue nextDate account.charges with
                | some reopened => return { subscription := subscription, charges := reopened }
                | none =>
                    let charges ← ensureCharge subscription account.charges nextDate
                    return { subscription := subscription, charges := charges }

def resumeSubscription (clock : Clock) (account : Account) : Except BillingError Account :=
  if account.subscription.effectiveStatus clock.today ∉ [Status.cancelling, Status.paused] then
    .error (.valueError "Only a paused subscription or pending cancellation can be resumed.")
  else
    continueCharges
      { account with subscription :=
          { account.subscription with
            status := .active
            cancellationEffectiveDate := none
            cancelledAt := none } }

/-! ### Requests -/

inductive Operation where
  | update (validatedData : SubscriptionAttrs)
  | recordPayment (chargeId : Nat) (payment : Payment)
  | cancel (immediate : Bool)
  | pause
  | expire
  | resume
deriving DecidableEq

structure Request where
  clock : Clock
  operation : Operation
deriving DecidableEq

/-- The service call of a request. -/
def perform (account : Account) (request : Request) : Except BillingError Account :=
  match request.operation with
  | .update validatedData => updateSubscription validatedData account
  | .recordPayment chargeId payment => recordPayment chargeId payment account
  | .cancel immediate => .ok (cancelSubscription immediate request.clock account)
  | .pause => .ok (pauseSubscription request.clock account)
  | .expire => .ok (expireSubscription request.clock account)
  | .resume => resumeSubscription request.clock account

/-- The account after a request: a service that raises is rolled back. -/
def step (account : Account) (request : Request) : Account :=
  match perform account request with
  | .ok next => next
  | .error _ => account

end BubllioCrm.Subscriptions
