import BubllioCrm.Foundations.Calendar
import BubllioCrm.Foundations.Rounding

/-!
Owns the rows of the billing tables: the customer subscription, its charges
and their payments, the columns the services read and write, the derived
properties of the rows, and the constraints the database checks on a write.

Amounts are whole cents and tax rates are hundredths of a percent, the two
decimal places the columns keep. A charge holds its payments, and an `Account`
holds a subscription with its charges: the rows that one lock on the
subscription row protects.

Columns that no billing operation reads (the organization, the company, the
catalogue item, notes, update times) are left out.
-/

namespace BubllioCrm.Subscriptions

open BubllioCrm.Foundations

inductive BillingInterval where
  | oneOff
  | monthly
  | quarterly
  | semiannual
  | annual
deriving DecidableEq, Repr

/-- `INTERVAL_MONTHS.get`: a one-off service has no entry. -/
def BillingInterval.months : BillingInterval → Option Nat
  | .oneOff => none
  | .monthly => some 1
  | .quarterly => some 3
  | .semiannual => some 6
  | .annual => some 12

theorem BillingInterval.months_pos {interval : BillingInterval} {months : Nat}
    (recurs : interval.months = some months) : 0 < months := by
  cases interval <;>
    simp only [BillingInterval.months, Option.some.injEq, reduceCtorEq] at recurs <;> omega

inductive Status where
  | active
  | paused
  | cancelling
  | cancelled
  | expired
deriving DecidableEq, Repr

inductive ChargeState where
  | «open»
  | waived
  | cancelled
deriving DecidableEq, Repr

/-- What a failing billing call raises. Every service is one transaction, so
a raise leaves the rows unchanged. -/
inductive BillingError where
  | valueError (message : String)
  | yearOutOfRange
  | integrityError (constraint : String)
  | numericOverflow (column : String)
  | doesNotExist
deriving DecidableEq, Repr

/-- A `DecimalField(max_digits=14, decimal_places=2)` column holds the value. -/
def FitsColumn (amount : Int) : Prop :=
  -(10 ^ 14) < amount ∧ amount < 10 ^ 14

instance (amount : Int) : Decidable (FitsColumn amount) := by
  unfold FitsColumn
  infer_instance

/-! ### Customer subscription -/

structure CustomerSubscription where
  name : String
  netPrice : Int
  currency : String
  taxRate : Int
  billingInterval : BillingInterval
  startDate : Date
  nextBillingDate : Date
  renewalDate : Option Date := none
  endDate : Option Date := none
  cancellationEffectiveDate : Option Date := none
  cancelledAt : Option Nat := none
  autoRenew : Bool := true
  status : Status := .active
deriving DecidableEq

/-- `(net * rate / 100).quantize(Decimal("0.01"), rounding=ROUND_HALF_UP)`. -/
def taxOf (net : Int) (rate : Int) : Int :=
  quantizeHalfUp (net * rate) 10000

namespace CustomerSubscription

def taxAmount (subscription : CustomerSubscription) : Int :=
  taxOf subscription.netPrice subscription.taxRate

def grossPrice (subscription : CustomerSubscription) : Int :=
  subscription.netPrice + subscription.taxAmount

def effectiveStatus (subscription : CustomerSubscription) (today : Date) : Status :=
  if subscription.endDate.any (· < today) ∧
      subscription.status ∈ [Status.active, Status.paused, Status.cancelling] then
    .expired
  else if subscription.status = .cancelling ∧
      subscription.cancellationEffectiveDate.any (· < today) then
    .cancelled
  else subscription.status

/-- The check constraints of the table and the width of the price column. -/
def checkRow (subscription : CustomerSubscription) : Except BillingError Unit :=
  if ¬ FitsColumn subscription.netPrice then .error (.numericOverflow "net_price")
  else if ¬ (0 ≤ subscription.taxRate ∧ subscription.taxRate ≤ 10000) then
    .error (.integrityError "subscription_tax_rate_between_0_and_100")
  else if ¬ 0 ≤ subscription.netPrice then
    .error (.integrityError "subscription_net_price_not_negative")
  else if ¬ subscription.endDate.all (subscription.startDate ≤ ·) then
    .error (.integrityError "subscription_end_not_before_start")
  else .ok ()

end CustomerSubscription

/-! ### Payments and charges -/

structure Payment where
  amount : Int
  paidDate : Date
  paymentMethod : String := ""
  externalReference : String := ""
  note : String := ""
  recordedBy : Option Nat := none
deriving DecidableEq

structure Charge where
  id : Nat
  coverageStart : Date
  coverageEnd : Date
  dueDate : Date
  netAmount : Int
  taxRate : Int
  taxAmount : Int
  grossAmount : Int
  currency : String
  state : ChargeState := .open
  payments : List Payment := []
deriving DecidableEq

namespace Charge

def paidAmount (charge : Charge) : Int :=
  (charge.payments.map Payment.amount).sum

def outstandingAmount (charge : Charge) : Int :=
  max (charge.grossAmount - charge.paidAmount) 0

def addPayment (payment : Payment) (charge : Charge) : Charge :=
  { charge with payments := charge.payments ++ [payment] }

def setState (state : ChargeState) (charge : Charge) : Charge :=
  { charge with state := state }

/-- The commercial columns an edit of the agreement rewrites. -/
def reprice (subscription : CustomerSubscription) (charge : Charge) : Charge :=
  { charge with
    netAmount := subscription.netPrice
    taxRate := subscription.taxRate
    taxAmount := subscription.taxAmount
    grossAmount := subscription.grossPrice
    currency := subscription.currency }

/-- The check constraints of the table and the width of the amount columns. -/
def checkRow (charge : Charge) : Except BillingError Unit :=
  if ¬ FitsColumn charge.netAmount then .error (.numericOverflow "net_amount")
  else if ¬ FitsColumn charge.taxAmount then .error (.numericOverflow "tax_amount")
  else if ¬ FitsColumn charge.grossAmount then .error (.numericOverflow "gross_amount")
  else if ¬ (0 ≤ charge.netAmount ∧ 0 ≤ charge.taxAmount ∧ 0 ≤ charge.grossAmount) then
    .error (.integrityError "charge_amounts_not_negative")
  else if ¬ (0 ≤ charge.taxRate ∧ charge.taxRate ≤ 10000) then
    .error (.integrityError "charge_tax_rate_between_0_and_100")
  else if ¬ charge.coverageStart ≤ charge.coverageEnd then
    .error (.integrityError "charge_coverage_dates_in_order")
  else .ok ()

end Charge

/-- A subscription row with its charges, in the order of their creation. -/
structure Account where
  subscription : CustomerSubscription
  charges : List Charge
deriving DecidableEq

end BubllioCrm.Subscriptions
