import BubllioCrm.Subscriptions.Services

/-!
Owns the checks the views make on a subscription row they read without a lock,
before they call the service.
-/

namespace BubllioCrm.Subscriptions

open BubllioCrm.Foundations

/-- A request that reaches a service through its view. -/
inductive ViewRequest where
  | cancel (immediate : Bool)
  | pause
  | resume
  | recordPayment (chargeId : Nat) (payment : Payment)
deriving DecidableEq

def ViewRequest.operation : ViewRequest → Operation
  | .cancel immediate => .cancel immediate
  | .pause => .pause
  | .resume => .resume
  | .recordPayment chargeId payment => .recordPayment chargeId payment

/-- What the view requires of the row it has read. The resume and payment
views leave the decision to the service. -/
def ViewRequest.accepts (request : ViewRequest) (today : Date)
    (subscription : CustomerSubscription) : Bool :=
  match request with
  | .cancel _ => subscription.effectiveStatus today ∉ [Status.cancelled, Status.expired]
  | .pause => subscription.effectiveStatus today = .active
  | .resume => true
  | .recordPayment _ _ => true

end BubllioCrm.Subscriptions
