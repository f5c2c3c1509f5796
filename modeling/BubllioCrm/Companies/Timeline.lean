/-!
Owns the events of the customer timeline that the other modules record. What
an event says beyond its columns is a type of the module that records it.
-/

namespace BubllioCrm.Companies

inductive EventType where
  | dealUpdated
  | dealStageChanged
  | taskUpdated
  | taskStatusChanged
  | taskCompleted
  | taskReopened
deriving DecidableEq

/-- A row of `CompanyTimelineEvent`. -/
structure TimelineEvent (Details : Type) where
  company : Nat
  actor : Nat
  eventType : EventType
  sourceId : Nat
  details : Details
deriving DecidableEq

end BubllioCrm.Companies
