import BubllioCrm.Deals.Models
import BubllioCrm.Foundations.Table
import Mathlib.Data.List.InsertIdx
import Mathlib.Data.List.Sort

/-!
Owns the two writes on the deals of a workspace: the lane that `move_deal`
renumbers, and the row that a PATCH request saves, with the events they record.

Where the order of a lane ties, its deals come in the order of the table.
-/

namespace BubllioCrm.Deals

open BubllioCrm.Companies BubllioCrm.Foundations

/-- The rows that `move_deal` locks. -/
def Deal.IsActive (deal : Deal) : Prop :=
  deal.archivedAt = none

instance : DecidablePred Deal.IsActive :=
  fun deal => inferInstanceAs (Decidable (deal.archivedAt = none))

/-- `order_by("sort_order", "created_at")`. -/
def Deal.Before (first second : Deal) : Prop :=
  first.sortOrder < second.sortOrder ∨
    first.sortOrder = second.sortOrder ∧ first.createdAt ≤ second.createdAt

instance (first second : Deal) : Decidable (first.Before second) :=
  inferInstanceAs (Decidable (_ ∨ _))

/-- The other deals of the destination lane. -/
def lane (deals : List Deal) (stage : Stage) (moved : Nat) : List Deal :=
  (deals.filter fun deal =>
    deal.IsActive ∧ deal.stage = stage ∧ deal.id ≠ moved).insertionSort Deal.Before

/-- `destination.insert(min(position, len(destination)), deal)`. -/
def place (deal : Deal) (position : Nat) (destination : List Deal) : List Deal :=
  destination.insertIdx (min position destination.length) deal

/-- The ids of the deals in `changed` with their new `sort_order`. -/
def changed (stage : Stage) (destination : List Deal) : List (Nat × Nat) :=
  (destination.zipIdx.filter fun item =>
    item.1.stage ≠ stage ∨ item.1.sortOrder ≠ item.2).map fun item => (item.1.id, item.2)

/-- `bulk_update` with the columns of the lane. -/
def bulkUpdate (stage : Stage) (changes : List (Nat × Nat)) (deals : List Deal) : List Deal :=
  deals.map fun deal =>
    match changes.find? (·.1 = deal.id) with
    | some change => { deal with stage := stage, sortOrder := change.2 }
    | none => deal

/-- `save` of a deal that is loaded and changed. -/
def saveDeal (deal : Deal) (deals : List Deal) : List Deal :=
  updateWhere (·.id = deal.id) (fun _ => deal) deals

/-! ### Requests -/

inductive Request where
  /-- A move request with a valid stage and a position that is a natural number. -/
  | move (dealId : Nat) (stage : Stage) (position actor : Nat)
  | patch (dealId : Nat) (attrs : DealAttrs) (actor : Nat)
deriving DecidableEq

def Request.dealId : Request → Nat
  | .move dealId _ _ _ => dealId
  | .patch dealId _ _ => dealId

/-- The checks of a request on the deal it has loaded. -/
def Request.Accepts (related : Related) (organization : Nat) (copy : Deal) : Request → Prop
  | .move _ stage _ _ => copy.IsActive ∧ ¬ (stage = .lost ∧ IsBlank copy.lostReason)
  | .patch _ attrs _ => validate related organization (some copy) attrs = .ok attrs

instance (related : Related) (organization : Nat) (copy : Deal) : (request : Request) →
    Decidable (request.Accepts related organization copy)
  | .move _ _ _ _ => inferInstanceAs (Decidable (copy.IsActive ∧ _))
  | .patch _ attrs _ =>
      inferInstanceAs (Decidable (validate related organization (some copy) attrs = .ok attrs))

/-- What `move_deal` leaves of the table, for a copy of the deal and the others
of the lane. -/
def moveDeal (copy : Deal) (stage : Stage) (position : Nat) (others deals : List Deal) :
    List Deal :=
  bulkUpdate stage (changed stage (place copy position others)) deals

/-- What a request leaves of the table when it writes with the copy it has loaded. -/
def Request.write (copy : Deal) (deals : List Deal) : Request → List Deal
  | .move _ stage position _ => moveDeal copy stage position (lane deals stage copy.id) deals
  | .patch _ attrs _ => saveDeal (attrs.setOn copy) deals

/-- A request that runs alone. -/
def Request.alone (related : Related) (organization : Nat) (deals : List Deal)
    (request : Request) : List Deal :=
  match deals.find? (·.id = request.dealId) with
  | some deal =>
      if request.Accepts related organization deal then request.write deal deals else deals
  | none => deals

/-- The request finds its deal, which passes its checks. -/
def Request.Succeeds (related : Related) (organization : Nat) (deals : List Deal)
    (request : Request) : Prop :=
  ∃ deal, deals.find? (·.id = request.dealId) = some deal ∧
    request.Accepts related organization deal

/-- Requests that run one after the other. -/
def serially (related : Related) (organization : Nat) (requests : List Request)
    (deals : List Deal) : List Deal :=
  requests.foldl (Request.alone related organization) deals

/-! ### Events -/

inductive Details where
  | fields (dealTitle : String) (fields : List String)
  | stageChanged (dealTitle : String) (fields : Option (List String)) (fromStage toStage : Stage)
deriving DecidableEq

abbrev Event := TimelineEvent Details

/-- What `move_deal` records for the deal it has refreshed. -/
def moveEvents (previousStage : Stage) (deal : Deal) (actor : Nat) : List Event :=
  if previousStage = deal.stage then []
  else [{
    company := deal.company
    actor := actor
    eventType := .dealStageChanged
    sourceId := deal.id
    details := .stageChanged deal.title none previousStage deal.stage }]

/-- What a PATCH request records for the deal it has saved. -/
def patchEvent (previousStage : Stage) (attrs : DealAttrs) (deal : Deal) (actor : Nat) : Event :=
  if attrs.stage.isSome ∧ deal.stage ≠ previousStage then {
    company := deal.company
    actor := actor
    eventType := .dealStageChanged
    sourceId := deal.id
    details := .stageChanged deal.title (some attrs.fields) previousStage deal.stage }
  else {
    company := deal.company
    actor := actor
    eventType := .dealUpdated
    sourceId := deal.id
    details := .fields deal.title attrs.fields }

end BubllioCrm.Deals
