import BubllioCrm.Deals.Services
import BubllioCrm.Foundations.Locks
import Mathlib.Logic.Function.Basic

/-!
Owns the board of a workspace: its deals, the requests on them with what each
has loaded, the row locks of moves, and the timeline. A PATCH request saves its
deal and records its event in two transactions. A move is one transaction
behind the locks on all active deals.

Two columns are kept for the proofs only: the writes in the order of their
commits, and which write an event reports.
-/

namespace BubllioCrm.Deals

open BubllioCrm.Companies BubllioCrm.Foundations

/-- Where a request is. -/
inductive Phase where
  | idle
  /-- The deal is loaded and the request accepted. -/
  | loaded (request : Request) (copy : Deal)
  /-- A move has its locks. -/
  | locked (request : Request) (copy : Deal)
  /-- A move has read the other deals of the lane. -/
  | placed (request : Request) (copy : Deal) (others : List Deal)
  /-- A PATCH request has saved its deal and has not recorded the event. -/
  | saved (request : Request) (previousStage : Stage) (deal : Deal) (number : Nat)

/-- A committed write on a deal, the stages between which it took the deal, and
whether its request has been answered with success. -/
structure Write where
  request : Request
  fromStage : Stage
  toStage : Stage
  acknowledged : Bool

structure Board where
  deals : List Deal
  locks : Locks Nat := Locks.free
  phases : Nat → Phase := fun _ => .idle
  writes : List Write := []
  /-- Events with the number of the write they report. -/
  timeline : List (Nat × Event) := []

inductive Action where
  | load (index : Nat) (request : Request)
  | lock (index : Nat)
  | read (index : Nat)
  | write (index : Nat)
  | record (index : Nat)
  /-- The request ends with an exception, or its process is lost. -/
  | fail (index : Nat)
deriving DecidableEq

/-- The stage in the row of a deal. -/
def stageIn (deals : List Deal) (dealId : Nat) : Stage :=
  ((deals.find? (·.id = dealId)).map Deal.stage).getD .lead

/-- `timeline` with the events of a write. -/
def report (number : Nat) (events : List Event) (timeline : List (Nat × Event)) :
    List (Nat × Event) :=
  timeline ++ events.map fun event => (number, event)

def acknowledge (number : Nat) (writes : List Write) : List Write :=
  writes.modify number fun write => { write with acknowledged := true }

namespace Board

variable (related : Related) (organization : Nat)

def become (index : Nat) (phase : Phase) (board : Board) : Board :=
  { board with phases := Function.update board.phases index phase }

def load (index : Nat) (request : Request) (board : Board) : Board :=
  match board.deals.find? (·.id = request.dealId) with
  | some deal =>
      if request.Accepts related organization deal then
        board.become index (.loaded request deal)
      else board
  | none => board

/-- `select_for_update` on the active deals, which waits for the other holders. -/
def lock (index : Nat) (request : Request) (copy : Deal) (board : Board) : Board :=
  if ∀ deal ∈ board.deals, deal.IsActive → board.locks.Grants index deal.id then
    { board.become index (.locked request copy) with
      locks := board.locks.acquire index fun dealId =>
        ∃ deal ∈ board.deals, deal.IsActive ∧ deal.id = dealId }
  else board

/-- The write of `save`, which waits for the holder of the row. -/
def save (index : Nat) (request : Request) (copy : Deal) (attrs : DealAttrs) (board : Board) :
    Board :=
  if board.locks.Grants index copy.id then
    { board.become index (.saved request copy.stage (attrs.setOn copy) board.writes.length) with
      deals := saveDeal (attrs.setOn copy) board.deals
      writes := board.writes ++
        [⟨request, stageIn board.deals copy.id, (attrs.setOn copy).stage, false⟩] }
  else board

/-- The rest of `move_deal`, with its commit. -/
def move (index : Nat) (request : Request) (copy : Deal) (stage : Stage) (position actor : Nat)
    (others : List Deal) (board : Board) : Board :=
  let deals := moveDeal copy stage position others board.deals
  match deals.find? (·.id = copy.id) with
  | some deal =>
      { board.become index .idle with
        deals := deals
        locks := board.locks.release index
        writes := board.writes ++ [⟨request, stageIn board.deals copy.id, deal.stage, true⟩]
        timeline := report board.writes.length (moveEvents copy.stage deal actor) board.timeline }
  | none => { board.become index .idle with locks := board.locks.release index }

def record (index number : Nat) (event : Event) (board : Board) : Board :=
  { board.become index .idle with
    writes := acknowledge number board.writes
    timeline := report number [event] board.timeline }

/-- The board after an action. An action that does not fit the request changes nothing. -/
def step (board : Board) (action : Action) : Board :=
  match action with
  | .load index request =>
      match board.phases index with
      | .idle => board.load related organization index request
      | _ => board
  | .lock index =>
      match board.phases index with
      | .loaded (.move dealId stage position actor) copy =>
          board.lock index (.move dealId stage position actor) copy
      | _ => board
  | .read index =>
      match board.phases index with
      | .locked (.move dealId stage position actor) copy =>
          board.become index
            (.placed (.move dealId stage position actor) copy (lane board.deals stage copy.id))
      | _ => board
  | .write index =>
      match board.phases index with
      | .loaded (.patch dealId attrs actor) copy =>
          board.save index (.patch dealId attrs actor) copy attrs
      | .placed (.move dealId stage position actor) copy others =>
          board.move index (.move dealId stage position actor) copy stage position actor others
      | _ => board
  | .record index =>
      match board.phases index with
      | .saved (.patch _ attrs actor) previousStage deal number =>
          board.record index number (patchEvent previousStage attrs deal actor)
      | _ => board
  | .fail index => { board.become index .idle with locks := board.locks.release index }

end Board

def Phase.IsSaved : Phase → Prop
  | .saved _ _ _ _ => True
  | _ => False

instance : DecidablePred Phase.IsSaved := fun phase => by
  unfold Phase.IsSaved
  split <;> infer_instance

/-- No request is between its write and its answer. -/
def Board.Settled (board : Board) : Prop :=
  ∀ index, ¬ (board.phases index).IsSaved

/-- What an acknowledgement leaves of the writes. -/
theorem map_acknowledge {Value : Type} {column : Write → Value} {number : Nat}
    {writes : List Write}
    (keeps : ∀ write, column { write with acknowledged := true } = column write) :
    (acknowledge number writes).map column = writes.map column := by
  apply List.ext_getElem?
  intro place
  simp only [acknowledge, List.getElem?_map, List.getElem?_modify]
  cases writes[place]? with
  | none => rfl
  | some write => by_cases same : number = place <;> simp [same, keeps]

end BubllioCrm.Deals
