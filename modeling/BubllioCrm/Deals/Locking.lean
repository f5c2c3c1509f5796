import BubllioCrm.Deals.Board
import BubllioCrm.Deals.Lanes

/-!
Owns what the requests on a board hold while others take their steps: the deal
that each has loaded is still there, and behind the locks of a move the lane
that it has read stays as it is.
-/

namespace BubllioCrm.Deals

open BubllioCrm.Companies BubllioCrm.Foundations

/-- The deals of a workspace, which have distinct ids. -/
structure DealTable where
  deals : List Deal
  distinct : (deals.map Deal.id).Nodup

/-- A workspace with one company, of which everybody is a member. -/
def openWorkspace : Related where
  companyOrganization _ := some 1
  contactOrganization _ := some 1
  contactCompany _ := some 1
  dealOrganization _ := some 1
  dealCompany _ := some 1
  catalogItemOrganization _ := some 1
  isMember _ _ := true
  hasCostLines _ := false
  upper := id
  iexact first second := first = second
  lower := id

def Board.start (table : DealTable) : Board where
  deals := table.deals

variable {related : Related} {organization : Nat} {table : DealTable} {board after : Board}
  {index : Nat} {request : Request} {copy : Deal} {phase : Phase} {stage : Stage} {action : Action}

/-- The columns of a deal that no request on the board changes. -/
def Deal.identity (deal : Deal) : Nat × Option Nat :=
  (deal.id, deal.archivedAt)

/-- A request has loaded a deal of the board and accepted it. -/
structure Loaded (related : Related) (organization : Nat) (board : Board) (request : Request)
    (copy : Deal) : Prop where
  isDeal : request.dealId = copy.id
  stored : copy.identity ∈ board.deals.map Deal.identity
  accepted : request.Accepts related organization copy

/-- All active deals are locked by one request. -/
def Locking (board : Board) (index : Nat) : Prop :=
  ∀ deal ∈ board.deals, deal.IsActive → board.locks deal.id = some index

def InPhase (related : Related) (organization : Nat) (board : Board) (index : Nat) : Phase → Prop
  | .idle => True
  | .loaded request copy => Loaded related organization board request copy
  | .locked request copy =>
      Loaded related organization board request copy ∧ copy.IsActive ∧ Locking board index
  | .placed request copy others =>
      Loaded related organization board request copy ∧ copy.IsActive ∧ Locking board index ∧
        ∀ dealId stage position actor, request = .move dealId stage position actor →
          others = lane board.deals stage copy.id
  | .saved _ _ _ _ => True

/-- What a step of one request leaves to the others. -/
structure Preserves (board after : Board) (index : Nat) : Prop where
  identity : after.deals.map Deal.identity = board.deals.map Deal.identity
  locks : ∀ other, other ≠ index → ∀ row, board.locks row = some other →
    after.locks row = some other
  lanes : ∀ other, other ≠ index → Locking board other →
    (∃ deal ∈ board.deals, deal.IsActive) →
      ∀ stage moved, lane after.deals stage moved = lane board.deals stage moved

theorem preserves_of_deals (deals : after.deals = board.deals)
    (locks : ∀ other, other ≠ index → ∀ row, board.locks row = some other →
      after.locks row = some other) : Preserves board after index :=
  ⟨by rw [deals], locks, fun _ _ _ _ _ _ => by rw [deals]⟩

theorem exists_row (stored : copy.identity ∈ board.deals.map Deal.identity) :
    ∃ row ∈ board.deals, row.id = copy.id ∧ row.archivedAt = copy.archivedAt := by
  obtain ⟨row, rowStored, same⟩ := List.mem_map.mp stored
  exact ⟨row, rowStored, congrArg Prod.fst same, congrArg Prod.snd same⟩

theorem Preserves.locking (preserves : Preserves board after index) {other : Nat}
    (differs : other ≠ index) (locking : Locking board other) : Locking after other := by
  intro deal stored active
  have listed : deal.identity ∈ board.deals.map Deal.identity :=
    preserves.identity ▸ List.mem_map_of_mem stored
  obtain ⟨row, rowStored, sameId, sameArchived⟩ := exists_row listed
  rw [← sameId]
  exact preserves.locks other differs row.id (locking row rowStored (sameArchived.trans active))

theorem Preserves.loaded (preserves : Preserves board after index)
    (loaded : Loaded related organization board request copy) :
    Loaded related organization after request copy :=
  ⟨loaded.isDeal, preserves.identity.symm ▸ loaded.stored, loaded.accepted⟩

theorem Preserves.inPhase (preserves : Preserves board after index) {other : Nat}
    (differs : other ≠ index) (inPhase : InPhase related organization board other phase) :
    InPhase related organization after other phase := by
  cases phase with
  | idle => trivial
  | loaded request copy => exact preserves.loaded inPhase
  | locked request copy =>
      obtain ⟨loaded, active, locking⟩ := inPhase
      exact ⟨preserves.loaded loaded, active, preserves.locking differs locking⟩
  | placed request copy others =>
      obtain ⟨loaded, active, locking, isLane⟩ := inPhase
      obtain ⟨row, stored, -, sameArchived⟩ := exists_row loaded.stored
      have isActive : ∃ deal ∈ board.deals, deal.IsActive :=
        ⟨row, stored, sameArchived.trans active⟩
      refine ⟨preserves.loaded loaded, active, preserves.locking differs locking, ?_⟩
      intro dealId stage position actor isMove
      rw [preserves.lanes other differs locking isActive]
      exact isLane dealId stage position actor isMove
  | saved request previousStage deal number => trivial

/-- The deals of the board are those of the table, and every request holds what
its phase needs. -/
structure Held (related : Related) (organization : Nat) (table : DealTable) (board : Board) :
    Prop where
  identity : board.deals.map Deal.identity = table.deals.map Deal.identity
  phases : ∀ index, InPhase related organization board index (board.phases index)

theorem Held.start (table : DealTable) : Held related organization table (Board.start table) :=
  ⟨rfl, fun _ => trivial⟩

theorem Held.distinct (held : Held related organization table board) :
    (board.deals.map Deal.id).Nodup := by
  have ids : ∀ deals : List Deal, (deals.map Deal.identity).map Prod.fst = deals.map Deal.id := by
    intro deals
    rw [List.map_map]
    rfl
  rw [← ids, held.identity, ids]
  exact table.distinct

/-- The current row of a loaded deal. -/
theorem Held.row (held : Held related organization table board)
    (loaded : Loaded related organization board request copy) :
    ∃ row ∈ board.deals, row.id = copy.id ∧ row.archivedAt = copy.archivedAt ∧
      board.deals.find? (·.id = request.dealId) = some row := by
  obtain ⟨row, stored, sameId, sameArchived⟩ := exists_row loaded.stored
  refine ⟨row, stored, sameId, sameArchived, ?_⟩
  rw [loaded.isDeal, ← sameId]
  exact find_of_mem held.distinct stored

/-- One request takes its next phase. -/
theorem Held.moved (held : Held related organization table board)
    (preserves : Preserves board after index)
    (phases : after.phases = Function.update board.phases index phase)
    (inPhase : InPhase related organization after index phase) :
    Held related organization table after := by
  refine ⟨preserves.identity.trans held.identity, fun other => ?_⟩
  rw [phases]
  by_cases same : other = index
  · rw [same, Function.update_self]
    exact inPhase
  · rw [Function.update_of_ne same]
    exact preserves.inPhase same (held.phases other)

/-! ### Steps -/

theorem Held.save (held : Held related organization table board) {dealId actor : Nat}
    {attrs : DealAttrs}
    (isLoaded : board.phases index = .loaded (.patch dealId attrs actor) copy) :
    Held related organization table
      (board.save index (.patch dealId attrs actor) copy attrs) := by
  have loaded : Loaded related organization board (.patch dealId attrs actor) copy := by
    have inPhase := held.phases index
    rwa [isLoaded] at inPhase
  obtain ⟨row, stored, sameId, sameArchived, -⟩ := held.row loaded
  unfold Board.save
  split_ifs with grants
  · have onlyRow : ∀ other ∈ board.deals, other.id = (attrs.setOn copy).id → other = row :=
      fun other otherStored same =>
        eq_of_id_eq held.distinct otherStored stored (same.trans sameId.symm)
    refine held.moved ?_ rfl (show InPhase _ _ _ _ (.saved _ _ _ _) from trivial)
    refine ⟨?_, fun _ _ _ locked => locked, ?_⟩
    · apply map_updateWhere_of_mem
      intro other otherStored same
      rw [onlyRow other otherStored same]
      exact Prod.ext sameId.symm sameArchived.symm
    · intro other differs locking _ stage moved
      unfold lane
      dsimp only
      congr 1
      apply filter_updateWhere
      intro deal dealStored same
      rw [onlyRow deal dealStored same]
      have inactive : ¬ row.IsActive := by
        intro active
        have locked := locking row stored active
        rw [sameId] at locked
        exact differs (grants.eq locked)
      have copyInactive : ¬ (attrs.setOn copy).IsActive := by
        intro active
        exact inactive (sameArchived.trans active)
      simp [inactive, copyInactive]
  · exact held

theorem identity_moveDeal {position : Nat} {others deals : List Deal} :
    (moveDeal copy stage position others deals).map Deal.identity = deals.map Deal.identity := by
  unfold moveDeal bulkUpdate
  rw [List.map_map]
  apply List.map_congr_left
  intro deal _
  simp only [Function.comp]
  split <;> rfl

theorem Held.move (held : Held related organization table board) {dealId position actor : Nat}
    {others : List Deal}
    (isPlaced : board.phases index = .placed (.move dealId stage position actor) copy others) :
    Held related organization table
      (board.move index (.move dealId stage position actor) copy stage position actor others) := by
  obtain ⟨loaded, active, locking, -⟩ :
      InPhase related organization board index
        (.placed (.move dealId stage position actor) copy others) :=
    isPlaced ▸ held.phases index
  obtain ⟨row, stored, -, sameArchived, -⟩ := held.row loaded
  have isActive : row.IsActive := sameArchived.trans active
  have locks : ∀ other, other ≠ index → ∀ deal, board.locks deal = some other →
      board.locks.release index deal = some other :=
    fun other differs deal locked => Locks.release_of_held differs locked
  unfold Board.move
  dsimp only
  split
  · refine held.moved ⟨identity_moveDeal, locks, ?_⟩ rfl (show InPhase _ _ _ _ .idle from trivial)
    intro other differs otherLocking _
    have locked := locking row stored isActive
    rw [otherLocking row stored isActive] at locked
    exact absurd (Option.some.inj locked) differs
  · exact held.moved (preserves_of_deals rfl locks) rfl (show InPhase _ _ _ _ .idle from trivial)

theorem Held.step (held : Held related organization table board) :
    Held related organization table (board.step related organization action) := by
  cases action with
  | load index request =>
      simp only [Board.step]
      split
      · unfold Board.load
        split
        · rename_i deal found
          split_ifs with accepts
          · have isDeal : deal.id = request.dealId := by simpa using List.find?_some found
            have inPhase : InPhase related organization
                (board.become index (.loaded request deal)) index (.loaded request deal) :=
              ⟨isDeal.symm, List.mem_map_of_mem (List.mem_of_find?_eq_some found), accepts⟩
            exact held.moved (preserves_of_deals rfl fun _ _ _ locked => locked) rfl inPhase
          · exact held
        · exact held
      · exact held
  | lock index =>
      simp only [Board.step]
      split
      · rename_i dealId stage position actor copy isLoaded
        obtain ⟨isDeal, stored, accepted⟩ : InPhase related organization board index
            (.loaded (.move dealId stage position actor) copy) :=
          isLoaded ▸ held.phases index
        unfold Board.lock
        split_ifs with grants
        · have inPhase : InPhase related organization
              { board.become index (.locked (.move dealId stage position actor) copy) with
                locks := board.locks.acquire index fun dealId =>
                  ∃ deal ∈ board.deals, deal.IsActive ∧ deal.id = dealId }
              index (.locked (.move dealId stage position actor) copy) := by
            refine ⟨⟨isDeal, stored, accepted⟩, accepted.1, fun deal dealStored active => ?_⟩
            have member : ∃ other ∈ board.deals, other.IsActive ∧ other.id = deal.id :=
              ⟨deal, dealStored, active, rfl⟩
            exact if_pos member
          refine held.moved (preserves_of_deals rfl ?_) rfl inPhase
          intro other differs row locked
          apply Locks.acquire_of_held ?_ locked
          rintro _ ⟨deal, dealStored, active, rfl⟩
          exact grants deal dealStored active
        · exact held
      · exact held
  | read index =>
      simp only [Board.step]
      split
      · rename_i dealId stage position actor copy isLocked
        obtain ⟨⟨isDeal, stored, accepted⟩, active, locking⟩ :
            InPhase related organization board index
              (.locked (.move dealId stage position actor) copy) :=
          isLocked ▸ held.phases index
        have inPhase : InPhase related organization
            (board.become index (.placed (.move dealId stage position actor) copy
              (lane board.deals stage copy.id)))
            index (.placed (.move dealId stage position actor) copy
              (lane board.deals stage copy.id)) := by
          refine ⟨⟨isDeal, stored, accepted⟩, active, locking, ?_⟩
          intro otherId otherStage otherPosition otherActor isMove
          cases isMove
          rfl
        exact held.moved (preserves_of_deals rfl fun _ _ _ locked => locked) rfl inPhase
      · exact held
  | write index =>
      simp only [Board.step]
      split
      · exact held.save ‹_›
      · exact held.move ‹_›
      · exact held
  | record index =>
      simp only [Board.step]
      split
      · exact held.moved (preserves_of_deals rfl fun _ _ _ locked => locked) rfl
          (show InPhase _ _ _ _ .idle from trivial)
      · exact held
  | fail index =>
      exact held.moved
        (preserves_of_deals rfl fun other differs row locked =>
          Locks.release_of_held differs locked)
        rfl (show InPhase _ _ _ _ .idle from trivial)

/-- What a move writes finds the deal again. -/
theorem Held.refreshed (held : Held related organization table board) {dealId position actor : Nat}
    {others : List Deal}
    (isPlaced : board.phases index = .placed (.move dealId stage position actor) copy others) :
    ∃ deal, (moveDeal copy stage position others board.deals).find? (·.id = copy.id) =
      some deal := by
  obtain ⟨loaded, -, -, -⟩ :
      InPhase related organization board index
        (.placed (.move dealId stage position actor) copy others) :=
    isPlaced ▸ held.phases index
  obtain ⟨moved, stored, same⟩ := List.mem_map.mp (identity_moveDeal.symm ▸ loaded.stored)
  have sameId : moved.id = copy.id := congrArg Prod.fst same
  rw [← Option.isSome_iff_exists, List.find?_isSome]
  exact ⟨moved, stored, by simp [sameId]⟩

end BubllioCrm.Deals
