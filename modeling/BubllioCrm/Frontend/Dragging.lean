import BubllioCrm.Deals.Moves

/-!
Owns the end of a drag on the deal board: the request that the board makes of
it, and where the deal lies once the server has carried the request out.

The position of the request is an index of the lane with the dragged deal still
in it, while the server inserts into the lane without the deal.
-/

namespace BubllioCrm.Frontend

open BubllioCrm.Deals

/-! ### The board -/

/-- What the deal is dropped on, by the data of the drop target. -/
inductive Over where
  | card (deal : Deal)
  | lane (stage : Stage)

/-- `dealStageFromDragData`. -/
def Over.stage : Over → Stage
  | .card deal => deal.stage
  | .lane stage => stage

/-- `dealFromDragData`. -/
def Over.deal? : Over → Option Deal
  | .card deal => some deal
  | .lane _ => none

inductive DragOutcome where
  | ignored
  /-- The drawer opens and asks for the reason of the loss. -/
  | askReason (deal : Deal)
  | move (id : Nat) (stage : Stage) (position : Nat)

/-- The position that `dragEnd` computes from the lane that the board shows. -/
def Over.position (target : Over) (moved : Nat) (targetLane : List Deal) : Nat :=
  let destination := targetLane.filter fun item => item.id ≠ moved
  match target.deal? with
  | some overDeal =>
      (targetLane.findIdx? fun item : Deal => item.id = overDeal.id).getD destination.length
  | none => destination.length

/-- `dragEnd` of the board that shows the rows. -/
def dragEnd (canMove : Bool) (rows : List Deal) (deal? : Option Deal) (over? : Option Over) :
    DragOutcome :=
  if !canMove then .ignored
  else
    match deal?, over? with
    | some deal, some target =>
        if target.deal?.map Deal.id = some deal.id then .ignored
        else if target.stage = .lost ∧ deal.lostReason = "" then .askReason deal
        else .move deal.id target.stage (target.position deal.id (laneDeals rows target.stage))
    | _, _ => .ignored

/-! ### Where a deal lands -/

/-- The rows are the active deals of the workspace, with every lane in the order of
the list view. -/
structure Shows (organization : Nat) (table rows : List Deal) : Prop where
  perm : rows.Perm (table.filter fun row => row.organization = organization ∧ row.IsActive)
  listed : ∀ stage, (rows.filter fun row => row.stage = stage).Pairwise ListedBefore

/-- The dragged deal lies where the deal lay that it was dropped on, or at the end of
the lane that it was dropped on, and the others keep their order. -/
structure Lands (target : Over) (deal : Nat) (before after : List Nat) : Prop where
  others : after.filter (· ≠ deal) = before.filter (· ≠ deal)
  onCard : ∀ card ∈ target.deal?, after[before.idxOf card.id]? = some deal
  onLane : target.deal? = none → after = before.filter (· ≠ deal) ++ [deal]

variable {organization position id : Nat} {table rows : List Deal} {deal card row : Deal}
  {stage : Stage} {target : Over} {canMove : Bool}

/-- The board shows the lanes of the server. -/
theorem laneDeals_eq (shows : Shows organization table rows)
    (distinct : (table.map Deal.id).Nodup) :
    laneDeals rows stage = laneOf organization stage table := by
  have sorted : (rows.filter fun row => row.stage = stage).Pairwise BySortOrder :=
    (shows.listed stage).imp fun before => by
      unfold ListedBefore at before
      unfold BySortOrder
      omega
  have isFilter : laneDeals rows stage = rows.filter fun row => row.stage = stage :=
    sorted.insertionSort_eq
  have sameRows : (rows.filter fun row => row.stage = stage).Perm
      ((table.filter fun row => row.organization = organization).filter fun row =>
        row.IsActive ∧ row.stage = stage) := by
    refine (shows.perm.filter _).trans (List.Perm.of_eq ?_)
    rw [List.filter_filter, List.filter_filter]
    apply List.filter_congr
    intro row _
    rw [Bool.eq_iff_iff]
    simp only [Bool.and_eq_true, decide_eq_true_eq]
    tauto
  rw [isFilter]
  exact eq_of_listed (nodup_map_id_filter (nodup_map_id_filter distinct _) _) sameRows laneOf_perm
    (shows.listed stage) laneOf_listed

theorem map_id_filter_ne (rows : List Deal) (id : Nat) :
    (rows.filter fun row => row.id ≠ id).map Deal.id = (rows.map Deal.id).filter (· ≠ id) := by
  rw [List.filter_map]
  rfl

theorem filter_insertIdx_ne {ids : List Nat} {place : Nat} :
    (ids.insertIdx place id).filter (· ≠ id) = ids.filter (· ≠ id) := by
  induction ids generalizing place with
  | nil => cases place <;> simp
  | cons first rest inductionHypothesis =>
      cases place with
      | zero => simp
      | succ place => rw [List.insertIdx_succ_cons, List.filter_cons, List.filter_cons,
          inductionHypothesis]

/-- The destination lane after a move, by its ids. -/
theorem map_id_laneOf_afterMove (distinct : (table.map Deal.id).Nodup)
    (createdApart : ((table.filter fun row => row.organization = deal.organization).map
      Deal.createdAt).Nodup)
    (stored : deal ∈ table) (active : deal.IsActive) :
    (laneOf deal.organization stage (afterMove deal stage position table)).map Deal.id =
      (((laneOf deal.organization stage table).map Deal.id).filter (· ≠ deal.id)).insertIdx
        (min position (othersOf deal stage table).length) deal.id := by
  rw [laneOf_destination distinct stored active, map_id_indexed, destinationOf, place,
    List.map_insertIdx, lane_eq_othersOf createdApart, othersOf, map_id_filter_ne]

/-- The request of a drag that moves a deal. -/
theorem dragEnd_eq_move (moved : dragEnd canMove rows (some deal) (some target) =
      .move id stage position) :
    id = deal.id ∧ stage = target.stage ∧ target.deal?.map Deal.id ≠ some deal.id ∧
      position = target.position deal.id (laneDeals rows stage) := by
  unfold dragEnd at moved
  split at moved
  · cases moved
  · dsimp only at moved
    split at moved
    · cases moved
    · next notItself =>
        split at moved
        · cases moved
        · cases moved
          exact ⟨rfl, rfl, notItself, rfl⟩

/-- The index of a shown card among the ids of its lane. -/
theorem findIdx?_eq_idxOf {lane : List Deal} (member : card ∈ lane) :
    (lane.findIdx? fun item : Deal => item.id = card.id) =
      some ((lane.map Deal.id).idxOf card.id) := by
  induction lane with
  | nil => cases member
  | cons first rest inductionHypothesis =>
      rw [List.findIdx?_cons, List.map_cons, List.idxOf_cons]
      by_cases same : first.id = card.id
      · simp [same]
      · have isLater : card ∈ rest := by
          rcases List.mem_cons.mp member with rfl | later
          · exact absurd rfl same
          · exact later
        have notFirst : (first.id == card.id) = false := by simpa using same
        simp [same, notFirst, inductionHypothesis isLater]

theorem stage_of_deal? (isCard : card ∈ target.deal?) : target.stage = card.stage := by
  cases target with
  | card deal => exact congrArg Deal.stage (Option.some.inj isCard)
  | lane stage => cases isCard

theorem length_le_filter_ne {ids : List Nat} (distinct : ids.Nodup) (id : Nat) :
    ids.length ≤ (ids.filter (· ≠ id)).length + 1 := by
  have isErase : ids.erase id = ids.filter (· ≠ id) := by
    rw [distinct.erase_eq_filter]
    apply List.filter_congr
    intro other _
    rw [Bool.eq_iff_iff]
    simp
  rw [← isErase, List.length_erase]
  split <;> omega

/-- Wherever an active deal is dropped on a board that shows the workspace, the
move that the board requests makes it lie there on the server. -/
theorem drag_lands (distinct : (table.map Deal.id).Nodup)
    (createdApart : ((table.filter fun row => row.organization = deal.organization).map
      Deal.createdAt).Nodup)
    (shows : Shows deal.organization table rows) (shown : deal ∈ rows)
    (targetShown : ∀ card ∈ target.deal?, card ∈ rows)
    (moved : dragEnd canMove rows (some deal) (some target) = .move id stage position) :
    Lands target deal.id ((laneOf deal.organization stage table).map Deal.id)
      ((laneOf deal.organization stage (afterMove deal stage position table)).map Deal.id) := by
  obtain ⟨-, isStage, notItself, isPosition⟩ := dragEnd_eq_move moved
  obtain ⟨stored, inside⟩ := List.mem_filter.mp (shows.perm.mem_iff.mp shown)
  have active : deal.IsActive := (of_decide_eq_true inside).2
  have lands := @map_id_laneOf_afterMove position table deal stage distinct createdApart stored
    active
  have others : (othersOf deal stage table).map Deal.id =
      ((laneOf deal.organization stage table).map Deal.id).filter (· ≠ deal.id) :=
    map_id_filter_ne _ _
  rw [laneDeals_eq shows distinct] at isPosition
  rw [lands]
  constructor
  case others => rw [filter_insertIdx_ne, List.filter_filter]; simp
  case onCard =>
    intro card isCard
    have inLane : card ∈ laneOf deal.organization stage table := by
      obtain ⟨isRow, isShown⟩ :=
        List.mem_filter.mp (shows.perm.mem_iff.mp (targetShown card isCard))
      refine mem_laneOf.mpr
        ⟨isRow, (of_decide_eq_true isShown).1, (of_decide_eq_true isShown).2, ?_⟩
      rw [isStage, stage_of_deal? isCard]
    have isIndex : position =
        ((laneOf deal.organization stage table).map Deal.id).idxOf card.id := by
      rw [isPosition, Over.position, Option.mem_def.mp isCard]
      dsimp only
      rw [findIdx?_eq_idxOf inLane, Option.getD_some]
    have isInside : position < ((laneOf deal.organization stage table).map Deal.id).length := by
      rw [isIndex]
      exact List.idxOf_lt_length_of_mem (List.mem_map_of_mem inLane)
    have distinctLane : ((laneOf deal.organization stage table).map Deal.id).Nodup :=
      (laneOf_perm.map Deal.id).nodup_iff.mpr
        (nodup_map_id_filter (nodup_map_id_filter distinct _) _)
    have almostAll := length_le_filter_ne distinctLane deal.id
    rw [← isIndex, ← List.length_map, others, min_eq_left (by omega), List.getElem?_insertIdx_self,
      if_pos (by omega)]
  case onLane =>
    intro noCard
    have isLast : position = (othersOf deal stage table).length := by
      rw [isPosition, Over.position, noCard]
      rfl
    rw [isLast, min_self, ← List.length_map, others, List.insertIdx_length_self]

/-- A lane of three deals. -/
def threeLeads : List Deal :=
  [dealIn 1 .lead 0, dealIn 2 .lead 1, dealIn 3 .lead 2]

/-- A deal that is dropped on one below it in its lane lies behind that one. -/
theorem drag_lands_below :
    Lands (.card (dealIn 2 .lead 1)) 1
      ((laneOf (dealIn 1 .lead 0).organization .lead threeLeads).map Deal.id)
      ((laneOf (dealIn 1 .lead 0).organization .lead
        (afterMove (dealIn 1 .lead 0) .lead 1 threeLeads)).map Deal.id) ∧
      (laneOf (dealIn 1 .lead 0).organization .lead
        (afterMove (dealIn 1 .lead 0) .lead 1 threeLeads)).map Deal.id = [2, 1, 3] :=
  ⟨@drag_lands 1 1 threeLeads threeLeads (dealIn 1 .lead 0) .lead (.card (dealIn 2 .lead 1)) true
    (by decide) (by decide) ⟨by decide, fun stage => by cases stage <;> decide⟩ (by decide)
    (by decide) rfl, by decide⟩

end BubllioCrm.Frontend
