import BubllioCrm.Deals.Lanes

/-!
Owns the list of deals that `useMoveDeal` writes to the cache before the server
answers a move, and when the board shows the lanes that `move_deal` leaves.

The server lists deals by `sort_order`, `created_at` and `id` in each lane. The
client reads a lane by `sort_order`, with ties in the order of the list.
-/

namespace BubllioCrm.Frontend

open BubllioCrm.Deals

variable {cached table : List Deal} {moving deal row : Deal} {stage shown : Stage}
  {position : Nat} {stageFilter : Option Stage}

/-! ### The client -/

/-- `(a, b) => a.sort_order - b.sort_order`. -/
def BySortOrder (first second : Deal) : Prop :=
  first.sortOrder ≤ second.sortOrder

instance : DecidableRel BySortOrder :=
  fun first second => inferInstanceAs (Decidable (first.sortOrder ≤ second.sortOrder))

/-- `new Map(destination.map((deal, index) => [deal.id, index]))`, where a later
entry replaces an earlier one. -/
def positions (destination : List Deal) (id : Nat) : Option Nat :=
  (destination.zipIdx.reverse.find? (·.1.id = id)).map Prod.snd

/-- The stage filter of the list excludes the destination. -/
def Excludes (stageFilter : Option Stage) (stage : Stage) : Prop :=
  ∃ filtered ∈ stageFilter, filtered ≠ stage

instance (stageFilter : Option Stage) (stage : Stage) : Decidable (Excludes stageFilter stage) :=
  inferInstanceAs (Decidable (∃ filtered ∈ stageFilter, _))

/-- The destination lane with the moved deal in it. -/
def destination (stage : Stage) (position : Nat) (moving : Deal) (others : List Deal) :
    List Deal :=
  place { moving with stage := stage } position
    ((others.filter fun deal => deal.stage = stage).insertionSort BySortOrder)

/-- What `onMutate` writes for a cached list. -/
def onMutate (stageFilter : Option Stage) (id : Nat) (stage : Stage) (position : Nat)
    (previous : List Deal) : List Deal :=
  match previous.find? (·.id = id) with
  | none => previous
  | some moving =>
      let others := previous.filter fun deal => deal.id ≠ id
      if Excludes stageFilter stage then others
      else
        let destination := destination stage position moving others
        others ++ destination.map fun deal =>
          { deal with sortOrder := (positions destination deal.id).getD deal.sortOrder }

/-- `laneDeals` of the board. -/
def laneDeals (rows : List Deal) (stage : Stage) : List Deal :=
  (rows.filter fun deal => deal.stage = stage).insertionSort BySortOrder

/-! ### The server -/

/-- `order_by("stage", "sort_order", "created_at", "id")` within a stage. -/
def ListedBefore (first second : Deal) : Prop :=
  first.sortOrder < second.sortOrder ∨ first.sortOrder = second.sortOrder ∧
    (first.createdAt < second.createdAt ∨
      first.createdAt = second.createdAt ∧ first.id ≤ second.id)

instance : DecidableRel ListedBefore :=
  fun _ _ => inferInstanceAs (Decidable (_ ∨ _ ∧ (_ ∨ _)))

instance : Std.Total ListedBefore :=
  ⟨fun first second => by unfold ListedBefore; omega⟩

instance : IsTrans Deal ListedBefore :=
  ⟨fun first second third => by unfold ListedBefore; omega⟩

/-- A lane as the list view shows it. -/
def listedLane (table : List Deal) (stage : Stage) : List Deal :=
  (table.filter fun deal => deal.IsActive ∧ deal.stage = stage).insertionSort ListedBefore

/-- The table after `move_deal`. -/
def movedTable (moving : Deal) (stage : Stage) (position : Nat) (table : List Deal) : List Deal :=
  moveDeal moving stage position (lane table stage moving.id) table

/-! ### Agreement -/

/-- Every deal is there once, except for a moved deal that the filter excludes. -/
def EachOnce (stageFilter : Option Stage) (stage : Stage) (moving : Deal)
    (cached written : List Deal) : Prop :=
  (written.map Deal.id).Perm (if Excludes stageFilter stage then
    (cached.map Deal.id).filter (· ≠ moving.id) else cached.map Deal.id)

/-- The board shows the lanes of the server. -/
def SameLanes (written table : List Deal) : Prop :=
  ∀ stage, (laneDeals written stage).map Deal.id = (listedLane table stage).map Deal.id

/-- The list that a move writes has every deal once, and shows the lanes of the
server if it has all active deals. -/
def Agrees (stageFilter : Option Stage) (stage : Stage) (position : Nat) (moving : Deal)
    (cached table : List Deal) : Prop :=
  EachOnce stageFilter stage moving cached
      (onMutate stageFilter moving.id stage position cached) ∧
    (stageFilter = none → cached.Perm (table.filter fun deal => deal.IsActive) →
      SameLanes (onMutate stageFilter moving.id stage position cached)
        (movedTable moving stage position table))

/-! ### Every deal once -/

/-- No other deal of the list is in the destination lane. -/
def Alone (cached : List Deal) (stage : Stage) (moving : Deal) : Prop :=
  ∀ deal ∈ cached, deal.stage = stage → deal.id = moving.id

instance (cached : List Deal) (stage : Stage) (moving : Deal) :
    Decidable (Alone cached stage moving) :=
  inferInstanceAs (Decidable (∀ deal ∈ _, _))

def others (cached : List Deal) (moving : Deal) : List Deal :=
  cached.filter fun deal => deal.id ≠ moving.id

theorem onMutate_eq (distinct : (cached.map Deal.id).Nodup) (member : moving ∈ cached) :
    onMutate stageFilter moving.id stage position cached =
      if Excludes stageFilter stage then others cached moving
      else
        others cached moving ++
          (destination stage position moving (others cached moving)).map fun deal =>
            { deal with
              sortOrder := (positions (destination stage position moving (others cached moving))
                deal.id).getD deal.sortOrder } := by
  unfold onMutate
  rw [find_of_mem distinct member]
  rfl

theorem map_id_others : (others cached moving).map Deal.id =
    (cached.map Deal.id).filter (· ≠ moving.id) := by
  unfold others
  rw [List.filter_map]
  rfl

/-- The moved deal and the others are the list. -/
theorem perm_others (distinct : (cached.map Deal.id).Nodup) (member : moving ∈ cached) :
    (moving.id :: (others cached moving).map Deal.id).Perm (cached.map Deal.id) := by
  have isMember : moving.id ∈ cached.map Deal.id := List.mem_map_of_mem member
  rw [map_id_others]
  have erased : (cached.map Deal.id).filter (· ≠ moving.id) =
      (cached.map Deal.id).erase moving.id := by
    rw [distinct.erase_eq_filter]
    exact List.filter_congr fun id _ => Bool.eq_iff_iff.mpr (by simp)
  rw [erased]
  exact (List.perm_cons_erase isMember).symm

theorem length_destination : (destination stage position moving (others cached moving)).length =
    ((others cached moving).filter fun deal => deal.stage = stage).length + 1 := by
  unfold destination place
  rw [List.length_insertIdx_of_le_length (Nat.min_le_right _ _), List.length_insertionSort]

theorem filter_others_eq_nil :
    ((others cached moving).filter fun deal => deal.stage = stage) = [] ↔
      Alone cached stage moving := by
  unfold others Alone
  simp only [List.filter_filter, List.filter_eq_nil_iff, Bool.and_eq_true, decide_eq_true_eq]
  constructor
  · intro none deal isMember isStage
    by_contra differs
    exact none deal isMember ⟨isStage, differs⟩
  · rintro alone deal isMember ⟨isStage, differs⟩
    exact differs (alone deal isMember isStage)

theorem place_nil : place deal position [] = [deal] := by
  unfold place
  rw [List.length_nil, Nat.min_zero]
  rfl

theorem destination_alone
    (alone : ((others cached moving).filter fun deal => deal.stage = stage) = []) :
    destination stage position moving (others cached moving) =
      [{ moving with stage := stage }] := by
  unfold destination
  rw [alone]
  exact place_nil

/-- Deals of the destination lane that are there already are written twice. -/
theorem eachOnce_iff (distinct : (cached.map Deal.id).Nodup) (member : moving ∈ cached) :
    EachOnce stageFilter stage moving cached
        (onMutate stageFilter moving.id stage position cached) ↔
      Excludes stageFilter stage ∨ Alone cached stage moving := by
  unfold EachOnce
  rw [onMutate_eq distinct member]
  by_cases excluded : Excludes stageFilter stage
  · rw [if_pos excluded, if_pos excluded, map_id_others]
    exact iff_of_true (List.Perm.refl _) (Or.inl excluded)
  · rw [if_neg excluded, if_neg excluded, or_iff_right excluded, ← filter_others_eq_nil]
    have whole := perm_others distinct member
    constructor
    · intro same
      have lengths := same.length_eq.trans whole.length_eq.symm
      simp only [List.length_map, List.length_append, List.length_cons, length_destination]
        at lengths
      apply List.eq_nil_of_length_eq_zero
      omega
    · intro alone
      rw [destination_alone alone, List.map_append, List.map_singleton, List.map_singleton]
      exact List.perm_append_comm.trans whole

/-! ### A deal that has the lane to itself -/

section Lanes

variable (same : cached.Perm (table.filter fun deal => deal.IsActive))
  (distinct : (cached.map Deal.id).Nodup) (member : moving ∈ cached)
  (alone : Alone cached stage moving)

include same alone in
theorem lane_alone : lane table stage moving.id = [] := by
  rw [List.eq_nil_iff_forall_not_mem]
  intro deal inLane
  obtain ⟨stored, active, isStage, differs⟩ := mem_lane.mp inLane
  have isCached : deal ∈ cached :=
    same.mem_iff.mpr (List.mem_filter.mpr ⟨stored, decide_eq_true active⟩)
  exact differs (alone deal isCached isStage)

/-- What the move makes of a row. -/
def movedRow (moving : Deal) (stage : Stage) (row : Deal) : Deal :=
  match (changed stage [moving]).find? (·.1 = row.id) with
  | some change => { row with stage := stage, sortOrder := change.2 }
  | none => row

include same alone in
theorem movedTable_alone :
    movedTable moving stage position table = table.map (movedRow moving stage) := by
  unfold movedTable moveDeal bulkUpdate
  rw [lane_alone same alone, place_nil]
  rfl

theorem movedRow_other (differs : row.id ≠ moving.id) : movedRow moving stage row = row := by
  have missing : (changed stage [moving]).find? (·.1 = row.id) = none := by
    rw [List.find?_eq_none]
    rintro ⟨id, index⟩ isChange isRow
    obtain ⟨item, found, isItem, -⟩ := mem_changed.mp isChange
    have isMoving : item = moving := List.mem_singleton.mp (List.mem_of_getElem? found)
    rw [isMoving] at isItem
    exact differs ((of_decide_eq_true isRow).symm.trans isItem.symm)
  unfold movedRow
  rw [missing]

theorem stage_movedRow : (movedRow moving stage moving).stage = stage := by
  unfold movedRow
  cases found : (changed stage [moving]).find? (·.1 = moving.id) with
  | some change => rfl
  | none =>
      by_contra elsewhere
      have isChange : (moving.id, 0) ∈ changed stage [moving] :=
        mem_changed.mpr ⟨moving, rfl, rfl, Or.inl elsewhere⟩
      exact List.find?_eq_none.mp found _ isChange (decide_eq_true rfl)

theorem id_movedRow : (movedRow moving stage row).id = row.id := by
  unfold movedRow
  split <;> rfl

theorem isActive_movedRow : (movedRow moving stage row).IsActive ↔ row.IsActive := by
  unfold movedRow
  split <;> rfl

include same distinct member in
/-- The stage of an active row after the move. -/
theorem stage_of_movedRow (stored : row ∈ table) (active : row.IsActive) :
    (movedRow moving stage row).stage = if row.id = moving.id then stage else row.stage := by
  have isCached : row ∈ cached :=
    same.mem_iff.mpr (List.mem_filter.mpr ⟨stored, decide_eq_true active⟩)
  split_ifs with isMoving
  · rw [eq_of_id_eq distinct isCached member isMoving]
    exact stage_movedRow
  · rw [movedRow_other isMoving]

include same distinct member in
/-- The other lanes lose the moved deal at most. -/
theorem filter_moved_elsewhere (elsewhere : shown ≠ stage) :
    ((table.map (movedRow moving stage)).filter fun deal =>
        deal.IsActive ∧ deal.stage = shown).Perm
      ((others cached moving).filter fun deal => deal.stage = shown) := by
  have rows : ((table.map (movedRow moving stage)).filter fun deal =>
        deal.IsActive ∧ deal.stage = shown) =
      ((table.filter fun deal => deal.IsActive).filter fun deal => deal.id ≠ moving.id).filter
        fun deal => deal.stage = shown := by
    rw [List.filter_map, List.filter_filter, List.filter_filter]
    have selected : table.filter ((fun deal => decide (deal.IsActive ∧ deal.stage = shown)) ∘
        movedRow moving stage) = table.filter fun deal =>
          (decide (deal.stage = shown) && decide (deal.id ≠ moving.id)) &&
            decide deal.IsActive := by
      apply List.filter_congr
      intro row stored
      rw [Function.comp_apply, Bool.eq_iff_iff]
      simp only [Bool.and_eq_true, decide_eq_true_eq, isActive_movedRow]
      by_cases active : row.IsActive
      · rw [stage_of_movedRow same distinct member stored active]
        split_ifs with isMoving
        · simp [isMoving, elsewhere.symm]
        · simp [isMoving, active]
      · simp [active]
    rw [selected, List.map_congr_left (g := id)]
    · rw [List.map_id]
    · intro row isSelected
      have isOther := (List.mem_filter.mp isSelected).2
      simp only [Bool.and_eq_true, decide_eq_true_eq] at isOther
      exact movedRow_other isOther.1.2
  rw [rows]
  exact ((same.filter _).filter _).symm

include same distinct member alone in
/-- The destination lane has the moved deal only. -/
theorem filter_moved_destination :
    (((table.map (movedRow moving stage)).filter fun deal =>
      deal.IsActive ∧ deal.stage = stage).map Deal.id).Perm [moving.id] := by
  have selected : table.filter ((fun deal => decide (deal.IsActive ∧ deal.stage = stage)) ∘
      movedRow moving stage) = (table.filter fun deal => deal.IsActive).filter fun deal =>
        deal.id = moving.id := by
    rw [List.filter_filter]
    apply List.filter_congr
    intro row stored
    rw [Function.comp_apply, Bool.eq_iff_iff]
    simp only [Bool.and_eq_true, decide_eq_true_eq, isActive_movedRow]
    by_cases active : row.IsActive
    · rw [stage_of_movedRow same distinct member stored active]
      have isCached : row ∈ cached :=
        same.mem_iff.mpr (List.mem_filter.mpr ⟨stored, decide_eq_true active⟩)
      split_ifs with isMoving
      · simp [isMoving, active]
      · simp only [isMoving, active, true_and, false_and, iff_false]
        exact fun isStage => isMoving (alone row isCached isStage)
    · simp [active]
  have ids : Deal.id ∘ movedRow moving stage = Deal.id := funext fun _ => id_movedRow
  have single : (cached.filter fun deal => deal.id = moving.id).map Deal.id = [moving.id] := by
    have filtered : (cached.filter fun deal => deal.id = moving.id).map Deal.id =
        (cached.map Deal.id).filter fun id => id = moving.id := by
      rw [List.filter_map]
      rfl
    rw [filtered, List.filter_eq,
      List.count_eq_one_of_mem distinct (List.mem_map_of_mem member)]
    rfl
  rw [List.filter_map, selected, List.map_map, ids, ← single]
  exact ((same.filter _).map _).symm

include same distinct member alone in
/-- The board shows the lanes that the move leaves. -/
theorem sameLanes_alone
    (asListed : ∀ stage, (cached.filter fun deal => deal.stage = stage).Pairwise ListedBefore)
    {written : Deal} (isMoving : written.id = moving.id) (isStage : written.stage = stage) :
    SameLanes (others cached moving ++ [written])
      (movedTable moving stage position table) := by
  have noOthers := filter_others_eq_nil.mpr alone
  intro shown
  unfold laneDeals listedLane
  rw [movedTable_alone same alone, List.filter_append]
  by_cases isShown : shown = stage
  · have listed := (List.perm_insertionSort ListedBefore
      ((table.map (movedRow moving stage)).filter fun deal =>
        deal.IsActive ∧ deal.stage = stage)).map Deal.id
    have server := List.perm_singleton.mp
      (listed.trans (filter_moved_destination same distinct member alone))
    rw [isShown, server, noOthers, List.nil_append, List.filter_singleton, isStage,
      decide_eq_true rfl]
    exact congrArg List.singleton isMoving
  · have notWritten : [written].filter (fun deal => deal.stage = shown) = [] := by
      rw [List.filter_singleton, isStage, decide_eq_false (Ne.symm isShown)]
      rfl
    have sorted : ((others cached moving).filter fun deal => deal.stage = shown).Pairwise
        ListedBefore := by
      have sublist : ((others cached moving).filter fun deal => deal.stage = shown).Sublist
          (cached.filter fun deal => deal.stage = shown) :=
        List.filter_sublist.filter _
      exact (asListed shown).sublist sublist
    have bySortOrder : ((others cached moving).filter fun deal => deal.stage = shown).Pairwise
        BySortOrder := by
      refine sorted.imp fun before => ?_
      unfold ListedBefore at before
      unfold BySortOrder
      omega
    have server : ((table.map (movedRow moving stage)).filter fun deal =>
        deal.IsActive ∧ deal.stage = shown).insertionSort ListedBefore =
          (others cached moving).filter fun deal => deal.stage = shown := by
      have perm := (List.perm_insertionSort ListedBefore _).trans
        (filter_moved_elsewhere same distinct member isShown)
      apply perm.eq_of_pairwise ?_ (List.pairwise_insertionSort ListedBefore _) sorted
      intro first second firstMember secondMember before after
      have ids : first.id = second.id := by
        unfold ListedBefore at before after
        omega
      have firstCached :=
        List.mem_of_mem_filter (List.mem_of_mem_filter (perm.mem_iff.mp firstMember))
      have secondCached := List.mem_of_mem_filter (List.mem_of_mem_filter secondMember)
      exact eq_of_id_eq distinct firstCached secondCached ids
    rw [server, notWritten, List.append_nil, bySortOrder.insertionSort_eq]

end Lanes

/-- What the client writes for a move agrees with the server exactly where the
filter excludes the destination or the moved deal has it to itself: other deals
of the destination are written twice. -/
theorem move_agrees_iff (distinct : (cached.map Deal.id).Nodup)
    (asListed : ∀ stage, (cached.filter fun deal => deal.stage = stage).Pairwise ListedBefore)
    (member : moving ∈ cached) :
    Agrees stageFilter stage position moving cached table ↔
      Excludes stageFilter stage ∨ Alone cached stage moving := by
  unfold Agrees
  rw [eachOnce_iff distinct member]
  apply and_iff_left_of_imp
  intro holds isUnfiltered same
  rcases holds with excluded | alone
  · rw [isUnfiltered] at excluded
    obtain ⟨filtered, isFiltered, -⟩ := excluded
    cases isFiltered
  · have notExcluded : ¬ Excludes stageFilter stage := by
      rw [isUnfiltered]
      rintro ⟨filtered, isFiltered, -⟩
      cases isFiltered
    rw [onMutate_eq distinct member, if_neg notExcluded,
      destination_alone (filter_others_eq_nil.mpr alone)]
    exact sameLanes_alone same distinct member alone asListed rfl rfl

def dealIn (id : Nat) (stage : Stage) (sortOrder : Nat) : Deal where
  id := id
  organization := 1
  company := 2
  title := "Renewal"
  stage := stage
  sortOrder := sortOrder
  createdAt := 100 + id

/-- A first deal goes into a lane. -/
theorem move_agrees_first :
    Agrees none .proposal 0 (dealIn 1 .lead 0) [dealIn 1 .lead 0, dealIn 2 .lead 1]
      [dealIn 2 .lead 1, dealIn 1 .lead 0] :=
  (move_agrees_iff (by decide) (fun stage => by cases stage <;> decide) (by decide)).mpr
    (by decide)

/-- A deal goes before another one, which the board then shows twice. -/
theorem move_not_always_agrees : ¬ ∀ (cached table : List Deal) (moving : Deal),
    (cached.map Deal.id).Nodup →
    (∀ stage, (cached.filter fun deal => deal.stage = stage).Pairwise ListedBefore) →
    moving ∈ cached → ∀ stageFilter stage position,
      Agrees stageFilter stage position moving cached table := by
  intro always
  have agrees := always [dealIn 1 .lead 0, dealIn 2 .proposal 0]
    [dealIn 1 .lead 0, dealIn 2 .proposal 0] (dealIn 1 .lead 0) (by decide)
    (fun stage => by cases stage <;> decide) (by decide) none .proposal 0
  have once := agrees.1
  revert once
  unfold EachOnce
  decide

end BubllioCrm.Frontend
