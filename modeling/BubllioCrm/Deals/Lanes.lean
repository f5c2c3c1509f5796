import BubllioCrm.Deals.Services

/-!
Owns what the writes of requests leave of the table: which rows they change,
that a moved lane is numbered without duplicates, and which columns of a loaded
deal a write depends on.
-/

namespace BubllioCrm.Deals

open BubllioCrm.Foundations

variable {deals others destination : List Deal} {copy deal row after : Deal} {stage : Stage}
  {position : Nat} {changes : List (Nat × Nat)}

/-! ### Rows -/

theorem map_id_bulkUpdate : (bulkUpdate stage changes deals).map Deal.id = deals.map Deal.id := by
  unfold bulkUpdate
  rw [List.map_map]
  apply List.map_congr_left
  intro deal _
  simp only [Function.comp]
  split <;> rfl

theorem map_id_saveDeal : (saveDeal copy deals).map Deal.id = deals.map Deal.id :=
  map_updateWhere_of_mem fun _ _ same => same.symm

/-- Deals of a table with distinct ids. -/
theorem eq_of_id_eq (distinct : (deals.map Deal.id).Nodup) (first : row ∈ deals)
    (second : deal ∈ deals) (same : row.id = deal.id) : row = deal :=
  List.inj_on_of_nodup_map distinct first second same

theorem find_of_mem (distinct : (deals.map Deal.id).Nodup) (stored : row ∈ deals) :
    deals.find? (·.id = row.id) = some row := by
  cases found : deals.find? (·.id = row.id) with
  | none => simpa using List.find?_eq_none.mp found row stored
  | some other =>
      have same : other.id = row.id := by simpa using List.find?_some found
      rw [eq_of_id_eq distinct (List.mem_of_find?_eq_some found) stored same]

/-- A row after a bulk update has a new place in the lane, or is as it was. -/
theorem mem_bulkUpdate (member : after ∈ bulkUpdate stage changes deals) :
    ∃ before ∈ deals,
      (∃ index, (before.id, index) ∈ changes ∧
        after = { before with stage := stage, sortOrder := index }) ∨
      (∀ index, (before.id, index) ∉ changes) ∧ after = before := by
  obtain ⟨before, stored, becomes⟩ := List.mem_map.mp member
  refine ⟨before, stored, ?_⟩
  cases found : changes.find? (·.1 = before.id) with
  | none =>
      rw [found] at becomes
      refine Or.inr ⟨fun index isChange => ?_, becomes.symm⟩
      simpa using List.find?_eq_none.mp found (before.id, index) isChange
  | some change =>
      rw [found] at becomes
      have isBefore : change.1 = before.id := by simpa using List.find?_some found
      refine Or.inl ⟨change.2, ?_, becomes.symm⟩
      rw [← isBefore]
      exact List.mem_of_find?_eq_some found

/-! ### Lanes -/

theorem mem_lane : deal ∈ lane deals stage copy.id ↔
    deal ∈ deals ∧ deal.IsActive ∧ deal.stage = stage ∧ deal.id ≠ copy.id := by
  unfold lane
  rw [List.mem_insertionSort, List.mem_filter, decide_eq_true_eq]

theorem mem_place : deal ∈ place copy position others ↔ deal = copy ∨ deal ∈ others :=
  List.mem_insertIdx (Nat.min_le_right position others.length)

theorem mem_changed {id index : Nat} : (id, index) ∈ changed stage destination ↔
    ∃ item, destination[index]? = some item ∧ item.id = id ∧
      (item.stage ≠ stage ∨ item.sortOrder ≠ index) := by
  unfold changed
  simp only [List.mem_map, List.mem_filter, List.mem_zipIdx_iff_getElem?, Prod.mk.injEq,
    decide_eq_true_eq, Prod.exists]
  constructor
  · rintro ⟨item, place, ⟨found, differs⟩, same, rfl⟩
    exact ⟨item, found, same, differs⟩
  · rintro ⟨item, found, same, differs⟩
    exact ⟨item, index, ⟨found, differs⟩, same, rfl⟩

/-- The deal is where a move to this index of the lane puts it. -/
def Deal.StandsAt (deal : Deal) (stage : Stage) (index : Nat) : Prop :=
  deal.stage = stage ∧ deal.sortOrder = index

instance (deal : Deal) (stage : Stage) (index : Nat) : Decidable (deal.StandsAt stage index) :=
  inferInstanceAs (Decidable (_ ∧ _))

/-- A move to this index of the lane rewrites the row of both deals, or of neither. -/
structure SamePlace (stage : Stage) (index : Nat) (first second : Deal) : Prop where
  id : first.id = second.id
  stands : first.StandsAt stage index ↔ second.StandsAt stage index

instance (stage : Stage) (index : Nat) (first second : Deal) :
    Decidable (SamePlace stage index first second) :=
  decidable_of_iff (first.id = second.id ∧
    (first.StandsAt stage index ↔ second.StandsAt stage index))
      ⟨fun same => ⟨same.1, same.2⟩, fun same => ⟨same.id, same.stands⟩⟩

/-- The deals before and behind the place of a move. -/
theorem place_eq_append : place copy position others =
    others.take (min position others.length) ++
      copy :: others.drop (min position others.length) := by
  have split : ∀ (index : Nat) (rest : List Deal), index ≤ rest.length →
      rest.insertIdx index copy = rest.take index ++ copy :: rest.drop index := by
    intro index rest
    induction rest generalizing index with
    | nil =>
        intro atEnd
        rw [Nat.le_zero.mp atEnd]
        rfl
    | cons deal rest inductionHypothesis =>
        cases index with
        | zero => simp
        | succ index => simpa using inductionHypothesis index
  exact split _ _ (Nat.min_le_right _ _)

/-- What a move changes depends on the loaded deal only by whether it stands
where the move puts it. -/
theorem changed_place_congr (same : SamePlace stage (min position others.length) copy row) :
    changed stage (place copy position others) = changed stage (place row position others) := by
  have differs : ∀ deal : Deal, (deal.stage ≠ stage ∨
      deal.sortOrder ≠ min position others.length) ↔
        ¬ deal.StandsAt stage (min position others.length) := by
    intro deal
    rw [Deal.StandsAt, not_and_or]
  unfold changed
  rw [place_eq_append, place_eq_append, List.zipIdx_append, List.zipIdx_append, List.zipIdx_cons,
    List.zipIdx_cons, List.filter_append, List.filter_append, List.filter_cons, List.filter_cons,
    List.length_take_of_le (Nat.min_le_right _ _), Nat.zero_add]
  simp only [differs, same.stands, List.map_append]
  congr 1
  split_ifs
  · rw [List.map_cons, List.map_cons, same.id]
  · rfl

theorem moveDeal_congr (same : SamePlace stage (min position others.length) copy row) :
    moveDeal copy stage position others deals = moveDeal row stage position others deals := by
  unfold moveDeal
  rw [changed_place_congr same]

/-- A changed row is the moved deal or another deal of the lane. -/
theorem of_changed {index : Nat}
    (isChange : (row.id, index) ∈ changed stage (place copy position (lane deals stage copy.id))) :
    row.id = copy.id ∨ ∃ other ∈ deals, other.id = row.id ∧ other.stage = stage := by
  obtain ⟨item, found, same, -⟩ := mem_changed.mp isChange
  rcases mem_place.mp (List.mem_of_getElem? found) with rfl | inLane
  · exact Or.inl same.symm
  · obtain ⟨stored, -, isStage, -⟩ := mem_lane.mp inLane
    exact Or.inr ⟨item, stored, same, isStage⟩

/-- Behind a move, a deal of the lane is at its place. -/
theorem place_of_mem_moveDeal
    (fresh : ∀ row ∈ deals, row.id = copy.id →
      SamePlace stage (min position (lane deals stage copy.id).length) copy row)
    (member : after ∈ moveDeal copy stage position (lane deals stage copy.id) deals)
    (active : after.IsActive) (isStage : after.stage = stage) :
    ∃ item, (place copy position (lane deals stage copy.id))[after.sortOrder]? = some item ∧
      item.id = after.id := by
  obtain ⟨before, stored, ⟨index, isChange, rfl⟩ | ⟨unchanged, rfl⟩⟩ := mem_bulkUpdate member
  · obtain ⟨item, found, same, -⟩ := mem_changed.mp isChange
    exact ⟨item, found, same⟩
  · by_cases isMoved : after.id = copy.id
    · have found : (place copy position (lane deals stage copy.id))[min position
          (lane deals stage copy.id).length]? = some copy := by
        rw [place, List.getElem?_insertIdx_self, if_pos (Nat.min_le_right _ _)]
      have same := fresh after stored isMoved
      have stands : copy.StandsAt stage (min position (lane deals stage copy.id).length) := by
        by_contra elsewhere
        rw [Deal.StandsAt, not_and_or] at elsewhere
        exact unchanged _ (mem_changed.mpr ⟨copy, found, same.id, elsewhere⟩)
      rw [(same.stands.mp stands).2]
      exact ⟨copy, found, same.id⟩
    · have inLane : after ∈ place copy position (lane deals stage copy.id) :=
        mem_place.mpr (Or.inr (mem_lane.mpr ⟨stored, active, isStage, isMoved⟩))
      obtain ⟨index, found⟩ := List.mem_iff_getElem?.mp inLane
      have atPlace : after.sortOrder = index := by
        by_contra elsewhere
        exact unchanged index (mem_changed.mpr ⟨after, found, rfl, Or.inr elsewhere⟩)
      rw [atPlace]
      exact ⟨after, found, rfl⟩

/-- The positions of the active deals of a stage. -/
def sortOrders (stage : Stage) (deals : List Deal) : List Nat :=
  (deals.filter fun deal => deal.IsActive ∧ deal.stage = stage).map Deal.sortOrder

theorem nodup_sortOrders_moveDeal (distinct : (deals.map Deal.id).Nodup)
    (fresh : ∀ row ∈ deals, row.id = copy.id →
      SamePlace stage (min position (lane deals stage copy.id).length) copy row) :
    (sortOrders stage (moveDeal copy stage position (lane deals stage copy.id) deals)).Nodup := by
  have kept : ((moveDeal copy stage position (lane deals stage copy.id) deals).map
      Deal.id).Nodup := by
    unfold moveDeal
    rw [map_id_bulkUpdate]
    exact distinct
  apply List.Nodup.map_on
  · intro first firstMember second secondMember same
    simp only [List.mem_filter, decide_eq_true_eq] at firstMember secondMember
    obtain ⟨item, found, firstId⟩ := place_of_mem_moveDeal fresh firstMember.1
      firstMember.2.1 firstMember.2.2
    obtain ⟨other, otherFound, secondId⟩ := place_of_mem_moveDeal fresh secondMember.1
      secondMember.2.1 secondMember.2.2
    rw [same, otherFound] at found
    cases found
    exact eq_of_id_eq kept firstMember.1 secondMember.1 (firstId.symm.trans secondId)
  · exact (List.Nodup.of_map _ kept).filter _

/-- A change that puts no deal into a lane and renumbers none of its deals. -/
theorem sortOrders_map_sublist {change : Deal → Deal}
    (leaves : ∀ deal ∈ deals, (change deal).IsActive → (change deal).stage = stage →
      deal.IsActive ∧ deal.stage = stage ∧ (change deal).sortOrder = deal.sortOrder) :
    (sortOrders stage (deals.map change)).Sublist (sortOrders stage deals) := by
  unfold sortOrders
  induction deals with
  | nil => exact List.Sublist.refl _
  | cons deal rest inductionHypothesis =>
      rw [List.forall_mem_cons] at leaves
      have others := inductionHypothesis leaves.2
      rw [List.map_cons]
      by_cases inLane : (change deal).IsActive ∧ (change deal).stage = stage
      · obtain ⟨active, isStage, same⟩ := leaves.1 inLane.1 inLane.2
        rw [List.filter_cons_of_pos (by simpa using inLane),
          List.filter_cons_of_pos (by simpa using ⟨active, isStage⟩), List.map_cons,
          List.map_cons, same]
        exact others.cons_cons _
      · rw [List.filter_cons_of_neg (by simpa using inLane)]
        apply others.trans
        rw [List.filter_cons]
        split_ifs
        · exact (List.sublist_cons_self _ _).map _
        · exact List.Sublist.refl _

theorem sortOrders_moveDeal_sublist {other : Stage} (elsewhere : other ≠ stage) :
    (sortOrders stage (moveDeal copy other position others deals)).Sublist
      (sortOrders stage deals) := by
  apply sortOrders_map_sublist
  intro deal _
  split
  · exact fun _ isStage => absurd isStage elsewhere
  · exact fun active isStage => ⟨active, isStage, rfl⟩

theorem sortOrders_saveDeal_sublist {attrs : DealAttrs} (elsewhere : attrs.stage ≠ some stage)
    (onlyRow : ∀ deal ∈ deals, deal.id = row.id → deal = row) :
    (sortOrders stage (saveDeal (attrs.setOn row) deals)).Sublist (sortOrders stage deals) := by
  apply sortOrders_map_sublist
  intro deal stored
  dsimp only
  split_ifs with same
  · rw [onlyRow deal stored same]
    intro active isStage
    refine ⟨active, ?_, rfl⟩
    cases named : attrs.stage with
    | none => simpa [DealAttrs.setOn, named] using isStage
    | some other =>
        have isOther : other = stage := by simpa [DealAttrs.setOn, named] using isStage
        exact absurd (named.trans (congrArg some isOther)) elsewhere
  · exact fun active isStage => ⟨active, isStage, rfl⟩

end BubllioCrm.Deals
