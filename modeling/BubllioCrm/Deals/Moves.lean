import BubllioCrm.Frontend.MoveDeal

/-!
Owns what one move leaves of the deals of all workspaces: the destination lane
with the deal inserted, every other lane, and the columns of each row.

Rows are compared place by place, so a table that keeps its rows neither loses
nor repeats a deal.
-/

namespace BubllioCrm.Deals

open BubllioCrm.Frontend

variable {table rows first second : List Deal} {deal row old new : Deal} {stage shown : Stage}
  {organization position index : Nat}

/-! ### Lanes of a workspace -/

/-- A lane of a workspace in the order of its list view. -/
def laneOf (organization : Nat) (stage : Stage) (table : List Deal) : List Deal :=
  listedLane (table.filter fun row => row.organization = organization) stage

/-- A lane of the workspace of a deal without the deal. -/
def othersOf (deal : Deal) (stage : Stage) (table : List Deal) : List Deal :=
  (laneOf deal.organization stage table).filter fun row => row.id ≠ deal.id

/-- The list `destination` of `move_deal` with the deal in it. -/
def destinationOf (deal : Deal) (stage : Stage) (position : Nat) (table : List Deal) :
    List Deal :=
  place deal position
    (lane (table.filter fun row => row.organization = deal.organization) stage deal.id)

/-- The table after `move_deal`. -/
def afterMove (deal : Deal) (stage : Stage) (position : Nat) (table : List Deal) : List Deal :=
  moveDeal deal stage position
    (lane (table.filter fun row => row.organization = deal.organization) stage deal.id) table

/-- The row keeps every column but its place in a lane, and in another workspace
or in the archive that one too. -/
structure Keeps (organization : Nat) (old new : Deal) : Prop where
  columns : new = { old with stage := new.stage, sortOrder := new.sortOrder }
  untouched : old.organization ≠ organization ∨ ¬ old.IsActive → new = old

/-- The move puts the deal at its place in the destination and leaves the rest
of the table as it was. -/
structure Inserts (deal : Deal) (stage : Stage) (position : Nat) (table after : List Deal) :
    Prop where
  destination : (laneOf deal.organization stage after).map Deal.id =
    ((othersOf deal stage table).map Deal.id).insertIdx
      (min position (othersOf deal stage table).length) deal.id
  numbered : (laneOf deal.organization stage after).map Deal.sortOrder =
    List.range (laneOf deal.organization stage after).length
  source : deal.stage ≠ stage →
    laneOf deal.organization deal.stage after = othersOf deal deal.stage table
  elsewhere : ∀ organization shown,
    organization ≠ deal.organization ∨ shown ≠ stage ∧ shown ≠ deal.stage →
      laneOf organization shown after = laneOf organization shown table
  rows : List.Forall₂ (Keeps deal.organization) table after

/-! ### Sorted lists of distinct deals -/

instance : Std.Total Deal.Before :=
  ⟨fun first second => by unfold Deal.Before; omega⟩

instance : IsTrans Deal Deal.Before :=
  ⟨fun first second third => by unfold Deal.Before; omega⟩

theorem mem_laneOf : row ∈ laneOf organization stage table ↔
    row ∈ table ∧ row.organization = organization ∧ row.IsActive ∧ row.stage = stage := by
  unfold laneOf listedLane
  rw [List.mem_insertionSort, List.mem_filter, List.mem_filter, decide_eq_true_eq,
    decide_eq_true_eq, and_assoc]

/-- Deals of different ids have one order in the list view. -/
theorem eq_of_listed (distinct : (rows.map Deal.id).Nodup) (firstRows : first.Perm rows)
    (secondRows : second.Perm rows) (firstListed : first.Pairwise ListedBefore)
    (secondListed : second.Pairwise ListedBefore) : first = second := by
  apply (firstRows.trans secondRows.symm).eq_of_pairwise ?_ firstListed secondListed
  intro before after beforeMember afterMember one other
  have sameId : before.id = after.id := by
    unfold ListedBefore at one other
    omega
  exact eq_of_id_eq distinct (firstRows.mem_iff.mp beforeMember)
    (secondRows.mem_iff.mp afterMember) sameId

theorem nodup_map_id_filter (distinct : (table.map Deal.id).Nodup) (keep : Deal → Bool) :
    ((table.filter keep).map Deal.id).Nodup :=
  distinct.sublist (List.filter_sublist.map _)

theorem laneOf_perm : (laneOf organization stage table).Perm
    ((table.filter fun row => row.organization = organization).filter fun row =>
      row.IsActive ∧ row.stage = stage) :=
  List.perm_insertionSort _ _

theorem laneOf_listed : (laneOf organization stage table).Pairwise ListedBefore :=
  List.pairwise_insertionSort _ _

/-- What is selected from a lane is sorted as the lane is. -/
theorem laneOf_filter (distinct : (table.map Deal.id).Nodup) (keep : Deal → Bool) :
    laneOf organization stage (table.filter keep) =
      (laneOf organization stage table).filter keep := by
  have sameRows : (((table.filter keep).filter fun row => row.organization = organization).filter
        fun row => row.IsActive ∧ row.stage = stage) =
      ((table.filter fun row => row.organization = organization).filter fun row =>
        row.IsActive ∧ row.stage = stage).filter keep := by
    rw [List.filter_filter, List.filter_filter, List.filter_filter, List.filter_filter]
    apply List.filter_congr
    intro row _
    ac_rfl
  have distinctRows := nodup_map_id_filter (nodup_map_id_filter (nodup_map_id_filter distinct
    (fun row => row.organization = organization)) fun row => row.IsActive ∧ row.stage = stage) keep
  exact eq_of_listed distinctRows (sameRows ▸ laneOf_perm) (laneOf_perm.filter keep) laneOf_listed
    (laneOf_listed.filter keep)

/-! ### The destination -/

theorem mem_destinationOf : row ∈ destinationOf deal stage position table ↔
    row = deal ∨ row ∈ table ∧ row.organization = deal.organization ∧ row.IsActive ∧
      row.stage = stage ∧ row.id ≠ deal.id := by
  unfold destinationOf
  rw [mem_place, mem_lane, List.mem_filter, decide_eq_true_eq, and_assoc]

section Destination

variable (distinct : (table.map Deal.id).Nodup) (stored : deal ∈ table) (active : deal.IsActive)

include stored active in
/-- The destination has active deals of the workspace only. -/
theorem stored_of_mem_destinationOf (member : row ∈ destinationOf deal stage position table) :
    row ∈ table ∧ row.organization = deal.organization ∧ row.IsActive := by
  rcases mem_destinationOf.mp member with isDeal | ⟨isRow, same, isActive, -⟩
  · rw [isDeal]
    exact ⟨stored, rfl, active⟩
  · exact ⟨isRow, same, isActive⟩

include distinct in
theorem nodup_destinationOf : ((destinationOf deal stage position table).map Deal.id).Nodup := by
  have perm : (destinationOf deal stage position table).Perm
      (deal :: lane (table.filter fun row => row.organization = deal.organization) stage
        deal.id) := by
    unfold destinationOf place
    exact List.perm_insertIdx _ _ (Nat.min_le_right _ _)
  have laneRows := List.perm_insertionSort Deal.Before
    ((table.filter fun row => row.organization = deal.organization).filter fun row =>
      row.IsActive ∧ row.stage = stage ∧ row.id ≠ deal.id)
  rw [(perm.map Deal.id).nodup_iff, List.map_cons, List.nodup_cons]
  constructor
  · intro repeated
    obtain ⟨other, inLane, sameId⟩ := List.mem_map.mp repeated
    exact (mem_lane.mp inLane).2.2.2 sameId
  · exact (laneRows.map Deal.id).nodup_iff.mpr
      (nodup_map_id_filter (nodup_map_id_filter distinct _) _)

include distinct stored active in
theorem perm_destinationOf :
    (table.filter fun row => row ∈ destinationOf deal stage position table).Perm
      (destinationOf deal stage position table) := by
  have distinctRows : table.Nodup := List.Nodup.of_map _ distinct
  rw [List.perm_ext_iff_of_nodup (distinctRows.filter _)
    (List.Nodup.of_map _ (nodup_destinationOf distinct))]
  intro row
  rw [List.mem_filter, decide_eq_true_eq]
  exact ⟨And.right, fun member =>
    ⟨(stored_of_mem_destinationOf stored active member).1, member⟩⟩

end Destination

/-! ### Renumbering -/

/-- What `bulk_update` makes of a row. -/
def renumbered (stage : Stage) (destination : List Deal) (row : Deal) : Deal :=
  match (changed stage destination).find? (·.1 = row.id) with
  | some change => { row with stage := stage, sortOrder := change.2 }
  | none => row

theorem afterMove_eq : afterMove deal stage position table =
    table.map (renumbered stage (destinationOf deal stage position table)) := rfl

/-- A deal of the destination gets its index there, written or not. -/
theorem renumbered_of_getElem? {destination : List Deal}
    (distinct : (destination.map Deal.id).Nodup) (found : destination[index]? = some row) :
    renumbered stage destination row = { row with stage := stage, sortOrder := index } := by
  unfold renumbered
  cases isChange : (changed stage destination).find? (·.1 = row.id) with
  | some change =>
      have isRow : change.1 = row.id := by simpa using List.find?_some isChange
      obtain ⟨item, itemFound, isItem, -⟩ := mem_changed.mp (List.mem_of_find?_eq_some isChange)
      have first : (destination.map Deal.id)[change.2]? = some row.id := by
        rw [List.getElem?_map, itemFound, Option.map_some, isItem, isRow]
      have second : (destination.map Deal.id)[index]? = some row.id := by
        rw [List.getElem?_map, found, Option.map_some]
      have inside := (List.getElem?_eq_some_iff.mp first).1
      have sameIndex : change.2 = index :=
        (List.getElem?_inj inside distinct).mp (first.trans second.symm)
      show { row with stage := stage, sortOrder := change.2 } = _
      rw [sameIndex]
  | none =>
      have inPlace : row.stage = stage ∧ row.sortOrder = index := by
        by_contra differs
        have written : (row.id, index) ∈ changed stage destination :=
          mem_changed.mpr ⟨row, found, rfl, not_and_or.mp differs⟩
        simpa using List.find?_eq_none.mp isChange _ written
      rw [← inPlace.1, ← inPlace.2]

theorem renumbered_of_not_mem {destination : List Deal}
    (absent : ∀ item ∈ destination, item.id ≠ row.id) : renumbered stage destination row = row := by
  have missing : (changed stage destination).find? (·.1 = row.id) = none := by
    rw [List.find?_eq_none]
    intro change isChange isRow
    obtain ⟨item, found, isItem, -⟩ := mem_changed.mp isChange
    exact absent item (List.mem_of_getElem? found) (isItem.trans (of_decide_eq_true isRow))
  unfold renumbered
  rw [missing]

theorem renumbered_columns {destination : List Deal} :
    renumbered stage destination row =
      { row with
        stage := (renumbered stage destination row).stage
        sortOrder := (renumbered stage destination row).sortOrder } := by
  unfold renumbered
  split <;> rfl

/-- A lane with its indices for positions. -/
def indexed (stage : Stage) (rows : List Deal) : List Deal :=
  rows.mapIdx fun index row => { row with stage := stage, sortOrder := index }

theorem map_id_indexed : (indexed stage rows).map Deal.id = rows.map Deal.id := by
  apply List.ext_getElem?
  intro index
  rw [indexed, List.getElem?_map, List.getElem?_mapIdx, List.getElem?_map, Option.map_map]
  rfl

theorem map_sortOrder_indexed : (indexed stage rows).map Deal.sortOrder =
    List.range rows.length := by
  apply List.ext_getElem
  · rw [indexed, List.length_map, List.length_mapIdx, List.length_range]
  · intro index inside bound
    rw [List.getElem_map, List.getElem_range]
    simp only [indexed, List.getElem_mapIdx]

theorem indexed_listed : (indexed stage rows).Pairwise ListedBefore := by
  rw [List.pairwise_iff_getElem]
  intro first second firstInside secondInside before
  simp only [indexed, List.getElem_mapIdx]
  exact Or.inl before

/-- The destination with its indices written. -/
theorem map_renumbered {destination : List Deal} (distinct : (destination.map Deal.id).Nodup) :
    destination.map (renumbered stage destination) = indexed stage destination := by
  unfold indexed
  apply List.ext_getElem?
  intro index
  rw [List.getElem?_map, List.getElem?_mapIdx]
  cases found : destination[index]? with
  | none => rfl
  | some row => rw [Option.map_some, Option.map_some, renumbered_of_getElem? distinct found]

section Rows

variable (distinct : (table.map Deal.id).Nodup) (stored : deal ∈ table) (active : deal.IsActive)

include distinct stored active in
/-- A row outside the destination is as it was. -/
theorem renumbered_elsewhere (isRow : row ∈ table)
    (absent : row ∉ destinationOf deal stage position table) :
    renumbered stage (destinationOf deal stage position table) row = row := by
  apply renumbered_of_not_mem
  intro item member sameId
  have itemStored := (stored_of_mem_destinationOf stored active member).1
  exact absent (eq_of_id_eq distinct itemStored isRow sameId ▸ member)

include distinct in
theorem stage_renumbered (member : row ∈ destinationOf deal stage position table) :
    (renumbered stage (destinationOf deal stage position table) row).stage = stage := by
  obtain ⟨index, found⟩ := List.mem_iff_getElem?.mp member
  rw [renumbered_of_getElem? (nodup_destinationOf distinct) found]

include distinct stored active in
/-- The rows of a lane behind the move, each with the columns that were written. -/
theorem laneOf_after_perm : (laneOf organization shown (afterMove deal stage position table)).Perm
    ((table.filter fun row => row.organization = organization ∧ row.IsActive ∧
      if row ∈ destinationOf deal stage position table then shown = stage
      else row.stage = shown).map
        (renumbered stage (destinationOf deal stage position table))) := by
  refine laneOf_perm.trans (List.Perm.of_eq ?_)
  rw [afterMove_eq, List.filter_map, List.filter_map, List.filter_filter]
  congr 1
  apply List.filter_congr
  intro row isRow
  rw [Function.comp_apply, Function.comp_apply, ← Bool.decide_and]
  apply decide_eq_decide.mpr
  have sameStage : (renumbered stage (destinationOf deal stage position table) row).stage = shown ↔
      if row ∈ destinationOf deal stage position table then shown = stage
      else row.stage = shown := by
    split_ifs with member
    · rw [stage_renumbered distinct member]
      exact eq_comm
    · rw [renumbered_elsewhere distinct stored active isRow member]
  rw [renumbered_columns]
  show (row.IsActive ∧ _) ∧ row.organization = organization ↔ _
  rw [sameStage]
  tauto

include distinct stored active in
/-- The destination in displayed order is the list that the move has made, with
its indices for positions. -/
theorem laneOf_destination : laneOf deal.organization stage (afterMove deal stage position table) =
    indexed stage (destinationOf deal stage position table) := by
  have distinctDestination : ((destinationOf deal stage position table).map Deal.id).Nodup :=
    nodup_destinationOf distinct
  have selected : (table.filter fun row => row.organization = deal.organization ∧ row.IsActive ∧
      if row ∈ destinationOf deal stage position table then stage = stage
      else row.stage = stage) =
        table.filter fun row => row ∈ destinationOf deal stage position table := by
    apply List.filter_congr
    intro row isRow
    apply decide_eq_decide.mpr
    constructor
    · rintro ⟨same, isActive, isStage⟩
      by_contra absent
      rw [if_neg absent] at isStage
      apply absent
      by_cases isDeal : row.id = deal.id
      · exact mem_destinationOf.mpr (Or.inl (eq_of_id_eq distinct isRow stored isDeal))
      · exact mem_destinationOf.mpr (Or.inr ⟨isRow, same, isActive, isStage, isDeal⟩)
    · intro member
      obtain ⟨-, same, isActive⟩ := stored_of_mem_destinationOf stored active member
      rw [if_pos member]
      exact ⟨same, isActive, rfl⟩
  have rows : (laneOf deal.organization stage (afterMove deal stage position table)).Perm
      (indexed stage (destinationOf deal stage position table)) := by
    refine (laneOf_after_perm distinct stored active).trans ?_
    rw [selected, ← map_renumbered distinctDestination]
    exact (perm_destinationOf distinct stored active).map _
  refine eq_of_listed ?_ rows (List.Perm.refl _) laneOf_listed indexed_listed
  rw [map_id_indexed]
  exact distinctDestination

include distinct stored active in
/-- A row is in another lane behind the move if it was there and is not the deal. -/
theorem mem_elsewhere_iff (isElsewhere : organization ≠ deal.organization ∨ shown ≠ stage)
    (isRow : row ∈ table) :
    (row.organization = organization ∧ row.IsActive ∧
      if row ∈ destinationOf deal stage position table then shown = stage
      else row.stage = shown) ↔
      row ∉ destinationOf deal stage position table ∧
        ((row.IsActive ∧ row.stage = shown) ∧ row.organization = organization) ∧
          row.id ≠ deal.id := by
  by_cases member : row ∈ destinationOf deal stage position table
  · obtain ⟨-, same, -⟩ := stored_of_mem_destinationOf stored active member
    rw [if_pos member]
    apply iff_of_false
    · rintro ⟨isOrganization, -, isStage⟩
      exact isElsewhere.elim (fun differs => differs (isOrganization.symm.trans same))
        fun differs => differs isStage
    · exact fun isAbsent => isAbsent.1 member
  · have isOther : row.id ≠ deal.id := fun isDeal =>
      member (mem_destinationOf.mpr (Or.inl (eq_of_id_eq distinct isRow stored isDeal)))
    rw [if_neg member]
    tauto

include distinct stored active in
/-- Every lane but the destination loses the deal at most. -/
theorem laneOf_elsewhere (isElsewhere : organization ≠ deal.organization ∨ shown ≠ stage) :
    laneOf organization shown (afterMove deal stage position table) =
      (laneOf organization shown table).filter fun row => row.id ≠ deal.id := by
  have rows : ((table.filter fun row => row.organization = organization ∧ row.IsActive ∧
      if row ∈ destinationOf deal stage position table then shown = stage
      else row.stage = shown).map
        (renumbered stage (destinationOf deal stage position table))) =
      ((table.filter fun row => row.id ≠ deal.id).filter fun row =>
        row.organization = organization).filter fun row =>
          row.IsActive ∧ row.stage = shown := by
    calc (table.filter fun row => row.organization = organization ∧ row.IsActive ∧
          if row ∈ destinationOf deal stage position table then shown = stage
          else row.stage = shown).map (renumbered stage (destinationOf deal stage position table))
        = table.filter fun row => row.organization = organization ∧ row.IsActive ∧
            if row ∈ destinationOf deal stage position table then shown = stage
            else row.stage = shown := by
          refine (List.map_congr_left fun row selected => ?_).trans (List.map_id _)
          have isSelected := List.mem_filter.mp selected
          have isElsewhere := (mem_elsewhere_iff distinct stored active isElsewhere
            isSelected.1).mp (of_decide_eq_true isSelected.2)
          exact renumbered_elsewhere distinct stored active isSelected.1 isElsewhere.1
      _ = _ := by
          rw [List.filter_filter, List.filter_filter]
          apply List.filter_congr
          intro row isRow
          rw [← Bool.decide_and, ← Bool.decide_and]
          apply decide_eq_decide.mpr
          rw [mem_elsewhere_iff distinct stored active isElsewhere isRow]
          apply and_iff_right_of_imp
          intro inLane member
          obtain ⟨⟨⟨-, isStage⟩, isOrganization⟩, isOther⟩ := inLane
          rcases mem_destinationOf.mp member with isDeal | ⟨-, same, -, isDestination, -⟩
          · exact isOther (congrArg Deal.id isDeal)
          · exact isElsewhere.elim (fun differs => differs (isOrganization.symm.trans same))
              fun differs => differs (isStage.symm.trans isDestination)
  rw [← laneOf_filter distinct]
  apply eq_of_listed _ _ laneOf_perm laneOf_listed laneOf_listed
  · exact nodup_map_id_filter (nodup_map_id_filter (nodup_map_id_filter distinct _) _) _
  · rw [← rows]
    exact laneOf_after_perm distinct stored active

/-- Distinct creation times make the order of the move the order of the list. -/
theorem lane_eq_othersOf
    (createdApart : ((table.filter fun row => row.organization = deal.organization).map
      Deal.createdAt).Nodup) :
    lane (table.filter fun row => row.organization = deal.organization) stage deal.id =
      othersOf deal stage table := by
  have laneRows := List.perm_insertionSort Deal.Before
    ((table.filter fun row => row.organization = deal.organization).filter fun row =>
      row.IsActive ∧ row.stage = stage ∧ row.id ≠ deal.id)
  have sameRows : ((table.filter fun row => row.organization = deal.organization).filter fun row =>
      row.IsActive ∧ row.stage = stage ∧ row.id ≠ deal.id) =
      ((table.filter fun row => row.organization = deal.organization).filter fun row =>
        row.IsActive ∧ row.stage = stage).filter fun row => row.id ≠ deal.id := by
    simp only [List.filter_filter]
    apply List.filter_congr
    intro row _
    rw [Bool.eq_iff_iff]
    simp only [Bool.and_eq_true, decide_eq_true_eq]
    tauto
  have perm : (lane (table.filter fun row => row.organization = deal.organization) stage
      deal.id).Perm (othersOf deal stage table) :=
    laneRows.trans (sameRows ▸ (laneOf_perm.filter _).symm)
  have othersBefore : (othersOf deal stage table).Pairwise Deal.Before :=
    (laneOf_listed.filter _).imp fun before => by
      unfold ListedBefore at before
      unfold Deal.Before
      omega
  apply perm.eq_of_pairwise ?_ (List.pairwise_insertionSort Deal.Before _) othersBefore
  intro first second firstMember secondMember one other
  have sameTime : first.createdAt = second.createdAt := by
    unfold Deal.Before at one other
    omega
  have firstRow := (List.mem_filter.mp (perm.mem_iff.mp firstMember)).1
  have secondRow := (List.mem_filter.mp secondMember).1
  obtain ⟨firstStored, firstOrganization, -⟩ := mem_laneOf.mp firstRow
  obtain ⟨secondStored, secondOrganization, -⟩ := mem_laneOf.mp secondRow
  exact List.inj_on_of_nodup_map createdApart
    (List.mem_filter.mpr ⟨firstStored, decide_eq_true firstOrganization⟩)
    (List.mem_filter.mpr ⟨secondStored, decide_eq_true secondOrganization⟩) sameTime

include distinct stored active in
theorem keeps_renumbered (isRow : row ∈ table) :
    Keeps deal.organization row
      (renumbered stage (destinationOf deal stage position table) row) := by
  refine ⟨renumbered_columns, fun outside => ?_⟩
  apply renumbered_elsewhere distinct stored active isRow
  intro member
  obtain ⟨-, same, isActive⟩ := stored_of_mem_destinationOf stored active member
  exact outside.elim (fun differs => differs same) fun archived => archived isActive

end Rows

/-- For the deals of any workspaces, any positions among them, every active deal,
destination and position: the move inserts the deal into the destination as it
was displayed, numbers that lane from zero, and keeps every other lane, every
archived deal and every other workspace, losing and repeating no deal. -/
theorem moveDeal_inserts (distinct : (table.map Deal.id).Nodup)
    (createdApart : ((table.filter fun row => row.organization = deal.organization).map
      Deal.createdAt).Nodup)
    (stored : deal ∈ table) (active : deal.IsActive) :
    Inserts deal stage position table (afterMove deal stage position table) where
  destination := by
    rw [laneOf_destination distinct stored active, map_id_indexed, destinationOf, place,
      List.map_insertIdx, lane_eq_othersOf createdApart]
  numbered := by
    rw [laneOf_destination distinct stored active, map_sortOrder_indexed, indexed,
      List.length_mapIdx]
  source := fun moves => laneOf_elsewhere distinct stored active (Or.inr moves)
  elsewhere := by
    intro organization shown isElsewhere
    have isOther : organization ≠ deal.organization ∨ shown ≠ stage :=
      isElsewhere.imp id And.left
    rw [laneOf_elsewhere distinct stored active isOther, List.filter_eq_self]
    intro row member
    obtain ⟨isRow, isOrganization, -, isStage⟩ := mem_laneOf.mp member
    apply decide_eq_true
    intro isDeal
    have same : row = deal := eq_of_id_eq distinct isRow stored isDeal
    rw [same] at isOrganization isStage
    exact isElsewhere.elim (fun differs => differs isOrganization.symm)
      fun differs => differs.2 isStage.symm
  rows := by
    rw [afterMove_eq, List.forall₂_map_right_iff, List.forall₂_same]
    exact fun row isRow => keeps_renumbered distinct stored active isRow

/-- Two deals that tie, a deal of another lane and one of another workspace. -/
def pipeline : List Deal :=
  [dealIn 4 .proposal 7, dealIn 1 .lead 3, dealIn 2 .proposal 7,
    { dealIn 3 .proposal 0 with organization := 9 }]

/-- A deal goes past the end of a lane whose positions tie. -/
theorem moveDeal_inserts_last :
    Inserts (dealIn 1 .lead 3) .proposal 5 pipeline
      (afterMove (dealIn 1 .lead 3) .proposal 5 pipeline) :=
  moveDeal_inserts (by decide) (by decide) (by decide) (by decide)

end BubllioCrm.Deals
