import Mathlib.Data.List.Induction
import Mathlib.Data.List.Nodup

/-!
Owns tables as lists of rows: the bulk update of the rows that a condition
selects, what it does to one row, what it leaves alone when the change keeps a
key column, and when distinct rows are one at most.
-/

namespace BubllioCrm.Foundations

section Table

variable {Row Key : Type*} {selected : Row → Prop} [DecidablePred selected] {change : Row → Row}

/-- `UPDATE rows SET change WHERE selected`. -/
def updateWhere (selected : Row → Prop) [DecidablePred selected] (change : Row → Row)
    (rows : List Row) : List Row :=
  rows.map fun row => if selected row then change row else row

theorem mem_updateWhere {rows : List Row} {after : Row} :
    after ∈ updateWhere selected change rows ↔
      ∃ before ∈ rows, selected before ∧ after = change before ∨
        ¬ selected before ∧ after = before := by
  unfold updateWhere
  simp only [List.mem_map]
  refine exists_congr fun before => and_congr_right fun _ => ?_
  by_cases hit : selected before
  · simp [hit, eq_comm]
  · simp [hit, eq_comm]

theorem mem_updateWhere_of_selected {rows : List Row} {row : Row} (member : row ∈ rows)
    (hit : selected row) : change row ∈ updateWhere selected change rows :=
  mem_updateWhere.mpr ⟨row, member, Or.inl ⟨hit, rfl⟩⟩

theorem mem_updateWhere_of_not_selected {rows : List Row} {row : Row} (member : row ∈ rows)
    (miss : ¬ selected row) : row ∈ updateWhere selected change rows :=
  mem_updateWhere.mpr ⟨row, member, Or.inr ⟨miss, rfl⟩⟩

/-- What all rows have, they have after an update that gives it to the rows it changes. -/
theorem forall_mem_updateWhere {holds : Row → Prop} {rows : List Row}
    (all : ∀ row ∈ rows, holds row) (changed : ∀ row ∈ rows, selected row → holds (change row)) :
    ∀ row ∈ updateWhere selected change rows, holds row := by
  intro row stored
  rcases mem_updateWhere.mp stored with ⟨old, member, ⟨hit, rfl⟩ | ⟨-, rfl⟩⟩
  · exact changed old member hit
  · exact all _ member

/-- A row that a search finds is in the table and is one of those sought. -/
theorem mem_of_find {rows : List Row} {row : Row}
    (found : rows.find? (fun row => selected row) = some row) : row ∈ rows ∧ selected row := by
  have isSelected : decide (selected row) = true := by simpa using List.find?_some found
  exact ⟨List.mem_of_find?_eq_some found, of_decide_eq_true isSelected⟩

theorem updateWhere_cons {row : Row} {rest : List Row} :
    updateWhere selected change (row :: rest) =
      (if selected row then change row else row) :: updateWhere selected change rest :=
  List.map_cons

@[simp] theorem length_updateWhere (rows : List Row) :
    (updateWhere selected change rows).length = rows.length := by
  simp [updateWhere]

/-- A column that the change keeps in the selected rows is the same after the update. -/
theorem map_updateWhere_of_mem {key : Row → Key} {rows : List Row}
    (keeps : ∀ row ∈ rows, selected row → key (change row) = key row) :
    (updateWhere selected change rows).map key = rows.map key := by
  unfold updateWhere
  rw [List.map_map]
  apply List.map_congr_left
  intro row stored
  by_cases hit : selected row
  · simp [hit, keeps row stored hit]
  · simp [hit]

theorem map_updateWhere {key : Row → Key} (keeps : ∀ row, key (change row) = key row)
    (rows : List Row) : (updateWhere selected change rows).map key = rows.map key :=
  map_updateWhere_of_mem fun row _ _ => keeps row

/-- A selection sees nothing of an update of rows that it leaves out before and after. -/
theorem filter_updateWhere {keep : Row → Bool} {rows : List Row}
    (unseen : ∀ row ∈ rows, selected row → keep row = false ∧ keep (change row) = false) :
    (updateWhere selected change rows).filter keep = rows.filter keep := by
  induction rows with
  | nil => rfl
  | cons row rest inductionHypothesis =>
      rw [List.forall_mem_cons] at unseen
      have others : (updateWhere selected change rest).filter keep = rest.filter keep :=
        inductionHypothesis unseen.2
      unfold updateWhere at others ⊢
      rw [List.map_cons]
      by_cases hit : selected row
      · obtain ⟨before, after⟩ := unseen.1 hit
        rw [if_pos hit, List.filter_cons_of_neg (by simp [after]),
          List.filter_cons_of_neg (by simp [before]), others]
      · rw [if_neg hit, List.filter_cons, List.filter_cons, others]

/-- What is found in a list with one more row is in the list before, or is that row. -/
theorem getElem?_concat {rows : List Row} {last row : Row} {place : Nat}
    (found : (rows ++ [last])[place]? = some row) :
    rows[place]? = some row ∨ place = rows.length ∧ last = row := by
  by_cases old : place < rows.length
  · rw [List.getElem?_append_left old] at found
    exact Or.inl found
  · obtain ⟨inside, isRow⟩ := List.getElem?_eq_some_iff.mp found
    have isLast : place = rows.length := by
      rw [List.length_append, List.length_singleton] at inside
      omega
    subst isLast
    rw [List.getElem_append_right (Nat.le_refl _)] at isRow
    simp only [Nat.sub_self, List.getElem_cons_zero] at isRow
    exact Or.inr ⟨rfl, isRow⟩

/-- Walking over the places of a list is walking over the list. -/
theorem flatMap_range_length {Value : Type*} {rows : List Row} {byPlace : Nat → List Value}
    {byRow : Row → List Value}
    (agree : ∀ place row, rows[place]? = some row → byPlace place = byRow row) :
    (List.range rows.length).flatMap byPlace = rows.flatMap byRow := by
  induction rows using List.reverseRecOn with
  | nil => rfl
  | append_singleton rows last inductionHypothesis =>
      have others : (List.range rows.length).flatMap byPlace = rows.flatMap byRow := by
        apply inductionHypothesis
        intro place row found
        apply agree
        rw [List.getElem?_append_left (List.getElem?_eq_some_iff.mp found).1]
        exact found
      have atLast : byPlace rows.length = byRow last := agree _ _ (by simp)
      simp only [List.length_append, List.length_singleton, List.range_succ,
        List.flatMap_append, List.flatMap_singleton, others, atLast]

/-- Distinct rows are at most one exactly when all of them are the same. -/
theorem length_le_one_iff {rows : List Row} (distinct : rows.Nodup) :
    rows.length ≤ 1 ↔ ∀ first ∈ rows, ∀ second ∈ rows, first = second := by
  match rows with
  | [] => simp
  | [_] => simp
  | first :: second :: rest =>
      simp only [List.length_cons, Nat.reduceLeDiff, false_iff]
      intro same
      obtain rfl := same first (by simp) second (by simp)
      simp at distinct

/-- A table whose key column numbers its rows has no two rows with one key. -/
theorem eq_of_key_eq {key : Row → Nat} {rows : List Row}
    (numbered : rows.map key = List.range rows.length) {first second : Row}
    (firstMember : first ∈ rows) (secondMember : second ∈ rows)
    (same : key first = key second) : first = second := by
  have nodup : (rows.map key).Nodup := numbered ▸ List.nodup_range
  exact List.inj_on_of_nodup_map nodup firstMember secondMember same

/-- Keys of a numbered table are below its length. -/
theorem key_lt_length {key : Row → Nat} {rows : List Row}
    (numbered : rows.map key = List.range rows.length) {row : Row} (member : row ∈ rows) :
    key row < rows.length := by
  have keyMember : key row ∈ rows.map key := List.mem_map_of_mem member
  rw [numbered] at keyMember
  exact List.mem_range.mp keyMember

end Table

end BubllioCrm.Foundations
