import BubllioCrm.Foundations.Table
import Mathlib.Tactic.SplitIfs

/-!
Owns references between tables whose rows are grouped: a column read by key, a
reference that leads into a group, and what inserts, updates and merged writes
keep of it.
-/

namespace BubllioCrm.Foundations

section References

variable {Row : Type*} {key value : Row → Nat}

/-- A column of the row with a key. -/
def column (key value : Row → Nat) (rows : List Row) (sought : Nat) : Option Nat :=
  (rows.find? (key · = sought)).map value

theorem column_cons {row : Row} {rest : List Row} {sought : Nat} :
    column key value (row :: rest) sought =
      if key row = sought then some (value row) else column key value rest sought := by
  unfold column
  by_cases isSought : key row = sought
  · rw [if_pos isSought, List.find?_cons_of_pos (by simp [isSought]), Option.map_some]
  · rw [if_neg isSought, List.find?_cons_of_neg (by simp [isSought])]

/-- What a column shows is in a row. -/
theorem mem_of_column {rows : List Row} {sought found : Nat}
    (present : column key value rows sought = some found) :
    ∃ row ∈ rows, key row = sought ∧ value row = found := by
  obtain ⟨row, isFound, isValue⟩ := Option.map_eq_some_iff.mp present
  exact ⟨row, List.mem_of_find?_eq_some isFound, by simpa using List.find?_some isFound, isValue⟩

/-- A row that is found stays found when a row is inserted. -/
theorem column_append_of_some {rows : List Row} {row : Row} {sought found : Nat}
    (present : column key value rows sought = some found) :
    column key value (rows ++ [row]) sought = some found := by
  induction rows with
  | nil => cases present
  | cons first rest inductionHypothesis =>
      rw [List.cons_append, column_cons]
      rw [column_cons] at present
      split_ifs at present ⊢ with isSought
      · exact present
      · exact inductionHypothesis present

/-- An update that keeps the keys keeps a column of the rows in which it keeps
the value. -/
theorem column_updateWhere {rows : List Row} {selected : Row → Prop} [DecidablePred selected]
    {change : Row → Row} {sought : Nat}
    (keepsKey : ∀ row ∈ rows, selected row → key (change row) = key row)
    (keepsValue : ∀ row ∈ rows, selected row → key row = sought →
      value (change row) = value row) :
    column key value (updateWhere selected change rows) sought =
      column key value rows sought := by
  induction rows with
  | nil => rfl
  | cons row rest inductionHypothesis =>
      rw [List.forall_mem_cons] at keepsKey keepsValue
      rw [updateWhere_cons, column_cons, column_cons,
        inductionHypothesis keepsKey.2 keepsValue.2]
      by_cases hit : selected row
      · rw [if_pos hit, keepsKey.1 hit]
        by_cases isSought : key row = sought
        · rw [if_pos isSought, if_pos isSought, keepsValue.1 hit isSought]
        · rw [if_neg isSought, if_neg isSought]
      · rw [if_neg hit]

/-- A row that replaces the one with its key shows its own value under the key. -/
theorem column_replace {rows : List Row} {row : Row} {sought : Nat} :
    column key value (updateWhere (key · = key row) (fun _ => row) rows) sought =
      if sought = key row then (column key value rows sought).map fun _ => value row
      else column key value rows sought := by
  induction rows with
  | nil => simp [column, updateWhere]
  | cons other rest inductionHypothesis =>
      rw [updateWhere_cons, column_cons, column_cons, inductionHypothesis]
      by_cases hit : key other = key row
      · rw [if_pos hit, hit]
        by_cases isRow : sought = key row
        · subst isRow
          simp
        · rw [if_neg isRow, if_neg (Ne.symm isRow), if_neg isRow, if_neg (Ne.symm isRow)]
      · rw [if_neg hit]
        by_cases isSought : key other = sought
        · subst isSought
          simp [hit]
        · rw [if_neg isSought, if_neg isSought]

/-- A column that a write names, or else the stored one. -/
theorem orElse_some {Value : Type*} (named : Option Value) (stored : Value) :
    (named <|> some stored) = some (named.getD stored) := by
  cases named <;> rfl

/-! ### References into a group -/

/-- A reference, where there is one, leads to a row of the group. -/
def Leads (groupOf : Nat → Option Nat) (group : Nat) (reference : Option Nat) : Prop :=
  ∀ target ∈ reference, groupOf target = some group

/-- The reference of every row leads into the group of the row. -/
def Within (groupOf : Nat → Option Nat) (group : Row → Nat) (reference : Row → Option Nat)
    (rows : List Row) : Prop :=
  ∀ row ∈ rows, Leads groupOf (group row) (reference row)

variable {groupOf before after seen : Nat → Option Nat} {group : Row → Nat}
  {reference : Row → Option Nat} {rows : List Row}

instance (groupOf : Nat → Option Nat) (group : Nat) (reference : Option Nat) :
    Decidable (Leads groupOf group reference) :=
  inferInstanceAs (Decidable (∀ target ∈ reference, groupOf target = some group))

instance (groupOf : Nat → Option Nat) (group : Row → Nat) (reference : Row → Option Nat)
    (rows : List Row) : Decidable (Within groupOf group reference rows) :=
  inferInstanceAs (Decidable (∀ row ∈ rows, Leads groupOf (group row) (reference row)))

/-- The check of a serializer on a reference that a row has or gets. -/
theorem leads_of_checked {misplaced : Nat → Prop} [DecidablePred misplaced] {owner : Nat}
    {target : Option Nat}
    (checked : ¬ (target.any fun target =>
      decide (misplaced target ∨ groupOf target ≠ some owner)) = true) :
    Leads groupOf owner target := by
  intro sought isTarget
  rw [Option.mem_def.mp isTarget, Option.any_some, decide_eq_true_eq, not_or, not_not] at checked
  exact checked.2

/-- The check on a reference that only looks at the group. -/
theorem leads_of_grouped {owner : Nat} {target : Option Nat}
    (checked : ¬ (target.any fun target => decide (groupOf target ≠ some owner)) = true) :
    Leads groupOf owner target := by
  intro sought isTarget
  rw [Option.mem_def.mp isTarget, Option.any_some, decide_eq_true_eq, not_not] at checked
  exact checked

/-- The check on a reference that looks at the group first. -/
theorem leads_of_first {misplaced : Nat → Prop} [DecidablePred misplaced] {owner : Nat}
    {target : Option Nat}
    (checked : ¬ (target.any fun target =>
      decide (groupOf target ≠ some owner ∨ misplaced target)) = true) :
    Leads groupOf owner target := by
  intro sought isTarget
  rw [Option.mem_def.mp isTarget, Option.any_some, decide_eq_true_eq, not_or, not_not] at checked
  exact checked.1

/-- A reference leads where it did when its target has kept its group. -/
theorem Leads.regroup {owner : Nat} {target : Option Nat} (leads : Leads before owner target)
    (keeps : ∀ sought ∈ target, after sought = before sought) : Leads after owner target := by
  intro sought isTarget
  rw [keeps sought isTarget]
  exact leads sought isTarget

theorem Within.regroup (within : Within before group reference rows)
    (keeps : ∀ row ∈ rows, ∀ target ∈ reference row, after target = before target) :
    Within after group reference rows :=
  fun row stored => (within row stored).regroup (keeps row stored)

theorem within_nil : Within groupOf group reference [] :=
  fun _ stored => absurd stored List.not_mem_nil

theorem Within.insert {row : Row} (within : Within groupOf group reference rows)
    (leads : Leads groupOf (group row) (reference row)) :
    Within groupOf group reference (rows ++ [row]) := by
  intro other stored
  rcases List.mem_append.mp stored with old | new
  · exact within other old
  · rw [List.mem_singleton.mp new]
    exact leads

theorem Within.update {selected : Row → Prop} [DecidablePred selected] {change : Row → Row}
    (within : Within groupOf group reference rows)
    (leads : ∀ row ∈ rows, selected row →
      Leads groupOf (group (change row)) (reference (change row))) :
    Within groupOf group reference (updateWhere selected change rows) := by
  intro row stored
  rcases mem_updateWhere.mp stored with ⟨old, member, ⟨hit, rfl⟩ | ⟨-, rfl⟩⟩
  · exact leads old member hit
  · exact within _ member

/-! ### Merged writes -/

/-- A write that names the group or the reference of a row, and was checked
against a loaded copy of the row, finds the other column as it was loaded and
the target in the group that the check has seen. -/
def Undisturbed (named : Option Nat) (namedReference : Option (Option Nat))
    (loaded stored : Nat × Option Nat) (seen now : Nat → Option Nat) : Prop :=
  named = none ∧ namedReference = none ∨
    (named = none → stored.1 = loaded.1) ∧ (namedReference = none → stored.2 = loaded.2) ∧
      ∀ target ∈ namedReference.getD loaded.2, now target = seen target

instance (named : Option Nat) (namedReference : Option (Option Nat))
    (loaded stored : Nat × Option Nat) (seen now : Nat → Option Nat) :
    Decidable (Undisturbed named namedReference loaded stored seen now) :=
  inferInstanceAs (Decidable (_ ∨ (_ → _) ∧ (_ → _) ∧ ∀ _ ∈ _, _))

/-- What the check has found of the copy is true of the row that the write merges
into. -/
theorem Undisturbed.leads {named : Option Nat} {namedReference : Option (Option Nat)}
    {loaded stored : Nat × Option Nat}
    (undisturbed : Undisturbed named namedReference loaded stored seen groupOf)
    (isStored : Leads groupOf stored.1 stored.2)
    (isChecked : Leads seen (named.getD loaded.1) (namedReference.getD loaded.2)) :
    Leads groupOf (named.getD stored.1) (namedReference.getD stored.2) := by
  rcases undisturbed with ⟨rfl, rfl⟩ | ⟨sameGroup, sameReference, unmoved⟩
  · exact isStored
  · have group : named.getD stored.1 = named.getD loaded.1 := by
      cases named with
      | none => exact sameGroup rfl
      | some _ => rfl
    have target : namedReference.getD stored.2 = namedReference.getD loaded.2 := by
      cases namedReference with
      | none => exact sameReference rfl
      | some _ => rfl
    rw [group, target]
    exact isChecked.regroup unmoved

end References

end BubllioCrm.Foundations
