import Mathlib.Algebra.BigOperators.Group.List.Basic
import Mathlib.Data.List.Dedup
import Mathlib.Algebra.Order.Ring.Int
import Mathlib.Tactic.SplitIfs

/-!
Owns aggregates of tables: the groups of a key column, the sum of a column that
is null for no rows, and dictionaries filled from the groups.
-/

namespace BubllioCrm.Foundations

section Aggregates

variable {Row Key Value : Type*} [DecidableEq Key]

/-! ### Groups -/

/-- `GROUP BY key`: each value of the key once, with its rows. -/
def groupBy (key : Row → Key) (rows : List Row) : List (Key × List Row) :=
  (rows.map key).dedup.map fun value => (value, rows.filter fun row => key row = value)

theorem groupBy_keys (key : Row → Key) (rows : List Row) :
    (groupBy key rows).map Prod.fst = (rows.map key).dedup := by
  simp [groupBy, Function.comp_def]

theorem mem_groupBy {key : Row → Key} {rows : List Row} {group : Key × List Row}
    (member : group ∈ groupBy key rows) :
    group.1 ∈ rows.map key ∧ group.2 = rows.filter fun row => key row = group.1 := by
  unfold groupBy at member
  obtain ⟨value, listed, rfl⟩ := List.mem_map.mp member
  exact ⟨List.mem_dedup.mp listed, rfl⟩

/-- A row counts for one value of a list of distinct values. -/
theorem sum_map_single {Amount : Type*} [AddCommMonoid Amount] {values : List Key} {wanted : Key}
    (distinct : values.Nodup) (listed : wanted ∈ values) (amount : Amount) :
    (values.map fun value => if wanted = value then amount else 0).sum = amount := by
  induction values with
  | nil => cases listed
  | cons first rest inductionHypothesis =>
      have ⟨fresh, restDistinct⟩ := List.nodup_cons.mp distinct
      rw [List.map_cons, List.sum_cons]
      by_cases hit : wanted = first
      · have none : ∀ value ∈ rest, (if wanted = value then amount else 0) = 0 := by
          intro value member
          apply if_neg
          intro same
          exact fresh (hit ▸ same ▸ member)
        rw [if_pos hit, List.map_congr_left none]
        simp
      · rw [if_neg hit,
          inductionHypothesis restDistinct ((List.mem_cons.mp listed).resolve_left hit), zero_add]

/-- The groups split the rows: counting in each group counts every row once. -/
theorem sum_countP_groupBy (key : Row → Key) (counted : Row → Bool) (rows : List Row) :
    ((groupBy key rows).map fun group => group.2.countP counted).sum = rows.countP counted := by
  have split : ∀ (values : List Key), values.Nodup → ∀ part : List Row,
      (∀ row ∈ part, key row ∈ values) →
      (values.map fun value => (part.filter fun row => key row = value).countP counted).sum =
        part.countP counted := by
    intro values distinct part
    induction part with
    | nil =>
        intro _
        simp
    | cons row rest inductionHypothesis =>
        intro listed
        have ⟨first, others⟩ := List.forall_mem_cons.mp listed
        have one : ∀ value,
            ((row :: rest).filter fun row => key row = value).countP counted =
              (if key row = value then (if counted row then 1 else 0) else 0) +
                (rest.filter fun row => key row = value).countP counted := by
          intro value
          by_cases hit : key row = value
          · simp [hit, List.countP_cons]
            omega
          · simp [hit]
        rw [List.map_congr_left fun value _ => one value, List.sum_map_add,
          sum_map_single distinct first, inductionHypothesis others, List.countP_cons]
        omega
  have whole := split (rows.map key).dedup (List.nodup_dedup _) rows fun row member =>
    List.mem_dedup.mpr (List.mem_map_of_mem member)
  rw [← whole, groupBy, List.map_map]
  rfl

/-- The groups of the keys that are kept split the rows of these keys. -/
theorem sum_groupBy {Amount : Type*} [AddCommMonoid Amount] (key : Row → Key) (keep : Key → Bool)
    (value : Row → Amount) (rows : List Row) :
    (((groupBy key rows).filter fun group => keep group.1).map fun group =>
        (group.2.map value).sum).sum =
      ((rows.filter fun row => keep (key row)).map value).sum := by
  have split : ∀ (values : List Key), values.Nodup → ∀ part : List Row,
      (∀ row ∈ part, key row ∈ values ∨ keep (key row) = false) → (∀ value ∈ values, keep value) →
      (values.map fun wanted => ((part.filter fun row => key row = wanted).map value).sum).sum =
        ((part.filter fun row => keep (key row)).map value).sum := by
    intro values distinct part
    induction part with
    | nil =>
        intro _ _
        simp
    | cons row rest inductionHypothesis =>
        intro listed kept
        have ⟨first, others⟩ := List.forall_mem_cons.mp listed
        have one : ∀ wanted, (((row :: rest).filter fun row => key row = wanted).map value).sum =
            (if key row = wanted then value row else 0) +
              ((rest.filter fun row => key row = wanted).map value).sum := by
          intro wanted
          by_cases hit : key row = wanted <;> simp [hit]
        rw [List.map_congr_left fun wanted _ => one wanted, List.sum_map_add,
          inductionHypothesis others kept]
        rcases first with member | dropped
        · have keeps := kept _ member
          rw [sum_map_single distinct member]
          simp [keeps]
        · have none : ∀ wanted ∈ values, (if key row = wanted then value row else 0) = 0 := by
            intro wanted member
            apply if_neg
            intro same
            have keeps := kept wanted member
            rw [← same, dropped] at keeps
            cases keeps
          rw [List.map_congr_left none]
          simp [dropped]
  have whole := split ((rows.map key).dedup.filter keep) ((List.nodup_dedup _).filter _) rows
    (fun row member => by
      cases keeps : keep (key row) with
      | false => exact Or.inr rfl
      | true =>
          exact Or.inl (List.mem_filter.mpr
            ⟨List.mem_dedup.mpr (List.mem_map_of_mem member), keeps⟩))
    (fun value member => (List.mem_filter.mp member).2)
  rw [← whole, groupBy, List.filter_map, List.map_map]
  rfl

/-! ### Lookups -/

/-- Mapping over distinct keys is looked up key by key. -/
theorem lookup_map_keys (values : List Key) (entry : Key → Value) (wanted : Key) :
    (values.map fun value => (value, entry value)).lookup wanted =
      if wanted ∈ values then some (entry wanted) else none := by
  induction values with
  | nil => rfl
  | cons first rest inductionHypothesis =>
      rw [List.map_cons, List.lookup_cons]
      by_cases hit : wanted = first
      · simp [hit]
      · have differs : (wanted == first) = false := by simpa using hit
        rw [differs]
        simp [inductionHypothesis, hit]

/-- A result computed from each group that is kept is looked up in the rows of
the key. -/
theorem lookup_filter_groupBy (key : Row → Key) (keep : List Row → Bool)
    (result : List Row → Value) (rows : List Row) (wanted : Key) :
    (((groupBy key rows).filter fun group => keep group.2).map fun group =>
        (group.1, result group.2)).lookup wanted =
      if (rows.filter fun row => key row = wanted) ≠ [] ∧
          keep (rows.filter fun row => key row = wanted) then
        some (result (rows.filter fun row => key row = wanted))
      else none := by
  have byKey := lookup_map_keys
    ((rows.map key).dedup.filter fun value => keep (rows.filter fun row => key row = value))
    (fun value => result (rows.filter fun row => key row = value)) wanted
  have listed : wanted ∈ (rows.map key).dedup.filter (fun value =>
        keep (rows.filter fun row => key row = value)) ↔
      (rows.filter fun row => key row = wanted) ≠ [] ∧
        keep (rows.filter fun row => key row = wanted) := by
    rw [List.mem_filter, List.mem_dedup, ne_eq, List.filter_eq_nil_iff]
    simp
  rw [groupBy, List.filter_map, List.map_map]
  refine Eq.trans byKey ?_
  by_cases kept : (rows.filter fun row => key row = wanted) ≠ [] ∧
      keep (rows.filter fun row => key row = wanted)
  · rw [if_pos kept, if_pos (listed.mpr kept)]
  · rw [if_neg kept, if_neg fun member => kept (listed.mp member)]

theorem lookup_groupBy (key : Row → Key) (result : List Row → Value) (rows : List Row)
    (wanted : Key) :
    ((groupBy key rows).map fun group => (group.1, result group.2)).lookup wanted =
      if (rows.filter fun row => key row = wanted) ≠ [] then
        some (result (rows.filter fun row => key row = wanted))
      else none := by
  have all := lookup_filter_groupBy key (fun _ => true) result rows wanted
  rw [List.filter_eq_self.mpr fun _ _ => rfl] at all
  simpa using all

/-! ### Sums -/

/-- `SUM(column)`, null without a row. -/
def sumOf (values : List Int) : Option Int :=
  if values = [] then none else some values.sum

theorem sumOf_of_ne_nil {values : List Int} (some : values ≠ []) :
    sumOf values = Option.some values.sum :=
  if_neg some

/-- `COALESCE(SUM(column), 0)`. -/
@[simp] theorem sumOf_getD (values : List Int) : (sumOf values).getD 0 = values.sum := by
  unfold sumOf
  split_ifs with empty
  · rw [empty]
    rfl
  · rfl

/-! ### Dictionaries -/

/-- `dict[key] = value`. -/
def assign (dict : Key → Option Value) (entry : Key × Value) : Key → Option Value :=
  Function.update dict entry.1 (some entry.2)

/-- Entries with distinct keys that are assigned one after the other. -/
theorem foldl_assign {entries : List (Key × Value)} (distinct : (entries.map Prod.fst).Nodup)
    (dict : Key → Option Value) (wanted : Key) :
    entries.foldl assign dict wanted = (entries.lookup wanted).or (dict wanted) := by
  induction entries generalizing dict with
  | nil => simp
  | cons entry rest inductionHypothesis =>
      have ⟨fresh, restDistinct⟩ := List.nodup_cons.mp distinct
      rw [List.foldl_cons, inductionHypothesis restDistinct, List.lookup_cons]
      by_cases hit : wanted = entry.1
      · have absent : rest.lookup wanted = none := by
          rw [List.lookup_eq_none_iff]
          intro other member
          have differs : other.1 ≠ entry.1 := fun same =>
            fresh (same ▸ List.mem_map_of_mem member)
          simpa [hit] using differs.symm
        rw [absent, hit, beq_self_eq_true]
        simp [assign]
      · have differs : (wanted == entry.1) = false := by simpa using hit
        simp [assign, differs, Function.update_of_ne hit]

end Aggregates

end BubllioCrm.Foundations
