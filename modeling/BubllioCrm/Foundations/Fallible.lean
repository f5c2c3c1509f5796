import Mathlib.Data.List.Basic

/-!
Owns the inversion rules of fallible computations: what a successful sequence,
test or loop says about its parts.
-/

namespace BubllioCrm.Foundations

universe u v

variable {Error : Type u} {Value Result : Type v}

theorem bind_eq_ok {first : Except Error Value} {next : Value → Except Error Result}
    {result : Result} :
    (first >>= next) = .ok result ↔ ∃ value, first = .ok value ∧ next value = .ok result := by
  cases first with
  | error error => simp [bind, Except.bind]
  | ok value => simp [bind, Except.bind]

theorem bind_eq_error {first : Except Error Value} {next : Value → Except Error Result}
    {error : Error} :
    (first >>= next) = .error error ↔
      first = .error error ∨ ∃ value, first = .ok value ∧ next value = .error error := by
  cases first with
  | error raised => simp [bind, Except.bind]
  | ok value => simp [bind, Except.bind]

theorem pure_eq_ok {value result : Value} :
    (pure value : Except Error Value) = .ok result ↔ value = result := by
  simp [pure, Except.pure]

theorem map_eq_ok {change : Value → Result} {first : Except Error Value} {result : Result} :
    first.map change = .ok result ↔ ∃ value, first = .ok value ∧ change value = result := by
  cases first with
  | error error => simp [Except.map]
  | ok value => simp [Except.map]

/-- A guard that raises was not taken by a computation that returned. -/
theorem guard_eq_ok {failing : Prop} [Decidable failing] {error : Error}
    {rest : Except Error Result} {result : Result} :
    (if failing then .error error else rest) = .ok result ↔ ¬ failing ∧ rest = .ok result := by
  by_cases fails : failing
  · simp [fails]
  · simp [fails]

theorem ok_of_toOption {result : Except Error Value} {value : Value}
    (isSome : result.toOption = some value) : result = .ok value := by
  cases result with
  | error _ => cases isSome
  | ok _ => exact congrArg Except.ok (Option.some.inj isSome)

/-- A loop of checks returns exactly when every check does. -/
theorem forM_eq_ok {Item : Type*} {items : List Item} {check : Item → Except Error Unit} :
    items.forM check = .ok () ↔ ∀ item ∈ items, check item = .ok () := by
  induction items with
  | nil => simp [pure, Except.pure]
  | cons item rest inductionHypothesis =>
      simp only [List.forM_eq_forM] at inductionHypothesis
      simp only [List.forM_eq_forM, List.forM_cons, bind_eq_ok, List.mem_cons,
        forall_eq_or_imp, inductionHypothesis]
      constructor
      · rintro ⟨⟨⟩, first, others⟩
        exact ⟨first, others⟩
      · rintro ⟨first, others⟩
        exact ⟨(), first, others⟩

/-- The results of a loop are those of its calls. -/
theorem mem_mapM {Item : Type*} {items : List Item} {call : Item → Except Error Result}
    {results : List Result} (returned : items.mapM call = .ok results) (result : Result) :
    result ∈ results ↔ ∃ item ∈ items, call item = .ok result := by
  induction items generalizing results with
  | nil =>
      rw [List.mapM_nil, pure_eq_ok] at returned
      simp [← returned]
  | cons item rest inductionHypothesis =>
      simp only [List.mapM_cons, bind_eq_ok, pure_eq_ok] at returned
      obtain ⟨first, isFirst, others, areOthers, rfl⟩ := returned
      rw [List.mem_cons, inductionHypothesis areOthers, List.exists_mem_cons_iff, isFirst,
        Except.ok.injEq, eq_comm]

/-- A loop returns exactly when every call does. -/
theorem mapM_isOk {Item : Type*} {items : List Item} {call : Item → Except Error Result} :
    (∃ results, items.mapM call = .ok results) ↔
      ∀ item ∈ items, ∃ result, call item = .ok result := by
  induction items with
  | nil => simp [pure_eq_ok]
  | cons item rest inductionHypothesis =>
      simp only [List.mapM_cons, bind_eq_ok, pure_eq_ok, List.forall_mem_cons,
        ← inductionHypothesis]
      constructor
      · rintro ⟨results, first, isFirst, others, areOthers, -⟩
        exact ⟨⟨first, isFirst⟩, others, areOthers⟩
      · rintro ⟨⟨first, isFirst⟩, others, areOthers⟩
        exact ⟨_, first, isFirst, others, areOthers, rfl⟩

/-- Calls that all return give the results of all. -/
theorem mapM_eq_ok {Item : Type*} {items : List Item} {call : Item → Except Error Result}
    {result : Item → Result} (returns : ∀ item ∈ items, call item = .ok (result item)) :
    items.mapM call = .ok (items.map result) := by
  induction items with
  | nil => rfl
  | cons item rest inductionHypothesis =>
      rw [List.forall_mem_cons] at returns
      rw [List.mapM_cons, returns.1, inductionHypothesis returns.2]
      rfl

/-- A loop that fails does so in one of its calls. -/
theorem mapM_eq_error {Item : Type*} {items : List Item} {call : Item → Except Error Result}
    {error : Error} (failed : items.mapM call = .error error) :
    ∃ item ∈ items, call item = .error error := by
  induction items with
  | nil => cases failed
  | cons item rest inductionHypothesis =>
      simp only [List.mapM_cons, bind_eq_error] at failed
      rcases failed with first | ⟨value, -, others | ⟨results, -, impossible⟩⟩
      · exact ⟨item, List.mem_cons_self, first⟩
      · obtain ⟨later, member, isError⟩ := inductionHypothesis others
        exact ⟨later, List.mem_cons_of_mem _ member, isError⟩
      · cases impossible

end BubllioCrm.Foundations
