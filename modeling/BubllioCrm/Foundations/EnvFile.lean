import Mathlib.Data.List.Induction
import Mathlib.Logic.Function.Basic

/-!
Owns environment files: one `KEY=VALUE` assignment for each line, the reader
in which the last assignment of a key wins, the round trip for names and
values that a line can hold, and assignments made in memory.
-/

namespace BubllioCrm.Foundations.EnvFile

def render (pairs : List (String × String)) : String :=
  String.join (pairs.map fun pair => pair.1 ++ "=" ++ pair.2 ++ "\n")

/-- A line without an equals sign assigns nothing. -/
def assignment (line : List Char) : Option (String × String) :=
  if '=' ∈ line then
    some (String.ofList (line.takeWhile (· ≠ '=')),
      String.ofList ((line.dropWhile (· ≠ '=')).drop 1))
  else none

def assignments (text : String) : List (String × String) :=
  (text.toList.splitOn '\n').filterMap assignment

/-- What the last assignment gives to a name. -/
def lookupLast (name : String) (pairs : List (String × String)) : Option String :=
  pairs.reverse.lookup name

/-- The value of a name in a file. -/
def read (text : String) (name : String) : Option String :=
  lookupLast name (assignments text)

/-- A pair that one line can hold. -/
structure OneLine (pair : String × String) : Prop where
  noEquals : '=' ∉ pair.1.toList
  nameLine : '\n' ∉ pair.1.toList
  valueLine : '\n' ∉ pair.2.toList

theorem assignment_line {pair : String × String} (oneLine : OneLine pair) :
    assignment (pair.1.toList ++ '=' :: pair.2.toList) = some pair := by
  have name : ∀ char ∈ pair.1.toList, decide (char ≠ '=') = true := by
    intro char member
    rw [decide_eq_true_eq]
    rintro rfl
    exact oneLine.noEquals member
  have taken : (pair.1.toList ++ '=' :: pair.2.toList).takeWhile (· ≠ '=') = pair.1.toList := by
    rw [List.takeWhile_append_of_pos name]
    simp
  have dropped : (pair.1.toList ++ '=' :: pair.2.toList).dropWhile (· ≠ '=') =
      '=' :: pair.2.toList := by
    rw [List.dropWhile_append_of_pos name]
    simp
  unfold assignment
  rw [if_pos (by simp), taken, dropped]
  simp

theorem toList_render_cons (pair : String × String) (rest : List (String × String)) :
    (render (pair :: rest)).toList =
      (pair.1.toList ++ '=' :: pair.2.toList) ++ '\n' :: (render rest).toList := by
  simp [render]

/-- The reader gets back what was rendered. -/
theorem assignments_render {pairs : List (String × String)}
    (oneLine : ∀ pair ∈ pairs, OneLine pair) : assignments (render pairs) = pairs := by
  induction pairs with
  | nil => rfl
  | cons pair rest inductionHypothesis =>
      have first := oneLine pair List.mem_cons_self
      have others := inductionHypothesis fun other member =>
        oneLine other (List.mem_cons_of_mem _ member)
      have line : '\n' ∉ pair.1.toList ++ '=' :: pair.2.toList := by
        simp only [List.mem_append, List.mem_cons, not_or]
        exact ⟨first.nameLine, by decide, first.valueLine⟩
      unfold assignments at others ⊢
      rw [toList_render_cons, List.splitOn_append_cons_self_of_not_mem line,
        List.filterMap_cons_some (assignment_line first), others]

theorem lookup_map (name : String) (value : String → String) (names : List String) :
    (names.map fun name => (name, value name)).lookup name =
      if name ∈ names then some (value name) else none := by
  induction names with
  | nil => rfl
  | cons first rest inductionHypothesis =>
      rw [List.map_cons]
      by_cases same : name = first
      · subst same
        simp
      · have different : (name == first) = false := by simpa using same
        simp only [List.lookup_cons, different, List.mem_cons, same, false_or]
        exact inductionHypothesis

/-- Where the value depends on the name alone, every assignment is the last. -/
theorem lookupLast_map (name : String) (value : String → String) (names : List String) :
    lookupLast name (names.map fun name => (name, value name)) =
      if name ∈ names then some (value name) else none := by
  unfold lookupLast
  rw [← List.map_reverse, lookup_map]
  simp only [List.mem_reverse]

/-! ### Assignments in memory -/

/-- An environment after assignments in their order. -/
def assign (environment : String → Option String) (pairs : List (String × String)) :
    String → Option String :=
  pairs.foldl (fun current pair => Function.update current pair.1 (some pair.2)) environment

theorem assign_apply (environment : String → Option String) (pairs : List (String × String))
    (name : String) :
    assign environment pairs name = (lookupLast name pairs).or (environment name) := by
  induction pairs using List.reverseRecOn with
  | nil => simp [assign, lookupLast]
  | append_singleton rest pair inductionHypothesis =>
      obtain ⟨key, value⟩ := pair
      unfold assign lookupLast at inductionHypothesis ⊢
      rw [List.foldl_append, List.reverse_append]
      by_cases same : name = key
      · subst same
        simp
      · have different : (name == key) = false := by simpa using same
        simp only [List.foldl_cons, List.foldl_nil, Function.update_of_ne same,
          List.reverse_singleton, List.singleton_append, List.lookup_cons, different]
        exact inductionHypothesis

/-- The last assignment of a name is one of its assignments. -/
theorem mem_of_lookupLast {pairs : List (String × String)} {name value : String}
    (found : lookupLast name pairs = some value) : (name, value) ∈ pairs := by
  obtain ⟨before, after, split, -⟩ := List.lookup_eq_some_iff.mp found
  rw [← List.mem_reverse, split]
  simp

theorem lookupLast_isSome {pairs : List (String × String)} {pair : String × String}
    (member : pair ∈ pairs) : ∃ value, lookupLast pair.1 pairs = some value := by
  cases found : lookupLast pair.1 pairs with
  | some value => exact ⟨value, rfl⟩
  | none =>
      have absent := List.lookup_eq_none_iff.mp found pair (List.mem_reverse.mpr member)
      simp at absent

/-- Every assignment is the last of its name exactly when a name has one value. -/
theorem all_last_iff (pairs : List (String × String)) :
    (∀ pair ∈ pairs, lookupLast pair.1 pairs = some pair.2) ↔
      ∀ pair ∈ pairs, ∀ other ∈ pairs, pair.1 = other.1 → pair.2 = other.2 := by
  constructor
  · intro last pair member other otherMember same
    have first := last pair member
    rw [same, last other otherMember] at first
    injection first with equal
    exact equal.symm
  · intro functional pair member
    obtain ⟨value, found⟩ := lookupLast_isSome member
    rw [found, functional pair member _ (mem_of_lookupLast found) rfl]

end BubllioCrm.Foundations.EnvFile
