import Mathlib.Data.List.Basic
import Mathlib.Data.List.TakeDrop

/-!
Owns the substitution of the matches of a pattern in a list, from the left and
without overlap, as `re.sub` does it, and when it commutes with writing items as
texts.

A pattern is given by the length of its match at the front of a list, which is
zero where it does not match.
-/

namespace BubllioCrm.Foundations

section Substitution

variable {Item : Type*} (matchLength : List Item → Nat) (replacement : List Item)

/-- Substitution behind the first items, which belong to the last match. -/
def substituteFrom : Nat → List Item → List Item
  | _, [] => []
  | skipped + 1, _ :: rest => substituteFrom skipped rest
  | 0, item :: rest =>
      match matchLength (item :: rest) with
      | 0 => item :: substituteFrom 0 rest
      | length + 1 => replacement ++ substituteFrom length rest

/-- `pattern.sub(replacement, items)`. -/
def substitute (items : List Item) : List Item :=
  substituteFrom matchLength replacement 0 items

variable {matchLength replacement} {item : Item} {items rest : List Item}

@[simp] theorem substitute_nil : substitute matchLength replacement [] = [] := rfl

theorem substituteFrom_eq_drop (skipped : Nat) :
    substituteFrom matchLength replacement skipped items =
      substitute matchLength replacement (items.drop skipped) := by
  induction items generalizing skipped with
  | nil => simp [substituteFrom]
  | cons item rest inductionHypothesis =>
      cases skipped with
      | zero => rfl
      | succ skipped =>
          rw [substituteFrom, List.drop_succ_cons]
          exact inductionHypothesis skipped

theorem substitute_of_noMatch (noMatch : matchLength (item :: rest) = 0) :
    substitute matchLength replacement (item :: rest) =
      item :: substitute matchLength replacement rest := by
  rw [substitute, substituteFrom, noMatch]
  rfl

theorem substitute_of_match (nonempty : items ≠ []) (matched : 0 < matchLength items) :
    substitute matchLength replacement items =
      replacement ++
        substitute matchLength replacement (items.drop (matchLength items)) := by
  cases items with
  | nil => exact absurd rfl nonempty
  | cons item rest =>
      obtain ⟨length, isLength⟩ := Nat.exists_eq_succ_of_ne_zero (Nat.ne_of_gt matched)
      rw [substitute, substituteFrom, isLength, List.drop_succ_cons]
      exact congrArg (replacement ++ ·) (substituteFrom_eq_drop length)

theorem substitute_append_of_noMatch {front : List Item}
    (noMatch : ∀ item ∈ front, ∀ rest, matchLength (item :: rest) = 0) :
    substitute matchLength replacement (front ++ rest) =
      front ++ substitute matchLength replacement rest := by
  induction front with
  | nil => rfl
  | cons item front inductionHypothesis =>
      rw [List.cons_append, substitute_of_noMatch (noMatch item List.mem_cons_self _),
        inductionHypothesis fun other member => noMatch other (List.mem_cons_of_mem _ member)]
      rfl

/-- A substitution that does not lengthen its matches does not lengthen the list. -/
theorem length_substitute_le
    (shorter : ∀ items, 0 < matchLength items →
      replacement.length ≤ matchLength items ∧ matchLength items ≤ items.length) :
    (substitute matchLength replacement items).length ≤ items.length := by
  induction sameLength : items.length using Nat.strongRecOn generalizing items with
  | _ length inductionHypothesis =>
      cases items with
      | nil => simp
      | cons item rest =>
          rw [List.length_cons] at sameLength
          rcases Nat.eq_zero_or_pos (matchLength (item :: rest)) with noMatch | matched
          · have shortened := inductionHypothesis rest.length (by omega) rfl
            rw [substitute_of_noMatch noMatch, List.length_cons]
            omega
          · have ⟨atMost, inside⟩ := shorter _ matched
            have dropped : ((item :: rest).drop (matchLength (item :: rest))).length =
                rest.length + 1 - matchLength (item :: rest) := by
              rw [List.length_drop, List.length_cons]
            have shortened := inductionHypothesis _ (by omega) dropped
            rw [List.length_cons] at inside
            rw [substitute_of_match (List.cons_ne_nil _ _) matched, List.length_append]
            omega

end Substitution

/-! ### Substitution in texts -/

section Texts

variable {Item Letter : Type*} {text : Item → List Letter} {matchLength : List Item → Nat}
  {replacement : List Item} {textLength : List Letter → Nat}

/-- A pattern that matches the texts of items exactly where a pattern of items
does is substituted alike. -/
theorem substitute_flatMap
    (front : ∀ items : List Item, textLength (items.flatMap text) =
      ((items.take (matchLength items)).flatMap text).length)
    (inside : ∀ item, ∃ first others, text item = first :: others ∧
      ∀ letter ∈ others, ∀ rest, textLength (letter :: rest) = 0)
    (items : List Item) :
    substitute textLength (replacement.flatMap text) (items.flatMap text) =
      (substitute matchLength replacement items).flatMap text := by
  induction sameLength : items.length using Nat.strongRecOn generalizing items with
  | _ length inductionHypothesis =>
      cases items with
      | nil => rfl
      | cons item rest =>
          rw [List.length_cons] at sameLength
          have atFront := front (item :: rest)
          obtain ⟨first, others, isText, noMatches⟩ := inside item
          rcases Nat.eq_zero_or_pos (matchLength (item :: rest)) with noMatch | matched
          · rw [noMatch, List.take_zero, List.flatMap_nil, List.length_nil, List.flatMap_cons,
              isText, List.cons_append] at atFront
            rw [substitute_of_noMatch noMatch, List.flatMap_cons, List.flatMap_cons, isText,
              List.cons_append, substitute_of_noMatch atFront,
              substitute_append_of_noMatch noMatches,
              inductionHypothesis rest.length (by omega) rest rfl]
            rfl
          · obtain ⟨before, isBefore⟩ := Nat.exists_eq_succ_of_ne_zero (Nat.ne_of_gt matched)
            have parts : (item :: rest).flatMap text =
                ((item :: rest).take (matchLength (item :: rest))).flatMap text ++
                  ((item :: rest).drop (matchLength (item :: rest))).flatMap text := by
              rw [← List.flatMap_append, List.take_append_drop]
            have positive : 0 < textLength ((item :: rest).flatMap text) := by
              rw [atFront, isBefore, List.take_succ_cons, List.flatMap_cons, isText]
              simp
            have shorter : ((item :: rest).drop (matchLength (item :: rest))).length < length := by
              rw [List.length_drop, List.length_cons]
              omega
            have isCons : (item :: rest).flatMap text = first :: (others ++ rest.flatMap text) := by
              rw [List.flatMap_cons, isText]
              rfl
            rw [substitute_of_match (List.cons_ne_nil _ _) matched, List.flatMap_append,
              ← inductionHypothesis _ shorter _ rfl]
            rw [isCons] at positive ⊢
            rw [substitute_of_match (List.cons_ne_nil _ _) positive, ← isCons, atFront]
            congr 2
            rw [parts]
            exact List.drop_left

end Texts

end BubllioCrm.Foundations
