import Mathlib.Data.List.Basic

/-!
Owns chains of changes: lists of pairs in which each change starts where the
one before it ended, and how a chain grows by what happened since.
-/

namespace BubllioCrm.Foundations

variable {State : Type*} {first middle last before after : State}
  {changes more : List (State × State)}

/-- The changes lead from `first` to `last`. -/
def Chain (first : State) : List (State × State) → State → Prop
  | [], last => first = last
  | change :: rest, last => change.1 = first ∧ Chain change.2 rest last

instance decidableChain [DecidableEq State] :
    (first : State) → (changes : List (State × State)) → (last : State) →
      Decidable (Chain first changes last)
  | first, [], last => inferInstanceAs (Decidable (first = last))
  | first, change :: rest, last =>
      letI := decidableChain change.2 rest last
      inferInstanceAs (Decidable (change.1 = first ∧ _))

/-- The change from one state to another, if there is any. -/
def changeOf [DecidableEq State] (before after : State) : List (State × State) :=
  if before = after then [] else [(before, after)]

theorem Chain.trans (chain : Chain first changes middle) (next : Chain middle more last) :
    Chain first (changes ++ more) last := by
  induction changes generalizing first with
  | nil =>
      rw [show first = middle from chain]
      exact next
  | cons change rest inductionHypothesis => exact ⟨chain.1, inductionHypothesis chain.2⟩

theorem chain_changeOf [DecidableEq State] (before after : State) :
    Chain before (changeOf before after) after := by
  unfold changeOf
  split_ifs with same
  · exact same
  · exact ⟨rfl, rfl⟩

/-- A change that is recorded when it happens makes a chain longer. -/
theorem Chain.changed [DecidableEq State] (chain : Chain first changes before) (after : State) :
    Chain first (changes ++ changeOf before after) after :=
  chain.trans (chain_changeOf before after)

end BubllioCrm.Foundations
