import Mathlib.Tactic.SplitIfs

/-!
Owns row locks as the holder of each row. A row has one holder by construction,
so what is locked by one holder stays locked through the locks that the others
are granted and release.
-/

namespace BubllioCrm.Foundations

/-- The holder of each row that is locked. -/
abbrev Locks (Row : Type*) := Row → Option Nat

namespace Locks

variable {Row : Type*} {locks : Locks Row} {holder other : Nat} {row : Row}

def free : Locks Row :=
  fun _ => none

/-- The row is not locked by another holder. -/
def Grants (locks : Locks Row) (holder : Nat) (row : Row) : Prop :=
  locks row = none ∨ locks row = some holder

instance : Decidable (Grants locks holder row) :=
  inferInstanceAs (Decidable (_ ∨ _))

def acquire (holder : Nat) (rows : Row → Prop) [DecidablePred rows] (locks : Locks Row) :
    Locks Row :=
  fun row => if rows row then some holder else locks row

def release (holder : Nat) (locks : Locks Row) : Locks Row :=
  fun row => if locks row = some holder then none else locks row

/-- The holder keeps its locks on `rows` and no others. -/
def retain (holder : Nat) (rows : Row → Prop) [DecidablePred rows] (locks : Locks Row) :
    Locks Row :=
  fun row => if locks row = some holder ∧ ¬ rows row then none else locks row

/-- What is granted is not held by another. -/
theorem Grants.eq (grants : locks.Grants holder row) (held : locks row = some other) :
    other = holder := by
  rcases grants with isFree | isHeld
  · rw [isFree] at held
    cases held
  · exact Option.some.inj (held.symm.trans isHeld)

theorem acquire_of_mem {rows : Row → Prop} [DecidablePred rows] (member : rows row) :
    locks.acquire holder rows row = some holder :=
  if_pos member

/-- Locks that are granted take none away. -/
theorem acquire_of_held {rows : Row → Prop} [DecidablePred rows]
    (grants : ∀ row, rows row → locks.Grants holder row) (held : locks row = some other) :
    locks.acquire holder rows row = some other := by
  unfold acquire
  split_ifs with member
  · rw [(grants row member).eq held]
  · exact held

theorem release_of_held (differs : other ≠ holder) (held : locks row = some other) :
    locks.release holder row = some other := by
  unfold release
  rw [if_neg]
  · exact held
  · rw [held]
    exact fun same => differs (Option.some.inj same)

theorem retain_of_mem {rows : Row → Prop} [DecidablePred rows] (member : rows row) :
    locks.retain holder rows row = locks row :=
  if_neg fun dropped => dropped.2 member

theorem retain_of_held {rows : Row → Prop} [DecidablePred rows] (differs : other ≠ holder)
    (held : locks row = some other) : locks.retain holder rows row = some other := by
  unfold retain
  rw [if_neg]
  · exact held
  · rw [held]
    exact fun dropped => differs (Option.some.inj dropped.1)

end Locks

end BubllioCrm.Foundations
