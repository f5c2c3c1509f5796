import Mathlib.Data.List.Basic
import Mathlib.Logic.Function.Basic

/-!
Owns tables whose rows each have an owner, and the argument that no reference
crosses from one owner to another: every id is issued to one owner for good, so
a reference that was checked stays with its owner while rows come and go.

It does not know what the tables are, or who checks a reference.
-/

namespace BubllioCrm.Foundations

/-- The id, the owner and the references of a row, by the column of each. -/
structure OwnedRow (Column : Type*) where
  id : Nat
  owner : Nat
  references : List (Column × Option Nat) := []
deriving DecidableEq

section Ownership

variable {Dataset Column : Type*} {issued later : Nat → Option Nat} {row : OwnedRow Column}
  {tables : Dataset → List (OwnedRow Column)} {target : Column → Dataset}

/-- The id of a row and what the row refers to are issued to its owner. -/
def OwnedRow.Placed (issued : Nat → Option Nat) (row : OwnedRow Column) : Prop :=
  issued row.id = some row.owner ∧
    ∀ reference ∈ row.references, ∀ sought ∈ reference.2, issued sought = some row.owner

/-- No id changes its owner. -/
def Extends (issued later : Nat → Option Nat) : Prop :=
  ∀ id owner, issued id = some owner → later id = some owner

theorem extends_refl : Extends issued issued :=
  fun _ _ isOwner => isOwner

/-- An id that nobody has is issued. -/
theorem extends_update {id owner : Nat} (fresh : issued id = none) :
    Extends issued (Function.update issued id (some owner)) := by
  intro other holder isHolder
  have differs : other ≠ id := by
    rintro rfl
    rw [fresh] at isHolder
    cases isHolder
  rw [Function.update_of_ne differs]
  exact isHolder

theorem OwnedRow.Placed.extend (placed : row.Placed issued) (grown : Extends issued later) :
    row.Placed later :=
  ⟨grown _ _ placed.1, fun reference listed sought refers =>
    grown _ _ (placed.2 reference listed sought refers)⟩

/-! ### References between tables -/

/-- Every reference leads to a row. -/
def Linked (target : Column → Dataset) (tables : Dataset → List (OwnedRow Column)) : Prop :=
  ∀ dataset, ∀ row ∈ tables dataset, ∀ reference ∈ row.references, ∀ sought ∈ reference.2,
    ∃ other ∈ tables (target reference.1), other.id = sought

/-- Every reference leads to a row, and only to rows of the same owner. -/
def Isolated (target : Column → Dataset) (tables : Dataset → List (OwnedRow Column)) : Prop :=
  ∀ dataset, ∀ row ∈ tables dataset, ∀ reference ∈ row.references, ∀ sought ∈ reference.2,
    (∃ other ∈ tables (target reference.1), other.id = sought) ∧
      ∀ other ∈ tables (target reference.1), other.id = sought → other.owner = row.owner

/-- Rows with one id have one owner. -/
theorem owner_eq {first second : OwnedRow Column} (firstPlaced : first.Placed issued)
    (secondPlaced : second.Placed issued) (same : first.id = second.id) :
    first.owner = second.owner := by
  have isOwner := firstPlaced.1
  rw [same, secondPlaced.1] at isOwner
  exact (Option.some.inj isOwner).symm

/-- Where all rows are placed, no reference leads to another owner. -/
theorem isolated_of_placed (placed : ∀ dataset, ∀ row ∈ tables dataset, row.Placed issued)
    (linked : Linked target tables) : Isolated target tables := by
  intro dataset row stored reference listed sought refers
  refine ⟨linked dataset row stored reference listed sought refers, ?_⟩
  intro other otherStored isSought
  have toRow := (placed dataset row stored).2 reference listed sought refers
  have toOther := (placed _ other otherStored).1
  rw [isSought, toRow] at toOther
  exact (Option.some.inj toOther).symm

end Ownership

end BubllioCrm.Foundations
