import Mathlib.Data.List.Basic

/-!
Owns nested atomic blocks: what a transaction has written, and what it had
written where each of its open blocks began. A block that ends keeps the writes
in it. A block that raises takes them back.

It does not know what a write is, and it does not commit.
-/

namespace BubllioCrm.Foundations

/-- The writes of a transaction, and those that stood where its open blocks
began, the innermost block first. -/
structure Blocks (Draft : Type*) where
  draft : Draft
  saved : List Draft := []

namespace Blocks

variable {Draft : Type*} {blocks : Blocks Draft} {holds : Draft → Prop}
  {contained : Draft → Draft → Prop} {draft : Draft}

def enter (blocks : Blocks Draft) : Blocks Draft :=
  { blocks with saved := blocks.draft :: blocks.saved }

def write (draft : Draft) (blocks : Blocks Draft) : Blocks Draft :=
  { blocks with draft := draft }

def leave (blocks : Blocks Draft) : Blocks Draft :=
  { blocks with saved := blocks.saved.tail }

/-- The innermost block raises. -/
def abort (blocks : Blocks Draft) : Blocks Draft :=
  match blocks.saved with
  | [] => blocks
  | first :: rest => ⟨first, rest⟩

/-! ### What holds at every level -/

def All (holds : Draft → Prop) (blocks : Blocks Draft) : Prop :=
  ∀ draft ∈ blocks.draft :: blocks.saved, holds draft

theorem All.current (all : blocks.All holds) : holds blocks.draft :=
  all blocks.draft List.mem_cons_self

theorem All.enter (all : blocks.All holds) : blocks.enter.All holds := by
  intro draft member
  rcases List.mem_cons.mp member with isDraft | older
  · rw [isDraft]
    exact all.current
  · exact all draft older

theorem All.write (all : blocks.All holds) (isDraft : holds draft) :
    (blocks.write draft).All holds := by
  intro other member
  rcases List.mem_cons.mp member with isOther | older
  · rw [isOther]
    exact isDraft
  · exact all other (List.mem_cons_of_mem _ older)

theorem All.leave (all : blocks.All holds) : blocks.leave.All holds := by
  intro draft member
  rcases List.mem_cons.mp member with isDraft | older
  · rw [isDraft]
    exact all.current
  · exact all draft (List.mem_cons_of_mem _ (List.mem_of_mem_tail older))

theorem All.abort (all : blocks.All holds) : blocks.abort.All holds := by
  unfold Blocks.abort
  cases levels : blocks.saved with
  | nil => exact all
  | cons first rest =>
      intro draft member
      apply all draft
      rw [levels]
      exact List.mem_cons_of_mem _ member

/-! ### Outer levels within inner ones -/

/-- Every level is contained in the levels inside of it. -/
def Nested (contained : Draft → Draft → Prop) (blocks : Blocks Draft) : Prop :=
  (blocks.draft :: blocks.saved).Pairwise fun inner outer => contained outer inner

theorem Nested.enter (nested : blocks.Nested contained)
    (reflexive : contained blocks.draft blocks.draft) : blocks.enter.Nested contained := by
  apply List.Pairwise.cons _ nested
  intro outer member
  rcases List.mem_cons.mp member with isDraft | older
  · rw [isDraft]
    exact reflexive
  · exact List.rel_of_pairwise_cons nested older

theorem Nested.write (nested : blocks.Nested contained)
    (grows : ∀ outer, contained outer blocks.draft → contained outer draft) :
    (blocks.write draft).Nested contained := by
  apply List.Pairwise.cons _ nested.of_cons
  intro outer member
  exact grows outer (List.rel_of_pairwise_cons nested member)

theorem Nested.leave (nested : blocks.Nested contained) : blocks.leave.Nested contained :=
  nested.sublist ((List.tail_sublist _).cons_cons _)

theorem Nested.abort (nested : blocks.Nested contained) : blocks.abort.Nested contained := by
  unfold Blocks.abort
  cases levels : blocks.saved with
  | nil => exact nested
  | cons first rest =>
      have older := nested.of_cons
      rw [levels] at older
      exact older

end Blocks

end BubllioCrm.Foundations
