import Mathlib.Data.List.Basic

/-!
Owns pools of threads as lists: the thread at a position is replaced by the
threads it turns into, none or several.
-/

namespace BubllioCrm.Foundations

variable {Thread : Type*}

/-- The pool in which the thread at `index` has turned into `next`. -/
def replaceAt (index : Nat) (next : List Thread) (pool : List Thread) : List Thread :=
  pool.take index ++ next ++ pool.drop (index + 1)

/-- A pool splits at any of its threads, and a replacement at that position
leaves both sides alone. -/
theorem exists_replaceAt {pool : List Thread} {index : Nat} {thread : Thread}
    (found : pool[index]? = some thread) :
    ∃ front back, pool = front ++ thread :: back ∧
      ∀ next, replaceAt index next pool = front ++ next ++ back := by
  obtain ⟨inside, rfl⟩ := List.getElem?_eq_some_iff.mp found
  refine ⟨pool.take index, pool.drop (index + 1), ?_, fun _ => rfl⟩
  rw [List.getElem_cons_drop, List.take_append_drop]

/-- Where there is no thread, none is taken away. -/
theorem replaceAt_of_none {pool : List Thread} {index : Nat} (missing : pool[index]? = none) :
    replaceAt index [] pool = pool := by
  have outside : pool.length ≤ index := List.getElem?_eq_none_iff.mp missing
  rw [replaceAt, List.take_of_length_le outside, List.drop_of_length_le (by omega)]
  simp

theorem mem_of_mem_replaceAt {pool next : List Thread} {index : Nat} {thread : Thread}
    (member : thread ∈ replaceAt index next pool) : thread ∈ next ∨ thread ∈ pool := by
  simp only [replaceAt, List.mem_append] at member
  rcases member with (early | new) | late
  · exact Or.inr (List.mem_of_mem_take early)
  · exact Or.inl new
  · exact Or.inr (List.mem_of_mem_drop late)

end BubllioCrm.Foundations
