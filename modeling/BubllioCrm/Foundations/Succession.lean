import BubllioCrm.Foundations.Table

/-!
Owns tables in the order of insertion in which a new row retires the live rows
of its kind: what keeps such a table so, and that a live row is the newest and
the only live one of its kind.
-/

namespace BubllioCrm.Foundations

section Succession

variable {Row Kind : Type*} {kind : Row → Kind} {live : Row → Prop} {rows : List Row}

/-- A row that has a later one of its kind is not live. -/
def Superseded (kind : Row → Kind) (live : Row → Prop) (rows : List Row) : Prop :=
  rows.Pairwise fun earlier later => kind earlier = kind later → ¬ live earlier

theorem superseded_nil : Superseded kind live [] :=
  .nil

/-- An update that keeps the kinds and revives nothing keeps the succession. -/
theorem Superseded.update {selected : Row → Prop} [DecidablePred selected] {change : Row → Row}
    (superseded : Superseded kind live rows) (keeps : ∀ row, kind (change row) = kind row)
    (retires : ∀ row, live (change row) → live row) :
    Superseded kind live (updateWhere selected change rows) := by
  unfold Superseded updateWhere at *
  rw [List.pairwise_map]
  apply superseded.imp
  intro earlier later retired sameKind isLive
  have kinds : ∀ row, kind (if selected row then change row else row) = kind row := by
    intro row
    split_ifs
    · exact keeps row
    · rfl
  rw [kinds, kinds] at sameKind
  apply retired sameKind
  split_ifs at isLive
  · exact retires _ isLive
  · exact isLive

/-- A row may be inserted where no row of its kind is live. -/
theorem Superseded.insert {row : Row} (superseded : Superseded kind live rows)
    (retired : ∀ other ∈ rows, kind other = kind row → ¬ live other) :
    Superseded kind live (rows ++ [row]) := by
  apply List.pairwise_append.mpr
  refine ⟨superseded, List.pairwise_singleton _ _, ?_⟩
  intro earlier stored later isNew
  rw [List.mem_singleton.mp isNew]
  exact retired earlier stored

/-- Two rows of one kind are not both live. -/
theorem Superseded.one_live (superseded : Superseded kind live rows) :
    rows.Pairwise fun first second => kind first = kind second → ¬ (live first ∧ live second) :=
  superseded.imp fun retired sameKind both => retired sameKind both.1

/-- A live row is the newest of its kind. -/
theorem Superseded.newest [DecidableEq Kind] {row : Row} (superseded : Superseded kind live rows)
    (stored : row ∈ rows) (isLive : live row) :
    rows.reverse.find? (fun other => kind other = kind row) = some row := by
  induction rows using List.reverseRecOn with
  | nil => cases stored
  | append_singleton rows last inductionHypothesis =>
      obtain ⟨before, -, across⟩ := List.pairwise_append.mp superseded
      rw [List.reverse_append, List.reverse_singleton, List.singleton_append, List.find?_cons]
      rcases List.mem_append.mp stored with old | new
      · have isOther : kind last ≠ kind row := fun isKin =>
          across row old last (List.mem_singleton_self _) isKin.symm isLive
        simp only [isOther, decide_false]
        exact inductionHypothesis before old
      · simp [List.mem_singleton.mp new]

end Succession

end BubllioCrm.Foundations
