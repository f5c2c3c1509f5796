import Mathlib.Algebra.Order.Ring.Int
import Mathlib.Data.Int.Basic
import Mathlib.Tactic.Ring

/-!
Owns loops that ask until an answer decides or a deadline has passed: the first
outcome of the passes, that a wait between them brings the deadline, and when
the loop ends with an answer.
-/

namespace BubllioCrm.Foundations

section Passes

variable {Result : Type*} {outcome : Nat → Option Result} {result : Result}

/-- The first outcome of the passes from `pass` on. -/
def firstOutcome (outcome : Nat → Option Result) : Nat → Nat → Option Result
  | 0, _ => none
  | fuel + 1, pass =>
      match outcome pass with
      | some result => some result
      | none => firstOutcome outcome fuel (pass + 1)

/-- The outcome of the pass is the first one. -/
structure FirstAt (outcome : Nat → Option Result) (first pass : Nat) (result : Result) : Prop where
  reached : first ≤ pass
  decides : outcome pass = some result
  before : ∀ earlier, first ≤ earlier → earlier < pass → outcome earlier = none

theorem firstOutcome_eq_some {fuel first : Nat} :
    firstOutcome outcome fuel first = some result ↔
      ∃ pass, pass < first + fuel ∧ FirstAt outcome first pass result := by
  induction fuel generalizing first with
  | zero =>
      constructor
      · exact nofun
      · intro ⟨pass, bound, at_pass⟩
        have reached := at_pass.reached
        omega
  | succ fuel inductionHypothesis =>
      unfold firstOutcome
      cases decided : outcome first with
      | some found =>
          constructor
          · intro same
            rw [Option.some.injEq] at same
            refine ⟨first, by omega, le_rfl, by rw [decided, same], ?_⟩
            intro earlier notBefore before
            omega
          · intro ⟨pass, _, at_pass⟩
            have isFirst : pass = first := by
              by_contra differs
              have reached := at_pass.reached
              have undecided := at_pass.before first le_rfl (by omega)
              rw [decided] at undecided
              cases undecided
            have decides := at_pass.decides
            rw [isFirst, decided] at decides
            exact decides
      | none =>
          have later := @inductionHypothesis (first + 1)
          refine later.trans ?_
          constructor
          · intro ⟨pass, bound, at_pass⟩
            have reached := at_pass.reached
            refine ⟨pass, by omega, by omega, at_pass.decides, ?_⟩
            intro earlier notBefore before
            by_cases isFirst : earlier = first
            · rw [isFirst, decided]
            · exact at_pass.before earlier (by omega) before
          · intro ⟨pass, bound, at_pass⟩
            have reached := at_pass.reached
            have differs : pass ≠ first := by
              intro isFirst
              have decides := at_pass.decides
              rw [isFirst, decided] at decides
              cases decides
            refine ⟨pass, by omega, by omega, at_pass.decides, ?_⟩
            exact fun earlier notBefore => at_pass.before earlier (by omega)

end Passes

/-! ### Waits and deadlines -/

/-- The clock at the passes of a loop that waits between them. -/
structure Pacing (interval : Int) where
  started : Int
  clock : Nat → Int
  begins : started ≤ clock 0
  waits : ∀ pass, clock pass + interval ≤ clock (pass + 1)

section Deadline

variable {interval timeout : Int} {pacing : Pacing interval} {Result : Type*}
  {judge : Nat → Option Result} {result expired : Result}

theorem Pacing.le_clock (pacing : Pacing interval) (pass : Nat) :
    pacing.started + pass * interval ≤ pacing.clock pass := by
  induction pass with
  | zero =>
      have begins := pacing.begins
      simpa using begins
  | succ pass inductionHypothesis =>
      have waits := pacing.waits pass
      have next : ((pass + 1 : Nat) : Int) * interval = pass * interval + interval := by
        push_cast
        ring
      omega

theorem Pacing.clock_mono (pacing : Pacing interval) (positive : 0 < interval) {earlier pass : Nat}
    (before : earlier ≤ pass) : pacing.clock earlier ≤ pacing.clock pass := by
  induction before with
  | refl => exact le_rfl
  | step _ inductionHypothesis =>
      rename_i later _
      have waits : pacing.clock later + interval ≤ pacing.clock later.succ := pacing.waits later
      omega

/-- The passes that can start before the deadline, and one more. -/
def passesWithin (interval timeout : Int) : Nat :=
  (timeout / interval).toNat + 2

/-- A loop that asks while the deadline has not passed. -/
def pollUntil (pacing : Pacing interval) (timeout : Int) (judge : Nat → Option Result)
    (expired : Result) : Option Result :=
  firstOutcome (fun pass =>
    if pacing.clock pass < pacing.started + timeout then judge pass else some expired)
    (passesWithin interval timeout) 0

theorem pass_lt (positive : 0 < interval) {pass : Nat}
    (open_at : pacing.clock pass < pacing.started + timeout) :
    pass + 1 < passesWithin interval timeout := by
  have begun := pacing.le_clock pass
  have bound : (pass : Int) ≤ timeout / interval :=
    (Int.le_ediv_iff_mul_le positive).mpr (by omega)
  unfold passesWithin
  omega

/-- The loop ends. -/
theorem pollUntil_isSome (positive : 0 < interval) :
    ∃ result, pollUntil pacing timeout judge expired = some result := by
  by_contra never
  have undecided : ∀ pass, pass < passesWithin interval timeout →
      (if pacing.clock pass < pacing.started + timeout then judge pass else some expired) =
        none := by
    intro pass bound
    induction pass using Nat.strong_induction_on with
    | h pass inductionHypothesis =>
        cases decided : (if pacing.clock pass < pacing.started + timeout then judge pass
            else some expired) with
        | none => rfl
        | some found =>
            refine absurd ⟨found, firstOutcome_eq_some.mpr ⟨pass, by omega, Nat.zero_le pass,
              decided, ?_⟩⟩ never
            exact fun earlier _ before => inductionHypothesis earlier before (by omega)
  have last := undecided (passesWithin interval timeout - 1) (by unfold passesWithin; omega)
  split_ifs at last with open_at
  have bound := pass_lt positive open_at
  omega

/-- The pass starts before the deadline with an answer that decides, and no
earlier one decides otherwise. -/
structure AnswersAt (pacing : Pacing interval) (timeout : Int) (judge : Nat → Option Result)
    (pass : Nat) (result : Result) : Prop where
  inTime : pacing.clock pass < pacing.started + timeout
  decides : judge pass = some result
  before : ∀ earlier < pass, ∀ other, judge earlier = some other → other = result

/-- The loop ends with an answer exactly when one decides in time. -/
theorem pollUntil_eq_some (positive : 0 < interval) (notExpired : result ≠ expired) :
    pollUntil pacing timeout judge expired = some result ↔
      ∃ pass, AnswersAt pacing timeout judge pass result := by
  unfold pollUntil
  rw [firstOutcome_eq_some]
  constructor
  · intro ⟨pass, bound, at_pass⟩
    have decides := at_pass.decides
    split_ifs at decides with inTime
    · refine ⟨pass, inTime, decides, fun earlier before other decidesOther => ?_⟩
      have undecided := at_pass.before earlier (Nat.zero_le earlier) before
      have mono := pacing.clock_mono positive before.le
      rw [if_pos (by omega), decidesOther] at undecided
      cases undecided
    · exact absurd (Option.some.inj decides).symm notExpired
  · intro ⟨pass, answers⟩
    induction pass using Nat.strong_induction_on with
    | h pass inductionHypothesis =>
        by_cases undecided : ∀ earlier < pass, judge earlier = none
        · have bound := pass_lt positive answers.inTime
          refine ⟨pass, by omega, Nat.zero_le pass, ?_, fun earlier _ before => ?_⟩
          · rw [if_pos answers.inTime, answers.decides]
          · have mono := pacing.clock_mono positive before.le
            have inTime := answers.inTime
            rw [if_pos (by omega), undecided earlier before]
        · simp only [not_forall] at undecided
          have ⟨earlier, before, decided⟩ := undecided
          have ⟨other, isOther⟩ := Option.ne_none_iff_exists'.mp decided
          have mono := pacing.clock_mono positive before.le
          have inTime := answers.inTime
          refine inductionHypothesis earlier before ⟨by omega, ?_, ?_⟩
          · rw [isOther, answers.before earlier before other isOther]
          · exact fun first isFirst => answers.before first (isFirst.trans before)

end Deadline

end BubllioCrm.Foundations
