import BubllioCrm.Companies.Numbering
import BubllioCrm.Foundations.Fallible
import Mathlib.Data.List.Sort
import Mathlib.Tactic.SplitIfs

/-!
Owns the migration that seeds the counters of customer codes from the companies
of all workspaces, and the workspace that it leaves.
-/

namespace BubllioCrm.Companies.Numbering

open BubllioCrm.Foundations

/-- A row of a query of the companies of all workspaces. -/
structure LegacyCompany where
  organization : Nat
  company : Company
deriving DecidableEq

/-- The variables of the loop and the rows of `CustomerCodeCounter`. -/
structure Seeding where
  currentOrganization : Option Nat := none
  maximum : Nat := 0
  counters : List (Nat × Nat) := []

namespace Seeding

/-- `Counter.objects.create` for the organization whose rows have ended. -/
def create (seeding : Seeding) : List (Nat × Nat) :=
  match seeding.currentOrganization with
  | none => seeding.counters
  | some organization => seeding.counters ++ [(organization, seeding.maximum)]

/-- The change of the organization between two rows. -/
def turn (seeding : Seeding) (organization : Nat) : Seeding :=
  if seeding.currentOrganization.isSome ∧ seeding.currentOrganization ≠ some organization then
    ⟨some organization, 0, seeding.create⟩
  else { seeding with currentOrganization := some organization }

def visit (seeding : Seeding) (row : LegacyCompany) : Except Failure Seeding :=
  let turned := seeding.turn row.organization
  match codeDigits row.company.customerCode with
  | none => .ok turned
  | some digits =>
      match digitsInt digits with
      | none => .error (.valueError (integerStringLimit digits))
      | some number =>
          if maxCodeNumber < max turned.maximum number then
            .error (.runtimeError ("An existing customer code exceeds the supported counter " ++
              "range. Resolve it before migration."))
          else .ok { turned with maximum := max turned.maximum number }

end Seeding

/-- `order_by('organization_id')`. -/
def ordered (rows : List LegacyCompany) : List LegacyCompany :=
  rows.insertionSort fun first second => first.organization ≤ second.organization

def seedCounters (rows : List LegacyCompany) : Except Failure (List (Nat × Nat)) :=
  ((ordered rows).foldlM Seeding.visit {}).map Seeding.create

/-- A workspace as the migration leaves it. -/
def afterMigration (rows : List LegacyCompany) (organization : Nat) : Except Failure Registry :=
  (seedCounters rows).map fun counters => {
    companies := (rows.filter (·.organization = organization)).map LegacyCompany.company
    counter := counters.lookup organization }

/-! ### The counters cover the codes -/

/-- The rows so far are of organizations up to this one. -/
structure Seeding.Before (seeding : Seeding) (organization : Nat) : Prop where
  current : ∀ current ∈ seeding.currentOrganization, current ≤ organization
  earlier : ∀ entry ∈ seeding.counters, ∃ current ∈ seeding.currentOrganization,
    entry.1 < current

/-- The rows so far end with one of this organization. -/
structure Seeding.Within (seeding : Seeding) (organization : Nat) : Prop where
  current : seeding.currentOrganization = some organization
  earlier : ∀ entry ∈ seeding.counters, entry.1 < organization

variable {seeding next : Seeding} {organization other number : Nat} {row : LegacyCompany}
  {rows : List LegacyCompany}

/-- The counter of an organization if the rows ended here. -/
def Seeding.counted (seeding : Seeding) (organization : Nat) : Option Nat :=
  seeding.create.lookup organization

theorem Seeding.Within.before (within : seeding.Within organization)
    (upTo : organization ≤ other) : seeding.Before other where
  current := by
    intro current isCurrent
    rw [within.current] at isCurrent
    rwa [← Option.some.inj isCurrent]
  earlier entry member := ⟨organization, within.current, within.earlier entry member⟩

theorem Seeding.Within.counted (within : seeding.Within organization) :
    seeding.counted other =
      if other = organization then some seeding.maximum else seeding.counters.lookup other := by
  unfold Seeding.counted Seeding.create
  rw [within.current]
  dsimp only
  rw [List.lookup_append, List.lookup_singleton]
  by_cases same : other = organization
  · have absent : seeding.counters.lookup other = none := by
      rw [List.lookup_eq_none_iff]
      intro entry member
      have below := within.earlier entry member
      exact bne_iff_ne.mpr (by omega)
    rw [if_pos same, absent, Option.none_or, if_pos (beq_iff_eq.mpr same)]
  · rw [if_neg same, if_neg (by simp [same]), Option.or_none]

theorem Seeding.Before.turn (before : seeding.Before organization) :
    (seeding.turn organization).Within organization ∧
      ∀ other, Grows (seeding.counted other) ((seeding.turn organization).counted other) := by
  unfold Seeding.turn
  cases isCurrent : seeding.currentOrganization with
  | none =>
      have empty : seeding.counters = [] := by
        apply List.eq_nil_iff_forall_not_mem.mpr
        intro entry member
        obtain ⟨current, isSome, -⟩ := before.earlier entry member
        rw [isCurrent] at isSome
        cases isSome
      have counted : ∀ other, seeding.counted other = none := by
        intro other
        simp [Seeding.counted, Seeding.create, isCurrent, empty]
      rw [if_neg (by simp)]
      refine ⟨⟨rfl, ?_⟩, fun other => ?_⟩
      · intro entry member
        rw [empty] at member
        cases member
      · rw [counted other]
        exact grows_none _
  | some current =>
      have upTo : current ≤ organization := before.current current isCurrent
      have earlier : ∀ entry ∈ seeding.counters, entry.1 < current := by
        intro entry member
        obtain ⟨found, isFound, below⟩ := before.earlier entry member
        rw [isCurrent] at isFound
        rwa [← Option.some.inj isFound] at below
      by_cases same : current = organization
      · rw [if_neg (by simp [same]), ← same, ← isCurrent]
        exact ⟨⟨isCurrent, earlier⟩, fun other => Grows.refl _⟩
      · rw [if_pos (by simp [same])]
        refine ⟨⟨rfl, ?_⟩, fun other => ?_⟩
        · intro entry member
          simp only [Seeding.create, isCurrent] at member
          rcases List.mem_append.mp member with old | new
          · have below := earlier entry old
            omega
          · rw [List.mem_singleton.mp new]
            show current < organization
            omega
        · intro last isLast
          refine ⟨last, ?_, Nat.le_refl last⟩
          have isFound : seeding.create.lookup other = some last := isLast
          show (seeding.create ++ [(organization, 0)]).lookup other = some last
          rw [List.lookup_append, isFound, Option.some_or]

/-- The maximum of the organization goes up. -/
theorem Seeding.Within.raise (within : seeding.Within organization)
    (above : seeding.maximum ≤ number) :
    ({ seeding with maximum := number } : Seeding).Within organization ∧
      ∀ other, Grows (seeding.counted other)
        (({ seeding with maximum := number } : Seeding).counted other) := by
  have raised : ({ seeding with maximum := number } : Seeding).Within organization :=
    ⟨within.current, within.earlier⟩
  refine ⟨raised, fun other => ?_⟩
  rw [within.counted, raised.counted]
  by_cases same : other = organization
  · rw [if_pos same, if_pos same]
    exact grows_some above
  · rw [if_neg same, if_neg same]
    exact Grows.refl _

theorem Seeding.Before.visit (before : seeding.Before row.organization)
    (visited : seeding.visit row = .ok next) :
    next.Within row.organization ∧ (∀ other, Grows (seeding.counted other) (next.counted other)) ∧
      Covers (next.counted row.organization) row.company.customerCode := by
  obtain ⟨within, grows⟩ := before.turn
  unfold Seeding.visit at visited
  dsimp only at visited
  cases isDigits : codeDigits row.company.customerCode with
  | none =>
      rw [isDigits] at visited
      cases visited
      exact ⟨within, grows, covers_of_codeDigits_eq_none isDigits⟩
  | some digits =>
      rw [isDigits] at visited
      dsimp only at visited
      cases isNumber : digitsInt digits with
      | none =>
          rw [isNumber] at visited
          cases visited
      | some number =>
          rw [isNumber] at visited
          dsimp only at visited
          split_ifs at visited
          cases visited
          obtain ⟨raised, higher⟩ := within.raise (Nat.le_max_left _ number)
          refine ⟨raised, fun other => (grows other).trans (higher other), ?_⟩
          rw [raised.counted, if_pos rfl]
          exact covers_some (codeNumber_eq_of_digitsInt isDigits isNumber) (Nat.le_max_right _ _)

theorem Seeding.Before.visitAll (sorted : rows.Pairwise fun first second =>
      first.organization ≤ second.organization)
    (before : ∀ row ∈ rows, seeding.Before row.organization)
    (visited : rows.foldlM Seeding.visit seeding = .ok next) :
    (∀ other, Grows (seeding.counted other) (next.counted other)) ∧
      ∀ row ∈ rows, Covers (next.counted row.organization) row.company.customerCode := by
  induction rows generalizing seeding with
  | nil =>
      cases visited
      exact ⟨fun other => Grows.refl _, List.forall_mem_nil _⟩
  | cons row rest inductionHypothesis =>
      rw [List.foldlM_cons] at visited
      obtain ⟨middle, first, others⟩ := bind_eq_ok.mp visited
      obtain ⟨within, grows, covers⟩ := (before row List.mem_cons_self).visit first
      obtain ⟨later, coversRest⟩ := inductionHypothesis sorted.of_cons
        (fun other member => within.before (List.rel_of_pairwise_cons sorted member)) others
      refine ⟨fun other => (grows other).trans (later other), ?_⟩
      exact List.forall_mem_cons.mpr ⟨covers.grow (later row.organization), coversRest⟩

/-- The migration leaves a counter for every code that carries a number. -/
theorem seedCounters_covers {counters : List (Nat × Nat)}
    (seeded : seedCounters rows = .ok counters) :
    ∀ row ∈ rows, Covers (counters.lookup row.organization) row.company.customerCode := by
  unfold seedCounters at seeded
  cases visited : (ordered rows).foldlM Seeding.visit {} with
  | error failure =>
      rw [visited] at seeded
      cases seeded
  | ok last =>
      rw [visited] at seeded
      cases seeded
      have sorted : (ordered rows).Pairwise fun first second =>
          first.organization ≤ second.organization := List.pairwise_insertionSort _ rows
      have start : ∀ row ∈ ordered rows, ({} : Seeding).Before row.organization :=
        fun row _ => ⟨fun _ isCurrent => absurd isCurrent (Option.not_mem_none _),
          List.forall_mem_nil _⟩
      intro row member
      exact (Seeding.Before.visitAll sorted start visited).2 row
        ((List.mem_insertionSort _).mpr member)

end BubllioCrm.Companies.Numbering
