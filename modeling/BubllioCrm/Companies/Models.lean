import BubllioCrm.Foundations.Digits
import BubllioCrm.Foundations.Table

/-!
Owns the rows of the companies of a workspace, the writes of their saves, and
customer codes: the numbers that codes of the form `CUS-<digits>` carry and the
code of a number.

Names, addresses, notes and times are not owned here, and the columns of this
module are those that saves, assignments and archiving read.
-/

namespace BubllioCrm.Companies

open BubllioCrm.Foundations

structure Company where
  id : Nat
  customerCode : String := ""
  assignedTo : Option Nat := none
  archivedAt : Option Nat := none
deriving DecidableEq

inductive Column where
  | customerCode
  | assignedTo
  | archivedAt
deriving DecidableEq

/-- The row that `save` of an instance writes over the stored one. With
`update_fields` it writes these columns alone. -/
def Company.onto (company : Company) (updateFields : Option (List Column)) (stored : Company) :
    Company :=
  match updateFields with
  | none => company
  | some columns => {
      id := stored.id
      customerCode :=
        if .customerCode ∈ columns then company.customerCode else stored.customerCode
      assignedTo := if .assignedTo ∈ columns then company.assignedTo else stored.assignedTo
      archivedAt := if .archivedAt ∈ columns then company.archivedAt else stored.archivedAt }

/-- A change of the table, with all columns of a row that is written. -/
inductive Change where
  | put (company : Company)
  | remove (id : Nat)
deriving DecidableEq

def Change.apply (companies : List Company) : Change → List Company
  | .put company =>
      if ∃ stored ∈ companies, stored.id = company.id then
        updateWhere (·.id = company.id) (fun _ => company) companies
      else companies ++ [company]
  | .remove id => companies.filter (·.id ≠ id)

def applyAll (changes : List Change) (companies : List Company) : List Company :=
  changes.foldl Change.apply companies

def Change.id : Change → Nat
  | .put company => company.id
  | .remove id => id

variable {change : Change} {changes : List Change} {companies : List Company} {company : Company}

theorem mem_apply (member : company ∈ change.apply companies) :
    change = .put company ∨ company ∈ companies ∧ change.id ≠ company.id := by
  cases change with
  | put written =>
      simp only [Change.apply] at member
      split at member
      · obtain ⟨stored, wasStored, ⟨-, rfl⟩ | ⟨isOther, rfl⟩⟩ := mem_updateWhere.mp member
        · exact Or.inl rfl
        · exact Or.inr ⟨wasStored, Ne.symm isOther⟩
      · rename_i isNew
        rcases List.mem_append.mp member with old | new
        · exact Or.inr ⟨old, fun same => isNew ⟨company, old, same.symm⟩⟩
        · rw [List.mem_singleton.mp new]
          exact Or.inl rfl
  | remove id =>
      obtain ⟨stored, isOther⟩ := List.mem_filter.mp member
      exact Or.inr ⟨stored, Ne.symm (of_decide_eq_true isOther)⟩

/-- A row that a change is not about stays. -/
theorem mem_apply_of_ne (stored : company ∈ companies) (isOther : change.id ≠ company.id) :
    company ∈ change.apply companies := by
  cases change with
  | put written =>
      simp only [Change.apply]
      split
      · exact mem_updateWhere_of_not_selected stored (Ne.symm isOther)
      · exact List.mem_append_left _ stored
  | remove id =>
      rw [Change.apply, List.mem_filter, decide_eq_true_eq]
      exact ⟨stored, Ne.symm isOther⟩

theorem nodup_apply (distinct : (companies.map Company.id).Nodup) :
    ((change.apply companies).map Company.id).Nodup := by
  cases change with
  | put written =>
      simp only [Change.apply]
      split
      · rw [map_updateWhere_of_mem fun row _ isWritten => Eq.symm isWritten]
        exact distinct
      · rename_i isNew
        rw [List.map_append, List.map_singleton, List.nodup_append]
        refine ⟨distinct, List.nodup_singleton _, fun id isStored other isWritten same => ?_⟩
        obtain ⟨stored, member, isId⟩ := List.mem_map.mp isStored
        rw [List.mem_singleton] at isWritten
        exact isNew ⟨stored, member, isId.trans (same.trans isWritten)⟩
  | remove id => exact distinct.sublist (List.filter_sublist.map _)

/-- A row after some changes is one of those written, or it was there before them
and no change is about it. -/
theorem mem_applyAll (member : company ∈ applyAll changes companies) :
    .put company ∈ changes ∨
      company ∈ companies ∧ ∀ change ∈ changes, change.id ≠ company.id := by
  induction changes generalizing companies with
  | nil => exact Or.inr ⟨member, List.forall_mem_nil _⟩
  | cons change rest inductionHypothesis =>
      rcases inductionHypothesis member with later | ⟨here, others⟩
      · exact Or.inl (List.mem_cons_of_mem _ later)
      · rcases mem_apply here with isPut | ⟨stored, isOther⟩
        · exact Or.inl (List.mem_cons.mpr (Or.inl isPut.symm))
        · exact Or.inr ⟨stored, List.forall_mem_cons.mpr ⟨isOther, others⟩⟩

theorem mem_applyAll_of_ne (stored : company ∈ companies)
    (isOther : ∀ change ∈ changes, change.id ≠ company.id) :
    company ∈ applyAll changes companies := by
  induction changes generalizing companies with
  | nil => exact stored
  | cons change rest inductionHypothesis =>
      obtain ⟨first, others⟩ := List.forall_mem_cons.mp isOther
      exact inductionHypothesis (mem_apply_of_ne stored first) others

theorem nodup_applyAll (distinct : (companies.map Company.id).Nodup) :
    ((applyAll changes companies).map Company.id).Nodup := by
  induction changes generalizing companies with
  | nil => exact distinct
  | cons change rest inductionHypothesis => exact inductionHypothesis (nodup_apply distinct)

/-! ### Customer codes -/

/-- The digits of a code that starts with `CUS-` and goes on with ASCII digits,
`isascii() and isdigit()`. -/
def codeDigits (code : String) : Option (List Char) :=
  let suffix := code.toList.drop 4
  if "CUS-".toList <+: code.toList ∧ suffix ≠ [] ∧ suffix.all Char.isDigit = true then
    some suffix
  else none

def codeNumber (code : String) : Option Nat :=
  (codeDigits code).map decimalNumber

/-- `f"CUS-{number:05d}"`. -/
def formatCode (number : Nat) : String :=
  "CUS-" ++ String.ofList ((Nat.toDigits 10 number).leftpad 5 '0')

/-- A counter is at least the number that a code carries, if it carries one. -/
def Covers (counter : Option Nat) (code : String) : Prop :=
  ∀ number ∈ codeNumber code, ∃ last ∈ counter, number ≤ last

/-- A counter that was there is there later, and no smaller. -/
def Grows (before after : Option Nat) : Prop :=
  ∀ last ∈ before, ∃ later ∈ after, last ≤ later

/-- The largest number that an explicit code may carry. -/
def maxCodeNumber : Nat := 9223372036854775806

/-- The largest value of a `PositiveBigIntegerField`. -/
def maxBigInteger : Nat := 9223372036854775807

/-- `max_length` of `customer_code`. -/
def maxCodeLength : Nat := 24

theorem decimalNumber_replicate_zero (count : Nat) (digits : List Char) :
    decimalNumber (List.replicate count '0' ++ digits) = decimalNumber digits := by
  induction count with
  | zero => rfl
  | succ count inductionHypothesis =>
      have leading : decimalNumber ('0' :: (List.replicate count '0' ++ digits)) =
          decimalNumber (List.replicate count '0' ++ digits) := rfl
      exact leading.trans inductionHypothesis

/-- A code of a number carries it. -/
theorem codeNumber_formatCode (number : Nat) : codeNumber (formatCode number) = some number := by
  have isDigit : ∀ char ∈ (Nat.toDigits 10 number).leftpad 5 '0', char.isDigit = true := by
    intro char member
    rcases List.mem_append.mp member with zero | digit
    · rw [(List.mem_replicate.mp zero).2]
      decide
    · exact Nat.isDigit_of_mem_toDigits (by decide) (by decide) digit
  have nonempty : (Nat.toDigits 10 number).leftpad 5 '0' ≠ [] := by
    intro empty
    exact List.ne_nil_of_length_pos Nat.length_toDigits_pos (List.append_eq_nil_iff.mp empty).2
  have chars : (formatCode number).toList =
      "CUS-".toList ++ (Nat.toDigits 10 number).leftpad 5 '0' := by
    rw [formatCode, String.toList_append, String.toList_ofList, String.toList_ofList]
  have suffix : (formatCode number).toList.drop 4 = (Nat.toDigits 10 number).leftpad 5 '0' := by
    rw [chars]
    rfl
  have isPrefix : "CUS-".toList <+: (formatCode number).toList := by
    rw [chars]
    exact List.prefix_append _ _
  unfold codeNumber codeDigits
  dsimp only
  rw [suffix, if_pos ⟨isPrefix, nonempty, List.all_eq_true.mpr isDigit⟩]
  have isNumber : decimalNumber ((Nat.toDigits 10 number).leftpad 5 '0') = number :=
    (decimalNumber_replicate_zero _ _).trans (decimalNumber_toDigits number)
  exact congrArg some isNumber

/-! ### Counters that grow -/

theorem Grows.refl (counter : Option Nat) : Grows counter counter :=
  fun last isLast => ⟨last, isLast, Nat.le_refl last⟩

theorem Grows.trans {first second third : Option Nat} (early : Grows first second)
    (late : Grows second third) : Grows first third := by
  intro last isLast
  obtain ⟨middle, isMiddle, below⟩ := early last isLast
  obtain ⟨later, isLater, above⟩ := late middle isMiddle
  exact ⟨later, isLater, Nat.le_trans below above⟩

theorem grows_some {before after : Nat} (below : before ≤ after) :
    Grows (some before) (some after) := by
  intro last isLast
  rw [← Option.some.inj isLast]
  exact ⟨after, rfl, below⟩

theorem grows_none (counter : Option Nat) : Grows none counter :=
  fun _ isLast => nomatch isLast

theorem Covers.grow {before after : Option Nat} {code : String} (covers : Covers before code)
    (grows : Grows before after) : Covers after code := by
  intro number carries
  obtain ⟨last, isLast, below⟩ := covers number carries
  obtain ⟨later, isLater, above⟩ := grows last isLast
  exact ⟨later, isLater, Nat.le_trans below above⟩

/-- A code without a number is covered by any counter. -/
theorem covers_of_codeDigits_eq_none {counter : Option Nat} {code : String}
    (noDigits : codeDigits code = none) : Covers counter code := by
  intro number carries
  rw [codeNumber, noDigits] at carries
  cases carries

theorem codeNumber_eq_of_digitsInt {code : String} {digits : List Char} {number : Nat}
    (isDigits : codeDigits code = some digits) (isNumber : digitsInt digits = some number) :
    codeNumber code = some number := by
  rw [codeNumber, isDigits, Option.map_some]
  unfold digitsInt at isNumber
  split at isNumber
  · cases isNumber
  · exact isNumber

theorem covers_some {code : String} {number last : Nat} (carries : codeNumber code = some number)
    (below : number ≤ last) : Covers (some last) code := by
  intro other isOther
  rw [carries] at isOther
  rw [← Option.some.inj isOther]
  exact ⟨last, rfl, below⟩

end BubllioCrm.Companies
