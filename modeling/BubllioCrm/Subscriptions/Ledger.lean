import BubllioCrm.Subscriptions.Runs
import Mathlib.Tactic.Ring

/-!
Owns the billing tables as a whole: all accounts together with the create
requests that have written their row but not yet their first charge, the
interleaving of every request on every subscription, and the ledger invariant.

A create request takes no lock, so its two writes are two actions and anything
may happen in between, a crash included. Every other request is one action,
because it holds the lock on its subscription row from its first read to its
commit.
-/

namespace BubllioCrm.Subscriptions

open BubllioCrm.Foundations

structure Ledger where
  accounts : Nat → Option Account
  /-- Rows that create requests hold in memory before they write the first
  charge. -/
  opening : Nat → Option CustomerSubscription

namespace Ledger

def empty : Ledger where
  accounts := fun _ => none
  opening := fun _ => none

/-- The charges stored for a subscription. -/
def chargesOf (ledger : Ledger) (id : Nat) : List Charge :=
  ((ledger.accounts id).map Account.charges).getD []

end Ledger

inductive LedgerAction where
  | insert (id : Nat) (validatedData : SubscriptionAttrs)
  | chargeFirst (id : Nat)
  | serve (id : Nat) (request : Request)

def Ledger.step (ledger : Ledger) (action : LedgerAction) : Ledger :=
  match action with
  | .insert id validatedData =>
      match ledger.accounts id, insertSubscription validatedData with
      | none, .ok row =>
          { accounts := Function.update ledger.accounts id (some ⟨row, []⟩)
            opening := Function.update ledger.opening id (some row) }
      | _, _ => ledger
  | .chargeFirst id =>
      match ledger.accounts id, ledger.opening id with
      | some account, some row =>
          { accounts := Function.update ledger.accounts id
              (some { account with charges := firstCharge row account.charges })
            opening := Function.update ledger.opening id none }
      | _, _ => ledger
  | .serve id request =>
      match ledger.accounts id with
      | some account =>
          { ledger with
            accounts :=
              Function.update ledger.accounts id (some (Subscriptions.step account request)) }
      | none => ledger

/-! ### The invariant of one charge -/

/-- The inductive form of the ledger invariant of a charge. -/
structure Charge.Sound (charge : Charge) : Prop where
  gross : charge.grossAmount = charge.netAmount + charge.taxAmount
  tax : charge.taxAmount = taxOf charge.netAmount charge.taxRate
  net_nonneg : 0 ≤ charge.netAmount
  rate_nonneg : 0 ≤ charge.taxRate
  payments_pos : ∀ payment ∈ charge.payments, 0 < payment.amount
  paid_le : charge.paidAmount ≤ charge.grossAmount

theorem Charge.paidAmount_addPayment (charge : Charge) (payment : Payment) :
    (charge.addPayment payment).paidAmount = charge.paidAmount + payment.amount := by
  simp [Charge.paidAmount, Charge.addPayment]

theorem Charge.Sound.paid_nonneg {charge : Charge} (sound : charge.Sound) :
    0 ≤ charge.paidAmount := by
  apply List.sum_nonneg
  intro amount member
  obtain ⟨payment, paid, rfl⟩ := List.mem_map.mp member
  exact (sound.payments_pos payment paid).le

theorem Charge.Sound.paid_pos {charge : Charge} (sound : charge.Sound)
    (some : charge.payments ≠ []) : 0 < charge.paidAmount := by
  unfold Charge.paidAmount
  cases payments : charge.payments with
  | nil => exact absurd payments some
  | cons first rest =>
      have firstPos := sound.payments_pos first (by simp [payments])
      have restNonneg : 0 ≤ (rest.map Payment.amount).sum := by
        apply List.sum_nonneg
        intro amount member
        obtain ⟨payment, paid, rfl⟩ := List.mem_map.mp member
        exact (sound.payments_pos payment (by simp [payments, paid])).le
      simp only [List.map_cons, List.sum_cons]
      omega

theorem newCharge_sound {subscription : CustomerSubscription} {id : Nat}
    {dueDate coverageEnd : Date}
    (valid : (newCharge subscription id dueDate coverageEnd).RowValid) :
    (newCharge subscription id dueDate coverageEnd).Sound where
  gross := rfl
  tax := rfl
  net_nonneg := valid.net_nonneg
  rate_nonneg := valid.rate_nonneg
  payments_pos := by simp [newCharge]
  paid_le := valid.gross_nonneg

section Effects

variable {account : Account} {request : Request} {before after : Charge}

theorem Charge.Sound.setState {charge : Charge} (sound : charge.Sound) (state : ChargeState) :
    (charge.setState state).Sound :=
  ⟨sound.gross, sound.tax, sound.net_nonneg, sound.rate_nonneg, sound.payments_pos, sound.paid_le⟩

theorem Charge.Sound.addPayment {charge : Charge} {payment : Payment} (sound : charge.Sound)
    (accepts : charge.Accepts payment) : (charge.addPayment payment).Sound where
  gross := sound.gross
  tax := sound.tax
  net_nonneg := sound.net_nonneg
  rate_nonneg := sound.rate_nonneg
  payments_pos := by
    intro other member
    rcases List.mem_append.mp member with old | new
    · exact sound.payments_pos other old
    · exact List.mem_singleton.mp new ▸ accepts.positive
  paid_le := by
    rw [Charge.paidAmount_addPayment]
    have within := accepts.within
    have positive := accepts.positive
    change charge.paidAmount + payment.amount ≤ charge.grossAmount
    unfold Charge.outstandingAmount at within
    omega

/-- No request breaks the invariant of a charge: an edit is refused below what
was paid, and a payment above what is outstanding. -/
theorem ChargeEffect.sound (effect : ChargeEffect account request before after)
    (sound : before.Sound) : after.Sound := by
  cases effect with
  | same => exact sound
  | repriced isUpdate commercial editable covered sameCurrency valid =>
      exact ⟨rfl, rfl, valid.net_nonneg, valid.rate_nonneg, sound.payments_pos, covered⟩
  | paid isPayment accepts => exact sound.addPayment accepts
  | cancelled cut isOpen later => exact sound.setState .cancelled
  | reopened isResume extended isCancelled => exact sound.setState .open

theorem Creation.sound (created : Creation account request after) : after.Sound := by
  obtain ⟨coverageEnd, -, row⟩ := created.row
  have valid := created.valid
  rw [row] at valid ⊢
  exact newCharge_sound valid

/-- A request adds payments to open charges only. -/
theorem ChargeEffect.paid_open (effect : ChargeEffect account request before after)
    (grown : after.payments ≠ before.payments) : before.state = .open := by
  cases effect with
  | same => exact absurd rfl grown
  | repriced => exact absurd rfl grown
  | paid isPayment accepts => exact accepts.isOpen
  | cancelled => exact absurd rfl grown
  | reopened => exact absurd rfl grown

/-- A charge with a payment keeps its currency. -/
theorem ChargeEffect.currency_eq (effect : ChargeEffect account request before after)
    (sound : before.Sound) (some : before.payments ≠ []) : after.currency = before.currency := by
  cases effect with
  | repriced isUpdate commercial editable covered sameCurrency valid =>
      exact (sameCurrency (sound.paid_pos some)).symm
  | _ => rfl

theorem Creation.payments_eq (created : Creation account request after) : after.payments = [] := by
  obtain ⟨coverageEnd, -, row⟩ := created.row
  rw [row]
  rfl

end Effects

/-! ### Runs of the ledger -/

/-- Distinct ids and sound charges. -/
structure ChargesSound (charges : List Charge) : Prop where
  keyed : charges.map Charge.id = List.range charges.length
  sound : ∀ charge ∈ charges, charge.Sound

/-- What one step may do to the charges of one subscription. -/
structure ChargesLawful (before after : List Charge) : Prop where
  /-- A charge receives payments only while it is open. -/
  paidWhileOpen : ∀ old ∈ before, ∀ new ∈ after, new.id = old.id →
    new.payments ≠ old.payments → old.state = .open
  /-- A charge with a payment keeps its currency. -/
  currencyFixed : ∀ old ∈ before, ∀ new ∈ after, new.id = old.id →
    old.payments ≠ [] → new.currency = old.currency
  /-- A new charge starts without payments, and no charge disappears. -/
  createdUnpaid : ∀ new ∈ after, (∃ old ∈ before, old.id = new.id) ∨ new.payments = []
  kept : ∀ old ∈ before, ∃ new ∈ after, new.id = old.id

theorem ChargesLawful.refl {charges : List Charge}
    (keyed : charges.map Charge.id = List.range charges.length) :
    ChargesLawful charges charges where
  paidWhileOpen := fun _ stored _ member same grown =>
    absurd (congrArg Charge.payments (eq_of_key_eq keyed member stored same)) grown
  currencyFixed := fun _ stored _ member same _ =>
    congrArg Charge.currency (eq_of_key_eq keyed member stored same)
  createdUnpaid := fun new member => Or.inl ⟨new, member, rfl⟩
  kept := fun old stored => ⟨old, stored, rfl⟩

/-- Appending a charge without payments under the next id. -/
theorem ChargesLawful.append {charges : List Charge} {created : Charge}
    (keyed : charges.map Charge.id = List.range charges.length)
    (nextId : created.id = charges.length) (unpaid : created.payments = []) :
    ChargesLawful charges (charges ++ [created]) := by
  have notOld : ∀ old ∈ charges, created.id ≠ old.id := by
    intro old stored same
    have below := key_lt_length keyed stored
    omega
  have base := ChargesLawful.refl keyed
  constructor
  · intro old stored new member same grown
    rcases List.mem_append.mp member with member | member
    · exact base.paidWhileOpen old stored new member same grown
    · exact absurd (List.mem_singleton.mp member ▸ same) (notOld old stored)
  · intro old stored new member same paid
    rcases List.mem_append.mp member with member | member
    · exact base.currencyFixed old stored new member same paid
    · exact absurd (List.mem_singleton.mp member ▸ same) (notOld old stored)
  · intro new member
    rcases List.mem_append.mp member with member | member
    · exact base.createdUnpaid new member
    · exact Or.inr (List.mem_singleton.mp member ▸ unpaid)
  · exact fun old stored => ⟨old, List.mem_append_left _ stored, rfl⟩

theorem ChargesEffect.lawful {account : Account} {request : Request} {charges : List Charge}
    (effect : ChargesEffect account request charges) (sound : ChargesSound account.charges) :
    ChargesLawful account.charges charges := by
  have become : ∀ old ∈ account.charges, ∀ new ∈ charges, new.id = old.id →
      ChargeEffect account request old new := by
    intro old stored new member same
    obtain ⟨later, laterMember, became⟩ := effect.kept old stored
    have sameRow : later = new :=
      eq_of_key_eq effect.keyed laterMember member (became.id_eq.trans same.symm)
    exact sameRow ▸ became
  constructor
  · exact fun old stored new member same => (become old stored new member same).paid_open
  · exact fun old stored new member same =>
      (become old stored new member same).currency_eq (sound.sound old stored)
  · intro new member
    rcases effect.origin new member with ⟨old, stored, became⟩ | created
    · exact Or.inl ⟨old, stored, became.id_eq.symm⟩
    · exact Or.inr created.payments_eq
  · intro old stored
    obtain ⟨new, member, became⟩ := effect.kept old stored
    exact ⟨new, member, became.id_eq⟩

theorem ChargesEffect.chargesSound {account : Account} {request : Request}
    {charges : List Charge} (effect : ChargesEffect account request charges)
    (sound : ChargesSound account.charges) : ChargesSound charges where
  keyed := effect.keyed
  sound := by
    intro charge member
    rcases effect.origin charge member with ⟨before, stored, became⟩ | created
    · exact became.sound (sound.sound before stored)
    · exact created.sound

/-- The first charge is an append of a sound charge, or nothing. -/
theorem firstCharge_lawful {row : CustomerSubscription} {charges : List Charge}
    (sound : ChargesSound charges) :
    ChargesSound (firstCharge row charges) ∧ ChargesLawful charges (firstCharge row charges) := by
  rcases firstCharge_cases row charges with same | ⟨coverageEnd, -, valid, -, made⟩
  · rw [same]
    exact ⟨sound, ChargesLawful.refl sound.keyed⟩
  · rw [made]
    refine ⟨⟨?_, fun charge member => ?_⟩, ChargesLawful.append sound.keyed rfl rfl⟩
    · rw [List.map_append, sound.keyed, List.length_append]
      simp [List.range_succ, newCharge]
    · rcases List.mem_append.mp member with member | member
      · exact sound.sound charge member
      · exact List.mem_singleton.mp member ▸ newCharge_sound valid

/-- One action rewrites the charges of one subscription, soundly and lawfully,
and leaves every other subscription alone. -/
theorem Ledger.step_charges {ledger : Ledger}
    (sound : ∀ id, ChargesSound (ledger.chargesOf id)) (action : LedgerAction)
    (id : Nat) :
    ChargesSound ((ledger.step action).chargesOf id) ∧
      ChargesLawful (ledger.chargesOf id) ((ledger.step action).chargesOf id) := by
  have unchanged := And.intro (sound id) (ChargesLawful.refl (sound id).keyed)
  cases action with
  | insert target validatedData =>
      simp only [Ledger.step]
      split
      · rename_i row absent _
        by_cases hit : id = target
        · subst hit
          have noCharges : ledger.chargesOf id = [] := by simp [Ledger.chargesOf, absent]
          rw [noCharges]
          simpa [Ledger.chargesOf] using
            And.intro (⟨rfl, by simp⟩ : ChargesSound []) (ChargesLawful.refl rfl)
        · simpa [Ledger.chargesOf, Function.update_of_ne hit] using unchanged
      · exact unchanged
  | chargeFirst target =>
      simp only [Ledger.step]
      split
      · rename_i account row stored _
        by_cases hit : id = target
        · subst hit
          have charges : ledger.chargesOf id = account.charges := by
            simp [Ledger.chargesOf, stored]
          have first := @firstCharge_lawful row _ (charges ▸ sound id)
          rw [charges]
          simpa [Ledger.chargesOf] using first
        · simpa [Ledger.chargesOf, Function.update_of_ne hit] using unchanged
      · exact unchanged
  | serve target request =>
      simp only [Ledger.step]
      split
      · rename_i account stored
        by_cases hit : id = target
        · subst hit
          have charges : ledger.chargesOf id = account.charges := by
            simp [Ledger.chargesOf, stored]
          have accountSound : ChargesSound account.charges := charges ▸ sound id
          have effect := Subscriptions.step_charges accountSound.keyed request
          have result := And.intro (effect.chargesSound accountSound) (effect.lawful accountSound)
          rw [charges]
          simpa [Ledger.chargesOf] using result
        · simpa [Ledger.chargesOf, Function.update_of_ne hit] using unchanged
      · exact unchanged

/-- The ledger invariant of a charge, in the terms of the amounts: exact sums,
tax rounded half up to the cent, and payments between zero and the gross
amount. Rates count hundredths of a percent, hence the two divisions. -/
structure Charge.Balanced (charge : Charge) : Prop where
  gross : charge.grossAmount = charge.netAmount + charge.taxAmount
  tax : IsHalfUp charge.taxAmount ((charge.netAmount : ℚ) * (charge.taxRate / 100) / 100)
  paid_nonneg : 0 ≤ charge.paidAmount
  paid_le : charge.paidAmount ≤ charge.grossAmount

theorem Charge.Sound.balanced {charge : Charge} (sound : charge.Sound) : charge.Balanced where
  gross := sound.gross
  tax := by
    have rounded := quantizeHalfUp_isHalfUp (charge.netAmount * charge.taxRate) 10000
      (mul_nonneg sound.net_nonneg sound.rate_nonneg) (by decide)
    have value : ((charge.netAmount * charge.taxRate : Int) : ℚ) / (10000 : Nat) =
        (charge.netAmount : ℚ) * (charge.taxRate / 100) / 100 := by
      push_cast
      ring
    rw [sound.tax, ← value]
    exact rounded
  paid_nonneg := sound.paid_nonneg
  paid_le := sound.paid_le

/-- In every state that any interleaving of requests reaches from the empty
ledger, every charge is balanced, and every step on the way adds payments only
to open charges and keeps the currency of a charge that has one. -/
theorem ledger_invariant (actions : List LedgerAction) :
    Always Ledger.step
        (fun ledger => ∀ id, ∀ charge ∈ ledger.chargesOf id, charge.Balanced)
        Ledger.empty actions ∧
      EveryStep Ledger.step
        (fun ledger action => ∀ id,
          ChargesLawful (ledger.chargesOf id) ((ledger.step action).chargesOf id))
        Ledger.empty actions := by
  have start : ∀ id, ChargesSound (Ledger.empty.chargesOf id) :=
    fun id => ⟨rfl, by simp [Ledger.chargesOf, Ledger.empty]⟩
  have preserved : ∀ (ledger : Ledger) (action : LedgerAction),
      (∀ id, ChargesSound (ledger.chargesOf id)) →
        ∀ id, ChargesSound ((ledger.step action).chargesOf id) :=
    fun ledger action sound id => (Ledger.step_charges sound action id).1
  constructor
  · refine Always.imp
      (fun ledger sound id charge member => ((sound id).sound charge member).balanced)
      (always_invariant _ preserved start actions)
  · exact everyStep_invariant _ preserved
      (fun ledger action sound id => (Ledger.step_charges sound action id).2) start actions

end BubllioCrm.Subscriptions
