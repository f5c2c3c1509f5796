import BubllioCrm.Subscriptions.Runs
import BubllioCrm.Subscriptions.Views

/-!
Owns the requests of any number of clients on one subscription: each view
checks the row it has read without a lock, and the service runs later on the
row it has locked.

A request that was checked waits among the requests in flight, which may be
served in any order and on any later date.
-/

namespace BubllioCrm.Subscriptions

open BubllioCrm.Foundations

structure LiveAccount where
  account : Account
  today : Date
  inFlight : List ViewRequest := []
deriving DecidableEq

inductive ClientAction where
  /-- The date moves on. -/
  | advance (day : Date)
  /-- A view reads the row and accepts or refuses the request. -/
  | check (request : ViewRequest)
  /-- The service of an accepted request runs. -/
  | serve (index : Nat) (now : Nat)
deriving DecidableEq

def LiveAccount.step (live : LiveAccount) (action : ClientAction) : LiveAccount :=
  match action with
  | .advance day => { live with today := max live.today day }
  | .check request =>
      if request.accepts live.today live.account.subscription then
        { live with inFlight := live.inFlight ++ [request] }
      else live
  | .serve index now =>
      match live.inFlight[index]? with
      | none => live
      | some request =>
          { live with
            account := Subscriptions.step live.account
              { clock := { today := live.today, now := now }, operation := request.operation }
            inFlight := live.inFlight.eraseIdx index }

/-- Only an immediate cancellation stores the status CANCELLED. -/
def LiveAccount.Ended (live : LiveAccount) : Prop :=
  live.account.subscription.status = .cancelled

instance : DecidablePred LiveAccount.Ended := fun live => by
  unfold LiveAccount.Ended
  infer_instance

/-- The action makes the agreement neither active nor paused nor cancelling,
and neither creates nor reopens a charge. -/
def LeavesEnded (live : LiveAccount) (action : ClientAction) : Prop :=
  (live.step action).account.subscription.status ∉
      [Status.active, Status.paused, Status.cancelling] ∧
    ∀ charge, ¬ Opens live.account (live.step action).account charge

/-- Once the agreement has ended, every later action leaves it ended. -/
def EndsForGood (live : LiveAccount) (actions : List ClientAction) : Prop :=
  ∀ before after, actions = before ++ after → (run LiveAccount.step live before).Ended →
    EveryStep LiveAccount.step LeavesEnded (run LiveAccount.step live before) after

/-- No pause and no cancellation at the period end is served on a row that is
stored as cancelled. -/
def ServesOnLiveRow (live : LiveAccount) : ClientAction → Prop
  | .advance _ => True
  | .check _ => True
  | .serve index _ => live.Ended →
      live.inFlight[index]? ≠ some .pause ∧ live.inFlight[index]? ≠ some (.cancel false)

instance (live : LiveAccount) (action : ClientAction) :
    Decidable (ServesOnLiveRow live action) := by
  unfold ServesOnLiveRow
  cases action <;> infer_instance

variable {live : LiveAccount} {action : ClientAction} {account : Account} {request : Request}

/-! ### Requests on an ended agreement -/

theorem not_opens_same (keyed : account.Keyed) (charge : Charge) :
    ¬ Opens account account charge := by
  rintro ⟨member, new | ⟨isOpen, old, stored, sameId, wasCancelled⟩⟩
  · exact new charge member rfl
  · rw [eq_of_key_eq keyed stored member sameId, isOpen] at wasCancelled
    cases wasCancelled

/-- No request opens a charge of an ended agreement. -/
theorem not_opens_of_cancelled (keyed : account.Keyed)
    (ended : account.subscription.status = .cancelled) (charge : Charge) :
    ¬ Opens account (step account request) charge := by
  intro opens
  obtain ⟨source, extended⟩ := opens.extends keyed
  have status := extended.status
  simp [ended] at status

/-- Of the view requests only a pause and a cancellation at the period end
change the status of a row stored as cancelled. -/
theorem step_cancelled_status {viewRequest : ViewRequest} (clock : Clock)
    (ended : account.subscription.status = .cancelled) (notPause : viewRequest ≠ .pause)
    (notCancel : viewRequest ≠ .cancel false) :
    (step account ⟨clock, viewRequest.operation⟩).subscription.status = .cancelled := by
  have row := step_subscription account ⟨clock, viewRequest.operation⟩
  generalize (step account ⟨clock, viewRequest.operation⟩).subscription = next at row
  cases row with
  | same => exact ended
  | renewed => exact ended
  | updated isUpdate => cases viewRequest <;> cases isUpdate
  | expired isExpire => cases viewRequest <;> cases isExpire
  | paused isPause =>
      cases viewRequest with
      | pause => exact absurd rfl notPause
      | cancel => cases isPause
      | resume => cases isPause
      | recordPayment => cases isPause
  | @cancelled immediate isCancel =>
      cases viewRequest with
      | cancel requested =>
          cases isCancel
          cases immediate with
          | false => exact absurd rfl notCancel
          | true => rfl
      | pause => cases isCancel
      | resume => cases isCancel
      | recordPayment => cases isCancel
  | resumed isResume resumable =>
      have status := resumable.status
      simp [ended] at status

/-! ### Steps of the clients -/

/-- An action serves one request, or leaves the account alone. -/
theorem live_step_cases (live : LiveAccount) (action : ClientAction) :
    (live.step action).account = live.account ∨
      ∃ index now request, action = .serve index now ∧ live.inFlight[index]? = some request ∧
        (live.step action).account =
          step live.account ⟨⟨live.today, now⟩, request.operation⟩ := by
  cases action with
  | advance day => exact Or.inl rfl
  | check request =>
      left
      simp only [LiveAccount.step]
      split_ifs <;> rfl
  | serve index now =>
      cases found : live.inFlight[index]? with
      | none => exact Or.inl (by simp [LiveAccount.step, found])
      | some request =>
          exact Or.inr ⟨index, now, request, rfl, found, by simp [LiveAccount.step, found]⟩

theorem live_step_keyed (keyed : live.account.Keyed) (action : ClientAction) :
    (live.step action).account.Keyed := by
  rcases live_step_cases live action with same | ⟨index, now, request, -, -, served⟩
  · exact same ▸ keyed
  · exact served ▸ step_keyed keyed _

theorem live_step_ended (keyed : live.account.Keyed) (ended : live.Ended)
    (guard : ServesOnLiveRow live action) :
    (live.step action).Ended ∧ LeavesEnded live action := by
  have stays : (live.step action).Ended ∧
      ∀ charge, ¬ Opens live.account (live.step action).account charge := by
    rcases live_step_cases live action with same | ⟨index, now, request, serves, found, served⟩
    · unfold LiveAccount.Ended
      rw [same]
      exact ⟨ended, not_opens_same keyed⟩
    · subst serves
      obtain ⟨notPause, notCancel⟩ := guard ended
      unfold LiveAccount.Ended
      rw [served]
      refine ⟨step_cancelled_status _ ended ?_ ?_, not_opens_of_cancelled keyed ended⟩
      · rintro rfl
        exact notPause found
      · rintro rfl
        exact notCancel found
  refine ⟨stays.1, ?_, stays.2⟩
  have status : (live.step action).account.subscription.status = .cancelled := stays.1
  simp [status]

/-- A stale pause or cancellation revives an ended agreement. -/
theorem servesOnLiveRow_of_leavesEnded (leaves : live.Ended → LeavesEnded live action) :
    ServesOnLiveRow live action := by
  cases action with
  | advance day => trivial
  | check request => trivial
  | serve index now =>
      intro ended
      have stays := (leaves ended).1
      constructor
      · intro found
        apply stays
        simp [LiveAccount.step, found, step, perform, ViewRequest.operation, pauseSubscription]
      · intro found
        apply stays
        simp [LiveAccount.step, found, step, perform, ViewRequest.operation, cancelSubscription]

/-! ### Runs -/

/-- In every interleaving of views and services on a created subscription an
ended agreement stays ended exactly when no pause and no cancellation at the
period end is served on a row that is stored as cancelled. -/
theorem ends_for_good_iff {attrs : SubscriptionAttrs}
    (created : createSubscription attrs = .ok account) (today : Date)
    (actions : List ClientAction) :
    EndsForGood { account := account, today := today } actions ↔
      EveryStep LiveAccount.step ServesOnLiveRow { account := account, today := today }
        actions := by
  have keyed : account.Keyed := (createSubscription_opened created).keyed
  constructor
  · intro good
    rw [everyStep_iff_splits]
    intro before action after split
    apply servesOnLiveRow_of_leavesEnded
    intro ended
    exact (good before (action :: after) split ended).1
  · rintro guarded before after rfl ended
    have stillKeyed :
        (run LiveAccount.step { account := account, today := today } before).account.Keyed :=
      run_invariant (fun live : LiveAccount => live.account.Keyed)
        (fun _ action keyed => live_step_keyed keyed action) keyed before
    exact everyStep_guarded (fun live => live.account.Keyed ∧ live.Ended)
      (fun _ action sound guard =>
        ⟨live_step_keyed sound.1 action, (live_step_ended sound.1 sound.2 guard).1⟩)
      (fun _ _ sound guard => (live_step_ended sound.1 sound.2 guard).2)
      ⟨stillKeyed, ended⟩ (everyStep_append.mp guarded).2

/-- Two clients, the first of which checks its pause before the second ends
the agreement. -/
def stalePause : List ClientAction :=
  [.check .pause, .check (.cancel true), .serve 1 0, .serve 0 0]

/-- Without the stale service the agreement has ended for good. -/
theorem ends_for_good_hosting :
    EndsForGood { account := hosting, today := ⟨2026, 10, 6, by decide⟩ } (stalePause.take 3) :=
  (ends_for_good_iff createSubscription_hosting _ _).mpr (by decide)

/-- The stale pause takes the ended agreement back to paused. -/
theorem stale_pause_revives :
    createSubscription hostingAttrs = .ok hosting ∧
      ¬ EndsForGood { account := hosting, today := ⟨2026, 10, 6, by decide⟩ } stalePause := by
  refine ⟨createSubscription_hosting, fun good => ?_⟩
  have revived := (good (stalePause.take 3) [.serve 0 0] rfl (by decide)).1.1
  exact absurd revived (by decide)

end BubllioCrm.Subscriptions
