import BubllioCrm.Subscriptions.Ledger

/-!
Owns the accounts that some interleaving of requests stores in the ledger: the
induction rule that carries a property of single accounts through every action
on every subscription, and the facts that all such accounts share.
-/

namespace BubllioCrm.Subscriptions

open BubllioCrm.Foundations

variable {account : Account} {id : Nat}

/-! ### One account through the actions of the ledger -/

/-- The account is stored in a state of the ledger that actions lead to. -/
def Account.Reachable (account : Account) : Prop :=
  ∃ actions id, (run Ledger.step Ledger.empty actions).accounts id = some account

/-- The accounts of a ledger all have a property. -/
def Ledger.AllAccounts (holds : Account → Prop) (ledger : Ledger) : Prop :=
  ∀ id account, ledger.accounts id = some account → holds account

/-- Writing one account that has the property keeps the property. -/
theorem Ledger.AllAccounts.update {holds : Account → Prop} {ledger : Ledger}
    (all : ledger.AllAccounts holds) (opening : Nat → Option CustomerSubscription)
    (new : holds account) :
    Ledger.AllAccounts holds
      { accounts := Function.update ledger.accounts id (some account), opening := opening } := by
  intro other stored found
  by_cases hit : other = id
  · subst hit
    have same : account = stored := by simpa using found
    exact same ▸ new
  · apply all other stored
    simpa [Function.update_of_ne hit] using found

/-- The account after the second write of a create request. -/
def Account.chargeFirst (row : CustomerSubscription) (account : Account) : Account :=
  { account with charges := firstCharge row account.charges }

/-- The account of a first charge meets one condition, with the row in memory,
and the account of a request another. -/
def Ledger.Meets (charges : CustomerSubscription → Account → Prop)
    (serves : Account → Request → Prop) (ledger : Ledger) : LedgerAction → Prop
  | .insert _ _ => True
  | .chargeFirst id => ∀ account, ledger.accounts id = some account →
      ∀ row, ledger.opening id = some row → charges row account
  | .serve id request => ∀ account, ledger.accounts id = some account → serves account request

/-- An action that meets the conditions keeps a property of the accounts. -/
theorem Ledger.Meets.step {ledger : Ledger} {action : LedgerAction}
    {charges : CustomerSubscription → Account → Prop} {serves : Account → Request → Prop}
    {invariant : Account → Prop} (meets : ledger.Meets charges serves action)
    (all : ledger.AllAccounts invariant)
    (inserted : ∀ validatedData row, insertSubscription validatedData = .ok row →
      invariant ⟨row, []⟩)
    (charged : ∀ row account, invariant account → charges row account →
      invariant (account.chargeFirst row))
    (served : ∀ account request, invariant account → serves account request →
      invariant (Subscriptions.step account request)) :
    (ledger.step action).AllAccounts invariant := by
  cases action with
  | insert id validatedData =>
      unfold Ledger.step
      dsimp only
      split
      · rename_i row _ wrote
        exact all.update _ (inserted validatedData row wrote)
      · exact all
  | chargeFirst id =>
      unfold Ledger.step
      dsimp only
      split
      · rename_i account row stored held
        exact all.update _ (charged row account (all id account stored) (meets _ stored _ held))
      · exact all
  | serve id request =>
      unfold Ledger.step
      dsimp only
      split
      · rename_i account stored
        exact all.update _ (served account request (all id account stored) (meets _ stored))
      · exact all

/-- A property that a new row has, and that the first charge and every request
keep, is kept by every action of the ledger. -/
theorem Ledger.step_allAccounts {holds : Account → Prop}
    (inserted : ∀ validatedData row, insertSubscription validatedData = .ok row → holds ⟨row, []⟩)
    (charged : ∀ account row, holds account →
      holds { account with charges := firstCharge row account.charges })
    (served : ∀ account request, holds account → holds (Subscriptions.step account request))
    (ledger : Ledger) (action : LedgerAction) (all : ledger.AllAccounts holds) :
    (ledger.step action).AllAccounts holds := by
  have meets : ledger.Meets (fun _ _ => True) (fun _ _ => True) action := by
    cases action with
    | insert id validatedData => trivial
    | chargeFirst id => exact fun _ _ _ _ => trivial
    | serve id request => exact fun _ _ => trivial
  exact meets.step all inserted (fun row account kept _ => charged account row kept)
    fun account request kept _ => served account request kept

theorem Ledger.empty_allAccounts (holds : Account → Prop) : Ledger.empty.AllAccounts holds := by
  intro id account stored
  simp [Ledger.empty] at stored

/-- The induction rule for the accounts of the ledger. -/
theorem Account.Reachable.invariant (reachable : account.Reachable) (holds : Account → Prop)
    (inserted : ∀ validatedData row, insertSubscription validatedData = .ok row → holds ⟨row, []⟩)
    (charged : ∀ account row, holds account →
      holds { account with charges := firstCharge row account.charges })
    (served : ∀ account request, holds account → holds (Subscriptions.step account request)) :
    holds account := by
  obtain ⟨actions, id, stored⟩ := reachable
  exact run_invariant (Ledger.AllAccounts holds)
    (Ledger.step_allAccounts inserted charged served) (Ledger.empty_allAccounts holds)
    actions id account stored

/-! ### What every such account satisfies -/

/-- The first charge keeps an account well formed: it is due on a date no other
charge is due on, or is not made. -/
theorem Account.WellFormed.firstCharge (formed : account.WellFormed) (row : CustomerSubscription) :
    Account.WellFormed
      { account with charges := Subscriptions.firstCharge row account.charges } := by
  rcases firstCharge_cases row account.charges with same | ⟨coverageEnd, -, valid, fresh, made⟩
  · rw [same]
    exact formed
  rw [made]
  have dueDates : ∀ first ∈ account.charges,
      first.dueDate ≠ (newCharge row account.charges.length row.nextBillingDate
        coverageEnd).dueDate := fresh
  refine ⟨?_, ?_, ?_⟩
  · unfold Account.Keyed
    rw [List.map_append, formed.keyed, List.length_append]
    simp [List.range_succ, newCharge]
  · intro first firstMember second secondMember same
    rcases List.mem_append.mp firstMember with firstOld | firstNew
    · rcases List.mem_append.mp secondMember with secondOld | secondNew
      · exact formed.dueDates first firstOld second secondOld same
      · rw [List.mem_singleton.mp secondNew] at same
        exact absurd same (dueDates first firstOld)
    · rcases List.mem_append.mp secondMember with secondOld | secondNew
      · rw [List.mem_singleton.mp firstNew] at same
        exact absurd same.symm (dueDates second secondOld)
      · rw [List.mem_singleton.mp firstNew, List.mem_singleton.mp secondNew]
  · intro charge member
    rcases List.mem_append.mp member with old | new
    · exact formed.charges charge old
    · rw [List.mem_singleton.mp new]
      exact newCharge_wellFormed valid

theorem Ledger.step_wellFormed (ledger : Ledger) (action : LedgerAction)
    (formed : ledger.AllAccounts Account.WellFormed) :
    (ledger.step action).AllAccounts Account.WellFormed :=
  Ledger.step_allAccounts (fun _ _ _ => ⟨rfl, by simp, by simp⟩)
    (fun _ row formed => formed.firstCharge row)
    (fun _ request formed => Subscriptions.step_wellFormed formed request) ledger action formed

theorem Account.Reachable.wellFormed (reachable : account.Reachable) : account.WellFormed := by
  obtain ⟨actions, id, stored⟩ := reachable
  exact run_invariant _ Ledger.step_wellFormed (Ledger.empty_allAccounts _) actions id account
    stored

/-- An agreement is stored as cancelling only with its effective date. -/
theorem Account.Reachable.cancelling (reachable : account.Reachable)
    (cancelling : account.subscription.status = .cancelling) :
    ∃ date, account.subscription.cancellationEffectiveDate = some date := by
  revert cancelling
  apply reachable.invariant fun account => account.subscription.status = .cancelling →
    ∃ date, account.subscription.cancellationEffectiveDate = some date
  · intro validatedData row wrote cancelling
    rw [(toRow_fresh (insertSubscription_ok wrote)).1] at cancelling
    cases cancelling
  · exact fun account row dated => dated
  · intro account request dated cancelling
    have row := step_subscription account request
    generalize (step account request).subscription = next at row cancelling ⊢
    cases row with
    | same => exact dated cancelling
    | updated isUpdate => exact dated cancelling
    | renewed isPayment => exact dated cancelling
    | cancelled isCancel => exact ⟨_, rfl⟩
    | paused isPause => cases cancelling
    | expired isExpire => cases cancelling
    | resumed isResume => cases cancelling

/-- What a create request leaves and requests go on with is reachable. -/
theorem Account.Reachable.of_run {attrs : SubscriptionAttrs}
    (created : createSubscription attrs = .ok account) (requests : List Request) :
    (run step account requests).Reachable := by
  unfold createSubscription at created
  obtain ⟨row, wrote, built⟩ := bind_eq_ok.mp created
  obtain rfl := pure_eq_ok.mp built
  refine ⟨.insert 0 attrs :: .chargeFirst 0 :: requests.map (.serve 0), 0, ?_⟩
  have opened : (Ledger.empty.step (.insert 0 attrs)).step (.chargeFirst 0) =
      { accounts := Function.update (Function.update (fun _ => none) 0 (some ⟨row, []⟩)) 0
          (some ⟨row, Subscriptions.firstCharge row []⟩)
        opening := Function.update (Function.update (fun _ => none) 0 (some row)) 0 none } := by
    simp [Ledger.step, Ledger.empty, wrote]
  rw [run_cons, run_cons, opened]
  have goes : ∀ (ledger : Ledger) (account : Account), ledger.accounts 0 = some account →
      (run Ledger.step ledger (requests.map (.serve 0))).accounts 0 =
        some (run step account requests) := by
    induction requests with
    | nil => exact fun ledger account stored => stored
    | cons request rest inductionHypothesis =>
        intro ledger account stored
        apply inductionHypothesis
        simp [Ledger.step, stored]
  exact goes _ _ (by simp)

end BubllioCrm.Subscriptions
