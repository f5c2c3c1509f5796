import Mathlib.Data.List.Basic

/-!
Owns runs of a total step function: the state a list of actions leads to, the
statement that a property holds in every state of a run, the statement that
every step of a run meets a condition, and the induction rules that carry an
invariant along a run.

It does not know what a state or an action is. A request that fails, or an
action that is not enabled, is a step that leaves the state as it was.
-/

namespace BubllioCrm.Foundations

section Execution

variable {State Action : Type*} (step : State → Action → State)

/-- The state after a list of actions, executed from left to right. -/
def run (state : State) (actions : List Action) : State :=
  actions.foldl step state

/-- `holds` is true of the first state and of the state after every action. -/
def Always (holds : State → Prop) : State → List Action → Prop
  | state, [] => holds state
  | state, action :: rest => holds state ∧ Always holds (step state action) rest

/-- `meets` is true of every action together with the state it starts in. -/
def EveryStep (meets : State → Action → Prop) : State → List Action → Prop
  | _, [] => True
  | state, action :: rest => meets state action ∧ EveryStep meets (step state action) rest

@[simp] theorem run_nil (state : State) : run step state [] = state := rfl

@[simp] theorem run_cons (state : State) (action : Action) (rest : List Action) :
    run step state (action :: rest) = run step (step state action) rest := rfl

theorem run_append (state : State) (first second : List Action) :
    run step state (first ++ second) = run step (run step state first) second :=
  List.foldl_append

instance decidableEveryStep (meets : State → Action → Prop)
    [∀ state action, Decidable (meets state action)] :
    (state : State) → (actions : List Action) → Decidable (EveryStep step meets state actions)
  | _, [] => isTrue trivial
  | state, action :: rest =>
      letI := decidableEveryStep meets (step state action) rest
      inferInstanceAs (Decidable (meets state action ∧ _))

instance decidableAlways (holds : State → Prop) [DecidablePred holds] :
    (state : State) → (actions : List Action) → Decidable (Always step holds state actions)
  | state, [] => inferInstanceAs (Decidable (holds state))
  | state, action :: rest =>
      letI := decidableAlways holds (step state action) rest
      inferInstanceAs (Decidable (holds state ∧ _))

variable {step}

/-- A condition on actions alone holds at every step when it holds of all. -/
theorem everyStep_of_forall {meets : Action → Prop} {state : State} {actions : List Action}
    (all : ∀ action ∈ actions, meets action) :
    EveryStep step (fun _ action => meets action) state actions := by
  induction actions generalizing state with
  | nil => trivial
  | cons action rest inductionHypothesis =>
      rw [List.forall_mem_cons] at all
      exact ⟨all.1, inductionHypothesis all.2⟩

theorem everyStep_append {meets : State → Action → Prop} {state : State}
    {first second : List Action} :
    EveryStep step meets state (first ++ second) ↔
      EveryStep step meets state first ∧ EveryStep step meets (run step state first) second := by
  induction first generalizing state with
  | nil => simp [EveryStep]
  | cons action rest inductionHypothesis =>
      simp only [List.cons_append, EveryStep, run_cons, inductionHypothesis, and_assoc]

/-- A condition that every step meets is met by the step at any position. -/
theorem EveryStep.at_split {meets : State → Action → Prop} {state : State}
    {before after : List Action} {action : Action}
    (all : EveryStep step meets state (before ++ action :: after)) :
    meets (run step state before) action :=
  (everyStep_append.mp all).2.1

/-- Every step of a run is the step at some position of its action list. -/
theorem everyStep_iff_splits {meets : State → Action → Prop} {state : State}
    {actions : List Action} :
    EveryStep step meets state actions ↔ ∀ before action after,
      actions = before ++ action :: after → meets (run step state before) action := by
  constructor
  · rintro all before action after rfl
    exact all.at_split
  · intro atSplits
    induction actions generalizing state with
    | nil => trivial
    | cons action rest inductionHypothesis =>
        refine ⟨atSplits [] action rest rfl, inductionHypothesis fun before other after split => ?_⟩
        exact atSplits (action :: before) other after (congrArg (action :: ·) split)

/-! ### Induction along a run -/

/-- An invariant that every step preserves holds at the end of every run. -/
theorem run_invariant (invariant : State → Prop)
    (preserved : ∀ state action, invariant state → invariant (step state action))
    {state : State} (start : invariant state) (actions : List Action) :
    invariant (run step state actions) := by
  induction actions generalizing state with
  | nil => exact start
  | cons action rest inductionHypothesis =>
      exact inductionHypothesis (preserved state action start)

/-- An invariant that every step meeting `guard` preserves holds in every state
of a run whose steps all meet `guard`. -/
theorem always_guarded (invariant : State → Prop) {guard : State → Action → Prop}
    (preserved : ∀ state action, invariant state → guard state action →
      invariant (step state action))
    {state : State} {actions : List Action} (start : invariant state)
    (guarded : EveryStep step guard state actions) : Always step invariant state actions := by
  induction actions generalizing state with
  | nil => exact start
  | cons action rest inductionHypothesis =>
      exact ⟨start, inductionHypothesis (preserved state action start guarded.1) guarded.2⟩

/-- What holds always holds at the end. -/
theorem Always.at_end {holds : State → Prop} {state : State} {actions : List Action}
    (always : Always step holds state actions) : holds (run step state actions) := by
  induction actions generalizing state with
  | nil => exact always
  | cons action rest inductionHypothesis => exact inductionHypothesis always.2

/-- The rule for every state of the run without a guard. -/
theorem always_invariant (invariant : State → Prop)
    (preserved : ∀ state action, invariant state → invariant (step state action))
    {state : State} (start : invariant state) (actions : List Action) :
    Always step invariant state actions := by
  induction actions generalizing state with
  | nil => exact start
  | cons action rest inductionHypothesis =>
      exact ⟨start, inductionHypothesis (preserved state action start)⟩

/-- What a step does from a state satisfying an invariant, it does at every
position of a run that keeps the invariant. -/
theorem everyStep_guarded (invariant : State → Prop) {guard meets : State → Action → Prop}
    (preserved : ∀ state action, invariant state → guard state action →
      invariant (step state action))
    (performs : ∀ state action, invariant state → guard state action → meets state action)
    {state : State} {actions : List Action} (start : invariant state)
    (guarded : EveryStep step guard state actions) : EveryStep step meets state actions := by
  induction actions generalizing state with
  | nil => trivial
  | cons action rest inductionHypothesis =>
      exact ⟨performs state action start guarded.1,
        inductionHypothesis (preserved state action start guarded.1) guarded.2⟩

/-- The unguarded form of `everyStep_guarded`. -/
theorem everyStep_invariant (invariant : State → Prop) {meets : State → Action → Prop}
    (preserved : ∀ state action, invariant state → invariant (step state action))
    (performs : ∀ state action, invariant state → meets state action)
    {state : State} (start : invariant state) (actions : List Action) :
    EveryStep step meets state actions := by
  induction actions generalizing state with
  | nil => trivial
  | cons action rest inductionHypothesis =>
      exact ⟨performs state action start, inductionHypothesis (preserved state action start)⟩

/-! ### Exact conditions -/

/-- Two conditions that agree wherever an invariant holds agree along runs. -/
theorem everyStep_congr (invariant : State → Prop) {first second : State → Action → Prop}
    (preserved : ∀ state action, invariant state → invariant (step state action))
    (agree : ∀ state action, invariant state → (first state action ↔ second state action))
    {state : State} (start : invariant state) (actions : List Action) :
    EveryStep step first state actions ↔ EveryStep step second state actions := by
  induction actions generalizing state with
  | nil => exact Iff.rfl
  | cons action rest inductionHypothesis =>
      exact and_congr (agree state action start)
        (inductionHypothesis (preserved state action start))

/-- A property holds in every state of a run of allowed actions exactly when
every step meets `guard`: the guard carries an invariant that implies the
property, and a step from the invariant to a state with the property meets the
guard. -/
theorem always_iff_guarded (invariant : State → Prop) {holds : State → Prop}
    {guard : State → Action → Prop} (allowed : Action → Prop)
    (safe : ∀ state, invariant state → holds state)
    (preserved : ∀ state action, invariant state → allowed action → guard state action →
      invariant (step state action))
    (necessary : ∀ state action, invariant state → allowed action →
      holds (step state action) → guard state action)
    {state : State} {actions : List Action} (start : invariant state)
    (all : ∀ action ∈ actions, allowed action) :
    Always step holds state actions ↔ EveryStep step guard state actions := by
  induction actions generalizing state with
  | nil => exact iff_of_true (safe state start) trivial
  | cons action rest inductionHypothesis =>
      have first : allowed action := all action List.mem_cons_self
      have others : ∀ other ∈ rest, allowed other :=
        fun other member => all other (List.mem_cons_of_mem action member)
      constructor
      · rintro ⟨-, later⟩
        have next : holds (step state action) := by
          cases rest with
          | nil => exact later
          | cons second others => exact later.1
        have met := necessary state action start first next
        exact ⟨met, (inductionHypothesis (preserved state action start first met) others).mp later⟩
      · rintro ⟨met, later⟩
        exact ⟨safe state start,
          (inductionHypothesis (preserved state action start first met) others).mpr later⟩

theorem Always.imp {weak strong : State → Prop} {state : State} {actions : List Action}
    (implies : ∀ state, strong state → weak state)
    (all : Always step strong state actions) : Always step weak state actions := by
  induction actions generalizing state with
  | nil => exact implies state all
  | cons action rest inductionHypothesis =>
      exact ⟨implies state all.1, inductionHypothesis all.2⟩

end Execution

end BubllioCrm.Foundations
