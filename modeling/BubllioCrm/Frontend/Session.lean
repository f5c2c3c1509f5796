import BubllioCrm.Foundations.Execution
import Mathlib.Data.List.Nodup
import Mathlib.Logic.Function.Basic
import Mathlib.Tactic.SplitIfs

/-!
Owns the session of the API client: the token store, the refresh promise that
requests share, and the requests whose answers may come in any order, with
sign-ins and sign-outs in between.

An action is what the browser runs until it waits again: the callback of an
answer together with the continuations that it settles. The refresh endpoint
rotates its tokens.
-/

namespace BubllioCrm.Frontend

open BubllioCrm.Foundations

structure TokenPair where
  access : String
  refresh : String
deriving DecidableEq

/-- What a request is for: the caller goes on when it settles. -/
inductive Purpose where
  | plain
  /-- `currentUser` at the end of a sign-in, which has the tokens at hand. -/
  | signIn (tokens : TokenPair)
  /-- `authService.logout`. -/
  | signOut
deriving DecidableEq

/-- A request without an answer, with its `_retry`. -/
structure Pending where
  purpose : Purpose
  retry : Bool := false
deriving DecidableEq

/-- The promise of a refresh with the handlers that await it. -/
structure Refreshing where
  token : String
  waiting : List (Nat × Purpose)
deriving DecidableEq

inductive Status where
  | ok
  | unauthorized
  /-- Another error, or no answer. -/
  | failed
deriving DecidableEq

structure Client where
  accessToken : Option String := none
  refreshToken : Option String := none
  refreshing : Option Refreshing := none
  pending : Nat → Option Pending := fun _ => none
  /-- The tokens that the refresh endpoint has been called with. -/
  submitted : List String := []
  /-- The refresh tokens that the server has handed out. -/
  issued : List String := []
  /-- A `clearSession` that no sign-in has followed. -/
  signedOut : Bool := false

inductive Action where
  | send (id : Nat)
  /-- The tokens of a sign-in arrive, and `currentUser` is requested. -/
  | signIn (id : Nat) (tokens : TokenPair)
  | logout (id : Nat)
  /-- `clearSession` from elsewhere. -/
  | clear
  | answer (id : Nat) (status : Status)
  | refreshed (tokens : TokenPair)
  | refreshFailed

namespace Client

/-- No request has this id. -/
def IsFree (client : Client) (id : Nat) : Prop :=
  client.pending id = none ∧ ∀ refreshing ∈ client.refreshing, id ∉ refreshing.waiting.map Prod.fst

instance (client : Client) : DecidablePred client.IsFree :=
  fun _ => inferInstanceAs (Decidable (_ ∧ _))

def clearSession (client : Client) : Client :=
  { client with accessToken := none, refreshToken := none, signedOut := true }

def setSession (tokens : TokenPair) (client : Client) : Client :=
  { client with accessToken := some tokens.access, refreshToken := some tokens.refresh }

def become (id : Nat) (pending : Option Pending) (client : Client) : Client :=
  { client with pending := Function.update client.pending id pending }

/-- A request without an answer is sent under a new id. -/
def send (id : Nat) (purpose : Purpose) (client : Client) : Client :=
  if client.IsFree id then client.become id (some { purpose := purpose }) else client

/-- The server hands out tokens that it has not handed out before. -/
def signIn (id : Nat) (tokens : TokenPair) (client : Client) : Client :=
  if tokens.refresh ∈ client.issued ∨ ¬ client.IsFree id then client
  else
    become id (some { purpose := .signIn tokens })
      { client with
        accessToken := some tokens.access
        refreshToken := some tokens.refresh
        issued := client.issued ++ [tokens.refresh]
        signedOut := false }

def logout (id : Nat) (client : Client) : Client :=
  match client.refreshToken with
  | some _ => client.send id .signOut
  | none => client.clearSession

/-- The caller of a request goes on. -/
def settle (purpose : Purpose) (succeeded : Bool) (client : Client) : Client :=
  match purpose with
  | .plain => client
  | .signIn tokens => if succeeded then client.setSession tokens else client.clearSession
  | .signOut => client.clearSession

/-- A handler calls the refresh endpoint, unless a call is under way. -/
def await (id : Nat) (purpose : Purpose) (token : String) (client : Client) : Client :=
  match client.refreshing with
  | none =>
      { client with
        refreshing := some ⟨token, [(id, purpose)]⟩
        submitted := client.submitted ++ [token] }
  | some refreshing =>
      { client with
        refreshing := some { refreshing with
          waiting := refreshing.waiting ++ [(id, purpose)] } }

/-- The response interceptor on a 401. -/
def unauthorized (id : Nat) (pending : Pending) (client : Client) : Client :=
  if pending.retry then client.settle pending.purpose false
  else
    match client.refreshToken with
    | none => client.clearSession.settle pending.purpose false
    | some token => client.await id pending.purpose token

def answer (id : Nat) (status : Status) (client : Client) : Client :=
  match client.pending id with
  | none => client
  | some pending =>
      match status with
      | .ok => (client.become id none).settle pending.purpose true
      | .failed => (client.become id none).settle pending.purpose false
      | .unauthorized => (client.become id none).unauthorized id pending

/-- The requests that have waited are sent again. -/
def resend (waiting : List (Nat × Purpose)) (client : Client) : Client :=
  waiting.foldl
    (fun client request => client.become request.1 (some { purpose := request.2, retry := true }))
    client

/-- The refresh endpoint answers with a new pair of tokens. -/
def refreshed (tokens : TokenPair) (client : Client) : Client :=
  match client.refreshing with
  | none => client
  | some refreshing =>
      if tokens.refresh ∈ client.issued then client
      else
        resend refreshing.waiting
          { client with
            accessToken := some tokens.access
            refreshToken := some tokens.refresh
            issued := client.issued ++ [tokens.refresh]
            refreshing := none }

/-- The call of the refresh endpoint fails: every handler that has waited clears
the session and rethrows. -/
def refreshFailed (client : Client) : Client :=
  match client.refreshing with
  | none => client
  | some refreshing =>
      refreshing.waiting.foldl
        (fun client request => client.clearSession.settle request.2 false)
        { client with refreshing := none }

def step (client : Client) : Action → Client
  | .send id => client.send id .plain
  | .signIn id tokens => client.signIn id tokens
  | .logout id => client.logout id
  | .clear => client.clearSession
  | .answer id status => client.answer id status
  | .refreshed tokens => client.refreshed tokens
  | .refreshFailed => client.refreshFailed

/-! ### Safety -/

/-- No refresh token has been submitted twice. -/
def SubmittedOnce (client : Client) : Prop :=
  client.submitted.Nodup

/-- While nobody signs in again, a session that has been cleared has no tokens. -/
def StaysSignedOut (client : Client) : Prop :=
  client.signedOut = true → client.accessToken = none ∧ client.refreshToken = none

/-- The token has been exchanged, or its refresh has failed. -/
def Spent (client : Client) (token : String) : Prop :=
  token ∈ client.submitted ∧ ∀ refreshing ∈ client.refreshing, refreshing.token ≠ token

instance : DecidablePred SubmittedOnce :=
  fun client => inferInstanceAs (Decidable client.submitted.Nodup)

instance : DecidablePred StaysSignedOut :=
  fun _ => inferInstanceAs (Decidable (_ → _))

instance (client : Client) : DecidablePred client.Spent :=
  fun _ => inferInstanceAs (Decidable (_ ∧ _))

/-- A sign-in ends with its tokens unspent, in a session that has not been cleared
since. -/
def KeepsSession (client : Client) : Option Pending → Prop
  | some ⟨.signIn tokens, _⟩ => client.refreshToken ≠ none ∧ ¬ client.Spent tokens.refresh
  | _ => True

instance (client : Client) : (pending : Option Pending) → Decidable (client.KeepsSession pending)
  | some ⟨.signIn tokens, _⟩ =>
      inferInstanceAs (Decidable (client.refreshToken ≠ none ∧ ¬ client.Spent tokens.refresh))
  | some ⟨.plain, _⟩ | some ⟨.signOut, _⟩ | none => isTrue trivial

/-- The condition on an action: neither the tokens of a refresh nor those of a
sign-in are written into a session that has been cleared since, and those of a
sign-in are not spent. -/
def Keeps (client : Client) : Action → Prop
  | .answer id .ok => client.KeepsSession (client.pending id)
  | .refreshed _ => client.refreshing ≠ none → client.refreshToken ≠ none
  | _ => True

instance (client : Client) : (action : Action) → Decidable (client.Keeps action)
  | .answer id .ok => inferInstanceAs (Decidable (client.KeepsSession (client.pending id)))
  | .refreshed _ => inferInstanceAs (Decidable (client.refreshing ≠ none → _))
  | .send _ | .signIn _ _ | .logout _ | .clear | .answer _ .unauthorized | .answer _ .failed
  | .refreshFailed => isTrue trivial

/-! ### The invariant -/

/-- The tokens that a caller has at hand come from the server. -/
def Known (client : Client) : Purpose → Prop
  | .signIn tokens => tokens.refresh ∈ client.issued
  | _ => True

structure Sound (client : Client) : Prop where
  once : client.SubmittedOnce
  known : ∀ token ∈ client.submitted, token ∈ client.issued
  stored : ∀ token ∈ client.refreshToken, token ∈ client.issued ∧ ¬ client.Spent token
  inFlight : ∀ refreshing ∈ client.refreshing,
    refreshing.token ∈ client.submitted ∧ refreshing.waiting ≠ []
  pending : ∀ id, ∀ pending ∈ client.pending id, client.Known pending.purpose
  waiting : ∀ refreshing ∈ client.refreshing, ∀ request ∈ refreshing.waiting,
    client.Known request.2
  out : client.StaysSignedOut

variable {client : Client} {id : Nat} {purpose : Purpose} {tokens : TokenPair}

theorem Sound.empty : Sound {} where
  once := List.nodup_nil
  known _ submitted := (List.not_mem_nil submitted).elim
  stored _ isStored := by cases isStored
  inFlight _ isFlight := by cases isFlight
  pending _ _ isPending := by cases isPending
  waiting _ isFlight := by cases isFlight
  out isOut := by cases isOut

theorem Sound.clearSession (sound : Sound client) : Sound client.clearSession :=
  { sound with
    stored := fun _ isStored => by cases isStored
    out := fun _ => ⟨rfl, rfl⟩ }

/-- A session that has tokens has not been cleared since. -/
theorem Sound.signedIn (sound : Sound client) (hasToken : client.refreshToken ≠ none) :
    client.signedOut = false := by
  by_contra isOut
  rw [Bool.not_eq_false] at isOut
  exact hasToken (sound.out isOut).2

theorem Sound.setSession (sound : Sound client) (known : tokens.refresh ∈ client.issued)
    (hasToken : client.refreshToken ≠ none) (unspent : ¬ client.Spent tokens.refresh) :
    Sound (client.setSession tokens) :=
  { sound with
    stored := by
      intro token isStored
      cases isStored
      exact ⟨known, unspent⟩
    out := by
      intro isOut
      have signedIn : client.signedOut = false := sound.signedIn hasToken
      rw [show client.signedOut = true from isOut] at signedIn
      cases signedIn }

theorem Sound.become {next : Option Pending} (sound : Sound client)
    (known : ∀ pending ∈ next, client.Known pending.purpose) : Sound (client.become id next) :=
  { sound with
    pending := by
      intro other pending isPending
      by_cases same : other = id
      · subst same
        exact known pending (by simpa [Client.become] using isPending)
      · exact sound.pending other pending (by simpa [Client.become, same] using isPending) }

/-- A caller whose request has failed clears the session or does nothing. -/
theorem Sound.settle_failed (sound : Sound client) : Sound (client.settle purpose false) := by
  cases purpose with
  | plain => exact sound
  | signIn tokens => exact sound.clearSession
  | signOut => exact sound.clearSession

theorem Sound.send (sound : Sound client) (known : client.Known purpose) :
    Sound (client.send id purpose) := by
  unfold Client.send
  split_ifs
  · apply sound.become
    rintro _ ⟨⟩
    exact known
  · exact sound

/-- The store of new tokens, which nobody has submitted. -/
theorem Sound.receive (sound : Sound client) (fresh : tokens.refresh ∉ client.issued)
    {next : Client} (token : next.refreshToken = some tokens.refresh)
    (submitted : next.submitted = client.submitted)
    (issued : next.issued = client.issued ++ [tokens.refresh])
    (refreshing : ∀ call ∈ next.refreshing, call ∈ client.refreshing)
    (pending : next.pending = client.pending) (signedIn : next.signedOut = false) :
    Sound next := by
  have later : ∀ purpose, client.Known purpose → next.Known purpose := by
    intro purpose known
    cases purpose with
    | plain => trivial
    | signOut => trivial
    | signIn others =>
        show others.refresh ∈ next.issued
        rw [issued]
        exact List.mem_append_left _ known
  refine ⟨?_, ?_, ?_, ?_, ?_, ?_, ?_⟩
  · unfold SubmittedOnce
    rw [submitted]
    exact sound.once
  · intro spent isSubmitted
    rw [submitted] at isSubmitted
    rw [issued]
    exact List.mem_append_left _ (sound.known spent isSubmitted)
  · intro stored isStored
    rw [token] at isStored
    cases isStored
    refine ⟨by rw [issued]; exact List.mem_append_right _ List.mem_cons_self, fun spent => ?_⟩
    have isSubmitted := spent.1
    rw [submitted] at isSubmitted
    exact fresh (sound.known _ isSubmitted)
  · intro call isCall
    rw [submitted]
    exact sound.inFlight call (refreshing call isCall)
  · intro id waits isPending
    rw [pending] at isPending
    exact later _ (sound.pending id waits isPending)
  · intro call isCall request waits
    exact later _ (sound.waiting call (refreshing call isCall) request waits)
  · intro isOut
    rw [signedIn] at isOut
    cases isOut

theorem Sound.signIn (sound : Sound client) : Sound (client.signIn id tokens) := by
  unfold Client.signIn
  split_ifs with refused
  · exact sound
  · rw [not_or] at refused
    have received : Sound { client with
        accessToken := some tokens.access
        refreshToken := some tokens.refresh
        issued := client.issued ++ [tokens.refresh]
        signedOut := false } :=
      sound.receive refused.1 rfl rfl rfl (fun _ isCall => isCall) rfl rfl
    apply received.become
    rintro _ ⟨⟩
    exact List.mem_append_right _ List.mem_cons_self

theorem Sound.logout (sound : Sound client) : Sound (client.logout id) := by
  unfold Client.logout
  split
  · exact sound.send trivial
  · exact sound.clearSession

/-- The token of the store is submitted when nobody has submitted it. -/
theorem Sound.await {token : String} (sound : Sound client)
    (isStored : client.refreshToken = some token) (known : client.Known purpose) :
    Sound (client.await id purpose token) := by
  obtain ⟨isIssued, unspent⟩ := sound.stored token isStored
  unfold Client.await
  cases isCall : client.refreshing with
  | none =>
      have fresh : token ∉ client.submitted := by
        intro isSubmitted
        apply unspent
        refine ⟨isSubmitted, fun call under => ?_⟩
        rw [isCall] at under
        cases under
      refine { sound with once := ?_, known := ?_, stored := ?_, inFlight := ?_, waiting := ?_ }
      · show (client.submitted ++ [token]).Nodup
        rw [← List.concat_eq_append]
        exact sound.once.concat fresh
      · intro submitted isSubmitted
        rcases List.mem_append.mp isSubmitted with old | new
        · exact sound.known submitted old
        · rw [List.mem_singleton.mp new]
          exact isIssued
      · intro stored same
        obtain rfl : token = stored := Option.some.inj (isStored.symm.trans same)
        exact ⟨isIssued, fun spent => spent.2 _ rfl rfl⟩
      · rintro _ ⟨⟩
        exact ⟨List.mem_append_right _ List.mem_cons_self, List.cons_ne_nil _ _⟩
      · rintro _ ⟨⟩ request waits
        rw [List.mem_singleton.mp waits]
        exact known
  | some refreshing =>
      refine { sound with stored := ?_, inFlight := ?_, waiting := ?_ }
      · intro stored same
        obtain ⟨storedIssued, storedUnspent⟩ := sound.stored stored same
        refine ⟨storedIssued, fun spent => storedUnspent ⟨spent.1, fun call under => ?_⟩⟩
        rw [isCall] at under
        cases under
        exact spent.2 { refreshing with waiting := refreshing.waiting ++ [(id, purpose)] } rfl
      · rintro _ ⟨⟩
        exact ⟨(sound.inFlight refreshing isCall).1, by simp⟩
      · rintro _ ⟨⟩ request waits
        rcases List.mem_append.mp waits with old | new
        · exact sound.waiting refreshing isCall request old
        · rw [List.mem_singleton.mp new]
          exact known

theorem Sound.unauthorized {pending : Pending} (sound : Sound client)
    (known : client.Known pending.purpose) : Sound (client.unauthorized id pending) := by
  unfold Client.unauthorized
  split_ifs
  · exact sound.settle_failed
  · split
    · exact sound.clearSession.settle_failed
    · rename_i token isStored
      exact sound.await isStored known

theorem Sound.answer {status : Status} (sound : Sound client)
    (keeps : client.Keeps (.answer id status)) : Sound (client.answer id status) := by
  unfold Client.answer
  cases isPending : client.pending id with
  | none => exact sound
  | some pending =>
      have idle : Sound (client.become id none) := sound.become (by simp)
      have known : client.Known pending.purpose := sound.pending id pending isPending
      cases status with
      | failed => exact idle.settle_failed
      | unauthorized => exact idle.unauthorized known
      | ok =>
          obtain ⟨purpose, retry⟩ := pending
          cases purpose with
          | plain => exact idle
          | signOut => exact idle.clearSession
          | signIn tokens =>
              have kept : client.KeepsSession (some ⟨.signIn tokens, retry⟩) := isPending ▸ keeps
              exact idle.setSession known kept.1 kept.2

theorem Sound.resend (waiting : List (Nat × Purpose)) (sound : Sound client)
    (known : ∀ request ∈ waiting, client.Known request.2) : Sound (client.resend waiting) := by
  unfold Client.resend
  induction waiting generalizing client with
  | nil => exact sound
  | cons request rest inductionHypothesis =>
      apply inductionHypothesis
      · apply sound.become
        rintro _ ⟨⟩
        exact known request List.mem_cons_self
      · exact fun other waits => known other (List.mem_cons_of_mem _ waits)

theorem Sound.refreshed (sound : Sound client) (keeps : client.Keeps (.refreshed tokens)) :
    Sound (client.refreshed tokens) := by
  unfold Client.refreshed
  cases isCall : client.refreshing with
  | none => exact sound
  | some refreshing =>
      dsimp only
      split_ifs with refused
      · exact sound
      · have hasToken : client.refreshToken ≠ none := keeps (by rw [isCall]; exact nofun)
        have received : Sound { client with
            accessToken := some tokens.access
            refreshToken := some tokens.refresh
            issued := client.issued ++ [tokens.refresh]
            refreshing := none } :=
          sound.receive refused rfl rfl rfl (by simp) rfl (sound.signedIn hasToken)
        apply received.resend
        intro request waits
        have known : client.Known request.2 := sound.waiting refreshing isCall request waits
        cases isPurpose : request.2 with
        | plain => trivial
        | signOut => trivial
        | signIn others =>
            rw [isPurpose] at known
            exact List.mem_append_left _ known

/-- Whoever awaits a refresh that fails clears the session. -/
theorem Sound.refreshFailed (sound : Sound client) : Sound client.refreshFailed := by
  unfold Client.refreshFailed
  cases isCall : client.refreshing with
  | none => exact sound
  | some refreshing =>
      have failed : Sound (Client.clearSession { client with refreshing := none }) :=
        { sound with
          stored := fun _ isStored => by cases isStored
          inFlight := fun _ under => by cases under
          waiting := fun _ under => by cases under
          out := fun _ => ⟨rfl, rfl⟩ }
      have others : ∀ (waiting : List (Nat × Purpose)) (client : Client), Sound client →
          Sound (waiting.foldl
            (fun client request => client.clearSession.settle request.2 false) client) := by
        intro waiting
        induction waiting with
        | nil => exact fun _ => id
        | cons request rest inductionHypothesis =>
            exact fun client sound => inductionHypothesis _ sound.clearSession.settle_failed
      dsimp only
      cases isWaiting : refreshing.waiting with
      | nil => exact absurd isWaiting (sound.inFlight refreshing isCall).2
      | cons request rest => exact others rest _ failed.settle_failed

theorem Sound.step {action : Action} (sound : Sound client) (keeps : client.Keeps action) :
    Sound (client.step action) := by
  unfold Client.step
  cases action with
  | send id => exact sound.send trivial
  | signIn id tokens => exact sound.signIn
  | logout id => exact sound.logout
  | clear => exact sound.clearSession
  | answer id status => exact sound.answer keeps
  | refreshed tokens => exact sound.refreshed keeps
  | refreshFailed => exact sound.refreshFailed

/-- While no tokens are written into a session that has been cleared since, and
no sign-in brings spent tokens back, every refresh token is submitted at most
once and a session that has been cleared has no tokens until the next sign-in. -/
theorem session_safe (actions : List Action) (keeps : EveryStep step Keeps {} actions) :
    Always step (fun client => client.SubmittedOnce ∧ client.StaysSignedOut) {} actions :=
  (always_guarded Sound (fun _ _ => Sound.step) Sound.empty keeps).imp fun _ sound =>
    ⟨sound.once, sound.out⟩

def first : TokenPair := ⟨"A1", "R1"⟩

def second : TokenPair := ⟨"A2", "R2"⟩

/-- Two requests find the access token expired, share one refresh, and the user
signs out after it. -/
theorem session_safe_shared :
    Always step (fun client => client.SubmittedOnce ∧ client.StaysSignedOut) {}
      [.signIn 0 first, .answer 0 .ok, .send 1, .send 2, .answer 1 .unauthorized,
        .answer 2 .unauthorized, .refreshed second, .answer 1 .ok, .answer 2 .ok, .logout 3,
        .answer 3 .ok] :=
  session_safe _ (by decide)

/-- A refresh that is under way at a sign-out brings tokens back, and a sign-in
whose first request has refreshed brings its spent token back. -/
theorem session_not_always_safe :
    ¬ (∀ actions : List Action, Always step StaysSignedOut {} actions) ∧
      ¬ ∀ actions : List Action, Always step SubmittedOnce {} actions := by
  constructor
  · intro always
    have signedOut := (always [.signIn 0 first, .answer 0 .ok, .send 1, .answer 1 .unauthorized,
      .logout 2, .answer 2 .ok, .refreshed second]).at_end
    revert signedOut
    decide
  · intro always
    have once := (always [.signIn 0 first, .answer 0 .unauthorized, .refreshed second,
      .answer 0 .ok, .send 1, .answer 1 .unauthorized]).at_end
    revert once
    decide

end Client

end BubllioCrm.Frontend
