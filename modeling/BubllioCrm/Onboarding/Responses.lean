import BubllioCrm.Onboarding.Channel

/-!
Owns what an answer that the CRM returns is an answer to: a request of the CRM
with the same method, path and second, which the agent authenticated.

The signature of a response does not cover the body of its request, so the
request may be another call to the same path in the same second.
-/

namespace BubllioCrm.Onboarding

open BubllioCrm.Foundations
open BubllioCrm.UpdateAgent

namespace Channel

variable {signing : Signing} {library : Library} {deployment : Deployment}

/-- The request of a call is the one that its arguments give. -/
structure Call.Issued (signing : Signing) (library : Library) (deployment : Deployment)
    (call : Call) : Prop where
  arguments : call.agentCall.arguments = some call.arguments
  request : buildRequest signing library deployment.settings call.arguments call.clock =
    .ok call.request

/-- What a call that was sent makes of an exchange. -/
theorem Call.Issued.request_eq {call : Call} (issued : Call.Issued signing library deployment call)
    (exchange : Exchange) :
    Onboarding.request signing library deployment.settings call.arguments call.clock
        (fun _ => exchange) =
      readAnswer signing library deployment.settings call.arguments.path
        (toString call.clock.seconds) deployment.installationId exchange := by
  rw [Onboarding.request, issued.request]
  rfl

/-- The calls went to one endpoint in one second. -/
structure SameSecond (first second : Call) : Prop where
  method : first.arguments.method = second.arguments.method
  path : first.arguments.path = second.arguments.path
  seconds : first.clock.seconds = second.clock.seconds

/-- A request has the method, the path and the body of a call. -/
structure Carries (request : HttpRequest) (call : Call) : Prop where
  method : request.method = call.arguments.method
  path : request.path = call.arguments.path
  body : requestBody request = .ok call.request.stream

/-- The timestamp that a request was signed with is the second of a call. -/
def CarriesTime (request : HttpRequest) (call : Call) : Prop :=
  parseInt (request.headers.timestamp.getD "") = some call.clock.seconds

/-- The handling authenticated its request and computed this answer for it. -/
structure Computed (signing : Signing) (library : Library) (deployment : Deployment)
    (handling : Handling) (body : ByteArray) (exchange : Exchange) (decoded : Fields) : Prop where
  isBody : requestBody handling.request = .ok body
  authenticated : authenticateRequest signing library deployment.settings.secretBytes
    handling.request.method handling.request.path handling.request.headers
    deployment.installationId body deployment.requestMaxAgeSeconds handling.now = .ok ()
  answer : ∃ answer response,
    dispatch signing library deployment.config handling.service handling.request handling.now =
      .ok answer ∧
    send signing deployment.config handling.request answer = some response ∧
    200 ≤ answer.1 ∧ answer.1 < 300 ∧
    exchange = .response answer.1 (some response.signature) response.body ∧
    library.loads response.body = .decoded (.obj decoded)

/-! ### Methods and paths -/

theorem upper_served {request : HttpRequest} (served : Served request) :
    library.upper request.method = request.method := by
  rcases served.1 with isGet | isPost
  · rw [isGet]
    exact library.upper_capitals _ (by decide)
  · rw [isPost]
    exact library.upper_capitals _ (by decide)

/-- A number does not start with a capital. -/
theorem capital_ne_number {text : String} (capitals : text.toList.all Char.isUpper = true)
    (nonempty : text.toList ≠ []) (number : Int) : text ≠ toString number := by
  rintro rfl
  obtain ⟨first, member⟩ := List.exists_mem_of_ne_nil _ nonempty
  have isUpper := List.all_eq_true.mp capitals first member
  rcases mem_toString member with rfl | digit
  · exact absurd isUpper (by decide)
  · have capital := isUpper_range isUpper
    have range : 48 ≤ first.toNat ∧ first.toNat ≤ 57 := Char.isDigit_iff_toNat.mp digit
    omega

theorem arguments_method {agentCall : AgentCall} {arguments : CallArguments}
    (isCall : agentCall.arguments = some arguments) :
    arguments.method = "GET" ∨ arguments.method = "POST" := by
  cases agentCall with
  | getAgentStatus => exact Or.inl (Option.some.inj isCall ▸ rfl)
  | requestPreflight targetVersion => exact Or.inr (Option.some.inj isCall ▸ rfl)
  | startAgentUpdate targetVersion idempotencyKey => exact Or.inr (Option.some.inj isCall ▸ rfl)
  | getAgentUpdate agentJobId =>
      simp only [AgentCall.arguments] at isCall
      split_ifs at isCall
      exact Or.inl (Option.some.inj isCall ▸ rfl)

/-- The path of a call that posts. -/
theorem arguments_post {agentCall : AgentCall} {arguments : CallArguments}
    (isCall : agentCall.arguments = some arguments) :
    arguments.method = "POST" ↔
      arguments.path = "/v1/preflight" ∨ arguments.path = "/v1/updates" := by
  cases agentCall with
  | getAgentStatus =>
      rw [← Option.some.inj isCall]
      decide
  | requestPreflight targetVersion =>
      rw [← Option.some.inj isCall]
      simp
  | startAgentUpdate targetVersion idempotencyKey =>
      rw [← Option.some.inj isCall]
      simp
  | getAgentUpdate agentJobId =>
      simp only [AgentCall.arguments] at isCall
      split_ifs at isCall with isId
      rw [← Option.some.inj isCall]
      have notPost : ("GET" : String) ≠ "POST" := by decide
      have paths : "/v1/updates/" ++ agentJobId ≠ "/v1/preflight" ∧
          "/v1/updates/" ++ agentJobId ≠ "/v1/updates" := by
        constructor
        · intro same
          have chars := congrArg (fun text => text.toList[4]?) same
          simp at chars
        · intro same
          have lengths := congrArg (fun text => text.toList.length) same
          simp at lengths
      simp [paths]

theorem arguments_payload {agentCall : AgentCall} {arguments : CallArguments}
    (isCall : agentCall.arguments = some arguments) (isGet : arguments.method = "GET") :
    arguments.payload = none := by
  cases agentCall with
  | getAgentStatus => rw [← Option.some.inj isCall]
  | requestPreflight targetVersion =>
      rw [← Option.some.inj isCall] at isGet
      exact absurd (show "POST" = "GET" from isGet) (by decide)
  | startAgentUpdate targetVersion idempotencyKey =>
      rw [← Option.some.inj isCall] at isGet
      exact absurd (show "POST" = "GET" from isGet) (by decide)
  | getAgentUpdate agentJobId =>
      simp only [AgentCall.arguments] at isCall
      split_ifs at isCall
      rw [← Option.some.inj isCall]

theorem isAgentJobId_line {text : String} (isId : isAgentJobId text = true) : IsLine text :=
  not_mem_of_matchesHeadTail (Bool.and_eq_true_iff.mp isId).1 (by decide) (by decide)

theorem arguments_path {agentCall : AgentCall} {arguments : CallArguments}
    (isCall : agentCall.arguments = some arguments) : IsLine arguments.path := by
  cases agentCall with
  | getAgentStatus =>
      rw [← Option.some.inj isCall]
      decide
  | requestPreflight targetVersion =>
      rw [← Option.some.inj isCall]
      show IsLine "/v1/preflight"
      decide
  | startAgentUpdate targetVersion idempotencyKey =>
      rw [← Option.some.inj isCall]
      show IsLine "/v1/updates"
      decide
  | getAgentUpdate agentJobId =>
      simp only [AgentCall.arguments] at isCall
      split_ifs at isCall with isId
      rw [← Option.some.inj isCall]
      show '\n' ∉ ("/v1/updates/" ++ agentJobId).toList
      rw [String.toList_append, List.mem_append, not_or]
      exact ⟨by decide, isAgentJobId_line isId⟩

/-- Calls to one path have one method. -/
theorem method_of_path {first second : Call} (isFirst : first.agentCall.arguments =
    some first.arguments) (isSecond : second.agentCall.arguments = some second.arguments)
    (path : first.arguments.path = second.arguments.path) :
    first.arguments.method = second.arguments.method := by
  have post : first.arguments.method = "POST" ↔ second.arguments.method = "POST" := by
    rw [arguments_post isFirst, arguments_post isSecond, path]
  rcases arguments_method isFirst with firstGet | firstPost
  · rcases arguments_method isSecond with secondGet | secondPost
    · rw [firstGet, secondGet]
    · rw [secondPost, post.mpr secondPost]
  · rw [firstPost, post.mp firstPost]

/-! ### The invariant -/

/-- What was signed, handled and returned traces back to calls of the CRM. -/
structure Sound (signing : Signing) (library : Library) (deployment : Deployment)
    (channel : Channel) : Prop where
  issued : ∀ call ∈ channel.calls, Call.Issued signing library deployment call
  lines : ∀ signed ∈ channel.signed, signed.Lines
  signed : ∀ signed ∈ channel.signed,
    (∃ call ∈ channel.calls, signed = clientSigned deployment call) ∨
    ∃ handling ∈ channel.handlings, ∃ response ∈ responses signing library deployment handling,
      signed = responseSigned deployment handling response
  handled : ∀ handling ∈ channel.handlings, ∀ answer,
    dispatch signing library deployment.config handling.service handling.request handling.now =
      .ok answer →
    ∃ call ∈ channel.calls, Carries handling.request call ∧ CarriesTime handling.request call
  returned : ∀ returned ∈ channel.returns, returned.call ∈ channel.calls ∧
    ∀ decoded, returned.result = .ok decoded →
      ∃ handling ∈ channel.handlings, ∃ call ∈ channel.calls,
        Carries handling.request call ∧ CarriesTime handling.request returned.call ∧
        SameSecond call returned.call ∧
        Computed signing library deployment handling call.request.stream returned.exchange decoded

theorem clientSigned_lines {call : Call} (issued : Call.Issued signing library deployment call) :
    (clientSigned deployment call).Lines where
  method := by
    rintro method (isClient | isAgent)
    · injection isClient with isMethod
      rw [← isMethod]
      rcases arguments_method issued.arguments with isGet | isPost
      · rw [isGet]
        decide
      · rw [isPost]
        decide
    · cases isAgent
  path := arguments_path issued.arguments
  installationId := isLine_of_isCanonicalUuid deployment.canonical

theorem responseSigned_lines {handling : Handling} {response : HttpResponse}
    (served : Served handling.request) : (responseSigned deployment handling response).Lines where
  method := by
    rintro method (isClient | isAgent)
    · cases isClient
    · cases isAgent
  path := served.2
  installationId := isLine_of_isCanonicalUuid deployment.canonical

/-- A request whose endpoint was reached is one that a call of the CRM signed. -/
theorem Sound.carries {channel : Channel} (sound : Sound signing library deployment channel)
    {handling : Handling} (served : Served handling.request)
    (unforged : signing.Unforged deployment.settings.secretBytes
      (channel.signed.map (Signed.message signing library)) handling.request.headers.signature)
    {answer : Int × Payload}
    (dispatched : dispatch signing library deployment.config handling.service handling.request
      handling.now = .ok answer) :
    ∃ call ∈ channel.calls, Carries handling.request call ∧ CarriesTime handling.request call := by
  obtain ⟨body, isBody, isOk⟩ := dispatch_ok dispatched
  obtain ⟨-, time, accepted⟩ := authenticateRequest_ok.mp isOk
  have upper : library.upper handling.request.method = handling.request.method :=
    upper_served served
  have capitals : handling.request.method.toList.all Char.isUpper = true ∧
      handling.request.method.toList ≠ [] := by
    rcases served.1 with isGet | isPost
    · rw [isGet]
      decide
    · rw [isPost]
      decide
  have methodLine : IsLine handling.request.method := by
    intro member
    exact absurd (List.all_eq_true.mp capitals.1 _ member) (by decide)
  obtain ⟨signed, member, signs⟩ := accepted_signed sound.lines
    ⟨methodLine, served.2, isLine_of_isCanonicalUuid deployment.canonical⟩ unforged accepted
  rcases sound.signed signed member with ⟨call, isCall, rfl⟩ | ⟨other, -, response, -, rfl⟩
  · refine ⟨call, isCall, ⟨?_, signs.path.symm, ?_⟩, ?_⟩
    · rw [← upper]
      exact signs.method.symm
    · rw [isBody]
      exact congrArg Except.ok signs.body.symm
    · have sameTime : call.clock.seconds = time := toString_injective signs.timestamp
      rw [CarriesTime, sameTime]
      exact accepted.parsed
  · -- The first line of a response is a number.
    exact absurd (upper ▸ signs.method.symm) (capital_ne_number capitals.1 capitals.2 _)

/-! ### Answers that are returned -/

/-- An answer that is returned has a success status and the signature that
belongs to the path and the timestamp of the call. -/
theorem readAnswer_ok {settings : AgentSettings} {path timestamp installationId : String}
    {exchange : Exchange} {decoded : Fields}
    (isOk : readAnswer signing library settings path timestamp installationId exchange =
      .ok decoded) :
    ∃ status raw, exchange = .response status (some (signing.code settings.secretBytes
        (signingInput signing (toString status) path timestamp installationId raw))) raw ∧
      200 ≤ status ∧ status < 300 ∧ library.loads raw = .decoded (.obj decoded) := by
  cases exchange with
  | failed => cases isOk
  | response status signature raw =>
      cases signature with
      | none =>
          simp only [readAnswer] at isOk
          split_ifs at isOk
      | some signature =>
          cases loaded : library.loads raw with
          | invalid =>
              simp only [readAnswer, loaded] at isOk
              split_ifs at isOk
          | raised =>
              simp only [readAnswer, loaded] at isOk
              split_ifs at isOk
          | decoded value =>
              cases value with
              | obj fields =>
                  simp only [readAnswer, loaded] at isOk
                  split_ifs at isOk with _ _ _ same _ success
                  injection isOk with isDecoded
                  rw [not_not] at same
                  subst isDecoded
                  exact ⟨status, raw, by rw [same], success.1, success.2, loaded⟩
              | _ =>
                  simp only [readAnswer, loaded] at isOk
                  split_ifs at isOk

/-- The signature of the answer is one that the agent made in a handling of a
request with the path and the timestamp of the call. -/
theorem Sound.answered {channel : Channel} (sound : Sound signing library deployment channel)
    {call : Call} (isCall : call ∈ channel.calls) {exchange : Exchange} {decoded : Fields}
    (cannotSign : CannotSign signing library deployment channel (.receive 0 exchange))
    (isOk : readAnswer signing library deployment.settings call.arguments.path
      (toString call.clock.seconds) deployment.installationId exchange = .ok decoded) :
    ∃ handling ∈ channel.handlings, ∃ other ∈ channel.calls,
      Carries handling.request other ∧ CarriesTime handling.request call ∧
      SameSecond other call ∧
      Computed signing library deployment handling other.request.stream exchange decoded := by
  obtain ⟨status, raw, rfl, atLeast, below, loaded⟩ := readAnswer_ok isOk
  obtain ⟨signed, member, same⟩ := List.mem_map.mp (cannotSign _ rfl)
  have lines := sound.lines signed member
  have parts := Signing.message_injective
    ⟨Signed.firstLine_line lines, lines.path, lines.installationId⟩
    ⟨Signed.isLine_toString status, arguments_path (sound.issued call isCall).arguments,
      isLine_of_isCanonicalUuid deployment.canonical⟩ same
  rcases sound.signed signed member with ⟨other, isOther, rfl⟩ | ⟨handling, isHandling, response,
    isResponse, rfl⟩
  · -- The first line of a request is a method.
    have isMethod : other.arguments.method = toString status := parts.1
    rcases arguments_method (sound.issued other isOther).arguments with isGet | isPost
    · exact absurd (isGet ▸ isMethod) (capital_ne_number (by decide) (by decide) status)
    · exact absurd (isPost ▸ isMethod) (capital_ne_number (by decide) (by decide) status)
  · have isStatus : response.status = status := toString_injective parts.1
    have isPath : handling.request.path = call.arguments.path := parts.2.1
    have isTime : handling.request.headers.timestamp.getD "" = toString call.clock.seconds :=
      parts.2.2.1
    have isBody : response.body = raw := parts.2.2.2.2
    subst isStatus isBody
    obtain ⟨answer, dispatched, sent⟩ := handle_success isResponse below
    obtain ⟨other, isOther, carries, carriesTime⟩ :=
      sound.handled handling isHandling answer dispatched
    obtain ⟨body, isRequestBody, authenticated⟩ := dispatch_ok dispatched
    have sameBody : body = other.request.stream := by
      rw [carries.body] at isRequestBody
      injection isRequestBody with same
      exact same.symm
    subst sameBody
    have seconds : other.clock.seconds = call.clock.seconds := by
      rw [CarriesTime, isTime, call.clock.parseInt_seconds] at carriesTime
      injection carriesTime with same
      exact same.symm
    have callTime : CarriesTime handling.request call := by
      rw [CarriesTime, isTime]
      exact call.clock.parseInt_seconds
    have path : other.arguments.path = call.arguments.path := carries.path.symm.trans isPath
    have isAnswer := send_eq_some sent
    refine ⟨handling, isHandling, other, isOther, carries, callTime, ⟨?_, path, seconds⟩, ?_⟩
    · exact method_of_path (sound.issued other isOther).arguments
        (sound.issued call isCall).arguments path
    · refine ⟨isRequestBody, authenticated, answer, response, dispatched, sent, ?_, ?_, ?_, loaded⟩
      · rw [← isAnswer.1]
        exact atLeast
      · rw [← isAnswer.1]
        exact below
      · rw [isAnswer.2, isPath, isTime, ← isAnswer.1]
        rfl

/-! ### Steps -/

theorem initial_sound : Sound signing library deployment initial where
  issued := fun _ member => absurd member List.not_mem_nil
  lines := fun _ member => absurd member List.not_mem_nil
  signed := fun _ member => absurd member List.not_mem_nil
  handled := fun _ member => absurd member List.not_mem_nil
  returned := fun _ member => absurd member List.not_mem_nil

theorem Sound.issue {channel : Channel} (sound : Sound signing library deployment channel)
    (agentCall : AgentCall) (clock : ClockReading) :
    Sound signing library deployment
      (channel.issue signing library deployment agentCall clock) := by
  unfold Channel.issue
  cases isCall : agentCall.arguments with
  | none => exact sound
  | some arguments =>
      cases built : buildRequest signing library deployment.settings arguments clock with
      | error error => simpa only [built] using sound
      | ok request =>
          simp only [built]
          have issued : Call.Issued signing library deployment {
              agentCall := agentCall
              arguments := arguments
              clock := clock
              request := request } := { arguments := isCall, request := built }
          constructor
          · intro call member
            rcases List.mem_append.mp member with earlier | isNew
            · exact sound.issued call earlier
            · exact List.mem_singleton.mp isNew ▸ issued
          · intro signed member
            rcases List.mem_append.mp member with earlier | isNew
            · exact sound.lines signed earlier
            · exact List.mem_singleton.mp isNew ▸ clientSigned_lines issued
          · intro signed member
            rcases List.mem_append.mp member with earlier | isNew
            · rcases sound.signed signed earlier with ⟨call, isCall, isSigned⟩ | isResponse
              · exact Or.inl ⟨call, List.mem_append_left _ isCall, isSigned⟩
              · exact Or.inr isResponse
            · exact Or.inl ⟨_, List.mem_append_right _ List.mem_cons_self,
                List.mem_singleton.mp isNew⟩
          · intro handling member answer dispatched
            obtain ⟨call, isCall, carries⟩ := sound.handled handling member answer dispatched
            exact ⟨call, List.mem_append_left _ isCall, carries⟩
          · intro returned member
            obtain ⟨isCall, answered⟩ := sound.returned returned member
            refine ⟨List.mem_append_left _ isCall, fun decoded isOk => ?_⟩
            obtain ⟨handling, isHandling, call, isOther, computed⟩ := answered decoded isOk
            exact ⟨handling, isHandling, call, List.mem_append_left _ isOther, computed⟩

theorem Sound.handle {channel : Channel} (sound : Sound signing library deployment channel)
    {handling : Handling} (served : Served handling.request)
    (unforged : signing.Unforged deployment.settings.secretBytes
      (channel.signed.map (Signed.message signing library)) handling.request.headers.signature) :
    Sound signing library deployment
      { channel with
        handlings := channel.handlings ++ [handling]
        signed := channel.signed ++ (responses signing library deployment handling).map
          (responseSigned deployment handling) } := by
  constructor
  · exact sound.issued
  · intro signed member
    rcases List.mem_append.mp member with earlier | isNew
    · exact sound.lines signed earlier
    · obtain ⟨response, -, rfl⟩ := List.mem_map.mp isNew
      exact responseSigned_lines served
  · intro signed member
    rcases List.mem_append.mp member with earlier | isNew
    · rcases sound.signed signed earlier with isClient | ⟨other, isHandling, isResponse⟩
      · exact Or.inl isClient
      · exact Or.inr ⟨other, List.mem_append_left _ isHandling, isResponse⟩
    · obtain ⟨response, isResponse, rfl⟩ := List.mem_map.mp isNew
      exact Or.inr ⟨handling, List.mem_append_right _ List.mem_cons_self, response, isResponse, rfl⟩
  · intro other member answer dispatched
    rcases List.mem_append.mp member with earlier | isNew
    · exact sound.handled other earlier answer dispatched
    · rw [List.mem_singleton.mp isNew] at dispatched ⊢
      exact sound.carries served unforged dispatched
  · intro returned member
    obtain ⟨isCall, answered⟩ := sound.returned returned member
    refine ⟨isCall, fun decoded isOk => ?_⟩
    obtain ⟨other, isHandling, computed⟩ := answered decoded isOk
    exact ⟨other, List.mem_append_left _ isHandling, computed⟩

theorem Sound.receive {channel : Channel} (sound : Sound signing library deployment channel)
    {index : Nat} {exchange : Exchange}
    (cannotSign : CannotSign signing library deployment channel (.receive 0 exchange)) :
    Sound signing library deployment
      (channel.receive signing library deployment index exchange) := by
  unfold Channel.receive
  cases isCall : channel.calls[index]? with
  | none => exact sound
  | some call =>
      have member : call ∈ channel.calls := List.mem_of_getElem? isCall
      by_cases taken : ∃ returned ∈ channel.returns, returned.index = index
      · simpa only [if_pos taken] using sound
      · simp only [if_neg taken]
        refine { sound with returned := ?_ }
        intro returned isReturned
        rcases List.mem_append.mp isReturned with earlier | isNew
        · exact sound.returned returned earlier
        · rw [List.mem_singleton.mp isNew]
          refine ⟨member, fun decoded isOk => sound.answered member cannotSign ?_⟩
          rw [← (sound.issued call member).request_eq]
          exact isOk

theorem step_sound {channel : Channel} {action : Action}
    (sound : Sound signing library deployment channel)
    (cannotSign : CannotSign signing library deployment channel action) :
    Sound signing library deployment (step signing library deployment channel action) := by
  cases action with
  | call agentCall clock => exact sound.issue agentCall clock
  | handle handling =>
      simp only [step]
      by_cases served : Served handling.request
      · rw [if_pos served]
        exact sound.handle served cannotSign
      · rw [if_neg served]
        exact sound
  | receive index exchange =>
      apply sound.receive
      cases exchange with
      | failed => trivial
      | response status signature raw => exact cannotSign

/-! ### The result -/

/-- A call that gets sends no body. -/
theorem get_stream {call : Call} (issued : Call.Issued signing library deployment call)
    (isGet : call.arguments.method = "GET") : call.request.stream = ByteArray.empty := by
  have noPayload := arguments_payload issued.arguments isGet
  have isBody := (buildRequest_ok issued.request).2.1
  rw [CallArguments.body, noPayload] at isBody
  exact (Option.some.inj isBody).symm

/-- An answer that the CRM returns was computed for an authenticated request
with the method, the path and the timestamp of the call; and with its body too,
unless the call posts and another call with another body went to that path in
that second. -/
theorem responses_bound {actions : List Action}
    (cannotSign : EveryStep (step signing library deployment)
      (CannotSign signing library deployment) initial actions) :
    ∀ returned ∈ (run (step signing library deployment) initial actions).returns,
      ∀ decoded, returned.result = .ok decoded →
        ∃ handling ∈ (run (step signing library deployment) initial actions).handlings,
        ∃ call ∈ (run (step signing library deployment) initial actions).calls,
          Carries handling.request call ∧ CarriesTime handling.request returned.call ∧
          SameSecond call returned.call ∧
          Computed signing library deployment handling call.request.stream returned.exchange
            decoded ∧
          (returned.call.arguments.method = "GET" ∨
            (∀ other ∈ (run (step signing library deployment) initial actions).calls,
              SameSecond other returned.call →
                other.request.stream = returned.call.request.stream) →
            Carries handling.request returned.call) := by
  intro returned member decoded isOk
  have sound := (always_guarded (Sound signing library deployment)
    (fun _ _ => step_sound) initial_sound cannotSign).at_end
  obtain ⟨isCall, answered⟩ := sound.returned returned member
  obtain ⟨handling, isHandling, call, isOther, carries, carriesTime, sameSecond, computed⟩ :=
    answered decoded isOk
  refine ⟨handling, isHandling, call, isOther, carries, carriesTime, sameSecond, computed,
    fun alone => ?_⟩
  have sameBody : call.request.stream = returned.call.request.stream := by
    rcases alone with isGet | noOther
    · rw [get_stream (sound.issued call isOther) (sameSecond.method.trans isGet),
        get_stream (sound.issued returned.call isCall) isGet]
    · exact noOther call isOther sameSecond
  exact {
    method := carries.method.trans sameSecond.method
    path := carries.path.trans sameSecond.path
    body := by rw [carries.body, sameBody] }

/-! ### Two calls in one second -/

theorem readAnswer_success {settings : AgentSettings} {path timestamp installationId : String}
    {status : Int} {raw : ByteArray} {decoded : Fields} (size : raw.size ≤ maxResponseBytes)
    (success : 200 ≤ status ∧ status < 300)
    (loaded : library.loads raw = .decoded (.obj decoded))
    (installation :
      Document.isText installationId (Document.get "installation_id" decoded) = true) :
    readAnswer signing library settings path timestamp installationId
      (.response status (some (signing.code settings.secretBytes
        (signingInput signing (toString status) path timestamp installationId raw))) raw) =
      .ok decoded := by
  have notRedirect : ¬ (300 ≤ status ∧ status < 400) := by omega
  simp only [readAnswer, loaded, if_neg (Nat.not_lt.mpr size), if_neg notRedirect,
    signing.code_ascii, Bool.not_true, Bool.false_eq_true, if_false, ne_eq, not_true_eq_false,
    installation, if_pos success]

def sharedDeployment : Deployment where
  settings := sharedSettings
  requestMaxAgeSeconds := 60
  canonical := by decide

def preflightBody (targetVersion : String) : ByteArray :=
  ("\x7b\"target_version\":\"" ++ targetVersion ++ "\"\x7d").toByteArray

def eligiblePayload : Payload :=
  [("eligible", .bool true)]

/-- The answer with the installation in it. -/
def eligibleAnswer : Fields :=
  [(ofString "eligible", .bool true),
    (ofString "installation_id", .str (ofString "00000000-0000-4000-8000-000000000001"))]

def eligibleText : String :=
  "\x7b\"eligible\":true,\"installation_id\":\"00000000-0000-4000-8000-000000000001\"\x7d"

def eligibleBody : ByteArray :=
  eligibleText.toByteArray

/-- Decodes the request for version 1.3.0 and the answer to it. -/
def preflightLibrary : Library where
  upper := asciiUpper
  loads := fun bytes =>
    if bytes.data = (preflightBody "1.3.0").data then
      .decoded (.obj [(ofString "target_version", .str (ofString "1.3.0"))])
    else if bytes.data = eligibleBody.data then .decoded (.obj eligibleAnswer)
    else .invalid
  urlsplit := fun target => some { path := target, query := "", fragment := "" }
  upper_line := asciiLibrary.upper_line
  upper_capitals := asciiLibrary.upper_capitals

def preflightArguments (targetVersion : String) : CallArguments where
  method := "POST"
  path := "/v1/preflight"
  payload := some (.obj [("target_version", .str targetVersion)])

def preflightRequest (targetVersion : String) : HttpRequest where
  method := "POST"
  path := "/v1/preflight"
  headers := {
    timestamp := some "1000"
    signature := some (plainSigning.code sharedSettings.secretBytes
      (signingInput plainSigning "POST" "/v1/preflight" "1000" sharedDeployment.installationId
        (preflightBody targetVersion)))
    installationId := some sharedDeployment.installationId
    contentLength := some "26" }
  stream := preflightBody targetVersion

theorem preflightRequest_built {targetVersion : String}
    (isTarget : targetVersion = "1.3.0" ∨ targetVersion = "1.4.0") :
    buildRequest plainSigning preflightLibrary sharedSettings (preflightArguments targetVersion)
      thousandSeconds = .ok (preflightRequest targetVersion) := by
  rcases isTarget with rfl | rfl
  · rfl
  · rfl

def preflightCall (targetVersion : String) : Call where
  agentCall := .requestPreflight targetVersion
  arguments := preflightArguments targetVersion
  clock := thousandSeconds
  request := preflightRequest targetVersion

/-- The agent handles the call for version 1.3.0. -/
def preflightHandling : Handling where
  request := preflightRequest "1.3.0"
  now := 1000
  service := {
    status := .error .otherException
    preflight := fun _ => .ok eligiblePayload
    start := fun _ _ => .error .otherException
    getJob := fun _ => .error .otherException }
  writeFails := false

def preflightResponse : HttpResponse where
  status := 200
  signature := signResponse plainSigning sharedSettings.secretBytes 200 "/v1/preflight" "1000"
    sharedDeployment.installationId eligibleBody
  body := eligibleBody

theorem preflightHandling_dispatched :
    dispatch plainSigning preflightLibrary sharedDeployment.config preflightHandling.service
      preflightHandling.request preflightHandling.now = .ok (200, eligiblePayload) := by
  have isBody : requestBody preflightHandling.request = .ok (preflightBody "1.3.0") := rfl
  have isSplit : preflightLibrary.urlsplit preflightHandling.request.path =
      some { path := "/v1/preflight", query := "", fragment := "" } := rfl
  have isEndpoint : endpoint preflightLibrary preflightHandling.service
      preflightHandling.request.method "/v1/preflight" (preflightBody "1.3.0") =
        .ok (200, eligiblePayload) := rfl
  have authenticated : authenticateRequest plainSigning preflightLibrary
      sharedDeployment.config.sharedSecret preflightHandling.request.method
      preflightHandling.request.path preflightHandling.request.headers
      sharedDeployment.config.installationId (preflightBody "1.3.0")
      sharedDeployment.config.requestMaxAgeSeconds preflightHandling.now = .ok () :=
    buildRequest_authenticated (preflightRequest_built (Or.inl rfl)) (by decide) (by decide)
  rw [dispatch_authenticated isSplit rfl isBody authenticated]
  exact isEndpoint

theorem eligiblePayload_dumps :
    Json.dumps (.obj (Json.set "installation_id" (.str sharedDeployment.config.installationId)
      eligiblePayload)) = some eligibleText := by
  decide +kernel

theorem preflightHandling_sent :
    send plainSigning sharedDeployment.config preflightHandling.request (200, eligiblePayload) =
      some preflightResponse := by
  simp only [send, eligiblePayload_dumps]
  rfl

theorem preflightHandling_responses :
    responses plainSigning preflightLibrary sharedDeployment preflightHandling =
      [preflightResponse] :=
  handle_answered preflightHandling_dispatched preflightHandling_sent

def crossedActions : List Action := [
  .call (.requestPreflight "1.3.0") thousandSeconds,
  .call (.requestPreflight "1.4.0") thousandSeconds,
  .handle preflightHandling,
  .receive 1 (.response 200 (some preflightResponse.signature) eligibleBody)]

def twoCalls : Channel where
  calls := [preflightCall "1.3.0", preflightCall "1.4.0"]
  handlings := []
  returns := []
  signed := [clientSigned sharedDeployment (preflightCall "1.3.0"),
    clientSigned sharedDeployment (preflightCall "1.4.0")]

def oneAnswer : Channel where
  calls := twoCalls.calls
  handlings := [preflightHandling]
  returns := []
  signed := twoCalls.signed ++ [responseSigned sharedDeployment preflightHandling preflightResponse]

theorem step_twoCalls :
    step plainSigning preflightLibrary sharedDeployment
      (step plainSigning preflightLibrary sharedDeployment initial
        (.call (.requestPreflight "1.3.0") thousandSeconds))
      (.call (.requestPreflight "1.4.0") thousandSeconds) = twoCalls := by
  rfl

theorem step_oneAnswer :
    step plainSigning preflightLibrary sharedDeployment twoCalls (.handle preflightHandling) =
      oneAnswer := by
  have served : Served preflightHandling.request := by decide
  simp only [step, if_pos served, preflightHandling_responses]
  rfl

def crossedReturn : Return where
  index := 1
  call := preflightCall "1.4.0"
  exchange := .response 200 (some preflightResponse.signature) eligibleBody
  result := .ok eligibleAnswer

theorem preflightLibrary_loads :
    preflightLibrary.loads eligibleBody = .decoded (.obj eligibleAnswer) := by
  have different : eligibleBody.data ≠ (preflightBody "1.3.0").data := by decide +kernel
  simp only [preflightLibrary, if_neg different, if_true]

theorem step_crossed :
    step plainSigning preflightLibrary sharedDeployment oneAnswer
        (.receive 1 (.response 200 (some preflightResponse.signature) eligibleBody)) =
      { oneAnswer with returns := [crossedReturn] } := by
  have isOk : readAnswer plainSigning preflightLibrary sharedSettings "/v1/preflight"
      (toString thousandSeconds.seconds) sharedDeployment.installationId
      (.response 200 (some preflightResponse.signature) eligibleBody) = .ok eligibleAnswer :=
    readAnswer_success (by decide +kernel) (by decide) preflightLibrary_loads (by decide +kernel)
  have isCall : oneAnswer.calls[1]? = some (preflightCall "1.4.0") := rfl
  have noReturn : ¬ ∃ returned ∈ oneAnswer.returns, returned.index = 1 := by
    rintro ⟨returned, member, -⟩
    exact absurd member List.not_mem_nil
  simp only [step, Channel.receive, isCall, if_neg noReturn]
  have issued : Call.Issued plainSigning preflightLibrary sharedDeployment
      (preflightCall "1.4.0") := ⟨rfl, preflightRequest_built (Or.inr rfl)⟩
  rw [issued.request_eq]
  have result : readAnswer plainSigning preflightLibrary sharedDeployment.settings
      (preflightCall "1.4.0").arguments.path (toString (preflightCall "1.4.0").clock.seconds)
      sharedDeployment.installationId
      (.response 200 (some preflightResponse.signature) eligibleBody) = .ok eligibleAnswer := isOk
  rw [result]
  rfl

theorem run_crossed :
    run (step plainSigning preflightLibrary sharedDeployment) initial crossedActions =
      { oneAnswer with returns := [crossedReturn] } := by
  rw [crossedActions, run_cons, run_cons, step_twoCalls, run_cons, step_oneAnswer, run_cons,
    step_crossed, run_nil]

/-- The signatures of the run were made before they are presented. -/
theorem crossed_cannotSign :
    EveryStep (step plainSigning preflightLibrary sharedDeployment)
      (CannotSign plainSigning preflightLibrary sharedDeployment) initial crossedActions := by
  refine ⟨trivial, trivial, ?_, ?_, trivial⟩
  · rw [step_twoCalls]
    intro message presented
    have isMessage := plainSigning.code_injective _ (Option.some.inj presented)
    rw [← isMessage]
    exact List.mem_cons_self
  · rw [step_twoCalls, step_oneAnswer]
    intro message presented
    have isMessage := plainSigning.code_injective _ (Option.some.inj presented)
    rw [← isMessage]
    exact List.mem_cons_of_mem _ (List.mem_cons_of_mem _ List.mem_cons_self)

/-- The answer that is returned for version 1.4.0 was computed for a request
with its timestamp. -/
theorem responses_bound_crossed :
    ∃ handling ∈ (run (step plainSigning preflightLibrary sharedDeployment) initial
        crossedActions).handlings,
      ∃ call ∈ (run (step plainSigning preflightLibrary sharedDeployment) initial
          crossedActions).calls,
        Carries handling.request call ∧
        CarriesTime handling.request (preflightCall "1.4.0") ∧
        SameSecond call (preflightCall "1.4.0") := by
  have member : crossedReturn ∈ (run (step plainSigning preflightLibrary sharedDeployment) initial
      crossedActions).returns := by
    rw [run_crossed]
    exact List.mem_cons_self
  obtain ⟨handling, isHandling, call, isCall, carries, carriesTime, sameSecond, -, -⟩ :=
    responses_bound crossed_cannotSign crossedReturn member eligibleAnswer rfl
  exact ⟨handling, isHandling, call, isCall, carries, carriesTime, sameSecond⟩

/-- A preflight of one version is returned for a preflight of another version
in the same second. -/
theorem responses_not_always_bound :
    ¬ ∀ (signing : Signing) (library : Library) (deployment : Deployment) (actions : List Action),
      EveryStep (step signing library deployment) (CannotSign signing library deployment) initial
        actions →
      ∀ returned ∈ (run (step signing library deployment) initial actions).returns,
        ∀ decoded, returned.result = .ok decoded →
          ∃ handling ∈ (run (step signing library deployment) initial actions).handlings,
            Carries handling.request returned.call ∧
            Computed signing library deployment handling returned.call.request.stream
              returned.exchange decoded := by
  intro always
  have member : crossedReturn ∈ (run (step plainSigning preflightLibrary sharedDeployment) initial
      crossedActions).returns := by
    rw [run_crossed]
    exact List.mem_cons_self
  obtain ⟨handling, isHandling, carries, -⟩ := always plainSigning preflightLibrary
    sharedDeployment crossedActions crossed_cannotSign crossedReturn member eligibleAnswer rfl
  rw [run_crossed] at isHandling
  rw [List.mem_singleton.mp isHandling] at carries
  have sameBody : preflightBody "1.3.0" = preflightBody "1.4.0" := Except.ok.inj carries.body
  exact absurd (congrArg ByteArray.data sameBody) (by decide +kernel)

end Channel

end BubllioCrm.Onboarding
