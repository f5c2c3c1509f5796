import BubllioCrm.UpdateAgent.Auth

/-!
Owns `api.py`: the body of a request, the order of the checks before an
endpoint is reached, the answers of the endpoints and of errors, and the signed
responses.

Does not own the service: what it gives for a request is an oracle. Requests of
other methods than GET and POST have no handler and get no signed response.
-/

namespace BubllioCrm.UpdateAgent

open BubllioCrm.Foundations

def maxBodyBytes : Int := 64 * 1024

/-- The fields of a `dict` that is sent. -/
abbrev Payload := List (String × Json)

/-- The configuration that the handler reads. -/
structure ApiConfig where
  installationId : String
  sharedSecret : ByteArray
  requestMaxAgeSeconds : Int

/-- What the service gives at the moment of a request. -/
structure ServiceOracle where
  status : Except Raised Payload
  preflight : Document → Except Raised Payload
  start : Document → Document → Except Raised (Payload × Bool)
  getJob : String → Except Raised (Option Payload)

structure HttpResponse where
  status : Int
  signature : String
  body : ByteArray

def requestError {Value : Type} (message : String) : Except Raised Value :=
  .error (.agentError .requestValidation message)

def requireRequest (condition : Bool) (message : String) : Except Raised Unit :=
  if condition then .ok () else requestError message

/-- `_body`. -/
def readBody (request : HttpRequest) : Except Raised ByteArray :=
  match parseInt (request.headers.contentLength.getD "0") with
  | none => requestError "Content-Length is invalid"
  | some size =>
      if size < 0 ∨ maxBodyBytes < size then requestError "Request body is too large"
      else .ok (request.stream.extract 0 size.toNat)

/-- The body that is authenticated. -/
def requestBody (request : HttpRequest) : Except Raised ByteArray :=
  if request.method = "POST" then readBody request else .ok ByteArray.empty

def errorPayload (code message : String) : Payload :=
  [("error", .obj [("code", .str code), ("message", .str message)])]

def notFound (message : String) : Int × Payload :=
  (404, errorPayload "not_found" message)

section
variable (signing : Signing) (library : Library) (config : ApiConfig)

/-- `_json`. -/
def readJson (body : ByteArray) (expectedKeys : List String) : Except Raised Fields :=
  match library.loads body with
  | .raised => .error .otherException
  | .invalid => requestError "Request body is not valid JSON"
  | .decoded (.obj fields) => do
      requireRequest (Document.hasKeys expectedKeys fields)
        "Request fields do not match the endpoint schema"
      return fields
  | .decoded _ => requestError "Request fields do not match the endpoint schema"

def updatesPrefix : String := "/v1/updates/"

/-- The endpoints of `_dispatch`, after the authentication. -/
def endpoint (service : ServiceOracle) (method path : String) (body : ByteArray) :
    Except Raised (Int × Payload) :=
  if method = "GET" ∧ path = "/v1/status" then do
    let payload ← service.status
    return (200, payload)
  else if method = "POST" ∧ path = "/v1/preflight" then do
    let fields ← readJson library body ["target_version"]
    let payload ← service.preflight (Document.get "target_version" fields)
    return (200, payload)
  else if method = "POST" ∧ path = "/v1/updates" then do
    let fields ← readJson library body ["target_version", "idempotency_key"]
    let (payload, created) ← service.start (Document.get "target_version" fields)
      (Document.get "idempotency_key" fields)
    return (if created then 202 else 200, payload)
  else if method = "GET" ∧ updatesPrefix.toList <+: path.toList then do
    let job ← service.getJob (String.ofList (path.toList.drop updatesPrefix.toList.length))
    return match job with
      | none => notFound "Update not found."
      | some payload => (200, payload)
  else return notFound "Endpoint not found."

def dispatch (service : ServiceOracle) (request : HttpRequest) (now : Int) :
    Except Raised (Int × Payload) :=
  match library.urlsplit request.path with
  | none => .error .otherException
  | some parsed => do
      requireRequest (parsed.query.isEmpty && parsed.fragment.isEmpty)
        "Query parameters are not supported"
      let body ← requestBody request
      authenticateRequest signing library config.sharedSecret request.method request.path
        request.headers config.installationId body config.requestMaxAgeSeconds now
      endpoint library service request.method parsed.path body

/-- What the handler makes of an exception. A `BaseException` is not caught. -/
def errorAnswer (raised : Raised) : Option (Int × Payload) :=
  match raised with
  | .agentError errorClass _ =>
      let status := match errorClass with
        | .authentication => 401
        | .updateConflict => 409
        | .requestValidation => 400
        | .manifestVerification => 400
        | .agent => 503
        | .configuration => 503
        | .adapter => 503
      some (status, errorPayload errorClass.code errorClass.publicMessage)
  | .otherException =>
      some (500, errorPayload "unexpected_failure"
        "The update agent encountered an unexpected failure.")
  | .baseException => none

/-- `_send`, where `none` is a `ValueError` of `json.dumps`. -/
def send (request : HttpRequest) (answer : Int × Payload) : Option HttpResponse := do
  let text ← Json.dumps (.obj (Json.set "installation_id" (.str config.installationId) answer.2))
  return {
    status := answer.1
    signature := signResponse signing config.sharedSecret answer.1 request.path
      (request.headers.timestamp.getD "") config.installationId text.toByteArray
    body := text.toByteArray }

/-- The responses that `_handle` signs. Where writing the first one fails, the
handler of exceptions signs another. -/
def handle (service : ServiceOracle) (request : HttpRequest) (now : Int) (writeFails : Bool) :
    List HttpResponse :=
  let failure (raised : Raised) := ((errorAnswer raised).bind (send signing config request)).toList
  match dispatch signing library config service request now with
  | .error raised => failure raised
  | .ok answer =>
      match send signing config request answer with
      | none => failure .otherException
      | some response => response :: if writeFails then failure .otherException else []

end

/-! ### What a response says -/

variable {signing : Signing} {library : Library} {config : ApiConfig}

theorem send_eq_some {request : HttpRequest} {answer : Int × Payload} {response : HttpResponse}
    (sent : send signing config request answer = some response) :
    response.status = answer.1 ∧
      response.signature = signResponse signing config.sharedSecret response.status request.path
        (request.headers.timestamp.getD "") config.installationId response.body := by
  simp only [send, Option.bind_eq_bind, Option.bind_eq_some_iff, Option.pure_def,
    Option.some.injEq] at sent
  obtain ⟨text, -, rfl⟩ := sent
  exact ⟨rfl, rfl⟩

/-- An endpoint is reached by authenticated requests only. -/
theorem dispatch_ok {service : ServiceOracle} {request : HttpRequest} {now : Int}
    {answer : Int × Payload}
    (dispatched : dispatch signing library config service request now = .ok answer) :
    ∃ body, requestBody request = .ok body ∧
      authenticateRequest signing library config.sharedSecret request.method request.path
        request.headers config.installationId body config.requestMaxAgeSeconds now = .ok () := by
  unfold dispatch at dispatched
  cases split : library.urlsplit request.path with
  | none =>
      rw [split] at dispatched
      cases dispatched
  | some parsed =>
      simp only [split, bind_eq_ok] at dispatched
      obtain ⟨-, -, body, isBody, ⟨⟩, authenticated, -⟩ := dispatched
      exact ⟨body, isBody, authenticated⟩

/-- An authenticated request without a query gets what its endpoint gives. -/
theorem dispatch_authenticated {service : ServiceOracle} {request : HttpRequest} {now : Int}
    {parsed : SplitTarget} {body : ByteArray}
    (split : library.urlsplit request.path = some parsed)
    (plain : (parsed.query.isEmpty && parsed.fragment.isEmpty) = true)
    (isBody : requestBody request = .ok body)
    (authenticated : authenticateRequest signing library config.sharedSecret request.method
      request.path request.headers config.installationId body config.requestMaxAgeSeconds now =
        .ok ()) :
    dispatch signing library config service request now =
      endpoint library service request.method parsed.path body := by
  simp only [dispatch, split, plain, isBody, authenticated, requireRequest, if_true, bind,
    Except.bind]

theorem errorAnswer_status {raised : Raised} {answer : Int × Payload}
    (isError : errorAnswer raised = some answer) : 400 ≤ answer.1 := by
  unfold errorAnswer at isError
  cases raised with
  | agentError errorClass message =>
      injection isError with isAnswer
      rw [← isAnswer]
      cases errorClass <;> decide
  | otherException =>
      injection isError with isAnswer
      rw [← isAnswer]
      decide
  | baseException => cases isError

theorem failure_status {request : HttpRequest} {raised : Raised} {response : HttpResponse}
    (member : response ∈ ((errorAnswer raised).bind (send signing config request)).toList) :
    400 ≤ response.status := by
  rw [Option.mem_toList, Option.bind_eq_some_iff] at member
  obtain ⟨answer, isError, sent⟩ := member
  rw [(send_eq_some sent).1]
  exact errorAnswer_status isError

/-- Every signed response carries the path and the timestamp of its request. -/
theorem handle_signature {service : ServiceOracle} {request : HttpRequest} {now : Int}
    {writeFails : Bool} {response : HttpResponse}
    (member : response ∈ handle signing library config service request now writeFails) :
    response.signature = signResponse signing config.sharedSecret response.status request.path
      (request.headers.timestamp.getD "") config.installationId response.body := by
  have failed : ∀ raised, response ∈
      ((errorAnswer raised).bind (send signing config request)).toList →
        response.signature = signResponse signing config.sharedSecret response.status request.path
          (request.headers.timestamp.getD "") config.installationId response.body := by
    intro raised isFailure
    rw [Option.mem_toList, Option.bind_eq_some_iff] at isFailure
    obtain ⟨answer, -, sent⟩ := isFailure
    exact (send_eq_some sent).2
  unfold handle at member
  cases dispatched : dispatch signing library config service request now with
  | error raised =>
      simp only [dispatched] at member
      exact failed raised member
  | ok answer =>
      simp only [dispatched] at member
      cases sent : send signing config request answer with
      | none =>
          simp only [sent] at member
          exact failed .otherException member
      | some first =>
          simp only [sent] at member
          rcases List.mem_cons.mp member with rfl | later
          · exact (send_eq_some sent).2
          · cases writeFails with
            | true => exact failed .otherException later
            | false => cases later

theorem handle_answered {service : ServiceOracle} {request : HttpRequest} {now : Int}
    {answer : Int × Payload} {response : HttpResponse}
    (dispatched : dispatch signing library config service request now = .ok answer)
    (sent : send signing config request answer = some response) :
    handle signing library config service request now false = [response] := by
  simp only [handle, dispatched, sent, Bool.false_eq_true, if_false]

/-- A response that reports success is the answer of an endpoint. -/
theorem handle_success {service : ServiceOracle} {request : HttpRequest} {now : Int}
    {writeFails : Bool} {response : HttpResponse}
    (member : response ∈ handle signing library config service request now writeFails)
    (success : response.status < 300) :
    ∃ answer, dispatch signing library config service request now = .ok answer ∧
      send signing config request answer = some response := by
  have notFailure : ∀ raised, response ∉
      ((errorAnswer raised).bind (send signing config request)).toList := by
    intro raised isFailure
    have status := failure_status isFailure
    omega
  unfold handle at member
  cases dispatched : dispatch signing library config service request now with
  | error raised =>
      simp only [dispatched] at member
      exact absurd member (notFailure raised)
  | ok answer =>
      simp only [dispatched] at member
      cases sent : send signing config request answer with
      | none =>
          simp only [sent] at member
          exact absurd member (notFailure .otherException)
      | some first =>
          simp only [sent] at member
          rcases List.mem_cons.mp member with rfl | later
          · exact ⟨answer, rfl, sent⟩
          · cases writeFails with
            | true => exact absurd later (notFailure .otherException)
            | false => cases later

end BubllioCrm.UpdateAgent
