import BubllioCrm.Foundations.Patterns
import BubllioCrm.UpdateAgent.Auth
import Mathlib.Algebra.Order.Ring.Nat

/-!
Owns `services/update_agent.py`: the signed requests of the CRM to the update
agent and the checks of an answer.

Does not own the transport: what connecting, sending and receiving come to is
an exchange, whose failures the client reports as unavailable.
-/

namespace BubllioCrm.Onboarding

open BubllioCrm.Foundations
open BubllioCrm.UpdateAgent (HttpRequest RequestHeaders)

def maxResponseBytes : Nat := 262144

/-- `AGENT_JOB_ID_PATTERN`. -/
def isAgentJobId (text : String) : Bool :=
  matchesHeadTail Char.isAlphanum (fun char => char.isAlphanum || char ∈ ['.', '_', '-']) text &&
    text.toList.length ≤ 128

/-- What a call of the client raises. -/
inductive ClientError where
  /-- `UpdateAgentUnavailable`. -/
  | unavailable
  /-- `UpdateAgentRejected`. -/
  | rejected
  /-- An exception that is no `UpdateAgentError`. -/
  | raised
deriving DecidableEq

structure AgentSettings where
  enabled : Bool
  socket : String
  url : String
  installationId : String
  secret : String

namespace AgentSettings

def secretBytes (settings : AgentSettings) : ByteArray :=
  settings.secret.toByteArray

/-- `_installation_id`, where `none` is unavailable. -/
def canonicalInstallationId (settings : AgentSettings) : Option String :=
  let configured := strip settings.installationId
  if isCanonicalUuid configured then some configured else none

/-- `agent_is_configured`. -/
def isConfigured (settings : AgentSettings) : Bool :=
  settings.enabled && (!settings.socket.isEmpty || !settings.url.isEmpty) &&
    !settings.installationId.isEmpty && 32 ≤ settings.secretBytes.size &&
    settings.canonicalInstallationId.isSome

end AgentSettings

/-- The digits before the point of a float. -/
def maxFloatDigits : Nat := 309

/-- A reading of `time.time()` in whole seconds. -/
structure ClockReading where
  seconds : Int
  bounded : seconds.natAbs < 10 ^ maxFloatDigits

/-- The arguments of `_request`. -/
structure CallArguments where
  method : String
  path : String
  payload : Option Json

namespace CallArguments

/-- The bytes of the payload, where `none` is a `ValueError` of `json.dumps`. -/
def body (arguments : CallArguments) : Option ByteArray :=
  match arguments.payload with
  | none => some ByteArray.empty
  | some payload => (Json.dumps payload).map String.toByteArray

def contentLength (library : Library) (arguments : CallArguments) (body : ByteArray) :
    Option String :=
  if arguments.payload.isSome || library.upper arguments.method ∈ ["PATCH", "POST", "PUT"] then
    some (toString body.size)
  else none

end CallArguments

section
variable (signing : Signing) (library : Library) (settings : AgentSettings)

def signingInput (method path timestamp installationId : String) (body : ByteArray) : ByteArray :=
  (fiveLines method path timestamp installationId (signing.digest body)).toByteArray

/-- The first half of `_request`: what is sent. -/
def buildRequest (arguments : CallArguments) (clock : ClockReading) :
    Except ClientError HttpRequest :=
  if settings.isConfigured then
    match arguments.body, settings.canonicalInstallationId with
    | none, _ => .error .raised
    | some _, none => .error .unavailable
    | some body, some installationId =>
        let timestamp := toString clock.seconds
        .ok {
          method := arguments.method
          path := arguments.path
          headers := {
            timestamp := some timestamp
            signature := some (signing.code settings.secretBytes
              (signingInput signing arguments.method arguments.path timestamp installationId body))
            installationId := some installationId
            contentLength := arguments.contentLength library body }
          stream := body }
  else .error .unavailable

/-- What the transport gives back. -/
inductive Exchange where
  /-- An `HTTPException`, an `OSError` or another failure that is caught. -/
  | failed
  /-- The status, the signature header and what was read of the body. -/
  | response (status : Int) (signature : Option String) (raw : ByteArray)

/-- The second half of `_request`: what is made of the answer to a request that
was sent with a timestamp. -/
def readAnswer (path timestamp installationId : String) (exchange : Exchange) :
    Except ClientError Fields :=
  match exchange with
  | .failed => .error .unavailable
  | .response status signature raw =>
      let expected := signing.code settings.secretBytes
        (signingInput signing (toString status) path timestamp installationId raw)
      if maxResponseBytes < raw.size then .error .unavailable
      else if 300 ≤ status ∧ status < 400 then .error .unavailable
      else
        match signature with
        | none => .error .rejected
        | some signature =>
            if !isAscii signature then .error .raised
            else if expected ≠ signature then .error .rejected
            else
              match library.loads raw with
              | .invalid => .error .unavailable
              | .raised => .error .raised
              | .decoded (.obj decoded) =>
                  if !Document.isText installationId (Document.get "installation_id" decoded) then
                    .error .rejected
                  else if 200 ≤ status ∧ status < 300 then .ok decoded
                  else if 400 ≤ status ∧ status < 500 then .error .rejected
                  else .error .unavailable
              | .decoded _ => .error .unavailable

/-- `_request` over a transport. -/
def request (arguments : CallArguments) (clock : ClockReading)
    (transport : HttpRequest → Exchange) : Except ClientError Fields := do
  let sent ← buildRequest signing library settings arguments clock
  readAnswer signing library settings arguments.path (toString clock.seconds)
    (strip settings.installationId) (transport sent)

end

/-! ### The calls -/

inductive AgentCall where
  | getAgentStatus
  | requestPreflight (targetVersion : String)
  | startAgentUpdate (targetVersion idempotencyKey : String)
  | getAgentUpdate (agentJobId : String)
deriving DecidableEq

/-- The arguments a call passes on, where `none` is unavailable. -/
def AgentCall.arguments : AgentCall → Option CallArguments
  | .getAgentStatus => some { method := "GET", path := "/v1/status", payload := none }
  | .requestPreflight targetVersion =>
      some {
        method := "POST"
        path := "/v1/preflight"
        payload := some (.obj [("target_version", .str targetVersion)]) }
  | .startAgentUpdate targetVersion idempotencyKey =>
      some {
        method := "POST"
        path := "/v1/updates"
        payload := some (.obj [("idempotency_key", .str idempotencyKey),
          ("target_version", .str targetVersion)]) }
  | .getAgentUpdate agentJobId =>
      if isAgentJobId agentJobId then
        some { method := "GET", path := "/v1/updates/" ++ agentJobId, payload := none }
      else none

end BubllioCrm.Onboarding
