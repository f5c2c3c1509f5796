import BubllioCrm.Foundations.Digits
import BubllioCrm.Foundations.Fallible
import BubllioCrm.Foundations.Library
import BubllioCrm.UpdateAgent.Release

/-!
Owns `auth.py`: the signatures of requests and of responses, and the
authentication of a request.

The digest and the code are idealised; text is signed as its UTF-8 bytes.
-/

namespace BubllioCrm.UpdateAgent

open BubllioCrm.Foundations

/-- The headers that the agent reads. -/
structure RequestHeaders where
  timestamp : Option String
  signature : Option String
  installationId : Option String
  contentLength : Option String

/-- A request as the agent's server receives it. -/
structure HttpRequest where
  method : String
  path : String
  headers : RequestHeaders
  /-- What follows the headers. -/
  stream : ByteArray

/-- `hmac.compare_digest` of texts, which raises a `TypeError` for others than ASCII. -/
def compareDigest (left right : String) : Except Raised Bool :=
  if isAscii left && isAscii right then .ok (left = right) else .error .otherException

def authenticationError {Value : Type} (message : String) : Except Raised Value :=
  .error (.agentError .authentication message)

section
variable (signing : Signing) (library : Library) (secret : ByteArray)

def signaturePayload (method path timestamp installationId : String) (body : ByteArray) :
    ByteArray :=
  (fiveLines (library.upper method) path timestamp installationId
    (signing.digest body)).toByteArray

def signRequest (method path timestamp installationId : String) (body : ByteArray) : String :=
  signing.code secret (signaturePayload signing library method path timestamp installationId body)

def responsePayload (status : Int) (path requestTimestamp installationId : String)
    (body : ByteArray) : ByteArray :=
  (fiveLines (toString status) path requestTimestamp installationId
    (signing.digest body)).toByteArray

def signResponse (status : Int) (path requestTimestamp installationId : String)
    (body : ByteArray) : String :=
  signing.code secret (responsePayload signing status path requestTimestamp installationId body)

/-- `int(timestamp or "")`. -/
def requestTime (timestamp : Option String) : Except Raised Int :=
  match parseInt (timestamp.getD "") with
  | some time => .ok time
  | none => authenticationError "Timestamp is invalid"

def requireWindow (currentTime requestTime maxAgeSeconds : Int) : Except Raised Unit :=
  if ((currentTime - requestTime).natAbs : Int) > maxAgeSeconds then
    authenticationError "Timestamp is outside the allowed window"
  else .ok ()

/-- A header that has to be there and to be the expected text. -/
def requireDigest (expected : String) (presented : Option String) (message : String) :
    Except Raised Unit :=
  match presented with
  | none => authenticationError message
  | some text => do
      let same ← compareDigest expected text
      if same then .ok () else authenticationError message

def authenticateRequest (method path : String) (headers : RequestHeaders)
    (expectedInstallationId : String) (body : ByteArray) (maxAgeSeconds now : Int) :
    Except Raised Unit := do
  let time ← requestTime headers.timestamp
  requireWindow now time maxAgeSeconds
  requireDigest expectedInstallationId headers.installationId "Installation identity is invalid"
  let expected := signRequest signing library secret method path (toString time)
    expectedInstallationId body
  requireDigest expected headers.signature "Signature is invalid"

end

/-! ### What an accepted request presents -/

theorem requestTime_ok {timestamp : Option String} {time : Int} :
    requestTime timestamp = .ok time ↔ parseInt (timestamp.getD "") = some time := by
  unfold requestTime
  cases parseInt (timestamp.getD "") with
  | none => simp [authenticationError]
  | some parsed => simp

theorem requireWindow_ok {currentTime time maxAgeSeconds : Int} {result : Unit} :
    requireWindow currentTime time maxAgeSeconds = .ok result ↔
      ((currentTime - time).natAbs : Int) ≤ maxAgeSeconds := by
  unfold requireWindow authenticationError
  rw [guard_eq_ok, not_lt]
  simp

theorem requireDigest_ok {expected message : String} {presented : Option String} {result : Unit} :
    requireDigest expected presented message = .ok result ↔
      presented = some expected ∧ isAscii expected = true := by
  unfold requireDigest compareDigest authenticationError
  cases presented with
  | none => simp
  | some text =>
      by_cases ascii : (isAscii expected && isAscii text) = true
      · by_cases same : expected = text
        · subst same
          have isExpected : isAscii expected = true := (Bool.and_eq_true_iff.mp ascii).1
          simp [isExpected, bind, Except.bind]
        · simp [ascii, same, bind, Except.bind, Ne.symm (Ne.intro same)]
      · constructor
        · simp [ascii, bind, Except.bind]
        · rintro ⟨isText, isExpected⟩
          injection isText with isText
          rw [isText] at ascii
          simp [isExpected] at ascii

/-- What authentication establishes, with the time that the header denotes. -/
structure Authenticated (signing : Signing) (library : Library) (secret : ByteArray)
    (method path : String) (headers : RequestHeaders) (expectedInstallationId : String)
    (body : ByteArray) (maxAgeSeconds now time : Int) : Prop where
  parsed : parseInt (headers.timestamp.getD "") = some time
  window : ((now - time).natAbs : Int) ≤ maxAgeSeconds
  installationId : headers.installationId = some expectedInstallationId
  signature : headers.signature = some (signRequest signing library secret method path
    (toString time) expectedInstallationId body)

theorem authenticateRequest_ok {signing : Signing} {library : Library} {secret : ByteArray}
    {method path : String} {headers : RequestHeaders} {expectedInstallationId : String}
    {body : ByteArray} {maxAgeSeconds now : Int} {result : Unit} :
    authenticateRequest signing library secret method path headers expectedInstallationId body
        maxAgeSeconds now = .ok result ↔
      isAscii expectedInstallationId = true ∧
        ∃ time, Authenticated signing library secret method path headers expectedInstallationId
          body maxAgeSeconds now time := by
  simp only [authenticateRequest, bind_eq_ok, requestTime_ok, requireWindow_ok, requireDigest_ok]
  constructor
  · rintro ⟨time, isTime, -, window, -, installation, signature⟩
    exact ⟨installation.2, time, isTime, window, installation.1, signature.1⟩
  · rintro ⟨ascii, time, accepted⟩
    exact ⟨time, accepted.parsed, (), accepted.window, (), ⟨accepted.installationId, ascii⟩,
      accepted.signature, signing.code_ascii _ _⟩

end BubllioCrm.UpdateAgent
