import BubllioCrm.Onboarding.AgentClient

/-!
Owns the agreement of the two sides on signed requests: a request that the CRM
builds is accepted, and an accepted request is one that a holder of the secret
signed.

A method is upper-cased by the agent alone, and the first line of a signed
response is a decimal number, so both results are about the methods for which
neither matters.
-/

namespace BubllioCrm.Onboarding

open BubllioCrm.Foundations
open BubllioCrm.UpdateAgent

/-! ### What is signed -/

/-- Who made a signature, with the part that the first line depends on. -/
inductive Purpose where
  /-- `_request` of the CRM. -/
  | clientRequest (method : String)
  /-- `sign_request` of the agent. -/
  | signRequest (method : String)
  | signResponse (status : Int)

/-- A signature that a holder of the secret made. -/
structure Signed where
  purpose : Purpose
  path : String
  timestamp : String
  installationId : String
  body : ByteArray

namespace Signed

def firstLine (library : Library) (signed : Signed) : String :=
  match signed.purpose with
  | .clientRequest method => method
  | .signRequest method => library.upper method
  | .signResponse status => toString status

def IsRequest (signed : Signed) : Prop :=
  ∀ status, signed.purpose ≠ .signResponse status

/-- The bytes the code is computed for. -/
def message (signing : Signing) (library : Library) (signed : Signed) : ByteArray :=
  (fiveLines (signed.firstLine library) signed.path signed.timestamp signed.installationId
    (signing.digest signed.body)).toByteArray

/-- The parts in which a line break is excluded. -/
structure Lines (signed : Signed) : Prop where
  method : ∀ method, signed.purpose = .clientRequest method ∨ signed.purpose = .signRequest method →
    IsLine method
  path : IsLine signed.path
  installationId : IsLine signed.installationId

/-- The signature is of a request with these parts and a canonical time. -/
structure Signs (library : Library) (signed : Signed) (method path installationId : String)
    (body : ByteArray) (time : Int) : Prop where
  method : signed.firstLine library = library.upper method
  path : signed.path = path
  timestamp : signed.timestamp = toString time
  installationId : signed.installationId = installationId
  body : signed.body = body

theorem isLine_toString (number : Int) : IsLine (toString number) := by
  intro member
  rcases mem_toString member with sign | digit
  · cases sign
  · exact absurd digit (by decide)

theorem firstLine_line {library : Library} {signed : Signed} (lines : signed.Lines) :
    IsLine (signed.firstLine library) := by
  unfold firstLine
  cases isPurpose : signed.purpose with
  | clientRequest method => exact lines.method method (Or.inl isPurpose)
  | signRequest method => exact library.upper_line _ (lines.method method (Or.inr isPurpose))
  | signResponse status => exact isLine_toString status

end Signed

/-! ### Requests of the CRM -/

theorem buildRequest_ok {signing : Signing} {library : Library} {settings : AgentSettings}
    {arguments : CallArguments} {clock : ClockReading} {request : HttpRequest}
    (built : buildRequest signing library settings arguments clock = .ok request) :
    settings.canonicalInstallationId = some (strip settings.installationId) ∧
      arguments.body = some request.stream ∧
      request.method = arguments.method ∧ request.path = arguments.path ∧
      request.headers.timestamp = some (toString clock.seconds) ∧
      request.headers.installationId = some (strip settings.installationId) ∧
      request.headers.signature = some (signing.code settings.secretBytes
        (signingInput signing arguments.method arguments.path (toString clock.seconds)
          (strip settings.installationId) request.stream)) := by
  unfold buildRequest at built
  split_ifs at built
  cases isBody : arguments.body with
  | none => simp [isBody] at built
  | some body =>
      have isId : ∀ installationId, settings.canonicalInstallationId = some installationId →
          installationId = strip settings.installationId := by
        intro installationId isSome
        simp only [AgentSettings.canonicalInstallationId] at isSome
        split_ifs at isSome
        exact (Option.some.inj isSome).symm
      cases isInstallation : settings.canonicalInstallationId with
      | none => simp [isBody, isInstallation] at built
      | some installationId =>
          have canonical := isId installationId isInstallation
          subst canonical
          simp only [isBody, isInstallation] at built
          injection built with isRequest
          subst isRequest
          exact ⟨rfl, rfl, rfl, rfl, rfl, rfl, rfl⟩

theorem isAscii_of_isCanonicalUuid {text : String} (canonical : isCanonicalUuid text = true) :
    isAscii text = true := by
  rw [isAscii, List.all_eq_true]
  intro char member
  rw [decide_eq_true_eq]
  rcases mem_of_isCanonicalUuid canonical member with rfl | hex
  · decide
  · exact isLowerHex_ascii hex

theorem isLine_of_isCanonicalUuid {text : String} (canonical : isCanonicalUuid text = true) :
    IsLine text := by
  intro member
  rcases mem_of_isCanonicalUuid canonical member with isHyphen | hex
  · cases isHyphen
  · exact absurd hex (by decide)

/-- The text of a clock reading is short enough to be read back. -/
theorem ClockReading.parseInt_seconds (clock : ClockReading) :
    parseInt (toString clock.seconds) = some clock.seconds :=
  parseInt_toString (lt_of_lt_of_le clock.bounded (Nat.pow_le_pow_right (by decide) (by decide)))

/-- What the agent is configured with agrees with the settings of the CRM. -/
theorem canonical_strip {settings : AgentSettings}
    (canonical : settings.canonicalInstallationId = some (strip settings.installationId)) :
    isCanonicalUuid (strip settings.installationId) = true := by
  simp only [AgentSettings.canonicalInstallationId] at canonical
  split_ifs at canonical with isCanonical
  exact isCanonical

theorem buildRequest_authenticated {signing : Signing} {library : Library}
    {settings : AgentSettings} {arguments : CallArguments} {clock : ClockReading}
    {request : HttpRequest} {maxAgeSeconds now : Int}
    (built : buildRequest signing library settings arguments clock = .ok request)
    (upperCase : library.upper arguments.method = arguments.method)
    (window : ((now - clock.seconds).natAbs : Int) ≤ maxAgeSeconds) :
    authenticateRequest signing library settings.secretBytes request.method request.path
      request.headers (strip settings.installationId) request.stream maxAgeSeconds now = .ok () := by
  obtain ⟨canonical, -, method, path, timestamp, installationId, signature⟩ := buildRequest_ok built
  have ascii := isAscii_of_isCanonicalUuid (canonical_strip canonical)
  apply authenticateRequest_ok.mpr
  refine ⟨ascii, clock.seconds, ?_, window, installationId, ?_⟩
  · rw [timestamp]
    exact clock.parseInt_seconds
  · rw [signature, method, path, signRequest, signaturePayload, upperCase]
    rfl

/-! ### Accepted requests -/

/-- An accepted request was signed with its upper-cased method, its path and
body, and the canonical text of its time. -/
theorem accepted_signed {signing : Signing} {library : Library} {secret : ByteArray}
    {log : List Signed} {method path installationId : String} {headers : RequestHeaders}
    {body : ByteArray} {maxAgeSeconds now time : Int}
    (logLines : ∀ signed ∈ log, signed.Lines)
    (lines : IsLine method ∧ IsLine path ∧ IsLine installationId)
    (unforged : signing.Unforged secret (log.map (Signed.message signing library))
      headers.signature)
    (accepted : Authenticated signing library secret method path headers installationId body
      maxAgeSeconds now time) :
    ∃ signed ∈ log, signed.Signs library method path installationId body time := by
  have inLog := unforged _ accepted.signature
  obtain ⟨signed, member, same⟩ := List.mem_map.mp inLog
  have signedLines := logLines signed member
  have parts := Signing.message_injective
    ⟨Signed.firstLine_line signedLines, signedLines.path, signedLines.installationId⟩
    ⟨library.upper_line method lines.1, lines.2.1, lines.2.2⟩ same
  exact ⟨signed, member, {
    method := parts.1
    path := parts.2.1
    timestamp := parts.2.2.1
    installationId := parts.2.2.2.1
    body := parts.2.2.2.2 }⟩

/-- A signature whose first line is no number is of a request. -/
theorem isRequest_of_signs {library : Library} {signed : Signed}
    {method path installationId : String} {body : ByteArray} {time : Int}
    (signs : signed.Signs library method path installationId body time)
    (notNumber : ∀ status : Int, library.upper method ≠ toString status) : signed.IsRequest := by
  intro status isResponse
  have first := signs.method
  rw [Signed.firstLine, isResponse] at first
  exact notNumber status first.symm

/-! ### The two sides -/

/-- A request of the CRM with an upper-case method is accepted in the window.
An accepted request was signed as such, unless its method is a number; and the
signature of a response is accepted for no method but the number of its status. -/
theorem signed_requests_agree (signing : Signing) (library : Library) :
    (∀ (settings : AgentSettings) (arguments : CallArguments) (clock : ClockReading)
      (request : HttpRequest) (maxAgeSeconds now : Int),
      buildRequest signing library settings arguments clock = .ok request →
      library.upper arguments.method = arguments.method →
      ((now - clock.seconds).natAbs : Int) ≤ maxAgeSeconds →
      authenticateRequest signing library settings.secretBytes request.method request.path
        request.headers (strip settings.installationId) request.stream maxAgeSeconds now =
          .ok ()) ∧
    ∀ (secret : ByteArray) (method path installationId : String) (headers : RequestHeaders)
      (body : ByteArray) (maxAgeSeconds now : Int),
      IsLine method ∧ IsLine path ∧ IsLine installationId →
      authenticateRequest signing library secret method path headers installationId body
        maxAgeSeconds now = .ok () →
      (∀ log : List Signed, (∀ signed ∈ log, signed.Lines) →
        signing.Unforged secret (log.map (Signed.message signing library)) headers.signature →
        ∃ signed ∈ log, ∃ time, parseInt (headers.timestamp.getD "") = some time ∧
          signed.Signs library method path installationId body time ∧
          ((∀ status : Int, library.upper method ≠ toString status) → signed.IsRequest)) ∧
      ∀ (status : Int) (responsePath timestamp responseId : String) (responseBody : ByteArray),
        IsLine responsePath ∧ IsLine responseId → library.upper method ≠ toString status →
        headers.signature ≠ some (signResponse signing secret status responsePath timestamp
          responseId responseBody) := by
  constructor
  · intro settings arguments clock request maxAgeSeconds now built upperCase window
    exact buildRequest_authenticated built upperCase window
  · intro secret method path installationId headers body maxAgeSeconds now lines isOk
    obtain ⟨-, time, accepted⟩ := authenticateRequest_ok.mp isOk
    constructor
    · intro log logLines unforged
      obtain ⟨signed, member, signs⟩ := accepted_signed logLines lines unforged accepted
      exact ⟨signed, member, time, accepted.parsed, signs, isRequest_of_signs signs⟩
    · intro status responsePath timestamp responseId responseBody responseLines notStatus same
      rw [accepted.signature] at same
      have parts := Signing.signLines_injective
        ⟨library.upper_line method lines.1, lines.2.1, lines.2.2⟩
        ⟨Signed.isLine_toString status, responseLines.1, responseLines.2⟩ (Option.some.inj same)
      exact notStatus parts.1

/-! ### Methods for which the sides differ -/

def asciiUpper (text : String) : String :=
  String.ofList (text.toList.map Char.toUpper)

theorem toUpper_eq_newline {char : Char} (same : char.toUpper = '\n') : char = '\n' := by
  unfold Char.toUpper at same
  split at same
  next range =>
      simp only [UInt32.le_iff_toNat_le] at range
      have values := congrArg (fun upper => upper.val.toNat) same
      simp at values range
      omega
  next => exact same

theorem toUpper_of_isUpper {char : Char} (capital : char.isUpper = true) : char.toUpper = char := by
  have range := isUpper_range capital
  unfold Char.toUpper
  rw [dif_neg]
  rintro ⟨small, -⟩
  have atLeast : 97 ≤ char.toNat := UInt32.le_iff_toNat_le.mp small
  omega

/-- A library that upper-cases ASCII and decodes nothing. -/
def asciiLibrary : Library where
  upper := asciiUpper
  loads := fun _ => .invalid
  urlsplit := fun target => some { path := target, query := "", fragment := "" }
  upper_line := by
    intro text line member
    rw [asciiUpper, String.toList_ofList] at member
    obtain ⟨char, isChar, isBreak⟩ := List.mem_map.mp member
    exact line (toUpper_eq_newline isBreak ▸ isChar)
  upper_capitals := by
    intro text capitals
    have unchanged : text.toList.map Char.toUpper = text.toList.map id :=
      List.map_congr_left fun char member =>
        toUpper_of_isUpper (List.all_eq_true.mp capitals char member)
    rw [asciiUpper, unchanged, List.map_id, String.ofList_toList]

def sharedSettings : AgentSettings where
  enabled := true
  socket := "/run/bubllio-update-agent/agent.sock"
  url := ""
  installationId := "00000000-0000-4000-8000-000000000001"
  secret := "ssssssssssssssssssssssssssssssss"

def statusArguments (method : String) : CallArguments where
  method := method
  path := "/v1/status"
  payload := none

def thousandSeconds : ClockReading where
  seconds := 1000
  bounded := Nat.lt_of_lt_of_le (by decide) (Nat.pow_le_pow_right (by decide) (show 4 ≤ 309 by decide))

theorem statusArguments_built (signing : Signing) (library : Library) (method : String) :
    ∃ request, buildRequest signing library sharedSettings (statusArguments method)
      thousandSeconds = .ok request :=
  ⟨_, rfl⟩

/-- What the CRM signs for a status call in the second 1000. -/
def statusSigned : Signed where
  purpose := .clientRequest "GET"
  path := "/v1/status"
  timestamp := "1000"
  installationId := sharedSettings.installationId
  body := ByteArray.empty

theorem statusSigned_lines : statusSigned.Lines where
  method := by
    rintro method (isClient | isAgent)
    · injection isClient with isMethod
      rw [← isMethod]
      decide
    · cases isAgent
  path := by decide
  installationId := by decide

/-- A status call in upper case is accepted in the second of its signature, and
the signature is the one the CRM made. -/
theorem signed_requests_agree_status :
    ∃ request, buildRequest plainSigning asciiLibrary sharedSettings (statusArguments "GET")
        thousandSeconds = .ok request ∧
      authenticateRequest plainSigning asciiLibrary sharedSettings.secretBytes request.method
        request.path request.headers (strip sharedSettings.installationId) request.stream 60 1000 =
          .ok () ∧
      ∃ signed ∈ [statusSigned], ∃ time,
        parseInt (request.headers.timestamp.getD "") = some time ∧
          signed.Signs asciiLibrary request.method request.path
            (strip sharedSettings.installationId) request.stream time ∧
          ((∀ status : Int, asciiLibrary.upper request.method ≠ toString status) →
            signed.IsRequest) := by
  obtain ⟨request, built⟩ := statusArguments_built plainSigning asciiLibrary "GET"
  have agree := signed_requests_agree plainSigning asciiLibrary
  have accepted := agree.1 sharedSettings (statusArguments "GET") thousandSeconds request 60 1000
    built (by decide) (by decide)
  obtain ⟨-, isBody, method, path, -, -, signature⟩ := buildRequest_ok built
  have stream : request.stream = ByteArray.empty := (Option.some.inj isBody).symm
  have unforged : plainSigning.Unforged sharedSettings.secretBytes
      ([statusSigned].map (Signed.message plainSigning asciiLibrary)) request.headers.signature := by
    intro message presented
    rw [signature, stream] at presented
    have isMessage := plainSigning.code_injective _ (Option.some.inj presented)
    rw [← isMessage]
    exact List.mem_singleton.mpr rfl
  have lines : IsLine request.method ∧ IsLine request.path ∧
      IsLine (strip sharedSettings.installationId) := by
    rw [method, path]
    decide
  exact ⟨request, built, accepted, (agree.2 _ _ _ _ _ _ _ _ lines accepted).1 [statusSigned]
    (fun signed member => List.mem_singleton.mp member ▸ statusSigned_lines) unforged⟩

/-- The CRM signs a method as it is and the agent upper-cases it; and where a
method is the number of a status, the signature of a response is accepted. -/
theorem signed_requests_disagree :
    (∃ request, buildRequest plainSigning asciiLibrary sharedSettings (statusArguments "get")
        thousandSeconds = .ok request ∧
      authenticateRequest plainSigning asciiLibrary sharedSettings.secretBytes request.method
        request.path request.headers (strip sharedSettings.installationId) request.stream 60 1000 ≠
          .ok ()) ∧
    authenticateRequest plainSigning asciiLibrary sharedSettings.secretBytes "401" "/v1/status" {
        timestamp := some "1000"
        signature := some (signResponse plainSigning sharedSettings.secretBytes 401 "/v1/status"
          "1000" sharedSettings.installationId ByteArray.empty)
        installationId := some sharedSettings.installationId
        contentLength := none }
      sharedSettings.installationId ByteArray.empty 60 1000 = .ok () := by
  constructor
  · obtain ⟨request, built⟩ := statusArguments_built plainSigning asciiLibrary "get"
    refine ⟨request, built, fun isOk => ?_⟩
    obtain ⟨-, time, accepted⟩ := authenticateRequest_ok.mp isOk
    obtain ⟨-, -, method, path, -, -, signature⟩ := buildRequest_ok built
    have same := (signature.symm.trans accepted.signature)
    rw [method, path] at same
    have parts := Signing.signLines_injective (by decide) (by decide) (Option.some.inj same)
    exact absurd parts.1 (by decide)
  · apply authenticateRequest_ok.mpr
    exact ⟨by decide, 1000, by decide, by decide, rfl, rfl⟩

end BubllioCrm.Onboarding
