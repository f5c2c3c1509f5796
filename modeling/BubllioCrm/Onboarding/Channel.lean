import BubllioCrm.Foundations.Execution
import BubllioCrm.Onboarding.SignedRequests
import BubllioCrm.UpdateAgent.Api

/-!
Owns the channel between the CRM and the update agent: calls of the CRM,
requests that the agent handles and answers that the CRM receives, where an
adversary decides what is delivered, when, how often and in which order, and
may put together any message, but has only the signatures that were made.
-/

namespace BubllioCrm.Onboarding

open BubllioCrm.Foundations
open BubllioCrm.UpdateAgent

/-- The two parties with their shared secret and installation. -/
structure Deployment where
  settings : AgentSettings
  requestMaxAgeSeconds : Int
  canonical : isCanonicalUuid (strip settings.installationId) = true

namespace Deployment

def installationId (deployment : Deployment) : String :=
  strip deployment.settings.installationId

def config (deployment : Deployment) : ApiConfig where
  installationId := deployment.installationId
  sharedSecret := deployment.settings.secretBytes
  requestMaxAgeSeconds := deployment.requestMaxAgeSeconds

end Deployment

/-- A call of the CRM with the request it sent. -/
structure Call where
  agentCall : AgentCall
  arguments : CallArguments
  clock : ClockReading
  request : HttpRequest

/-- A request that reached the agent, with the moment and the state of the
service there. -/
structure Handling where
  request : HttpRequest
  now : Int
  service : ServiceOracle
  writeFails : Bool

/-- An answer that the CRM took for one of its calls. -/
structure Return where
  index : Nat
  call : Call
  exchange : Exchange
  result : Except ClientError Fields

structure Channel where
  calls : List Call
  handlings : List Handling
  returns : List Return
  /-- Every signature that was made. -/
  signed : List Signed

namespace Channel

def initial : Channel where
  calls := []
  handlings := []
  returns := []
  signed := []

inductive Action where
  | call (agentCall : AgentCall) (clock : ClockReading)
  | handle (handling : Handling)
  | receive (index : Nat) (exchange : Exchange)

section
variable (signing : Signing) (library : Library) (deployment : Deployment)

def clientSigned (call : Call) : Signed where
  purpose := .clientRequest call.arguments.method
  path := call.arguments.path
  timestamp := toString call.clock.seconds
  installationId := deployment.installationId
  body := call.request.stream

def responseSigned (handling : Handling) (response : HttpResponse) : Signed where
  purpose := .signResponse response.status
  path := handling.request.path
  timestamp := handling.request.headers.timestamp.getD ""
  installationId := deployment.installationId
  body := response.body

def responses (handling : Handling) : List HttpResponse :=
  UpdateAgent.handle signing library deployment.config handling.service handling.request
    handling.now handling.writeFails

/-- A request line has no line break, and other methods have no handler. -/
def Served (request : HttpRequest) : Prop :=
  (request.method = "GET" ∨ request.method = "POST") ∧ IsLine request.path

instance (request : HttpRequest) : Decidable (Served request) :=
  inferInstanceAs (Decidable (_ ∧ _))

def issue (channel : Channel) (agentCall : AgentCall) (clock : ClockReading) : Channel :=
  match agentCall.arguments with
  | none => channel
  | some arguments =>
      match buildRequest signing library deployment.settings arguments clock with
      | .error _ => channel
      | .ok request =>
          let call : Call := {
            agentCall := agentCall
            arguments := arguments
            clock := clock
            request := request }
          { channel with
            calls := channel.calls ++ [call]
            signed := channel.signed ++ [clientSigned deployment call] }

def receive (channel : Channel) (index : Nat) (exchange : Exchange) : Channel :=
  match channel.calls[index]? with
  | none => channel
  | some call =>
      if ∃ returned ∈ channel.returns, returned.index = index then channel
      else
        { channel with
          returns := channel.returns ++ [{
            index := index
            call := call
            exchange := exchange
            result := request signing library deployment.settings call.arguments call.clock
              fun _ => exchange }] }

def step (channel : Channel) (action : Action) : Channel :=
  match action with
  | .call agentCall clock => channel.issue signing library deployment agentCall clock
  | .handle handling =>
      if Served handling.request then
        { channel with
          handlings := channel.handlings ++ [handling]
          signed := channel.signed ++
            (responses signing library deployment handling).map
              (responseSigned deployment handling) }
      else channel
  | .receive index exchange => channel.receive signing library deployment index exchange

/-- The signature that a message presents is one that was made. -/
def CannotSign (channel : Channel) (action : Action) : Prop :=
  let presents := signing.Unforged deployment.settings.secretBytes
    (channel.signed.map (Signed.message signing library))
  match action with
  | .call _ _ => True
  | .handle handling => presents handling.request.headers.signature
  | .receive _ .failed => True
  | .receive _ (.response _ signature _) => presents signature

end

end Channel

end BubllioCrm.Onboarding
