import RowSync.Backend
import RowSync.Http.Action

/-!
# Service

The service answers requests over a backend. A request that cannot be read does not reach the
backend. Headers of answers are left out, and so is the time limit that is set for requests.
-/

namespace RowSync

open Http

/-- The service: a backend, and the limits to which requests are held. -/
structure Service where
  /-- Where the rows are kept. -/
  backend : Backend
  /-- What requests are held to. -/
  limits : Limits := {}
deriving DecidableEq, Repr

namespace Service

/-- The version of the service. -/
def version : String := "0.1.0"

/-- The state of the service as a JSON object. -/
def state (service : Service) : Json :=
  .obj [("status", .str "ok"), ("version", .str version),
    ("backend", .str service.backend.kindName)]

/-- The service over another state of its backend. -/
def withBackend (service : Service) (backend : Backend) : Service := { service with backend }

/-- The answer that tells the outcome of a call. -/
def answerCall (status : Nat) (outcome : Except CallError Content) : Answer :=
  match outcome with
  | .ok content => ⟨status, content⟩
  | .error e => (Failure.ofCallError e).answer

/-- Do what a request asks for. -/
def perform (service : Service) (now : Timestamp) : Action → Answer × Service
  | .greet => (⟨200, .text "Tablesync Server"⟩, service)
  | .report => (⟨200, .json service.state⟩, service)
  | .sync scope call =>
    let (outcome, backend) := service.backend.performSync service.limits scope now call
    (answerCall call.status (outcome.map SyncReply.content), service.withBackend backend)
  | .onLocal scope call =>
    let (outcome, backend) := service.backend.performLocal scope now call
    (answerCall call.status (outcome.map LocalReply.content), service.withBackend backend)

/-- Answer a request as if it were made with the given method. -/
def answerAs (method : Method) (service : Service) (now : Timestamp) (request : Request) :
    Answer × Service :=
  match Resource.ofTarget? request.target with
  | none => (⟨404, .empty⟩, service)
  | some resource =>
    match request.action? method resource with
    | none => (⟨405, .empty⟩, service)
    | some (.error failure) => (failure.answer, service)
    | some (.ok action) => service.perform now action

/-- Answer a request. Requests for the options are answered for any path, and requests for the head
like those for the whole, without the content. -/
def answer (service : Service) (now : Timestamp) (request : Request) : Answer × Service :=
  match request.method with
  | .options => (⟨200, .empty⟩, service)
  | .head =>
    let (answer, service) := service.answerAs .get now request
    (answer.withoutContent, service)
  | method => service.answerAs method now request

end Service

end RowSync
