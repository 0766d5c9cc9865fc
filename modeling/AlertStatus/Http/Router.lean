import AlertStatus.Engine
import AlertStatus.Http.Action
import AlertStatus.Http.MediaType
import AlertStatus.Http.Query

/-!
# The HTTP interface

Requests are routed by exact path and method to the operations of the engine. A request is refused
before it reaches the engine when its path or method is not served, a query parameter is missing or
wrong, its content type announces no document, or its body is no document (400) or one of another shape
(422). `OPTIONS` is answered for every path, and `HEAD` is `GET` without the body.
-/

set_option autoImplicit false

namespace AlertStatus

structure Request where
  method : String
  target : Target
  contentType : Option String
  body : String

/-- The body of a response: a document, a text of the interface, or whatever the server itself says
about a request that it refuses. -/
inductive ResponseBody where
  | document (v : Json)
  | text (s : String)
  | refusal
deriving DecidableEq

structure Response where
  code : Nat
  body : ResponseBody
deriving DecidableEq

namespace Response

def document (v : Json) : Response := ⟨200, .document v⟩

def text (code : Nat) (s : String) : Response := ⟨code, .text s⟩

/-- A refusal by the server itself. -/
def refusal (code : Nat) : Response := ⟨code, .refusal⟩

/-- Whether the request was served. -/
def served (r : Response) : Bool := 200 ≤ r.code && r.code < 300

/-- The response to a failed engine operation. -/
def failure (e : EngineError) : Response :=
  let code :=
    match e with
    | .unknownEvent _ | .status (.unknownEntity _) => 404
    | .entity _ => 400
    | _ => 500
  text code e.message

def headOnly (r : Response) : Response :=
  match r.body with
  | .refusal => r
  | _ => { r with body := .text "" }

end Response

/-- The operations that the interface serves. -/
inductive Endpoint where
  | postEvent
  | getEvent
  | getLog
  | getStatus
  | sweep
  | acknowledge
  | removeAck
  | cancel
  | uncancel
deriving DecidableEq

namespace Endpoint

/-- The path of an endpoint and the method it takes. -/
def routes : List (String × String × Endpoint) :=
  [("/api/events", "POST", postEvent),
   ("/api/events", "GET", getEvent),
   ("/api/events/log", "GET", getLog),
   ("/api/status", "GET", getStatus),
   ("/api/ack", "POST", acknowledge),
   ("/api/ack/remove", "POST", removeAck),
   ("/api/cancel", "POST", cancel),
   ("/api/uncancel", "POST", uncancel),
   ("/api/beat", "POST", sweep)]

/-- The endpoints on a path, with their methods. -/
def onPath (path : String) : List (String × Endpoint) :=
  (routes.filter fun r => r.1 = path).map Prod.snd

end Endpoint

namespace Router

variable {σ : Type} [Store σ]

/-- The response to an engine operation, and the store it leaves. -/
def respond {α : Type} (x : Action σ EngineError α) (answer : α → Response) (s : σ) : Response × σ :=
  match x.runOn s with
  | (.ok a, s) => (answer a, s)
  | (.error e, s) => (.failure e, s)

/-- The value that the body of a request holds, or why the request is refused. -/
def body (α : Type) [Readable α] (r : Request) : Except Response α :=
  if r.contentType.any MediaType.isJson then
    match readText α r.body with
    | .ok a => .ok a
    | .error .malformed => .error (.refusal 400)
    | .error .mismatch => .error (.refusal 422)
  else .error (.refusal 415)

/-- Serves a request whose body holds a value. -/
def withBody (α : Type) [Readable α] (r : Request) (serve : α → σ → Response × σ) (s : σ) :
    Response × σ :=
  match body α r with
  | .error refusal => (refusal, s)
  | .ok a => serve a s

/-- Serves an action that leaves a remark, which needs an author. -/
def withRemark (r : Request) (now : Instant) (serve : String → Remark → σ → Response × σ) :
    σ → Response × σ :=
  withBody ActionRequest r fun a s =>
    if a.author = "" then (.text 400 "Author is required", s)
    else serve a.routingKey ⟨a.author, a.comment, a.timestamp.getD now⟩ s

/-- Serves a request for what a parameter names. -/
def withParameter (r : Request) (name : String) (serve : String → σ → Response × σ) (s : σ) :
    Response × σ :=
  match r.target.query.required name with
  | none => (.refusal 400, s)
  | some v => serve v s

/-- The response to a look-up. -/
def found {α : Type} (missing : String) (write : α → Json) : Option α → Response
  | some a => .document (write a)
  | none => .text 404 missing

/-- Serves a request at an endpoint, at the clock time `now`. -/
def serve (e : Engine) (now : Instant) (r : Request) : Endpoint → σ → Response × σ
  | .postEvent =>
    withBody Event r fun event =>
      respond (e.processEvent now event) fun entity =>
        .document (.object [("entity_id", entity.elim .null .str)])
  | .getEvent =>
    withParameter r "rk" fun rk => respond (Engine.event rk) (found "Event not found" Event.toJson)
  | .getLog =>
    withParameter r "rk" fun rk =>
      respond (Engine.history rk) fun entries => .document (.arr (entries.map LogEntry.toJson))
  | .getStatus =>
    withParameter r "entity_id" fun entity =>
      respond (Engine.status entity) (found "Status not found" StatusRecord.toJson)
  | .sweep => fun s =>
    match r.target.query.optionalInstant "now" with
    | none => (.refusal 400, s)
    | some time => ((.document (e.sweep (time.getD now) s).1.toJson), (e.sweep (time.getD now) s).2)
  | .acknowledge =>
    withRemark r now fun rk ack => respond (Engine.acknowledge rk ack) fun _ => .text 204 ""
  | .removeAck =>
    withBody ActionRequest r fun a =>
      respond (Engine.removeAck a.routingKey) fun _ => .text 204 ""
  | .cancel =>
    withRemark r now fun rk remark =>
      respond (Engine.cancel rk remark) fun record => .document record.toJson
  | .uncancel =>
    withBody ActionRequest r fun a =>
      respond (Engine.uncancel a.routingKey (a.timestamp.getD now)) fun record =>
        .document record.toJson

/-- Answers a request at the clock time `now`. -/
def handle (e : Engine) (now : Instant) (r : Request) (s : σ) : Response × σ :=
  if r.method = "OPTIONS" then (.text 200 "", s)
  else
    match Endpoint.onPath r.target.path with
    | [] => (.text 404 "", s)
    | endpoints =>
      match endpoints.lookup r.method with
      | some endpoint => serve e now r endpoint s
      | none =>
        match endpoints.lookup "GET" with
        | some endpoint =>
          if r.method = "HEAD" then
            ((serve e now r endpoint s).1.headOnly, (serve e now r endpoint s).2)
          else (.refusal 405, s)
        | none => (.refusal 405, s)

end Router
end AlertStatus
