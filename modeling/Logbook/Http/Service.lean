import Logbook.Http.Message
import Logbook.Logger

/-!
# The echo service

Every request whose path starts with a slash is answered with its method and path. A request is
handled inside two spans: the outer one has what is known of the request from the start, and the
inner one its identifier. A request without an identifier is given one, the response carries the
same, and the inner span says `unknown` for one that is no readable text.

Three records describe the course of a request from outside (`started`, `finished`, `ended`) and one
comes from the handler (`handled`). The end of a body is seen only where a body is sent, which
for the method `HEAD` it is not; an answer to `CONNECT` has no body, and dropping one is an error.
-/

set_option autoImplicit false
set_option relaxedAutoImplicit false

namespace Logbook.Http

/-- What a response takes from the moment it is made at: a fresh identifier, how long the handler
took in seconds, how long the whole response took and the sending of its body as texts, and
where the records come from. -/
structure Occasion where
  freshId : String
  elapsed : Binary64
  latency : String
  streaming : String
  site : CallSite

/-- The identifier in the records of a request whose own cannot be read. -/
def unreadableId : String := "unknown"

/-! ### Records -/

/-- The target of the records of the service. -/
def serviceTarget : String := "service_logger::http"

/-- An event of the service. -/
def event (level : Level) (site : CallSite) (message : String)
    (fields : List (String × FieldValue)) : Event where
  level := level
  target := serviceTarget
  site := site
  fields := ⟨Field.messageName, some (.shown message)⟩ ::
    fields.map fun (name, value) ↦ ⟨name, some value⟩

/-- The fields of the outer span. -/
def requestFields (r : Request) : List Field :=
  [⟨"method", some (.shown r.method)⟩, ⟨"uri", some (.shown r.uri.text)⟩,
   ⟨"version", some (.shown "HTTP/1.1")⟩]

/-- A request has come in. -/
def started (o : Occasion) : Event :=
  event .debug o.site "started processing request" []

/-- The handler has answered a request. -/
def handled (o : Occasion) (r : Request) : Event :=
  event .info o.site "Handled request"
    [("method", .str r.method), ("path", .str r.uri.path), ("elapsed", .float o.elapsed)]

/-- A body was dropped from an answer that must not have one. -/
def bodyDropped (o : Occasion) : Event :=
  event .error o.site "response to CONNECT with nonempty body" []

/-- A response is ready. -/
def finished (o : Occasion) (status : Nat) : Event :=
  event .debug o.site "finished processing request"
    [("latency", .shown o.latency), ("status", .integer (.ofUInt64 status.toUInt64))]

/-- The body of a response has been sent. -/
def ended (o : Occasion) : Event :=
  event .debug o.site "end of stream" [("stream_duration", .shown o.streaming)]

/-! ### Responses -/

/-- Whether a request reaches the handler. -/
def isRouted (r : Request) : Bool :=
  r.uri.path.startsWith "/"

/-- What the handler answers. -/
def echo (r : Request) : String :=
  r.method ++ " " ++ r.uri.path ++ "\n"

/-- The identifier of a request as a header: its own, or a fresh one. -/
def identify (o : Occasion) (r : Request) : Header :=
  (header? r.headers idHeader).getD (.ofText idHeader o.freshId)

/-- The header that tells the size of a body. -/
def lengthHeader (body : String) : Header :=
  .ofText "content-length" (toString body.utf8ByteSize)

/-- The header that tells the kind of a body. -/
def typeHeader : Header :=
  .ofText "content-type" "text/plain; charset=utf-8"

/-- The response to a request. -/
def respond (o : Occasion) (r : Request) : Response :=
  let id := identify o r
  if !isRouted r then ⟨404, [lengthHeader "", id], ""⟩
  else if r.method = "CONNECT" then ⟨200, [typeHeader, id], ""⟩
  else ⟨200, [lengthHeader (echo r), typeHeader, id], if r.method = "HEAD" then "" else echo r⟩

/-- Handles a request: the response, and what the logger has become. -/
def serve (t : FileTree) (l : Logger) (now : Moment) (o : Occasion) (r : Request) :
    FileTree × Logger × Response :=
  let response := respond o r
  let id := ((identify o r).text?).getD unreadableId
  let (l, outer) := l.createSpan .current (requestFields r)
  let (t, l) := l.emit t now (started o) (.span outer)
  let (l, inner) := l.createSpan (.span outer) [Logger.requestField id]
  let (t, l) := if isRouted r then l.emit t now (handled o r) (.span inner) else (t, l)
  let (t, l) :=
    if isRouted r && r.method == "CONNECT" then l.emit t now (bodyDropped o) (.span inner)
    else (t, l)
  let (t, l) := (l.release inner).emit t now (finished o response.status) (.span outer)
  let (t, l) := if r.method = "HEAD" then (t, l) else l.emit t now (ended o) (.span outer)
  (t, l.release outer, response)

/-- A request that comes in, the moment it does, and what its response takes from it. -/
structure Arrival where
  now : Moment
  occasion : Occasion
  request : Request

/-- Handles requests one after the other: the responses, and what the logger has become. -/
def serveAll (t : FileTree) (l : Logger) : List Arrival → FileTree × Logger × List Response
  | [] => (t, l, [])
  | a :: later =>
    let (t, l, response) := serve t l a.now a.occasion a.request
    let (t, l, responses) := serveAll t l later
    (t, l, response :: responses)

end Logbook.Http
