import Gasoline.HttpRequest
import Gasoline.Wire

/-!
# The control API

A thread of the API server serves one client: it reads a request, does what
the request line asks for, sends one response and closes the socket. The
requests reach into the sessions of the process: they list the registry,
empty the event bus, or have a message sent to a device.

A client is a machine of its own (`Stage`), like the worker of a session:
a step is one system call, or one block that holds a lock, and what the thread
computes on its own belongs to the step before. The process with its clients
is a `Daemon`. What `recv` and `send` return is part of the event, and so is
how `send_packet` ends; the JSON library is a parameter, with the texts of its
exceptions.

An exception that leaves the thread ends the process (`std::terminate`).
-/

namespace Gasoline

namespace ApiServer

/-- `nlohmann::json`. The text of an exception is what `what()` returns. -/
structure JsonLibrary where
  parse : Bytes → Except Bytes Json
  /-- `dump()`, which throws where a string is not UTF-8. -/
  dump : Json → Option Bytes
  /-- What `get<std::string>()` throws, of a value that is no string. -/
  typeError : Json → Bytes

/-! ## Responses -/

/-- `std::to_string`, of a number that is not negative. -/
def toText (n : ℕ) : Bytes := (Nat.toDigits 10 n).map (fun c => UInt8.ofNat c.toNat)

/-- The arguments of `send_http_response`. -/
structure Response where
  statusCode : ℕ
  statusText : Bytes
  body : Bytes
  contentType : Bytes
  deriving DecidableEq, Repr

namespace Response

/-- The lines before the empty one. -/
def headLines (r : Response) : List Bytes :=
  [ascii "HTTP/1.1 " ++ toText r.statusCode ++ ascii " " ++ r.statusText,
    ascii "Content-Type: " ++ r.contentType,
    ascii "Content-Length: " ++ toText r.body.length,
    ascii "Connection: close"]

/-- The status line and the headers, with the empty line. -/
def head (r : Response) : Bytes := (r.headLines.map (· ++ crlf)).flatten ++ crlf

/-- **What `send_http_response` sends.** -/
def bytes (r : Response) : Bytes := r.head ++ r.body

/-- A response with the default `content_type`. -/
def json (statusCode : ℕ) (statusText : String) (body : Bytes) : Response :=
  ⟨statusCode, ascii statusText, body, ascii "application/json"⟩

/-- A body that is no object of the library: `{"name":"value"}`, of texts
without quotes. -/
def literal (name value : String) : Bytes :=
  ascii "\x7b\"" ++ ascii name ++ ascii "\":\"" ++ ascii value ++ ascii "\"\x7d"

def incomplete : Response := json 400 "Bad Request" (literal "error" "incomplete request")

def invalidLine : Response := json 400 "Bad Request" (literal "error" "invalid request line")

def missingFields : Response :=
  json 400 "Bad Request" (literal "error" "'device_id' and 'text' are required")

def notFound : Response := json 404 "Not Found" (literal "error" "endpoint not found")

def queued : Response := json 200 "OK" (literal "status" "queued")

def noContent : Response := ⟨204, ascii "No Content", [], ascii "text/plain"⟩

end Response

/-! ## Requests -/

/-- What the request line asks for. -/
inductive Route
  /-- There is no empty line. -/
  | unterminated
  /-- There is no line. -/
  | invalidLine
  | options
  | devices
  | events
  | send (body : Bytes)
  | notFound
  deriving DecidableEq, Repr

/-- The routing of `handle_api_client`. -/
def route (request : Bytes) : Route :=
  if (firstOccurrence emptyLine request).isNone then .unterminated
  else
    match firstOccurrence crlf request with
    | none => .invalidLine
    | some lineEnd =>
      let requestLine := request.take lineEnd
      if (ascii "OPTIONS ").isPrefixOf requestLine then .options
      else if (ascii "GET /devices").isPrefixOf requestLine then .devices
      else if (ascii "GET /events").isPrefixOf requestLine then .events
      else if (ascii "POST /send").isPrefixOf requestLine then .send (getRequestBody request)
      else .notFound

/-- `device_state_to_string`. -/
def deviceStateToString : DeviceState → Bytes
  | .connecting => ascii "CONNECTING"
  | .handshakeDone => ascii "HANDSHAKE_DONE"
  | .ready => ascii "READY"
  | .disconnected => ascii "DISCONNECTED"
  | .authenticated => ascii "UNKNOWN"

/-- An item of `handle_get_devices`. -/
def deviceItem (myDeviceId : Bytes) (d : Device) : Json :=
  .object [(ascii "device_id", .string d.deviceId), (ascii "device_name", .string d.deviceName),
    (ascii "device_type", .string d.deviceType),
    (ascii "is_self", .boolean (d.deviceId == myDeviceId)),
    (ascii "state", .string (deviceStateToString d.state))]

/-- An item of `handle_get_events`. -/
def eventItem (event : MessageEvent) : Json :=
  .object [(ascii "device_id", .string event.deviceId), (ascii "text", .string event.text)]

/-! ## A client -/

/-- **What the thread of a client does next.** -/
inductive Stage
  /-- `recv`, for the headers. -/
  | readHead (request : Bytes)
  /-- `recv`, for the body. -/
  | readBody (request : Bytes) (targetSize : ℕ)
  /-- `get_devices_copy`, of `handle_get_devices`. -/
  | devices
  /-- `consume_events`. -/
  | events
  /-- `get_devices_copy`, of `send_to_device`. -/
  | lookup (deviceId text : Bytes)
  /-- `device.connection.lock()`. -/
  | lock (device : Device) (text : Bytes)
  /-- `send_packet`, before it has the lock. -/
  | sendPacket (session : ℕ) (packet : Json)
  /-- `send_packet`. -/
  | sending (session : ℕ)
  /-- `send`, in `send_http_response`. -/
  | respond (response : Response) (sent : ℕ)
  /-- `close`, behind the response if there was one. -/
  | close (response : Option Response)
  | finished (response : Option Response)
  /-- An exception has left the thread. -/
  | terminated

namespace Stage

/-- `send_http_response`. -/
def responding (r : Response) : Stage := .respond r 0

/-- A response whose body is dumped first. -/
def dumping (lib : JsonLibrary) (r : Response) (body : Json) : Stage :=
  match lib.dump body with
  | none => .terminated
  | some text => .responding { r with body := text }

/-- The list that `handle_get_devices` and `handle_get_events` send. -/
def listing (lib : JsonLibrary) (items : List Json) : Stage :=
  dumping lib (.json 200 "OK" []) (.array items)

/-- The `catch` of `handle_post_send`: what its own `dump()` throws is not
caught. -/
def caught (lib : JsonLibrary) (what : Bytes) : Stage :=
  dumping lib (.json 400 "Bad Request" []) (.object [(ascii "error", .string what)])

/-- **`handle_post_send`**, up to `send_to_device`. -/
def postSend (lib : JsonLibrary) (requestBody : Bytes) : Stage :=
  match lib.parse requestBody with
  | .error what => caught lib what
  | .ok body =>
    match body.find (ascii "device_id"), body.find (ascii "text") with
    | some deviceId, some text =>
      match deviceId.text, text.text with
      | none, _ => caught lib (lib.typeError deviceId)
      | some _, none => caught lib (lib.typeError text)
      | some deviceId, some text =>
        if text.isEmpty then .responding .queued else .lookup deviceId text
    | _, _ => .responding .missingFields

/-- `handle_api_client`, of a request that was read. -/
def dispatch (lib : JsonLibrary) (request : Bytes) : Stage :=
  match route request with
  | .unterminated => .close none
  | .invalidLine => .responding .invalidLine
  | .options => .responding .noContent
  | .devices => .devices
  | .events => .events
  | .send body => postSend lib body
  | .notFound => .responding .notFound

/-- The head of the second loop of `recv_http_request`. -/
def readingBody (lib : JsonLibrary) (request : Bytes) (targetSize : ℕ) : Stage :=
  if request.length < targetSize then .readBody request targetSize else dispatch lib request

/-- The head of the first loop of `recv_http_request`, and what follows it. -/
def readingHead (lib : JsonLibrary) (request : Bytes) : Stage :=
  match firstOccurrence emptyLine request with
  | none => .readHead request
  | some headersEnd =>
    let contentLength := extractContentLength (request.take (headersEnd + 4))
    if contentLength < 0 || (apiBufferSize : ℤ) < contentLength then .responding .incomplete
    else readingBody lib request (headersEnd + 4 + contentLength.toNat)

/-- The loop of `send_to_device`: the first device with the id. -/
def sendToDevice (devices : List Device) (deviceId text : Bytes) : Stage :=
  match devices.find? (fun d => d.deviceId == deviceId) with
  | none => .responding .queued
  | some device => .lock device text

/-- The session the thread has a strong reference to. -/
def refersTo (session : ℕ) : Stage → Bool
  | .sendPacket s _ => s == session
  | .sending s => s == session
  | _ => false

end Stage

/-- **A client.** Besides where its thread is: what `recv` returned, what
`get_devices_copy` returned to `handle_get_devices`, what `send_packet` threw,
what the socket accepted, whether a `send` failed, and how often the socket
was closed. -/
structure Client where
  stage : Stage
  chunks : List Bytes
  listed : Option (List Device)
  threw : Option Bytes
  accepted : Bytes
  failed : Bool
  closes : ℕ

/-- A client that was just accepted. -/
def Client.new (lib : JsonLibrary) : Client := ⟨.readingHead lib [], [], none, none, [], false, 0⟩

end ApiServer

/-! ## The process with its clients -/

open ApiServer

/-- **A process with its sessions and the clients of its control API.** The
batches that `consume_events` returned are kept in order, with the client. -/
structure Daemon where
  node : Node
  clients : ℕ → Option Client
  nextClient : ℕ
  polls : List (ℕ × List MessageEvent)
  /-- `std::terminate` was called. -/
  terminated : Bool

/-- What may happen next. -/
inductive DaemonEvent
  /-- A step of the sessions. -/
  | node (e : NodeEvent)
  /-- `accept`. -/
  | accept
  /-- `recv` returns; `none` where it returns nothing. -/
  | recv (client : ℕ) (data : Option Bytes)
  /-- `send` returns; `none` where it fails. -/
  | send (client : ℕ) (count : Option ℕ)
  /-- The thread of the client goes on. -/
  | work (client : ℕ)
  /-- `send_packet` returns, or throws this. -/
  | returned (client : ℕ) (threw : Option Bytes)

namespace Daemon

/-- A new process. -/
def initial : Daemon := ⟨.initial, fun _ => none, 0, [], false⟩

/-- A client changes. Where its thread lets an exception out, the process
ends. -/
def setClient (d : Daemon) (i : ℕ) (c : Client) : Daemon :=
  { d with
    clients := Function.update d.clients i (some c)
    terminated := match c.stage with
      | .terminated => true
      | _ => d.terminated }

/-- The event of the node may happen: only clients poll the event bus, and no
reference goes that a client holds. -/
def admits (d : Daemon) : NodeEvent → Bool
  | .consumeEvents => false
  | .release session => (List.range d.nextClient).all (fun i =>
      !(d.clients i).any (fun c => c.stage.refersTo session))
  | _ => true

/-- `recv` returns. -/
def recv (lib : JsonLibrary) (c : Client) (data : Option Bytes) : Option Client :=
  match data with
  | none =>
    match c.stage with
    | .readHead _ => some { c with stage := .responding .incomplete }
    | .readBody _ _ => some { c with stage := .responding .incomplete }
    | _ => none
  | some data =>
    if data.isEmpty || decide (apiBufferSize < data.length) then none
    else
      match c.stage with
      | .readHead request =>
        some { c with stage := .readingHead lib (request ++ data), chunks := c.chunks ++ [data] }
      | .readBody request targetSize =>
        some { c with
          stage := .readingBody lib (request ++ data) targetSize
          chunks := c.chunks ++ [data] }
      | _ => none

/-- `send` returns, in `send_http_response`. -/
def send (c : Client) (count : Option ℕ) : Option Client :=
  match c.stage, count with
  | .respond response sent, none =>
    if sent < response.bytes.length then
      some { c with stage := .close (some response), failed := true }
    else none
  | .respond response sent, some count =>
    if 0 < count ∧ sent + count ≤ response.bytes.length then
      some { c with
        stage := .respond response (sent + count)
        accepted := c.accepted ++ (response.bytes.drop sent).take count }
    else none
  | _, _ => none

/-- **The thread of a client goes on.** -/
def work (host : Host) (lib : JsonLibrary) (d : Daemon) (i : ℕ) (c : Client) : Option Daemon :=
  match c.stage with
  | .devices =>
    some (d.setClient i { c with
      stage := .listing lib (d.node.registry.map (deviceItem host.myDeviceId))
      listed := some d.node.registry })
  | .events =>
    some { d.setClient i { c with stage := .listing lib (d.node.events.map eventItem) } with
      node := { d.node with events := [] }
      polls := d.polls ++ [(i, d.node.events)] }
  | .lookup deviceId text =>
    some (d.setClient i { c with stage := .sendToDevice d.node.registry deviceId text })
  | .lock device text =>
    if (d.node.connection device.sessionId).all Connection.released || device.state ≠ .ready then
      some (d.setClient i { c with stage := .responding .queued })
    else
      some (d.setClient i { c with
        stage := .sendPacket device.sessionId (buildMessagePacket host.myDeviceId text) })
  | .sendPacket session packet =>
    (d.node.step host (.send session packet)).map (fun node =>
      { d.setClient i { c with stage := .sending session } with node := node })
  | .respond response sent =>
    if sent < response.bytes.length then none
    else some (d.setClient i { c with stage := .close (some response) })
  | .close response =>
    some (d.setClient i { c with stage := .finished response, closes := c.closes + 1 })
  | _ => none

/-- **What happens at an event**, or `none` where it cannot happen. -/
def step (host : Host) (lib : JsonLibrary) (d : Daemon) (e : DaemonEvent) : Option Daemon :=
  if d.terminated then none
  else
    match e with
    | .node e =>
      if d.admits e then (d.node.step host e).map (fun node => { d with node := node }) else none
    | .accept =>
      some { d with
        clients := Function.update d.clients d.nextClient (some (.new lib))
        nextClient := d.nextClient + 1 }
    | .recv i data => (d.clients i).bind (fun c => (recv lib c data).map (d.setClient i))
    | .send i count => (d.clients i).bind (fun c => (send c count).map (d.setClient i))
    | .work i => (d.clients i).bind (fun c => d.work host lib i c)
    | .returned i threw =>
      (d.clients i).bind (fun c =>
        match c.stage, threw with
        | .sending _, none => some (d.setClient i { c with stage := .responding .queued })
        | .sending _, some what =>
          some (d.setClient i { c with stage := .caught lib what, threw := some what })
        | _, _ => none)

end Daemon

end Gasoline
