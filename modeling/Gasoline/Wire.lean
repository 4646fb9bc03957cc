import Gasoline.FramingGrammar
import Gasoline.TrafficRuns

/-!
# The wire of a session

What a session writes to its socket and reads from it, byte by byte. The
worker of a session sends the preface, receives, feeds the record parser,
answers the peer's preface with a hello and hands each record to
`handle_record`; any thread may call `send_packet`. All of them write
through `send_all`, which holds `write_mutex_` throughout and calls `::send`
until everything is accepted or something fails.

A wire is a machine of its own (`Wire.step`), for where the worker is and
what is being written. It reads the connection of its session, and where the
source acts on the session a step of the wire asks for it
(`Request`): a step of a node with its wires (`Wired.step`) is at most one
step of the node.

A step is one load or store of an atomic, one system call, or one block that
touches nothing shared; what a thread computes on its own after a system
call belongs to the call. What the kernel answers, and whether a deadline
has passed, is part of the event. The JSON library is a parameter.

The calls that took `write_mutex_` to send are kept in order, with what
became of them, and so are the bytes that were received, the records that
were handed on and the texts that were passed to the event bus.
-/

namespace Gasoline

/-! ## Packets on the wire -/

/-- What `operator<<` puts out of a packet, and whether it then returns; else
it throws. -/
structure Serialization where
  output : Bytes
  completes : Bool
  deriving DecidableEq, Repr

/-- What the source takes from outside a session, with `operator<<`. -/
structure Codec extends Host where
  dump : Json → Serialization

/-- What `send_packet_locked` makes of a packet. -/
inductive Framed
  | tooLarge
  | throws
  | record (data : Bytes)
  deriving DecidableEq, Repr

/-- The largest packet that is sent: `BoundedPacketBuffer`'s limit. -/
def packetLimit (packet : Json) : ℕ :=
  if packet.isControlRecord then maxControlRecordSize else maxRecordSize

/-- `packet.value("type", "unknown")` returns. -/
def Json.hasTypeText (packet : Json) : Bool :=
  packet.isObject && (packet.find (ascii "type")).all (fun type => type.text.isSome)

/-- **`send_packet_locked`**, up to `send_all`: the first byte over the limit
ends serialization. -/
def frame (dump : Json → Serialization) (packet : Json) : Framed :=
  if packetLimit packet < (dump packet).output.length then .tooLarge
  else if !(dump packet).completes then .throws
  else
    match encodeRecord (dump packet).output with
    | .error _ => .throws
    | .ok record => if packet.hasTypeText then .record record else .throws

/-- The packet of `send_initial_hello`. -/
def helloPacket (myDeviceId : Bytes) : Json :=
  .object [(ascii "type", .string (ascii "hello")), (ascii "device_id", .string myDeviceId),
    (ascii "payload", .object [(ascii "device_name", .string (ascii "Gasoline")),
      (ascii "device_type", .string (ascii "linux"))])]

/-- `build_message_packet`. -/
def buildMessagePacket (myDeviceId text : Bytes) : Json :=
  .object [(ascii "type", .string (ascii "message")), (ascii "device_id", .string myDeviceId),
    (ascii "payload", .object [(ascii "text", .string text)])]

/-! ## Sending -/

/-- Which call sends. -/
inductive Origin
  /-- `send_preface`. -/
  | preface
  /-- `send_initial_hello`. -/
  | hello
  /-- `send_packet`, of the worker that answers a record. -/
  | reply (packet : Json)
  /-- `send_packet`, of any thread. -/
  | packet (packet : Json)

/-- What `send_all` does next. -/
inductive SendStage
  /-- At the head of its loop. -/
  | check
  /-- Before `::send`. -/
  | send
  /-- In `wait_for_socket`. -/
  | poll
  /-- It returned -1; before `request_disconnect`. -/
  | failed
  deriving DecidableEq, Repr

/-- **`send_all`.** -/
structure Sending where
  data : Bytes
  /-- `total_sent`. -/
  sent : ℕ
  stage : SendStage
  deriving DecidableEq, Repr

/-- How far a call that sends has come, once it has `write_mutex_`. -/
inductive Progress
  /-- Before serialization. -/
  | locked
  | sending (s : Sending)
  deriving DecidableEq, Repr

/-- **The call that holds `write_mutex_` to send.** -/
structure Outgoing where
  origin : Origin
  progress : Progress

/-- How a call that sends ends. -/
inductive SendResult
  | returned (result : ℤ)
  | threw
  deriving DecidableEq, Repr

/-- A call that held `write_mutex_` to send: its byte string, if it came to
one, and how many bytes of it were accepted. -/
structure Send where
  origin : Origin
  data : Bytes
  sent : ℕ
  result : SendResult

/-- What `::send` or `wait_for_socket` answers. -/
inductive SendAnswer
  | accepted (n : ℕ)
  /-- `EINTR`. -/
  | interrupted
  /-- `EAGAIN` or `EWOULDBLOCK`. -/
  | blocked
  | error
  /-- `wait_for_socket(...) > 0`. -/
  | writable
  | notWritable
  deriving DecidableEq, Repr

/-! ## The worker -/

/-- Where `accept_peer_preface` was called. -/
inductive Resume
  /-- For a record, with the input behind it. -/
  | record (payload rest : Bytes)
  /-- Behind `consume`. -/
  | chunk
  deriving DecidableEq, Repr

/-- **Where the worker is.** -/
inductive Worker
  /-- Not started. -/
  | idle
  /-- `send_preface`. -/
  | preface
  /-- At the head of `receive_loop`. -/
  | loop
  /-- Before `wait_for_socket` and `::recv`. -/
  | receive
  /-- `consume`, with the input it has not read. -/
  | consume (input : Bytes)
  /-- `accept_peer_preface`. -/
  | accept (k : Resume)
  /-- `send_initial_hello`. -/
  | greet (k : Resume)
  /-- `send_initial_hello` returned -1; before `request_disconnect`. -/
  | ungreeted (k : Resume)
  /-- At the end of `accept_peer_preface`. -/
  | accepted (k : Resume)
  /-- `handle_record`, with the input behind the record. -/
  | handle (rest : Bytes)
  /-- Before the `request_disconnect` of `receive_loop`. -/
  | disconnect
  | ended
  deriving DecidableEq, Repr

/-- What `wait_for_socket` and `::recv` answer. -/
inductive RecvAnswer
  /-- `EINTR`, `EAGAIN` or `EWOULDBLOCK`. -/
  | again
  /-- A timeout, or an error. -/
  | failed
  | eof
  | data (chunk : Bytes)
  deriving DecidableEq, Repr

/-- **The wire of a session.** -/
structure Wire where
  started : Bool
  worker : Worker
  localPrefaceSent : Bool
  peerPrefaceReceived : Bool
  parser : RecordParser
  /-- The call that holds `write_mutex_` to send. -/
  current : Option Outgoing
  /-- The bytes the socket accepted. -/
  accepted : Bytes
  /-- The calls that held `write_mutex_` to send and are over. -/
  sends : List Send
  /-- The bytes that were received. -/
  received : Bytes
  /-- The records that were handed on. -/
  records : List Bytes
  /-- The texts that were passed to `emit_message`. -/
  delivered : List Bytes

/-- **What a step of the wire asks of the session.** -/
inductive Request
  | requestDisconnect
  | receive (payload : Bytes)
  | handle (late fails : Bool)
  | send (packet : Json)
  | sending (fails : Bool) (outcome : SendOutcome)

/-- The event of the node that does it. -/
def Request.event (session : ℕ) : Request → NodeEvent
  | .requestDisconnect => .requestDisconnect session
  | .receive payload => .receive session payload
  | .handle late fails => .handle session late fails
  | .send packet => .send session packet
  | .sending fails outcome => .sending session fails outcome

/-- What may happen on a wire. -/
inductive WireEvent
  /-- `start`; `spawned` is whether the thread could be created. -/
  | start (spawned : Bool)
  /-- The worker goes on. -/
  | work
  | receive (answer : RecvAnswer)
  /-- `handle_record` goes on. -/
  | handle (late fails : Bool)
  /-- `send_packet` is called and has the lock. -/
  | sendPacket (packet : Json)
  /-- The `authorization_is_current` of `send_packet`. -/
  | validate (fails : Bool)
  /-- `send_packet_locked`, up to `send_all`. -/
  | serialize
  /-- `send_all` goes on. -/
  | transmit (late : Bool) (answer : SendAnswer)

/-- Where the worker goes on once `send_initial_hello` returned. -/
def Worker.greeted (sent : Bool) : Worker → Worker
  | .greet k => if sent then .accepted k else .ungreeted k
  | worker => worker

/-- What `handle_record` returns at its end. -/
def Handling.returnValue (c : Connection) (h : Handling) : Bool :=
  match h.stage with
  | .greeted => !c.stopping
  | .routed => !c.stopping
  | _ => false

/-- The worker holds the lock to send, or waits for `send_packet`. -/
def Outgoing.byWorker : Outgoing → Bool
  | ⟨.packet _, _⟩ => false
  | _ => true

namespace Wire

/-- The wire of a new session. -/
def initial : Wire where
  started := false
  worker := .idle
  localPrefaceSent := false
  peerPrefaceReceived := false
  parser := .initial maxRecordSize
  current := none
  accepted := []
  sends := []
  received := []
  records := []
  delivered := []

/-- The lock is released, and the call is over. -/
def finish (w : Wire) (s : Send) : Wire := { w with current := none, sends := w.sends ++ [s] }

/-- `send_packet`, once it has the lock. -/
def beginSend (w : Wire) (c : Connection) (origin : Origin) : Wire :=
  if c.stopping || !c.ready || c.authorizedPeer.isNone then w.finish ⟨origin, [], 0, .returned (-1)⟩
  else { w with current := some ⟨origin, .locked⟩ }

/-! ## `send_all` -/

/-- `send_all` returned: everything was accepted. -/
def complete (w : Wire) (origin : Origin) (data : Bytes) : Wire × Option Request :=
  let v := w.finish ⟨origin, data, data.length, .returned data.length⟩
  match origin with
  | .preface => ({ v with localPrefaceSent := true, worker := .loop }, none)
  | .hello => ({ v with worker := Worker.greeted true w.worker }, none)
  | .reply _ => (v, some (.sending false .sent))
  | .packet _ => (v, some (.sending false .sent))

/-- `send_all` returned -1, and the session is stopped before the lock is
released. -/
def abandon (w : Wire) (origin : Origin) (s : Sending) : Wire × Option Request :=
  let v := w.finish ⟨origin, s.data, s.sent, .returned (-1)⟩
  match origin with
  | .preface => ({ v with worker := .ended }, some .requestDisconnect)
  | .hello =>
    ({ v with worker := Worker.greeted false w.worker }, some .requestDisconnect)
  | .reply _ => (v, some (.sending false (.failed (decide (0 < s.sent)))))
  | .packet _ => (v, some (.sending false (.failed (decide (0 < s.sent)))))

/-- **`send_all` goes on.** -/
def transmit (w : Wire) (stopping : Bool) (origin : Origin) (s : Sending) (late : Bool)
    (answer : SendAnswer) : Option (Wire × Option Request) :=
  let goto (stage : SendStage) : Wire × Option Request :=
    ({ w with current := some ⟨origin, .sending { s with stage := stage }⟩ }, none)
  match s.stage with
  | .check =>
    if s.data.length ≤ s.sent then some (w.complete origin s.data)
    else if stopping || late then some (goto .failed)
    else some (goto .send)
  | .send =>
    match answer with
    | .accepted n =>
      if n = 0 then some (goto .failed)
      else if s.data.length < s.sent + n then none
      else
        let w := { w with accepted := w.accepted ++ (s.data.drop s.sent).take n }
        if s.sent + n = s.data.length then some (w.complete origin s.data)
        else some ({ w with current := some ⟨origin, .sending ⟨s.data, s.sent + n, .check⟩⟩ }, none)
    | .interrupted => some (goto .check)
    | .blocked => some (goto .poll)
    | .error => some (goto .failed)
    | _ => none
  | .poll =>
    match answer with
    | .writable => some (goto .check)
    | .notWritable => some (goto .failed)
    | _ => none
  | .failed => some (w.abandon origin s)

/-- **`send_packet_locked`**, up to `send_all`. A hello that cannot be
serialized is -1, or ends the worker. -/
def serialize (codec : Codec) (w : Wire) (c : Connection) (origin : Origin) :
    Option (Wire × Option Request) :=
  let begin (data : Bytes) : Wire × Option Request :=
    ({ w with current := some ⟨origin, .sending ⟨data, 0, .check⟩⟩ }, none)
  let refuse (result : SendResult) : Wire := w.finish ⟨origin, [], 0, result⟩
  let send (packet : Json) : Option (Wire × Option Request) :=
    match c.writer with
    | .writing _ =>
      match frame codec.dump packet with
      | .tooLarge => some (refuse (.returned (-1)), some (.sending false .refused))
      | .throws => some (refuse .threw, some (.sending false .refused))
      | .record data => some (begin data)
    | _ => none
  match origin with
  | .preface => none
  | .hello =>
    match frame codec.dump (helloPacket codec.myDeviceId) with
    | .tooLarge =>
      some ({ refuse (.returned (-1)) with worker := Worker.greeted false w.worker }, none)
    | .throws => some ({ refuse .threw with worker := .ended }, none)
    | .record data => some (begin data)
  | .reply packet => send packet
  | .packet packet => send packet

/-! ## The worker -/

/-- **The worker goes on**, where it does not wait for input or for
`handle_record`. -/
def work (w : Wire) (c : Connection) : Option (Wire × Option Request) :=
  let goto (worker : Worker) : Wire × Option Request := ({ w with worker := worker }, none)
  match w.worker with
  | .preface =>
    if !c.writer.isFree then none
    else if c.stopping then
      some ({ w.finish ⟨.preface, [], 0, .returned (-1)⟩ with worker := .ended }, none)
    else if w.localPrefaceSent then
      some ({ w.finish ⟨.preface, [], 0, .returned 0⟩ with worker := .loop }, none)
    else some ({ w with current := some ⟨.preface, .sending ⟨prefaceBytes, 0, .check⟩⟩ }, none)
  | .loop => if c.stopping then some (goto .ended) else some (goto .receive)
  | .consume [] =>
    if w.parser.prefaceComplete && !c.stopping then some (goto (.accept .chunk))
    else some (goto .loop)
  | .consume input =>
    match w.parser.iterate RecordParser.collect [] input with
    | .next parser [] rest => some ({ w with parser := parser, worker := .consume rest }, none)
    | .next parser (payload :: _) rest =>
      some ({ w with
        parser := parser
        worker := .accept (.record payload rest)
        records := w.records ++ [payload] }, none)
    | .exit parser _ _ => some ({ w with parser := parser, worker := .disconnect }, none)
  | .accept k =>
    if w.peerPrefaceReceived then some (goto (.accepted k))
    else some ({ w with peerPrefaceReceived := true, worker := .greet k }, none)
  | .greet k =>
    if !c.writer.isFree then none
    else if c.stopping || !w.localPrefaceSent then
      some ({ w.finish ⟨.hello, [], 0, .returned (-1)⟩ with worker := .ungreeted k }, none)
    else some ({ w with current := some ⟨.hello, .locked⟩ }, none)
  | .ungreeted k => some ({ w with worker := .accepted k }, some .requestDisconnect)
  | .accepted .chunk => some (goto .loop)
  | .accepted (.record payload rest) =>
    if c.stopping then
      some ({ w with parser := { w.parser with failed := true }, worker := .consume [] }, none)
    else some ({ w with worker := .handle rest }, some (.receive payload))
  | .disconnect => some ({ w with worker := .loop }, some .requestDisconnect)
  | _ => none

/-- `wait_for_socket` and `::recv`, and the beginning of `consume`. -/
def receive (w : Wire) : RecvAnswer → Option Wire
  | .again => some { w with worker := .loop }
  | .failed => some { w with worker := .disconnect }
  | .eof => some { w with parser := w.parser.finish.1, worker := .disconnect }
  | .data chunk =>
    if chunk = [] ∨ 4096 < chunk.length then none
    else if w.parser.failed || w.parser.finished then
      some { w with
        parser := { w.parser with failed := true }
        received := w.received ++ chunk
        worker := .disconnect }
    else some { w with received := w.received ++ chunk, worker := .consume chunk }

/-- **`handle_record` goes on**: what its step means for the wire. -/
def handle (codec : Codec) (w : Wire) (c : Connection) (h : Handling) (rest : Bytes) :
    HandlingAction → Wire
  | .returns =>
    if h.returnValue c then { w with worker := .consume rest }
    else { w with parser := { w.parser with failed := true }, worker := .consume [] }
  | .emit event => { w with delivered := w.delivered ++ [event.text] }
  | .sendPong => w.beginSend c (.reply (pongPacket codec.myDeviceId))
  | _ => w

/-- **What happens on the wire**, and the event of the node that goes with
it. `current` is what `authorization_is_current` returns. -/
def step (codec : Codec) (c : Connection) (current : Bool → AuthorizedPeer → Bool) (w : Wire) :
    WireEvent → Option (Wire × Option Request)
  | .start spawned =>
    if w.started || c.released then none
    else some ({ w with started := true, worker := if spawned then .preface else .ended }, none)
  | .work =>
    if w.current.any Outgoing.byWorker then none
    else
      match w.worker, w.current with
      | .preface, some _ => none
      | .greet _, some _ => none
      | _, _ => w.work c
  | .receive answer =>
    match w.worker with
    | .receive => (w.receive answer).map (fun v => (v, none))
    | _ => none
  | .handle late fails =>
    match w.worker, c.handling with
    | .handle rest, some h =>
      let action := (h.step codec.toHost c late (current fails)).1
      if w.current.any Outgoing.byWorker || (action = .sendPong && w.current.isSome) then none
      else some (w.handle codec c h rest action, some (.handle late fails))
    | _, _ => none
  | .sendPacket packet =>
    if w.current.isSome then none
    else some (w.beginSend c (.packet packet), some (.send packet))
  | .validate fails =>
    match w.current, c.writer with
    | some ⟨origin, .locked⟩, .checking _ =>
      some (if c.authorizedPeer.any (current fails) then w
        else w.finish ⟨origin, [], 0, .returned (-1)⟩, some (.sending fails .refused))
    | _, _ => none
  | .serialize =>
    match w.current with
    | some ⟨origin, .locked⟩ => w.serialize codec c origin
    | _ => none
  | .transmit late answer =>
    match w.current with
    | some ⟨origin, .sending s⟩ => w.transmit c.stopping origin s late answer
    | _ => none

end Wire

/-! ## A node with its wires -/

/-- **A process with its sessions and their wires.** -/
structure Wired where
  node : Node
  wire : ℕ → Wire

/-- What may happen next. -/
inductive WiredEvent
  | node (e : NodeEvent)
  | wire (session : ℕ) (e : WireEvent)

namespace Wired

/-- A new process. -/
def initial : Wired := ⟨.initial, fun _ => .initial⟩

/-- **The events of the node that the wires leave to others.** Who takes
`write_mutex_` waits for the call that holds it to send, and a worker keeps
its connection. -/
def admits (w : Wired) : NodeEvent → Bool
  | .advance call _ _ =>
    match call.stage with
    | .entered _ => (w.wire call.session).current.isNone
    | _ => true
  | .cleanup session => (w.wire session).current.isNone
  | .release session =>
    (w.wire session).current.isNone
      && ((w.wire session).worker = .idle || (w.wire session).worker = .ended)
  | .receive _ _ => false
  | .handle _ _ _ => false
  | .send _ _ => false
  | .sending _ _ _ => false
  | _ => true

/-- The node does what a wire asked for. -/
def request (codec : Codec) (n : Node) (session : ℕ) : Option Request → Option Node
  | none => some n
  | some r => n.step codec.toHost (r.event session)

/-- **What happens at an event**, or `none` where it cannot happen. -/
def step (codec : Codec) (w : Wired) : WiredEvent → Option Wired
  | .node e =>
    if w.admits e then (w.node.step codec.toHost e).map (fun n => { w with node := n }) else none
  | .wire session e =>
    (w.node.connection session).bind (fun c =>
      ((w.wire session).step codec c
        (SessionAuthentication.authorizationIsCurrent w.node.database) e).bind (fun r =>
          (request codec w.node session r.2).map
            (fun n => ⟨n, Function.update w.wire session r.1⟩)))

end Wired

end Gasoline
