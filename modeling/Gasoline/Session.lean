import Mathlib.Data.List.AList
import Gasoline.Packet

/-!
# Sessions

A process with its sessions: the trust stores, `SessionAuthentication` with
its live map and its monitor thread, the device registry, the connection
manager, the event bus, and every `Connection`. A step of the system
(`Node.step`) is one block of the source that holds a lock, or one load or
store of an atomic. What a thread does next follows from where it is, and
where it is is part of the state: the monitor is a `Monitor`, the worker of
a connection is at a `Handling` of a record, and what the holder of
`write_mutex_` is doing is its `Writer`.

Activation holds `write_mutex_` and `lifecycle_mutex_` of its connection
throughout its locked part, so `request_disconnect`, which takes
`lifecycle_mutex_`, waits for it. Cleanup and sending hold `write_mutex_`
only.

A connection is known by its session id, also to the weak pointers of the
registry and of the live map: such a pointer can be locked until the last
reference is gone (`released`), and then the destructor runs. Session ids
are not reused. Allocations do not fail. Whether a deadline has passed and
whether the store fails to answer is part of the event.
-/

namespace Gasoline

/-! ## Authentication -/

namespace SessionAuthentication

/-- `authorize_verified_peer`. -/
def authorizeVerifiedPeer (db : Database) (identity : VerifiedPeerIdentity) :
    Except StoreError (Option AuthorizedPeer) := do
  match ← TrustStore.findActiveAuthorization db identity.uuid identity.publicKey with
  | none => return none
  | some authorization =>
    return some {
      uuid := identity.uuid
      publicKey := identity.publicKey
      deviceId := trustUuidToString identity.uuid
      revision := authorization.revision
      permissions := authorization.permissions
      named := rfl }

/-- Whether the store has exactly this authorization. A store that fails to
answer has none. -/
def stored (db : Database) (fails : Bool) (uuid : TrustUuid) (publicKey : TrustPublicKey)
    (revision : Int64) (permissions : List Bytes) : Bool :=
  !fails && match TrustStore.findActiveAuthorization db uuid publicKey with
    | .ok (some current) => current.revision == revision && current.permissions == permissions
    | _ => false

/-- `authorization_is_current`. -/
def authorizationIsCurrent (db : Database) (fails : Bool) (authorization : AuthorizedPeer) : Bool :=
  stored db fails authorization.uuid authorization.publicKey authorization.revision
    authorization.permissions

end SessionAuthentication

/-- `LiveAuthorization`. Its callback disconnects the session it is kept
under. -/
structure LiveAuthorization where
  uuid : TrustUuid
  publicKey : TrustPublicKey
  revision : Int64
  permissions : List Bytes
  deriving DecidableEq

/-- What `register_live_session` stores of a peer. -/
def AuthorizedPeer.live (peer : AuthorizedPeer) : LiveAuthorization :=
  ⟨peer.uuid, peer.publicKey, peer.revision, peer.permissions⟩

/-- `live_authorizations_`. -/
abbrev LiveMap := AList (fun _ : ℕ => LiveAuthorization)

/-- An entry of a snapshot of the live map. -/
abbrev LiveEntry := Σ _ : ℕ, LiveAuthorization

/-- **Where the monitor is** in `monitor_live_authorizations`. -/
inductive Monitor
  /-- At the top of its loop. -/
  | top
  /-- In `wait`, or in `wait_for`. -/
  | waiting (timed : Bool)
  /-- Behind the wait, with what it found in `force_scan_`. -/
  | woken (forceScan : Bool)
  /-- About to take a snapshot. -/
  | snapshot
  | scanning (todo : List LiveEntry)
  /-- The entry is not current; about to take its callback. -/
  | stale (entry : LiveEntry) (todo : List LiveEntry)
  /-- About to run the callback of the session. -/
  | invoking (session : ℕ) (todo : List LiveEntry)
  | stopped
  deriving DecidableEq

/-! ## The device registry -/

/-- `DeviceState`. -/
inductive DeviceState
  | connecting
  | handshakeDone
  | authenticated
  | ready
  | disconnected
  deriving DecidableEq, Repr

/-- `Device`, without its `socket_fd`, which is diagnostic. Its `connection`
is the one of its session id. -/
structure Device where
  deviceId : Bytes
  deviceName : Bytes
  deviceType : Bytes
  sessionId : ℕ
  preferredConnection : Bool
  state : DeviceState
  publicKey : TrustPublicKey
  trustRevision : Int64
  permissions : List Bytes
  deriving DecidableEq

namespace DeviceRegistry

variable (holds : ℕ → Bool)

/-- The loop of `publish_authenticated_device`: the devices there are then,
and the one that was replaced; `none` where the incumbent is kept. `holds`
says of a session that it is there and not stopping. -/
def arbitrate (published : Device) : List Device → Option (List Device × Option Device)
  | [] => some ([published], none)
  | existing :: rest =>
    if existing.deviceId ≠ published.deviceId then
      (arbitrate published rest).map (fun r => (existing :: r.1, r.2))
    else if holds existing.sessionId
        && (existing.preferredConnection || !published.preferredConnection) then none
    else some (published :: rest, some existing)

/-- **`publish_authenticated_device`.** -/
def publishAuthenticatedDevice (devices : List Device) (device : Device)
    (authorization : AuthorizedPeer) : Option (List Device × Option Device) :=
  if !holds device.sessionId || device.deviceId ≠ authorization.deviceId
      || device.publicKey ≠ authorization.publicKey
      || device.trustRevision ≠ authorization.revision
      || device.permissions ≠ authorization.permissions
      || device.state ≠ .authenticated then none
  else arbitrate holds { device with state := .ready } devices

/-- `remove_device`. -/
def removeDevice (devices : List Device) (sessionId : ℕ) : List Device :=
  devices.filter (fun d => d.sessionId ≠ sessionId)

end DeviceRegistry

/-- `MessageEvent`. -/
structure MessageEvent where
  deviceId : Bytes
  text : Bytes
  deriving DecidableEq, Repr

/-- `EventBus::emit_message`, which keeps the last `MAX_STORED_EVENTS`. -/
def EventBus.emitMessage (events : List MessageEvent) (event : MessageEvent) : List MessageEvent :=
  let events := events ++ [event]
  events.drop (events.length - 256)

/-! ## Connections -/

/-- How far the locked part of `activate_authorized_peer` has come. A
replaced device is known by its session. -/
inductive ActivationStage
  | locked
  /-- `authorization_is_current` returned true. -/
  | validated
  /-- The live session is registered. -/
  | registered
  /-- The registry kept its incumbent. -/
  | rejected
  /-- The registry has the device. -/
  | published (replaced : Option ℕ)
  /-- `authorized_peer_` is set. -/
  | assigned (replaced : Option ℕ)
  deriving DecidableEq, Repr

/-- The locked part of `activate_authorized_peer`. -/
structure Activation where
  peer : AuthorizedPeer
  deviceName : Bytes
  deviceType : Bytes
  stage : ActivationStage
  deriving DecidableEq

/-- How far `finalize_disconnect` has come, once `cleaned_up_` is set: what
it does next. -/
inductive CleanupStage
  | unregisterLive
  | removeDevice
  | unregisterConnection
  deriving DecidableEq, Repr

/-- **What the holder of `write_mutex_` is doing.** -/
inductive Writer
  | free
  | activation (a : Activation)
  | cleanup (stage : CleanupStage)
  /-- `send_packet`, before `authorization_is_current`. -/
  | checking (packet : Json)
  /-- `send_packet_locked`. -/
  | writing (packet : Json)

namespace Writer

/-- No one holds the lock. -/
def isFree : Writer → Bool
  | .free => true
  | _ => false

/-- `lifecycle_mutex_` is held too. -/
def isActivation : Writer → Bool
  | .activation _ => true
  | _ => false

end Writer

/-- How far `handle_record` has come with a record: what it does next. -/
inductive HandlingStage
  | loadStopping
  /-- `!ready_ && now >= handshake_deadline_`. -/
  | checkDeadline
  /-- `!ready_ && !peer_hello_received_ && size > MAX_CONTROL_RECORD_SIZE`. -/
  | checkSize
  | parse
  /-- `!ready_`, of a packet. -/
  | decide (pkt : Packet)
  /-- It was not ready. -/
  | unverified (pkt : Packet)
  /-- It was ready. -/
  | admitted (pkt : Packet)
  | validate (pkt : Packet) (peer : AuthorizedPeer)
  | route (pkt : Packet) (peer : AuthorizedPeer)
  /-- `PingHandler`, before `send_packet`. -/
  | pong
  /-- Before `request_disconnect`. -/
  | disconnect
  /-- `return false`, behind `request_disconnect`. -/
  | stopped
  /-- `return !stopping_`, behind a hello that was accepted. -/
  | greeted
  /-- `return !stopping_`, behind a packet that was routed. -/
  | routed

/-- **A record that `handle_record` is at.** -/
structure Handling where
  payload : Bytes
  /-- What `ready_` was when it was last loaded. -/
  observed : Option Bool
  stage : HandlingStage

/-- `Connection`. -/
structure Connection where
  outgoing : Bool
  stopping : Bool
  cleanedUp : Bool
  ready : Bool
  /-- The last reference is gone. -/
  released : Bool
  writer : Writer
  authorizedPeer : Option AuthorizedPeer
  peerHelloReceived : Bool
  /-- The record the worker is at. -/
  handling : Option Handling
  /-- The packets that `send_packet` wrote, in whole or in part. -/
  written : List Json

namespace Connection

/-- A new connection. -/
def create (outgoing : Bool) : Connection where
  outgoing := outgoing
  stopping := false
  cleanedUp := false
  ready := false
  released := false
  writer := .free
  authorizedPeer := none
  peerHelloReceived := false
  handling := none
  written := []

/-- `finalize_disconnect` has completed. -/
def finalized (c : Connection) : Bool :=
  c.cleanedUp && match c.writer with
    | .cleanup _ => false
    | _ => true

/-- `request_disconnect`, which waits while `lifecycle_mutex_` is held. -/
def requestDisconnect (c : Connection) : Option Connection :=
  if c.writer.isActivation then none else some { c with stopping := true }

/-- The beginning of `send_packet`, once it has `write_mutex_`. -/
def beginSend (c : Connection) (packet : Json) : Connection :=
  if c.stopping || !c.ready || c.authorizedPeer.isNone then c
  else if packet.isControlRecord then { c with writer := .writing packet }
  else { c with writer := .checking packet }

/-- The device that `activate_authorized_peer` publishes. -/
def device (c : Connection) (myDeviceId : Bytes) (session : ℕ) (a : Activation) : Device where
  deviceId := a.peer.deviceId
  deviceName := a.deviceName
  deviceType := a.deviceType
  sessionId := session
  preferredConnection := decide (myDeviceId < a.peer.deviceId) == c.outgoing
  state := .authenticated
  publicKey := a.peer.publicKey
  trustRevision := a.peer.revision
  permissions := a.peer.permissions

end Connection

/-! ## Record handling -/

/-- What the source takes from outside a session. -/
structure Host where
  /-- `get_my_device_id`. -/
  myDeviceId : Bytes
  /-- `nlohmann::json::parse`. -/
  parse : Bytes → Except String Json

/-- What a step of `handle_record` does, but for where it goes. -/
inductive HandlingAction
  | nothing
  /-- `peer_hello_received_ = true`. -/
  | acceptHello
  | requestDisconnect
  | emit (event : MessageEvent)
  | sendPong
  /-- `handle_record` returns. -/
  | returns
  deriving DecidableEq

/-- **A step of `handle_record`**: what it does, and what it does next.
`late` is whether the handshake deadline has passed, and `current` what
`authorization_is_current` would return. -/
def Handling.step (host : Host) (c : Connection) (late : Bool) (current : AuthorizedPeer → Bool)
    (h : Handling) : HandlingAction × Handling :=
  let goto (stage : HandlingStage) : HandlingAction × Handling := (.nothing, { h with stage := stage })
  let loaded (stage : HandlingStage) : HandlingAction × Handling :=
    (.nothing, { h with observed := some c.ready, stage := stage })
  match h.stage with
  | .loadStopping => if c.stopping then (.returns, h) else goto .checkDeadline
  | .checkDeadline => if !c.ready && late then loaded .disconnect else loaded .checkSize
  | .checkSize =>
    if !c.ready && !c.peerHelloReceived && decide (maxControlRecordSize < h.payload.length) then
      loaded .disconnect
    else loaded .parse
  | .parse =>
    match parsePacket host.parse h.payload with
    | .error _ => goto .disconnect
    | .ok pkt =>
      if pkt.isControlRecord && decide (maxControlRecordSize < h.payload.length) then goto .disconnect
      else goto (.decide pkt)
  | .decide pkt => if c.ready then loaded (.admitted pkt) else loaded (.unverified pkt)
  | .unverified pkt =>
    if pkt.type != ascii "hello" || c.peerHelloReceived then goto .disconnect
    else
      match PacketRouter.route pkt none with
      | .disconnect => goto .disconnect
      | .throws => goto .disconnect
      | _ => (.acceptHello, { h with stage := .greeted })
  | .admitted pkt =>
    match c.authorizedPeer with
    | none => goto .disconnect
    | some peer =>
      if pkt.type == ascii "hello" then goto .disconnect
      else if pkt.isControlRecord then goto (.route pkt peer)
      else goto (.validate pkt peer)
  | .validate pkt peer => if current peer then goto (.route pkt peer) else goto .disconnect
  | .route pkt peer =>
    match PacketRouter.route pkt (some peer) with
    | .disconnect => goto .disconnect
    | .throws => goto .disconnect
    | .emit deviceId text => (.emit ⟨deviceId, text⟩, { h with stage := .routed })
    | .pong => goto .pong
    | .proceed => goto .routed
    | .disconnectPeer => goto .routed
  | .pong => (.sendPong, { h with stage := .routed })
  | .disconnect => (.requestDisconnect, { h with stage := .stopped })
  | .stopped => (.returns, h)
  | .greeted => (.returns, h)
  | .routed => (.returns, h)

namespace Connection

/-- `handle_record` does what its step asks for, as far as the connection is
concerned. -/
def perform (host : Host) (c : Connection) : HandlingAction × Handling → Option Connection
  | (.nothing, h) => some { c with handling := some h }
  | (.acceptHello, h) => some { c with peerHelloReceived := true, handling := some h }
  | (.requestDisconnect, h) => c.requestDisconnect.map (fun c => { c with handling := some h })
  | (.emit _, h) => some { c with handling := some h }
  | (.sendPong, h) =>
    if c.writer.isFree then
      some { c.beginSend (pongPacket host.myDeviceId) with handling := some h }
    else none
  | (.returns, _) => some { c with handling := none }

end Connection

/-- What `send_packet_locked` comes to. -/
inductive SendOutcome
  /-- The packet cannot be serialized, or is too long. -/
  | refused
  /-- `send_all` failed, and `started` is whether any byte was sent before. -/
  | failed (started : Bool)
  | sent
  deriving DecidableEq, Repr

/-- **`send_packet` goes on.** A write that fails stops the session. -/
def Connection.sending (c : Connection) (db : Database) (fails : Bool) (outcome : SendOutcome) :
    Option Connection :=
  match c.writer with
  | .checking packet =>
    if c.authorizedPeer.any (SessionAuthentication.authorizationIsCurrent db fails) then
      some { c with writer := .writing packet }
    else some { c with writer := .free, stopping := true }
  | .writing packet =>
    match outcome with
    | .refused => some { c with writer := .free }
    | .failed started =>
      some { c with
        writer := .free
        stopping := true
        written := if started then c.written ++ [packet] else c.written }
    | .sent => some { c with writer := .free, written := c.written ++ [packet] }
  | _ => none

end Gasoline
