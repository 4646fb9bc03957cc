import Gasoline.Runs
import Gasoline.Session

/-!
# A process and its steps

The state of a process with its sessions, and what may happen next. Calls
that `activate_authorized_peer` has not locked yet, and calls that are about
to disconnect the session they replaced, are kept aside; the locked part of
a call is with the connection.

`finalize_disconnect` is its `request_disconnect`, which anyone may call,
and then `cleanup`, which needs that it was called. Condition variables wake
a thread only where its predicate holds; whether it was notified is left
open.
-/

namespace Gasoline

/-- How far a call of `complete_authentication_after_verified_identity` has
come that holds no lock. -/
inductive CallStage
  /-- Behind the first checks of `authorize_verified_identity`. -/
  | identified (identity : VerifiedPeerIdentity)
  /-- The peer is authorized. -/
  | authorized (peer : AuthorizedPeer)
  /-- Behind the first checks of `activate_authorized_peer`. -/
  | entered (peer : AuthorizedPeer)
  deriving DecidableEq

/-- A call that holds no lock. -/
structure Call where
  session : ℕ
  deviceName : Bytes
  deviceType : Bytes
  stage : CallStage
  deriving DecidableEq

/-- A call that is about to disconnect the session it replaced. -/
structure Replacement where
  session : ℕ
  replaced : ℕ
  deriving DecidableEq, Repr

/-- **A process with its sessions.** The `SessionAuthentication` uses the
instance 0 of the trust store. -/
structure Node where
  stores : TrustStores
  live : LiveMap
  forceScan : Bool
  /-- `stopping_` of the `SessionAuthentication`. -/
  authStopping : Bool
  monitor : Monitor
  lastToken : Option ChangeToken
  registry : List Device
  /-- The sessions the connection manager knows. -/
  manager : Finset ℕ
  connection : ℕ → Option Connection
  /-- `next_session_id`. -/
  nextSession : ℕ
  calls : List Call
  replacing : List Replacement
  events : List MessageEvent

/-- What may happen next. -/
inductive NodeEvent
  /-- A call of a trust store. -/
  | store (e : StoreEvent)
  /-- `Connection::create`. -/
  | create (outgoing : Bool)
  /-- A verified identity is handed to a connection. -/
  | authenticate (session : ℕ) (identity : VerifiedPeerIdentity) (deviceName deviceType : Bytes)
      (late : Bool)
  /-- A call without locks goes on. -/
  | advance (call : Call) (late fails : Bool)
  /-- The locked part of an activation goes on. -/
  | activate (session : ℕ) (fails : Bool)
  /-- The session that was replaced is disconnected. -/
  | replace (r : Replacement)
  /-- The monitor goes on. -/
  | monitor (fails : Bool)
  /-- The destructor of the `SessionAuthentication`. -/
  | stopAuthentication
  | requestDisconnect (session : ℕ)
  /-- `finalize_disconnect` goes on. -/
  | cleanup (session : ℕ)
  /-- The last reference to the connection goes. -/
  | release (session : ℕ)
  /-- `ConnectionManager::find`. -/
  | find (session : ℕ)
  /-- A record arrives. -/
  | receive (session : ℕ) (payload : Bytes)
  /-- `handle_record` goes on. -/
  | handle (session : ℕ) (late fails : Bool)
  /-- `send_packet` is called and has the lock. -/
  | send (session : ℕ) (packet : Json)
  /-- `send_packet` goes on. -/
  | sending (session : ℕ) (fails : Bool) (outcome : SendOutcome)
  /-- `EventBus::consume_events`. -/
  | consumeEvents

namespace Node

/-- A new process. -/
def initial : Node where
  stores := .initial
  live := ∅
  forceScan := false
  authStopping := false
  monitor := .top
  lastToken := none
  registry := []
  manager := ∅
  connection := fun _ => none
  nextSession := 1
  calls := []
  replacing := []
  events := []

/-- The database. -/
abbrev database (n : Node) : Database := n.stores.database

/-- `change_token`, of the store the monitor uses. -/
def token (n : Node) : ChangeToken := n.stores.changeToken 0

/-- A connection changes. -/
def setConnection (n : Node) (session : ℕ) (c : Connection) : Node :=
  { n with connection := Function.update n.connection session (some c) }

/-- The session is there and not stopping. -/
def holds (n : Node) (session : ℕ) : Bool :=
  match n.connection session with
  | some c => !c.released && !c.stopping
  | none => false

/-- **`request_disconnect` through a weak pointer**: nothing happens where
the last reference is gone. -/
def disconnect (n : Node) (session : ℕ) : Option Node :=
  match n.connection session with
  | some c => if c.released then some n else c.requestDisconnect.map (n.setConnection session)
  | none => some n

/-- `authorize_verified_identity`, its first checks. -/
def authenticate (n : Node) (c : Connection) (session : ℕ) (identity : VerifiedPeerIdentity)
    (deviceName deviceType : Bytes) (late : Bool) : Node :=
  if c.stopping || c.ready || late then n
  else { n with calls := ⟨session, deviceName, deviceType, .identified identity⟩ :: n.calls }

/-- A call without locks goes on, or ends. -/
def advance (host : Host) (n : Node) (c : Connection) (call : Call) (late fails : Bool) :
    Option Node :=
  let rest := { n with calls := n.calls.erase call }
  let goto (stage : CallStage) : Node :=
    { rest with calls := { call with stage := stage } :: rest.calls }
  match call.stage with
  | .identified identity =>
    if fails then some rest
    else
      match SessionAuthentication.authorizeVerifiedPeer n.database identity with
      | .ok (some peer) =>
        if peer.deviceId == host.myDeviceId then some rest else some (goto (.authorized peer))
      | _ => some rest
  | .authorized peer =>
    if c.stopping || c.ready || late then some rest else some (goto (.entered peer))
  | .entered peer =>
    if !c.writer.isFree then none
    else if c.stopping || c.ready || late then some rest
    else some (rest.setConnection call.session
      { c with writer := .activation ⟨peer, call.deviceName, call.deviceType, .locked⟩ })

/-- **The locked part of `activate_authorized_peer`.** -/
def activate (host : Host) (n : Node) (c : Connection) (session : ℕ) (a : Activation)
    (fails : Bool) : Node :=
  let unlocked := n.setConnection session { c with writer := .free }
  let goto (stage : ActivationStage) : Connection :=
    { c with writer := .activation { a with stage := stage } }
  match a.stage with
  | .locked =>
    if SessionAuthentication.authorizationIsCurrent n.database fails a.peer then
      n.setConnection session (goto .validated)
    else unlocked
  | .validated =>
    if n.authStopping || (n.live.lookup session).isSome then unlocked
    else
      { n.setConnection session (goto .registered) with
        live := n.live.insert session a.peer.live
        forceScan := true }
  | .registered =>
    match DeviceRegistry.publishAuthenticatedDevice n.holds n.registry
        (c.device host.myDeviceId session a) a.peer with
    | none => n.setConnection session (goto .rejected)
    | some (devices, replaced) =>
      { n.setConnection session (goto (.published (replaced.map Device.sessionId))) with
        registry := devices }
  | .rejected => { unlocked with live := n.live.erase session }
  | .published replaced =>
    n.setConnection session { goto (.assigned replaced) with authorizedPeer := some a.peer }
  | .assigned replaced =>
    { n.setConnection session { c with writer := .free, ready := true } with
      replacing := match replaced with
        | some victim => ⟨session, victim⟩ :: n.replacing
        | none => n.replacing }

/-- **`monitor_live_authorizations`.** -/
def runMonitor (n : Node) (fails : Bool) : Option Node :=
  match n.monitor with
  | .top => some { n with monitor := .waiting !(n.live.entries.isEmpty && !n.forceScan) }
  | .waiting timed =>
    if timed || n.authStopping || n.forceScan || !n.live.entries.isEmpty then
      if n.authStopping then some { n with monitor := .stopped }
      else some { n with monitor := .woken n.forceScan, forceScan := false }
    else none
  | .woken forceScan =>
    if fails then some { n with monitor := .snapshot, lastToken := none }
    else if forceScan || n.lastToken ≠ some n.token then
      some { n with monitor := .snapshot, lastToken := some n.token }
    else some { n with monitor := .top, lastToken := some n.token }
  | .snapshot => some { n with monitor := .scanning n.live.entries }
  | .scanning [] => some { n with monitor := .top }
  | .scanning (entry :: todo) =>
    if SessionAuthentication.stored n.database fails entry.2.uuid entry.2.publicKey
        entry.2.revision entry.2.permissions then
      some { n with monitor := .scanning todo }
    else some { n with monitor := .stale entry todo }
  | .stale entry todo =>
    match n.live.lookup entry.1 with
    | none => some { n with monitor := .scanning todo }
    | some live =>
      if live.revision ≠ entry.2.revision ∨ live.uuid ≠ entry.2.uuid
          ∨ live.publicKey ≠ entry.2.publicKey then
        some { n with monitor := .scanning todo }
      else some { n with monitor := .invoking entry.1 todo, live := n.live.erase entry.1 }
  | .invoking session todo =>
    (n.disconnect session).map (fun m => { m with monitor := .scanning todo })
  | .stopped => none

/-- **`finalize_disconnect`**, behind its `request_disconnect`. -/
def cleanup (n : Node) (c : Connection) (session : ℕ) : Option Node :=
  match c.writer with
  | .free =>
    if c.stopping && !c.cleanedUp then
      some (n.setConnection session { c with cleanedUp := true, writer := .cleanup .unregisterLive })
    else none
  | .cleanup .unregisterLive =>
    some { n.setConnection session { c with writer := .cleanup .removeDevice } with
      live := n.live.erase session }
  | .cleanup .removeDevice =>
    some { n.setConnection session { c with writer := .cleanup .unregisterConnection } with
      registry := DeviceRegistry.removeDevice n.registry session }
  | .cleanup .unregisterConnection =>
    some { n.setConnection session { c with writer := .free } with
      manager := n.manager.erase session }
  | _ => none

/-- `handle_record` does what its step asks for. -/
def perform (host : Host) (n : Node) (c : Connection) (session : ℕ)
    (x : HandlingAction × Handling) : Option Node :=
  (c.perform host x).map (fun c' => { n.setConnection session c' with
    events := match x.1 with
      | .emit event => EventBus.emitMessage n.events event
      | _ => n.events })

/-- **What happens at an event**, or `none` where it cannot happen. -/
def step (host : Host) (n : Node) : NodeEvent → Option Node
  | .store e => (n.stores.step e).map (fun stores => { n with stores := stores })
  | .create outgoing =>
    some { n.setConnection n.nextSession (.create outgoing) with
      manager := insert n.nextSession n.manager
      nextSession := n.nextSession + 1 }
  | .authenticate session identity deviceName deviceType late =>
    (n.connection session).bind (fun c =>
      if c.released then none
      else some (n.authenticate c session identity deviceName deviceType late))
  | .advance call late fails =>
    (n.connection call.session).bind (fun c =>
      if call ∈ n.calls then n.advance host c call late fails else none)
  | .activate session fails =>
    (n.connection session).bind (fun c =>
      match c.writer with
      | .activation a => some (n.activate host c session a fails)
      | _ => none)
  | .replace r =>
    if r ∈ n.replacing then
      (n.disconnect r.replaced).map (fun m => { m with replacing := n.replacing.erase r })
    else none
  | .monitor fails => n.runMonitor fails
  | .stopAuthentication => some { n with authStopping := true }
  | .requestDisconnect session =>
    (n.connection session).bind (fun c => c.requestDisconnect.map (n.setConnection session))
  | .cleanup session => (n.connection session).bind (fun c => n.cleanup c session)
  | .release session =>
    (n.connection session).bind (fun c =>
      if !c.released && c.writer.isFree && c.handling.isNone
          && n.calls.all (fun call => call.session != session)
          && n.replacing.all (fun r => r.session != session) then
        some (n.setConnection session { c with released := true })
      else none)
  | .find session =>
    if (n.connection session).any Connection.released then
      some { n with manager := n.manager.erase session }
    else some n
  | .receive session payload =>
    (n.connection session).bind (fun c =>
      if c.handling.isNone && !c.released then
        some (n.setConnection session
          { c with handling := some ⟨payload, none, .loadStopping⟩ })
      else none)
  | .handle session late fails =>
    (n.connection session).bind (fun c => c.handling.bind (fun h =>
      n.perform host c session (h.step host c late
        (SessionAuthentication.authorizationIsCurrent n.database fails))))
  | .send session packet =>
    (n.connection session).bind (fun c =>
      if c.writer.isFree && !c.released then some (n.setConnection session (c.beginSend packet))
      else none)
  | .sending session fails outcome =>
    (n.connection session).bind (fun c =>
      (c.sending n.database fails outcome).map (n.setConnection session))
  | .consumeEvents => some { n with events := [] }

end Node

end Gasoline
