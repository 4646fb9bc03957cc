import Gasoline.UuidText
import Gasoline.TrustStore

/-!
# Packets

The JSON packets of a session, the check that `parse_packet` makes of one,
and where `PacketRouter::route` sends it. The JSON library itself is not
modelled: `parse` is what it makes of a text, and here is only what the
source asks of a value it has parsed.

The handlers act on the session and on the event bus. What they ask for is
returned (`Routed`), so that routing is a function.
-/

namespace Gasoline

/-- A JSON value. A number is its text. -/
inductive Json
  | null
  | boolean (value : Bool)
  | number (value : Bytes)
  | string (value : Bytes)
  | array (items : List Json)
  | object (members : List (Bytes × Json))

namespace Json

/-- `is_object`. -/
def isObject : Json → Bool
  | .object _ => true
  | _ => false

/-- `find`, and with it `contains`: a value that is no object has no
members. -/
def find (key : Bytes) : Json → Option Json
  | .object members => (members.find? (fun m => m.1 == key)).map Prod.snd
  | _ => none

/-- The text of a string value. -/
def text : Json → Option Bytes
  | .string value => some value
  | _ => none

end Json

/-- `Packet`. -/
structure Packet where
  type : Bytes
  deviceId : Bytes
  payload : Json

/-- `parse_packet`, of the value the JSON library parsed. A missing payload
is null. -/
def parsePacket (parse : Bytes → Except String Json) (data : Bytes) : Except String Packet := do
  let j ← parse data
  if !j.isObject then .error "packet must be an object"
  match (j.find (ascii "type")).bind Json.text, (j.find (ascii "device_id")).bind Json.text with
  | some type, some deviceId =>
    let payload := j.find (ascii "payload")
    if type == ascii "hello" && !(payload.any Json.isObject) then
      .error "hello payload must be present and an object"
    else return ⟨type, deviceId, payload.getD .null⟩
  | _, _ => .error "packet type and device_id must be present and strings"

theorem bind_text_eq_some {value : Option Json} {text : Bytes} :
    value.bind Json.text = some text ↔ value = some (.string text) := by
  constructor
  · intro h
    obtain ⟨j, rfl, hj⟩ := Option.bind_eq_some_iff.mp h
    cases j with
    | string value => exact congrArg (fun t => some (Json.string t)) (Option.some.inj hj)
    | _ => cases hj
  · rintro rfl
    rfl

/-- **What `parse_packet` takes for a packet.** -/
theorem parsePacket_eq_ok_iff {parse : Bytes → Except String Json} {data : Bytes} {pkt : Packet} :
    parsePacket parse data = .ok pkt
      ↔ ∃ j, parse data = .ok j ∧ j.isObject = true
        ∧ j.find (ascii "type") = some (.string pkt.type)
        ∧ j.find (ascii "device_id") = some (.string pkt.deviceId)
        ∧ (pkt.type = ascii "hello" → (j.find (ascii "payload")).any Json.isObject = true)
        ∧ pkt.payload = (j.find (ascii "payload")).getD .null := by
  unfold parsePacket
  cases hparse : parse data with
  | error message => simp [bind, Except.bind]
  | ok j =>
    simp only [bind, Except.bind, ← bind_text_eq_some, Except.ok.injEq, exists_eq_left']
    cases hobject : j.isObject with
    | false => simp
    | true =>
      simp only [Bool.not_true, Bool.false_eq_true, ↓reduceIte, true_and, pure, Except.pure]
      cases htype : (j.find (ascii "type")).bind Json.text with
      | none => simp
      | some type =>
        cases hid : (j.find (ascii "device_id")).bind Json.text with
        | none => simp
        | some deviceId =>
          simp only [Option.some.injEq]
          split
          · rename_i hbad
            simp only [Bool.and_eq_true, beq_iff_eq, Bool.not_eq_true'] at hbad
            refine iff_of_false (by simp) ?_
            rintro ⟨rfl, -, hhello, -⟩
            rw [hhello hbad.1] at hbad
            cases hbad.2
          · rename_i hgood
            simp only [Bool.and_eq_true, beq_iff_eq, Bool.not_eq_true', not_and,
              Bool.not_eq_false] at hgood
            constructor
            · intro h
              cases h
              exact ⟨rfl, rfl, hgood, rfl⟩
            · rintro ⟨rfl, rfl, -, hpayload⟩
              rw [← hpayload]

/-- What `parse_packet` makes of a packet that is no hello. -/
theorem parsePacket_of_parsed {parse : Bytes → Except String Json} {data : Bytes} {packet : Json}
    {type deviceId : Bytes} (hparse : parse data = .ok packet) (hobject : packet.isObject = true)
    (htype : (packet.find (ascii "type")).bind Json.text = some type)
    (hhello : type ≠ ascii "hello")
    (hdevice : (packet.find (ascii "device_id")).bind Json.text = some deviceId) :
    parsePacket parse data
      = .ok ⟨type, deviceId, (packet.find (ascii "payload")).getD .null⟩ := by
  refine parsePacket_eq_ok_iff.mpr ⟨packet, hparse, hobject, bind_text_eq_some.mp htype,
    bind_text_eq_some.mp hdevice, fun h => absurd h hhello, rfl⟩

/-- The types of control records. -/
def isControlType (type : Bytes) : Bool :=
  type == ascii "hello" || type == ascii "ping" || type == ascii "pong"

/-- `is_control_record`, of a packet that was parsed. -/
def Packet.isControlRecord (pkt : Packet) : Bool := isControlType pkt.type

/-- `is_control_record`, of a packet to be sent. -/
def Json.isControlRecord (packet : Json) : Bool :=
  ((packet.find (ascii "type")).bind Json.text).any isControlType

/-- `MAX_CONTROL_RECORD_SIZE`. -/
def maxControlRecordSize : ℕ := 4096

/-! ## Authorized peers -/

/-- `VerifiedPeerIdentity`: a peer that proved possession of its key. -/
structure VerifiedPeerIdentity where
  uuid : TrustUuid
  publicKey : TrustPublicKey
  deriving DecidableEq

/-- **`AuthorizedPeer`.** Only `authorize_verified_peer` makes one, so its
`device_id` is the text of its UUID. -/
structure AuthorizedPeer where
  uuid : TrustUuid
  publicKey : TrustPublicKey
  deviceId : Bytes
  revision : Int64
  permissions : List Bytes
  named : deviceId = trustUuidToString uuid
  deriving DecidableEq

/-! ## Routing -/

/-- `HelloHandler::Action`. -/
inductive HelloAction
  | proceed
  | disconnectCurrent
  | disconnectPeer
  deriving DecidableEq, Repr

/-- `HelloHandler::handle`. -/
def HelloHandler.handle (pkt : Packet) : HelloAction :=
  if pkt.type != ascii "hello" || !pkt.payload.isObject then .disconnectCurrent
  else if ((pkt.payload.find (ascii "device_name")).bind Json.text).isNone
      || ((pkt.payload.find (ascii "device_type")).bind Json.text).isNone then .disconnectCurrent
  else if pkt.deviceId.isEmpty then .disconnectCurrent
  else .proceed

/-- What routing a packet does. -/
inductive Routed
  /-- `PacketRouteAction::Continue`, with nothing else done. -/
  | proceed
  | disconnect
  | disconnectPeer
  /-- `PingHandler`: a pong is sent. -/
  | pong
  /-- `EventBus::emit_message`. -/
  | emit (deviceId text : Bytes)
  /-- An exception of a handler. -/
  | throws
  deriving DecidableEq, Repr

/-- `MessageHandler::handle`: a text that is no string does not convert. -/
def MessageHandler.handle (pkt : Packet) (peer : AuthorizedPeer) : Routed :=
  match pkt.payload.find (ascii "text") with
  | none => .proceed
  | some (.string text) => .emit peer.deviceId text
  | some _ => .throws

/-- **`PacketRouter::route`.** -/
def PacketRouter.route (pkt : Packet) (authenticatedPeer : Option AuthorizedPeer) : Routed :=
  if pkt.type == ascii "hello" then
    match HelloHandler.handle pkt with
    | .disconnectCurrent => .disconnect
    | .disconnectPeer => .disconnectPeer
    | .proceed => .proceed
  else if pkt.type == ascii "ping" then .pong
  else if pkt.type == ascii "pong" then .proceed
  else if pkt.type == ascii "message" then
    match authenticatedPeer with
    | none => .disconnect
    | some peer => MessageHandler.handle pkt peer
  else .proceed

/-- The pong of `PingHandler`. -/
def pongPacket (myDeviceId : Bytes) : Json :=
  .object [(ascii "type", .string (ascii "pong")), (ascii "device_id", .string myDeviceId)]

/-- **Only a message is emitted**, and in the name of the peer that was
authorized. -/
theorem PacketRouter.route_emit {pkt : Packet} {authenticatedPeer : Option AuthorizedPeer}
    {deviceId text : Bytes} (h : route pkt authenticatedPeer = .emit deviceId text) :
    ∃ peer, authenticatedPeer = some peer ∧ deviceId = peer.deviceId
      ∧ pkt.type = ascii "message"
      ∧ pkt.payload.find (ascii "text") = some (.string text) := by
  simp only [route] at h
  split at h
  · split at h <;> cases h
  split at h
  · cases h
  split at h
  · cases h
  split at h
  · rename_i htype
    cases authenticatedPeer with
    | none => cases h
    | some peer =>
      simp only [MessageHandler.handle] at h
      split at h
      · cases h
      · rename_i text' htext
        obtain ⟨rfl, rfl⟩ := Routed.emit.inj h
        exact ⟨peer, rfl, rfl, by simpa using htype, htext⟩
      · cases h
  · cases h

/-- A message is no control record. -/
theorem isControlType_message : isControlType (ascii "message") = false := by decide

end Gasoline
