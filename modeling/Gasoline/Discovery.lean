import Gasoline.Ownership
import Gasoline.UuidLanguage

/-!
# Discovery

The discovery client is told of devices and dials those it does not know.
A callback comes with the UUID a device advertises, as text, and may come on
any thread: what the client remembers between callbacks is `pending_connections_`,
the texts it is dialling at the moment, under a mutex of its own. A dial is
a detached thread: it connects, sleeps for two seconds, and takes its text
out of the set again.

A process with its sessions (`Node`) goes on beside this, and the registry
of the devices that are ready is part of it. So are the connections that
dials open; which connection was opened for which text is kept in `opened`.

A device is to recognise itself, as the peer that a verified identity names
and as the device that an advertisement names. Both are comparisons of
texts, and they hold exactly if the texts are spelled alike
(`self_recognised_iff`).
-/

namespace Gasoline

/-- The text names the UUID. -/
def Denotes (text : Bytes) (uuid : TrustUuid) : Prop := trustUuidFromString text = .ok uuid

instance (text : Bytes) (uuid : TrustUuid) : Decidable (Denotes text uuid) :=
  inferInstanceAs (Decidable (trustUuidFromString text = .ok uuid))

/-- `is_already_connected`. -/
def DeviceRegistry.isAlreadyConnected (devices : List Device) (deviceId : Bytes) : Bool :=
  devices.any (fun d => d.deviceId == deviceId && d.state != .disconnected)

/-- **`authorize_verified_identity`**, in one piece. -/
def Connection.authorizeVerifiedIdentity (host : Host) (c : Connection) (db : Database) (late : Bool)
    (identity : VerifiedPeerIdentity) : Except StoreError (Option AuthorizedPeer) :=
  if c.stopping || c.ready || late then .ok none
  else do
    match ← SessionAuthentication.authorizeVerifiedPeer db identity with
    | none => return none
    | some authorization =>
      return if authorization.deviceId == host.myDeviceId then none else some authorization

/-- How far the thread of a dial has come. -/
inductive DialStage
  /-- In `connect_to_device`. -/
  | connecting
  /-- In its two seconds, with the connection it opened, if it did. -/
  | waiting (session : Option ℕ)
  deriving DecidableEq, Repr

/-- The thread of a dial. -/
structure Dial where
  deviceId : Bytes
  stage : DialStage
  deriving DecidableEq, Repr

/-- **A process that dials the devices it discovers.** -/
structure Discovery where
  node : Node
  /-- `pending_connections_`. -/
  pending : Finset Bytes
  dials : List Dial
  /-- The connections that dials opened, with the text each was dialled
  for. -/
  opened : List (Bytes × ℕ)

/-- What may happen next. -/
inductive DiscoveryEvent
  /-- The browser calls back. -/
  | discovered (deviceId : Bytes)
  /-- `connect_to_device` creates and starts a connection. -/
  | connected (dial : Dial)
  /-- `connect_to_device` returns without one. -/
  | refused (dial : Dial)
  /-- The two seconds are over. -/
  | expired (dial : Dial)
  /-- Something else happens in the process. -/
  | node (e : NodeEvent)

namespace Discovery

/-- A new process. -/
def initial : Discovery := ⟨.initial, ∅, [], []⟩

/-- **`on_device_discovered`**, up to the thread it starts. -/
def onDeviceDiscovered (host : Host) (s : Discovery) (deviceId : Bytes) : Discovery :=
  if !DiscoveryClient.isValidUuid deviceId then s
  else if deviceId == host.myDeviceId then s
  else if DeviceRegistry.isAlreadyConnected s.node.registry deviceId then s
  else if deviceId ∈ s.pending then s
  else { s with
    pending := insert deviceId s.pending
    dials := ⟨deviceId, .connecting⟩ :: s.dials }

/-- **What happens at an event**, or `none` where it cannot happen. -/
def step (host : Host) (s : Discovery) : DiscoveryEvent → Option Discovery
  | .discovered deviceId => some (s.onDeviceDiscovered host deviceId)
  | .connected dial =>
    if dial ∈ s.dials ∧ dial.stage = .connecting then
      (s.node.step host (.create true)).map (fun node => { s with
        node := node
        dials := { dial with stage := .waiting (some s.node.nextSession) } :: s.dials.erase dial
        opened := (dial.deviceId, s.node.nextSession) :: s.opened })
    else none
  | .refused dial =>
    if dial ∈ s.dials ∧ dial.stage = .connecting then
      some { s with dials := { dial with stage := .waiting none } :: s.dials.erase dial }
    else none
  | .expired dial =>
    if dial ∈ s.dials ∧ dial.stage ≠ .connecting then
      some { s with pending := s.pending.erase dial.deviceId, dials := s.dials.erase dial }
    else none
  | .node e => (s.node.step host e).map (fun node => { s with node := node })

/-! ## Self-recognition -/

/-- A callback starts no dial exactly if it returns early. -/
theorem dials_onDeviceDiscovered_iff (host : Host) (s : Discovery) (deviceId : Bytes) :
    (s.onDeviceDiscovered host deviceId).dials = s.dials
      ↔ DiscoveryClient.isValidUuid deviceId = false ∨ deviceId = host.myDeviceId
        ∨ DeviceRegistry.isAlreadyConnected s.node.registry deviceId = true
        ∨ deviceId ∈ s.pending := by
  unfold onDeviceDiscovered
  cases DiscoveryClient.isValidUuid deviceId with
  | false => simp
  | true =>
    by_cases hself : deviceId = host.myDeviceId
    · simp [hself]
    · cases DeviceRegistry.isAlreadyConnected s.node.registry deviceId with
      | true => simp [hself]
      | false =>
        by_cases hpending : deviceId ∈ s.pending
        · simp [hself, hpending]
        · simp [hself, hpending]

end Discovery

/-! ## What the sessions know of themselves -/

namespace Node

variable {host : Host} {n n' m : Node}

/-- **No peer of the process is named like the process itself.** -/
structure NoSelf (host : Host) (n : Node) : Prop where
  authorized : ∀ call ∈ n.calls, ∀ peer, call.stage = .authorized peer →
    peer.deviceId ≠ host.myDeviceId
  entered : ∀ call ∈ n.calls, ∀ peer, call.stage = .entered peer →
    peer.deviceId ≠ host.myDeviceId
  activation : ∀ session c a, n.connection session = some c → c.writer = .activation a →
    a.peer.deviceId ≠ host.myDeviceId
  peer : ∀ session c peer, n.connection session = some c → c.authorizedPeer = some peer →
    peer.deviceId ≠ host.myDeviceId
  registry : ∀ d ∈ n.registry, d.deviceId ≠ host.myDeviceId

/-- A change of one connection that brings no peer of its own. -/
theorem NoSelf.set (hn : n.NoSelf host) {session : ℕ} {c' : Connection}
    (hm : m.connection = (n.setConnection session c').connection)
    (hactivation : ∀ a, c'.writer = .activation a → a.peer.deviceId ≠ host.myDeviceId)
    (hpeer : ∀ peer, c'.authorizedPeer = some peer → peer.deviceId ≠ host.myDeviceId)
    (hcalls : ∀ call ∈ m.calls, call ∈ n.calls)
    (hregistry : ∀ d ∈ m.registry, d.deviceId ≠ host.myDeviceId) : m.NoSelf host where
  authorized call hcall := hn.authorized call (hcalls call hcall)
  entered call hcall := hn.entered call (hcalls call hcall)
  activation s c a hc ha := by
    rw [hm, setConnection_connection] at hc
    split at hc
    · cases hc
      exact hactivation a ha
    · exact hn.activation s c a hc ha
  peer s c p hc hp := by
    rw [hm, setConnection_connection] at hc
    split at hc
    · cases hc
      exact hpeer p hp
    · exact hn.peer s c p hc hp
  registry := hregistry

theorem NoSelf.congr (hn : n.NoSelf host) (hconnection : m.connection = n.connection)
    (hcalls : m.calls = n.calls) (hregistry : m.registry = n.registry) : m.NoSelf host where
  authorized := hcalls ▸ hn.authorized
  entered := hcalls ▸ hn.entered
  activation s c a hc := hn.activation s c a (hconnection ▸ hc)
  peer s c p hc := hn.peer s c p (hconnection ▸ hc)
  registry := hregistry ▸ hn.registry

/-- A change that leaves the authorization of a connection alone. -/
theorem NoSelf.touch (hn : n.NoSelf host) {session : ℕ} {c c' : Connection}
    (hc : n.connection session = some c) (h : c.Touches c')
    (hm : m.connection = (n.setConnection session c').connection) (hcalls : m.calls = n.calls)
    (hregistry : m.registry = n.registry) : m.NoSelf host := by
  refine hn.set hm (fun a ha => ?_) (fun p hp => ?_) (fun call hcall => hcalls ▸ hcall)
    (hregistry ▸ hn.registry)
  · rcases h.writer with hsame | ⟨-, hplain⟩
    · exact hn.activation session c a hc (hsame ▸ ha)
    · exact absurd ha (Writer.ne_activation_of_isPlain hplain a)
  · exact hn.peer session c p hc (h.authorizedPeer ▸ hp)

theorem NoSelf.disconnect (hn : n.NoSelf host) {session : ℕ} (h : n.disconnect session = some m) :
    m.NoSelf host := by
  rcases disconnect_cases h with ⟨rfl, -⟩ | ⟨c, c', hc, hc', rfl⟩
  · exact hn
  · exact hn.touch hc (Connection.requestDisconnect_touches hc') rfl rfl rfl

/-- **An identity that names the process itself is not authorized.** -/
theorem NoSelf.advance (hn : n.NoSelf host) {c : Connection} {call : Call} {late fails : Bool}
    (hc : n.connection call.session = some c) (hcall : call ∈ n.calls)
    (h : n.advance host c call late fails = some n') : n'.NoSelf host := by
  have hrest : ∀ {stage : CallStage}, (∀ peer, stage = .authorized peer ∨ stage = .entered peer →
      peer.deviceId ≠ host.myDeviceId) →
      ({ n with calls := { call with stage := stage } :: n.calls.erase call } : Node).NoSelf host := by
    intro stage hstage
    refine ⟨fun other hother p hp => ?_, fun other hother p hp => ?_, hn.activation, hn.peer,
      hn.registry⟩
    · rcases List.mem_cons.mp hother with rfl | hother
      · exact hstage p (.inl hp)
      · exact hn.authorized other (List.mem_of_mem_erase hother) p hp
    · rcases List.mem_cons.mp hother with rfl | hother
      · exact hstage p (.inr hp)
      · exact hn.entered other (List.mem_of_mem_erase hother) p hp
  have hended : ({ n with calls := n.calls.erase call } : Node).NoSelf host :=
    ⟨fun other hother => hn.authorized other (List.mem_of_mem_erase hother),
      fun other hother => hn.entered other (List.mem_of_mem_erase hother), hn.activation, hn.peer,
      hn.registry⟩
  rcases Node.advance_cases h with rfl | ⟨identity, peer, -, -, -, hother, rfl⟩ |
    ⟨peer, hstage, -, rfl⟩ | ⟨peer, hstage, -, -, rfl⟩
  · exact hended
  · refine hrest (fun p hp => ?_)
    rcases hp with hp | hp
    · cases hp
      exact hother
    · cases hp
  · refine hrest (fun p hp => ?_)
    rcases hp with hp | hp
    · cases hp
    · cases hp
      exact hn.authorized call hcall peer hstage
  · refine hended.set rfl (fun a ha => ?_) (fun p hp => hn.peer _ c p hc hp)
      (fun other hother => hother) hn.registry
    cases ha
    exact hn.entered call hcall peer hstage

/-- An activation publishes the peer it was given. -/
theorem NoSelf.activate (hn : n.NoSelf host) {session : ℕ} {c : Connection} {a : Activation}
    {fails : Bool} (hc : n.connection session = some c) (ha : c.writer = .activation a) :
    (n.activate host c session a fails).NoSelf host := by
  have hself := hn.activation session c a hc ha
  have hpeer := hn.peer session c
  have hset : ∀ {c' : Connection} {m : Node}, (∀ b, c'.writer = .activation b → b.peer = a.peer) →
      c'.authorizedPeer = c.authorizedPeer →
      m.connection = (n.setConnection session c').connection → m.calls = n.calls →
      (∀ d ∈ m.registry, d.deviceId ≠ host.myDeviceId) → m.NoSelf host := by
    intro c' m hwriter hauthorized hm hcalls hregistry
    refine hn.set hm (fun b hb => ?_) (fun p hp => hpeer p hc (hauthorized ▸ hp))
      (fun call hcall => hcalls ▸ hcall) hregistry
    rw [hwriter b hb]
    exact hself
  have hfree : ∀ b, ({ c with writer := .free } : Connection).writer = .activation b →
      b.peer = a.peer := fun b hb => by cases hb
  have hgoto : ∀ stage b, ({ c with writer := .activation { a with stage := stage } } :
      Connection).writer = .activation b → b.peer = a.peer := fun stage b hb => by
    cases hb
    rfl
  unfold Node.activate
  split
  · split
    · exact hset (hgoto _) rfl rfl rfl hn.registry
    · exact hset hfree rfl rfl rfl hn.registry
  · split
    · exact hset hfree rfl rfl rfl hn.registry
    · exact hset (hgoto _) rfl rfl rfl hn.registry
  · split
    · exact hset (hgoto _) rfl rfl rfl hn.registry
    · rename_i devices replaced hpublished
      refine hset (hgoto _) rfl rfl rfl (fun d hd => ?_)
      rcases DeviceRegistry.mem_of_arbitrate
        (DeviceRegistry.publishAuthenticatedDevice_cases hpublished) hd with rfl | hd
      · exact hself
      · exact hn.registry d hd
  · exact hset hfree rfl rfl rfl hn.registry
  · refine hn.set rfl (fun b hb => ?_) (fun p hp => ?_) (fun call hcall => hcall) hn.registry
    · cases hb
      exact hself
    · cases hp
      exact hself
  · exact hn.set rfl (fun b hb => by cases hb) (fun p hp => hpeer p hc hp) (fun call hcall => hcall)
      hn.registry

theorem NoSelf.step (hn : n.NoSelf host) {e : NodeEvent} (h : n.step host e = some n') :
    n'.NoSelf host := by
  cases happens h with
  | store => exact hn.congr rfl rfl rfl
  | create outgoing =>
    exact hn.set rfl (fun a ha => by cases ha) (fun p hp => by cases hp) (fun call hcall => hcall)
      hn.registry
  | dismissed => exact hn
  | authenticate hc hreleased hchecks =>
    refine ⟨fun call hcall p hp => ?_, fun call hcall p hp => ?_, hn.activation, hn.peer,
      hn.registry⟩
    · rcases List.mem_cons.mp hcall with rfl | hcall
      · cases hp
      · exact hn.authorized call hcall p hp
    · rcases List.mem_cons.mp hcall with rfl | hcall
      · cases hp
      · exact hn.entered call hcall p hp
  | advance hc hcall h => exact hn.advance hc hcall h
  | activate hc ha => exact hn.activate hc ha
  | replace hr hm => exact (hn.disconnect hm).congr rfl rfl rfl
  | monitor h =>
    rcases runMonitor_cases h with ⟨-, monitor, forceScan, lastToken, rfl⟩ |
      ⟨entry, todo, -, rfl⟩ | ⟨session, todo, m, -, hm, rfl⟩
    · exact hn.congr rfl rfl rfl
    · exact hn.congr rfl rfl rfl
    · exact (hn.disconnect hm).congr rfl rfl rfl
  | stopAuthentication => exact hn.congr rfl rfl rfl
  | requestDisconnect hc hc' =>
    exact hn.touch hc (Connection.requestDisconnect_touches hc') rfl rfl rfl
  | @cleanup session c m hc hm =>
    have hset : ∀ {c' : Connection} {m : Node},
        m.connection = (n.setConnection session c').connection → c'.writer.isActivation = false →
        c'.authorizedPeer = c.authorizedPeer → m.calls = n.calls →
        (∀ d ∈ m.registry, d ∈ n.registry) → m.NoSelf host := by
      intro c' m hm hwriter hauthorized hcalls hregistry
      refine hn.set hm (fun a ha => ?_) (fun p hp => hn.peer session c p hc (hauthorized ▸ hp))
        (fun call hcall => hcalls ▸ hcall) (fun d hd => hn.registry d (hregistry d hd))
      rw [ha] at hwriter
      cases hwriter
    rcases cleanup_cases hm with ⟨-, -, -, rfl⟩ | ⟨-, rfl⟩ | ⟨-, rfl⟩ | ⟨-, rfl⟩
    · exact hset rfl rfl rfl rfl (fun d hd => hd)
    · exact hset rfl rfl rfl rfl (fun d hd => hd)
    · exact hset rfl rfl rfl rfl (fun d hd => (List.mem_filter.mp hd).1)
    · exact hset rfl rfl rfl rfl (fun d hd => hd)
  | @release session c hc =>
    exact hn.set rfl (fun a ha => hn.activation session c a hc ha)
      (fun p hp => hn.peer session c p hc hp) (fun call hcall => hcall) hn.registry
  | forget => exact hn.congr rfl rfl rfl
  | find => exact hn
  | receive hc => exact hn.touch hc (Connection.touches_handling _) rfl rfl rfl
  | handle hc hhandling h =>
    obtain ⟨c', hc', rfl⟩ := Option.map_eq_some_iff.mp h
    exact hn.touch hc (Connection.perform_touches hc') rfl rfl rfl
  | send hc hfree => exact hn.touch hc (Connection.beginSend_touches _ hfree) rfl rfl rfl
  | sending hc hc' => exact hn.touch hc (Connection.sending_touches hc') rfl rfl rfl
  | consumeEvents => exact hn.congr rfl rfl rfl

/-- **In no run is there a peer named like the process itself.** -/
theorem noSelf_of_runs {events : List NodeEvent}
    (h : Gasoline.runs (Node.step host) initial events = some n) : n.NoSelf host := by
  refine runs_invariant (I := NoSelf host) (fun _ _ _ hn hstep => hn.step hstep) h ?_
  exact ⟨fun _ h => (by cases h), fun _ h => (by cases h), fun _ _ _ h => (by cases h),
    fun _ _ _ h => (by cases h), fun _ h => (by cases h)⟩

end Node

/-- A device is registered under the text of its UUID. -/
theorem Node.Arbitrated.device_named {n : Node} (hn : n.Arbitrated) {d : Device}
    (hd : d ∈ n.registry) : ∃ uuid, d.deviceId = trustUuidToString uuid := by
  cases hc : n.connection d.sessionId with
  | none => exact absurd rfl ((hn.owned.absent _ hc).registry d hd)
  | some c =>
    obtain ⟨-, peer, -, hdescribes⟩ := (hn.owned.kept _ c hc).owner d hd rfl
    exact ⟨peer.uuid, hdescribes.deviceId.trans peer.named⟩

/-- **Whom `authorize_verified_identity` authorizes.** -/
theorem authorizeVerifiedIdentity_eq_some (host : Host) (c : Connection) (db : Database) (late : Bool)
    (identity : VerifiedPeerIdentity) :
    (∃ peer, c.authorizeVerifiedIdentity host db late identity = .ok (some peer))
      ↔ (c.stopping || c.ready || late) = false
        ∧ (∃ a, TrustStore.findActiveAuthorization db identity.uuid identity.publicKey
          = .ok (some a)) ∧ trustUuidToString identity.uuid ≠ host.myDeviceId := by
  unfold Connection.authorizeVerifiedIdentity SessionAuthentication.authorizeVerifiedPeer
  cases c.stopping || c.ready || late with
  | true => simp
  | false =>
    rcases hfound : TrustStore.findActiveAuthorization db identity.uuid identity.publicKey with
      error | found | a
    · simp [bind, Except.bind]
    · simp [bind, Except.bind, pure, Except.pure]
    · by_cases hself : trustUuidToString identity.uuid = host.myDeviceId
      · simp [bind, Except.bind, pure, Except.pure, hself]
      · simp [bind, Except.bind, pure, Except.pure, hself]

/-- **The steps of a call amount to it**: what a call does next, behind the
first checks, is what `authorize_verified_identity` returns. -/
theorem Node.advance_identified (host : Host) (n : Node) (c : Connection) (call : Call)
    (late : Bool) {identity : VerifiedPeerIdentity} (hstage : call.stage = .identified identity)
    (hopen : (c.stopping || c.ready || late) = false) :
    n.advance host c call late false
      = match c.authorizeVerifiedIdentity host n.database late identity with
        | .ok (some peer) => some { n with
            calls := { call with stage := .authorized peer } :: n.calls.erase call }
        | _ => some { n with calls := n.calls.erase call } := by
  unfold Node.advance Connection.authorizeVerifiedIdentity
  rw [hstage, hopen]
  rcases hfound : SessionAuthentication.authorizeVerifiedPeer n.database identity with
    error | found | peer
  · simp [hfound, bind, Except.bind]
  · simp [hfound, bind, Except.bind, pure, Except.pure]
  · cases hself : peer.deviceId == host.myDeviceId with
    | true => simp [hfound, hself, bind, Except.bind, pure, Except.pure]
    | false => simp [hfound, hself, bind, Except.bind, pure, Except.pure]

/-- A text is in lower case exactly if it is the one the trust store
writes. -/
theorem trustUuidToString_eq_iff {text : Bytes} {uuid : TrustUuid} (h : Denotes text uuid) :
    trustUuidToString uuid = text ↔ text.map lowerLetter = text := by
  rw [trustUuidToString_of_fromString h]

/-- **When a device recognises itself.** Let the process have any id that
names a UUID, in whatever case. An identity with that UUID gets no
authorization exactly if the id is in lower case, or none would be given to
any peer: the session is stopping, ready or late, or the trust store has no
active record of the UUID and the key. An advertisement of the UUID is not
dialled exactly if it is spelled as the id is, or for reasons that have
nothing to do with it: its text is registered or pending. And if the id is
in lower case, then in no run is there a session whose peer has the UUID, or
a device that is registered with it. -/
theorem self_recognised_iff (host : Host) {uuid : TrustUuid} (hself : Denotes host.myDeviceId uuid) :
    (∀ (c : Connection) db late key,
        (∀ peer, c.authorizeVerifiedIdentity host db late ⟨uuid, key⟩ ≠ .ok (some peer))
          ↔ host.myDeviceId.map lowerLetter = host.myDeviceId
            ∨ (c.stopping || c.ready || late) = true
            ∨ ∀ a, TrustStore.findActiveAuthorization db uuid key ≠ .ok (some a))
      ∧ (∀ (s : Discovery) text, Denotes text uuid →
        ((s.onDeviceDiscovered host text).dials = s.dials
          ↔ text = host.myDeviceId
            ∨ DeviceRegistry.isAlreadyConnected s.node.registry text = true ∨ text ∈ s.pending))
      ∧ (host.myDeviceId.map lowerLetter = host.myDeviceId → ∀ events n,
        runs (Node.step host) Node.initial events = some n →
          (∀ d ∈ n.registry, ¬ Denotes d.deviceId uuid)
            ∧ ∀ session c peer, n.connection session = some c → c.authorizedPeer = some peer →
              peer.uuid ≠ uuid) := by
  refine ⟨fun c db late key => ?_, fun s text htext => ?_, fun hlower events n hrun => ?_⟩
  · have hauthorized := authorizeVerifiedIdentity_eq_some host c db late ⟨uuid, key⟩
    rw [← not_exists, hauthorized, ← trustUuidToString_eq_iff hself]
    simp only [not_and_or, not_exists, not_not, Bool.not_eq_false]
    tauto
  · have hvalid : DiscoveryClient.isValidUuid text = true := by
      rw [discovery_isValidUuid_eq]
      exact (trustUuidFromString_isOk_iff text).mp ⟨uuid, htext⟩
    rw [Discovery.dials_onDeviceDiscovered_iff, hvalid]
    simp
  · have hnoSelf := Node.noSelf_of_runs hrun
    have harbitrated := Node.arbitrated_initial.runs hrun
    have hname : trustUuidToString uuid = host.myDeviceId := (trustUuidToString_eq_iff hself).mpr hlower
    refine ⟨fun d hd hdenotes => ?_, fun session c peer hc hpeer huuid => ?_⟩
    · obtain ⟨u, hu⟩ := harbitrated.device_named hd
      rw [hu, Denotes, trustUuidFromString_toString] at hdenotes
      cases hdenotes
      exact hnoSelf.registry d hd (hu.trans hname)
    · refine hnoSelf.peer session c peer hc hpeer ?_
      rw [peer.named, huuid, hname]

/-! ## A device with a legacy id -/

/-- The UUID of the samples below. -/
def legacyUuid : TrustUuid := List.Vector.replicate 16 0xAB

/-- Its text, as an identity file of an older release may have it. -/
def legacyId : Bytes := ascii "ABABABAB-ABAB-ABAB-ABAB-ABABABABABAB"

/-- Its text in lower case. -/
def canonicalId : Bytes := ascii "abababab-abab-abab-abab-abababababab"

/-- A process with that id. It parses nothing. -/
def legacyHost (myDeviceId : Bytes) : Host := ⟨myDeviceId, fun _ => .error "no JSON"⟩

/-- A record of the UUID. -/
def legacyDevice : TrustedDevice where
  uuid := legacyUuid
  publicKey := TrustStores.sampleKey
  pairingMethod := ascii "admin"

/-- The process itself, as a peer. -/
def legacyPeer : AuthorizedPeer where
  uuid := legacyUuid
  publicKey := TrustStores.sampleKey
  deviceId := trustUuidToString legacyUuid
  revision := 1
  permissions := []
  named := rfl

/-- A record of the UUID is imported, and a session with it is activated. -/
def selfActivation : List NodeEvent :=
  let identity : VerifiedPeerIdentity := ⟨legacyUuid, TrustStores.sampleKey⟩
  let call (stage : CallStage) : Call := ⟨1, ascii "peer", ascii "linux", stage⟩
  [.store ⟨0, .importDeviceForAdmin legacyDevice, true⟩, .create true,
    .authenticate 1 identity (ascii "peer") (ascii "linux") false,
    .advance (call (.identified identity)) false false,
    .advance (call (.authorized legacyPeer)) false false,
    .advance (call (.entered legacyPeer)) false false]
    ++ List.replicate 5 (.activate 1 false)

/-- With the id in lower case the process recognises itself. -/
theorem self_recognised_iff_canonical :
    Denotes (legacyHost canonicalId).myDeviceId legacyUuid
      ∧ (∀ peer, (Connection.create true).authorizeVerifiedIdentity (legacyHost canonicalId)
          Database.empty false ⟨legacyUuid, TrustStores.sampleKey⟩ ≠ .ok (some peer))
      ∧ (Discovery.initial.onDeviceDiscovered (legacyHost canonicalId) canonicalId).dials = [] := by
  have hself : Denotes (legacyHost canonicalId).myDeviceId legacyUuid := by decide +kernel
  obtain ⟨hidentity, hadvertised, -⟩ := self_recognised_iff (legacyHost canonicalId) hself
  exact ⟨hself, (hidentity _ _ _ _).mpr (.inl (by decide +kernel)),
    (hadvertised .initial canonicalId hself).mpr (.inl rfl)⟩

/-- **A process with a legacy id takes itself for a peer.** A session with
its own UUID becomes ready and is registered, and the advertisement of its
own UUID in lower case is dialled. -/
theorem self_taken_for_peer :
    Denotes (legacyHost legacyId).myDeviceId legacyUuid ∧ Denotes canonicalId legacyUuid
      ∧ (∃ n, runs (Node.step (legacyHost legacyId)) Node.initial selfActivation = some n
        ∧ (n.connection 1).map (fun c => (c.ready, c.authorizedPeer)) = some (true, some legacyPeer)
        ∧ n.registry.map Device.deviceId = [canonicalId]
        ∧ (Connection.create true).authorizeVerifiedIdentity (legacyHost legacyId) n.database false
          ⟨legacyUuid, TrustStores.sampleKey⟩ = .ok (some legacyPeer))
      ∧ (Discovery.initial.onDeviceDiscovered (legacyHost legacyId) canonicalId).dials
        = [⟨canonicalId, .connecting⟩] := by
  refine ⟨by decide +kernel, by decide +kernel, ?_, by decide +kernel⟩
  obtain ⟨n, hrun, hn⟩ : ∃ n, runs (Node.step (legacyHost legacyId)) Node.initial selfActivation
        = some n
      ∧ decide ((n.connection 1).map (fun c => (c.ready, c.authorizedPeer))
          = some (true, some legacyPeer)
        ∧ n.registry.map Device.deviceId = [canonicalId]
        ∧ (Connection.create true).authorizeVerifiedIdentity (legacyHost legacyId) n.database false
          ⟨legacyUuid, TrustStores.sampleKey⟩ = .ok (some legacyPeer)) = true :=
    Option.map_eq_some_iff.mp (by decide +kernel)
  exact ⟨n, hrun, of_decide_eq_true hn⟩

end Gasoline
