import Gasoline.UuidOrder
import Gasoline.Election

/-!
# Two devices that connect to each other

Two processes with a connection that each of them opened to the other. Each
decides for itself which connection it prefers, from the text of its own
UUID as it is on its disk and the text of the peer's in lower case. Where
they agree, the connection they prefer is the one that both keep, in every
order of the activations and of the disconnects that replacements bring
about. They agree exactly where the larger of the two UUIDs shows in its
text that it is larger (`Encounter.Legible`): a text with letters in upper
case may compare as smaller.

A disconnect at one end is seen at the other as an end of file.
-/

namespace Gasoline

/-- The two ends. -/
inductive Side
  | a
  | b
  deriving DecidableEq, Repr

/-- The two connections: the one that `a` opened, and the one that `b`
opened. -/
inductive Link
  | first
  | second
  deriving DecidableEq, Repr

namespace Side

/-- The other end. -/
def other : Side → Side
  | a => b
  | b => a

/-- The connection is outgoing at this end. -/
def opens : Side → Link → Bool
  | a, .first => true
  | a, .second => false
  | b, .first => false
  | b, .second => true

end Side

/-- **Two devices that trust each other**, with the identities they have
loaded and a session for each connection at each end. -/
structure Encounter where
  host : Side → Host
  stores : Side → TrustStores
  session : Side → Link → ℕ
  /-- Who the other end proves to be. -/
  peer : Side → VerifiedPeerIdentity
  /-- `load_or_create` accepts the text of the UUID. -/
  valid : ∀ side, isValidUuid (host side).myDeviceId = true
  identity : ∀ side, trustUuidFromString (host side.other).myDeviceId = .ok (peer side).uuid
  differ : (peer .a).uuid ≠ (peer .b).uuid
  distinct : ∀ side, session side .first ≠ session side .second
  trusted : ∀ side, ∃ authorization, TrustStore.findActiveAuthorization (stores side).database
    (peer side).uuid (peer side).publicKey = .ok (some authorization)

/-- What may happen next. -/
inductive EncounterEvent
  /-- The identity of the peer is handed to a connection. -/
  | authenticate (side : Side) (link : Link) (deviceName deviceType : Bytes)
  /-- A call without locks goes on. -/
  | advance (side : Side) (call : Call)
  /-- The locked part of an activation goes on. -/
  | activate (side : Side) (link : Link)
  /-- A session that was replaced is disconnected. -/
  | replace (side : Side) (r : Replacement)
  | monitor (side : Side)
  /-- The other end has shut the connection down. -/
  | eof (side : Side) (link : Link)
  | cleanup (side : Side) (link : Link)

namespace Encounter

variable (E : Encounter)

/-- The two connections are there. -/
def start (side : Side) : Node :=
  { Node.initial with
    stores := E.stores side
    connection := fun s =>
      if s = E.session side .first then some (.create (side.opens .first))
      else if s = E.session side .second then some (.create (side.opens .second))
      else none
    manager := {E.session side .first, E.session side .second}
    nextSession := max (E.session side .first) (E.session side .second) + 1 }

/-- Where something happens, and what it is there. -/
def event : EncounterEvent → Side × NodeEvent
  | .authenticate side link deviceName deviceType =>
    (side, .authenticate (E.session side link) (E.peer side) deviceName deviceType false)
  | .advance side call => (side, .advance call false false)
  | .activate side link => (side, .activate (E.session side link) false)
  | .replace side r => (side, .replace r)
  | .monitor side => (side, .monitor false)
  | .eof side link => (side, .requestDisconnect (E.session side link))
  | .cleanup side link => (side, .cleanup (E.session side link))

/-- An end of file comes behind a disconnect at the other end. -/
def permits (s : Side → Node) : EncounterEvent → Bool
  | .eof side link =>
    ((s side.other).connection (E.session side.other link)).any Connection.stopping
  | _ => true

/-- **What happens at an event**, or `none` where it cannot happen. -/
def step (s : Side → Node) (e : EncounterEvent) : Option (Side → Node) :=
  if E.permits s e then
    ((s (E.event e).1).step (E.host (E.event e).1) (E.event e).2).map
      (Function.update s (E.event e).1)
  else none

/-- `preferred_connection`, of the device that an activation publishes. -/
def prefers (side : Side) (link : Link) (a : Activation) : Bool :=
  ((Connection.create (side.opens link)).device (E.host side).myDeviceId (E.session side link)
    a).preferredConnection

/-- The session that owns the registry entry of the peer. -/
def owner (s : Side → Node) (side : Side) : Option ℕ :=
  ((s side).registry.find? (fun d => d.deviceId == trustUuidToString (E.peer side).uuid)).map
    Device.sessionId

/-- **Both ends have activated both connections, or had them rejected.** -/
def Settled (events : List EncounterEvent) (s : Side → Node) : Prop :=
  ∀ side link,
    (∃ deviceName deviceType, .authenticate side link deviceName deviceType ∈ events)
    ∧ (∀ call ∈ (s side).calls, call.session ≠ E.session side link)
    ∧ ∀ c, (s side).connection (E.session side link) = some c → c.writer.isActivation = false

/-- **Both ends elect the connection.** It is the one that each of them
prefers, and in every run the one that owns the registry at both, still
open, once both have activated both connections. -/
structure Elects (link : Link) : Prop where
  preferred : ∀ side other a, a.peer.uuid = (E.peer side).uuid →
    (E.prefers side other a = true ↔ other = link)
  owner : ∀ events s, runs E.step E.start events = some s → E.Settled events s →
    ∀ side, E.owner s side = some (E.session side link)
      ∧ ∃ c, (s side).connection (E.session side link) = some c
        ∧ c.ready = true ∧ c.stopping = false ∧ c.released = false

/-- **The larger UUID shows that it is larger.** -/
def Legible : Prop :=
  ∀ side, (E.host side.other).myDeviceId.map lowerDigit < (E.host side).myDeviceId.map lowerDigit →
    Telling (E.host side).myDeviceId (E.host side.other).myDeviceId

/-! ## What the ends prefer -/

theorem peer_text (side : Side) :
    trustUuidToString (E.peer side).uuid = (E.host side.other).myDeviceId.map lowerDigit := by
  obtain ⟨uuid, hread, hwrite⟩ := trustUuidToString_fromString (E.valid side.other)
  rw [E.identity side] at hread
  cases hread
  exact hwrite

/-- The two UUIDs differ in lower case too. -/
theorem lower_ne (side : Side) : (E.host side).myDeviceId.map lowerDigit
    ≠ (E.host side.other).myDeviceId.map lowerDigit := by
  have hne : trustUuidToString (E.peer .a).uuid ≠ trustUuidToString (E.peer .b).uuid :=
    fun h => E.differ (trustUuidToString_injective h)
  rw [E.peer_text .a, E.peer_text .b] at hne
  cases side with
  | a => exact hne.symm
  | b => exact hne

/-- The end finds its own text to be smaller. -/
def first (side : Side) : Prop :=
  (E.host side).myDeviceId < (E.host side.other).myDeviceId.map lowerDigit

/-- An end prefers the connection it opened where it finds its own text to
be smaller. -/
theorem prefers_iff {side : Side} {link : Link} {a : Activation}
    (ha : a.peer.uuid = (E.peer side).uuid) :
    E.prefers side link a = true ↔ (E.first side ↔ side.opens link = true) := by
  have htext : a.peer.deviceId = (E.host side.other).myDeviceId.map lowerDigit := by
    rw [a.peer.named, ha, E.peer_text]
  show (decide ((E.host side).myDeviceId < a.peer.deviceId) == side.opens link) = true ↔ _
  rw [htext, beq_iff_eq, first]
  cases side.opens link <;> simp

/-- The smaller UUID is always found to be smaller, and the larger one to be
larger where it shows it. -/
theorem first_iff (side : Side) : E.first side
    ↔ ((E.host side).myDeviceId.map lowerDigit < (E.host side.other).myDeviceId.map lowerDigit
      ∨ ¬ Telling (E.host side).myDeviceId (E.host side.other).myDeviceId) := by
  have halign := aligned_of_isValidUuid (E.valid side) (E.valid side.other)
  rcases lt_or_gt_of_ne (E.lower_ne side) with hlt | hgt
  · exact ⟨fun _ => .inl hlt, fun _ => lt_lower_of_lower_lt halign hlt⟩
  · rw [first, lt_lower_iff halign hgt]
    exact ⟨.inr, fun h => h.resolve_left (List.lt_asymm hgt)⟩

/-- **The ends agree where the UUIDs are legible.** -/
theorem agree_iff : (E.first .a ↔ ¬ E.first .b) ↔ E.Legible := by
  rw [E.first_iff .a, E.first_iff .b]
  show (_ ∨ ¬ Telling (E.host .a).myDeviceId (E.host .b).myDeviceId
    ↔ ¬ (_ ∨ ¬ Telling (E.host .b).myDeviceId (E.host .a).myDeviceId)) ↔ _
  rcases lt_or_gt_of_ne (E.lower_ne .a) with hlt | hgt
  · have hasymm := List.lt_asymm hlt
    constructor
    · intro h
      rintro (_ | _) hside
      · exact absurd hside hasymm
      · exact not_not.mp (not_or.mp (h.mp (.inl hlt))).2
    · intro h
      refine ⟨fun _ => not_or.mpr ⟨hasymm, not_not.mpr (h .b hlt)⟩, fun _ => .inl hlt⟩
  · have hasymm := List.lt_asymm hgt
    constructor
    · intro h
      rintro (_ | _) hside
      · by_contra htelling
        exact h.mp (.inr htelling) (.inl hgt)
      · exact absurd hside hasymm
    · intro h
      have htelling := h .a hgt
      refine ⟨fun hor => absurd hor (not_or.mpr ⟨hasymm, not_not.mpr htelling⟩), fun hnot => ?_⟩
      exact absurd (.inl hgt) hnot

/-! ## Every run -/

theorem start_arbitrated (side : Side) : (E.start side).Arbitrated := by
  have hcreate : ∀ session c, (E.start side).connection session = some c →
      (∃ outgoing, c = .create outgoing)
        ∧ session < max (E.session side .first) (E.session side .second) + 1 := by
    intro session c hc
    simp only [start] at hc
    split at hc
    · exact ⟨⟨_, (Option.some.inj hc).symm⟩, by omega⟩
    · split at hc
      · exact ⟨⟨_, (Option.some.inj hc).symm⟩, by omega⟩
      · cases hc
  refine ⟨⟨fun session c hc => ?_, fun session hs => ?_, fun call h => (by cases h)⟩,
    ⟨List.nodup_nil, List.nodup_nil, fun _ h => (by cases h), fun session c hc => ?_,
      fun session hnone => ?_⟩⟩
  · obtain ⟨⟨outgoing, rfl⟩, -⟩ := hcreate session c hc
    exact Connection.disciplined_create outgoing
  · cases hc : (E.start side).connection session with
    | none => rfl
    | some c => exact absurd (hcreate session c hc).2 (not_lt.mpr hs)
  · obtain ⟨⟨outgoing, rfl⟩, -⟩ := hcreate session c hc
    refine ⟨fun _ h => (by cases h), ?_, fun h => (by cases h), fun _ => rfl⟩
    rintro (⟨h, -⟩ | ⟨a, h, -⟩) <;> cases h
  · refine ⟨fun _ h => (by cases h), rfl, fun hmem => ?_⟩
    simp only [start] at hnone hmem
    rcases Finset.mem_insert.mp hmem with rfl | hmem
    · rw [if_pos rfl] at hnone
      cases hnone
    · rw [Finset.mem_singleton] at hmem
      subst hmem
      rw [if_neg (E.distinct side).symm, if_pos rfl] at hnone
      cases hnone

theorem exists_authorizedPeer : ∃ w : Side → AuthorizedPeer, ∀ side,
    (w side).uuid = (E.peer side).uuid ∧ (w side).publicKey = (E.peer side).publicKey
      ∧ TrustStore.findActiveAuthorization (E.stores side).database (w side).uuid
        (w side).publicKey = .ok (some ⟨(w side).revision, (w side).permissions⟩) := by
  choose authorization hauthorization using E.trusted
  exact ⟨fun side => ⟨(E.peer side).uuid, (E.peer side).publicKey, _, (authorization side).revision,
    (authorization side).permissions, rfl⟩, fun side => ⟨rfl, rfl, hauthorization side⟩⟩

section Runs

variable {E} {link : Link} {w : Side → AuthorizedPeer} {s t : Side → Node}
  (hpreferred : ∀ side other a, a.peer.uuid = (E.peer side).uuid →
    (E.prefers side other a = true ↔ other = link))
  (hw : ∀ side, (w side).uuid = (E.peer side).uuid
    ∧ (w side).publicKey = (E.peer side).publicKey
    ∧ TrustStore.findActiveAuthorization (E.stores side).database (w side).uuid
      (w side).publicKey = .ok (some ⟨(w side).revision, (w side).permissions⟩))

theorem session_eq_iff {side : Side} {x y : Link} :
    E.session side x = E.session side y ↔ x = y := by
  refine ⟨fun h => ?_, fun h => h ▸ rfl⟩
  cases x <;> cases y
  · rfl
  · exact absurd h (E.distinct side)
  · exact absurd h.symm (E.distinct side)
  · rfl

/-- The connection is favoured at both ends. -/
def Favoured (E : Encounter) (link : Link) (w : Side → AuthorizedPeer) (s : Side → Node) : Prop :=
  ∀ side, (s side).Favours (E.host side) (w side) (E.session side link)

include hpreferred hw

theorem favoured_start : Favoured E link w E.start := by
  intro side
  have hfair : ∀ other, (Connection.create (side.opens other)).Fair (E.host side) (w side)
      (E.session side link) (E.session side other) := by
    intro other
    refine ⟨?_, fun _ => ⟨rfl, rfl⟩, fun _ h => (by cases h)⟩
    have hflag := hpreferred side other ⟨w side, [], [], .locked⟩ (hw side).1
    show E.prefers side other ⟨w side, [], [], .locked⟩ = _
    rw [Bool.eq_iff_iff, hflag, decide_eq_true_eq, session_eq_iff]
  refine ⟨E.start_arbitrated side, (hw side).2.2, rfl, ?_, ?_, fun _ h => (by cases h),
    fun _ _ h => (by cases h), fun _ _ h => (by cases h), trivial, fun _ h => (by cases h),
    fun _ h => (by cases h)⟩
  · cases link with
    | first => exact ⟨_, if_pos rfl⟩
    | second => exact ⟨_, (if_neg (E.distinct side).symm).trans (if_pos rfl)⟩
  · intro session c hc
    simp only [start] at hc
    split at hc
    · subst session
      cases hc
      exact hfair .first
    · split at hc
      · subst session
        cases hc
        exact hfair .second
      · cases hc

omit hpreferred in
/-- What happens at an end is peaceful: the connection is open at the
other end. -/
theorem peaceful_event (hs : Favoured E link w s) {e : EncounterEvent} (he : E.permits s e = true) :
    (E.event e).2.Peaceful (w (E.event e).1) (E.session (E.event e).1 link) := by
  have hidentity : ∀ side, E.peer side = ⟨(w side).uuid, (w side).publicKey⟩ := by
    intro side
    rw [(hw side).1, (hw side).2.1]
  cases e with
  | authenticate side other deviceName deviceType => exact ⟨hidentity side, rfl⟩
  | advance side call => exact ⟨rfl, rfl⟩
  | activate side other => exact rfl
  | replace side r => trivial
  | monitor side => exact rfl
  | cleanup side other => trivial
  | eof side other =>
    intro heq
    obtain rfl := session_eq_iff.mp heq
    obtain ⟨c, hc, hstopping⟩ := (Option.any_eq_true _ _).mp he
    rw [((hs side.other).fair _ c hc).kept rfl |>.1] at hstopping
    cases hstopping

omit hpreferred in
theorem Favoured.step (hs : Favoured E link w s) {e : EncounterEvent} (h : E.step s e = some t) :
    Favoured E link w t := by
  simp only [Encounter.step] at h
  split at h
  · rename_i he
    obtain ⟨n, hn, rfl⟩ := Option.map_eq_some_iff.mp h
    have hpeaceful := peaceful_event hw hs he
    intro side
    by_cases hside : side = (E.event e).1
    · subst hside
      rw [Function.update_self]
      exact (hs _).step hpeaceful hn
    · rw [Function.update_of_ne hside]
      exact hs side
  · cases h

omit hpreferred in
/-- An activation that was started ends with the session ready. -/
theorem started_step (hs : Favoured E link w s) {side : Side}
    (hstarted : (s side).Started (E.session side link)) {e : EncounterEvent}
    (h : E.step s e = some t) : (t side).Started (E.session side link) := by
  have hother : ∀ side, (w side).deviceId ≠ (E.host side).myDeviceId := by
    intro side heq
    -- a text that is the peer's in lower case is in lower case itself
    have htext : (w side).deviceId = (E.host side.other).myDeviceId.map lowerDigit := by
      rw [(w side).named, (hw side).1, E.peer_text]
    refine E.lower_ne side ?_
    rw [← heq, htext, List.map_map]
    refine List.map_congr_left (fun c _ => ?_)
    show lowerDigit (lowerDigit c) = lowerDigit c
    exact lowerDigit_lowerDigit c
  simp only [Encounter.step] at h
  split at h
  · rename_i he
    obtain ⟨n, hn, rfl⟩ := Option.map_eq_some_iff.mp h
    have hpeaceful := peaceful_event hw hs he
    by_cases hside : side = (E.event e).1
    · subst hside
      rw [Function.update_self]
      exact hstarted.step (hs _) (hother _) hpeaceful hn
    · rw [Function.update_of_ne hside]
      exact hstarted
  · cases h

/-- **The connection that both ends prefer owns both registries.** -/
theorem owner_of_preferred {events : List EncounterEvent}
    (hrun : runs E.step E.start events = some s) (hsettled : E.Settled events s) (side : Side) :
    E.owner s side = some (E.session side link)
      ∧ ∃ c, (s side).connection (E.session side link) = some c
        ∧ c.ready = true ∧ c.stopping = false ∧ c.released = false := by
  have hfavoured : ∀ {es : List EncounterEvent} {u : Side → Node},
      runs E.step E.start es = some u → Favoured E link w u := fun h =>
    runs_invariant (I := Favoured E link w) (fun _ _ _ hu hstep => hu.step hw hstep) h
      (favoured_start hpreferred hw)
  obtain ⟨⟨deviceName, deviceType, hmem⟩, hcalls, hactivation⟩ := hsettled side link
  -- from the event on at which the peer is authenticated, the activation is under way
  obtain ⟨before, after, rfl⟩ := List.append_of_mem hmem
  obtain ⟨u, hu, hrest⟩ := runs_append_iff.mp hrun
  obtain ⟨v, hv, hafter⟩ := runs_cons.mp hrest
  have hstarted : (v side).Started (E.session side link) := by
    obtain ⟨n, hn, rfl⟩ := Option.map_eq_some_iff.mp hv
    show (Function.update u side n side).Started _
    rw [Function.update_self]
    exact Node.started_of_authenticate (hfavoured hu side) hn
  have hboth : Favoured E link w s ∧ (s side).Started (E.session side link) :=
    runs_invariant (I := fun u => Favoured E link w u ∧ (u side).Started (E.session side link))
      (fun _ _ _ hu hstep => ⟨hu.1.step hw hstep, started_step hw hu.1 hu.2 hstep⟩) hafter
      ⟨hfavoured (runs_concat.mpr ⟨u, hu, hv⟩), hstarted⟩
  obtain ⟨hopen, d, hregistry, hsession, hdevice⟩ :=
    (hboth.1 side).owner hboth.2 hcalls hactivation
  refine ⟨?_, hopen⟩
  have htext : d.deviceId = trustUuidToString (E.peer side).uuid := by
    rw [hdevice, (w side).named, (hw side).1]
  simp [Encounter.owner, hregistry, htext, hsession]

end Runs

/-- **Both ends elect the same connection exactly where the UUIDs are
legible.** -/
theorem elects_iff : (∃ link, E.Elects link) ↔ E.Legible := by
  obtain ⟨w, hw⟩ := E.exists_authorizedPeer
  have hprefers : ∀ side link, E.prefers side link ⟨w side, [], [], .locked⟩ = true
      ↔ (E.first side ↔ side.opens link = true) :=
    fun side link => E.prefers_iff (hw side).1
  rw [← E.agree_iff]
  constructor
  · rintro ⟨link, helects⟩
    have ha := (hprefers .a .first).symm.trans (helects.preferred .a .first _ (hw .a).1)
    have hb := (hprefers .b .second).symm.trans (helects.preferred .b .second _ (hw .b).1)
    cases link <;> simp [Side.opens] at ha hb <;> simp [ha, hb]
  · intro hagree
    by_cases hfirst : E.first .a
    · have hpreferred : ∀ side other a, a.peer.uuid = (E.peer side).uuid →
          (E.prefers side other a = true ↔ other = .first) := by
        intro side other a ha
        have hnot := hagree.mp hfirst
        rw [E.prefers_iff ha]
        cases side <;> cases other <;> simp [Side.opens, hfirst, hnot]
      exact ⟨.first, hpreferred, fun events s hrun hsettled side =>
        owner_of_preferred hpreferred hw hrun hsettled side⟩
    · have hpreferred : ∀ side other a, a.peer.uuid = (E.peer side).uuid →
          (E.prefers side other a = true ↔ other = .second) := by
        intro side other a ha
        have hb : E.first .b := by
          by_contra hnot
          exact hfirst (hagree.mpr hnot)
        rw [E.prefers_iff ha]
        cases side <;> cases other <;> simp [Side.opens, hfirst, hb]
      exact ⟨.second, hpreferred, fun events s hrun hsettled side =>
        owner_of_preferred hpreferred hw hrun hsettled side⟩

/-! ## Two ends that disagree -/

/-- The byte that the UUID of the end consists of. -/
def mixedByte : Side → UInt8
  | .a => 0xBB
  | .b => 0xAA

/-- The identity files of the ends: the larger UUID is in upper case. -/
def mixedText : Side → Bytes
  | .a => ascii "BBBBBBBB-BBBB-BBBB-BBBB-BBBBBBBBBBBB"
  | .b => ascii "aaaaaaaa-aaaa-aaaa-aaaa-aaaaaaaaaaaa"

/-- The record that an end has of the other. -/
def mixedDevice (side : Side) : TrustedDevice where
  uuid := List.Vector.replicate 16 (mixedByte side.other)
  publicKey := List.Vector.replicate 32 (mixedByte side.other)
  pairingMethod := ascii "admin"

/-- Each end has imported the record of the other. -/
def mixedStores (side : Side) : TrustStores :=
  (TrustStores.initial.step ⟨0, .importDeviceForAdmin (mixedDevice side), true⟩).getD .initial

/-- **Two devices, of which the larger has its UUID in upper case.** -/
def mixedCase : Encounter where
  host side := ⟨mixedText side, fun _ => .error "no JSON"⟩
  stores := mixedStores
  session := fun _ link => if link = .first then 1 else 2
  peer side := ⟨(mixedDevice side).uuid, (mixedDevice side).publicKey⟩
  valid side := by cases side <;> decide +kernel
  identity side := by cases side <;> decide +kernel
  differ := by decide +kernel
  distinct side := by decide
  trusted side := ⟨⟨1, []⟩, by cases side <;> decide +kernel⟩

/-- The peer of an end. -/
def mixedPeer (side : Side) : AuthorizedPeer where
  uuid := (mixedDevice side).uuid
  publicKey := (mixedDevice side).publicKey
  deviceId := trustUuidToString (mixedDevice side).uuid
  revision := 1
  permissions := []
  named := rfl

/-- A connection is activated, or rejected. -/
def mixedActivation (side : Side) (link : Link) (steps : ℕ) : List EncounterEvent :=
  let call (stage : CallStage) : Call := ⟨mixedCase.session side link, [], [], stage⟩
  [.authenticate side link [] [], .advance side (call (.identified (mixedCase.peer side))),
    .advance side (call (.authorized (mixedPeer side))),
    .advance side (call (.entered (mixedPeer side)))]
    ++ List.replicate steps (.activate side link)

/-- Each end activates the connection it opened, and rejects the other. -/
def mixedRun : List EncounterEvent :=
  mixedActivation .a .first 5 ++ mixedActivation .b .second 5 ++ mixedActivation .a .second 4
    ++ mixedActivation .b .first 4

/-- What the run comes to. -/
def mixedOutcome (s : Side → Node) : Bool :=
  [Side.a, Side.b].all (fun side => (s side).calls.isEmpty
    && [Link.first, Link.second].all (fun link =>
      ((s side).connection (mixedCase.session side link)).all
        (fun c => !c.writer.isActivation)))
    && mixedCase.owner s .a == some 1 && mixedCase.owner s .b == some 2

/-- **These two do not elect the same connection**: once both have settled,
each end has the connection it opened, and each rejected the one that the
other has. -/
theorem mixedCase_disagrees :
    (∃ s, runs mixedCase.step mixedCase.start mixedRun = some s ∧ mixedCase.Settled mixedRun s
      ∧ mixedCase.owner s .a = some (mixedCase.session .a .first)
      ∧ mixedCase.owner s .b = some (mixedCase.session .b .second))
      ∧ ¬ ∃ link, mixedCase.Elects link := by
  have hrun : ∃ s, runs mixedCase.step mixedCase.start mixedRun = some s
      ∧ mixedCase.Settled mixedRun s
      ∧ mixedCase.owner s .a = some (mixedCase.session .a .first)
      ∧ mixedCase.owner s .b = some (mixedCase.session .b .second) := by
    obtain ⟨s, hrun, hs⟩ : ∃ s, runs mixedCase.step mixedCase.start mixedRun = some s
        ∧ mixedOutcome s = true :=
      Option.map_eq_some_iff.mp (by decide +kernel)
    simp only [mixedOutcome, List.all_cons, List.all_nil, Bool.and_true, Bool.and_eq_true,
      List.isEmpty_iff, beq_iff_eq, Option.all_eq_true, Bool.not_eq_true'] at hs
    obtain ⟨⟨⟨⟨ha, ha₁, ha₂⟩, hb, hb₁, hb₂⟩, howner⟩, howner'⟩ := hs
    refine ⟨s, hrun, fun side link => ⟨⟨[], [], ?_⟩, ?_, ?_⟩, howner, howner'⟩
    · cases side <;> cases link <;> simp [mixedRun, mixedActivation]
    · cases side
      · simp [ha]
      · simp [hb]
    · cases side <;> cases link <;> assumption
  refine ⟨hrun, ?_⟩
  rintro ⟨link, helects⟩
  obtain ⟨s, hrun, hsettled, ha, hb⟩ := hrun
  have hfirst := ha.symm.trans (helects.owner _ s hrun hsettled .a).1
  have hsecond := hb.symm.trans (helects.owner _ s hrun hsettled .b).1
  cases link with
  | first => cases hsecond
  | second => cases hfirst

end Encounter

end Gasoline
