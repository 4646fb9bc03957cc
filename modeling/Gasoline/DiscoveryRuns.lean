import Gasoline.Discovery

/-!
# One dial at a time

A device is to be dialled once at a time. What keeps the discovery client
from dialling it again is the registry, as long as the device is registered,
and the set of pending texts, as long as the thread of the dial is there.
Neither covers the time between: a handshake may take ten seconds and the
thread is there for two. And both are looked up by text, while a UUID can be
spelled in many ways.

`Careful` says of a step that it does not fall into one of these gaps. In
every run whose steps are all careful, a connection that a dial opened is
covered by the one or the other for as long as it is open
(`Discovery.Tracked`), and so no device is dialled while it is connected or
being connected.
-/

namespace Gasoline

namespace Node

variable {host : Host} {n n' : Node}

/-! ## What a step does to the registry and to sessions that are open -/

/-- **How the registry changes**: an activation publishes a device, or a
cleanup takes one away. -/
theorem registry_step {e : NodeEvent} (h : n.step host e = some n') :
    n'.registry = n.registry
      ∨ (∃ session fails c a replaced, e = .activate session fails
        ∧ n.connection session = some c ∧ c.writer = .activation a ∧ a.stage = .registered
        ∧ DeviceRegistry.arbitrate n.holds
            { c.device host.myDeviceId session a with state := .ready } n.registry
          = some (n'.registry, replaced))
      ∨ ∃ session c, e = .cleanup session ∧ n.connection session = some c
        ∧ c.writer = .cleanup .removeDevice
        ∧ n'.registry = DeviceRegistry.removeDevice n.registry session := by
  have hdisconnect : ∀ {m : Node} {session : ℕ}, n.disconnect session = some m →
      m.registry = n.registry := by
    intro m session hm
    rcases disconnect_cases hm with ⟨rfl, -⟩ | ⟨c, c', -, -, rfl⟩
    · rfl
    · rfl
  cases happens h with
  | @activate session fails c a hc ha =>
    unfold Node.activate
    split
    · split <;> exact .inl rfl
    · split <;> exact .inl rfl
    · rename_i hstage
      split
      · exact .inl rfl
      · rename_i devices replaced hpublished
        exact .inr (.inl ⟨session, fails, c, a, replaced, rfl, hc, ha, hstage,
          DeviceRegistry.publishAuthenticatedDevice_cases hpublished⟩)
    · exact .inl rfl
    · exact .inl rfl
    · exact .inl rfl
  | @cleanup session c m hc hm =>
    rcases cleanup_cases hm with ⟨-, -, -, rfl⟩ | ⟨-, rfl⟩ | ⟨hw, rfl⟩ | ⟨-, rfl⟩
    · exact .inl rfl
    · exact .inl rfl
    · exact .inr (.inr ⟨session, c, rfl, hc, hw, rfl⟩)
    · exact .inl rfl
  | advance hc hcall h =>
    rcases advance_cases h with rfl | ⟨-, -, -, -, -, -, rfl⟩ | ⟨-, -, -, rfl⟩ | ⟨-, -, -, -, rfl⟩
    · exact .inl rfl
    · exact .inl rfl
    · exact .inl rfl
    · exact .inl rfl
  | replace hr hm =>
    have hsame := hdisconnect hm
    exact .inl hsame
  | monitor h =>
    rcases runMonitor_cases h with ⟨-, monitor, forceScan, lastToken, rfl⟩ |
      ⟨entry, todo, -, rfl⟩ | ⟨session, todo, m, -, hm, rfl⟩
    · exact .inl rfl
    · exact .inl rfl
    · have hsame := hdisconnect hm
      exact .inl hsame
  | handle hc hhandling h =>
    obtain ⟨c', -, rfl⟩ := Option.map_eq_some_iff.mp h
    exact .inl rfl
  | _ => exact .inl rfl

/-- A connection that a step changes was open before, if it is after. -/
theorem holds_of_set {session other : ℕ} {c c' : Connection} {m : Node}
    (h : m.holds session = true) (hm : m.connection = (n.setConnection other c').connection)
    (hc : n.connection other = some c) (hreleased : c.released = true → c'.released = true)
    (hstopping : c.stopping = true → c'.stopping = true) : n.holds session = true := by
  unfold holds at h ⊢
  rw [hm, setConnection_connection] at h
  by_cases heq : session = other
  · subst heq
    rw [hc]
    simp only [if_pos, Bool.and_eq_true, Bool.not_eq_true'] at h ⊢
    refine ⟨?_, ?_⟩
    · rw [← Bool.not_eq_true]
      exact fun hgone => absurd (hreleased hgone) (by simp [h.1])
    · rw [← Bool.not_eq_true]
      exact fun hstop => absurd (hstopping hstop) (by simp [h.2])
  · rwa [if_neg heq] at h

/-- **A session that was given out is not opened again.** -/
theorem holds_of_effect {session : ℕ} (h : Effect host n n') (hlt : session < n.nextSession)
    (hholds : n'.holds session = true) : n.holds session = true := by
  have hdisconnect : ∀ {m : Node} {other : ℕ}, n.disconnect other = some m →
      m.holds session = true → n.holds session = true := by
    intro m other hm hheld
    rcases disconnect_cases hm with ⟨rfl, -⟩ | ⟨c, c', hc, hc', rfl⟩
    · exact hheld
    · refine holds_of_set hheld rfl hc (fun hgone => ?_) (fun _ => ?_)
      · rw [(Connection.requestDisconnect_touches hc').released, hgone]
      · exact Connection.requestDisconnect_stopping hc'
  cases h with
  | create outgoing =>
    have hsame : (n.setConnection n.nextSession (.create outgoing)).connection session
        = n.connection session := by
      rw [setConnection_connection, if_neg hlt.ne]
    unfold holds at hholds ⊢
    rw [← hsame]
    exact hholds
  | lock hcalls hcall hc hfree hstopping hready =>
    exact holds_of_set hholds rfl hc id id
  | activate hc ha =>
    rename_i other c a fails
    by_cases heq : session = other
    · subst heq
      obtain ⟨c', hc', hreleased, hstopping⟩ : ∃ c',
          (n.activate host c session a fails).connection session = some c'
            ∧ c'.released = c.released ∧ c'.stopping = c.stopping := by
        obtain ⟨c', live, forceScan, registry, replacing, hactivates, heq⟩ :=
          activate_eq host n c session a fails
        rw [heq]
        exact ⟨c', (setConnection_connection ..).trans (if_pos rfl), hactivates.released,
          hactivates.stopping⟩
      unfold holds at hholds ⊢
      rw [hc'] at hholds
      rw [hc]
      simpa only [hreleased, hstopping] using hholds
    · unfold holds at hholds ⊢
      rwa [activate_connection_of_ne heq] at hholds
  | replace hr hm => exact hdisconnect hm hholds
  | monitor h =>
    rcases runMonitor_cases h with ⟨-, monitor, forceScan, lastToken, rfl⟩ |
      ⟨entry, todo, -, rfl⟩ | ⟨other, todo, m, -, hm, rfl⟩
    · exact hholds
    · exact hholds
    · exact hdisconnect hm hholds
  | cleanup hc hm =>
    rcases cleanup_cases hm with ⟨-, -, -, rfl⟩ | ⟨-, rfl⟩ | ⟨-, rfl⟩ | ⟨-, rfl⟩
    · exact holds_of_set hholds rfl hc id id
    · exact holds_of_set hholds rfl hc id id
    · exact holds_of_set hholds rfl hc id id
    · exact holds_of_set hholds rfl hc id id
  | release hc hfree hcalls => exact holds_of_set hholds rfl hc (fun _ => rfl) id
  | touch events hc htouches =>
    refine holds_of_set hholds rfl hc (fun hgone => ?_) (fun hstop => ?_)
    · rw [htouches.released, hgone]
    · rcases htouches.stopping with hsame | ⟨htrue, -⟩
      · rw [hsame, hstop]
      · exact htrue
  | _ => exact hholds

theorem nextSession_le_of_effect (h : Effect host n n') : n.nextSession ≤ n'.nextSession := by
  have hdisconnect : ∀ {m : Node} {other : ℕ}, n.disconnect other = some m →
      m.nextSession = n.nextSession := by
    intro m other hm
    rcases disconnect_cases hm with ⟨rfl, -⟩ | ⟨c, c', -, -, rfl⟩
    · rfl
    · rfl
  cases h with
  | create outgoing => exact Nat.le_succ _
  | activate hc ha =>
    obtain ⟨c', live, forceScan, registry, replacing, -, heq⟩ := activate_eq host n _ _ _ _
    rw [heq]
    exact le_rfl
  | replace hr hm => exact (hdisconnect hm).ge
  | monitor h =>
    rcases runMonitor_cases h with ⟨-, monitor, forceScan, lastToken, rfl⟩ |
      ⟨entry, todo, -, rfl⟩ | ⟨other, todo, m, -, hm, rfl⟩
    · exact le_rfl
    · exact le_rfl
    · exact (hdisconnect hm).ge
  | cleanup hc hm =>
    rcases cleanup_cases hm with ⟨-, -, -, rfl⟩ | ⟨-, rfl⟩ | ⟨-, rfl⟩ | ⟨-, rfl⟩
    · exact le_rfl
    · exact le_rfl
    · exact le_rfl
    · exact le_rfl
  | _ => exact le_rfl

end Node

namespace Discovery

variable {host : Host} {s t : Discovery} {uuid : TrustUuid}

/-! ## What is to be known of a UUID -/

/-- A connection that a dial opened for the UUID is open. -/
def Open (s : Discovery) (uuid : TrustUuid) : Prop :=
  ∃ x ∈ s.opened, Denotes x.1 uuid ∧ s.node.holds x.2 = true

/-- The registry has a ready entry for the UUID. -/
def Registered (s : Discovery) (uuid : TrustUuid) : Prop :=
  ∃ d ∈ s.node.registry, d.state = .ready ∧ Denotes d.deviceId uuid

/-- The UUID is being dialled. -/
def Pending (s : Discovery) (uuid : TrustUuid) : Prop :=
  ∃ dial ∈ s.dials, Denotes dial.deviceId uuid

/-- **A step that falls into no gap.** A text that is dialled is no other
spelling of a UUID that is pending or registered. When the two seconds of a
dial are over, its connection has been registered or is closed. And when a
device is taken from the registry, no other connection to it is open, unless
one is pending. -/
def Careful (host : Host) (s : Discovery) : DiscoveryEvent → Prop
  | .discovered text =>
    text ≠ host.myDeviceId → DeviceRegistry.isAlreadyConnected s.node.registry text = false →
      text ∉ s.pending → ∀ uuid, Denotes text uuid →
        (∀ dial ∈ s.dials, Denotes dial.deviceId uuid → dial.deviceId = text)
          ∧ ∀ d ∈ s.node.registry, Denotes d.deviceId uuid → d.deviceId = text
  | .expired dial => ∀ uuid, Denotes dial.deviceId uuid → s.Open uuid → s.Registered uuid
  | .node (.cleanup session) =>
    ∀ c, s.node.connection session = some c → c.writer = .cleanup .removeDevice →
      ∀ d ∈ s.node.registry, d.sessionId = session → ∀ uuid, Denotes d.deviceId uuid →
        s.Open uuid → s.Pending uuid
  | _ => True

/-- **A step that registers no device while it is being connected to.** -/
def Undisturbed (s : Discovery) : DiscoveryEvent → Prop
  | .node (.activate session _) =>
    ∀ c a, s.node.connection session = some c → c.writer = .activation a →
      a.stage = .registered → ∀ dial ∈ s.dials, dial.stage = .connecting →
        ¬ Denotes dial.deviceId a.peer.uuid
  | _ => True

/-- **What keeps a UUID from being dialled again.** There is one dial for a
UUID at a time; none is about to connect to a UUID that a connection is open
to; and a UUID that a connection is open to is registered or pending. -/
structure Tracked (s : Discovery) : Prop where
  valid : ∀ dial ∈ s.dials, ∃ uuid, Denotes dial.deviceId uuid
  pending : ∀ dial ∈ s.dials, dial.deviceId ∈ s.pending
  apart : s.dials.Pairwise (fun a b => ∀ uuid, Denotes a.deviceId uuid → ¬ Denotes b.deviceId uuid)
  opened : ∀ x ∈ s.opened, x.2 < s.node.nextSession
  connecting : ∀ dial ∈ s.dials, dial.stage = .connecting → ∀ uuid, Denotes dial.deviceId uuid →
    ¬ s.Open uuid
  covered : ∀ uuid, s.Open uuid → s.Registered uuid ∨ s.Pending uuid

/-- None that is about to connect is registered. -/
def Unregistered (s : Discovery) : Prop :=
  ∀ dial ∈ s.dials, dial.stage = .connecting → ∀ uuid, Denotes dial.deviceId uuid →
    ¬ s.Registered uuid

/-! ## Callbacks -/

/-- **What a callback does.** -/
theorem onDeviceDiscovered_cases (host : Host) (s : Discovery) (text : Bytes) :
    s.onDeviceDiscovered host text = s
      ∨ ((∃ uuid, Denotes text uuid) ∧ text ≠ host.myDeviceId
        ∧ DeviceRegistry.isAlreadyConnected s.node.registry text = false
        ∧ text ∉ s.pending ∧ s.onDeviceDiscovered host text = { s with
          pending := insert text s.pending
          dials := ⟨text, .connecting⟩ :: s.dials }) := by
  unfold onDeviceDiscovered
  split
  · exact .inl rfl
  · rename_i hvalid
    rw [discovery_isValidUuid_eq, Bool.not_eq_true', Bool.not_eq_false] at hvalid
    split
    · exact .inl rfl
    · rename_i hself
      split
      · exact .inl rfl
      · rename_i hconnected
        split
        · exact .inl rfl
        · rename_i hpending
          exact .inr ⟨(trustUuidFromString_isOk_iff text).mpr hvalid, by simpa using hself,
            by simpa using hconnected, hpending, rfl⟩

theorem isAlreadyConnected_of_mem {d : Device} {devices : List Device} (hd : d ∈ devices)
    (hready : d.state = .ready) : DeviceRegistry.isAlreadyConnected devices d.deviceId = true := by
  refine List.any_eq_true.mpr ⟨d, hd, ?_⟩
  rw [hready, beq_self_eq_true, Bool.true_and]
  rfl

/-- A text that is dialled with care names no UUID that is registered. -/
theorem not_registered_of_dialled {text : Bytes} (hself : text ≠ host.myDeviceId)
    (hconnected : DeviceRegistry.isAlreadyConnected s.node.registry text = false)
    (hpending : text ∉ s.pending) (hcareful : s.Careful host (.discovered text))
    (huuid : Denotes text uuid) : ¬ s.Registered uuid := by
  rintro ⟨d, hd, hready, hdenotes⟩
  have htext := (hcareful hself hconnected hpending uuid huuid).2 d hd hdenotes
  rw [← htext, isAlreadyConnected_of_mem hd hready] at hconnected
  cases hconnected

theorem Tracked.not_pending_of_dialled (hs : s.Tracked) {text : Bytes}
    (hself : text ≠ host.myDeviceId)
    (hconnected : DeviceRegistry.isAlreadyConnected s.node.registry text = false)
    (hpending : text ∉ s.pending) (hcareful : s.Careful host (.discovered text))
    (huuid : Denotes text uuid) : ¬ s.Pending uuid := by
  rintro ⟨dial, hdial, hdenotes⟩
  have htext := (hcareful hself hconnected hpending uuid huuid).1 dial hdial hdenotes
  exact hpending (htext ▸ hs.pending dial hdial)

theorem Tracked.not_open_of_dialled (hs : s.Tracked) {text : Bytes}
    (hself : text ≠ host.myDeviceId)
    (hconnected : DeviceRegistry.isAlreadyConnected s.node.registry text = false)
    (hpending : text ∉ s.pending) (hcareful : s.Careful host (.discovered text))
    (huuid : Denotes text uuid) : ¬ s.Open uuid := by
  intro hopen
  rcases hs.covered uuid hopen with hregistered | hdial
  · exact not_registered_of_dialled hself hconnected hpending hcareful huuid hregistered
  · exact hs.not_pending_of_dialled hself hconnected hpending hcareful huuid hdial

theorem Tracked.discovered (hs : s.Tracked) {text : Bytes}
    (hcareful : s.Careful host (.discovered text)) : (s.onDeviceDiscovered host text).Tracked := by
  rcases onDeviceDiscovered_cases host s text with hsame |
    ⟨hvalid, hself, hconnected, hpending, hdialled⟩
  · rw [hsame]
    exact hs
  · rw [hdialled]
    refine ⟨fun dial hdial => ?_, fun dial hdial => ?_,
      List.pairwise_cons.mpr ⟨fun dial hdial u hu hu' => ?_, hs.apart⟩,
      hs.opened, fun dial hdial hstage u hu => ?_, fun u hu => ?_⟩
    · rcases List.mem_cons.mp hdial with rfl | hdial
      · exact hvalid
      · exact hs.valid dial hdial
    · rcases List.mem_cons.mp hdial with rfl | hdial
      · exact Finset.mem_insert_self _ _
      · exact Finset.mem_insert_of_mem (hs.pending dial hdial)
    · exact hs.not_pending_of_dialled hself hconnected hpending hcareful hu ⟨dial, hdial, hu'⟩
    · rcases List.mem_cons.mp hdial with rfl | hdial
      · exact hs.not_open_of_dialled hself hconnected hpending hcareful hu
      · exact hs.connecting dial hdial hstage u hu
    · refine (hs.covered u hu).imp_right (fun ⟨dial, hdial, hdenotes⟩ => ?_)
      exact ⟨dial, List.mem_cons_of_mem _ hdial, hdenotes⟩

/-! ## Dials -/

/-- One UUID has one text at most of those that are dialled. -/
theorem Tracked.apart_erase (hs : s.Tracked) {dial other : Dial} (hdial : dial ∈ s.dials)
    (hother : other ∈ s.dials.erase dial) (hu : Denotes dial.deviceId uuid) :
    ¬ Denotes other.deviceId uuid := by
  have hpairs : (dial :: s.dials.erase dial).Pairwise
      (fun a b => ∀ uuid, Denotes a.deviceId uuid → ¬ Denotes b.deviceId uuid) :=
    ((List.perm_cons_erase hdial).pairwise_iff (fun {_ _} h u hb ha => h u ha hb)).mp hs.apart
  exact (List.pairwise_cons.mp hpairs).1 other hother uuid hu

theorem Tracked.apart_rest (hs : s.Tracked) (dial : Dial) :
    (s.dials.erase dial).Pairwise
      (fun a b => ∀ uuid, Denotes a.deviceId uuid → ¬ Denotes b.deviceId uuid) :=
  hs.apart.sublist List.erase_sublist

theorem pending_goto {dial : Dial} {stage : DialStage} {pending : Finset Bytes} {node : Node}
    {opened : List (Bytes × ℕ)} (h : s.Pending uuid) :
    Pending ⟨node, pending, { dial with stage := stage } :: s.dials.erase dial, opened⟩ uuid := by
  obtain ⟨other, hother, hdenotes⟩ := h
  by_cases heq : other = dial
  · exact ⟨_, List.mem_cons_self, heq ▸ hdenotes⟩
  · exact ⟨other, List.mem_cons_of_mem _ ((List.mem_erase_of_ne heq).mpr hother), hdenotes⟩

theorem Tracked.connected (hs : s.Tracked) {dial : Dial} {node : Node} (hdial : dial ∈ s.dials)
    (hstep : s.node.step host (.create true) = some node) :
    Tracked { s with
      node := node
      dials := { dial with stage := .waiting (some s.node.nextSession) } :: s.dials.erase dial
      opened := (dial.deviceId, s.node.nextSession) :: s.opened } := by
  have heffect := Node.step_effect hstep
  have hnext : node.nextSession = s.node.nextSession + 1 := by
    cases hstep
    rfl
  -- what is open afterwards is the new connection, or was open
  have hopen : ∀ {u : TrustUuid}, (∃ x ∈ (dial.deviceId, s.node.nextSession) :: s.opened,
      Denotes x.1 u ∧ node.holds x.2 = true) → Denotes dial.deviceId u ∨ s.Open u := by
    rintro u ⟨x, hx, hdenotes, hholds⟩
    rcases List.mem_cons.mp hx with rfl | hx
    · exact .inl hdenotes
    · exact .inr ⟨x, hx, hdenotes, Node.holds_of_effect heffect (hs.opened x hx) hholds⟩
  refine ⟨fun other hother => ?_, fun other hother => ?_,
    List.pairwise_cons.mpr ⟨fun other hother u hu => ?_, hs.apart_rest dial⟩, fun x hx => ?_,
    fun other hother hstage u hu hopened => ?_,
    fun u hopened => ?_⟩
  · rcases List.mem_cons.mp hother with rfl | hother
    · exact hs.valid dial hdial
    · exact hs.valid other (List.mem_of_mem_erase hother)
  · rcases List.mem_cons.mp hother with rfl | hother
    · exact hs.pending dial hdial
    · exact hs.pending other (List.mem_of_mem_erase hother)
  · exact hs.apart_erase hdial hother hu
  · show x.2 < node.nextSession
    rw [hnext]
    rcases List.mem_cons.mp hx with rfl | hx
    · exact Nat.lt_succ_self _
    · exact (hs.opened x hx).trans (Nat.lt_succ_self _)
  · rcases List.mem_cons.mp hother with rfl | hother
    · cases hstage
    · rcases hopen hopened with hdenotes | hopened
      · exact hs.apart_erase hdial hother hdenotes hu
      · exact hs.connecting other (List.mem_of_mem_erase hother) hstage u hu hopened
  · rcases hopen hopened with hdenotes | hopened
    · exact .inr ⟨_, List.mem_cons_self, hdenotes⟩
    · refine (hs.covered u hopened).imp (fun ⟨d, hd, hready, hdenotes⟩ => ?_) pending_goto
      refine ⟨d, ?_, hready, hdenotes⟩
      cases hstep
      exact hd

theorem Tracked.refused (hs : s.Tracked) {dial : Dial} (hdial : dial ∈ s.dials) :
    Tracked { s with dials := { dial with stage := .waiting none } :: s.dials.erase dial } := by
  refine ⟨fun other hother => ?_, fun other hother => ?_,
    List.pairwise_cons.mpr ⟨fun other hother u hu => ?_, hs.apart_rest dial⟩, hs.opened,
    fun other hother hstage u hu => ?_, fun u hopened => ?_⟩
  · rcases List.mem_cons.mp hother with rfl | hother
    · exact hs.valid dial hdial
    · exact hs.valid other (List.mem_of_mem_erase hother)
  · rcases List.mem_cons.mp hother with rfl | hother
    · exact hs.pending dial hdial
    · exact hs.pending other (List.mem_of_mem_erase hother)
  · exact hs.apart_erase hdial hother hu
  · rcases List.mem_cons.mp hother with rfl | hother
    · cases hstage
    · exact hs.connecting other (List.mem_of_mem_erase hother) hstage u hu
  · exact (hs.covered u hopened).imp id pending_goto

/-- A dial that is over covers nothing any more, and need not. -/
theorem Tracked.expired (hs : s.Tracked) {dial : Dial} (hdial : dial ∈ s.dials)
    (hcareful : s.Careful host (.expired dial)) :
    Tracked { s with
      pending := s.pending.erase dial.deviceId, dials := s.dials.erase dial } := by
  refine ⟨fun other hother => hs.valid other (List.mem_of_mem_erase hother),
    fun other hother => Finset.mem_erase.mpr ⟨fun hsame => ?_, ?_⟩, hs.apart_rest dial,
    hs.opened, fun other hother => hs.connecting other (List.mem_of_mem_erase hother),
    fun u hopened => ?_⟩
  · obtain ⟨u, hu⟩ := hs.valid dial hdial
    exact hs.apart_erase hdial hother hu (hsame ▸ hu)
  · exact hs.pending other (List.mem_of_mem_erase hother)
  · rcases hs.covered u hopened with hregistered | ⟨other, hother, hdenotes⟩
    · exact .inl hregistered
    · by_cases heq : other = dial
      · exact .inl (hcareful u (heq ▸ hdenotes) hopened)
      · exact .inr ⟨other, (List.mem_erase_of_ne heq).mpr hother, hdenotes⟩

/-! ## The rest of the process -/

/-- A device that is no longer registered was taken away by a cleanup. -/
theorem registered_node {e : NodeEvent} {node : Node} (hstep : s.node.step host e = some node)
    (h : s.Registered uuid) :
    Registered { s with node := node } uuid
      ∨ ∃ session c d, e = .cleanup session ∧ s.node.connection session = some c
        ∧ c.writer = .cleanup .removeDevice ∧ d ∈ s.node.registry ∧ d.sessionId = session
        ∧ Denotes d.deviceId uuid := by
  obtain ⟨d, hd, hready, hdenotes⟩ := h
  rcases Node.registry_step hstep with hsame | ⟨session, fails, c, a, replaced, -, -, -, -, harb⟩ |
    ⟨session, c, rfl, hc, hwriter, hremoved⟩
  · exact .inl ⟨d, hsame ▸ hd, hready, hdenotes⟩
  · rcases DeviceRegistry.mem_or_replaced harb hd with hkept | hreplaced
    · exact .inl ⟨d, hkept, hready, hdenotes⟩
    · -- the device that replaced it has its text
      refine .inl ⟨_, DeviceRegistry.mem_published harb, rfl, ?_⟩
      rcases DeviceRegistry.arbitrate_cases harb with ⟨hnone, -⟩ |
        ⟨before, existing, after, -, -, hexisting, hid⟩
      · rw [hreplaced] at hnone
        cases hnone
      · obtain rfl := Option.some.inj (hreplaced.symm.trans hexisting)
        exact hid ▸ hdenotes
  · by_cases hown : d.sessionId = session
    · exact .inr ⟨session, c, d, rfl, hc, hwriter, hd, hown, hdenotes⟩
    · refine .inl ⟨d, ?_, hready, hdenotes⟩
      show d ∈ node.registry
      rw [hremoved]
      exact List.mem_filter.mpr ⟨hd, decide_eq_true hown⟩

theorem Tracked.node (hs : s.Tracked) {e : NodeEvent} {node : Node}
    (hcareful : s.Careful host (.node e)) (hstep : s.node.step host e = some node) :
    Tracked { s with node := node } := by
  have heffect := Node.step_effect hstep
  have hopen : ∀ {u : TrustUuid}, Open { s with node := node } u → s.Open u := by
    rintro u ⟨x, hx, hdenotes, hholds⟩
    exact ⟨x, hx, hdenotes, Node.holds_of_effect heffect (hs.opened x hx) hholds⟩
  refine ⟨hs.valid, hs.pending, hs.apart, fun x hx => ?_, fun dial hdial hstage u hu hopened => ?_,
    fun u hopened => ?_⟩
  · exact (hs.opened x hx).trans_le (Node.nextSession_le_of_effect heffect)
  · exact hs.connecting dial hdial hstage u hu (hopen hopened)
  · rcases hs.covered u (hopen hopened) with hregistered | hpending
    · rcases registered_node hstep hregistered with hkept |
        ⟨session, c, d, rfl, hc, hwriter, hd, hown, hdenotes⟩
      · exact .inl hkept
      · exact .inr (hcareful c hc hwriter d hd hown u hdenotes (hopen hopened))
    · exact .inr hpending

/-- **Every careful step keeps track.** -/
theorem Tracked.step (hs : s.Tracked) {e : DiscoveryEvent} (hcareful : s.Careful host e)
    (h : s.step host e = some t) : t.Tracked := by
  cases e with
  | discovered text =>
    cases h
    exact hs.discovered hcareful
  | connected dial =>
    simp only [Discovery.step] at h
    split at h
    · rename_i hdial
      obtain ⟨node, hnode, rfl⟩ := Option.map_eq_some_iff.mp h
      exact hs.connected hdial.1 hnode
    · cases h
  | refused dial =>
    simp only [Discovery.step] at h
    split at h
    · rename_i hdial
      cases h
      exact hs.refused hdial.1
    · cases h
  | expired dial =>
    simp only [Discovery.step] at h
    split at h
    · rename_i hdial
      cases h
      exact hs.expired hdial.1 hcareful
    · cases h
  | node e =>
    obtain ⟨node, hnode, rfl⟩ := Option.map_eq_some_iff.mp h
    exact hs.node hcareful hnode

/-- A device that is registered now was registered, or an activation has
published it. -/
theorem registered_of_node {e : NodeEvent} {node : Node} (hstep : s.node.step host e = some node)
    (h : Registered { s with node := node } uuid) :
    s.Registered uuid
      ∨ ∃ session fails c a, e = .activate session fails ∧ s.node.connection session = some c
        ∧ c.writer = .activation a ∧ a.stage = .registered ∧ a.peer.uuid = uuid := by
  obtain ⟨d, hd, hready, hdenotes⟩ := h
  change d ∈ node.registry at hd
  rcases Node.registry_step hstep with hsame |
    ⟨session, fails, c, a, replaced, he, hc, hwriter, hstage, harb⟩ |
    ⟨session, c, -, -, -, hremoved⟩
  · exact .inl ⟨d, hsame ▸ hd, hready, hdenotes⟩
  · rcases DeviceRegistry.mem_of_arbitrate harb hd with rfl | hd
    · refine .inr ⟨session, fails, c, a, he, hc, hwriter, hstage, ?_⟩
      change Denotes a.peer.deviceId uuid at hdenotes
      rw [a.peer.named, Denotes, trustUuidFromString_toString] at hdenotes
      exact Except.ok.inj hdenotes
    · exact .inl ⟨d, hd, hready, hdenotes⟩
  · rw [hremoved] at hd
    exact .inl ⟨d, (List.mem_filter.mp hd).1, hready, hdenotes⟩

/-- **Every step keeps it that registers no device while it is being
connected to.** -/
theorem Unregistered.step (hs : s.Unregistered) {e : DiscoveryEvent} (hcareful : s.Careful host e)
    (hundisturbed : s.Undisturbed e) (h : s.step host e = some t) : t.Unregistered := by
  have hrest : ∀ {dial : Dial} {stage : DialStage}, stage ≠ .connecting →
      ∀ other ∈ ({ dial with stage := stage } : Dial) :: s.dials.erase dial,
        other.stage = .connecting → ∀ u, Denotes other.deviceId u → ¬ s.Registered u := by
    intro dial stage hne other hother hstage u hu
    rcases List.mem_cons.mp hother with rfl | hother
    · exact absurd hstage hne
    · exact hs other (List.mem_of_mem_erase hother) hstage u hu
  cases e with
  | discovered text =>
    cases h
    rcases onDeviceDiscovered_cases host s text with hsame |
      ⟨-, hself, hconnected, hpending, hdialled⟩
    · rw [hsame]
      exact hs
    · rw [hdialled]
      intro dial hdial hstage u hu
      rcases List.mem_cons.mp hdial with rfl | hdial
      · exact not_registered_of_dialled (s := s) hself hconnected hpending hcareful hu
      · exact hs dial hdial hstage u hu
  | connected dial =>
    simp only [Discovery.step] at h
    split at h
    · obtain ⟨node, hnode, rfl⟩ := Option.map_eq_some_iff.mp h
      cases hnode
      exact hrest (by simp)
    · cases h
  | refused dial =>
    simp only [Discovery.step] at h
    split at h
    · cases h
      exact hrest (by simp)
    · cases h
  | expired dial =>
    simp only [Discovery.step] at h
    split at h
    · cases h
      exact fun other hother => hs other (List.mem_of_mem_erase hother)
    · cases h
  | node e =>
    obtain ⟨node, hnode, rfl⟩ := Option.map_eq_some_iff.mp h
    intro dial hdial hstage u hu hregistered
    rcases registered_of_node hnode hregistered with hregistered |
      ⟨session, fails, c, a, rfl, hc, hwriter, hpublishing, rfl⟩
    · exact hs dial hdial hstage u hu hregistered
    · exact hundisturbed c a hc hwriter hpublishing dial hdial hstage hu

/-! ## Runs -/

theorem tracked_initial : initial.Tracked where
  valid _ h := by cases h
  pending _ h := by cases h
  apart := List.Pairwise.nil
  opened _ h := by cases h
  connecting _ h := by cases h
  covered _ := by
    rintro ⟨x, hx, -⟩
    cases hx

theorem Tracked.runs {events : List DiscoveryEvent}
    (hcareful : EachStep (Discovery.step host) (Careful host) initial events)
    (hrun : Gasoline.runs (Discovery.step host) initial events = some s) : s.Tracked :=
  hcareful.invariant (fun _ _ _ hs hc hstep => Tracked.step hs hc hstep) hrun tracked_initial

/-- **A device is dialled once at a time**, in every run of careful steps. A
callback that starts a dial does so while no connection that a dial opened
for the UUID is open, and the registry has no ready entry for it. At the time
the connection is created, still no other is open; and the registry still
has no entry, if none was published while the dial was connecting. -/
theorem dialled_once {events : List DiscoveryEvent} {e : DiscoveryEvent}
    (hcareful : EachStep (step host) (Careful host) initial (events ++ [e]))
    (hrun : Gasoline.runs (step host) initial events = some s)
    (hstep : s.step host e = some t) :
    (∀ text, e = .discovered text → t.dials ≠ s.dials → ∀ uuid, Denotes text uuid →
        ¬ s.Open uuid ∧ ¬ s.Registered uuid)
      ∧ ∀ dial, e = .connected dial → ∀ uuid, Denotes dial.deviceId uuid →
        ¬ s.Open uuid
          ∧ (EachStep (step host) Undisturbed initial events → ¬ s.Registered uuid) := by
  obtain ⟨hbefore, hlast⟩ := hcareful.of_concat
  have htracked := Tracked.runs hbefore hrun
  refine ⟨fun text he hdialled uuid huuid => ?_, fun dial he uuid huuid => ?_⟩
  · subst he
    cases hstep
    rcases onDeviceDiscovered_cases host s text with hsame |
      ⟨-, hself, hconnected, hpending, -⟩
    · rw [hsame] at hdialled
      exact absurd rfl hdialled
    · have hcareful := hlast s hrun
      exact ⟨htracked.not_open_of_dialled hself hconnected hpending hcareful huuid,
        not_registered_of_dialled hself hconnected hpending hcareful huuid⟩
  · subst he
    simp only [Discovery.step] at hstep
    split at hstep
    · rename_i hdial
      refine ⟨htracked.connecting dial hdial.1 hdial.2 uuid huuid, fun hundisturbed => ?_⟩
      have hunregistered : s.Unregistered :=
        (hbefore.and hundisturbed).invariant
          (fun _ _ _ hs hc hstep => Unregistered.step hs hc.1 hc.2 hstep) hrun
          (fun _ h => by cases h)
      exact hunregistered dial hdial.1 hdial.2 uuid huuid
    · cases hstep

/-- A process that knows itself by another id. -/
def dialHost : Host := legacyHost (ascii "00000000-0000-0000-0000-000000000001")

/-- The hypotheses are met by a first dial. -/
theorem dialled_once_first :
    ∃ s t, Gasoline.runs (step dialHost) initial [.discovered canonicalId] = some s
      ∧ s.step dialHost (.connected ⟨canonicalId, .connecting⟩) = some t
      ∧ ¬ s.Open legacyUuid ∧ ¬ s.Registered legacyUuid ∧ t.opened = [(canonicalId, 1)] := by
  obtain ⟨s, hs, hdials⟩ : ∃ s, Gasoline.runs (step dialHost) initial [.discovered canonicalId]
      = some s ∧ s.dials = [⟨canonicalId, .connecting⟩] ∧ s.node.nextSession = 1 ∧ s.opened = [] :=
    ⟨_, rfl, by decide +kernel, by decide +kernel, by decide +kernel⟩
  have hstep : s.step dialHost (.connected ⟨canonicalId, .connecting⟩) = some { s with
      node := { s.node.setConnection 1 (.create true) with
        manager := insert 1 s.node.manager
        nextSession := 2 }
      dials := [⟨canonicalId, .waiting (some 1)⟩]
      opened := [(canonicalId, 1)] } := by
    simp [Discovery.step, Node.step, hdials]
  have hcareful : EachStep (step dialHost) (Careful dialHost) initial
      ([.discovered canonicalId] ++ [.connected ⟨canonicalId, .connecting⟩]) := by
    refine ⟨fun _ _ _ _ _ => ⟨fun _ h => (by cases h), fun _ h => (by cases h)⟩, fun _ _ => ?_⟩
    exact ⟨trivial, fun _ _ => trivial⟩
  have hundisturbed : EachStep (step dialHost) Undisturbed initial [.discovered canonicalId] :=
    ⟨trivial, fun _ _ => trivial⟩
  obtain ⟨hopen, hregistered⟩ := (dialled_once hcareful hs hstep).2 _ rfl legacyUuid
    (by decide +kernel)
  exact ⟨s, _, hs, hstep, hopen, hregistered hundisturbed, rfl⟩

/-- **A device is dialled again during its handshake.** The first dial opens
a connection, and two seconds later the device is no longer pending: the
next callback dials it again, and a second connection is opened while the
first is open. -/
theorem dialled_twice :
    ∃ s t u, Gasoline.runs (step dialHost) initial
        [.discovered canonicalId, .connected ⟨canonicalId, .connecting⟩,
          .expired ⟨canonicalId, .waiting (some 1)⟩] = some s
      ∧ s.Open legacyUuid
      ∧ s.step dialHost (.discovered canonicalId) = some t
      ∧ t.dials = ⟨canonicalId, .connecting⟩ :: s.dials
      ∧ t.step dialHost (.connected ⟨canonicalId, .connecting⟩) = some u
      ∧ u.opened = [(canonicalId, 2), (canonicalId, 1)]
      ∧ u.node.holds 1 = true ∧ u.node.holds 2 = true := by
  refine ⟨_, _, _, rfl, ⟨(canonicalId, 1), ?_, ?_, ?_⟩, rfl, ?_, rfl, ?_, ?_, ?_⟩
  · decide +kernel
  · decide +kernel
  · decide +kernel
  · decide +kernel
  · decide +kernel
  · decide +kernel
  · decide +kernel

end Discovery

end Gasoline
