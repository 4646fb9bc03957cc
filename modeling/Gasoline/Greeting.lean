import Gasoline.TrafficRuns

/-!
# The setup record

Until a session is ready it takes one record, the hello of its peer. Whether
a record is one is decided in several places: the raw size is checked, the
record is parsed, the size of a control record is checked, and the router
hands the packet to `HelloHandler`; some of it fails by an exception.
`WellFormedHello` says in one place what all of it comes to.

A record is then followed through `handle_record`, with any steps of the rest
of the process in between, by what is known of it at each stage
(`Connection.OnCourse`). It is accepted or the session is stopped, and nothing
else is touched.
-/

namespace Gasoline

/-! ## What a hello is -/

/-- **A well-formed hello**: a short text of an object that is called a
hello, has the id of a device and, for its payload, an object with the name
and the type of the device. -/
def WellFormedHello (host : Host) (payload : Bytes) : Prop :=
  payload.length ≤ 4096 ∧ ∃ j, host.parse payload = .ok j ∧ j.isObject = true
    ∧ j.find (ascii "type") = some (.string (ascii "hello"))
    ∧ (∃ deviceId, j.find (ascii "device_id") = some (.string deviceId) ∧ deviceId ≠ [])
    ∧ ∃ metadata, j.find (ascii "payload") = some metadata ∧ metadata.isObject = true
      ∧ (∃ deviceName, metadata.find (ascii "device_name") = some (.string deviceName))
      ∧ ∃ deviceType, metadata.find (ascii "device_type") = some (.string deviceType)

theorem isNone_bind_text {value : Option Json} :
    (value.bind Json.text).isNone = true ↔ ¬ ∃ text, value = some (.string text) := by
  rw [Option.isNone_iff_eq_none, Option.eq_none_iff_forall_ne_some, not_exists]
  exact forall_congr' (fun _ => not_congr bind_text_eq_some)

/-- **What `HelloHandler` accepts.** -/
theorem HelloHandler.handle_eq_proceed_iff {pkt : Packet} :
    HelloHandler.handle pkt = .proceed ↔ pkt.type = ascii "hello" ∧ pkt.payload.isObject = true
      ∧ (∃ deviceName, pkt.payload.find (ascii "device_name") = some (.string deviceName))
      ∧ (∃ deviceType, pkt.payload.find (ascii "device_type") = some (.string deviceType))
      ∧ pkt.deviceId ≠ [] := by
  unfold HelloHandler.handle
  split
  · rename_i h
    refine iff_of_false (by simp) ?_
    rintro ⟨htype, hobject, -⟩
    simp [htype, hobject] at h
  · rename_i hhello
    split
    · rename_i h
      rw [Bool.or_eq_true, isNone_bind_text, isNone_bind_text] at h
      refine iff_of_false (by simp) ?_
      rintro ⟨-, -, hname, htype, -⟩
      exact h.elim (· hname) (· htype)
    · rename_i hmeta
      rw [Bool.or_eq_true, isNone_bind_text, isNone_bind_text, not_or, not_not, not_not] at hmeta
      have hhello' : pkt.type = ascii "hello" ∧ pkt.payload.isObject = true := by
        simpa using hhello
      split
      · rename_i hempty
        refine iff_of_false (by simp) ?_
        rintro ⟨-, -, -, -, hne⟩
        exact hne (List.isEmpty_iff.mp hempty)
      · rename_i hempty
        refine iff_of_true rfl ⟨hhello'.1, hhello'.2, hmeta.1, hmeta.2, ?_⟩
        exact fun h => hempty (List.isEmpty_iff.mpr h)

/-- `HelloHandler` never asks for another session to be disconnected. -/
theorem HelloHandler.handle_cases (pkt : Packet) :
    HelloHandler.handle pkt = .proceed ∨ HelloHandler.handle pkt = .disconnectCurrent := by
  unfold HelloHandler.handle
  split_ifs
  · exact .inr rfl
  · exact .inr rfl
  · exact .inr rfl
  · exact .inl rfl

/-- A well-formed hello is what passes all the checks there are. -/
theorem wellFormedHello_iff {host : Host} {payload : Bytes} : WellFormedHello host payload
    ↔ payload.length ≤ maxControlRecordSize ∧ ∃ pkt, parsePacket host.parse payload = .ok pkt
      ∧ HelloHandler.handle pkt = .proceed := by
  unfold WellFormedHello
  refine and_congr Iff.rfl ⟨?_, ?_⟩
  · rintro ⟨j, hparse, hobject, htype, ⟨deviceId, hid, hne⟩, metadata, hpayload, hmeta, hname, hkind⟩
    refine ⟨⟨ascii "hello", deviceId, metadata⟩, ?_,
      HelloHandler.handle_eq_proceed_iff.mpr ⟨rfl, hmeta, hname, hkind, hne⟩⟩
    refine parsePacket_eq_ok_iff.mpr ⟨j, hparse, hobject, htype, hid, fun _ => ?_, ?_⟩
    · rw [hpayload]
      exact hmeta
    · rw [hpayload]
      rfl
  · rintro ⟨pkt, hpkt, hhandle⟩
    obtain ⟨htype, hmeta, hname, hkind, hne⟩ := HelloHandler.handle_eq_proceed_iff.mp hhandle
    obtain ⟨j, hparse, hobject, hhello, hid, hpayload, heq⟩ := parsePacket_eq_ok_iff.mp hpkt
    obtain ⟨metadata, hmetadata, -⟩ := (Option.any_eq_true _ _).mp (hpayload htype)
    rw [hmetadata] at heq
    rw [htype] at hhello
    obtain rfl : pkt.payload = metadata := heq
    exact ⟨j, hparse, hobject, hhello, ⟨_, hid, hne⟩, _, hmetadata, hmeta, hname, hkind⟩

/-! ## A record on its course -/

/-- **The record is accepted**: no hello was received before, and it is
one. -/
def Accepted (host : Host) (received : Bool) (payload : Bytes) : Prop :=
  received = false ∧ WellFormedHello host payload

namespace HandlingStage

/-- **What is known of a record at a stage**, in a session that is not
ready. The other stages are not come to. -/
def Knows (host : Host) (received : Bool) (payload : Bytes) : HandlingStage → Prop
  | .loadStopping => True
  | .checkDeadline => True
  | .checkSize => True
  | .parse => received = false → payload.length ≤ maxControlRecordSize
  | .decide pkt => (received = false → payload.length ≤ maxControlRecordSize)
      ∧ parsePacket host.parse payload = .ok pkt
  | .unverified pkt => (received = false → payload.length ≤ maxControlRecordSize)
      ∧ parsePacket host.parse payload = .ok pkt
  | .greeted => Accepted host received payload
  | .disconnect => ¬ Accepted host received payload
  | .stopped => ¬ Accepted host received payload
  | _ => False

/-- How many steps of `handle_record` are left before it returns. -/
def remaining : HandlingStage → ℕ
  | .loadStopping => 7
  | .checkDeadline => 6
  | .checkSize => 5
  | .parse => 4
  | .decide _ => 3
  | .unverified _ => 2
  | .disconnect => 1
  | _ => 0

end HandlingStage

/-- **What `handle_record` may do next** with a record of a session that is
not ready: it goes on, accepts the hello, stops the session, or returns. -/
inductive Handling.Turn (host : Host) (received : Bool) (h : Handling) :
    HandlingAction × Handling → Prop
  | goes {stage : HandlingStage} {observed : Option Bool} (hknows : stage.Knows host received h.payload)
      (hremaining : 0 < stage.remaining ∧ stage.remaining < h.stage.remaining) :
      Turn host received h (.nothing, ⟨h.payload, observed, stage⟩)
  | accepts (haccepted : Accepted host received h.payload) (hremaining : 0 < h.stage.remaining) :
      Turn host received h (.acceptHello, { h with stage := .greeted })
  | stops (hrejected : ¬ Accepted host received h.payload) (hremaining : 0 < h.stage.remaining) :
      Turn host received h (.requestDisconnect, { h with stage := .stopped })
  | returns (hremaining : h.stage.remaining = 0) : Turn host received h (.returns, h)

/-- **Every step of `handle_record` is one of these.** -/
theorem Handling.turn {host : Host} {received : Bool} {c : Connection} {h : Handling}
    {current : AuthorizedPeer → Bool} (hready : c.ready = false)
    (hknows : h.stage.Knows host received h.payload)
    (hfresh : 0 < h.stage.remaining → c.stopping = false ∧ c.peerHelloReceived = received) :
    Turn host received h (h.step host c false current) := by
  obtain ⟨payload, observed, stage⟩ := h
  simp only at hknows hfresh
  cases stage with
  | loadStopping =>
    obtain ⟨hstopping, -⟩ := hfresh (by simp [HandlingStage.remaining])
    simp only [step, hstopping, Bool.false_eq_true, if_false]
    exact .goes trivial (by simp [HandlingStage.remaining])
  | checkDeadline =>
    simp only [step, Bool.and_false, Bool.false_eq_true, if_false]
    exact .goes trivial (by simp [HandlingStage.remaining])
  | checkSize =>
    obtain ⟨-, rfl⟩ := hfresh (by simp [HandlingStage.remaining])
    simp only [step, hready, Bool.not_false, Bool.true_and]
    split
    · rename_i hlarge
      rw [Bool.and_eq_true, decide_eq_true_eq] at hlarge
      refine .goes (fun haccepted => ?_) (by simp [HandlingStage.remaining])
      exact absurd haccepted.2.1 (Nat.not_le.mpr hlarge.2)
    · rename_i hsmall
      refine .goes (fun hreceived => ?_) (by simp [HandlingStage.remaining])
      simpa [hreceived] using hsmall
  | parse =>
    simp only [step]
    split
    · rename_i message hparse
      refine .goes (fun haccepted => ?_) (by simp [HandlingStage.remaining])
      obtain ⟨-, pkt, hpkt, -⟩ := wellFormedHello_iff.mp haccepted.2
      rw [hparse] at hpkt
      cases hpkt
    · rename_i pkt hparse
      split
      · rename_i hlarge
        rw [Bool.and_eq_true, decide_eq_true_eq] at hlarge
        refine .goes (fun haccepted => ?_) (by simp [HandlingStage.remaining])
        exact absurd haccepted.2.1 (Nat.not_le.mpr hlarge.2)
      · exact .goes ⟨hknows, hparse⟩ (by simp [HandlingStage.remaining])
  | decide pkt =>
    simp only [step, hready, Bool.false_eq_true, if_false]
    exact .goes hknows (by simp [HandlingStage.remaining])
  | unverified pkt =>
    obtain ⟨-, rfl⟩ := hfresh (by simp [HandlingStage.remaining])
    have hroute : pkt.type = ascii "hello" → PacketRouter.route pkt none
        = if HelloHandler.handle pkt = .proceed then .proceed else .disconnect := by
      intro htype
      simp only [PacketRouter.route, htype, beq_self_eq_true, if_true]
      rcases HelloHandler.handle_cases pkt with heq | heq <;> simp [heq]
    have haccepted : Accepted host c.peerHelloReceived payload
        ↔ c.peerHelloReceived = false ∧ HelloHandler.handle pkt = .proceed := by
      refine and_congr_right (fun hreceived => ?_)
      rw [wellFormedHello_iff, hknows.2]
      simp [hknows.1 hreceived]
    simp only [step]
    split
    · rename_i hother
      refine .goes (fun h => ?_) (by simp [HandlingStage.remaining])
      obtain ⟨hreceived, hproceed⟩ := haccepted.mp h
      simp [hreceived, (HelloHandler.handle_eq_proceed_iff.mp hproceed).1] at hother
    · rename_i hhello
      simp only [Bool.or_eq_true, bne_iff_ne, ne_eq, not_or, not_not, Bool.not_eq_true] at hhello
      rw [hroute hhello.1]
      split_ifs with hproceed
      · exact .accepts (haccepted.mpr ⟨hhello.2, hproceed⟩) (by simp [HandlingStage.remaining])
      · exact .goes (fun h => hproceed (haccepted.mp h).2) (by simp [HandlingStage.remaining])
  | disconnect => exact .stops hknows (by simp [HandlingStage.remaining])
  | stopped => exact .returns rfl
  | greeted => exact .returns rfl
  | _ => exact hknows.elim

namespace Connection

variable {host : Host} {received : Bool} {payload : Bytes} {c c' : Connection}

/-- **What is known of a session** from the moment a record was delivered to
it. -/
def OnCourse (host : Host) (received : Bool) (payload : Bytes) (c : Connection) : Prop :=
  match c.handling with
  | some h => h.payload = payload ∧ h.stage.Knows host received payload
      ∧ (0 < h.stage.remaining → c.stopping = false ∧ c.peerHelloReceived = received)
      ∧ (h.stage.remaining = 0 → (c.stopping = false ↔ Accepted host received payload)
        ∧ (Accepted host received payload → c.peerHelloReceived = true))
  | none => (c.stopping = false ↔ Accepted host received payload)
      ∧ (Accepted host received payload → c.peerHelloReceived = true)

/-- It is known of a session that has not been disturbed, nor stopped. -/
theorem OnCourse.congr (h : c.OnCourse host received payload) (hhandling : c'.handling = c.handling)
    (hstopping : c'.stopping = c.stopping) (hhello : c'.peerHelloReceived = c.peerHelloReceived) :
    c'.OnCourse host received payload := by
  unfold OnCourse at h ⊢
  rw [hhandling, hstopping, hhello]
  exact h

/-- **`handle_record` keeps its course.** -/
theorem OnCourse.perform (h : c.OnCourse host received payload) {handling : Handling}
    (hhandling : c.handling = some handling) {x : HandlingAction × Handling}
    (hturn : handling.Turn host received x) (hc' : c.perform host x = some c') :
    c'.OnCourse host received payload := by
  unfold OnCourse at h
  rw [hhandling] at h
  obtain ⟨rfl, -, hpending, hover⟩ := h
  cases hturn with
  | goes hknows hremaining =>
    cases hc'
    exact ⟨rfl, hknows, fun _ => hpending (hremaining.1.trans hremaining.2),
      fun hzero => absurd hzero hremaining.1.ne'⟩
  | accepts haccepted hremaining =>
    cases hc'
    exact ⟨rfl, haccepted, fun h => absurd h (by simp [HandlingStage.remaining]),
      fun _ => ⟨iff_of_true (hpending hremaining).1 haccepted, fun _ => rfl⟩⟩
  | stops hrejected hremaining =>
    obtain ⟨d, hd, rfl⟩ := Option.map_eq_some_iff.mp hc'
    unfold requestDisconnect at hd
    split at hd
    · cases hd
    · cases hd
      exact ⟨rfl, hrejected, fun h => absurd h (by simp [HandlingStage.remaining]),
        fun _ => ⟨iff_of_false (by simp) hrejected, fun h => absurd h hrejected⟩⟩
  | returns hremaining =>
    cases hc'
    exact hover hremaining

/-- **What becomes of the session** where nothing but the record decides. -/
def Settles (host : Host) (received : Bool) (payload : Bytes) (c c' : Connection) : Prop :=
  (Accepted host received payload → c' = { c with handling := none, peerHelloReceived := true })
    ∧ (¬ Accepted host received payload → c' = { c with handling := none, stopping := true })

/-- `handle_record` returns, behind its last step. -/
theorem OnCourse.settles {h : Handling} (hcourse : c.OnCourse host received payload)
    (hhandling : c.handling = some h) (hremaining : h.stage.remaining = 0) :
    c.Settles host received payload { c with handling := none } := by
  unfold OnCourse at hcourse
  rw [hhandling] at hcourse
  obtain ⟨hiff, hhello⟩ := hcourse.2.2.2 hremaining
  refine ⟨fun haccepted => ?_, fun hrejected => ?_⟩
  · rw [← hhello haccepted]
  · rw [← (Bool.not_eq_false _).mp (fun h => hrejected (hiff.mp h))]

theorem peerHelloReceived_beginSend (packet : Json) :
    (c.beginSend packet).peerHelloReceived = c.peerHelloReceived := by
  rcases beginSend_cases (c := c) packet with h | ⟨-, h⟩ | h <;> rw [h]

theorem peerHelloReceived_sending {db : Database} {fails : Bool} {outcome : SendOutcome}
    (h : c.sending db fails outcome = some c') : c'.peerHelloReceived = c.peerHelloReceived := by
  unfold sending at h
  split at h
  · split at h <;> cases h <;> rfl
  · split at h <;> cases h <;> rfl
  · cases h

end Connection

namespace Node

variable {host : Host} {n n' : Node} {e : NodeEvent} {session : ℕ} {received : Bool}
  {payload : Bytes}

/-- **Nothing but the record decides**: whenever `handle_record` goes on, the
session is not ready and its deadline has not passed, no one else stops it,
and no other record is delivered. -/
structure Calm (host : Host) (session : ℕ) (n : Node) (e : NodeEvent) : Prop where
  onTime : ∀ late fails, e = .handle session late fails →
    late = false ∧ ∀ c, n.connection session = some c → c.ready = false
  undisturbed : (∀ late fails, e ≠ .handle session late fails) → ∀ n', n.step host e = some n' →
    (n'.connection session).map Connection.stopping = (n.connection session).map Connection.stopping
  sameRecord : ∀ payload, e ≠ .receive session payload

/-- The session is on its course. -/
def OnCourse (host : Host) (session : ℕ) (received : Bool) (payload : Bytes) (n : Node) : Prop :=
  n.Disciplined ∧ ∃ c, n.connection session = some c ∧ c.OnCourse host received payload

/-- What `handle_record` does next, seen from the process. -/
theorem OnCourse.turn (hn : n.OnCourse host session received payload) {late fails : Bool}
    (hcalm : n.Calm host session (.handle session late fails))
    (h : n.step host (.handle session late fails) = some n') :
    ∃ c handling, n.connection session = some c ∧ c.handling = some handling
      ∧ c.OnCourse host received payload
      ∧ ∃ x, handling.Turn host received x ∧ n.perform host c session x = some n' := by
  obtain ⟨-, c, hc, hcourse⟩ := hn
  cases happens h with
  | @handle _ late fails d handling m hd hhandling h =>
    obtain rfl := Option.some.inj (hc.symm.trans hd)
    obtain ⟨rfl, hready⟩ := hcalm.onTime late fails rfl
    have hknown := hcourse
    unfold Connection.OnCourse at hknown
    rw [hhandling] at hknown
    obtain ⟨rfl, hknows, hpending, -⟩ := hknown
    exact ⟨c, handling, hc, hhandling, hcourse, _,
      Handling.turn (hready c hc) hknows hpending, h⟩

/-- **A step keeps the session on its course.** -/
theorem OnCourse.step (hn : n.OnCourse host session received payload)
    (hcalm : n.Calm host session e) (h : n.step host e = some n') :
    n'.OnCourse host session received payload := by
  refine ⟨hn.1.effect (step_effect h), ?_⟩
  by_cases hhandle : ∃ late fails, e = .handle session late fails
  · obtain ⟨late, fails, rfl⟩ := hhandle
    obtain ⟨c, handling, hc, hhandling, hcourse, x, hturn, hperform⟩ := hn.turn hcalm h
    obtain ⟨c', hc', rfl⟩ := Option.map_eq_some_iff.mp hperform
    refine ⟨c', ?_, hcourse.perform hhandling hturn hc'⟩
    show (n.setConnection session c').connection session = some c'
    rw [setConnection_connection, if_pos rfl]
  · push Not at hhandle
    obtain ⟨c, hc, hcourse⟩ := hn.2
    obtain ⟨c', hc', hwork⟩ := work_of_step hn.1 h hc
    have hstopping : c'.stopping = c.stopping := by
      have := hcalm.undisturbed hhandle n' h
      rw [hc, hc'] at this
      exact Option.some.inj this
    refine ⟨c', hc', hcourse.congr ?_ hstopping ?_⟩
    · cases hwork with
      | other hundisturbed => exact hundisturbed.handling
      | receive hnone => exact absurd rfl (hcalm.sameRecord _)
      | handle hh hperform => exact absurd rfl (hhandle _ _)
      | send hfree => exact Connection.handling_beginSend _
      | sending hsending => exact (Connection.later_sending hsending).2
    · cases hwork with
      | other hundisturbed => exact hundisturbed.peerHelloReceived
      | receive hnone => rfl
      | handle hh hperform => exact absurd rfl (hhandle _ _)
      | send hfree => exact Connection.peerHelloReceived_beginSend _
      | sending hsending => exact Connection.peerHelloReceived_sending hsending

theorem OnCourse.runs (hn : n.OnCourse host session received payload) {events : List NodeEvent}
    (hcalm : EachStep (Node.step host) (Calm host session) n events)
    (h : Gasoline.runs (Node.step host) n events = some n') :
    n'.OnCourse host session received payload :=
  hcalm.invariant (I := OnCourse host session received payload)
    (fun _ _ _ hm he hstep => hm.step he hstep) h hn

/-- A record is delivered to a session whose worker is not at another one. -/
theorem connection_of_receive {c : Connection} (hc : n.connection session = some c)
    (h : n.step host (.receive session payload) = some n') : c.handling = none
      ∧ n' = n.setConnection session { c with handling := some ⟨payload, none, .loadStopping⟩ } := by
  cases happens h with
  | receive hd hhandling =>
    obtain rfl := Option.some.inj (hc.symm.trans hd)
    exact ⟨hhandling, rfl⟩

/-- A record that was delivered is on its course. -/
theorem onCourse_of_receive (hdisciplined : n.Disciplined) {c : Connection}
    (hc : n.connection session = some c) (hstopping : c.stopping = false)
    (h : n.step host (.receive session payload) = some n') :
    n'.OnCourse host session c.peerHelloReceived payload := by
  refine ⟨hdisciplined.effect (step_effect h), ?_⟩
  obtain ⟨-, rfl⟩ := connection_of_receive hc h
  refine ⟨_, by rw [setConnection_connection, if_pos rfl], ?_⟩
  exact ⟨rfl, trivial, fun _ => ⟨hstopping, rfl⟩,
    fun h => absurd h (by simp [HandlingStage.remaining])⟩

/-! ## What is not touched -/

/-- **Nothing else changed**: the registry, the live map, the event bus, the
other sessions, and whether this one is ready. -/
structure Untouched (session : ℕ) (n n' : Node) : Prop where
  registry : n'.registry = n.registry
  live : n'.live = n.live
  events : n'.events = n.events
  ready : (n'.connection session).map Connection.ready
    = (n.connection session).map Connection.ready
  others : ∀ other, other ≠ session → n'.connection other = n.connection other

theorem OnCourse.untouched (hn : n.OnCourse host session received payload) {late fails : Bool}
    (hcalm : n.Calm host session (.handle session late fails))
    (h : n.step host (.handle session late fails) = some n') : n.Untouched session n' := by
  obtain ⟨c, handling, hc, -, -, x, hturn, hperform⟩ := hn.turn hcalm h
  obtain ⟨c', hc', rfl⟩ := Option.map_eq_some_iff.mp hperform
  refine ⟨rfl, rfl, ?_, ?_, fun other hne => ?_⟩
  · cases hturn <;> rfl
  · show ((n.setConnection session c').connection session).map _ = _
    rw [setConnection_connection, if_pos rfl, hc]
    exact congrArg some (Connection.perform_touches hc').ready
  · show (n.setConnection session c').connection other = _
    rw [setConnection_connection, if_neg hne]

/-! ## Left to itself -/

theorem setConnection_setConnection (c c' : Connection) :
    (n.setConnection session c).setConnection session c' = n.setConnection session c' := by
  unfold setConnection
  rw [Function.update_idem]

/-- **The step of the worker**, where it does not wait. -/
theorem step_handle {c : Connection} {h : Handling} {x : HandlingAction × Handling}
    {c' : Connection} (hc : n.connection session = some c) (hhandling : c.handling = some h)
    (hx : h.step host c false
      (SessionAuthentication.authorizationIsCurrent n.database false) = x)
    (hc' : c.perform host x = some c') (hevent : ∀ event, x.1 ≠ .emit event) :
    n.step host (.handle session false false) = some (n.setConnection session c') := by
  show (n.connection session).bind _ = _
  rw [hc, Option.bind_some, hhandling, Option.bind_some, hx]
  unfold Node.perform
  rw [hc', Option.map_some]
  obtain ⟨action, next⟩ := x
  cases action with
  | emit event => exact absurd rfl (hevent event)
  | _ => rfl

/-- **Left to itself the worker comes to an end**: by then it has done what
the record asks for, and nothing else. Where the session is to be stopped, no
activation must hold `lifecycle_mutex_`. -/
theorem finishes {c : Connection} {h : Handling} (hc : n.connection session = some c)
    (hhandling : c.handling = some h) (hready : c.ready = false)
    (hcourse : c.OnCourse host received payload)
    (hwriter : ¬ Accepted host received payload → c.writer.isActivation = false) :
    ∃ k c', Gasoline.runs (Node.step host) n (List.replicate k (.handle session false false))
        = some (n.setConnection session c')
      ∧ c.Settles host received payload c' := by
  induction hk : h.stage.remaining using Nat.strong_induction_on generalizing n c h with
  | _ k ih =>
  have hknown := hcourse
  unfold Connection.OnCourse at hknown
  rw [hhandling] at hknown
  obtain ⟨rfl, hknows, hpending, -⟩ := hknown
  have hturn : h.Turn host received (h.step host c false
      (SessionAuthentication.authorizationIsCurrent n.database false)) :=
    Handling.turn hready hknows hpending
  -- a step to `d` that leaves fewer, from which the session settles as from `c`
  have hnext : ∀ {action : HandlingAction} {next : Handling} {d : Connection},
      h.step host c false (SessionAuthentication.authorizationIsCurrent n.database false)
        = (action, next) → h.Turn host received (action, next) →
      c.perform host (action, next) = some d → (∀ event, action ≠ .emit event) →
      d.handling = some next → d.writer = c.writer → next.stage.remaining < k →
      (∀ c', d.Settles host received h.payload c' → c.Settles host received h.payload c') →
      ∃ k c', Gasoline.runs (Node.step host) n (List.replicate k (.handle session false false))
          = some (n.setConnection session c') ∧ c.Settles host received h.payload c' := by
    intro action next d hx hturn hd hevent hdhandling hdwriter hless hsettles
    have hstep := step_handle hc hhandling hx hd hevent
    have hdc : (n.setConnection session d).connection session = some d := by
      rw [setConnection_connection, if_pos rfl]
    obtain ⟨j, c', hruns, hc'⟩ := ih _ hless hdc hdhandling
      ((Connection.perform_touches hd).ready.trans hready) (hcourse.perform hhandling hturn hd)
      (fun hrejected => hdwriter ▸ hwriter hrejected) rfl
    refine ⟨j + 1, c', ?_, hsettles c' hc'⟩
    rw [List.replicate_succ]
    refine runs_cons.mpr ⟨_, hstep, ?_⟩
    rw [hruns, setConnection_setConnection]
  generalize hx : h.step host c false
    (SessionAuthentication.authorizationIsCurrent n.database false) = x at hturn
  cases hturn with
  | goes hknows' hremaining =>
    exact hnext hx (.goes hknows' hremaining) rfl (fun _ h => (by cases h)) rfl rfl
      (hk ▸ hremaining.2) (fun _ h => h)
  | accepts haccepted hremaining =>
    refine hnext hx (.accepts haccepted hremaining) rfl (fun _ h => (by cases h)) rfl rfl
      (hk ▸ hremaining) (fun c' h => ⟨fun _ => h.1 haccepted, fun hr => absurd haccepted hr⟩)
  | stops hrejected hremaining =>
    have hrequest : c.requestDisconnect = some { c with stopping := true } :=
      if_neg (by rw [hwriter hrejected]; decide)
    have hd : c.perform host (.requestDisconnect, { h with stage := .stopped })
        = some { c with stopping := true, handling := some { h with stage := .stopped } } := by
      simp only [Connection.perform, hrequest, Option.map_some]
    refine hnext hx (.stops hrejected hremaining) hd (fun _ h => (by cases h)) rfl rfl
      (hk ▸ hremaining)
      (fun c' h => ⟨fun ha => absurd ha hrejected, fun _ => h.2 hrejected⟩)
  | returns hremaining =>
    refine ⟨1, { c with handling := none }, ?_, hcourse.settles hhandling hremaining⟩
    exact runs_cons.mpr ⟨_, step_handle hc hhandling hx rfl (fun _ h => (by cases h)), rfl⟩

/-! ## The setup record -/

theorem hello_lasts (hdisciplined : n.Disciplined) {c : Connection}
    (hc : n.connection session = some c) (hhello : c.peerHelloReceived = true)
    {events : List NodeEvent} (h : Gasoline.runs (Node.step host) n events = some n') :
    ∃ c', n'.connection session = some c' ∧ c'.peerHelloReceived = true := by
  have hinv := runs_invariant
    (I := fun m : Node => m.Disciplined
      ∧ ∃ c, m.connection session = some c ∧ c.peerHelloReceived = true)
    (fun _ _ _ ⟨hm, d, hd, hdhello⟩ hstep => by
      obtain ⟨d', hd', hwork⟩ := work_of_step hm hstep hd
      exact ⟨hm.effect (step_effect hstep), d', hd', hwork.later.hello hdhello⟩)
    h ⟨hdisciplined, c, hc, hhello⟩
  exact hinv.2

/-- **What becomes of a record** that was delivered to a session that is not
ready and not stopping. -/
structure Decided (host : Host) (session : ℕ) (payload : Bytes) (n₀ : Node) (c₀ : Connection)
    (n₁ : Node) : Prop where
  /-- Whatever the other threads do in between, when `handle_record` has
  returned, the session goes on if the record was accepted, and is stopped if
  not. -/
  decides : ∀ events n c, EachStep (Node.step host) (Calm host session) n₁ events →
    runs (Node.step host) n₁ events = some n → n.connection session = some c → c.handling = none →
    (c.stopping = false ↔ Accepted host c₀.peerHelloReceived payload)
      ∧ (Accepted host c₀.peerHelloReceived payload → c.peerHelloReceived = true)
  /-- None of its steps touches anything else. -/
  untouched : ∀ events n late fails n', EachStep (Node.step host) (Calm host session) n₁ events →
    runs (Node.step host) n₁ events = some n → n.Calm host session (.handle session late fails) →
    n.step host (.handle session late fails) = some n' → n.Untouched session n'
  /-- It returns, left to itself: a hello that is accepted leaves the process
  as it was, but for being received. -/
  accepts : Accepted host c₀.peerHelloReceived payload →
    ∃ k, runs (Node.step host) n₁ (List.replicate k (.handle session false false))
      = some (n₀.setConnection session { c₀ with peerHelloReceived := true })
  /-- And any other record leaves it as it was, but for the session being
  stopped, once no activation holds `lifecycle_mutex_`. -/
  stops : ¬ Accepted host c₀.peerHelloReceived payload → c₀.writer.isActivation = false →
    ∃ k, runs (Node.step host) n₁ (List.replicate k (.handle session false false))
      = some (n₀.setConnection session { c₀ with stopping := true })
  /-- Once a hello was received, no later record is accepted. -/
  once : c₀.peerHelloReceived = true → ∀ events n c payload',
    runs (Node.step host) n₀ events = some n → n.connection session = some c →
    ¬ Accepted host c.peerHelloReceived payload'

/-- **A session that is not ready takes a well-formed hello, once, and
nothing else.** In any state the process can come to, for any record. -/
theorem setup_record {events : List NodeEvent} {n₀ n₁ : Node} {c₀ : Connection}
    (hruns : runs (Node.step host) initial events = some n₀)
    (hc₀ : n₀.connection session = some c₀) (hready : c₀.ready = false)
    (hstopping : c₀.stopping = false)
    (hreceive : n₀.step host (.receive session payload) = some n₁) :
    Decided host session payload n₀ c₀ n₁ := by
  have hdisciplined : n₀.Disciplined := runs_invariant (I := Disciplined)
    (fun _ _ _ hm hstep => hm.effect (step_effect hstep)) hruns disciplined_initial
  have hcourse := onCourse_of_receive hdisciplined hc₀ hstopping hreceive
  obtain ⟨hidle, rfl⟩ := connection_of_receive hc₀ hreceive
  have hfinishes : (¬ Accepted host c₀.peerHelloReceived payload → c₀.writer.isActivation = false) →
      ∃ k c', runs (Node.step host) (n₀.setConnection session
            { c₀ with handling := some ⟨payload, none, .loadStopping⟩ })
          (List.replicate k (.handle session false false)) = some (n₀.setConnection session c')
        ∧ c₀.Settles host c₀.peerHelloReceived payload c' := by
    intro hwriter
    obtain ⟨c, hc, hcourse⟩ := hcourse.2
    have hsame := hc
    rw [setConnection_connection, if_pos rfl] at hsame
    obtain rfl := Option.some.inj hsame
    obtain ⟨k, c', hrun, hsettles⟩ := finishes hc rfl hready hcourse hwriter
    exact ⟨k, c', hrun.trans (by rw [setConnection_setConnection]), hsettles⟩
  refine ⟨fun events n c hcalm hrun hc hreturned => ?_, fun events n late fails n' hcalm hrun he hstep
    => (hcourse.runs hcalm hrun).untouched he hstep, fun haccepted => ?_, fun hrejected hwriter => ?_,
    fun hhello events n c payload' hrun hc haccepted => ?_⟩
  · obtain ⟨-, d, hd, hdcourse⟩ := hcourse.runs hcalm hrun
    obtain rfl := Option.some.inj (hc.symm.trans hd)
    unfold Connection.OnCourse at hdcourse
    rw [hreturned] at hdcourse
    exact hdcourse
  · obtain ⟨k, c', hrun, hsettles⟩ := hfinishes (fun h => absurd haccepted h)
    rw [hsettles.1 haccepted, ← hidle] at hrun
    exact ⟨k, hrun⟩
  · obtain ⟨k, c', hrun, hsettles⟩ := hfinishes (fun _ => hwriter)
    rw [hsettles.2 hrejected, ← hidle] at hrun
    exact ⟨k, hrun⟩
  · obtain ⟨c', hc', hlasts⟩ := hello_lasts hdisciplined hc₀ hhello hrun
    obtain rfl := Option.some.inj (hc.symm.trans hc')
    rw [hlasts] at haccepted
    cases haccepted.1

/-! ## A hello -/

/-- A hello. -/
def helloRecord : Bytes :=
  ascii "\x7b\"type\":\"hello\",\"device_id\":\"b\",\"payload\":\x7b\"device_name\":\"B\",\"device_type\":\"phone\"\x7d\x7d"

/-- What it says. -/
def helloValue : Json :=
  .object [(ascii "device_id", .string (ascii "b")),
    (ascii "payload", .object [(ascii "device_name", .string (ascii "B")),
      (ascii "device_type", .string (ascii "phone"))]),
    (ascii "type", .string (ascii "hello"))]

/-- A host that parses it. -/
def greetedHost : Host where
  myDeviceId := ascii "a"
  parse := fun data => if data = helloRecord then .ok helloValue else .error "no JSON"

theorem wellFormedHello_helloRecord : WellFormedHello greetedHost helloRecord := by
  have hparse : greetedHost.parse helloRecord = .ok helloValue := by
    simp only [greetedHost, if_true]
  refine ⟨by decide +kernel, helloValue, hparse, rfl, by rfl, ⟨ascii "b", by rfl, by decide⟩,
    .object [(ascii "device_name", .string (ascii "B")),
      (ascii "device_type", .string (ascii "phone"))], by rfl, rfl,
    ⟨ascii "B", by rfl⟩, ascii "phone", by rfl⟩

/-- A new session takes it, and then takes no other record. -/
theorem setup_record_hello :
    ∃ n₀ c₀ n₁, runs (Node.step greetedHost) initial [.create true] = some n₀
      ∧ n₀.connection 1 = some c₀ ∧ n₀.step greetedHost (.receive 1 helloRecord) = some n₁
      ∧ Accepted greetedHost c₀.peerHelloReceived helloRecord
      ∧ Decided greetedHost 1 helloRecord n₀ c₀ n₁ := by
  have hruns : runs (Node.step greetedHost) initial [.create true]
      = some ({ initial.setConnection 1 (.create true) with
        manager := insert 1 ∅, nextSession := 2 }) := rfl
  exact ⟨_, .create true, _, hruns, rfl, rfl, ⟨rfl, wellFormedHello_helloRecord⟩,
    setup_record hruns rfl rfl rfl rfl⟩

end Node

end Gasoline
