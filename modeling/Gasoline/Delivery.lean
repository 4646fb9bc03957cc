import Gasoline.WireStream

/-!
# Delivery in order, exactly once

Two processes with a session each, A and B, and the byte stream from A to B
between them: B receives what A's socket accepted, in order, in whatever
pieces and as late as it likes. At A any number of threads send messages,
pings and pongs; at both ends anything else may happen, and what A receives
is left open.

The texts that B has passed to the event bus are the texts that A has sent,
from the first one on, in the order in which A's calls had `write_mutex_`
(`delivered_in_order`). Each joint is a result of its own: what A's socket
accepted is whole (`Wire.Intact`), its records are the calls of A
(`Wire.Streams`), B's records are those of what it received
(`Wire.Reading`), and its texts those of its records (`Wire.Delivering`).
-/

namespace Gasoline

/-- **The texts whose call has sent or is sending**, in the order in which
the calls took the lock. -/
def Wire.texts (v : Wire) : List Bytes :=
  sentTexts v.sends ++ v.current.toList.filterMap (fun o => o.origin.text)

/-! ## Two ends -/

/-- The ends of a stream: a session of one process and one of another. -/
structure PairLink where
  codecA : Codec
  codecB : Codec
  sessionA : ℕ
  sessionB : ℕ

/-- The two processes. -/
structure Pair where
  a : Wired
  b : Wired

/-- What may happen next. -/
inductive PairEvent
  /-- `MessageService` calls `send_packet`. -/
  | message (text : Bytes)
  /-- A ping or a pong is sent. -/
  | control (packet : Json)
  /-- Something else happens at A. -/
  | a (e : WiredEvent)
  | b (e : WiredEvent)

/-- Someone calls `send_packet` on the session. -/
def WiredEvent.isSendOn (session : ℕ) : WiredEvent → Bool
  | .wire other (.sendPacket _) => other == session
  | _ => false

namespace Pair

/-- Two new processes. -/
def initial : Pair := ⟨.initial, .initial⟩

/-- A step at A. -/
def stepA (l : PairLink) (p : Pair) (e : WiredEvent) : Option Pair :=
  (p.a.step l.codecA e).map (fun a => { p with a := a })

/-- **What happens at an event**, or `none` where it cannot happen. An empty
message is not sent, and what B receives is what A's socket accepted. -/
def step (l : PairLink) (p : Pair) : PairEvent → Option Pair
  | .message text =>
    if text = [] then none
    else p.stepA l (.wire l.sessionA (.sendPacket (buildMessagePacket l.codecA.myDeviceId text)))
  | .control packet =>
    if packet.isPingOrPong then p.stepA l (.wire l.sessionA (.sendPacket packet)) else none
  | .a e => if e.isSendOn l.sessionA then none else p.stepA l e
  | .b e =>
    (p.b.step l.codecB e).bind (fun b =>
      if (b.wire l.sessionB).received.isPrefixOf (p.a.wire l.sessionA).accepted then
        some { p with b := b }
      else none)

/-- **All of A's bytes were processed**: no call of A is at a text, B has
received all that was written, and its worker waits for more. -/
def Processed (l : PairLink) (p : Pair) : Prop :=
  (∀ o, (p.a.wire l.sessionA).current = some o → o.origin.text = none)
    ∧ (p.b.wire l.sessionB).received = (p.a.wire l.sessionA).accepted
    ∧ ((p.b.wire l.sessionB).worker = .loop ∨ (p.b.wire l.sessionB).worker = .receive)

end Pair

/-! ## What holds of both -/

namespace Wired

variable {codec : Codec} {w w' : Wired} {events : List WiredEvent}

/-- A session that was not created has a new wire. -/
theorem wire_eq_initial (h : runs (Wired.step codec) .initial events = some w) {session : ℕ}
    (hnone : w.node.connection session = none) : w.wire session = .initial :=
  (line_of_runs (I := fun _ _ => True) (fun _ => trivial) (fun _ _ => trivial) h).1 session hnone

/-- What was accepted is whole, of every session. -/
theorem exists_intact (h : runs (Wired.step codec) .initial events = some w) (session : ℕ) :
    ∃ stopping, (w.wire session).Intact stopping := by
  cases hc : w.node.connection session with
  | some c => exact ⟨c.stopping, (intact_of_runs h hc).2⟩
  | none =>
    rw [wire_eq_initial h hc]
    refine ⟨false, fun _ _ hs => (by cases hs), fun _ => rfl, fun s hs => ?_⟩
    cases hs

theorem accepted_mono (h : w.step codec e = some w') (session : ℕ) :
    (w.wire session).accepted <+: (w'.wire session).accepted := by
  rcases wire_of_step h session with heq | ⟨c, d, r, -, -, hv⟩
  · rw [heq]
  · rcases Wire.accepted_of_step hv with heq | ⟨origin, s, n, -, heq⟩
    · rw [heq]
    · rw [heq]
      exact List.prefix_append _ _

end Wired

namespace Pair

variable {l : PairLink} {p p' : Pair}

/-- **What holds of two processes and their stream.** -/
structure Joined (l : PairLink) (p : Pair) : Prop where
  a : ∃ events, runs (Wired.step l.codecA) .initial events = some p.a
  b : ∃ events, runs (Wired.step l.codecB) .initial events = some p.b
  streams : (p.a.wire l.sessionA).Streams l.codecA
  arrived : (p.b.wire l.sessionB).received <+: (p.a.wire l.sessionA).accepted

theorem Joined.stepA (h : p.Joined l) {e : WiredEvent} (hstep : p.stepA l e = some p')
    (hsendable : ∀ packet, e = .wire l.sessionA (.sendPacket packet) →
      Sendable l.codecA.myDeviceId packet) : p'.Joined l := by
  obtain ⟨a, ha, rfl⟩ := Option.map_eq_some_iff.mp hstep
  obtain ⟨events, hruns⟩ := h.a
  refine ⟨⟨events ++ [e], runs_concat.mpr ⟨p.a, hruns, ha⟩⟩, h.b, ?_,
    h.arrived.trans (Wired.accepted_mono ha l.sessionA)⟩
  rcases Wired.wire_of_step ha l.sessionA with heq | ⟨c, d, r, -, rfl, hv⟩
  · rw [heq]
    exact h.streams
  · refine h.streams.step hv (fun packet hpacket => hsendable packet ?_)
    rw [hpacket]

theorem Joined.step (h : p.Joined l) {e : PairEvent} (hstep : p.step l e = some p') :
    p'.Joined l := by
  cases e with
  | message text =>
    simp only [Pair.step] at hstep
    split at hstep
    · cases hstep
    · refine h.stepA hstep (fun packet hpacket => ?_)
      cases hpacket
      exact .message text
  | control packet =>
    simp only [Pair.step] at hstep
    split at hstep
    · rename_i hcontrol
      refine h.stepA hstep (fun packet hpacket => ?_)
      cases hpacket
      exact .control hcontrol
    · cases hstep
  | a e =>
    simp only [Pair.step] at hstep
    split at hstep
    · cases hstep
    · rename_i hother
      refine h.stepA hstep (fun packet hpacket => ?_)
      rw [hpacket] at hother
      exact absurd (beq_self_eq_true l.sessionA) hother
  | b e =>
    obtain ⟨b, hb, hstep⟩ := Option.bind_eq_some_iff.mp hstep
    split at hstep
    · rename_i harrived
      cases hstep
      obtain ⟨events, hruns⟩ := h.b
      exact ⟨h.a, ⟨events ++ [e], runs_concat.mpr ⟨p.b, hruns, hb⟩⟩, h.streams,
        List.isPrefixOf_iff_prefix.mp harrived⟩
    · cases hstep

theorem joined_of_runs {events : List PairEvent} (h : runs (Pair.step l) .initial events = some p) :
    p.Joined l := by
  refine runs_invariant (I := Joined l) (fun _ _ _ hs hstep => hs.step hstep) h ?_
  refine ⟨⟨[], rfl⟩, ⟨[], rfl⟩, ⟨fun s hs => ?_, fun o ho => ?_⟩, List.prefix_rfl⟩
  · cases hs
  · cases ho

theorem Joined.texts (h : p.Joined l) (hu : Understood l.codecA l.codecB.parse) :
    textsOf l.codecB.parse (RecordParser.recordsOf (p.a.wire l.sessionA).accepted)
        = sentTexts (p.a.wire l.sessionA).sends
      ∨ ∃ q error, RecordParser.consume RecordParser.collect (.initial maxRecordSize) []
        (p.a.wire l.sessionA).accepted = some (q, [], .failed error) := by
  obtain ⟨events, hruns⟩ := h.a
  obtain ⟨stopping, hintact⟩ := Wired.exists_intact hruns l.sessionA
  exact h.streams.texts hu hintact (Wired.prefaced_of_runs hruns l.sessionA).prefaces

/-- B's texts are those of the stream that A has written, from the first one
on. -/
theorem Joined.delivered (h : p.Joined l) : (p.b.wire l.sessionB).delivered
    <+: textsOf l.codecB.parse (RecordParser.recordsOf (p.a.wire l.sessionA).accepted) := by
  obtain ⟨events, hruns⟩ := h.b
  cases hd : p.b.node.connection l.sessionB with
  | none =>
    rw [Wired.wire_eq_initial hruns hd]
    exact List.nil_prefix
  | some d =>
    obtain ⟨hreading, hdelivering⟩ := Wired.delivering_of_runs hruns hd
    obtain ⟨more, hmore⟩ := h.arrived
    refine hdelivering.part.trans (textsOf_mono _ (hreading.records.trans ?_))
    rw [← hmore]
    exact RecordParser.recordsOf_append _ _

/-- **Delivery in order, exactly once.** In every run of two processes,
whoever sends at A, however the bytes are cut and whatever is disconnected
or revoked at either end, the texts that B has passed to the event bus are
the texts whose call at A has sent or is sending, from the first one on, in
the order in which the calls took `write_mutex_`. Once all of A's bytes were
processed and B is not stopped, they are all of them. -/
theorem delivered_in_order {events : List PairEvent} (hu : Understood l.codecA l.codecB.parse)
    (h : runs (Pair.step l) .initial events = some p) :
    (p.b.wire l.sessionB).delivered <+: (p.a.wire l.sessionA).texts
      ∧ ∀ d, p.b.node.connection l.sessionB = some d → d.stopping = false → p.Processed l →
        (p.b.wire l.sessionB).delivered = (p.a.wire l.sessionA).texts := by
  have hjoined := joined_of_runs h
  refine ⟨?_, fun d hd hstopping hprocessed => ?_⟩
  · refine hjoined.delivered.trans ?_
    rcases hjoined.texts hu with heq | ⟨q, error, hfailed⟩
    · rw [heq]
      exact List.prefix_append _ _
    · rw [RecordParser.recordsOf_of_consume hfailed]
      exact List.nil_prefix
  · obtain ⟨hcurrent, hreceived, hworker⟩ := hprocessed
    obtain ⟨es, hruns⟩ := hjoined.b
    obtain ⟨hreading, hdelivering⟩ := Wired.delivering_of_runs hruns hd
    have hplace : (p.b.wire l.sessionB).worker.unread = []
        ∧ (p.b.wire l.sessionB).worker.atHand = none
        ∧ (p.b.wire l.sessionB).worker.isHandling = false
        ∧ (p.b.wire l.sessionB).worker ≠ .ended
        ∧ (p.b.wire l.sessionB).worker ≠ .disconnect := by
      rcases hworker with hw | hw <;> rw [hw] <;> exact ⟨rfl, rfl, rfl, by simp, by simp⟩
    obtain ⟨hunread, hhand, hout, hended, hdisconnect⟩ := hplace
    -- a parser that does not accept input has stopped the session
    have hopen : (p.b.wire l.sessionB).parser.isOpen = true := by
      cases hopen : (p.b.wire l.sessionB).parser.isOpen with
      | true => rfl
      | false =>
        rcases (hreading.closed hopen).2 with hs | hw
        · rw [hstopping] at hs
          cases hs
        · exact absurd hw hdisconnect
    have hconsume := hreading.caughtUp hopen hended
    rw [hunread, (hreading.live hopen).consume_nil, hreceived] at hconsume
    have htexts : (p.a.wire l.sessionA).texts = sentTexts (p.a.wire l.sessionA).sends := by
      unfold Wire.texts
      cases ho : (p.a.wire l.sessionA).current with
      | none => exact List.append_nil _
      | some o =>
        rw [Option.toList_some, List.filterMap_cons, hcurrent o ho]
        exact List.append_nil _
    rw [hdelivering.eq_of_isOpen hhand hout hended hopen, htexts]
    rcases hjoined.texts hu with heq | ⟨q, error, hfailed⟩
    · rw [← heq, RecordParser.recordsOf_of_consume hconsume]
    · rw [hfailed] at hconsume
      simp at hconsume

/-! ## An exchange -/

/-- What a peer reads of a packet. -/
def reads (packet : Json) : Option Bytes × Option Bytes × Option Bytes :=
  ((packet.find (ascii "type")).bind Json.text, (packet.find (ascii "device_id")).bind Json.text,
    ((packet.find (ascii "payload")).bind (Json.find (ascii "text"))).bind Json.text)

def sampleHello : Json := helloPacket Node.sampleHost.myDeviceId

def sampleMessage : Json := buildMessagePacket Node.sampleHost.myDeviceId (ascii "hi")

/-- The JSON library, of the packets of the exchange below. -/
def exchangeCodec : Codec where
  myDeviceId := Node.sampleHost.myDeviceId
  parse := fun data =>
    if data = (Wired.sampleDump sampleHello).output then .ok sampleHello
    else if data = (Wired.sampleDump sampleMessage).output then .ok sampleMessage
    else .error "no JSON"
  dump := fun packet =>
    { Wired.sampleDump packet with
      completes := decide (reads packet = reads sampleHello)
        || decide (reads packet = reads sampleMessage) }

/-- Packets that read the same are put out the same. -/
theorem output_sampleDump {packet packet' : Json} (h : reads packet = reads packet') :
    (Wired.sampleDump packet).output = (Wired.sampleDump packet').output := by
  simp only [reads, Prod.mk.injEq] at h
  obtain ⟨-, hdevice, htext⟩ := h
  have hbind : ∀ j : Json, (j.find (ascii "payload")).bind
      (fun payload => (payload.find (ascii "text")).bind Json.text)
      = ((j.find (ascii "payload")).bind (Json.find (ascii "text"))).bind Json.text := by
    intro j
    rw [Option.bind_assoc]
  simp only [Wired.sampleDump, hbind, hdevice, htext]

theorem understood_exchange : Understood exchangeCodec exchangeCodec.parse where
  brace packet _ := by
    show ∃ rest, (Wired.sampleDump packet).output = _
    unfold Wired.sampleDump Wired.packetText
    simp only
    split <;> exact ⟨_, rfl⟩
  parsed packet _ hcompletes := by
    have halike : ∀ {j : Json}, j.isObject = true → (reads j).1.isSome = true →
        reads packet = reads j → j.Alike packet := by
      intro j hobject htype heq
      have hpacket : packet.isObject = true := by
        rw [← heq] at htype
        cases packet with
        | object members => rfl
        | _ => cases htype
      simp only [reads, Prod.mk.injEq] at heq
      exact ⟨hobject.trans hpacket.symm, heq.1.symm, heq.2.1.symm, heq.2.2.symm⟩
    have hparse : ∀ {j : Json}, reads packet = reads j →
        exchangeCodec.parse (exchangeCodec.dump packet).output
          = exchangeCodec.parse (Wired.sampleDump j).output :=
      fun heq => congrArg exchangeCodec.parse (output_sampleDump heq)
    have hcases : reads packet = reads sampleHello ∨ reads packet = reads sampleMessage := by
      simpa [exchangeCodec] using hcompletes
    rcases hcases with heq | heq
    · refine ⟨sampleHello, ?_, halike rfl rfl heq⟩
      rw [hparse heq]
      simp only [exchangeCodec, if_true]
    · refine ⟨sampleMessage, ?_, halike rfl rfl heq⟩
      have hne : (Wired.sampleDump sampleMessage).output ≠ (Wired.sampleDump sampleHello).output := by
        decide +kernel
      rw [hparse heq]
      simp only [exchangeCodec, if_neg hne, if_true]

def sampleLink : PairLink := ⟨exchangeCodec, exchangeCodec, 1, 1⟩

/-- What A writes: its preface, its hello and a message. -/
def sampleStream : Bytes :=
  prefaceBytes ++ 0 :: 126 :: (Wired.sampleDump sampleHello).output
    ++ 0 :: 93 :: (Wired.sampleDump sampleMessage).output

/-- A is activated, exchanges the prefaces and sends a message. -/
def sampleSending : List PairEvent :=
  (Wired.activated ++ Wired.handshake).map .a ++ [.message (ascii "hi")]
    ++ [.a (.wire 1 (.validate false)), .a (.wire 1 .serialize),
      .a (.wire 1 (.transmit false .error)), .a (.wire 1 (.transmit false (.accepted 95)))]

/-- The same step of the session, some times. -/
def repeated (n : ℕ) (e : WireEvent) : List WiredEvent := List.replicate n (.wire 1 e)

/-- B sends its preface and receives a part of A's hello, which it answers
with its own. -/
def sampleGreeting : List WiredEvent :=
  [.node (.store ⟨1, .importDeviceForAdmin TrustStores.sampleDevice, true⟩), .node (.create true),
    .wire 1 (.start true), .wire 1 .work, .wire 1 (.transmit false .error),
    .wire 1 (.transmit false (.accepted 10)), .wire 1 .work,
    .wire 1 (.receive (.data (sampleStream.take 50))), .wire 1 .work, .wire 1 .work, .wire 1 .work,
    .wire 1 .work, .wire 1 .work, .wire 1 .work, .wire 1 .serialize,
    .wire 1 (.transmit false .error), .wire 1 (.transmit false (.accepted 128)), .wire 1 .work,
    .wire 1 .work]

/-- B receives the rest in two pieces, and is activated behind the hello. -/
def sampleReceiving : List WiredEvent :=
  sampleGreeting ++ (repeated 1 (.receive (.data ((sampleStream.drop 50).take 100)))
    ++ (repeated 3 .work ++ (repeated 7 (.handle false false)
    ++ ((Node.activation 1).map WiredEvent.node ++ (repeated 6 .work
    ++ (repeated 1 (.receive (.data (sampleStream.drop 150))) ++ (repeated 3 .work
    ++ (repeated 9 (.handle false false) ++ repeated 3 .work))))))))

/-- The message is delivered. -/
theorem delivered_in_order_exchange :
    ∃ p, runs (Pair.step sampleLink) .initial (sampleSending ++ sampleReceiving.map .b) = some p
      ∧ (p.a.wire 1).texts = [ascii "hi"] ∧ (p.b.wire 1).delivered = [ascii "hi"] := by
  obtain ⟨p, hrun, hp⟩ : ∃ p, runs (Pair.step sampleLink) .initial
      (sampleSending ++ sampleReceiving.map .b) = some p
      ∧ ((p.a.wire 1).texts, (p.a.wire 1).current.isNone,
        decide ((p.b.wire 1).received = (p.a.wire 1).accepted), decide ((p.b.wire 1).worker = .loop),
        (p.b.node.connection 1).map (fun d => d.stopping))
        = ([ascii "hi"], true, true, true, some false) :=
    Option.map_eq_some_iff.mp (by decide +kernel)
  simp only [Prod.mk.injEq, decide_eq_true_eq, Option.isNone_iff_eq_none] at hp
  obtain ⟨htexts, hnone, hreceived, hworker, hd⟩ := hp
  obtain ⟨d, hd, hstopping⟩ := Option.map_eq_some_iff.mp hd
  refine ⟨p, hrun, htexts, ?_⟩
  rw [← htexts]
  refine (delivered_in_order (l := sampleLink) understood_exchange hrun).2 d hd hstopping
    ⟨fun o ho => ?_, hreceived, .inl hworker⟩
  exact absurd (ho.symm.trans hnone) (by simp)

end Pair

end Gasoline
