import Gasoline.Revocation

/-!
# Application traffic

What a session passes on to the event bus, and what it sends, is gated by
its authorization. `handle_record` loads `ready_` several times and
activation may come in between, so what is known at each of its stages is an
invariant (`Connection.Attends`): a session that was once seen ready stays
ready, with the same peer.

What a step does to a connection (`Node.Work`) and what `handle_record` may
do next (`Handling.Branch`) are said once, for the results about runs that
follow.
-/

namespace Gasoline

/-- `send_packet` holds the lock. -/
def Writer.isSending : Writer → Bool
  | .checking _ => true
  | .writing _ => true
  | _ => false

namespace Connection

variable {c c' : Connection}

/-! ## What a step does to a connection -/

/-- **Later in the life of a connection**: a session that is ready stays
ready, with its peer; one that is stopping stops; and a hello was
received once and for all. -/
structure Later (c c' : Connection) : Prop where
  ready : c.ready = true → c'.ready = true ∧ c'.authorizedPeer = c.authorizedPeer
  stopping : c.stopping = true → c'.stopping = true
  hello : c.peerHelloReceived = true → c'.peerHelloReceived = true

theorem Later.refl (c : Connection) : c.Later c := ⟨fun h => ⟨h, rfl⟩, id, id⟩

/-- The worker and the sender of the connection have nothing to do with the
change. -/
structure Undisturbed (c c' : Connection) : Prop extends Later c c' where
  handling : c'.handling = c.handling
  peerHelloReceived : c'.peerHelloReceived = c.peerHelloReceived
  written : c'.written = c.written
  writer : c'.writer = c.writer ∨ (c.writer.isSending = false ∧ c'.writer.isSending = false)

theorem Undisturbed.refl (c : Connection) : c.Undisturbed c :=
  ⟨.refl c, rfl, rfl, rfl, .inl rfl⟩

theorem undisturbed_requestDisconnect (h : c.requestDisconnect = some c') : c.Undisturbed c' := by
  unfold requestDisconnect at h
  split at h
  · cases h
  · cases h
    exact ⟨⟨fun h => ⟨h, rfl⟩, fun _ => rfl, id⟩, rfl, rfl, rfl, .inl rfl⟩

theorem later_beginSend (packet : Json) : c.Later (c.beginSend packet) := by
  unfold beginSend
  split
  · exact .refl c
  · split
    · exact ⟨fun h => ⟨h, rfl⟩, id, id⟩
    · exact ⟨fun h => ⟨h, rfl⟩, id, id⟩

theorem handling_beginSend (packet : Json) : (c.beginSend packet).handling = c.handling := by
  unfold beginSend
  split
  · rfl
  · split <;> rfl

theorem later_sending {db : Database} {fails : Bool} {outcome : SendOutcome}
    (h : c.sending db fails outcome = some c') : c.Later c' ∧ c'.handling = c.handling := by
  unfold sending at h
  split at h
  · split at h
    · cases h
      exact ⟨⟨fun h => ⟨h, rfl⟩, id, id⟩, rfl⟩
    · cases h
      exact ⟨⟨fun h => ⟨h, rfl⟩, fun _ => rfl, id⟩, rfl⟩
  · split at h
    · cases h
      exact ⟨⟨fun h => ⟨h, rfl⟩, id, id⟩, rfl⟩
    · cases h
      exact ⟨⟨fun h => ⟨h, rfl⟩, fun _ => rfl, id⟩, rfl⟩
    · cases h
      exact ⟨⟨fun h => ⟨h, rfl⟩, id, id⟩, rfl⟩
  · cases h

theorem later_perform {host : Host} {x : HandlingAction × Handling}
    (h : c.perform host x = some c') : c.Later c' := by
  have htouches := perform_touches h
  refine ⟨fun hready => ⟨htouches.ready.trans hready, htouches.authorizedPeer⟩, fun hs => ?_,
    fun hhello => ?_⟩
  · rcases htouches.stopping with heq | ⟨htrue, -⟩
    · exact heq.trans hs
    · exact htrue
  · obtain ⟨action, next⟩ := x
    cases action with
    | requestDisconnect =>
      obtain ⟨d, hd, rfl⟩ := Option.map_eq_some_iff.mp h
      exact (undisturbed_requestDisconnect hd).hello hhello
    | sendPong =>
      simp only [perform] at h
      split at h
      · cases h
        exact (later_beginSend _).hello hhello
      · cases h
    | acceptHello =>
      cases h
      rfl
    | _ =>
      cases h
      exact hhello

theorem handling_perform {host : Host} {x : HandlingAction × Handling}
    (h : c.perform host x = some c') :
    c'.handling = if x.1 = .returns then none else some x.2 := by
  obtain ⟨action, next⟩ := x
  cases action with
  | requestDisconnect =>
    obtain ⟨d, hd, rfl⟩ := Option.map_eq_some_iff.mp h
    rfl
  | sendPong =>
    simp only [perform] at h
    split at h
    · cases h
      rfl
    · cases h
  | _ =>
    cases h
    rfl

/-- `send_packet` writes a control record at once, and checks first where
the packet is another. -/
theorem beginSend_cases (packet : Json) : c.beginSend packet = c
    ∨ (packet.isControlRecord = true ∧ c.beginSend packet = { c with writer := .writing packet })
    ∨ c.beginSend packet = { c with writer := .checking packet } := by
  unfold beginSend
  split
  · exact .inl rfl
  · split
    · rename_i hcontrol
      exact .inr (.inl ⟨hcontrol, rfl⟩)
    · exact .inr (.inr rfl)

/-- A pong is a control record. -/
theorem isControlRecord_pongPacket (myDeviceId : Bytes) :
    (pongPacket myDeviceId).isControlRecord = true := rfl

/-- `handle_record` writes nothing itself, and sends nothing but a control
record. -/
theorem sends_perform {host : Host} {x : HandlingAction × Handling}
    (h : c.perform host x = some c') : c'.written = c.written
      ∧ (c'.writer = c.writer
        ∨ ∃ packet, packet.isControlRecord = true ∧ c'.writer = .writing packet) := by
  obtain ⟨action, next⟩ := x
  cases action with
  | requestDisconnect =>
    obtain ⟨d, hd, rfl⟩ := Option.map_eq_some_iff.mp h
    unfold requestDisconnect at hd
    split at hd
    · cases hd
    · cases hd
      exact ⟨rfl, .inl rfl⟩
  | sendPong =>
    simp only [perform] at h
    split at h
    · cases h
      have hcontrol := isControlRecord_pongPacket host.myDeviceId
      unfold beginSend
      rw [if_pos hcontrol]
      split
      · exact ⟨rfl, .inl rfl⟩
      · exact ⟨rfl, .inr ⟨_, hcontrol, rfl⟩⟩
    · cases h
  | _ =>
    cases h
    exact ⟨rfl, .inl rfl⟩

/-- **`send_packet` goes on**: behind the check, or ends, and writes the packet it was
at. -/
theorem sending_cases {db : Database} {fails : Bool} {outcome : SendOutcome}
    (h : c.sending db fails outcome = some c') :
    (∃ packet, c.writer = .checking packet ∧ c'.written = c.written
      ∧ (c'.writer = .free ∨ (c'.writer = .writing packet ∧ ∃ peer, c.authorizedPeer = some peer
        ∧ SessionAuthentication.authorizationIsCurrent db fails peer = true)))
    ∨ ∃ packet, c.writer = .writing packet ∧ c'.writer = .free
      ∧ (c'.written = c.written ∨ c'.written = c.written ++ [packet]) := by
  unfold sending at h
  split at h
  · rename_i packet hwriter
    refine .inl ⟨packet, hwriter, ?_⟩
    split at h
    · rename_i hcurrent
      cases h
      exact ⟨rfl, .inr ⟨rfl, (Option.any_eq_true _ _).mp hcurrent⟩⟩
    · cases h
      exact ⟨rfl, .inl rfl⟩
  · rename_i packet hwriter
    refine .inr ⟨packet, hwriter, ?_⟩
    split at h
    · cases h
      exact ⟨rfl, .inl rfl⟩
    · cases h
      refine ⟨rfl, ?_⟩
      split
      · exact .inr rfl
      · exact .inl rfl
    · cases h
      exact ⟨rfl, .inr rfl⟩
  · cases h

end Connection

namespace Node

variable {host : Host} {n n' : Node} {e : NodeEvent}

/-- **What a step does to one connection.** -/
inductive Work (host : Host) (n : Node) (session : ℕ) (c : Connection) :
    NodeEvent → Connection → Prop
  | other {e : NodeEvent} {c' : Connection} (h : c.Undisturbed c') : Work host n session c e c'
  | receive {payload : Bytes} (hnone : c.handling = none) :
      Work host n session c (.receive session payload)
        { c with handling := some ⟨payload, none, .loadStopping⟩ }
  | handle {late fails : Bool} {h : Handling} {c' : Connection} (hh : c.handling = some h)
      (hc' : c.perform host (h.step host c late
        (SessionAuthentication.authorizationIsCurrent n.database fails)) = some c') :
      Work host n session c (.handle session late fails) c'
  | send {packet : Json} (hfree : c.writer = .free) :
      Work host n session c (.send session packet) (c.beginSend packet)
  | sending {fails : Bool} {outcome : SendOutcome} {c' : Connection}
      (hc' : c.sending n.database fails outcome = some c') :
      Work host n session c (.sending session fails outcome) c'

/-- Whatever a step does to a connection is later. -/
theorem Work.later {session : ℕ} {c c' : Connection} (h : Work host n session c e c') :
    c.Later c' := by
  cases h with
  | other hundisturbed => exact hundisturbed.toLater
  | receive hnone => exact ⟨fun h => ⟨h, rfl⟩, id, id⟩
  | handle hh hperform => exact Connection.later_perform hperform
  | send hfree => exact Connection.later_beginSend _
  | sending hsending => exact (Connection.later_sending hsending).1

/-- A change of one connection, seen from each of them. -/
theorem work_set {m : Node} {session other : ℕ} {c d d' : Connection}
    (hm : m.connection = (n.setConnection other d').connection)
    (hd : n.connection other = some d) (hc : n.connection session = some c)
    (hwork : session = other → Work host n session d e d') :
    ∃ c', m.connection session = some c' ∧ Work host n session c e c' := by
  by_cases hne : session = other
  · subst hne
    obtain rfl := Option.some.inj (hc.symm.trans hd)
    exact ⟨d', by rw [hm, setConnection_connection, if_pos rfl], hwork rfl⟩
  · exact ⟨c, by rw [hm, setConnection_connection, if_neg hne, hc], .other (.refl c)⟩

theorem work_disconnect {m : Node} {session other : ℕ} {c : Connection}
    (hm : n.disconnect other = some m) (hc : n.connection session = some c) :
    ∃ c', m.connection session = some c' ∧ Work host n session c e c' := by
  rcases disconnect_cases hm with ⟨rfl, -⟩ | ⟨d, d', hd, hd', rfl⟩
  · exact ⟨c, hc, .other (.refl c)⟩
  · exact work_set rfl hd hc (fun _ => .other (Connection.undisturbed_requestDisconnect hd'))

theorem work_activate (hn : n.Disciplined) {session other : ℕ} {c d : Connection} {a : Activation}
    {fails : Bool} (hd : n.connection other = some d) (ha : d.writer = .activation a)
    (hc : n.connection session = some c) :
    ∃ c', (n.activate host d other a fails).connection session = some c'
      ∧ Work host n session c e c' := by
  have hready := ((hn.connection other d hd).activation a ha).1
  obtain ⟨d', live, forceScan, registry, replacing, hactivates, heq⟩ :=
    activate_eq host n d other a fails
  have hsending : d'.writer.isSending = false := by
    rcases hactivates.writer with h | h
    · rw [h]
      rfl
    · cases hw : d'.writer with
      | activation b => rfl
      | _ =>
        rw [hw] at h
        cases h
  have hundisturbed : d.Undisturbed d' := by
    refine ⟨⟨fun h => ?_, fun h => hactivates.stopping.trans h,
      fun h => hactivates.peerHelloReceived.trans h⟩, hactivates.handling,
      hactivates.peerHelloReceived, hactivates.written, .inr ⟨by rw [ha]; rfl, hsending⟩⟩
    rw [hready] at h
    cases h
  rw [heq]
  exact work_set rfl hd hc (fun _ => .other hundisturbed)

theorem work_advance {session : ℕ} {c d : Connection} {call : Call} {late fails : Bool}
    (hd : n.connection call.session = some d) (hc : n.connection session = some c)
    (h : n.advance host d call late fails = some n') :
    ∃ c', n'.connection session = some c' ∧ Work host n session c e c' := by
  have hsame : ∃ c', n.connection session = some c' ∧ Work host n session c e c' :=
    ⟨c, hc, .other (.refl c)⟩
  rcases advance_cases h with rfl | ⟨-, peer, -, -, -, -, rfl⟩ | ⟨peer, -, -, rfl⟩ |
    ⟨peer, -, hfree, -, rfl⟩
  · exact hsame
  · exact hsame
  · exact hsame
  · exact work_set rfl hd hc (fun _ => .other
      ⟨⟨fun h => ⟨h, rfl⟩, id, id⟩, rfl, rfl, rfl, .inr ⟨by rw [hfree]; rfl, rfl⟩⟩)

/-- **Every step does one of these to each connection.** -/
theorem work_of_step (hn : n.Disciplined) (h : n.step host e = some n') {session : ℕ}
    {c : Connection} (hc : n.connection session = some c) :
    ∃ c', n'.connection session = some c' ∧ Work host n session c e c' := by
  have hsame : ∃ c', n.connection session = some c' ∧ Work host n session c e c' :=
    ⟨c, hc, .other (.refl c)⟩
  cases happens h with
  | create outgoing =>
    refine ⟨c, ?_, .other (.refl c)⟩
    show (n.setConnection _ _).connection session = some c
    rw [setConnection_connection, if_neg (hn.lt hc).ne, hc]
  | advance hd hcall h => exact work_advance hd hc h
  | activate hd ha => exact work_activate hn hd ha hc
  | @replace r m hr hm =>
    obtain ⟨c', hc', hwork⟩ : ∃ c', m.connection session = some c'
        ∧ Work host n session c (.replace r) c' := work_disconnect hm hc
    exact ⟨c', hc', hwork⟩
  | @monitor fails m h =>
    rcases runMonitor_cases h with ⟨-, monitor, forceScan, lastToken, rfl⟩ |
      ⟨entry, todo, -, rfl⟩ | ⟨other, todo, m, -, hm, rfl⟩
    · exact hsame
    · exact hsame
    · obtain ⟨c', hc', hwork⟩ : ∃ c', m.connection session = some c'
          ∧ Work host n session c (.monitor fails) c' := work_disconnect hm hc
      exact ⟨c', hc', hwork⟩
  | requestDisconnect hd hd' =>
    exact work_set rfl hd hc (fun _ => .other (Connection.undisturbed_requestDisconnect hd'))
  | cleanup hd hm =>
    rcases cleanup_cases hm with ⟨hw, -, -, rfl⟩ | ⟨hw, rfl⟩ | ⟨hw, rfl⟩ | ⟨hw, rfl⟩ <;>
      exact work_set rfl hd hc (fun _ => .other
        ⟨⟨fun h => ⟨h, rfl⟩, id, id⟩, rfl, rfl, rfl, .inr ⟨by rw [hw]; rfl, rfl⟩⟩)
  | release hd =>
    exact work_set rfl hd hc (fun _ => .other
      ⟨⟨fun h => ⟨h, rfl⟩, id, id⟩, rfl, rfl, rfl, .inl rfl⟩)
  | receive hd hhandling => exact work_set rfl hd hc (by rintro rfl; exact .receive hhandling)
  | handle hd hhandling h =>
    obtain ⟨d', hd', rfl⟩ := Option.map_eq_some_iff.mp h
    exact work_set rfl hd hc (by rintro rfl; exact .handle hhandling hd')
  | send hd hfree => exact work_set rfl hd hc (by rintro rfl; exact .send (Writer.eq_free hfree))
  | sending hd hd' => exact work_set rfl hd hc (by rintro rfl; exact .sending hd')
  | _ => exact hsame

/-- A connection that was not there before is a new one. -/
theorem create_of_step (h : n.step host e = some n') {session : ℕ} {c' : Connection}
    (hnone : n.connection session = none) (hc' : n'.connection session = some c') :
    ∃ outgoing, c' = .create outgoing := by
  have hset : ∀ {other : ℕ} {d d' : Connection}, n.connection other = some d →
      (n.setConnection other d').connection session = some c' → False := by
    intro other d d' hd h
    rw [setConnection_connection, if_neg, hnone] at h
    · cases h
    · rintro rfl
      rw [hnone] at hd
      cases hd
  have hsame : n.connection session ≠ some c' := by
    rw [hnone]
    exact (Option.some_ne_none c').symm
  have hdisconnect : ∀ {other : ℕ} {m : Node}, n.disconnect other = some m →
      m.connection session = some c' → False := by
    intro other m hm hc'
    rcases disconnect_cases hm with ⟨rfl, -⟩ | ⟨d, d', hd, -, rfl⟩
    · exact hsame hc'
    · exact hset hd hc'
  cases step_effect h with
  | create outgoing =>
    change (n.setConnection _ _).connection session = some c' at hc'
    rw [setConnection_connection] at hc'
    split at hc'
    · exact ⟨outgoing, (Option.some.inj hc').symm⟩
    · exact absurd hc' hsame
  | lock hcalls hcall hd => exact (hset hd hc').elim
  | activate hd ha =>
    obtain ⟨d', live, forceScan, registry, replacing, -, heq⟩ := activate_eq host n _ _ _ _
    rw [heq] at hc'
    exact (hset hd hc').elim
  | replace hr hm => exact (hdisconnect hm hc').elim
  | monitor h =>
    rcases runMonitor_cases h with ⟨-, monitor, forceScan, lastToken, rfl⟩ |
      ⟨entry, todo, -, rfl⟩ | ⟨other, todo, m, -, hm, rfl⟩
    · exact absurd hc' hsame
    · exact absurd hc' hsame
    · exact (hdisconnect hm hc').elim
  | cleanup hd hm =>
    rcases cleanup_cases hm with ⟨-, -, -, rfl⟩ | ⟨-, rfl⟩ | ⟨-, rfl⟩ | ⟨-, rfl⟩ <;>
      exact (hset hd hc').elim
  | release hd => exact (hset hd hc').elim
  | touch events hd => exact (hset hd hc').elim
  | _ => exact absurd hc' hsame

end Node

/-! ## The branches of `handle_record` -/

/-- **What `handle_record` may do next.** Every stage may lead to a
disconnect. -/
inductive Handling.Branch (host : Host) (c : Connection) (current : AuthorizedPeer → Bool)
    (h : Handling) : HandlingAction × Handling → Prop
  | returns (hstage : h.stage = .loadStopping ∨ h.stage = .stopped ∨ h.stage = .greeted
      ∨ h.stage = .routed) : Branch host c current h (.returns, h)
  | enter (hstage : h.stage = .loadStopping) (hstopping : c.stopping = false) :
      Branch host c current h (.nothing, { h with stage := .checkDeadline })
  | load {stage : HandlingStage} (hstage : stage = .checkSize ∨ stage = .parse
      ∨ stage = .disconnect) :
      Branch host c current h (.nothing, { h with observed := some c.ready, stage := stage })
  | parsed {pkt : Packet} (hpkt : parsePacket host.parse h.payload = .ok pkt) :
      Branch host c current h (.nothing, { h with stage := .decide pkt })
  | accept {pkt : Packet} (hstage : h.stage = .decide pkt) (hready : c.ready = true) :
      Branch host c current h
        (.nothing, { h with observed := some c.ready, stage := .admitted pkt })
  | refuse {pkt : Packet} (hstage : h.stage = .decide pkt) (hready : c.ready = false) :
      Branch host c current h
        (.nothing, { h with observed := some c.ready, stage := .unverified pkt })
  | greet {pkt : Packet} (hstage : h.stage = .unverified pkt) (htype : pkt.type = ascii "hello")
      (hfirst : c.peerHelloReceived = false) :
      Branch host c current h (.acceptHello, { h with stage := .greeted })
  | control {pkt : Packet} {peer : AuthorizedPeer} (hstage : h.stage = .admitted pkt)
      (hpeer : c.authorizedPeer = some peer) (hcontrol : pkt.isControlRecord = true) :
      Branch host c current h (.nothing, { h with stage := .route pkt peer })
  | check {pkt : Packet} {peer : AuthorizedPeer} (hstage : h.stage = .admitted pkt)
      (hpeer : c.authorizedPeer = some peer) :
      Branch host c current h (.nothing, { h with stage := .validate pkt peer })
  | checked {pkt : Packet} {peer : AuthorizedPeer} (hstage : h.stage = .validate pkt peer)
      (hcurrent : current peer = true) :
      Branch host c current h (.nothing, { h with stage := .route pkt peer })
  | emit {pkt : Packet} {peer : AuthorizedPeer} {deviceId text : Bytes}
      (hstage : h.stage = .route pkt peer)
      (hroute : PacketRouter.route pkt (some peer) = .emit deviceId text) :
      Branch host c current h (.emit ⟨deviceId, text⟩, { h with stage := .routed })
  | routed {pkt : Packet} {peer : AuthorizedPeer} {stage : HandlingStage}
      (hstage : h.stage = .route pkt peer) (hnext : stage = .routed ∨ stage = .pong) :
      Branch host c current h (.nothing, { h with stage := stage })
  | pong (hstage : h.stage = .pong) :
      Branch host c current h (.sendPong, { h with stage := .routed })
  | refused : Branch host c current h (.nothing, { h with stage := .disconnect })
  | disconnect (hstage : h.stage = .disconnect) :
      Branch host c current h (.requestDisconnect, { h with stage := .stopped })

theorem Handling.branch (host : Host) (c : Connection) (late : Bool)
    (current : AuthorizedPeer → Bool) (h : Handling) :
    h.Branch host c current (h.step host c late current) := by
  unfold Handling.step
  match hstage : h.stage with
  | .loadStopping =>
    simp only
    split
    · exact .returns (.inl hstage)
    · exact .enter hstage (Bool.eq_false_iff.mpr (by assumption))
  | .checkDeadline =>
    simp only
    split
    · exact .load (.inr (.inr rfl))
    · exact .load (.inl rfl)
  | .checkSize =>
    simp only
    split
    · exact .load (.inr (.inr rfl))
    · exact .load (.inr (.inl rfl))
  | .parse =>
    simp only
    split
    · exact .refused
    · split
      · exact .refused
      · exact .parsed (by assumption)
  | .decide pkt =>
    simp only
    split
    · exact .accept hstage (by assumption)
    · exact .refuse hstage (Bool.eq_false_iff.mpr (by assumption))
  | .unverified pkt =>
    simp only
    split
    · exact .refused
    · rename_i hguard
      simp only [Bool.or_eq_true, not_or, Bool.not_eq_true, bne_eq_false_iff_eq] at hguard
      split
      · exact .refused
      · exact .refused
      · exact .greet hstage hguard.1 hguard.2
  | .admitted pkt =>
    simp only
    split
    · exact .refused
    · rename_i peer hpeer
      split
      · exact .refused
      · split
        · exact .control hstage hpeer (by assumption)
        · exact .check hstage hpeer
  | .validate pkt peer =>
    simp only
    split
    · exact .checked hstage (by assumption)
    · exact .refused
  | .route pkt peer =>
    simp only
    split
    · exact .refused
    · exact .refused
    · exact .emit hstage (by assumption)
    · exact .routed hstage (.inr rfl)
    · exact .routed hstage (.inl rfl)
    · exact .routed hstage (.inl rfl)
  | .pong => exact .pong hstage
  | .disconnect => exact .disconnect hstage
  | .stopped => exact .returns (.inr (.inl hstage))
  | .greeted => exact .returns (.inr (.inr (.inl hstage)))
  | .routed => exact .returns (.inr (.inr (.inr hstage)))

/-! ## What is known at each stage -/

namespace Connection

variable {host : Host} {c c' : Connection} {h : Handling}

/-- **What is known of a connection whose worker is at a record.** -/
structure Attends (host : Host) (c : Connection) (h : Handling) : Prop where
  /-- A session that was seen ready is ready. -/
  ready : h.observed = some true → c.ready = true
  /-- The packet is what the record parses to. -/
  parsed : ∀ pkt, h.stage = .decide pkt ∨ h.stage = .unverified pkt ∨ h.stage = .admitted pkt
    ∨ (∃ peer, h.stage = .validate pkt peer) ∨ (∃ peer, h.stage = .route pkt peer) →
    parsePacket host.parse h.payload = .ok pkt
  /-- Behind the last load of `ready_` it is known what it was. -/
  refused : ∀ pkt, h.stage = .unverified pkt → h.observed = some false
  admitted : (∃ pkt, h.stage = .admitted pkt) ∨ h.stage = .pong ∨ h.stage = .routed →
    h.observed = some true
  /-- The peer is that of the session. -/
  peer : ∀ pkt peer, h.stage = .validate pkt peer ∨ h.stage = .route pkt peer →
    h.observed = some true ∧ c.authorizedPeer = some peer
  stopped : h.stage = .stopped → c.stopping = true
  greeted : h.stage = .greeted → c.peerHelloReceived = true
    ∧ ∃ pkt, parsePacket host.parse h.payload = .ok pkt ∧ pkt.type = ascii "hello"
  begun : h.stage = .loadStopping → h.observed = none

theorem Attends.later (hh : c.Attends host h) (hlater : c.Later c') : c'.Attends host h where
  ready hobserved := (hlater.ready (hh.ready hobserved)).1
  parsed := hh.parsed
  refused := hh.refused
  admitted := hh.admitted
  peer pkt peer hstage := by
    obtain ⟨hobserved, hpeer⟩ := hh.peer pkt peer hstage
    exact ⟨hobserved, (hlater.ready (hh.ready hobserved)).2.trans hpeer⟩
  stopped hstage := hlater.stopping (hh.stopped hstage)
  greeted hstage := ⟨hlater.hello (hh.greeted hstage).1, (hh.greeted hstage).2⟩
  begun := hh.begun

theorem attends_begun (payload : Bytes) : c.Attends host ⟨payload, none, .loadStopping⟩ where
  ready h := by cases h
  parsed _ h := by simp at h
  refused _ h := by cases h
  admitted h := by simp at h
  peer _ _ h := by simp at h
  stopped h := by cases h
  greeted h := by cases h
  begun _ := rfl

/-- Where nothing is known but what `ready_` was. -/
theorem attends_plain (hready : h.observed = some true → c.ready = true)
    (hstage : h.stage = .checkDeadline ∨ h.stage = .checkSize ∨ h.stage = .parse
      ∨ h.stage = .disconnect) : c.Attends host h where
  ready := hready
  parsed _ hs := by rcases hstage with h | h | h | h <;> simp [h] at hs
  refused _ hs := by rcases hstage with h | h | h | h <;> simp [h] at hs
  admitted hs := by rcases hstage with h | h | h | h <;> simp [h] at hs
  peer _ _ hs := by rcases hstage with h | h | h | h <;> simp [h] at hs
  stopped hs := by rcases hstage with h | h | h | h <;> simp [h] at hs
  greeted hs := by rcases hstage with h | h | h | h <;> simp [h] at hs
  begun hs := by rcases hstage with h | h | h | h <;> simp [h] at hs

/-- What was loaded of `ready_` is what it is. -/
theorem ready_of_loaded {b : Bool} (h : some b = some true) : b = true := Option.some.inj h

theorem Attends.goto_parsed (hh : c.Attends host h) {pkt : Packet}
    (hparsed : parsePacket host.parse h.payload = .ok pkt) :
    c.Attends host { h with stage := .decide pkt } where
  ready := hh.ready
  parsed pkt' hs := by
    obtain rfl : pkt = pkt' := by simpa using hs
    exact hparsed
  refused _ hs := by cases hs
  admitted hs := by simp at hs
  peer _ _ hs := by simp at hs
  stopped hs := by cases hs
  greeted hs := by cases hs
  begun hs := by cases hs

/-- It is decided whether the session is ready. -/
theorem Attends.goto_loaded (hh : c.Attends host h) {pkt : Packet} (hs : h.stage = .decide pkt)
    {stage : HandlingStage} (hstage : (c.ready = true ∧ stage = .admitted pkt)
      ∨ (c.ready = false ∧ stage = .unverified pkt)) :
    c.Attends host { h with observed := some c.ready, stage := stage } where
  ready := ready_of_loaded
  parsed pkt' hs' := by
    rcases hstage with ⟨-, rfl⟩ | ⟨-, rfl⟩ <;>
      (obtain rfl : pkt = pkt' := by simpa using hs'
       exact hh.parsed pkt (.inl hs))
  refused _ hs' := by
    rcases hstage with ⟨-, rfl⟩ | ⟨hready, rfl⟩
    · cases hs'
    · exact congrArg some hready
  admitted hs' := by
    rcases hstage with ⟨hready, rfl⟩ | ⟨-, rfl⟩
    · exact congrArg some hready
    · simp at hs'
  peer _ _ hs' := by rcases hstage with ⟨-, rfl⟩ | ⟨-, rfl⟩ <;> simp at hs'
  stopped hs' := by rcases hstage with ⟨-, rfl⟩ | ⟨-, rfl⟩ <;> cases hs'
  greeted hs' := by rcases hstage with ⟨-, rfl⟩ | ⟨-, rfl⟩ <;> cases hs'
  begun hs' := by rcases hstage with ⟨-, rfl⟩ | ⟨-, rfl⟩ <;> cases hs'

/-- The packet was routed, or is a ping to be answered. -/
theorem Attends.goto_routed (hh : c.Attends host h) (hobserved : h.observed = some true)
    {stage : HandlingStage} (hstage : stage = .routed ∨ stage = .pong) :
    c.Attends host { h with stage := stage } where
  ready := hh.ready
  parsed _ hs := by rcases hstage with rfl | rfl <;> simp at hs
  refused _ hs := by rcases hstage with rfl | rfl <;> simp at hs
  admitted _ := hobserved
  peer _ _ hs := by rcases hstage with rfl | rfl <;> simp at hs
  stopped hs := by rcases hstage with rfl | rfl <;> simp at hs
  greeted hs := by rcases hstage with rfl | rfl <;> simp at hs
  begun hs := by rcases hstage with rfl | rfl <;> simp at hs

theorem Attends.goto_peer (hh : c.Attends host h) {pkt : Packet} {peer : AuthorizedPeer}
    (hparsed : parsePacket host.parse h.payload = .ok pkt) (hobserved : h.observed = some true)
    (hpeer : c.authorizedPeer = some peer) {stage : HandlingStage}
    (hstage : stage = .validate pkt peer ∨ stage = .route pkt peer) :
    c.Attends host { h with stage := stage } where
  ready := hh.ready
  parsed pkt' hs := by
    rcases hstage with rfl | rfl <;>
      (obtain rfl : pkt = pkt' := by simpa using hs
       exact hparsed)
  refused _ hs := by rcases hstage with rfl | rfl <;> simp at hs
  admitted _ := hobserved
  peer pkt' peer' hs := by
    rcases hstage with rfl | rfl <;>
      (obtain ⟨rfl, rfl⟩ : pkt = pkt' ∧ peer = peer' := by simpa using hs
       exact ⟨hobserved, hpeer⟩)
  stopped hs := by rcases hstage with rfl | rfl <;> simp at hs
  greeted hs := by rcases hstage with rfl | rfl <;> simp at hs
  begun hs := by rcases hstage with rfl | rfl <;> simp at hs

theorem Attends.step (hh : c.Attends host h) {late : Bool} {current : AuthorizedPeer → Bool}
    (hc' : c.perform host (h.step host c late current) = some c') {h' : Handling}
    (hh' : c'.handling = some h') : c'.Attends host h' := by
  have hlater := later_perform hc'
  have hnext := handling_perform hc'
  have hbranch := h.branch host c late current
  generalize h.step host c late current = x at hc' hnext hbranch
  rw [hh'] at hnext
  -- what is known before `perform` stays known; only `stopped` and `greeted` are its own doing
  cases hbranch with
  | returns hstage => cases hnext
  | enter hstage hstopping =>
    cases hnext
    exact Attends.later (attends_plain hh.ready (.inl rfl)) hlater
  | load hstage =>
    cases hnext
    exact Attends.later (attends_plain ready_of_loaded (.inr hstage)) hlater
  | parsed hpkt =>
    cases hnext
    exact (hh.goto_parsed hpkt).later hlater
  | accept hstage hready =>
    cases hnext
    exact (hh.goto_loaded hstage (.inl ⟨hready, rfl⟩)).later hlater
  | refuse hstage hready =>
    cases hnext
    exact (hh.goto_loaded hstage (.inr ⟨hready, rfl⟩)).later hlater
  | greet hstage htype hfirst =>
    cases hnext
    cases hc'
    refine ⟨hh.ready, ?_, ?_, ?_, ?_, ?_, fun _ => ⟨rfl, _, hh.parsed _ (.inr (.inl hstage)), htype⟩,
      ?_⟩
    all_goals simp
  | control hstage hpeer hcontrol =>
    cases hnext
    exact (hh.goto_peer (hh.parsed _ (.inr (.inr (.inl hstage))))
      (hh.admitted (.inl ⟨_, hstage⟩)) hpeer (.inr rfl)).later hlater
  | check hstage hpeer =>
    cases hnext
    exact (hh.goto_peer (hh.parsed _ (.inr (.inr (.inl hstage))))
      (hh.admitted (.inl ⟨_, hstage⟩)) hpeer (.inl rfl)).later hlater
  | checked hstage hcurrent =>
    cases hnext
    obtain ⟨hobserved, hpeer⟩ := hh.peer _ _ (.inl hstage)
    exact (hh.goto_peer (hh.parsed _ (.inr (.inr (.inr (.inl ⟨_, hstage⟩))))) hobserved hpeer
      (.inr rfl)).later hlater
  | emit hstage hroute =>
    cases hnext
    exact (hh.goto_routed (hh.peer _ _ (.inr hstage)).1 (.inl rfl)).later hlater
  | routed hstage hrouted =>
    cases hnext
    exact (hh.goto_routed (hh.peer _ _ (.inr hstage)).1 hrouted).later hlater
  | pong hstage =>
    cases hnext
    exact (hh.goto_routed (hh.admitted (.inr (.inl hstage))) (.inl rfl)).later hlater
  | refused =>
    cases hnext
    exact Attends.later (attends_plain hh.ready (.inr (.inr (.inr rfl)))) hlater
  | disconnect hstage =>
    cases hnext
    obtain ⟨d, hd, rfl⟩ := Option.map_eq_some_iff.mp hc'
    have hstopping : d.stopping = true := requestDisconnect_stopping hd
    refine ⟨fun hs => (hlater.ready (hh.ready hs)).1, ?_, ?_, ?_, ?_, fun _ => hstopping, ?_, ?_⟩
    all_goals simp

end Connection

end Gasoline
