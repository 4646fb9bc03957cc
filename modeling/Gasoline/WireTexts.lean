import Gasoline.WireReading

/-!
# The texts a session passes on

`handle_record` passes the text of each message to the event bus. As long as
the session is not stopped and the worker has not ended, the texts that were
passed on are those of the records that were handled, in order and each once
(`Delivering`). A record whose text was not passed on is the last one: the
parser is closed behind it, or the worker has ended.
-/

namespace Gasoline

/-! ## Texts -/

/-- The text of a message. -/
def Packet.messageText (pkt : Packet) : Option Bytes :=
  if pkt.type == ascii "message" then (pkt.payload.find (ascii "text")).bind Json.text else none

/-- The text of a record that is a message. -/
def textOf (parse : Bytes → Except String Json) (payload : Bytes) : Option Bytes :=
  match parsePacket parse payload with
  | .ok pkt => pkt.messageText
  | .error _ => none

/-- The texts of records. -/
def textsOf (parse : Bytes → Except String Json) (records : List Bytes) : List Bytes :=
  records.filterMap (textOf parse)

theorem textsOf_concat (parse : Bytes → Except String Json) (records : List Bytes) (payload : Bytes) :
    textsOf parse (records ++ [payload]) = textsOf parse records ++ (textOf parse payload).toList := by
  unfold textsOf
  rw [List.filterMap_append]
  cases h : textOf parse payload with
  | none => simp [h]
  | some text => simp [h]

theorem textsOf_mono (parse : Bytes → Except String Json) {records records' : List Bytes}
    (h : records <+: records') : textsOf parse records <+: textsOf parse records' :=
  h.filterMap _

/-- **A message is emitted.** -/
theorem PacketRouter.route_message {pkt : Packet} {text : Bytes} (h : pkt.messageText = some text)
    (peer : AuthorizedPeer) : route pkt (some peer) = .emit peer.deviceId text := by
  unfold Packet.messageText at h
  split at h
  · rename_i htype
    obtain ⟨j, hj, htext⟩ := Option.bind_eq_some_iff.mp h
    have hj' : j = .string text := by
      cases j with
      | string value =>
        cases htext
        rfl
      | _ => cases htext
    rw [beq_iff_eq] at htype
    unfold route MessageHandler.handle
    rw [hj, hj', htype]
    rfl
  · cases h

/-- What is emitted is the text of the message. -/
theorem Packet.messageText_of_emit {pkt : Packet} {peer : AuthorizedPeer} {deviceId text : Bytes}
    (h : PacketRouter.route pkt (some peer) = .emit deviceId text) : pkt.messageText = some text := by
  obtain ⟨-, -, -, htype, htext⟩ := PacketRouter.route_emit h
  unfold Packet.messageText
  rw [htype, htext]
  rfl

/-- The record was routed. -/
def Handling.isRouted (h : Handling) : Bool :=
  match h.stage with
  | .routed => true
  | _ => false

namespace Connection

variable {host : Host} {c : Connection} {h : Handling} {late : Bool} {current : AuthorizedPeer → Bool}

theorem payload_step : (h.step host c late current).2.payload = h.payload := by
  have hbranch := h.branch host c late current
  generalize h.step host c late current = x at hbranch
  cases hbranch <;> rfl

/-- **What is emitted is the text of the record**, and then it is routed. -/
theorem Attends.text_of_emit (hh : c.Attends host h) {event : MessageEvent}
    (hemit : (h.step host c late current).1 = .emit event) :
    textOf host.parse h.payload = some event.text ∧ h.isRouted = false
      ∧ (h.step host c late current).2.isRouted = true
      ∧ (h.step host c late current).2.stage ≠ .pong := by
  have hbranch := h.branch host c late current
  generalize h.step host c late current = x at hemit hbranch
  cases hbranch with
  | emit hstage hroute =>
    cases hemit
    refine ⟨?_, ?_, rfl, by simp⟩
    · unfold textOf
      rw [hh.parsed _ (.inr (.inr (.inr (.inr ⟨_, hstage⟩))))]
      exact Packet.messageText_of_emit hroute
    · unfold Handling.isRouted
      rw [hstage]
  | _ => cases hemit

/-- **A record that is routed and not emitted has no text**, but for a ping
that was routed before. -/
theorem Attends.text_of_routed (hh : c.Attends host h)
    (hnot : (h.step host c late current).1 ≠ .returns)
    (hemit : ∀ event, (h.step host c late current).1 ≠ .emit event)
    (hrouted : (h.step host c late current).2.isRouted = true
      ∨ (h.step host c late current).2.stage = .pong) :
    h.stage = .pong ∨ textOf host.parse h.payload = none := by
  obtain ⟨payload, observed, stage⟩ := h
  have hbranch := Handling.branch host c late current ⟨payload, observed, stage⟩
  cases stage with
  | pong => exact .inl rfl
  | route pkt peer =>
    right
    show textOf host.parse payload = none
    have hparsed : parsePacket host.parse payload = .ok pkt :=
      hh.parsed pkt (.inr (.inr (.inr (.inr ⟨peer, rfl⟩))))
    unfold textOf
    rw [hparsed]
    cases htext : pkt.messageText with
    | none => exact htext
    | some text =>
      refine absurd ?_ (hemit ⟨peer.deviceId, text⟩)
      simp only [Handling.step, PacketRouter.route_message htext peer]
  | _ =>
    -- the other stages lead elsewhere
    exfalso
    generalize Handling.step host c late current _ = x at hnot hrouted hbranch
    cases hbranch with
    | returns => exact hnot rfl
    | load hstage => rcases hstage with rfl | rfl | rfl <;> simp [Handling.isRouted] at hrouted
    | routed hstage => cases hstage
    | pong hstage => cases hstage
    | emit hstage => cases hstage
    | _ => simp [Handling.isRouted] at hrouted

end Connection

/-! ## Texts and records -/

namespace Wire

variable {codec : Codec} {c c' : Connection} {v v' : Wire}

/-- **The texts are those of the records that were handled.** -/
structure Delivering (host : Host) (c : Connection) (v : Wire) : Prop where
  /-- A record is at hand. -/
  waiting : ∀ payload, v.worker.atHand = some payload →
    ∃ done, v.records = done ++ [payload] ∧ v.delivered = textsOf host.parse done
  /-- The worker is in `handle_record`. -/
  handling : v.worker.isHandling = true →
    ∃ h done, c.handling = some h ∧ v.records = done ++ [h.payload]
      ∧ (h.stage = .pong → textOf host.parse h.payload = none)
      ∧ v.delivered = textsOf host.parse (if h.isRouted then v.records else done)
  /-- No record is at hand. -/
  idle : v.worker.atHand = none → v.worker.isHandling = false →
    v.delivered = textsOf host.parse v.records
      ∨ v.delivered <+: textsOf host.parse v.records
        ∧ (v.parser.isOpen = false ∧ c.stopping = true ∨ v.worker = .ended)

theorem delivering_of_idle {host : Host} (hhand : v.worker.atHand = none)
    (hout : v.worker.isHandling = false)
    (h : v.delivered = textsOf host.parse v.records
      ∨ v.delivered <+: textsOf host.parse v.records
        ∧ (v.parser.isOpen = false ∧ c.stopping = true ∨ v.worker = .ended)) :
    v.Delivering host c := by
  refine ⟨fun payload hp => ?_, fun hin => ?_, fun _ _ => h⟩
  · rw [hhand] at hp
    cases hp
  · rw [hout] at hin
    cases hin

theorem delivering_of_waiting {host : Host} {payload : Bytes} {done : List Bytes}
    (hhand : v.worker.atHand = some payload) (hout : v.worker.isHandling = false)
    (hrecords : v.records = done ++ [payload]) (hdelivered : v.delivered = textsOf host.parse done) :
    v.Delivering host c := by
  refine ⟨fun p hp => ?_, fun hin => ?_, fun hnone => ?_⟩
  · rw [hhand] at hp
    cases hp
    exact ⟨done, hrecords, hdelivered⟩
  · rw [hout] at hin
    cases hin
  · rw [hhand] at hnone
    cases hnone

theorem delivering_of_handling {host : Host} {h : Handling} {done : List Bytes}
    (hhand : v.worker.atHand = none) (hin : v.worker.isHandling = true) (hh : c.handling = some h)
    (hrecords : v.records = done ++ [h.payload])
    (hpong : h.stage = .pong → textOf host.parse h.payload = none)
    (hdelivered : v.delivered = textsOf host.parse (if h.isRouted then v.records else done)) :
    v.Delivering host c := by
  refine ⟨fun payload hp => ?_, fun _ => ⟨h, done, hh, hrecords, hpong, hdelivered⟩,
    fun _ hout => ?_⟩
  · rw [hhand] at hp
    cases hp
  · rw [hin] at hout
    cases hout

/-- The texts are a part of those of the records. -/
theorem Delivering.part {host : Host} (h : v.Delivering host c) :
    v.delivered <+: textsOf host.parse v.records := by
  cases hin : v.worker.isHandling with
  | true =>
    obtain ⟨d, done, -, hrecords, -, hdelivered⟩ := h.handling hin
    rw [hdelivered]
    split
    · exact List.prefix_rfl
    · rw [hrecords]
      exact textsOf_mono _ (List.prefix_append _ _)
  | false =>
    cases hhand : v.worker.atHand with
    | none =>
      rcases h.idle hhand hin with heq | ⟨hpart, -⟩
      · rw [heq]
      · exact hpart
    | some payload =>
      obtain ⟨done, hrecords, hdelivered⟩ := h.waiting payload hhand
      rw [hdelivered, hrecords]
      exact textsOf_mono _ (List.prefix_append _ _)

/-- Where the parser accepts input and the worker is at no record, the texts
are those of the records. -/
theorem Delivering.eq_of_isOpen {host : Host} (h : v.Delivering host c)
    (hhand : v.worker.atHand = none) (hout : v.worker.isHandling = false)
    (hended : v.worker ≠ .ended) (hopen : v.parser.isOpen = true) :
    v.delivered = textsOf host.parse v.records := by
  rcases h.idle hhand hout with heq | ⟨-, ⟨hclosed, -⟩ | hend⟩
  · exact heq
  · rw [hopen] at hclosed
    cases hclosed
  · exact absurd hend hended

/-- The record at hand is dropped, or the parser is closed. -/
theorem Delivering.close {host : Host} (h : v.Delivering host c)
    (hrecords : v'.records = v.records) (hdelivered : v'.delivered = v.delivered)
    (hhand : v'.worker.atHand = none) (hout : v'.worker.isHandling = false)
    (hclosed : v'.parser.isOpen = false ∧ c'.stopping = true ∨ v'.worker = .ended) :
    v'.Delivering host c' := by
  refine delivering_of_idle hhand hout (.inr ⟨?_, hclosed⟩)
  rw [hrecords, hdelivered]
  exact h.part

theorem Delivering.handles {db : Database} {d : Handling} {late fails : Bool}
    (hattends : c.Attends codec.toHost d) (h : v.Delivering codec.toHost c)
    (hin : v.worker.isHandling = true) (hh : c.handling = some d)
    (hnot : (d.step codec.toHost c late
      (SessionAuthentication.authorizationIsCurrent db fails)).1 ≠ .returns)
    (hc : c.perform codec.toHost (d.step codec.toHost c late
      (SessionAuthentication.authorizationIsCurrent db fails)) = some c')
    (hworker : v'.worker = v.worker) (hrecords : v'.records = v.records)
    (hdelivered : v'.delivered = v.delivered
      ++ match (d.step codec.toHost c late
          (SessionAuthentication.authorizationIsCurrent db fails)).1 with
        | .emit event => [event.text]
        | _ => []) : v'.Delivering codec.toHost c' := by
  obtain ⟨d', done, hd', hdone, hpong, htexts⟩ := h.handling hin
  obtain rfl := Option.some.inj (hh.symm.trans hd')
  have hhandling := Connection.handling_perform hc
  rw [if_neg hnot] at hhandling
  have hpayload : (d.step codec.toHost c late
      (SessionAuthentication.authorizationIsCurrent db fails)).2.payload = d.payload :=
    Connection.payload_step
  have hhand : v'.worker.atHand = none := by
    rw [hworker]
    cases hw : v.worker with
    | handle rest => rfl
    | _ =>
      rw [hw] at hin
      cases hin
  -- a record that was routed has returned
  have hunrouted : d.isRouted = false := by
    obtain ⟨payload, observed, stage⟩ := d
    cases stage with
    | routed => exact absurd rfl hnot
    | _ => rfl
  rw [hunrouted, if_neg (by simp)] at htexts
  refine delivering_of_handling hhand (by rw [hworker]; exact hin) hhandling
    (by rw [hrecords, hpayload]; exact hdone) ?_ ?_
  · intro hstage
    rw [hpayload]
    by_cases hemit : ∃ event, (d.step codec.toHost c late
        (SessionAuthentication.authorizationIsCurrent db fails)).1 = .emit event
    · obtain ⟨event, hemit⟩ := hemit
      exact absurd hstage (hattends.text_of_emit hemit).2.2.2
    · rcases hattends.text_of_routed hnot (fun event he => hemit ⟨event, he⟩) (.inr hstage) with hp | hp
      · exact hpong hp
      · exact hp
  · rw [hdelivered, hrecords, hdone, htexts]
    by_cases hemit : ∃ event, (d.step codec.toHost c late
        (SessionAuthentication.authorizationIsCurrent db fails)).1 = .emit event
    · obtain ⟨event, hemit⟩ := hemit
      obtain ⟨htext, -, hrouted, -⟩ := hattends.text_of_emit hemit
      rw [hemit, hrouted, if_pos rfl, textsOf_concat, htext]
      rfl
    · have hnone : (match (d.step codec.toHost c late
          (SessionAuthentication.authorizationIsCurrent db fails)).1 with
          | .emit event => [event.text]
          | _ => []) = [] := by
        split
        · rename_i event he
          exact absurd ⟨event, he⟩ hemit
        · rfl
      rw [hnone, List.append_nil]
      split
      · rename_i hrouted
        have htext : textOf codec.parse d.payload = none := by
          rcases hattends.text_of_routed hnot (fun event he => hemit ⟨event, he⟩) (.inl hrouted)
            with hp | hp
          · exact hpong hp
          · exact hp
        rw [textsOf_concat, htext]
        exact (List.append_nil _).symm
      · rfl

theorem Delivering.returns {db : Database} {d : Handling} {late fails : Bool} {rest : Bytes}
    (hattends : c.Attends codec.toHost d) (h : v.Delivering codec.toHost c)
    (hin : v.worker.isHandling = true) (hh : c.handling = some d)
    (hreturns : (d.step codec.toHost c late
      (SessionAuthentication.authorizationIsCurrent db fails)).1 = .returns)
    (hstopping : c.stopping = true → c'.stopping = true)
    (hsame : v' = if d.returnValue c then { v with worker := .consume rest }
      else { v with parser := { v.parser with failed := true }, worker := .consume [] }) :
    v'.Delivering codec.toHost c' := by
  obtain ⟨d', done, hd', hdone, -, htexts⟩ := h.handling hin
  obtain rfl := Option.some.inj (hh.symm.trans hd')
  cases hvalue : d.returnValue c with
  | false =>
    have hstop := hattends.stopping_of_returns hreturns hvalue
    rw [hvalue, if_neg (by simp)] at hsame
    subst hsame
    exact h.close rfl rfl rfl rfl (.inl ⟨rfl, hstopping hstop⟩)
  | true =>
    rw [hvalue, if_pos rfl] at hsame
    subst hsame
    refine delivering_of_idle rfl rfl (.inl ?_)
    show v.delivered = textsOf codec.parse v.records
    obtain ⟨payload, observed, stage⟩ := d
    cases stage with
    | routed =>
      rw [htexts]
      rfl
    | greeted =>
      -- a hello has no text
      obtain ⟨-, pkt, hpkt, htype⟩ := hattends.greeted rfl
      have htext : textOf codec.parse payload = none := by
        have hpkt : parsePacket codec.parse payload = .ok pkt := hpkt
        unfold textOf Packet.messageText
        rw [hpkt]
        show (if pkt.type == ascii "message" then _ else none) = none
        rw [htype]
        rfl
      rw [htexts, hdone]
      show textsOf codec.parse done = textsOf codec.parse (done ++ [payload])
      rw [textsOf_concat, htext]
      exact (List.append_nil _).symm
    | _ => cases hvalue

/-- **The texts stay those of the records that were handled.** -/
theorem Delivering.line (hline : Line codec c v c' v') (hv : v.Prefaced)
    (hattending : c.Attending codec.toHost) (hreading : v.Reading c)
    (h : v.Delivering codec.toHost c) : v'.Delivering codec.toHost c' := by
  -- what does not concern the record at hand
  have hmove : v'.receipt = v.receipt → v'.worker.atHand = v.worker.atHand →
      v'.worker.isHandling = v.worker.isHandling → c'.handling = c.handling →
      (v.worker = .ended → v'.worker = .ended) → (c.stopping = true → c'.stopping = true) →
      v'.Delivering codec.toHost c' := by
    intro hreceipt hhand hin hhandling hended hstopping
    simp only [receipt, Prod.mk.injEq] at hreceipt
    obtain ⟨hparser, -, hrecords, hdelivered⟩ := hreceipt
    refine ⟨fun payload hp => ?_, fun hp => ?_, fun hp hq => ?_⟩
    · rw [hrecords, hdelivered]
      exact h.waiting payload (hhand ▸ hp)
    · rw [hrecords, hdelivered, hhandling]
      exact h.handling (hin ▸ hp)
    · rw [hrecords, hdelivered, hparser]
      refine (h.idle (hhand ▸ hp) (hin ▸ hq)).imp_right (fun hpart => ⟨hpart.1, ?_⟩)
      exact hpart.2.imp (fun hclosed => ⟨hclosed.1, hstopping hclosed.2⟩) hended
  cases hline with
  | other hsame => exact hmove rfl rfl rfl hsame.handling id hsame.toLater.stopping
  | @wire _ db e r hstep hc =>
    have hlater := (Connection.later_of_answer hc).stopping
    cases reads_of_step hv hstep with
    | still hr hr' hworker hreceipt =>
      exact hmove hreceipt (by rw [hworker]) (by rw [hworker])
        (Connection.handling_of_answer hr hr' hc) (by rw [hworker]; exact id) hlater
    | goto hr hended hunread hhand hout hout' hdisconnect hreceipt =>
      refine hmove hreceipt hhand (hout'.trans hout.symm) ?_ (fun h => absurd h hended) hlater
      refine Connection.handling_of_answer ?_ ?_ hc <;> rcases hr with rfl | rfl <;> simp
    | quits hr hout hdisconnect hended hreceipt =>
      simp only [receipt, Prod.mk.injEq] at hreceipt
      exact h.close hreceipt.2.2.1 hreceipt.2.2.2 (by rw [hended]; rfl) (by rw [hended]; rfl)
        (.inr hended)
    | fetches hworker hopen hsame =>
      subst hsame
      exact delivering_of_idle rfl rfl (.inl (h.eq_of_isOpen (by rw [hworker]; rfl)
        (by rw [hworker]; rfl) (by simp [hworker]) hopen))
    | closes hworker hclosed hsame =>
      subst hsame
      refine delivering_of_idle rfl rfl ?_
      rcases h.idle (by rw [hworker]; rfl) (by rw [hworker]; rfl) with heq | ⟨hpart, hcases⟩
      · exact .inl heq
      · refine .inr ⟨hpart, .inl ⟨hclosed, ?_⟩⟩
        rcases hcases with ⟨-, hs⟩ | hend
        · exact hlater hs
        · rw [hworker] at hend
          cases hend
    | passes hworker hne hpass hsame =>
      subst hsame
      have hopen := hreading.isOpen_of_unread (by rw [hworker]; exact hne)
      exact delivering_of_idle rfl rfl (.inl (h.eq_of_isOpen (by rw [hworker]; rfl)
        (by rw [hworker]; rfl) (by simp [hworker]) hopen))
    | handsOn hworker hne hpass hsame =>
      subst hsame
      have hopen := hreading.isOpen_of_unread (by rw [hworker]; exact hne)
      exact delivering_of_waiting rfl rfl rfl (h.eq_of_isOpen (by rw [hworker]; rfl)
        (by rw [hworker]; rfl) (by simp [hworker]) hopen)
    | fails hworker hclosed hsame =>
      subst hsame
      refine delivering_of_idle rfl rfl ?_
      rcases h.idle (by rw [hworker]; rfl) (by rw [hworker]; rfl) with heq | ⟨hpart, hcases⟩
      · exact .inl heq
      · refine .inr ⟨hpart, .inl ⟨hclosed, ?_⟩⟩
        rcases hcases with ⟨-, hs⟩ | hend
        · exact hlater hs
        · rw [hworker] at hend
          cases hend
    | drops hworker hstopping hsame =>
      subst hsame
      exact h.close rfl rfl rfl rfl (.inl ⟨rfl, hlater hstopping⟩)
    | begins hworker hsame =>
      subst hsame
      obtain ⟨done, hdone, htexts⟩ := h.waiting _ (by rw [hworker]; rfl)
      obtain rfl := Connection.handling_of_receive hc
      exact delivering_of_handling rfl rfl rfl hdone (fun hs => by cases hs) htexts
    | handles hworker hh hnot hworker' hparser hreceived hrecords hdelivered =>
      obtain ⟨d, hd, hc⟩ := Option.bind_eq_some_iff.mp hc
      obtain rfl := Option.some.inj (hh.symm.trans hd)
      exact h.handles (hattending _ hh) (by rw [hworker]; rfl) hh hnot hc hworker' hrecords hdelivered
    | returns hworker hh hreturns hsame =>
      exact h.returns (hattending _ hh) (by rw [hworker]; rfl) hh hreturns hlater hsame

end Wire

/-! ## Runs -/

namespace Wired

variable {codec : Codec} {w : Wired} {events : List WiredEvent}

/-- **In every run** the records are those of the stream, and the texts those
of the records. -/
theorem delivering_of_runs (h : runs (Wired.step codec) .initial events = some w) {session : ℕ}
    {c : Connection} (hc : w.node.connection session = some c) :
    (w.wire session).Reading c ∧ (w.wire session).Delivering codec.toHost c := by
  refine ((line_of_runs (I := fun c v => (Held c v.current ∧ v.Prefaced)
    ∧ c.Attending codec.toHost ∧ v.Reading c ∧ v.Delivering codec.toHost c)
    (fun outgoing => ?_) (fun {c v c' v'} hline hv => ?_) h).2 session c hc).2.2
  · refine ⟨⟨rfl, prefaced_initial⟩, fun d hd => (by cases hd), ?_, ?_⟩
    · exact Wire.reading_of_live (RecordParser.live_initial le_rfl) rfl
    · exact Wire.delivering_of_idle rfl rfl (.inl rfl)
  · obtain ⟨⟨hheld, hprefaced⟩, hattending, hreading, hdelivering⟩ := hv
    exact ⟨⟨Held.line hline hheld, hprefaced.line hline hheld⟩, hattending.line hline,
      hreading.line hline hprefaced hattending,
      hdelivering.line hline hprefaced hattending hreading⟩

end Wired

end Gasoline
