import Gasoline.WirePreface

/-!
# Preface first, record second

The worker sends records only past both prefaces. `send_packet` asks only
whether the session is ready, and a session may be activated before it was
started: so a record may be the first thing that is written
(`record_before_preface`). In the runs in which `send_packet` is let through
only past the prefaces, the preface is what is written first, and no record
is written before that of the peer was validated (`records_behind_prefaces`).
-/

namespace Gasoline

namespace Wire

variable {codec : Codec} {c : Connection} {current : Bool → AuthorizedPeer → Bool} {v v' : Wire}
  {r : Option Request}

/-! ## Past the prefaces -/

/-- The preface was sent, and that of the peer was validated. -/
def IsPast (v : Wire) : Prop := v.localPrefaceSent = true ∧ v.parser.prefaceComplete = true

instance (v : Wire) : Decidable v.IsPast :=
  inferInstanceAs (Decidable (v.localPrefaceSent = true ∧ v.parser.prefaceComplete = true))

theorem IsPast.work (h : v.IsPast) (hstep : v.work c = some (v', r)) : v'.IsPast := by
  unfold Wire.work at hstep
  split at hstep
  · split at hstep
    · cases hstep
    split at hstep
    · cases hstep
      exact h
    split at hstep <;> cases hstep <;> exact h
  · split at hstep <;> cases hstep <;> exact h
  · split at hstep <;> cases hstep <;> exact h
  · rename_i input _ hworker
    have hiterate := RecordParser.iterate_past v.parser [] input
    split at hstep <;> rename_i hpass <;> rw [hpass] at hiterate <;> cases hstep
    · exact ⟨h.1, hiterate.1 h.2⟩
    · exact ⟨h.1, hiterate.1 h.2⟩
    · exact ⟨h.1, hiterate h.2⟩
  · split at hstep <;> cases hstep <;> exact h
  · split at hstep
    · cases hstep
    split at hstep <;> cases hstep <;> exact h
  · cases hstep
    exact h
  · cases hstep
    exact h
  · split at hstep <;> cases hstep <;> exact h
  · cases hstep
    exact h
  · cases hstep

theorem IsPast.transmit (h : v.IsPast) {stopping late : Bool} {origin : Origin} {s : Sending}
    {answer : SendAnswer} (hstep : v.transmit stopping origin s late answer = some (v', r)) :
    v'.IsPast := by
  have hcomplete : ∀ {u u' : Wire} {r : Option Request}, u.IsPast →
      u.complete origin s.data = (u', r) → u'.IsPast := by
    intro u u' r hu heq
    cases origin with
    | preface =>
      cases heq
      exact ⟨rfl, hu.2⟩
    | _ =>
      cases heq
      exact hu
  have habandon : v.abandon origin s = (v', r) → v'.IsPast := by
    intro heq
    cases origin <;> cases heq <;> exact h
  unfold Wire.transmit at hstep
  split at hstep
  · split at hstep
    · exact hcomplete h (Option.some.inj hstep)
    · split at hstep <;> cases hstep <;> exact h
  · split at hstep
    · split at hstep
      · cases hstep
        exact h
      split at hstep
      · cases hstep
      split at hstep
      · refine hcomplete ?_ (Option.some.inj hstep)
        exact h
      · cases hstep
        exact h
    · cases hstep
      exact h
    · cases hstep
      exact h
    · cases hstep
      exact h
    · cases hstep
  · split at hstep
    · cases hstep
      exact h
    · cases hstep
      exact h
    · cases hstep
  · exact habandon (Option.some.inj hstep)

/-- `send_packet_locked`, up to `send_all`. -/
theorem IsPast.serialize (h : v.IsPast) {origin : Origin}
    (hstep : v.serialize codec c origin = some (v', r)) : v'.IsPast := by
  cases origin with
  | preface => cases hstep
  | hello =>
    simp only [Wire.serialize] at hstep
    split at hstep <;> cases hstep <;> exact h
  | _ =>
    simp only [Wire.serialize] at hstep
    split at hstep
    · split at hstep <;> cases hstep <;> exact h
    · cases hstep

theorem IsPast.beginSend (h : v.IsPast) (origin : Origin) : (v.beginSend c origin).IsPast := by
  unfold Wire.beginSend
  split <;> exact h

/-- **A session stays past its prefaces.** -/
theorem IsPast.step (h : v.IsPast) {e : WireEvent}
    (hstep : v.step codec c current e = some (v', r)) : v'.IsPast := by
  cases moves hstep with
  | start => exact h
  | work hby hsetup hwork => exact h.work hwork
  | @receive answer v' hworker hreceive =>
    cases answer with
    | eof =>
      cases hreceive
      exact ⟨h.1, (RecordParser.prefaceComplete_finish v.parser).trans h.2⟩
    | data chunk =>
      simp only [Wire.receive] at hreceive
      split at hreceive
      · cases hreceive
      · split at hreceive <;> cases hreceive <;> exact h
    | _ =>
      cases hreceive
      exact h
  | @handle late fails rest handling hworker hhandling hby hnone =>
    generalize (handling.step codec.toHost c late (current fails)).1 = action
    cases action with
    | sendPong => exact h.beginSend _
    | returns =>
      simp only [Wire.handle]
      split <;> exact h
    | _ => exact h
  | sendPacket => exact h.beginSend _
  | validated => exact h
  | stale => exact h
  | serialize hcurrent hserialize => exact h.serialize hserialize
  | transmit hcurrent htransmit => exact h.transmit htransmit

/-- Only `send_packet` asks for a packet to be sent. -/
theorem eq_sendPacket_of_step {e : WireEvent} {packet : Json}
    (hstep : v.step codec c current e = some (v', some (.send packet))) : e = .sendPacket packet := by
  cases moves hstep with
  | sendPacket => rfl
  | work hby hsetup hwork =>
    -- the worker asks for a disconnect, or hands a record on
    unfold Wire.work at hwork
    repeat' split at hwork
    all_goals cases hwork
  | serialize hcurrent hserialize => cases serialized hserialize
  | @transmit late answer origin s v' r hcurrent htransmit =>
    unfold Wire.transmit at htransmit
    repeat' split at htransmit
    all_goals first
      | cases htransmit
      | (cases origin <;> cases htransmit)

instance (c : Connection) (origin : Origin) : Decidable (Permits c origin) :=
  inferInstanceAs (Decidable (c.stopping = false
    ∧ (origin.content.isSome = true → c.ready = true ∧ c.authorizedPeer.isSome = true)))

/-! ## What is written -/

/-- **Bytes are written only by the call that sends**, from its byte string
and behind those it has written. -/
theorem accepted_of_step {e : WireEvent} (hstep : v.step codec c current e = some (v', r)) :
    v'.accepted = v.accepted
      ∨ ∃ origin s n, v.current = some ⟨origin, .sending s⟩
        ∧ v'.accepted = v.accepted ++ (s.data.drop s.sent).take n := by
  cases sends_of_step hstep with
  | quiet _ _ haccepted => exact .inl haccepted
  | begins _ _ _ _ haccepted => exact .inl haccepted
  | refused _ _ _ _ haccepted => exact .inl haccepted
  | declined _ _ _ haccepted => exact .inl haccepted
  | validated _ _ _ _ hsame => exact .inl (by rw [hsame])
  | stale _ _ _ hfinish => exact .inl (by rw [hfinish]; rfl)
  | dropped _ _ _ _ haccepted => exact .inl haccepted
  | framed _ _ _ hsame => exact .inl (by rw [hsame])
  | goesOn _ _ _ hsame => exact .inl (by rw [hsame])
  | accepts hcurrent _ _ _ hsame => exact .inr ⟨_, _, _, hcurrent, by rw [hsame]⟩
  | completes hcurrent _ _ _ _ haccepted => exact .inr ⟨_, _, _, hcurrent, haccepted⟩
  | abandons _ _ _ haccepted => exact .inl haccepted

/-- A step writes bytes, and not of the preface. -/
def WritesRecord (v v' : Wire) : Prop :=
  v'.accepted ≠ v.accepted ∧ v.current.any (fun o => o.origin.isPreface) = false

instance (v v' : Wire) : Decidable (v.WritesRecord v') :=
  inferInstanceAs (Decidable (v'.accepted ≠ v.accepted
    ∧ v.current.any (fun o => o.origin.isPreface) = false))

/-- **Everyone keeps to the order**: a packet is sent past the prefaces, and
the preface is what was written first. -/
structure Ordered (v : Wire) : Prop where
  packet : ∀ p progress, v.current = some ⟨.packet p, progress⟩ → v.IsPast
  led : v.PrefaceWritten → prefaceBytes <+: v.accepted
  begun : ∀ s, v.current = some ⟨.preface, .sending s⟩ → v.accepted = prefaceBytes.take s.sent
  unwritten : v.calls.countP Origin.isPreface = 0 → v.accepted = []

/-- A call that is not `send_preface` is past the prefaces. -/
theorem Ordered.isPast (h : v.Ordered) (hv : v.Prefaced) {o : Outgoing} (ho : v.current = some o)
    (horigin : o.origin ≠ .preface) : v.IsPast := by
  obtain ⟨origin, progress⟩ := o
  have hconcerns := hv.owner _ ho
  cases origin with
  | preface => exact absurd rfl horigin
  | hello =>
    obtain ⟨k, hk⟩ := hconcerns
    exact ⟨hv.past (by rw [hk]; rfl), hv.resumed (by rw [hk]; rfl)⟩
  | reply p =>
    obtain ⟨rest, hrest⟩ := hconcerns
    exact ⟨hv.past (by rw [hrest]; rfl), hv.resumed (by rw [hrest]; rfl)⟩
  | packet p => exact h.packet p progress ho

theorem countP_calls_pos {o : Outgoing} (ho : v.current = some o) (horigin : o.origin = .preface) :
    v.calls.countP Origin.isPreface ≠ 0 := by
  have hmem : Origin.preface ∈ v.calls := by
    unfold calls
    rw [ho, ← horigin]
    exact List.mem_append_right _ (List.mem_singleton_self _)
  exact (List.countP_pos_iff.mpr ⟨_, hmem, rfl⟩).ne'

theorem PrefaceWritten.countP (h : v.PrefaceWritten) : v.calls.countP Origin.isPreface ≠ 0 := by
  obtain ⟨s, hs, horigin, -⟩ := h
  have hmem : Origin.preface ∈ v.calls := by
    rw [← horigin]
    exact List.mem_append_left _ (List.mem_map_of_mem hs)
  exact (List.countP_pos_iff.mpr ⟨_, hmem, rfl⟩).ne'

/-- **Nothing is written before the preface.** -/
theorem Ordered.unwritten_step (h : v.Ordered) (hv : v.Prefaced) {e : WireEvent}
    (hstep : v.step codec c current e = some (v', r))
    (hcount : v.calls.countP Origin.isPreface = 0) : v'.accepted = [] := by
  rcases accepted_of_step hstep with heq | ⟨origin, s, n, hcurrent, -⟩
  · rw [heq, h.unwritten hcount]
  · by_cases horigin : origin = .preface
    · exact absurd hcount (countP_calls_pos hcurrent horigin)
    · exact absurd hcount (hv.written (h.isPast hv hcurrent horigin).1).countP

/-- **Every step keeps to the order**, where `send_packet` is let through
only past the prefaces. -/
theorem Ordered.step (h : v.Ordered) (hv : v.Prefaced) {e : WireEvent}
    (hstep : v.step codec c current e = some (v', r))
    (hpast : ∀ packet, e = .sendPacket packet → Permits c (.packet packet) → v.IsPast) :
    v'.Ordered := by
  have hnext : v.IsPast → v'.IsPast := fun hp => hp.step hstep
  have hcalls := calls_step hstep
  have hunwritten : v'.calls.countP Origin.isPreface = 0 → v'.accepted = [] := by
    intro hcount
    refine h.unwritten_step hv hstep ?_
    rcases hcalls with heq | ⟨-, origin, heq⟩
    · rw [← heq, hcount]
    · rw [heq, List.countP_append] at hcount
      omega
  -- a preface that was written stays what was written first
  have hled : v.PrefaceWritten → prefaceBytes <+: v'.accepted := by
    intro hw
    rcases accepted_of_step hstep with heq | ⟨origin, s, n, -, heq⟩
    · rw [heq]
      exact h.led hw
    · rw [heq]
      exact (h.led hw).trans (List.prefix_append _ _)
  have hsame : v'.sends = v.sends → v'.PrefaceWritten → prefaceBytes <+: v'.accepted := by
    intro hsends hw
    refine hled ?_
    unfold PrefaceWritten
    rw [← hsends]
    exact hw
  -- a call that is over and has not written the preface
  have hover : ∀ {s : Send}, v'.current = none → v'.sends = v.sends ++ [s] →
      (s.origin = .preface → s.data = prefaceBytes → s.succeeded = true →
        prefaceBytes <+: v'.accepted) → v'.Ordered := by
    intro s hnone hsends hlast
    refine ⟨fun p progress hp => ?_, ?_, fun t ht => ?_, hunwritten⟩
    · rw [hnone] at hp
      cases hp
    · rintro ⟨t, ht, horigin, hdata, hsucceeded⟩
      rw [hsends, List.mem_append, List.mem_singleton] at ht
      rcases ht with ht | rfl
      · exact hled ⟨t, ht, horigin, hdata, hsucceeded⟩
      · exact hlast horigin hdata hsucceeded
    · rw [hnone] at ht
      cases ht
  -- a call that goes on
  have hgoesOn : ∀ {origin : Origin} {progress progress' : Progress},
      v.current = some ⟨origin, progress⟩ → v'.current = some ⟨origin, progress'⟩ →
      v'.sends = v.sends →
      (∀ s, origin = .preface → progress' = .sending s → v'.accepted = prefaceBytes.take s.sent) →
      v'.Ordered := by
    intro origin progress progress' hcurrent hcurrent' hsends hbegun
    refine ⟨fun p q hp => ?_, hsame hsends, fun t ht => ?_, hunwritten⟩
    · rw [hcurrent'] at hp
      cases hp
      exact hnext (h.packet p progress hcurrent)
    · rw [hcurrent'] at ht
      cases ht
      exact hbegun t rfl rfl
  cases sends_of_step hstep with
  | quiet hr hcurrent haccepted hsends =>
    refine ⟨fun p progress hp => ?_, hsame hsends, fun s hs => ?_, hunwritten⟩
    · exact hnext (h.packet p progress (hcurrent ▸ hp))
    · rw [haccepted]
      exact h.begun s (hcurrent ▸ hs)
  | begins hbegins hpermits hnone hcurrent haccepted hsends =>
    refine ⟨fun p progress hp => ?_, hsame hsends, fun s hs => ?_, hunwritten⟩
    · rw [hcurrent] at hp
      cases hp
      cases hbegins
      exact hnext (hpast p (eq_sendPacket_of_step hstep) hpermits)
    · rw [hcurrent] at hs
      cases hs
      cases hbegins with
      | preface hworker hfirst hfree =>
        have hcount := hv.noPreface (.inr ⟨hworker, fun o ho => by rw [hnone] at ho; cases ho⟩)
        rw [haccepted, h.unwritten hcount, List.take_zero]
  | refused hbegins hrefused hnone hcurrent haccepted hsends =>
    exact hover hcurrent hsends (fun _ _ hs => by cases hs)
  | declined horigin hnone hcurrent haccepted hsends =>
    exact hover hcurrent hsends (fun _ hdata => by cases hdata)
  | validated hcurrent hlocked hwriter hvalid heq =>
    rw [heq]
    exact h
  | stale hcurrent hwriter hstale hfinish =>
    exact hover (by rw [hfinish]; rfl) (by rw [hfinish]; rfl) (fun _ _ hs => by cases hs)
  | dropped hcurrent hwriter hresult hnone haccepted hsends =>
    exact hover hnone hsends (fun _ hdata => by cases hdata)
  | framed hcurrent hpacket hframe heq =>
    refine hgoesOn hcurrent (by rw [heq]) (by rw [heq]) (fun s horigin => ?_)
    rcases hpacket with ⟨rfl, -⟩ | ⟨hcontent, -⟩
    · cases horigin
    · rw [horigin] at hcontent
      cases hcontent
  | @goesOn origin s stage hcurrent hstage heq =>
    refine hgoesOn hcurrent (by rw [heq]) (by rw [heq]) (fun t horigin ht => ?_)
    cases ht
    rw [heq]
    subst horigin
    exact h.begun s hcurrent
  | accepts hcurrent hpositive hstage hless heq =>
    refine hgoesOn hcurrent (by rw [heq]) (by rw [heq]) (fun t horigin ht => ?_)
    cases ht
    rw [heq]
    subst horigin
    show v.accepted ++ _ = _
    rw [h.begun _ hcurrent, hv.data _ hcurrent, List.take_add]
  | completes hcurrent hstage hall hwithin hnone haccepted hsends =>
    refine hover hnone hsends (fun horigin hdata _ => ?_)
    cases horigin
    rw [haccepted, h.begun _ hcurrent, ← hv.data _ hcurrent, ← List.take_add,
      List.take_of_length_le hall]
  | abandons hcurrent hfailed hnone haccepted hsends =>
    exact hover hnone hsends (fun _ _ hs => by cases hs)

end Wire

/-! ## Runs -/

namespace Wired

variable {codec : Codec} {w : Wired} {events : List WiredEvent}

theorem prefaced_initial : Wire.initial.Prefaced :=
  ⟨fun _ => rfl, fun h => (by cases h), fun h => (by cases h), fun _ h => (by cases h),
    fun _ h => (by cases h), fun h => (by cases h), Nat.zero_le 1, fun _ => rfl,
    fun _ h => (by cases h), Nat.zero_le 1, fun _ => rfl⟩

/-- **In every run the worker keeps to the order.** -/
theorem prefaced_of_runs (h : runs (Wired.step codec) .initial events = some w) (session : ℕ) :
    (w.wire session).Prefaced := by
  obtain ⟨hwire, hline⟩ := line_of_runs (I := fun c v => Held c v.current ∧ v.Prefaced)
    (fun _ => ⟨rfl, prefaced_initial⟩)
    (fun hline hv => ⟨Held.line hline hv.1, hv.2.line hline hv.1⟩) h
  cases hc : w.node.connection session with
  | none =>
    rw [hwire session hc]
    exact prefaced_initial
  | some c => exact (hline session c hc).2

/-- **`send_packet` is let through only past the prefaces**: the condition on
a step. -/
def Orderly (w : Wired) : WiredEvent → Prop
  | .wire session (.sendPacket packet) =>
    ∀ c, w.node.connection session = some c → Wire.Permits c (.packet packet) →
      (w.wire session).IsPast
  | _ => True

instance (w : Wired) (e : WiredEvent) : Decidable (w.Orderly e) :=
  match e with
  | .node _ => .isTrue trivial
  | .wire session (.sendPacket packet) =>
    decidable_of_iff ((w.node.connection session).all (fun c =>
        decide (Wire.Permits c (.packet packet) → (w.wire session).IsPast)) = true) (by
      simp only [Option.all_eq_true, decide_eq_true_eq, Orderly])
  | .wire _ (.start _) => .isTrue trivial
  | .wire _ .work => .isTrue trivial
  | .wire _ (.receive _) => .isTrue trivial
  | .wire _ (.handle _ _) => .isTrue trivial
  | .wire _ (.validate _) => .isTrue trivial
  | .wire _ .serialize => .isTrue trivial
  | .wire _ (.transmit _ _) => .isTrue trivial

/-- **In every run whose steps are orderly everyone keeps to the order.** -/
theorem ordered_of_runs (h : runs (Wired.step codec) .initial events = some w)
    (heach : EachStep (Wired.step codec) Orderly .initial events) (session : ℕ) :
    (w.wire session).Ordered := by
  induction events using List.reverseRecOn generalizing w with
  | nil =>
    cases h
    refine ⟨fun _ _ hp => (by cases hp), ?_, fun _ hs => (by cases hs), fun _ => rfl⟩
    rintro ⟨s, hs, -⟩
    cases hs
  | append_singleton events e ih =>
    obtain ⟨heach, hlast⟩ := heach.of_concat
    obtain ⟨u, hu, hstep⟩ := runs_concat.mp h
    have hordered := ih hu heach
    have hcond := hlast u hu
    rcases wire_of_step hstep session with heq | ⟨c, d, r, hc, rfl, hv⟩
    · rw [heq]
      exact hordered
    · refine hordered.step (prefaced_of_runs hu session) hv ?_
      rintro packet rfl hpermits
      exact hcond c hc hpermits

/-- **Preface first, record second.** In every run of a node with its wires,
`send_preface` and `send_initial_hello` take the lock of a session at most
once. Where `send_packet` was let through only past the prefaces, whatever
else happened in whatever order, every step that writes bytes of a record
finds the ten bytes of the preface written, before all others, and the
preface of the peer validated. -/
theorem records_behind_prefaces (h : runs (Wired.step codec) .initial events = some w)
    (session : ℕ) :
    (w.wire session).calls.countP Origin.isPreface ≤ 1
    ∧ (w.wire session).calls.countP Origin.isHello ≤ 1
    ∧ (EachStep (Wired.step codec) Orderly .initial events →
      ∀ e w', w.step codec e = some w' → (w.wire session).WritesRecord (w'.wire session) →
        prefaceBytes <+: (w.wire session).accepted
          ∧ (w.wire session).parser.prefaceComplete = true) := by
  have hprefaced := prefaced_of_runs h session
  refine ⟨hprefaced.prefaces, hprefaced.hellos, fun heach e w' hstep hwrites => ?_⟩
  have hordered := ordered_of_runs h heach session
  obtain ⟨hchanged, hrecord⟩ := hwrites
  suffices hpast : (w.wire session).IsPast from
    ⟨hordered.led (hprefaced.written hpast.1), hpast.2⟩
  -- the call that writes is not `send_preface`
  rcases wire_of_step hstep session with heq | ⟨c, d, r, hc, rfl, hv⟩
  · exact absurd (by rw [heq]) hchanged
  · rcases Wire.accepted_of_step hv with heq | ⟨origin, s, n, hcurrent, -⟩
    · exact absurd heq hchanged
    · refine hordered.isPast hprefaced hcurrent (fun horigin => ?_)
      cases horigin
      rw [hcurrent] at hrecord
      cases hrecord

/-- A peer is imported, and a session is activated that was not started. -/
def activated : List WiredEvent :=
  [.node (.store ⟨1, .importDeviceForAdmin TrustStores.sampleDevice, true⟩), .node (.create true)]
    ++ (Node.activation 1).map .node

/-- A message is sent, up to its first byte. -/
def sampleSend : List WiredEvent :=
  [.wire 1 (.sendPacket (buildMessagePacket sampleCodec.myDeviceId (ascii "hi"))),
    .wire 1 (.validate false), .wire 1 .serialize, .wire 1 (.transmit false .error)]

/-- The session is started: the prefaces are exchanged, and the hello is
sent. -/
def handshake : List WiredEvent :=
  [.wire 1 (.start true), .wire 1 .work, .wire 1 (.transmit false .error),
    .wire 1 (.transmit false (.accepted 10)), .wire 1 .work,
    .wire 1 (.receive (.data prefaceBytes)), .wire 1 .work, .wire 1 .work, .wire 1 .work,
    .wire 1 .work, .wire 1 .serialize, .wire 1 (.transmit false .error),
    .wire 1 (.transmit false (.accepted 128))]

/-- The message is sent behind the preface and the hello. -/
theorem records_behind_prefaces_handshake :
    ∃ w w', runs (Wired.step sampleCodec) .initial (activated ++ handshake ++ sampleSend) = some w
      ∧ w.step sampleCodec (.wire 1 (.transmit false (.accepted 1))) = some w'
      ∧ (w.wire 1).WritesRecord (w'.wire 1) ∧ prefaceBytes <+: (w.wire 1).accepted
      ∧ (w.wire 1).parser.prefaceComplete = true := by
  obtain ⟨w, hrun, hw⟩ : ∃ w,
      runs (Wired.step sampleCodec) .initial (activated ++ handshake ++ sampleSend) = some w
      ∧ ((w.step sampleCodec (.wire 1 (.transmit false (.accepted 1)))).any
          (fun w' => decide ((w.wire 1).WritesRecord (w'.wire 1)))) = true :=
    Option.map_eq_some_iff.mp (by decide +kernel)
  obtain ⟨w', hstep, hwrites⟩ := (Option.any_eq_true _ _).mp hw
  have hwrites := of_decide_eq_true hwrites
  obtain ⟨hled, hcomplete⟩ :=
    (records_behind_prefaces hrun 1).2.2 (by decide +kernel) _ w' hstep hwrites
  exact ⟨w, w', hrun, hstep, hwrites, hled, hcomplete⟩

/-- **A record before the preface**: the message is sent on the session that
was not started, and its first byte is the first byte on the socket. -/
theorem record_before_preface :
    ∃ w w', runs (Wired.step sampleCodec) .initial (activated ++ sampleSend) = some w
      ∧ w.step sampleCodec (.wire 1 (.transmit false (.accepted 1))) = some w'
      ∧ (w.wire 1).WritesRecord (w'.wire 1) ∧ (w.wire 1).accepted = []
      ∧ ¬ prefaceBytes <+: (w.wire 1).accepted ∧ (w.wire 1).localPrefaceSent = false
      ∧ (w.wire 1).parser.prefaceComplete = false := by
  obtain ⟨w, hrun, hw⟩ : ∃ w,
      runs (Wired.step sampleCodec) .initial (activated ++ sampleSend) = some w
      ∧ ((w.step sampleCodec (.wire 1 (.transmit false (.accepted 1)))).any
          (fun w' => decide ((w.wire 1).WritesRecord (w'.wire 1))),
        (w.wire 1).accepted, (w.wire 1).localPrefaceSent, (w.wire 1).parser.prefaceComplete)
        = (true, [], false, false) :=
    Option.map_eq_some_iff.mp (by decide +kernel)
  simp only [Prod.mk.injEq] at hw
  obtain ⟨hany, haccepted, hsent, hcomplete⟩ := hw
  obtain ⟨w', hstep, hwrites⟩ := (Option.any_eq_true _ _).mp hany
  refine ⟨w, w', hrun, hstep, of_decide_eq_true hwrites, haccepted, ?_, hsent, hcomplete⟩
  rw [haccepted]
  decide

end Wired

end Gasoline
