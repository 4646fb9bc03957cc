import Gasoline.Traffic

/-!
# What a session passes on and sends

The results about the traffic of a session, over every run of a process. A
statement about what came before is one about the events of the run: they
are taken apart into those before the record arrived, those until it was
checked, and those since (`Node.Vouched`), and the worker was at this record
all along. The same is said of a call of `send_packet` and the lock it holds
(`Node.Cleared`).
-/

namespace Gasoline

namespace Node

variable {host : Host} {n n' : Node} {e : NodeEvent}

/-! ## Every worker knows what its stage says -/

/-- Every worker that is at a record knows what its stage says. -/
def Attentive (host : Host) (n : Node) : Prop :=
  ∀ session c h, n.connection session = some c → c.handling = some h → c.Attends host h

theorem Attentive.step (hn : n.Attentive host) (hdisciplined : n.Disciplined)
    (h : n.step host e = some n') : n'.Attentive host := by
  intro session c' h' hc' hh'
  cases hc : n.connection session with
  | none =>
    obtain ⟨outgoing, rfl⟩ := create_of_step h hc hc'
    cases hh'
  | some c =>
    obtain ⟨d, hd, hwork⟩ := work_of_step hdisciplined h hc
    obtain rfl := Option.some.inj (hc'.symm.trans hd)
    cases hwork with
    | other hsame =>
      exact (hn session c h' hc (hsame.handling.symm.trans hh')).later hsame.toLater
    | receive hnone =>
      cases hh'
      exact Connection.attends_begun _
    | handle hh hperform => exact (hn session c _ hc hh).step hperform hh'
    | send hfree =>
      rw [Connection.handling_beginSend] at hh'
      exact (hn session c h' hc hh').later (Connection.later_beginSend _)
    | sending hsending =>
      obtain ⟨hlater, hhandling⟩ := Connection.later_sending hsending
      exact (hn session c h' hc (hhandling.symm.trans hh')).later hlater

theorem attentive_of_runs {events : List NodeEvent}
    (h : runs (Node.step host) initial events = some n) : n.Attentive host := by
  have hboth : n.Disciplined ∧ n.Attentive host :=
    runs_invariant (I := fun m => m.Disciplined ∧ m.Attentive host)
      (fun _ _ _ hm hstep => ⟨hm.1.effect (step_effect hstep), hm.2.step hm.1 hstep⟩) h
      ⟨disciplined_initial, fun _ _ _ h => (by cases h)⟩
  exact hboth.2

/-! ## What `handle_record` does at an event -/

/-- **What `handle_record` does at an event**: for which session, at which
record, and what. -/
def handled (host : Host) (n : Node) : NodeEvent → Option (ℕ × Handling × HandlingAction)
  | .handle session late fails =>
    (n.connection session).bind (fun c => c.handling.map (fun h =>
      (session, h, (h.step host c late
        (SessionAuthentication.authorizationIsCurrent n.database fails)).1)))
  | _ => none

theorem handled_eq_some {session : ℕ} {h : Handling} {action : HandlingAction}
    (hhandled : n.handled host e = some (session, h, action)) :
    ∃ late fails c, e = .handle session late fails ∧ n.connection session = some c
      ∧ c.handling = some h
      ∧ (h.step host c late
        (SessionAuthentication.authorizationIsCurrent n.database fails)).1 = action := by
  cases e with
  | handle other late fails =>
    obtain ⟨c, hc, hmap⟩ := Option.bind_eq_some_iff.mp hhandled
    obtain ⟨h', hh', heq⟩ := Option.map_eq_some_iff.mp hmap
    simp only [Prod.mk.injEq] at heq
    obtain ⟨rfl, rfl, rfl⟩ := heq
    exact ⟨late, fails, c, rfl, hc, hh', rfl⟩
  | _ => cases hhandled

/-- The step of the process is that of `handle_record`. -/
theorem perform_of_handled (hstep : n.step host e = some n') {session : ℕ} {h : Handling}
    {action : HandlingAction} (hhandled : n.handled host e = some (session, h, action)) :
    ∃ next c, n.connection session = some c ∧ c.handling = some h
      ∧ n.perform host c session (action, next) = some n' := by
  obtain ⟨late, fails, c, rfl, hc, hh, rfl⟩ := handled_eq_some hhandled
  obtain ⟨d, hd, hstep⟩ := Option.bind_eq_some_iff.mp hstep
  obtain rfl := Option.some.inj (hc.symm.trans hd)
  obtain ⟨h₂, hh₂, hstep⟩ := Option.bind_eq_some_iff.mp hstep
  obtain rfl := Option.some.inj (hh.symm.trans hh₂)
  exact ⟨_, c, hc, hh, hstep⟩

/-- The record stays the same until `handle_record` returns. -/
theorem payload_step (c : Connection) (late : Bool) (current : AuthorizedPeer → Bool)
    (h : Handling) : (h.step host c late current).2.payload = h.payload := by
  have hbranch := h.branch host c late current
  generalize h.step host c late current = x at hbranch
  cases hbranch <;> rfl

/-! ## Where a record and its check are in a run -/

/-- The worker of the session is at the record. -/
def AtRecord (session : ℕ) (payload : Bytes) (n : Node) : Prop :=
  ∃ c h, n.connection session = some c ∧ c.handling = some h ∧ h.payload = payload

/-- The worker of the session is about to route the packet of the record. -/
def Routes (session : ℕ) (pkt : Packet) (peer : AuthorizedPeer) (n : Node) : Prop :=
  ∃ c h, n.connection session = some c ∧ c.handling = some h ∧ h.stage = .route pkt peer

/-- **The peer is vouched for**: the record arrived, then
`authorization_is_current` returned true for the peer, and the worker of the
session was at this record throughout. -/
def Vouched (host : Host) (events : List NodeEvent) (session : ℕ) (payload : Bytes)
    (peer : AuthorizedPeer) : Prop :=
  ∃ (before between after : List NodeEvent) (late fails : Bool) (u v w : Node),
    events = before ++ .receive session payload :: (between ++ .handle session late fails :: after)
    ∧ runs (Node.step host) initial before = some u
    ∧ u.step host (.receive session payload) = some v
    ∧ runs (Node.step host) v between = some w
    ∧ (∃ c h pkt, w.connection session = some c ∧ c.handling = some h
      ∧ h.stage = .validate pkt peer)
    ∧ SessionAuthentication.authorizationIsCurrent w.database fails peer = true
    ∧ Along (Node.step host) (AtRecord session payload) v
      (between ++ .handle session late fails :: after)

/-- The worker comes to a record when it is received. -/
theorem receive_of_atRecord (hdisciplined : n.Disciplined) (h : n.step host e = some n')
    {session : ℕ} {payload : Bytes} (hn : ¬ AtRecord session payload n)
    (hn' : AtRecord session payload n') :
    e = .receive session payload ∧ ∃ c, n'.connection session = some c
      ∧ c.handling = some ⟨payload, none, .loadStopping⟩ := by
  obtain ⟨c', h', hc', hh', rfl⟩ := hn'
  cases hc : n.connection session with
  | none =>
    obtain ⟨outgoing, rfl⟩ := create_of_step h hc hc'
    cases hh'
  | some c =>
    obtain ⟨d, hd, hwork⟩ := work_of_step hdisciplined h hc
    obtain rfl := Option.some.inj (hc'.symm.trans hd)
    -- a worker that is at the record now, with no record received, was at it before
    cases hwork with
    | other hsame => exact absurd ⟨c, h', hc, hsame.handling.symm.trans hh', rfl⟩ hn
    | receive hnone =>
      cases hh'
      exact ⟨rfl, _, hc', rfl⟩
    | handle hh hperform =>
      rw [Connection.handling_perform hperform] at hh'
      split at hh'
      · cases hh'
      · cases hh'
        exact absurd ⟨c, _, hc, hh, (payload_step c _ _ _).symm⟩ hn
    | send hfree =>
      rw [Connection.handling_beginSend] at hh'
      exact absurd ⟨c, h', hc, hh', rfl⟩ hn
    | sending hsending =>
      have hhandling := (Connection.later_sending hsending).2
      exact absurd ⟨c, h', hc, hhandling.symm.trans hh', rfl⟩ hn

/-- A packet that is no control record comes to be routed by the check. -/
theorem check_of_routes (hdisciplined : n.Disciplined) (h : n.step host e = some n')
    {session : ℕ} {pkt : Packet} {peer : AuthorizedPeer} (hcontrol : pkt.isControlRecord = false)
    (hn : ¬ Routes session pkt peer n) (hn' : Routes session pkt peer n') :
    ∃ late fails, e = .handle session late fails
      ∧ (∃ c h, n.connection session = some c ∧ c.handling = some h
        ∧ h.stage = .validate pkt peer)
      ∧ SessionAuthentication.authorizationIsCurrent n.database fails peer = true := by
  obtain ⟨c', h', hc', hh', hstage'⟩ := hn'
  cases hc : n.connection session with
  | none =>
    obtain ⟨outgoing, rfl⟩ := create_of_step h hc hc'
    cases hh'
  | some c =>
    obtain ⟨d, hd, hwork⟩ := work_of_step hdisciplined h hc
    obtain rfl := Option.some.inj (hc'.symm.trans hd)
    cases hwork with
    | other hsame => exact absurd ⟨c, h', hc, hsame.handling.symm.trans hh', hstage'⟩ hn
    | receive hnone =>
      cases hh'
      cases hstage'
    | @handle late fails hbefore _ hh hperform =>
      rw [Connection.handling_perform hperform] at hh'
      refine ⟨late, fails, rfl, ?_⟩
      have hbranch := hbefore.branch host c late
        (SessionAuthentication.authorizationIsCurrent n.database fails)
      generalize hbefore.step host c late
        (SessionAuthentication.authorizationIsCurrent n.database fails) = x at hh' hbranch
      cases hbranch with
      | returns => cases hh'
      | control _ _ hcontrol' =>
        cases hh'
        obtain ⟨rfl, rfl⟩ := HandlingStage.route.inj hstage'
        rw [hcontrol] at hcontrol'
        cases hcontrol'
      | checked hstage hcurrent =>
        cases hh'
        obtain ⟨rfl, rfl⟩ := HandlingStage.route.inj hstage'
        exact ⟨⟨c, hbefore, rfl, hh, hstage⟩, hcurrent⟩
      | load hstage =>
        cases hh'
        rcases hstage with rfl | rfl | rfl <;> cases hstage'
      | routed _ hnext =>
        cases hh'
        rcases hnext with rfl | rfl <;> cases hstage'
      | _ =>
        cases hh'
        cases hstage'
    | send hfree =>
      rw [Connection.handling_beginSend] at hh'
      exact absurd ⟨c, h', hc, hh', hstage'⟩ hn
    | sending hsending =>
      have hhandling := (Connection.later_sending hsending).2
      exact absurd ⟨c, h', hc, hhandling.symm.trans hh', hstage'⟩ hn

/-- **A packet that is being routed, and is no control record, is of a peer
that was vouched for.** -/
theorem vouched_of_routes {events : List NodeEvent}
    (hrun : runs (Node.step host) initial events = some n) {session : ℕ} {c : Connection}
    {h : Handling} {pkt : Packet} {peer : AuthorizedPeer} (hc : n.connection session = some c)
    (hh : c.handling = some h) (hstage : h.stage = .route pkt peer)
    (hcontrol : pkt.isControlRecord = false) : Vouched host events session h.payload peer := by
  have hdisciplined : ∀ {es : List NodeEvent} {m : Node},
      runs (Node.step host) initial es = some m → m.Disciplined :=
    fun h => (supervised_of_runs h).disciplined
  -- the last time the worker came to this record, it was received
  obtain ⟨before, d, rest, u, v, rfl, hu, hv, hrest, hnot, hat, halong⟩ :=
    runs_last_change (P := AtRecord session h.payload) hrun (by rintro ⟨_, _, h, -⟩; cases h)
      ⟨c, h, hc, hh, rfl⟩
  obtain ⟨rfl, c₁, hc₁, hh₁⟩ := receive_of_atRecord (hdisciplined hu) hv hnot hat
  -- and the last time since then that its packet came to be routed, it was checked
  obtain ⟨between, d, after, w, x, rfl, hw, hx, -, hnot', hroutes, -⟩ :=
    runs_last_change (P := Routes session pkt peer) hrest (by
      rintro ⟨c₂, h₂, hc₂, hh₂, hstage₂⟩
      rw [hc₁] at hc₂
      cases hc₂
      rw [hh₁] at hh₂
      cases hh₂
      cases hstage₂) ⟨c, h, hc, hh, hstage⟩
  have hv' : runs (Node.step host) initial (before ++ [.receive session h.payload]) = some v :=
    runs_concat.mpr ⟨u, hu, hv⟩
  have hw' : runs (Node.step host) initial
      ((before ++ [.receive session h.payload]) ++ between) = some w :=
    runs_append_iff.mpr ⟨v, hv', hw⟩
  obtain ⟨late, fails, rfl, ⟨c₂, h₂, hc₂, hh₂, hstage₂⟩, hcurrent⟩ :=
    check_of_routes (hdisciplined hw') hx hcontrol hnot' hroutes
  exact ⟨before, between, after, late, fails, u, v, w, rfl, hu, hv, hw,
    ⟨c₂, h₂, pkt, hc₂, hh₂, hstage₂⟩, hcurrent, halong⟩

/-! ## Records that were not admitted -/

/-- **No hello will be accepted any more**: the session was stopping before
the worker came to its record, or has accepted one. -/
def Deaf (session : ℕ) (n : Node) : Prop :=
  ∃ c, n.connection session = some c
    ∧ ((c.stopping = true ∧ ∀ h, c.handling = some h → h.stage = .loadStopping)
      ∨ (c.peerHelloReceived = true ∧ ∀ h, c.handling = some h → h.stage ≠ .greeted))

theorem Deaf.step {session : ℕ} (hn : n.Deaf session) (hdisciplined : n.Disciplined)
    (h : n.step host e = some n') : n'.Deaf session := by
  obtain ⟨c, hc, hdeaf⟩ := hn
  obtain ⟨c', hc', hwork⟩ := work_of_step hdisciplined h hc
  refine ⟨c', hc', ?_⟩
  -- the worker is at the same record, at the same stage
  have hkept : c.Later c' → c'.handling = c.handling →
      (c'.stopping = true ∧ ∀ h, c'.handling = some h → h.stage = .loadStopping)
        ∨ (c'.peerHelloReceived = true ∧ ∀ h, c'.handling = some h → h.stage ≠ .greeted) := by
    intro hlater hhandling
    rw [hhandling]
    exact hdeaf.imp (fun hd => ⟨hlater.stopping hd.1, hd.2⟩) (fun hd => ⟨hlater.hello hd.1, hd.2⟩)
  cases hwork with
  | other hsame => exact hkept hsame.toLater hsame.handling
  | receive hnone =>
    refine hdeaf.imp (fun hd => ⟨hd.1, ?_⟩) (fun hd => ⟨hd.1, ?_⟩)
    · rintro _ ⟨⟩
      rfl
    · rintro _ ⟨⟩ hstage
      cases hstage
  | @handle late fails hbefore _ hh hperform =>
    have hlater := Connection.later_perform hperform
    have hhandling := Connection.handling_perform hperform
    have hbranch := hbefore.branch host c late
      (SessionAuthentication.authorizationIsCurrent n.database fails)
    rcases hdeaf with ⟨hstopping, hstage⟩ | ⟨hhello, hstage⟩
    · -- the record is at its first stage, and `handle_record` returns
      refine .inl ⟨hlater.stopping hstopping, fun h' hh' => ?_⟩
      have hfirst := hstage hbefore hh
      have hreturns : hbefore.step host c late
          (SessionAuthentication.authorizationIsCurrent n.database fails) = (.returns, hbefore) := by
        unfold Handling.step
        simp only [hfirst, hstopping, if_true]
      rw [hhandling, hreturns] at hh'
      cases hh'
    · refine .inr ⟨hlater.hello hhello, fun h' hh' hgreeted => ?_⟩
      rw [hhandling] at hh'
      generalize hbefore.step host c late
        (SessionAuthentication.authorizationIsCurrent n.database fails) = x at hh' hbranch
      cases hbranch with
      | returns => cases hh'
      | greet _ _ hfirst =>
        rw [hhello] at hfirst
        cases hfirst
      | load hs =>
        cases hh'
        rcases hs with rfl | rfl | rfl <;> cases hgreeted
      | routed _ hs =>
        cases hh'
        rcases hs with rfl | rfl <;> cases hgreeted
      | _ =>
        cases hh'
        cases hgreeted
  | send hfree => exact hkept (Connection.later_beginSend _) (Connection.handling_beginSend _)
  | sending hsending =>
    obtain ⟨hlater, hhandling⟩ := Connection.later_sending hsending
    exact hkept hlater hhandling

theorem Deaf.runs {session : ℕ} (hn : n.Deaf session) (hdisciplined : n.Disciplined)
    {events : List NodeEvent} (h : runs (Node.step host) n events = some n') :
    n'.Deaf session := by
  have hboth : n'.Disciplined ∧ n'.Deaf session :=
    runs_invariant (I := fun m => m.Disciplined ∧ m.Deaf session)
      (fun _ _ _ hm hstep => ⟨hm.1.effect (step_effect hstep), hm.2.step hm.1 hstep⟩) h
      ⟨hdisciplined, hn⟩
  exact hboth.2

/-- **What becomes of a record that was not admitted**: the session is
stopped, or its hello was accepted. -/
theorem refused_record (hn : n.Attentive host) {session : ℕ} {h : Handling}
    (hhandled : n.handled host e = some (session, h, .returns))
    (hobserved : h.observed = some false) :
    ∃ c, n.connection session = some c ∧ c.handling = some h
      ∧ ((h.stage = .stopped ∧ c.stopping = true)
        ∨ (h.stage = .greeted ∧ c.peerHelloReceived = true
          ∧ ∃ pkt, parsePacket host.parse h.payload = .ok pkt ∧ pkt.type = ascii "hello")) := by
  obtain ⟨late, fails, c, rfl, hc, hh, haction⟩ := handled_eq_some hhandled
  have hattends := hn session c h hc hh
  refine ⟨c, hc, hh, ?_⟩
  have hbranch := h.branch host c late
    (SessionAuthentication.authorizationIsCurrent n.database fails)
  generalize h.step host c late
    (SessionAuthentication.authorizationIsCurrent n.database fails) = x at haction hbranch
  cases hbranch with
  | returns hstage =>
    rcases hstage with hstage | hstage | hstage | hstage
    · rw [hattends.begun hstage] at hobserved
      cases hobserved
    · exact .inl ⟨hstage, hattends.stopped hstage⟩
    · exact .inr ⟨hstage, hattends.greeted hstage⟩
    · rw [hattends.admitted (.inr (.inr hstage))] at hobserved
      cases hobserved
  | _ => cases haction

/-- Behind such a record no hello will be accepted. -/
theorem deaf_of_refused (hn : n.Attentive host) (hstep : n.step host e = some n') {session : ℕ}
    {h : Handling} (hhandled : n.handled host e = some (session, h, .returns))
    (hobserved : h.observed = some false) : n'.Deaf session := by
  obtain ⟨c, hc, hh, hcases⟩ := refused_record hn hhandled hobserved
  obtain ⟨next, d, hd, -, hperform⟩ := perform_of_handled hstep hhandled
  obtain rfl := Option.some.inj (hc.symm.trans hd)
  obtain ⟨c', hc', rfl⟩ := Option.map_eq_some_iff.mp hperform
  have hnone : c'.handling = none := Connection.handling_perform hc'
  have hlater := Connection.later_perform hc'
  refine ⟨c', ?_, hcases.imp (fun h => ⟨hlater.stopping h.2, ?_⟩)
    (fun h => ⟨hlater.hello h.2.1, ?_⟩)⟩
  · show (n.setConnection session c').connection session = some c'
    rw [setConnection_connection, if_pos rfl]
  · rw [hnone]
    rintro _ ⟨⟩
  · rw [hnone]
    rintro _ ⟨⟩

/-! ## What the rest of the process sees -/

/-- `handle_record` leaves the registry, the live map and every `ready_`
alone, and the event bus too unless it emits. -/
theorem frame_of_handled (hstep : n.step host e = some n') {session : ℕ} {h : Handling}
    {action : HandlingAction} (hhandled : n.handled host e = some (session, h, action)) :
    n'.registry = n.registry ∧ n'.live = n.live
      ∧ (∀ id, (n'.connection id).map Connection.ready = (n.connection id).map Connection.ready)
      ∧ ((∀ event, action ≠ .emit event) → n'.events = n.events) := by
  obtain ⟨next, c, hc, -, hperform⟩ := perform_of_handled hstep hhandled
  obtain ⟨c', hc', rfl⟩ := Option.map_eq_some_iff.mp hperform
  refine ⟨rfl, rfl, fun id => ?_, fun hne => ?_⟩
  · show ((n.setConnection session c').connection id).map Connection.ready = _
    rw [setConnection_connection]
    split
    · subst id
      rw [hc]
      exact congrArg some (Connection.perform_touches hc').ready
    · rfl
  · cases action with
    | emit event => exact absurd rfl (hne event)
    | _ => rfl

theorem events_advance {c : Connection} {call : Call} {late fails : Bool}
    (h : n.advance host c call late fails = some n') : n'.events = n.events := by
  rcases advance_cases h with rfl | ⟨-, -, -, -, -, -, rfl⟩ | ⟨-, -, -, rfl⟩ | ⟨-, -, -, -, rfl⟩
  · rfl
  · rfl
  · rfl
  · rfl

theorem events_activate (n : Node) (c : Connection) (session : ℕ) (a : Activation) (fails : Bool) :
    (n.activate host c session a fails).events = n.events := by
  obtain ⟨c', live, forceScan, registry, replacing, -, heq⟩ := activate_eq host n c session a fails
  rw [heq]
  rfl

/-- **The event bus changes where a message is emitted**, or where it is
emptied. -/
theorem events_of_step (h : n.step host e = some n') :
    n'.events = n.events ∨ e = .consumeEvents
      ∨ ∃ session handling event, n.handled host e = some (session, handling, .emit event)
        ∧ n'.events = EventBus.emitMessage n.events event := by
  have hdisconnect : ∀ {session : ℕ} {m : Node}, n.disconnect session = some m →
      m.events = n.events := by
    intro session m hm
    rcases disconnect_cases hm with ⟨rfl, -⟩ | ⟨d, d', -, -, rfl⟩
    · rfl
    · rfl
  cases happens h with
  | @handle session late fails c handling m hc hh h =>
    obtain ⟨c', hc', rfl⟩ := Option.map_eq_some_iff.mp h
    match haction : (handling.step host c late
        (SessionAuthentication.authorizationIsCurrent n.database fails)).1 with
    | .emit event =>
      refine .inr (.inr ⟨session, handling, event, ?_, ?_⟩)
      · simp only [handled, hc, hh, Option.bind_some, Option.map_some, haction]
      · simp only
    | .nothing | .acceptHello | .requestDisconnect | .sendPong | .returns =>
      exact .inl rfl
  | consumeEvents => exact .inr (.inl rfl)
  | advance hd hcall h => exact .inl (events_advance h)
  | activate hd ha => exact .inl (events_activate _ _ _ _ _)
  | @replace r m hr hm => exact .inl (show m.events = n.events from hdisconnect hm)
  | monitor h =>
    rcases runMonitor_cases h with ⟨-, monitor, forceScan, lastToken, rfl⟩ |
      ⟨entry, todo, -, rfl⟩ | ⟨other, todo, m, -, hm, rfl⟩
    · exact .inl rfl
    · exact .inl rfl
    · exact .inl (show m.events = n.events from hdisconnect hm)
  | cleanup hd hm =>
    rcases cleanup_cases hm with ⟨-, -, -, rfl⟩ | ⟨-, rfl⟩ | ⟨-, rfl⟩ | ⟨-, rfl⟩ <;> exact .inl rfl
  | _ => exact .inl rfl

/-! ## Where a call of `send_packet` and its check are in a run -/

/-- A call of `send_packet` has the lock of the session. -/
def Sends (session : ℕ) (packet : Json) (n : Node) : Prop :=
  ∃ c, n.connection session = some c
    ∧ (c.writer = .checking packet ∨ c.writer = .writing packet)

/-- It is about to write. -/
def Writes (session : ℕ) (packet : Json) (n : Node) : Prop :=
  ∃ c, n.connection session = some c ∧ c.writer = .writing packet

/-- **The packet is cleared**: `send_packet` was called,
`authorization_is_current` then returned true for the peer of the session,
and this call had the lock throughout. -/
def Cleared (host : Host) (events : List NodeEvent) (session : ℕ) (packet : Json) : Prop :=
  ∃ (before between after : List NodeEvent) (fails : Bool) (outcome : SendOutcome) (u v w : Node),
    events = before ++ .send session packet :: (between ++ .sending session fails outcome :: after)
    ∧ runs (Node.step host) initial before = some u
    ∧ u.step host (.send session packet) = some v
    ∧ runs (Node.step host) v between = some w
    ∧ (∃ c peer, w.connection session = some c ∧ c.writer = .checking packet
      ∧ c.authorizedPeer = some peer
      ∧ SessionAuthentication.authorizationIsCurrent w.database fails peer = true)
    ∧ Along (Node.step host) (Sends session packet) v
      (between ++ .sending session fails outcome :: after)

/-- The lock is taken for a packet that is no control record when
`send_packet` is called. -/
theorem send_of_sends (hdisciplined : n.Disciplined) (h : n.step host e = some n') {session : ℕ}
    {packet : Json} (hcontrol : packet.isControlRecord = false) (hn : ¬ Sends session packet n)
    (hn' : Sends session packet n') :
    e = .send session packet
      ∧ ∃ c, n'.connection session = some c ∧ c.writer = .checking packet := by
  obtain ⟨c', hc', hw'⟩ := hn'
  cases hc : n.connection session with
  | none =>
    obtain ⟨outgoing, rfl⟩ := create_of_step h hc hc'
    rcases hw' with hw' | hw' <;> cases hw'
  | some c =>
    obtain ⟨d, hd, hwork⟩ := work_of_step hdisciplined h hc
    obtain rfl := Option.some.inj (hc'.symm.trans hd)
    have hkept : c'.writer ≠ c.writer := fun heq => hn ⟨c, hc, heq ▸ hw'⟩
    cases hwork with
    | other hsame =>
      rcases hsame.writer with heq | ⟨-, hidle⟩
      · exact absurd heq hkept
      · rcases hw' with hw' | hw' <;> rw [hw'] at hidle <;> cases hidle
    | receive hnone => exact absurd rfl hkept
    | handle hh hperform =>
      rcases (Connection.sends_perform hperform).2 with heq | ⟨other, hother, heq⟩
      · exact absurd heq hkept
      · rw [heq] at hw'
        rcases hw' with hw' | hw'
        · cases hw'
        · cases hw'
          rw [hcontrol] at hother
          cases hother
    | send hfree =>
      rcases c.beginSend_cases _ with heq | ⟨hother, heq⟩ | heq
      · exact absurd (congrArg Connection.writer heq) hkept
      · rw [heq] at hw'
        rcases hw' with hw' | hw'
        · cases hw'
        · cases hw'
          rw [hcontrol] at hother
          cases hother
      · rw [heq] at hw'
        rcases hw' with hw' | hw'
        · cases hw'
          exact ⟨rfl, _, hc', congrArg Connection.writer heq⟩
        · cases hw'
    | sending hsending =>
      rcases Connection.sending_cases hsending with ⟨other, hother, -, heq | ⟨heq, -⟩⟩ |
        ⟨other, -, heq, -⟩
      · rw [heq] at hw'
        rcases hw' with hw' | hw' <;> cases hw'
      · rw [heq] at hw'
        rcases hw' with hw' | hw'
        · cases hw'
        · cases hw'
          exact absurd ⟨c, hc, .inl hother⟩ hn
      · rw [heq] at hw'
        rcases hw' with hw' | hw' <;> cases hw'

theorem check_of_writes (hdisciplined : n.Disciplined) (h : n.step host e = some n') {session : ℕ}
    {packet : Json} (hcontrol : packet.isControlRecord = false) (hn : ¬ Writes session packet n)
    (hn' : Writes session packet n') :
    ∃ fails outcome, e = .sending session fails outcome
      ∧ ∃ c peer, n.connection session = some c ∧ c.writer = .checking packet
        ∧ c.authorizedPeer = some peer
        ∧ SessionAuthentication.authorizationIsCurrent n.database fails peer = true := by
  obtain ⟨c', hc', hw'⟩ := hn'
  cases hc : n.connection session with
  | none =>
    obtain ⟨outgoing, rfl⟩ := create_of_step h hc hc'
    cases hw'
  | some c =>
    obtain ⟨d, hd, hwork⟩ := work_of_step hdisciplined h hc
    obtain rfl := Option.some.inj (hc'.symm.trans hd)
    have hkept : c'.writer ≠ c.writer := fun heq => hn ⟨c, hc, heq ▸ hw'⟩
    cases hwork with
    | other hsame =>
      rcases hsame.writer with heq | ⟨-, hidle⟩
      · exact absurd heq hkept
      · rw [hw'] at hidle
        cases hidle
    | receive hnone => exact absurd rfl hkept
    | handle hh hperform =>
      rcases (Connection.sends_perform hperform).2 with heq | ⟨other, hother, heq⟩
      · exact absurd heq hkept
      · cases heq.symm.trans hw'
        rw [hcontrol] at hother
        cases hother
    | send hfree =>
      rcases c.beginSend_cases _ with heq | ⟨hother, heq⟩ | heq
      · exact absurd (congrArg Connection.writer heq) hkept
      · rw [heq] at hw'
        cases hw'
        rw [hcontrol] at hother
        cases hother
      · rw [heq] at hw'
        cases hw'
    | sending hsending =>
      rcases Connection.sending_cases hsending with
        ⟨other, hother, -, heq | ⟨heq, peer, hpeer, hcurrent⟩⟩ | ⟨other, -, heq, -⟩
      · cases heq.symm.trans hw'
      · cases heq.symm.trans hw'
        exact ⟨_, _, rfl, c, peer, rfl, hother, hpeer, hcurrent⟩
      · cases heq.symm.trans hw'

/-- **A packet that is about to be written, and is no control record, was
cleared.** -/
theorem cleared_of_writes {events : List NodeEvent}
    (hrun : runs (Node.step host) initial events = some n) {session : ℕ} {packet : Json}
    (hwrites : Writes session packet n) (hcontrol : packet.isControlRecord = false) :
    Cleared host events session packet := by
  have hdisciplined : ∀ {es : List NodeEvent} {m : Node},
      runs (Node.step host) initial es = some m → m.Disciplined :=
    fun h => (supervised_of_runs h).disciplined
  obtain ⟨c, hc, hw⟩ := hwrites
  -- the call has had the lock since it began
  obtain ⟨before, d, rest, u, v, rfl, hu, hv, hrest, hnot, hat, halong⟩ :=
    runs_last_change (P := Sends session packet) hrun (by rintro ⟨_, h, -⟩; cases h)
      ⟨c, hc, .inr hw⟩
  obtain ⟨rfl, c₁, hc₁, hw₁⟩ := send_of_sends (hdisciplined hu) hv hcontrol hnot hat
  -- and went on to write behind the check
  obtain ⟨between, d, after, w, x, rfl, hw, hx, -, hnot', hwrites, -⟩ :=
    runs_last_change (P := Writes session packet) hrest (by
      rintro ⟨c₂, hc₂, hw₂⟩
      rw [hc₁] at hc₂
      cases hc₂
      cases hw₁.symm.trans hw₂) ⟨c, hc, hw⟩
  have hv' : runs (Node.step host) initial (before ++ [.send session packet]) = some v :=
    runs_concat.mpr ⟨u, hu, hv⟩
  have hw' : runs (Node.step host) initial
      ((before ++ [.send session packet]) ++ between) = some w :=
    runs_append_iff.mpr ⟨v, hv', hw⟩
  obtain ⟨fails, outcome, rfl, c₂, peer, hc₂, hw₂, hpeer, hcurrent⟩ :=
    check_of_writes (hdisciplined hw') hx hcontrol hnot' hwrites
  exact ⟨before, between, after, fails, outcome, u, v, w, rfl, hu, hv, hw,
    ⟨c₂, peer, hc₂, hw₂, hpeer, hcurrent⟩, halong⟩

/-- What was written is a packet that was about to be. -/
theorem written_of_step (hdisciplined : n.Disciplined) (h : n.step host e = some n')
    {session : ℕ} {c c' : Connection} (hc : n.connection session = some c)
    (hc' : n'.connection session = some c') :
    c'.written = c.written
      ∨ ∃ packet, c.writer = .writing packet ∧ c'.written = c.written ++ [packet] := by
  obtain ⟨d, hd, hwork⟩ := work_of_step hdisciplined h hc
  obtain rfl := Option.some.inj (hc'.symm.trans hd)
  cases hwork with
  | other hsame => exact .inl hsame.written
  | receive hnone => exact .inl rfl
  | handle hh hperform => exact .inl (Connection.sends_perform hperform).1
  | send hfree =>
    rcases c.beginSend_cases _ with heq | ⟨-, heq⟩ | heq <;> exact .inl (by rw [heq])
  | sending hsending =>
    rcases Connection.sending_cases hsending with ⟨-, -, heq, -⟩ | ⟨packet, hw, -, heq | heq⟩
    · exact .inl heq
    · exact .inl heq
    · exact .inr ⟨packet, hw, heq⟩

/-! ## Traffic is gated by authorization -/

/-- **What a step of a run may pass on, change and send.** A record counts as
not admitted where `ready_` was false when `handle_record` last loaded
it. -/
structure Gated (host : Host) (events : List NodeEvent) (n : Node) (e : NodeEvent) (n' : Node) :
    Prop where
  /-- A message is emitted for a session that is ready, in the name of its
  peer, which was vouched for behind the arrival of the record. -/
  emits : ∀ session h event, n.handled host e = some (session, h, .emit event) →
    ∃ c peer pkt, n.connection session = some c ∧ c.ready = true ∧ c.authorizedPeer = some peer
      ∧ event.deviceId = trustUuidToString peer.uuid
      ∧ parsePacket host.parse h.payload = .ok pkt
      ∧ pkt.payload.find (ascii "text") = some (.string event.text)
      ∧ Vouched host events session h.payload peer
  /-- Nothing else adds to the event bus. -/
  bus : n'.events = n.events ∨ e = .consumeEvents
    ∨ ∃ session h event, n.handled host e = some (session, h, .emit event)
      ∧ n'.events = EventBus.emitMessage n.events event
  /-- Records change neither the registry nor the live map nor any `ready_`,
  and those that were not admitted do not change the event bus. -/
  frame : ∀ session h action, n.handled host e = some (session, h, action) →
    n'.registry = n.registry ∧ n'.live = n.live
      ∧ (∀ id, (n'.connection id).map Connection.ready = (n.connection id).map Connection.ready)
      ∧ (h.observed ≠ some true → n'.events = n.events)
  /-- A record that was not admitted has stopped the session when it is
  done, unless it is a hello and the first of these records. -/
  refuses : ∀ session h, n.handled host e = some (session, h, .returns) →
    h.observed = some false →
    (n'.connection session).any Connection.stopping = true
      ∨ ((∃ pkt, parsePacket host.parse h.payload = .ok pkt ∧ pkt.type = ascii "hello")
        ∧ ∀ before d after m h', events = before ++ d :: after →
          runs (Node.step host) initial before = some m →
          m.handled host d = some (session, h', .returns) → h'.observed ≠ some false)
  /-- A packet that `send_packet` writes is a control record or was
  cleared. -/
  sends : ∀ session c c', n.connection session = some c → n'.connection session = some c' →
    c'.written = c.written
      ∨ ∃ packet, c'.written = c.written ++ [packet]
        ∧ (packet.isControlRecord = true ∨ Cleared host events session packet)

/-- A message is emitted where its packet is routed. -/
theorem route_of_emit (hn : n.Attentive host) {session : ℕ} {h : Handling} {event : MessageEvent}
    (hhandled : n.handled host e = some (session, h, .emit event)) :
    ∃ c pkt peer, n.connection session = some c ∧ c.handling = some h
      ∧ h.stage = .route pkt peer ∧ h.observed = some true ∧ c.Attends host h
      ∧ PacketRouter.route pkt (some peer) = .emit event.deviceId event.text := by
  obtain ⟨late, fails, c, rfl, hc, hh, haction⟩ := handled_eq_some hhandled
  have hattends := hn session c h hc hh
  have hbranch := h.branch host c late
    (SessionAuthentication.authorizationIsCurrent n.database fails)
  generalize h.step host c late
    (SessionAuthentication.authorizationIsCurrent n.database fails) = x at haction hbranch
  cases hbranch with
  | emit hstage hroute =>
    cases haction
    exact ⟨c, _, _, hc, hh, hstage, (hattends.peer _ _ (.inr hstage)).1, hattends, hroute⟩
  | _ => cases haction

/-- Emissions are of peers that were vouched for. -/
theorem emits_of_runs {events : List NodeEvent}
    (hrun : runs (Node.step host) initial events = some n) {session : ℕ} {h : Handling}
    {event : MessageEvent} (hhandled : n.handled host e = some (session, h, .emit event)) :
    ∃ c peer pkt, n.connection session = some c ∧ c.ready = true ∧ c.authorizedPeer = some peer
      ∧ event.deviceId = trustUuidToString peer.uuid
      ∧ parsePacket host.parse h.payload = .ok pkt
      ∧ pkt.payload.find (ascii "text") = some (.string event.text)
      ∧ Vouched host events session h.payload peer := by
  obtain ⟨c, pkt, peer, hc, hh, hstage, hobserved, hattends, hroute⟩ :=
    route_of_emit (attentive_of_runs hrun) hhandled
  obtain ⟨peer', hpeer', hdevice, htype, htext⟩ := PacketRouter.route_emit hroute
  obtain rfl := Option.some.inj hpeer'
  have hcontrol : pkt.isControlRecord = false := by
    rw [Packet.isControlRecord, htype]
    exact isControlType_message
  exact ⟨c, peer, pkt, hc, hattends.ready hobserved, (hattends.peer pkt peer (.inr hstage)).2,
    hdevice.trans peer.named, hattends.parsed pkt (.inr (.inr (.inr (.inr ⟨peer, hstage⟩)))), htext,
    vouched_of_routes hrun hc hh hstage hcontrol⟩

/-- A hello that does not stop the session is the first record that was not
admitted. -/
theorem refuses_of_runs {events : List NodeEvent}
    (hrun : runs (Node.step host) initial events = some n) (hstep : n.step host e = some n')
    {session : ℕ} {h : Handling} (hhandled : n.handled host e = some (session, h, .returns))
    (hobserved : h.observed = some false) :
    (n'.connection session).any Connection.stopping = true
      ∨ ((∃ pkt, parsePacket host.parse h.payload = .ok pkt ∧ pkt.type = ascii "hello")
        ∧ ∀ before d after m h', events = before ++ d :: after →
          runs (Node.step host) initial before = some m →
          m.handled host d = some (session, h', .returns) → h'.observed ≠ some false) := by
  obtain ⟨c, hc, hh, hcases⟩ := refused_record (attentive_of_runs hrun) hhandled hobserved
  rcases hcases with ⟨-, hstopping⟩ | ⟨hstage, -, hhello⟩
  · left
    obtain ⟨next, d, hd, -, hperform⟩ := perform_of_handled hstep hhandled
    obtain rfl := Option.some.inj (hc.symm.trans hd)
    obtain ⟨c', hc', rfl⟩ := Option.map_eq_some_iff.mp hperform
    show ((n.setConnection session c').connection session).any Connection.stopping = true
    rw [setConnection_connection, if_pos rfl]
    exact (Connection.later_perform hc').stopping hstopping
  · refine .inr ⟨hhello, fun before d after m h' hevents hm hhandled' hobserved' => ?_⟩
    subst hevents
    obtain ⟨m₁, hm₁, hrest⟩ := runs_append_iff.mp hrun
    obtain rfl := Option.some.inj (hm.symm.trans hm₁)
    obtain ⟨v, hv, hafter⟩ := runs_cons.mp hrest
    -- behind the earlier record no hello is accepted, but this one was
    have hdeaf : v.Deaf session := deaf_of_refused (attentive_of_runs hm) hv hhandled' hobserved'
    have hdisciplined : v.Disciplined :=
      (supervised_of_runs (runs_concat.mpr ⟨m, hm, hv⟩)).disciplined
    obtain ⟨c₁, hc₁, hdeaf⟩ := hdeaf.runs hdisciplined hafter
    obtain rfl := Option.some.inj (hc.symm.trans hc₁)
    rcases hdeaf with ⟨-, hfirst⟩ | ⟨-, hne⟩
    · cases hstage.symm.trans (hfirst h hh)
    · exact hne h hh hstage

/-- **Application traffic is gated by authorization.** In every run, with
records, activations, trust changes and invalidations at any moment, every
step keeps to `Gated`. -/
theorem traffic_gated {events : List NodeEvent}
    (hrun : runs (Node.step host) initial events = some n) (hstep : n.step host e = some n') :
    Gated host events n e n' where
  emits _ _ _ hhandled := emits_of_runs hrun hhandled
  bus := events_of_step hstep
  frame session h action hhandled := by
    obtain ⟨hregistry, hlive, hready, hevents⟩ := frame_of_handled hstep hhandled
    refine ⟨hregistry, hlive, hready, fun hobserved => hevents ?_⟩
    rintro event rfl
    obtain ⟨-, -, -, -, -, -, htrue, -⟩ := route_of_emit (attentive_of_runs hrun) hhandled
    exact hobserved htrue
  refuses _ _ hhandled hobserved := refuses_of_runs hrun hstep hhandled hobserved
  sends session c c' hc hc' := by
    rcases written_of_step (supervised_of_runs hrun).disciplined hstep hc hc' with heq |
      ⟨packet, hw, heq⟩
    · exact .inl heq
    · refine .inr ⟨packet, heq, ?_⟩
      cases hcontrol : packet.isControlRecord with
      | true => exact .inl rfl
      | false => exact .inr (cleared_of_writes hrun ⟨c, hc, hw⟩ hcontrol)

/-! ## A message of an authorized peer -/

/-- The record of a message. What it says of its sender does not count. -/
def sampleRecord : Bytes :=
  ascii "\x7b\"type\":\"message\",\"device_id\":\"me\",\"payload\":\x7b\"text\":\"hi\"\x7d\x7d"

/-- A host that parses the record. -/
def messageHost : Host where
  myDeviceId := sampleHost.myDeviceId
  parse := fun data =>
    if data = sampleRecord then
      .ok (.object [(ascii "device_id", .string (ascii "me")),
        (ascii "payload", .object [(ascii "text", .string (ascii "hi"))]),
        (ascii "type", .string (ascii "message"))])
    else .error "no JSON"

/-- A session is activated, and the record is received and checked. -/
def messageChecked : List NodeEvent :=
  [.store ⟨1, .importDeviceForAdmin TrustStores.sampleDevice, true⟩, .create true]
    ++ activation 1 ++ [.receive 1 sampleRecord] ++ List.replicate 7 (.handle 1 false false)

/-- A run in which a message is emitted. -/
theorem traffic_gated_message :
    ∃ (n n' : Node) (h : Handling) (peer : AuthorizedPeer),
      runs (Node.step messageHost) initial messageChecked = some n
      ∧ n.step messageHost (.handle 1 false false) = some n'
      ∧ n.handled messageHost (.handle 1 false false)
        = some (1, h, .emit ⟨trustUuidToString peer.uuid, ascii "hi"⟩)
      ∧ Vouched messageHost messageChecked 1 h.payload peer := by
  obtain ⟨n, hrun, hn⟩ : ∃ n, runs (Node.step messageHost) initial messageChecked = some n
      ∧ ((n.handled messageHost (.handle 1 false false)).map (fun x => (x.1, x.2.2)),
          (n.step messageHost (.handle 1 false false)).isSome)
        = (some (1, .emit ⟨trustUuidToString TrustStores.sampleUuid, ascii "hi"⟩), true) :=
    Option.map_eq_some_iff.mp (by decide +kernel)
  obtain ⟨hhandled, hstep⟩ := Prod.mk.inj hn
  obtain ⟨⟨session, h, action⟩, hhandled, heq⟩ := Option.map_eq_some_iff.mp hhandled
  obtain ⟨rfl, rfl⟩ := Prod.mk.inj heq
  obtain ⟨n', hstep⟩ := Option.isSome_iff_exists.mp hstep
  obtain ⟨c, peer, pkt, -, -, -, hdevice, -, -, hvouched⟩ :=
    (traffic_gated hrun hstep).emits 1 h _ hhandled
  exact ⟨n, n', h, peer, hrun, hstep, hdevice ▸ hhandled, hvouched⟩

end Node

end Gasoline
