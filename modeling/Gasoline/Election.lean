import Gasoline.Ownership

/-!
# The session that is favoured

Where a process has sessions of one peer only, and the device of exactly one
of them has `preferred_connection` set, that session wins: the registry never
keeps an incumbent against it, and never gives it up for another. This is an
invariant (`Node.Favours`) of the steps of activations, of the disconnects
that they bring about, of cleanups and of the monitor, as long as no deadline
passes, the store answers, and nobody else disconnects the session
(`NodeEvent.Peaceful`).
-/

namespace Gasoline

namespace DeviceRegistry

variable {holds : ℕ → Bool} {published : Device} {devices devices' : List Device}

/-- An entry that is replaced is not held, or gives way to a preferred one. -/
theorem replaced_of_arbitrate {existing : Device}
    (h : arbitrate holds published devices = some (devices', some existing)) :
    existing ∈ devices ∧ (holds existing.sessionId = true →
      existing.preferredConnection = false ∧ published.preferredConnection = true) := by
  induction devices generalizing devices' with
  | nil => cases h
  | cons d rest ih =>
    simp only [arbitrate] at h
    split at h
    · obtain ⟨⟨tail, replaced⟩, htail, heq⟩ := Option.map_eq_some_iff.mp h
      obtain ⟨rfl, rfl⟩ := Prod.mk.inj heq
      exact ⟨List.mem_cons_of_mem _ (ih htail).1, (ih htail).2⟩
    · split at h
      · cases h
      · rename_i hguard
        cases h
        refine ⟨List.mem_cons_self, fun hheld => ?_⟩
        simpa [hheld] using hguard

/-- An incumbent that is kept is held, and is preferred unless the other is
not. -/
theorem kept_of_arbitrate (h : arbitrate holds published devices = none) :
    ∃ existing ∈ devices, holds existing.sessionId = true
      ∧ (published.preferredConnection = true → existing.preferredConnection = true) := by
  induction devices with
  | nil => cases h
  | cons d rest ih =>
    simp only [arbitrate] at h
    split at h
    · obtain ⟨existing, hmem, hexisting⟩ := ih (Option.map_eq_none_iff.mp h)
      exact ⟨existing, List.mem_cons_of_mem _ hmem, hexisting⟩
    · split at h
      · rename_i hguard
        rw [Bool.and_eq_true] at hguard
        refine ⟨d, List.mem_cons_self, hguard.1, fun hpublished => ?_⟩
        simpa [hpublished] using hguard.2
      · cases h

end DeviceRegistry

/-! ## Steps that bring no other disconnect -/

/-- The call is about the peer. -/
def CallStage.Concerns (w : AuthorizedPeer) : CallStage → Prop
  | .identified identity => identity = ⟨w.uuid, w.publicKey⟩
  | .authorized peer => peer = w
  | .entered peer => peer = w

/-- Everything the monitor is about to check is the peer's. -/
def Monitor.Concerns (w : AuthorizedPeer) : Monitor → Prop
  | .scanning todo => ∀ entry ∈ todo, entry.2 = w.live
  | .stale _ _ => False
  | .invoking _ _ => False
  | _ => True

/-- **Events of activations of the peer's sessions, and of the disconnects
they bring about.** No deadline passes, the store answers, and nobody else
disconnects the session `p`. -/
def NodeEvent.Peaceful (w : AuthorizedPeer) (p : ℕ) : NodeEvent → Prop
  | .authenticate _ identity _ _ late => identity = ⟨w.uuid, w.publicKey⟩ ∧ late = false
  | .advance _ late fails => late = false ∧ fails = false
  | .activate _ fails => fails = false
  | .replace _ => True
  | .monitor fails => fails = false
  | .requestDisconnect session => session ≠ p
  | .cleanup _ => True
  | _ => False

/-! ## The invariant -/

/-- **What holds of every session.** Its device is preferred if it is the
session `p`; an activation of it is for the peer and does not replace `p`;
and `p` is neither stopped nor rejected. -/
structure Connection.Fair (host : Host) (w : AuthorizedPeer) (p session : ℕ) (c : Connection) :
    Prop where
  flag : (decide (host.myDeviceId < w.deviceId) == c.outgoing) = decide (session = p)
  kept : session = p → c.stopping = false ∧ c.released = false
  activation : ∀ a, c.writer = .activation a → a.peer = w ∧ a.stage.replaced ≠ some p
    ∧ (session = p → a.stage ≠ .rejected)

namespace Connection

variable {host : Host} {w : AuthorizedPeer} {p : ℕ}

theorem Fair.goto {session : ℕ} {c c' : Connection} (hc : c.Fair host w p session)
    {a : Activation} (ha : c.writer = .activation a) {stage : ActivationStage}
    (hc' : c'.writer = .activation { a with stage := stage }) (hout : c'.outgoing = c.outgoing)
    (hstopping : c'.stopping = c.stopping) (hreleased : c'.released = c.released)
    (hstage : stage.replaced ≠ some p ∧ (session = p → stage ≠ .rejected)) :
    c'.Fair host w p session := by
  refine ⟨by rw [hout]; exact hc.flag, by rw [hstopping, hreleased]; exact hc.kept, ?_⟩
  intro b hb
  rw [hc'] at hb
  cases hb
  exact ⟨(hc.activation a ha).1, hstage⟩

theorem Fair.free {session : ℕ} {c c' : Connection} (hc : c.Fair host w p session)
    (hc' : c'.writer = .free) (hout : c'.outgoing = c.outgoing)
    (hstopping : c'.stopping = c.stopping) (hreleased : c'.released = c.released) :
    c'.Fair host w p session := by
  refine ⟨by rw [hout]; exact hc.flag, by rw [hstopping, hreleased]; exact hc.kept, ?_⟩
  intro b hb
  rw [hc'] at hb
  cases hb

end Connection

namespace Node

variable {host : Host} {w : AuthorizedPeer} {p : ℕ} {n n' m : Node} {e : NodeEvent}

/-- **The session `p` is favoured.** -/
structure Favours (host : Host) (w : AuthorizedPeer) (p : ℕ) (n : Node) : Prop where
  arbitrated : n.Arbitrated
  trusted : TrustStore.findActiveAuthorization n.database w.uuid w.publicKey
    = .ok (some ⟨w.revision, w.permissions⟩)
  running : n.authStopping = false
  present : ∃ c, n.connection p = some c
  fair : ∀ session c, n.connection session = some c → c.Fair host w p session
  calls : ∀ call ∈ n.calls, call.stage.Concerns w
  live : ∀ session a, n.live.lookup session = some a → a = w.live
  /-- The session is registered by no call but the one that makes it ready. -/
  registered : ∀ c, n.connection p = some c → (n.live.lookup p).isSome = true →
    c.ready = true ∨ ∃ a, c.writer = .activation a ∧ isRegistered a.stage = true
  monitor : n.monitor.Concerns w
  registry : ∀ d ∈ n.registry,
    d.deviceId = w.deviceId ∧ d.preferredConnection = decide (d.sessionId = p)
  replacing : ∀ r ∈ n.replacing, r.replaced ≠ p

/-! ## Steps that leave the registry alone -/

/-- **A step that changes one connection.** -/
theorem Favours.set (hn : n.Favours host w p) (hm : m.Arbitrated) {session : ℕ}
    {c' : Connection}
    (hconnection : m.connection = (n.setConnection session c').connection)
    (hstores : m.stores = n.stores) (hrunning : m.authStopping = n.authStopping)
    (hfair : c'.Fair host w p session) (hcalls : ∀ call ∈ m.calls, call.stage.Concerns w)
    (hlive : ∀ other a, m.live.lookup other = some a →
      n.live.lookup other = some a ∨ (other = session ∧ a = w.live))
    (hregistered : session = p → (m.live.lookup p).isSome = true →
      c'.ready = true ∨ ∃ a, c'.writer = .activation a ∧ isRegistered a.stage = true)
    (hmonitor : m.monitor = n.monitor)
    (hregistry : ∀ d ∈ m.registry,
      d.deviceId = w.deviceId ∧ d.preferredConnection = decide (d.sessionId = p))
    (hreplacing : ∀ r ∈ m.replacing, r.replaced ≠ p) : m.Favours host w p where
  arbitrated := hm
  trusted := by
    rw [database, hstores]
    exact hn.trusted
  running := hrunning.trans hn.running
  present := by
    rw [hconnection, setConnection_connection]
    split
    · exact ⟨c', rfl⟩
    · exact hn.present
  fair s d hd := by
    rw [hconnection, setConnection_connection] at hd
    split at hd
    · subst s
      exact Option.some.inj hd ▸ hfair
    · exact hn.fair s d hd
  calls := hcalls
  live s a h := (hlive s a h).elim (hn.live s a) And.right
  registered d hd hsome := by
    rw [hconnection, setConnection_connection] at hd
    split at hd
    · rename_i heq
      exact Option.some.inj hd ▸ hregistered heq.symm hsome
    · rename_i hne
      obtain ⟨a, ha⟩ := Option.isSome_iff_exists.mp hsome
      rcases hlive p a ha with ha | ⟨heq, -⟩
      · exact hn.registered d hd (Option.isSome_iff_exists.mpr ⟨a, ha⟩)
      · exact absurd heq hne
  monitor := hmonitor ▸ hn.monitor
  registry := hregistry
  replacing := hreplacing

theorem Favours.congr (hn : n.Favours host w p) (hm : m.Arbitrated)
    (hconnection : m.connection = n.connection) (hstores : m.stores = n.stores)
    (hrunning : m.authStopping = n.authStopping)
    (hcalls : ∀ call ∈ m.calls, call.stage.Concerns w) (hlive : m.live = n.live)
    (hmonitor : m.monitor.Concerns w) (hregistry : m.registry = n.registry)
    (hreplacing : m.replacing = n.replacing) : m.Favours host w p where
  arbitrated := hm
  trusted := by
    rw [database, hstores]
    exact hn.trusted
  running := hrunning.trans hn.running
  present := by
    rw [hconnection]
    exact hn.present
  fair s d hd := hn.fair s d (hconnection ▸ hd)
  calls := hcalls
  live s a h := hn.live s a (hlive ▸ h)
  registered d hd hsome := hn.registered d (hconnection ▸ hd) (hlive ▸ hsome)
  monitor := hmonitor
  registry d hd := hn.registry d (hregistry ▸ hd)
  replacing r hr := hn.replacing r (hreplacing ▸ hr)

/-- A session that is not `p` is disconnected. -/
theorem Favours.disconnect (hn : n.Favours host w p) {session : ℕ} {c c' : Connection}
    (hne : session ≠ p) (hc : n.connection session = some c) (hc' : c.requestDisconnect = some c')
    (hm : m.Arbitrated) (hconnection : m.connection = (n.setConnection session c').connection)
    (hstores : m.stores = n.stores) (hrunning : m.authStopping = n.authStopping)
    (hcalls : m.calls = n.calls) (hlive : m.live = n.live) (hmonitor : m.monitor = n.monitor)
    (hregistry : m.registry = n.registry) (hreplacing : ∀ r ∈ m.replacing, r ∈ n.replacing) :
    m.Favours host w p := by
  have hfair := hn.fair session c hc
  refine hn.set hm hconnection hstores hrunning ?_ (fun call h => hn.calls call (hcalls ▸ h))
    (fun _ _ h => .inl (hlive ▸ h)) (fun h => absurd h hne) hmonitor
    (fun d hd => hn.registry d (hregistry ▸ hd)) (fun r hr => hn.replacing r (hreplacing r hr))
  unfold Connection.requestDisconnect at hc'
  split at hc'
  · cases hc'
  · cases hc'
    exact ⟨hfair.flag, fun h => absurd h hne, hfair.activation⟩

theorem Favours.cleanup_ne (hn : n.Favours host w p) {session : ℕ} {c : Connection}
    (hc : n.connection session = some c) (h : n.cleanup c session = some m) : session ≠ p := by
  rintro rfl
  have hdisciplined := hn.arbitrated.disciplined.connection session c hc
  have hstopping := ((hn.fair session c hc).kept rfl).1
  have hclean : ∀ stage, c.writer ≠ .cleanup stage := by
    intro stage hw
    rw [hdisciplined.cleaned (hdisciplined.cleanup stage hw)] at hstopping
    cases hstopping
  rcases cleanup_cases h with ⟨-, hs, -⟩ | ⟨hw, -⟩ | ⟨hw, -⟩ | ⟨hw, -⟩
  · rw [hs] at hstopping
    cases hstopping
  · exact hclean _ hw
  · exact hclean _ hw
  · exact hclean _ hw

theorem Favours.cleanup (hn : n.Favours host w p) {session : ℕ} {c : Connection}
    (hc : n.connection session = some c) (h : n.cleanup c session = some m) (hm : m.Arbitrated) :
    m.Favours host w p := by
  have hfair := hn.fair session c hc
  have hne := hn.cleanup_ne hc h
  have hset : ∀ {c' : Connection}, c'.outgoing = c.outgoing → c'.writer.isActivation = false →
      c'.Fair host w p session := by
    intro c' hout hw
    refine ⟨by rw [hout]; exact hfair.flag, fun h => absurd h hne, fun a ha => ?_⟩
    rw [ha] at hw
    cases hw
  rcases cleanup_cases h with ⟨-, -, -, rfl⟩ | ⟨-, rfl⟩ | ⟨-, rfl⟩ | ⟨-, rfl⟩
  · exact hn.set hm rfl rfl rfl (hset rfl rfl) hn.calls (fun _ _ h => .inl h)
      (fun h => absurd h hne) rfl hn.registry hn.replacing
  · exact hn.set hm rfl rfl rfl (hset rfl rfl) hn.calls (fun _ _ h => .inl (lookup_of_erase h).2)
      (fun h => absurd h hne) rfl hn.registry hn.replacing
  · exact hn.set hm rfl rfl rfl (hset rfl rfl) hn.calls (fun _ _ h => .inl h)
      (fun h => absurd h hne) rfl (fun d hd => hn.registry d (List.mem_of_mem_filter hd))
      hn.replacing
  · exact hn.set hm rfl rfl rfl (hset rfl rfl) hn.calls (fun _ _ h => .inl h)
      (fun h => absurd h hne) rfl hn.registry hn.replacing

/-- The monitor finds nothing to disconnect. -/
theorem Favours.monitor_step (hn : n.Favours host w p) (h : n.runMonitor false = some m)
    (hm : m.Arbitrated) : m.Favours host w p := by
  have hmonitor := hn.monitor
  have hmove : ∀ {monitor : Monitor} {forceScan : Bool} {lastToken : Option ChangeToken},
      m = { n with monitor := monitor, forceScan := forceScan, lastToken := lastToken } →
      monitor.Concerns w → m.Favours host w p := by
    rintro monitor forceScan lastToken rfl hconcerns
    exact hn.congr hm rfl rfl rfl hn.calls rfl hconcerns rfl rfl
  have hcurrent : ∀ {live : LiveAuthorization}, live = w.live →
      SessionAuthentication.stored n.database false live.uuid live.publicKey live.revision
        live.permissions = true := by
    rintro _ rfl
    simp [SessionAuthentication.stored, AuthorizedPeer.live, hn.trusted]
  unfold runMonitor at h
  split at h
  · cases h
    exact hmove rfl trivial
  · split at h
    · split at h <;> cases h
      · exact hmove rfl trivial
      · exact hmove rfl trivial
    · cases h
  · split at h
    · cases h
      exact hmove rfl trivial
    · split at h <;> cases h
      · exact hmove rfl trivial
      · exact hmove rfl trivial
  · cases h
    refine hmove rfl (fun entry hentry => hn.live entry.1 entry.2 ?_)
    exact AList.mem_lookup_iff.mpr hentry
  · cases h
    exact hmove rfl trivial
  · rename_i entry todo heq
    rw [heq] at hmonitor
    rw [if_pos (hcurrent (hmonitor entry List.mem_cons_self))] at h
    cases h
    exact hmove rfl (fun other hother => hmonitor other (List.mem_cons_of_mem _ hother))
  · rename_i entry todo heq
    rw [heq] at hmonitor
    exact hmonitor.elim
  · rename_i session todo heq
    rw [heq] at hmonitor
    exact hmonitor.elim
  · cases h

theorem authorizeVerifiedPeer_eq {db : Database}
    (h : TrustStore.findActiveAuthorization db w.uuid w.publicKey
      = .ok (some ⟨w.revision, w.permissions⟩)) :
    SessionAuthentication.authorizeVerifiedPeer db ⟨w.uuid, w.publicKey⟩ = .ok (some w) := by
  obtain ⟨uuid, publicKey, deviceId, revision, permissions, rfl⟩ := w
  simp only [SessionAuthentication.authorizeVerifiedPeer, h]
  rfl

theorem Favours.advance (hn : n.Favours host w p) {c : Connection} {call : Call} {late : Bool}
    (hcall : call ∈ n.calls) (hc : n.connection call.session = some c)
    (h : n.advance host c call late false = some m) (hm : m.Arbitrated) : m.Favours host w p := by
  have hfair := hn.fair call.session c hc
  have hconcerns := hn.calls call hcall
  have hrest : ∀ other ∈ n.calls.erase call, other.stage.Concerns w :=
    fun other hother => hn.calls other (List.mem_of_mem_erase hother)
  have hgoto : ∀ {stage : CallStage}, stage.Concerns w →
      ∀ other ∈ ({ call with stage := stage } : Call) :: n.calls.erase call,
        other.stage.Concerns w := by
    intro stage hstage other hother
    rcases List.mem_cons.mp hother with rfl | hother
    · exact hstage
    · exact hrest other hother
  have hidle : ∀ {calls : List Call}, m = { n with calls := calls } →
      (∀ other ∈ calls, other.stage.Concerns w) → m.Favours host w p := by
    rintro calls rfl hcalls
    exact hn.congr hm rfl rfl rfl hcalls rfl hn.monitor rfl rfl
  rcases Node.advance_cases h with rfl | ⟨identity, peer, hstage, -, hpeer, -, rfl⟩ |
    ⟨peer, hstage, -, rfl⟩ | ⟨peer, hstage, hfree, ⟨-, hready, -⟩, rfl⟩
  · exact hidle rfl hrest
  · rw [hstage] at hconcerns
    obtain rfl : identity = ⟨w.uuid, w.publicKey⟩ := hconcerns
    rw [authorizeVerifiedPeer_eq hn.trusted] at hpeer
    cases hpeer
    exact hidle rfl (hgoto rfl)
  · rw [hstage] at hconcerns
    exact hidle rfl (hgoto hconcerns)
  · rw [hstage] at hconcerns
    obtain rfl : peer = w := hconcerns
    refine hn.set hm rfl rfl rfl ⟨hfair.flag, hfair.kept, ?_⟩ hrest (fun _ _ h => .inl h) ?_ rfl
      hn.registry hn.replacing
    · rintro a ⟨⟩
      exact ⟨rfl, (by simp [ActivationStage.replaced]), fun _ => by simp⟩
    · -- the session is not registered, since it is neither ready nor being activated
      rintro heq hsome
      subst heq
      rcases hn.registered c hc hsome with hready' | ⟨a, ha, -⟩
      · rw [hready] at hready'
        cases hready'
      · rw [hfree] at ha
        cases ha

/-! ## Arbitration -/

theorem Favours.holds (hn : n.Favours host w p) : n.holds p = true := by
  obtain ⟨c, hc⟩ := hn.present
  obtain ⟨hstopping, hreleased⟩ := (hn.fair p c hc).kept rfl
  simp only [Node.holds, hc, hstopping, hreleased]
  rfl

/-- The registry has no entry of `p` before it is published. -/
theorem Favours.unpublished (hn : n.Favours host w p) {c : Connection} {a : Activation}
    (hc : n.connection p = some c) (ha : c.writer = .activation a)
    (hstage : a.stage.isPublished = false) {d : Device} (hd : d ∈ n.registry) :
    d.sessionId ≠ p := by
  intro hsession
  obtain ⟨-, peer, ⟨hready, -⟩ | ⟨b, hb, hpublished, -⟩, -⟩ :=
    (hn.arbitrated.owned.kept p c hc).owner d hd hsession
  · have hnot := ((hn.arbitrated.disciplined.connection p c hc).activation a ha).1
    rw [hready] at hnot
    cases hnot
  · cases ha.symm.trans hb
    rw [hstage] at hpublished
    cases hpublished

/-- **The session `p` is accepted.** -/
theorem Favours.accepted (hn : n.Favours host w p) {c : Connection} {a : Activation}
    (hc : n.connection p = some c) (ha : c.writer = .activation a)
    (hstage : a.stage.isPublished = false) :
    DeviceRegistry.publishAuthenticatedDevice n.holds n.registry
      (c.device host.myDeviceId p a) a.peer ≠ none := by
  intro hnone
  have hfair := hn.fair p c hc
  have hpeer := (hfair.activation a ha).1
  unfold DeviceRegistry.publishAuthenticatedDevice at hnone
  rw [if_neg (by simp [Connection.device, hn.holds])] at hnone
  obtain ⟨existing, hmem, -, hpreferred⟩ := DeviceRegistry.kept_of_arbitrate hnone
  have hflag : existing.preferredConnection = true := by
    refine hpreferred ?_
    show (decide (host.myDeviceId < a.peer.deviceId) == c.outgoing) = true
    rw [hpeer, hfair.flag, decide_eq_true rfl]
  rw [(hn.registry existing hmem).2, decide_eq_true_eq] at hflag
  exact hn.unpublished hc ha hstage hmem hflag

/-- **No session is published in the place of `p`.** -/
theorem Favours.published (hn : n.Favours host w p) {session : ℕ} {c : Connection}
    {a : Activation} (hc : n.connection session = some c) (ha : c.writer = .activation a)
    {devices : List Device} {replaced : Option Device}
    (h : DeviceRegistry.publishAuthenticatedDevice n.holds n.registry
      (c.device host.myDeviceId session a) a.peer = some (devices, replaced)) :
    (∀ d ∈ devices, d.deviceId = w.deviceId
        ∧ d.preferredConnection = decide (d.sessionId = p))
      ∧ replaced.map Device.sessionId ≠ some p := by
  have hfair := hn.fair session c hc
  have hpeer := (hfair.activation a ha).1
  have harbitrate := DeviceRegistry.publishAuthenticatedDevice_cases h
  constructor
  · intro d hd
    rcases DeviceRegistry.mem_of_arbitrate harbitrate hd with rfl | hd
    · refine ⟨congrArg AuthorizedPeer.deviceId hpeer, ?_⟩
      show (decide (host.myDeviceId < a.peer.deviceId) == c.outgoing) = decide (session = p)
      rw [hpeer, hfair.flag]
    · exact hn.registry d hd
  · intro hsession
    obtain ⟨existing, rfl, hexisting⟩ := Option.map_eq_some_iff.mp hsession
    obtain ⟨hmem, hgives⟩ := DeviceRegistry.replaced_of_arbitrate harbitrate
    have hflag := (hgives (hexisting ▸ hn.holds)).1
    rw [(hn.registry existing hmem).2, hexisting, decide_eq_true rfl] at hflag
    cases hflag

theorem Favours.activate (hn : n.Favours host w p) {session : ℕ} {c : Connection} {a : Activation}
    (hc : n.connection session = some c) (ha : c.writer = .activation a)
    (hm : (n.activate host c session a false).Arbitrated) :
    (n.activate host c session a false).Favours host w p := by
  have hfair := hn.fair session c hc
  have hpeer := (hfair.activation a ha).1
  -- the session was registered by this activation, if at all
  have hunregistered : isRegistered a.stage = false → session = p →
      (n.live.lookup p).isSome = true → False := by
    rintro hstage rfl hsome
    rcases hn.registered c hc hsome with hready | ⟨b, hb, hregistered⟩
    · have hnot := ((hn.arbitrated.disciplined.connection _ c hc).activation a ha).1
      rw [hready] at hnot
      cases hnot
    · cases ha.symm.trans hb
      rw [hstage] at hregistered
      cases hregistered
  unfold Node.activate at hm ⊢
  match hstage : a.stage with
  | .locked =>
    simp only [hstage] at hm ⊢
    split
    · rename_i hcurrent
      rw [if_pos hcurrent] at hm
      exact hn.set hm rfl rfl rfl
        (hfair.goto ha rfl rfl rfl rfl ⟨by simp [ActivationStage.replaced], fun _ => by simp⟩)
        hn.calls (fun _ _ h => .inl h) (fun h hs => (hunregistered (by rw [hstage]; rfl) h hs).elim) rfl
        hn.registry hn.replacing
    · rename_i hcurrent
      rw [if_neg hcurrent] at hm
      exact hn.set hm rfl rfl rfl (hfair.free rfl rfl rfl rfl) hn.calls (fun _ _ h => .inl h)
        (fun h hs => (hunregistered (by rw [hstage]; rfl) h hs).elim) rfl hn.registry hn.replacing
  | .validated =>
    simp only [hstage] at hm ⊢
    split
    · rename_i hguard
      rw [if_pos hguard] at hm
      exact hn.set hm rfl rfl rfl (hfair.free rfl rfl rfl rfl) hn.calls (fun _ _ h => .inl h)
        (fun h hs => (hunregistered (by rw [hstage]; rfl) h hs).elim) rfl hn.registry hn.replacing
    · rename_i hguard
      rw [if_neg hguard] at hm
      refine hn.set hm rfl rfl rfl
        (hfair.goto ha rfl rfl rfl rfl ⟨by simp [ActivationStage.replaced], fun _ => by simp⟩)
        hn.calls (fun other b hb => ?_) (fun _ _ => .inr ⟨_, rfl, rfl⟩) rfl hn.registry hn.replacing
      by_cases hother : other = session
      · subst hother
        rw [AList.lookup_insert] at hb
        cases hb
        exact .inr ⟨rfl, congrArg AuthorizedPeer.live hpeer⟩
      · rw [AList.lookup_insert_ne hother] at hb
        exact .inl hb
  | .registered =>
    simp only [hstage] at hm ⊢
    split
    · rename_i hnone
      simp only [hnone] at hm
      have hne : session ≠ p := by
        rintro rfl
        exact hn.accepted hc ha (by rw [hstage]; rfl) hnone
      exact hn.set hm rfl rfl rfl
        (hfair.goto ha rfl rfl rfl rfl ⟨by simp [ActivationStage.replaced], fun h => absurd h hne⟩)
        hn.calls (fun _ _ h => .inl h) (fun h => absurd h hne) rfl hn.registry hn.replacing
    · rename_i devices replaced hsome
      simp only [hsome] at hm
      obtain ⟨hdevices, hreplaced⟩ := hn.published hc ha hsome
      exact hn.set hm rfl rfl rfl (hfair.goto ha rfl rfl rfl rfl ⟨hreplaced, fun _ => by simp⟩)
        hn.calls (fun _ _ h => .inl h) (fun _ _ => .inr ⟨_, rfl, rfl⟩) rfl hdevices hn.replacing
  | .rejected =>
    simp only [hstage] at hm ⊢
    have hne : session ≠ p := fun h => (hfair.activation a ha).2.2 h hstage
    exact hn.set hm rfl rfl rfl (hfair.free rfl rfl rfl rfl) hn.calls
      (fun _ _ h => .inl (lookup_of_erase h).2) (fun h => absurd h hne) rfl hn.registry hn.replacing
  | .published replaced =>
    simp only [hstage] at hm ⊢
    have hreplaced := (hfair.activation a ha).2.1
    rw [hstage] at hreplaced
    exact hn.set hm rfl rfl rfl (hfair.goto ha rfl rfl rfl rfl ⟨hreplaced, fun _ => by simp⟩)
      hn.calls (fun _ _ h => .inl h) (fun _ _ => .inr ⟨_, rfl, rfl⟩) rfl hn.registry hn.replacing
  | .assigned replaced =>
    simp only [hstage] at hm ⊢
    have hreplaced := (hfair.activation a ha).2.1
    rw [hstage] at hreplaced
    refine hn.set hm rfl rfl rfl (hfair.free rfl rfl rfl rfl) hn.calls (fun _ _ h => .inl h)
      (fun _ _ => .inl rfl) rfl hn.registry (fun r hr => ?_)
    split at hr
    · rcases List.mem_cons.mp hr with rfl | hr
      · rintro rfl
        exact hreplaced rfl
      · exact hn.replacing r hr
    · exact hn.replacing r hr

/-- **Every peaceful step keeps `p` favoured.** -/
theorem Favours.step (hn : n.Favours host w p) (he : e.Peaceful w p)
    (h : n.step host e = some m) : m.Favours host w p := by
  have hm := hn.arbitrated.step h
  cases happens h with
  | dismissed => exact hn
  | authenticate hc hreleased hchecks =>
    refine hn.congr hm rfl rfl rfl (fun call hcall => ?_) rfl hn.monitor rfl rfl
    rcases List.mem_cons.mp hcall with rfl | hcall
    · exact he.1
    · exact hn.calls call hcall
  | advance hc hcall h =>
    obtain ⟨-, rfl⟩ := he
    exact hn.advance hcall hc h hm
  | @activate session fails c a hc ha =>
    obtain rfl : fails = false := he
    exact hn.activate hc ha hm
  | @replace r k hr hk =>
    rcases disconnect_cases hk with ⟨rfl, -⟩ | ⟨d, d', hd, hd', rfl⟩
    · have hrest : ∀ r' ∈ k.replacing.erase r, r'.replaced ≠ p :=
        fun r' hr' => hn.replacing r' (List.mem_of_mem_erase hr')
      exact ⟨hm, hn.trusted, hn.running, hn.present, hn.fair, hn.calls, hn.live, hn.registered,
        hn.monitor, hn.registry, hrest⟩
    · exact hn.disconnect (hn.replacing r hr) hd hd' hm rfl rfl rfl rfl rfl rfl rfl
        (fun _ hr' => List.mem_of_mem_erase hr')
  | @monitor fails m h =>
    obtain rfl : fails = false := he
    exact hn.monitor_step h hm
  | requestDisconnect hc hc' =>
    exact hn.disconnect he hc hc' hm rfl rfl rfl rfl rfl rfl rfl (fun _ h => h)
  | cleanup hc h => exact hn.cleanup hc h hm
  | _ => exact he.elim

/-! ## The favoured session becomes ready -/

/-- The session `p` is ready, or an activation of it is under way. -/
def Started (p : ℕ) (n : Node) : Prop :=
  ∃ c, n.connection p = some c
    ∧ (c.ready = true ∨ (∃ call ∈ n.calls, call.session = p) ∨ c.writer.isActivation = true)

theorem Started.congr (hn : n.Started p) (hconnection : m.connection p = n.connection p)
    (hcalls : ∀ call ∈ n.calls, call.session = p → call ∈ m.calls) : m.Started p := by
  obtain ⟨c, hc, hcases⟩ := hn
  refine ⟨c, hconnection.trans hc, ?_⟩
  rcases hcases with hready | ⟨call, hcall, hsession⟩ | hactivation
  · exact .inl hready
  · exact .inr (.inl ⟨call, hcalls call hcall hsession, hsession⟩)
  · exact .inr (.inr hactivation)

/-- A call for `p` goes on until it has the locks. -/
theorem Started.advance (hn : n.Started p) (hfavours : n.Favours host w p)
    (hother : w.deviceId ≠ host.myDeviceId) {c : Connection} {call : Call}
    (hcall : call ∈ n.calls) (hc : n.connection call.session = some c)
    (h : n.advance host c call false false = some m) : m.Started p := by
  by_cases hsession : call.session = p
  · -- the session is kept, so that only its being ready ends the call
    have hconcerns := hfavours.calls call hcall
    have hstopping := ((hfavours.fair call.session c hc).kept hsession).1
    have hgoto : ∀ stage, ({ n with
        calls := { call with stage := stage } :: n.calls.erase call } : Node).Started p :=
      fun stage => ⟨c, hsession ▸ hc, .inr (.inl ⟨_, List.mem_cons_self, hsession⟩)⟩
    have hready : ∀ {calls : List Call}, c.ready = true →
        ({ n with calls := calls } : Node).Started p :=
      fun hready => ⟨c, hsession ▸ hc, .inl hready⟩
    simp only [Node.advance, Bool.false_eq_true, if_false, hstopping, Bool.false_or,
      Bool.or_false] at h
    split at h
    · rename_i identity hstage
      rw [hstage] at hconcerns
      obtain rfl : identity = ⟨w.uuid, w.publicKey⟩ := hconcerns
      rw [authorizeVerifiedPeer_eq hfavours.trusted] at h
      simp only [beq_eq_false_iff_ne.mpr hother, Bool.false_eq_true, if_false] at h
      cases h
      exact hgoto _
    · split at h <;> cases h
      · rename_i hc'
        exact hready hc'
      · exact hgoto _
    · split at h
      · cases h
      · split at h
        · rename_i hc'
          cases h
          exact hready hc'
        · cases h
          exact ⟨_, (setConnection_connection ..).trans (if_pos hsession.symm), .inr (.inr rfl)⟩
  · have hkept : ∀ other ∈ n.calls, other.session = p → other ∈ n.calls.erase call := by
      intro other hmem hp
      refine (List.mem_erase_of_ne ?_).mpr hmem
      rintro rfl
      exact hsession hp
    have hmore : ∀ stage, ∀ other ∈ n.calls, other.session = p →
        other ∈ ({ call with stage := stage } : Call) :: n.calls.erase call :=
      fun stage other hmem hp => List.mem_cons_of_mem _ (hkept other hmem hp)
    have hne : p ≠ call.session := fun h => hsession h.symm
    simp only [Node.advance, Bool.false_eq_true, if_false] at h
    split at h
    · split at h
      · split at h <;> cases h
        · exact hn.congr rfl hkept
        · exact hn.congr rfl (hmore _)
      · cases h
        exact hn.congr rfl hkept
    · split at h <;> cases h
      · exact hn.congr rfl hkept
      · exact hn.congr rfl (hmore _)
    · split at h
      · cases h
      · split at h <;> cases h
        · exact hn.congr rfl hkept
        · exact hn.congr ((setConnection_connection ..).trans (if_neg hne)) hkept

/-- An activation of `p` goes on until it is ready. -/
theorem Started.activate (hn : n.Started p) (hfavours : n.Favours host w p) {session : ℕ}
    {c : Connection} {a : Activation} (hc : n.connection session = some c)
    (ha : c.writer = .activation a) : (n.activate host c session a false).Started p := by
  by_cases hsession : session = p
  · subst hsession
    have hfair := hfavours.fair session c hc
    have hpeer := (hfair.activation a ha).1
    have hset : ∀ {m : Node} {c' : Connection},
        m.connection = (n.setConnection session c').connection →
        (c'.ready = true ∨ c'.writer.isActivation = true) → m.Started session := by
      intro m c' hm hc'
      refine ⟨c', ?_, hc'.imp_right .inr⟩
      rw [hm, setConnection_connection, if_pos rfl]
    unfold Node.activate
    match hstage : a.stage with
    | .locked =>
      simp only
      have hcurrent : SessionAuthentication.authorizationIsCurrent n.database false a.peer = true := by
        rw [hpeer]
        simp [SessionAuthentication.authorizationIsCurrent, SessionAuthentication.stored,
          hfavours.trusted]
      rw [if_pos hcurrent]
      exact hset rfl (.inr rfl)
    | .validated =>
      simp only
      have hnone : (n.live.lookup session).isSome = false := by
        refine Bool.eq_false_iff.mpr (fun hsome => ?_)
        rcases hfavours.registered c hc hsome with hready | ⟨b, hb, hregistered⟩
        · have hnot := ((hfavours.arbitrated.disciplined.connection _ c hc).activation a ha).1
          rw [hready] at hnot
          cases hnot
        · cases ha.symm.trans hb
          rw [hstage] at hregistered
          cases hregistered
      rw [hfavours.running, hnone]
      exact hset rfl (.inr rfl)
    | .registered =>
      simp only
      split
      · rename_i hnone
        exact (hfavours.accepted hc ha (by rw [hstage]; rfl) hnone).elim
      · exact hset rfl (.inr rfl)
    | .rejected => exact ((hfair.activation a ha).2.2 rfl hstage).elim
    | .published replaced => exact hset rfl (.inr rfl)
    | .assigned replaced => exact hset rfl (.inl rfl)
  · have hcalls : (n.activate host c session a false).calls = n.calls := by
      obtain ⟨c', live, forceScan, registry, replacing, -, heq⟩ :=
        activate_eq host n c session a false
      rw [heq]
      rfl
    exact hn.congr (activate_connection_of_ne (fun h => hsession h.symm))
      (fun _ h _ => hcalls ▸ h)

theorem Started.step (hn : n.Started p) (hfavours : n.Favours host w p)
    (hother : w.deviceId ≠ host.myDeviceId) (he : e.Peaceful w p)
    (h : n.step host e = some m) : m.Started p := by
  have hset : ∀ {session : ℕ} {c' : Connection}, session ≠ p →
      (n.setConnection session c').connection p = n.connection p :=
    fun hne => (setConnection_connection ..).trans (if_neg (fun h => hne h.symm))
  cases happens h with
  | dismissed => exact hn
  | authenticate => exact hn.congr rfl (fun _ h _ => List.mem_cons_of_mem _ h)
  | advance hc hcall h =>
    obtain ⟨rfl, rfl⟩ := he
    exact hn.advance hfavours hother hcall hc h
  | @activate session fails c a hc ha =>
    obtain rfl : fails = false := he
    exact hn.activate hfavours hc ha
  | replace hr hk =>
    rcases disconnect_cases hk with ⟨rfl, -⟩ | ⟨d, d', -, -, rfl⟩
    · exact hn.congr rfl (fun _ h _ => h)
    · exact hn.congr (hset (hfavours.replacing _ hr)) (fun _ h _ => h)
  | monitor h =>
    have hmonitor := hfavours.monitor
    rcases runMonitor_cases h with ⟨-, monitor, forceScan, lastToken, rfl⟩ |
      ⟨entry, todo, heq, -⟩ | ⟨session, todo, k, heq, -, -⟩
    · exact hn.congr rfl (fun _ h _ => h)
    · rw [heq] at hmonitor
      exact hmonitor.elim
    · rw [heq] at hmonitor
      exact hmonitor.elim
  | requestDisconnect => exact hn.congr (hset he) (fun _ h _ => h)
  | cleanup hc h =>
    have hne := hfavours.cleanup_ne hc h
    rcases cleanup_cases h with ⟨-, -, -, rfl⟩ | ⟨-, rfl⟩ | ⟨-, rfl⟩ | ⟨-, rfl⟩ <;>
      exact hn.congr (hset hne) (fun _ h _ => h)
  | _ => exact he.elim

/-- Handing over the identity of the peer starts `p`. -/
theorem started_of_authenticate (hn : n.Favours host w p) {identity : VerifiedPeerIdentity}
    {deviceName deviceType : Bytes}
    (h : n.step host (.authenticate p identity deviceName deviceType false) = some m) :
    m.Started p := by
  obtain ⟨c, hc, h⟩ := Option.bind_eq_some_iff.mp h
  obtain ⟨hstopping, hreleased⟩ := (hn.fair p c hc).kept rfl
  simp only [hreleased, authenticate, hstopping, Bool.false_or, Bool.or_false, Bool.false_eq_true,
    if_false, Option.some.injEq] at h
  split at h
  · rename_i hready
    exact ⟨c, h ▸ hc, .inl hready⟩
  · subst h
    exact ⟨c, hc, .inr (.inl ⟨_, List.mem_cons_self, rfl⟩)⟩

/-- **Where nothing is under way, `p` is ready and owns the registry.** -/
theorem Favours.owner (hn : n.Favours host w p) (hstarted : n.Started p)
    (hcalls : ∀ call ∈ n.calls, call.session ≠ p)
    (hactivation : ∀ c, n.connection p = some c → c.writer.isActivation = false) :
    (∃ c, n.connection p = some c ∧ c.ready = true ∧ c.stopping = false ∧ c.released = false)
      ∧ ∃ d, n.registry = [d] ∧ d.sessionId = p ∧ d.deviceId = w.deviceId := by
  obtain ⟨c, hc, hcases⟩ := hstarted
  have hfair := hn.fair p c hc
  obtain ⟨hstopping, hreleased⟩ := hfair.kept rfl
  have hready : c.ready = true := by
    rcases hcases with hready | ⟨call, hcall, hsession⟩ | ha
    · exact hready
    · exact absurd hsession (hcalls call hcall)
    · rw [hactivation c hc] at ha
      cases ha
  refine ⟨⟨c, hc, hready, hstopping, hreleased⟩, ?_⟩
  have howned := hn.arbitrated.owned
  rcases (howned.kept p c hc).owned (.inl ⟨hready, hstopping, hreleased⟩) with ⟨d, hd, hsession⟩ |
    ⟨r, hr, hreplaced⟩ | ⟨other, c', hc', hvictim⟩
  · -- all entries have the device id of the peer, so there is one
    have hunique : ∀ d' ∈ n.registry, d' = d := fun d' hd' =>
      List.inj_on_of_nodup_map howned.deviceIds hd' hd
        ((hn.registry d' hd').1.trans (hn.registry d hd).1.symm)
    have hnodup : n.registry.Nodup := List.Nodup.of_map _ howned.deviceIds
    refine ⟨d, ?_, hsession, (hn.registry d hd).1⟩
    exact List.perm_singleton.mp ((List.perm_ext_iff_of_nodup hnodup (List.nodup_singleton d)).mpr
      (fun x => by
        rw [List.mem_singleton]
        exact ⟨hunique x, fun hx => hx ▸ hd⟩))
  · exact absurd hreplaced (hn.replacing r hr)
  · cases hw : c'.writer with
    | activation a =>
      rw [Connection.victim_eq hw] at hvictim
      exact absurd hvictim ((hn.fair other c' hc').activation a hw).2.1
    | _ =>
      rw [Connection.victim, hw] at hvictim
      cases hvictim

end Node

end Gasoline
