import Gasoline.Node

/-!
# What a step can do

The events of a process fall into a few kinds (`Node.Effect`): most of what
`handle_record`, `send_packet` and `request_disconnect` do to a connection
does not touch its authorization (`Connection.Touches`), and what concerns
authorization is done by activations, by the monitor, by cleanups and by
replacements. Every invariant of the sessions is proved over these kinds.

The first such invariant is the discipline of the locks
(`Node.Disciplined`).
-/

namespace Gasoline

namespace Writer

/-- Neither an activation nor a cleanup holds the lock. -/
def isPlain : Writer → Bool
  | .activation _ => false
  | .cleanup _ => false
  | _ => true

theorem eq_free {w : Writer} (h : w.isFree = true) : w = .free := by
  cases w <;> first | rfl | cases h

/-- Who holds the lock for neither reason holds it for no activation. -/
theorem ne_activation_of_isPlain {w : Writer} (h : w.isPlain = true) (a : Activation) :
    w ≠ .activation a := by
  rintro rfl
  cases h

end Writer

/-- **A change that leaves a connection's authorization alone.** It may stop
the session, where no activation holds `lifecycle_mutex_`. -/
structure Connection.Touches (c c' : Connection) : Prop where
  ready : c'.ready = c.ready
  released : c'.released = c.released
  cleanedUp : c'.cleanedUp = c.cleanedUp
  authorizedPeer : c'.authorizedPeer = c.authorizedPeer
  stopping : c'.stopping = c.stopping
    ∨ (c'.stopping = true ∧ c.writer.isActivation = false)
  writer : c'.writer = c.writer ∨ (c.writer.isPlain = true ∧ c'.writer.isPlain = true)

namespace Connection

variable {c c' : Connection}

theorem Touches.refl (c : Connection) : c.Touches c :=
  ⟨rfl, rfl, rfl, rfl, .inl rfl, .inl rfl⟩

theorem touches_handling (handling : Option Handling) :
    c.Touches { c with handling := handling } :=
  ⟨rfl, rfl, rfl, rfl, .inl rfl, .inl rfl⟩

/-- `request_disconnect` leaves the authorization alone. -/
theorem requestDisconnect_touches (h : c.requestDisconnect = some c') : c.Touches c' := by
  unfold requestDisconnect at h
  split at h
  · cases h
  · rename_i hactivation
    obtain rfl := Option.some.inj h
    exact ⟨rfl, rfl, rfl, rfl, .inr ⟨rfl, by simpa using hactivation⟩, .inl rfl⟩

/-- After `request_disconnect` the session is stopping. -/
theorem requestDisconnect_stopping (h : c.requestDisconnect = some c') : c'.stopping = true := by
  unfold requestDisconnect at h
  split at h
  · cases h
  · obtain rfl := Option.some.inj h
    rfl

/-- The beginning of `send_packet` leaves the authorization alone. -/
theorem beginSend_touches (packet : Json) (h : c.writer.isFree = true) :
    c.Touches (c.beginSend packet) := by
  have hplain : c.writer.isPlain = true := by
    rw [Writer.eq_free h]
    rfl
  unfold beginSend
  split
  · exact .refl c
  · split
    · exact ⟨rfl, rfl, rfl, rfl, .inl rfl, .inr ⟨hplain, rfl⟩⟩
    · exact ⟨rfl, rfl, rfl, rfl, .inl rfl, .inr ⟨hplain, rfl⟩⟩

theorem Touches.handling (h : c.Touches c') (handling : Option Handling) :
    c.Touches { c' with handling := handling } :=
  ⟨h.ready, h.released, h.cleanedUp, h.authorizedPeer, h.stopping, h.writer⟩

/-- `handle_record` leaves the authorization alone. -/
theorem perform_touches {host : Host} {x : HandlingAction × Handling}
    (h : c.perform host x = some c') : c.Touches c' := by
  obtain ⟨action, next⟩ := x
  cases action with
  | nothing =>
    cases h
    exact touches_handling _
  | acceptHello =>
    cases h
    exact ⟨rfl, rfl, rfl, rfl, .inl rfl, .inl rfl⟩
  | requestDisconnect =>
    obtain ⟨d, hd, rfl⟩ := Option.map_eq_some_iff.mp h
    exact (requestDisconnect_touches hd).handling _
  | emit event =>
    cases h
    exact touches_handling _
  | sendPong =>
    simp only [perform] at h
    split at h
    · rename_i hfree
      cases h
      exact (beginSend_touches _ hfree).handling _
    · cases h
  | returns =>
    cases h
    exact touches_handling _

theorem sending_touches {db : Database} {fails : Bool} {outcome : SendOutcome}
    (h : c.sending db fails outcome = some c') : c.Touches c' := by
  have hinactive : c.writer.isPlain = true → c.writer.isActivation = false := by
    cases c.writer <;> simp [Writer.isPlain, Writer.isActivation]
  simp only [sending] at h
  split at h
  · rename_i packet hwriter
    have hplain : c.writer.isPlain = true := by
      rw [hwriter]
      rfl
    split at h
    · cases h
      exact ⟨rfl, rfl, rfl, rfl, .inl rfl, .inr ⟨hplain, rfl⟩⟩
    · cases h
      exact ⟨rfl, rfl, rfl, rfl, .inr ⟨rfl, hinactive hplain⟩, .inr ⟨hplain, rfl⟩⟩
  · rename_i packet hwriter
    have hplain : c.writer.isPlain = true := by
      rw [hwriter]
      rfl
    split at h
    · cases h
      exact ⟨rfl, rfl, rfl, rfl, .inl rfl, .inr ⟨hplain, rfl⟩⟩
    · cases h
      exact ⟨rfl, rfl, rfl, rfl, .inr ⟨rfl, hinactive hplain⟩, .inr ⟨hplain, rfl⟩⟩
    · cases h
      exact ⟨rfl, rfl, rfl, rfl, .inl rfl, .inr ⟨hplain, rfl⟩⟩
  · cases h

/-- **What a connection keeps to.** A cleanup comes behind
`request_disconnect`; an activation holds the locks of a session that is
neither ready nor stopping and that its caller refers to; and a session that
is ready has a peer. -/
structure Disciplined (c : Connection) : Prop where
  cleaned : c.cleanedUp = true → c.stopping = true
  cleanup : ∀ stage, c.writer = .cleanup stage → c.cleanedUp = true
  activation : ∀ a, c.writer = .activation a →
    c.ready = false ∧ c.stopping = false ∧ c.released = false
  assigned : ∀ a replaced, c.writer = .activation a → a.stage = .assigned replaced →
    c.authorizedPeer = some a.peer
  ready : c.ready = true → ∃ peer, c.authorizedPeer = some peer

/-- Nothing is held, and nothing was cleaned up. -/
theorem disciplined_create (outgoing : Bool) : (create outgoing).Disciplined where
  cleaned := fun h => by cases h
  cleanup := fun _ h => by cases h
  activation := fun _ h => by cases h
  assigned := fun _ _ h => by cases h
  ready := fun h => by cases h

/-- The lock is released, or taken for no activation. -/
theorem Disciplined.setWriter (hc : c.Disciplined) (w : Writer) (hw : w.isActivation = false)
    (hcleanup : ∀ stage, w = .cleanup stage → c.cleanedUp = true) :
    ({ c with writer := w } : Connection).Disciplined where
  cleaned := hc.cleaned
  cleanup := hcleanup
  activation := by
    rintro a rfl
    cases hw
  assigned := by
    rintro a _ rfl
    cases hw
  ready := hc.ready

/-- The lock is held by an activation that has not set the peer. -/
theorem Disciplined.setActivation (hc : c.Disciplined) {a : Activation}
    (hactivation : c.ready = false ∧ c.stopping = false ∧ c.released = false)
    (ha : ∀ replaced, a.stage ≠ .assigned replaced) :
    ({ c with writer := .activation a } : Connection).Disciplined where
  cleaned := hc.cleaned
  cleanup _ h := by cases h
  activation _ _ := hactivation
  assigned b replaced hb hstage := by
    cases hb
    exact absurd hstage (ha replaced)
  ready := hc.ready

theorem Disciplined.assign (hc : c.Disciplined) {a : Activation} (b : Activation)
    (ha : c.writer = .activation a) (hb : b.peer = a.peer) :
    ({ c with writer := .activation b, authorizedPeer := some a.peer } : Connection).Disciplined
    where
  cleaned := hc.cleaned
  cleanup _ h := by cases h
  activation _ _ := hc.activation a ha
  assigned d _ hd _ := by
    cases hd
    rw [hb]
  ready _ := ⟨a.peer, rfl⟩

theorem Disciplined.setReady (hc : c.Disciplined) {a : Activation} {replaced : Option ℕ}
    (ha : c.writer = .activation a) (hstage : a.stage = .assigned replaced) :
    ({ c with writer := .free, ready := true } : Connection).Disciplined where
  cleaned := hc.cleaned
  cleanup _ h := by cases h
  activation _ h := by cases h
  assigned _ _ h := by cases h
  ready _ := ⟨a.peer, hc.assigned a replaced ha hstage⟩

/-- A change that leaves the authorization alone keeps the discipline. -/
theorem Disciplined.touches (hc : c.Disciplined) (h : c.Touches c') : c'.Disciplined := by
  have hwriter : ∀ {w : Writer}, w.isPlain = false → c'.writer = w → c.writer = w := by
    rintro w hw rfl
    rcases h.writer with heq | ⟨-, hplain⟩
    · exact heq.symm
    · rw [hw] at hplain
      cases hplain
  refine ⟨fun hcleaned => ?_, fun stage hstage => ?_, fun a ha => ?_, fun a r ha hr => ?_,
    fun hready => ?_⟩
  · rcases h.stopping with heq | ⟨htrue, -⟩
    · rw [heq]
      exact hc.cleaned (h.cleanedUp ▸ hcleaned)
    · exact htrue
  · rw [h.cleanedUp]
    exact hc.cleanup stage (hwriter rfl hstage)
  · have hw := hwriter rfl ha
    rw [h.ready, h.released]
    refine ⟨(hc.activation a hw).1, ?_, (hc.activation a hw).2.2⟩
    rcases h.stopping with heq | ⟨-, hactivation⟩
    · rw [heq]
      exact (hc.activation a hw).2.1
    · rw [hw] at hactivation
      cases hactivation
  · rw [h.authorizedPeer]
    exact hc.assigned a r (hwriter rfl ha) hr
  · rw [h.authorizedPeer]
    exact hc.ready (h.ready ▸ hready)

end Connection

namespace Node

variable {host : Host} {n n' : Node}

/-! ## Kinds of steps -/

/-- The session of the call is that of a call there is, or of a connection
that is referred to. -/
def Referred (n : Node) (call : Call) : Prop :=
  (∃ old ∈ n.calls, old.session = call.session)
    ∨ ∃ c, n.connection call.session = some c ∧ c.released = false

/-- **What happens at an event**: what had to hold for it, and what it
leaves. -/
inductive Happens (host : Host) (n : Node) : NodeEvent → Node → Prop
  | store {e : StoreEvent} {stores : TrustStores} (h : n.stores.step e = some stores) :
      Happens host n (.store e) { n with stores := stores }
  | create (outgoing : Bool) :
      Happens host n (.create outgoing) { n.setConnection n.nextSession (.create outgoing) with
        manager := insert n.nextSession n.manager
        nextSession := n.nextSession + 1 }
  /-- The first checks of `authorize_verified_identity` fail. -/
  | dismissed {session : ℕ} {identity : VerifiedPeerIdentity} {deviceName deviceType : Bytes}
      {late : Bool} {c : Connection} (hc : n.connection session = some c)
      (hreleased : c.released = false) (hchecks : (c.stopping || c.ready || late) = true) :
      Happens host n (.authenticate session identity deviceName deviceType late) n
  | authenticate {session : ℕ} {identity : VerifiedPeerIdentity} {deviceName deviceType : Bytes}
      {late : Bool} {c : Connection} (hc : n.connection session = some c)
      (hreleased : c.released = false) (hchecks : (c.stopping || c.ready || late) = false) :
      Happens host n (.authenticate session identity deviceName deviceType late)
        { n with calls := ⟨session, deviceName, deviceType, .identified identity⟩ :: n.calls }
  | advance {call : Call} {late fails : Bool} {c : Connection} {m : Node}
      (hc : n.connection call.session = some c) (hcall : call ∈ n.calls)
      (h : n.advance host c call late fails = some m) :
      Happens host n (.advance call late fails) m
  | activate {session : ℕ} {fails : Bool} {c : Connection} {a : Activation}
      (hc : n.connection session = some c) (ha : c.writer = .activation a) :
      Happens host n (.activate session fails) (n.activate host c session a fails)
  | replace {r : Replacement} {m : Node} (hr : r ∈ n.replacing)
      (hm : n.disconnect r.replaced = some m) :
      Happens host n (.replace r) { m with replacing := n.replacing.erase r }
  | monitor {fails : Bool} {m : Node} (h : n.runMonitor fails = some m) :
      Happens host n (.monitor fails) m
  | stopAuthentication : Happens host n .stopAuthentication { n with authStopping := true }
  | requestDisconnect {session : ℕ} {c c' : Connection} (hc : n.connection session = some c)
      (hc' : c.requestDisconnect = some c') :
      Happens host n (.requestDisconnect session) (n.setConnection session c')
  | cleanup {session : ℕ} {c : Connection} {m : Node} (hc : n.connection session = some c)
      (hm : n.cleanup c session = some m) : Happens host n (.cleanup session) m
  | release {session : ℕ} {c : Connection} (hc : n.connection session = some c)
      (hreleased : c.released = false) (hfree : c.writer = .free) (hhandling : c.handling = none)
      (hcalls : ∀ call ∈ n.calls, call.session ≠ session)
      (hreplacing : ∀ r ∈ n.replacing, r.session ≠ session) :
      Happens host n (.release session) (n.setConnection session { c with released := true })
  /-- The session that is looked up was released. -/
  | forget {session : ℕ} (hreleased : (n.connection session).any Connection.released = true) :
      Happens host n (.find session) { n with manager := n.manager.erase session }
  | find {session : ℕ} (hkept : (n.connection session).any Connection.released = false) :
      Happens host n (.find session) n
  | receive {session : ℕ} {payload : Bytes} {c : Connection} (hc : n.connection session = some c)
      (hhandling : c.handling = none) (hreleased : c.released = false) :
      Happens host n (.receive session payload)
        (n.setConnection session { c with handling := some ⟨payload, none, .loadStopping⟩ })
  | handle {session : ℕ} {late fails : Bool} {c : Connection} {handling : Handling} {m : Node}
      (hc : n.connection session = some c) (hhandling : c.handling = some handling)
      (h : n.perform host c session (handling.step host c late
        (SessionAuthentication.authorizationIsCurrent n.database fails)) = some m) :
      Happens host n (.handle session late fails) m
  | send {session : ℕ} {packet : Json} {c : Connection} (hc : n.connection session = some c)
      (hfree : c.writer.isFree = true) (hreleased : c.released = false) :
      Happens host n (.send session packet) (n.setConnection session (c.beginSend packet))
  | sending {session : ℕ} {fails : Bool} {outcome : SendOutcome} {c c' : Connection}
      (hc : n.connection session = some c) (hc' : c.sending n.database fails outcome = some c') :
      Happens host n (.sending session fails outcome) (n.setConnection session c')
  | consumeEvents : Happens host n .consumeEvents { n with events := [] }

theorem happens {e : NodeEvent} (h : n.step host e = some n') : Happens host n e n' := by
  cases e with
  | store e =>
    obtain ⟨stores, hs, rfl⟩ := Option.map_eq_some_iff.mp h
    exact .store hs
  | create outgoing =>
    cases h
    exact .create outgoing
  | authenticate session identity deviceName deviceType late =>
    obtain ⟨c, hc, h⟩ := Option.bind_eq_some_iff.mp h
    split at h
    · cases h
    · rename_i hreleased
      rw [Bool.not_eq_true] at hreleased
      simp only [Option.some.injEq, authenticate] at h
      split at h
      · rename_i hchecks
        subst h
        exact .dismissed hc hreleased hchecks
      · rename_i hchecks
        subst h
        exact .authenticate hc hreleased (Bool.not_eq_true _ ▸ hchecks)
  | advance call late fails =>
    obtain ⟨c, hc, h⟩ := Option.bind_eq_some_iff.mp h
    split at h
    · rename_i hcall
      exact .advance hc hcall h
    · cases h
  | activate session fails =>
    obtain ⟨c, hc, h⟩ := Option.bind_eq_some_iff.mp h
    split at h
    · rename_i a ha
      cases h
      exact .activate hc ha
    · cases h
  | replace r =>
    simp only [step] at h
    split at h
    · rename_i hr
      obtain ⟨m, hm, rfl⟩ := Option.map_eq_some_iff.mp h
      exact .replace hr hm
    · cases h
  | monitor fails => exact .monitor h
  | stopAuthentication =>
    cases h
    exact .stopAuthentication
  | requestDisconnect session =>
    obtain ⟨c, hc, h⟩ := Option.bind_eq_some_iff.mp h
    obtain ⟨c', hc', rfl⟩ := Option.map_eq_some_iff.mp h
    exact .requestDisconnect hc hc'
  | cleanup session =>
    obtain ⟨c, hc, h⟩ := Option.bind_eq_some_iff.mp h
    exact .cleanup hc h
  | release session =>
    obtain ⟨c, hc, h⟩ := Option.bind_eq_some_iff.mp h
    split at h
    · rename_i hguard
      simp only [Bool.and_eq_true, List.all_eq_true, bne_iff_ne, Bool.not_eq_true',
        Option.isNone_iff_eq_none] at hguard
      obtain ⟨⟨⟨⟨hreleased, hfree⟩, hhandling⟩, hcalls⟩, hreplacing⟩ := hguard
      cases h
      exact .release hc hreleased (Writer.eq_free hfree) hhandling hcalls hreplacing
    · cases h
  | find session =>
    simp only [step] at h
    split at h
    · rename_i hreleased
      cases h
      exact .forget hreleased
    · rename_i hkept
      cases h
      exact .find (Bool.not_eq_true _ ▸ hkept)
  | receive session payload =>
    obtain ⟨c, hc, h⟩ := Option.bind_eq_some_iff.mp h
    split at h
    · rename_i hguard
      rw [Bool.and_eq_true, Option.isNone_iff_eq_none, Bool.not_eq_true'] at hguard
      cases h
      exact .receive hc hguard.1 hguard.2
    · cases h
  | handle session late fails =>
    obtain ⟨c, hc, h⟩ := Option.bind_eq_some_iff.mp h
    obtain ⟨handling, hhandling, h⟩ := Option.bind_eq_some_iff.mp h
    exact .handle hc hhandling h
  | send session packet =>
    obtain ⟨c, hc, h⟩ := Option.bind_eq_some_iff.mp h
    split at h
    · rename_i hguard
      rw [Bool.and_eq_true, Bool.not_eq_true'] at hguard
      cases h
      exact .send hc hguard.1 hguard.2
    · cases h
  | sending session fails outcome =>
    obtain ⟨c, hc, h⟩ := Option.bind_eq_some_iff.mp h
    obtain ⟨c', hc', rfl⟩ := Option.map_eq_some_iff.mp h
    exact .sending hc hc'
  | consumeEvents =>
    cases h
    exact .consumeEvents

/-- **What a step does.** -/
inductive Effect (host : Host) (n : Node) : Node → Prop
  | idle : Effect host n n
  | store {e : StoreEvent} {stores : TrustStores} (h : n.stores.step e = some stores) :
      Effect host n { n with stores := stores }
  | create (outgoing : Bool) :
      Effect host n { n.setConnection n.nextSession (.create outgoing) with
        manager := insert n.nextSession n.manager
        nextSession := n.nextSession + 1 }
  | calls {calls : List Call} (h : ∀ call ∈ calls, n.Referred call) :
      Effect host n { n with calls := calls }
  | lock {calls : List Call} {call : Call} {peer : AuthorizedPeer} {c : Connection}
      (hcalls : ∀ call ∈ calls, n.Referred call) (hcall : call ∈ n.calls)
      (hc : n.connection call.session = some c) (hfree : c.writer = .free)
      (hstopping : c.stopping = false) (hready : c.ready = false) :
      Effect host n ({ n with calls := calls }.setConnection call.session
        { c with writer := .activation ⟨peer, call.deviceName, call.deviceType, .locked⟩ })
  | activate {session : ℕ} {c : Connection} {a : Activation} {fails : Bool}
      (hc : n.connection session = some c) (ha : c.writer = .activation a) :
      Effect host n (n.activate host c session a fails)
  | replace {r : Replacement} {m : Node} (hr : r ∈ n.replacing)
      (hm : n.disconnect r.replaced = some m) :
      Effect host n { m with replacing := n.replacing.erase r }
  | monitor {fails : Bool} {m : Node} (h : n.runMonitor fails = some m) : Effect host n m
  | stopAuthentication : Effect host n { n with authStopping := true }
  | cleanup {session : ℕ} {c : Connection} {m : Node} (hc : n.connection session = some c)
      (hm : n.cleanup c session = some m) : Effect host n m
  | release {session : ℕ} {c : Connection} (hc : n.connection session = some c)
      (hfree : c.writer = .free) (hcalls : ∀ call ∈ n.calls, call.session ≠ session) :
      Effect host n (n.setConnection session { c with released := true })
  | forget (session : ℕ) : Effect host n { n with manager := n.manager.erase session }
  | touch {session : ℕ} {c c' : Connection} (events : List MessageEvent)
      (hc : n.connection session = some c) (h : c.Touches c') :
      Effect host n { n.setConnection session c' with events := events }
  | consumeEvents : Effect host n { n with events := [] }

/-- **What a call without locks may do**: it ends, it goes on where its checks
let it, or it begins the locked part. -/
theorem advance_cases {c : Connection} {call : Call} {late fails : Bool}
    (h : n.advance host c call late fails = some n') :
    n' = { n with calls := n.calls.erase call }
    ∨ (∃ identity peer, call.stage = .identified identity ∧ fails = false
      ∧ SessionAuthentication.authorizeVerifiedPeer n.database identity = .ok (some peer)
      ∧ peer.deviceId ≠ host.myDeviceId
      ∧ n' = { n with calls := { call with stage := .authorized peer } :: n.calls.erase call })
    ∨ (∃ peer, call.stage = .authorized peer
      ∧ (c.stopping = false ∧ c.ready = false ∧ late = false)
      ∧ n' = { n with calls := { call with stage := .entered peer } :: n.calls.erase call })
    ∨ ∃ peer, call.stage = .entered peer ∧ c.writer = .free
      ∧ (c.stopping = false ∧ c.ready = false ∧ late = false)
      ∧ n' = { n with calls := n.calls.erase call }.setConnection call.session
        { c with writer := .activation ⟨peer, call.deviceName, call.deviceType, .locked⟩ } := by
  simp only [advance] at h
  split at h
  · rename_i identity hstage
    split at h
    · exact .inl (Option.some.inj h).symm
    · rename_i hfails
      split at h
      · rename_i peer hpeer
        split at h
        · exact .inl (Option.some.inj h).symm
        · rename_i hother
          exact .inr (.inl ⟨identity, peer, hstage, by simpa using hfails, hpeer,
            by simpa using hother, (Option.some.inj h).symm⟩)
      · exact .inl (Option.some.inj h).symm
  · rename_i peer hstage
    split at h
    · exact .inl (Option.some.inj h).symm
    · rename_i hchecks
      simp only [Bool.or_eq_true, not_or, Bool.not_eq_true, and_assoc] at hchecks
      exact .inr (.inr (.inl ⟨peer, hstage, hchecks, (Option.some.inj h).symm⟩))
  · rename_i peer hstage
    split at h
    · cases h
    · rename_i hfree
      split at h
      · exact .inl (Option.some.inj h).symm
      · rename_i hchecks
        simp only [Bool.or_eq_true, not_or, Bool.not_eq_true, and_assoc] at hchecks
        exact .inr (.inr (.inr ⟨peer, hstage, Writer.eq_free (by simpa using hfree), hchecks,
          (Option.some.inj h).symm⟩))

theorem advance_effect {c : Connection} {call : Call} {late fails : Bool}
    (hc : n.connection call.session = some c) (hcall : call ∈ n.calls)
    (h : n.advance host c call late fails = some n') : Effect host n n' := by
  have hrest : ∀ other ∈ n.calls.erase call, n.Referred other :=
    fun other hother => .inl ⟨other, List.mem_of_mem_erase hother, rfl⟩
  have hgoto : ∀ stage, ∀ other ∈ ({ call with stage := stage } : Call) :: n.calls.erase call,
      n.Referred other := by
    intro stage other hother
    rcases List.mem_cons.mp hother with rfl | hother
    · exact .inl ⟨call, hcall, rfl⟩
    · exact hrest other hother
  rcases advance_cases h with rfl | ⟨-, peer, -, -, -, -, rfl⟩ | ⟨peer, -, -, rfl⟩ |
    ⟨peer, -, hfree, ⟨hstopping, hready, -⟩, rfl⟩
  · exact .calls hrest
  · exact .calls (hgoto _)
  · exact .calls (hgoto _)
  · exact .lock hrest hcall hc hfree hstopping hready

/-- **Every step is of one of these kinds.** -/
theorem step_effect {e : NodeEvent} (h : n.step host e = some n') : Effect host n n' := by
  cases happens h with
  | store hs => exact .store hs
  | create outgoing => exact .create outgoing
  | dismissed => exact .idle
  | authenticate hc hreleased hchecks =>
    refine .calls (fun call hcall => ?_)
    rcases List.mem_cons.mp hcall with rfl | hcall
    · exact .inr ⟨_, hc, hreleased⟩
    · exact .inl ⟨call, hcall, rfl⟩
  | advance hc hcall h => exact advance_effect hc hcall h
  | activate hc ha => exact .activate hc ha
  | replace hr hm => exact .replace hr hm
  | monitor h => exact .monitor h
  | stopAuthentication => exact .stopAuthentication
  | requestDisconnect hc hc' =>
    exact .touch n.events hc (Connection.requestDisconnect_touches hc')
  | cleanup hc hm => exact .cleanup hc hm
  | release hc hreleased hfree hhandling hcalls => exact .release hc hfree hcalls
  | forget => exact .forget _
  | find => exact .idle
  | receive hc => exact .touch n.events hc (Connection.touches_handling _)
  | handle hc hhandling h =>
    obtain ⟨c', hc', rfl⟩ := Option.map_eq_some_iff.mp h
    exact .touch _ hc (Connection.perform_touches hc')
  | send hc hfree => exact .touch n.events hc (Connection.beginSend_touches _ hfree)
  | sending hc hc' => exact .touch n.events hc (Connection.sending_touches hc')
  | consumeEvents => exact .consumeEvents

/-! ## The parts of a step -/

@[simp] theorem setConnection_connection (n : Node) (session other : ℕ) (c : Connection) :
    (n.setConnection session c).connection other
      = if other = session then some c else n.connection other :=
  Function.update_apply n.connection session (some c) other

/-- **What a disconnect through a weak pointer does.** -/
theorem disconnect_cases {session : ℕ} (h : n.disconnect session = some n') :
    (n' = n ∧ ∀ c, n.connection session = some c → c.released = true)
      ∨ ∃ c c', n.connection session = some c ∧ c.requestDisconnect = some c'
        ∧ n' = n.setConnection session c' := by
  unfold disconnect at h
  split at h
  · rename_i c hc
    split at h
    · rename_i hreleased
      cases h
      refine .inl ⟨rfl, fun d hd => ?_⟩
      rw [hc] at hd
      exact Option.some.inj hd ▸ hreleased
    · obtain ⟨c', hc', rfl⟩ := Option.map_eq_some_iff.mp h
      exact .inr ⟨c, c', hc, hc', rfl⟩
  · rename_i hnone
    cases h
    exact .inl ⟨rfl, fun d hd => by rw [hnone] at hd; cases hd⟩

/-- **What the monitor does to others**: it takes a live entry, or runs a
callback. -/
theorem runMonitor_cases {fails : Bool} (h : n.runMonitor fails = some n') :
    ((∀ session todo, n.monitor ≠ .invoking session todo) ∧ ∃ monitor forceScan lastToken,
        n' = { n with monitor := monitor, forceScan := forceScan, lastToken := lastToken })
      ∨ (∃ entry todo, n.monitor = .stale entry todo
        ∧ n' = { n with monitor := .invoking entry.1 todo, live := n.live.erase entry.1 })
      ∨ ∃ session todo m, n.monitor = .invoking session todo ∧ n.disconnect session = some m
        ∧ n' = { m with monitor := .scanning todo } := by
  unfold runMonitor at h
  split at h
  · rename_i hmonitor
    cases h
    exact .inl ⟨by simp [hmonitor], _, _, _, rfl⟩
  · rename_i timed hmonitor
    split at h
    · split at h
      · cases h
        exact .inl ⟨by simp [hmonitor], _, _, _, rfl⟩
      · cases h
        exact .inl ⟨by simp [hmonitor], _, _, _, rfl⟩
    · cases h
  · rename_i forceScan hmonitor
    split at h
    · cases h
      exact .inl ⟨by simp [hmonitor], _, _, _, rfl⟩
    · split at h
      · cases h
        exact .inl ⟨by simp [hmonitor], _, _, _, rfl⟩
      · cases h
        exact .inl ⟨by simp [hmonitor], _, _, _, rfl⟩
  · rename_i hmonitor
    cases h
    exact .inl ⟨by simp [hmonitor], _, _, _, rfl⟩
  · rename_i hmonitor
    cases h
    exact .inl ⟨by simp [hmonitor], _, _, _, rfl⟩
  · rename_i entry todo hmonitor
    split at h
    · cases h
      exact .inl ⟨by simp [hmonitor], _, _, _, rfl⟩
    · cases h
      exact .inl ⟨by simp [hmonitor], _, _, _, rfl⟩
  · rename_i entry todo hmonitor
    split at h
    · cases h
      exact .inl ⟨by simp [hmonitor], _, _, _, rfl⟩
    · split at h
      · cases h
        exact .inl ⟨by simp [hmonitor], _, _, _, rfl⟩
      · cases h
        exact .inr (.inl ⟨entry, todo, hmonitor, rfl⟩)
  · rename_i session todo hmonitor
    obtain ⟨m, hm, rfl⟩ := Option.map_eq_some_iff.mp h
    exact .inr (.inr ⟨session, todo, m, hmonitor, hm, rfl⟩)
  · cases h

/-- **What a cleanup does.** -/
theorem cleanup_cases {session : ℕ} {c : Connection} (h : n.cleanup c session = some n') :
    (c.writer = .free ∧ c.stopping = true ∧ c.cleanedUp = false
        ∧ n' = n.setConnection session
          { c with cleanedUp := true, writer := .cleanup .unregisterLive })
      ∨ (c.writer = .cleanup .unregisterLive
        ∧ n' = { n.setConnection session { c with writer := .cleanup .removeDevice } with
          live := n.live.erase session })
      ∨ (c.writer = .cleanup .removeDevice
        ∧ n' = { n.setConnection session { c with writer := .cleanup .unregisterConnection } with
          registry := DeviceRegistry.removeDevice n.registry session })
      ∨ (c.writer = .cleanup .unregisterConnection
        ∧ n' = { n.setConnection session { c with writer := .free } with
          manager := n.manager.erase session }) := by
  unfold cleanup at h
  split at h
  · rename_i hfree
    split at h
    · rename_i hguard
      simp only [Bool.and_eq_true, Bool.not_eq_true'] at hguard
      cases h
      exact .inl ⟨hfree, hguard.1, hguard.2, rfl⟩
    · cases h
  · rename_i hwriter
    cases h
    exact .inr (.inl ⟨hwriter, rfl⟩)
  · rename_i hwriter
    cases h
    exact .inr (.inr (.inl ⟨hwriter, rfl⟩))
  · rename_i hwriter
    cases h
    exact .inr (.inr (.inr ⟨hwriter, rfl⟩))
  · cases h

/-- What an activation leaves alone of its connection. -/
structure Activates (c c' : Connection) : Prop where
  stopping : c'.stopping = c.stopping
  released : c'.released = c.released
  handling : c'.handling = c.handling
  peerHelloReceived : c'.peerHelloReceived = c.peerHelloReceived
  written : c'.written = c.written
  writer : c'.writer = .free ∨ c'.writer.isActivation = true

/-- **What an activation may change**: its connection, the registry, the live
map and what goes with them. -/
theorem activate_eq (host : Host) (n : Node) (c : Connection) (session : ℕ) (a : Activation)
    (fails : Bool) :
    ∃ c' live forceScan registry replacing, Activates c c'
      ∧ n.activate host c session a fails = { n.setConnection session c' with
          live := live
          forceScan := forceScan
          registry := registry
          replacing := replacing } := by
  have hfree : ∀ {ready : Bool}, Activates c { c with writer := .free, ready := ready } :=
    ⟨rfl, rfl, rfl, rfl, rfl, .inl rfl⟩
  have hgoto : ∀ {stage : ActivationStage} {peer : Option AuthorizedPeer}, Activates c
      { c with writer := .activation { a with stage := stage }, authorizedPeer := peer } :=
    ⟨rfl, rfl, rfl, rfl, rfl, .inr rfl⟩
  unfold Node.activate
  split
  · split
    · exact ⟨_, _, _, _, _, hgoto, rfl⟩
    · exact ⟨_, _, _, _, _, hfree, rfl⟩
  · split
    · exact ⟨_, _, _, _, _, hfree, rfl⟩
    · exact ⟨_, _, _, _, _, hgoto, rfl⟩
  · split
    · exact ⟨_, _, _, _, _, hgoto, rfl⟩
    · exact ⟨_, _, _, _, _, hgoto, rfl⟩
  · exact ⟨_, _, _, _, _, hfree, rfl⟩
  · exact ⟨_, _, _, _, _, hgoto, rfl⟩
  · exact ⟨_, _, _, _, _, hfree, rfl⟩

/-! ## The discipline of the locks -/

/-- **What the sessions keep to.** Session ids that were not given out are
not in use, and a connection is referred to while a call for it is under
way. -/
structure Disciplined (n : Node) : Prop where
  connection : ∀ session c, n.connection session = some c → c.Disciplined
  fresh : ∀ session, n.nextSession ≤ session → n.connection session = none
  calls : ∀ call ∈ n.calls, ∀ c, n.connection call.session = some c → c.released = false

theorem Disciplined.referred (hn : n.Disciplined) {call : Call} (h : n.Referred call)
    {c : Connection} (hc : n.connection call.session = some c) : c.released = false := by
  rcases h with ⟨old, hold, hsession⟩ | ⟨d, hd, hreleased⟩
  · exact hn.calls old hold c (hsession ▸ hc)
  · obtain rfl := Option.some.inj (hc.symm.trans hd)
    exact hreleased

/-- A session that is there has been given out. -/
theorem Disciplined.lt (hn : n.Disciplined) {session : ℕ} {c : Connection}
    (hc : n.connection session = some c) : session < n.nextSession := by
  by_contra hle
  rw [hn.fresh session (not_lt.mp hle)] at hc
  cases hc

/-- A change of one connection keeps the discipline, if the connection
does. -/
theorem Disciplined.set (hn : n.Disciplined) {session : ℕ} {c c' : Connection} {m : Node}
    (hc : n.connection session = some c) (hc' : c'.Disciplined)
    (hreleased : c'.released = c.released)
    (hm : m.connection = (n.setConnection session c').connection)
    (hnext : m.nextSession = n.nextSession) (hcalls : ∀ call ∈ m.calls, n.Referred call) :
    m.Disciplined where
  connection s d hd := by
    rw [hm, setConnection_connection] at hd
    split at hd
    · exact Option.some.inj hd ▸ hc'
    · exact hn.connection s d hd
  fresh s hs := by
    rw [hnext] at hs
    rw [hm, setConnection_connection, if_neg (((hn.lt hc).trans_le hs).ne'), hn.fresh s hs]
  calls call hcall d hd := by
    rw [hm, setConnection_connection] at hd
    split at hd
    · rename_i heq
      rw [← Option.some.inj hd, hreleased]
      exact hn.referred (hcalls call hcall) (heq ▸ hc)
    · exact hn.referred (hcalls call hcall) hd

theorem referred_of_mem {call : Call} (h : call ∈ n.calls) : n.Referred call :=
  .inl ⟨call, h, rfl⟩

/-- A change of nothing but what the discipline does not speak of. -/
theorem Disciplined.congr (hn : n.Disciplined) {m : Node} (hconnection : m.connection = n.connection)
    (hnext : m.nextSession = n.nextSession) (hcalls : ∀ call ∈ m.calls, n.Referred call) :
    m.Disciplined where
  connection s d hd := hn.connection s d (hconnection ▸ hd)
  fresh s hs := by
    rw [hconnection]
    exact hn.fresh s (hnext ▸ hs)
  calls call hcall d hd := hn.referred (hcalls call hcall) (hconnection ▸ hd)

theorem Disciplined.disconnect (hn : n.Disciplined) {session : ℕ}
    (h : n.disconnect session = some n') : n'.Disciplined := by
  have hcalls : ∀ call ∈ n.calls, n.Referred call := fun _ h => referred_of_mem h
  rcases disconnect_cases h with ⟨rfl, -⟩ | ⟨c, c', hc, hc', rfl⟩
  · exact hn
  · have htouches := Connection.requestDisconnect_touches hc'
    exact hn.set hc ((hn.connection session c hc).touches htouches) htouches.released rfl rfl hcalls

theorem Disciplined.activate (hn : n.Disciplined) {session : ℕ} {c : Connection} {a : Activation}
    {fails : Bool} (hc : n.connection session = some c) (ha : c.writer = .activation a) :
    (n.activate host c session a fails).Disciplined := by
  have hcalls : ∀ call ∈ n.calls, n.Referred call := fun _ h => referred_of_mem h
  have hdisc := hn.connection session c hc
  have hset : ∀ {c' : Connection} {m : Node}, c'.Disciplined → c'.released = c.released →
      m.connection = (n.setConnection session c').connection → m.nextSession = n.nextSession →
      m.calls = n.calls → m.Disciplined := by
    intro c' m hc' hreleased hm hnext hm'
    exact hn.set hc hc' hreleased hm hnext (hm' ▸ hcalls)
  have hfree : ({ c with writer := .free } : Connection).Disciplined :=
    hdisc.setWriter .free rfl (fun _ h => by cases h)
  have hgoto : ∀ stage, (∀ replaced, stage ≠ .assigned replaced) →
      ({ c with writer := .activation { a with stage := stage } } : Connection).Disciplined :=
    fun stage hstage => hdisc.setActivation (hdisc.activation a ha) hstage
  unfold Node.activate
  split
  · split
    · exact hset (hgoto .validated (by simp)) rfl rfl rfl rfl
    · exact hset hfree rfl rfl rfl rfl
  · split
    · exact hset hfree rfl rfl rfl rfl
    · exact hset (hgoto .registered (by simp)) rfl rfl rfl rfl
  · split
    · exact hset (hgoto .rejected (by simp)) rfl rfl rfl rfl
    · exact hset (hgoto (.published _) (by simp)) rfl rfl rfl rfl
  · exact hset hfree rfl rfl rfl rfl
  · rename_i replaced hstage
    exact hset (hdisc.assign { a with stage := .assigned replaced } ha rfl) rfl rfl rfl rfl
  · rename_i replaced hstage
    exact hset (hdisc.setReady ha hstage) rfl rfl rfl rfl

theorem Disciplined.cleanup (hn : n.Disciplined) {session : ℕ} {c : Connection}
    (hc : n.connection session = some c) (h : n.cleanup c session = some n') :
    n'.Disciplined := by
  have hcalls : ∀ call ∈ n.calls, n.Referred call := fun _ h => referred_of_mem h
  have hdisc := hn.connection session c hc
  rcases cleanup_cases h with ⟨-, hstopping, -, rfl⟩ | ⟨hw, rfl⟩ | ⟨hw, rfl⟩ | ⟨hw, rfl⟩
  · have hcleaned : ({ c with cleanedUp := true } : Connection).Disciplined :=
      ⟨fun _ => hstopping, fun _ _ => rfl, hdisc.activation, hdisc.assigned, hdisc.ready⟩
    exact hn.set hc (hcleaned.setWriter (.cleanup .unregisterLive) rfl (fun _ _ => rfl)) rfl rfl rfl
      hcalls
  · exact hn.set hc (hdisc.setWriter (.cleanup .removeDevice) rfl
      (fun _ _ => hdisc.cleanup _ hw)) rfl rfl rfl hcalls
  · exact hn.set hc (hdisc.setWriter (.cleanup .unregisterConnection) rfl
      (fun _ _ => hdisc.cleanup _ hw)) rfl rfl rfl hcalls
  · exact hn.set hc (hdisc.setWriter .free rfl (fun _ h => by cases h)) rfl rfl rfl hcalls

/-- **Every step keeps the discipline.** -/
theorem Disciplined.effect (hn : n.Disciplined) (h : Effect host n n') : n'.Disciplined := by
  have hcalls : ∀ call ∈ n.calls, n.Referred call := fun _ h => referred_of_mem h
  cases h with
  | idle => exact hn
  | store h => exact hn.congr rfl rfl hcalls
  | create outgoing =>
    refine ⟨fun s d hd => ?_, fun s hs => ?_, fun call hcall d hd => ?_⟩
    · change (n.setConnection _ _).connection s = some d at hd
      rw [setConnection_connection] at hd
      split at hd
      · exact Option.some.inj hd ▸ Connection.disciplined_create outgoing
      · exact hn.connection s d hd
    · change n.nextSession + 1 ≤ s at hs
      show (n.setConnection _ _).connection s = none
      rw [setConnection_connection, if_neg (by omega)]
      exact hn.fresh s (by omega)
    · change (n.setConnection _ _).connection _ = some d at hd
      rw [setConnection_connection] at hd
      split at hd
      · rw [← Option.some.inj hd]
        rfl
      · exact hn.calls call hcall d hd
  | calls h => exact hn.congr rfl rfl h
  | lock hcalls' hcall hc hfree hstopping hready =>
    rename_i calls call peer c
    exact hn.set hc ((hn.connection _ c hc).setActivation
      ⟨hready, hstopping, hn.calls call hcall c hc⟩ (by simp)) rfl rfl rfl hcalls'
  | activate hc ha => exact hn.activate hc ha
  | replace hr hm => exact (hn.disconnect hm).congr rfl rfl (fun _ h => referred_of_mem h)
  | monitor h =>
    rcases runMonitor_cases h with ⟨-, monitor, forceScan, lastToken, rfl⟩ |
      ⟨entry, todo, -, rfl⟩ | ⟨session, todo, m, -, hm, rfl⟩
    · exact hn.congr rfl rfl hcalls
    · exact hn.congr rfl rfl hcalls
    · exact (hn.disconnect hm).congr rfl rfl (fun _ h => referred_of_mem h)
  | stopAuthentication => exact hn.congr rfl rfl hcalls
  | cleanup hc hm => exact hn.cleanup hc hm
  | release hc hfree hcalls' =>
    rename_i session c
    have hdisc := hn.connection session c hc
    refine ⟨fun s d hd => ?_, fun s hs => ?_, fun call hcall d hd => ?_⟩
    · rw [setConnection_connection] at hd
      split at hd
      · cases hd
        refine ⟨hdisc.cleaned, hdisc.cleanup, fun a ha => ?_, hdisc.assigned, hdisc.ready⟩
        change c.writer = .activation a at ha
        rw [hfree] at ha
        cases ha
      · exact hn.connection s d hd
    · rw [setConnection_connection, if_neg ((hn.lt hc).trans_le hs).ne']
      exact hn.fresh s hs
    · rw [setConnection_connection, if_neg (hcalls' call hcall)] at hd
      exact hn.calls call hcall d hd
  | forget session => exact hn.congr rfl rfl hcalls
  | touch events hc htouches =>
    exact hn.set hc ((hn.connection _ _ hc).touches htouches) htouches.released rfl rfl hcalls
  | consumeEvents => exact hn.congr rfl rfl hcalls

theorem disciplined_initial : initial.Disciplined where
  connection _ _ h := by cases h
  fresh _ _ := rfl
  calls _ h := by cases h

end Node

end Gasoline
