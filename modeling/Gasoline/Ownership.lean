import Gasoline.Revocation

/-!
# One ready owner for each peer

What the registry, the live map and the connection manager hold of a session
follows from how far the session has come (`Node.Kept`): an entry of the
registry belongs to a session that is ready or about to be, and a session
that is ready and not stopping has its entry, unless another session took it
over and is about to disconnect it (`Node.Doomed`). Cleanup takes the
entries of its own session away, and nothing puts one back: an activation
needs a session that is not stopping.
-/

namespace Gasoline

namespace DeviceRegistry

variable {holds : ℕ → Bool} {published : Device} {devices devices' : List Device}
  {replaced : Option Device}

/-- **What publishing does to the registry**: a device that was not there is
added, and one that was there is replaced where it stands. -/
theorem arbitrate_cases (h : arbitrate holds published devices = some (devices', replaced)) :
    (replaced = none ∧ devices' = devices ++ [published]
        ∧ ∀ d ∈ devices, d.deviceId ≠ published.deviceId)
      ∨ ∃ before existing after, devices = before ++ existing :: after
        ∧ devices' = before ++ published :: after ∧ replaced = some existing
        ∧ existing.deviceId = published.deviceId := by
  induction devices generalizing devices' with
  | nil =>
    cases h
    exact .inl ⟨rfl, rfl, by simp⟩
  | cons existing rest ih =>
    simp only [arbitrate] at h
    split at h
    · rename_i hne
      obtain ⟨⟨tail, replaced'⟩, htail, heq⟩ := Option.map_eq_some_iff.mp h
      obtain ⟨rfl, rfl⟩ := Prod.mk.inj heq
      rcases ih htail with ⟨hnone, rfl, hfresh⟩ | ⟨before, old, after, rfl, rfl, hold, hid⟩
      · refine .inl ⟨hnone, rfl, fun d hd => ?_⟩
        rcases List.mem_cons.mp hd with rfl | hd
        · exact hne
        · exact hfresh d hd
      · exact .inr ⟨existing :: before, old, after, rfl, rfl, hold, hid⟩
    · rename_i heq
      split at h
      · cases h
      · cases h
        exact .inr ⟨[], existing, rest, rfl, rfl, rfl, not_not.mp heq⟩

/-- What was published is the device, ready. -/
theorem publishAuthenticatedDevice_cases {device : Device} {authorization : AuthorizedPeer}
    (h : publishAuthenticatedDevice holds devices device authorization
      = some (devices', replaced)) :
    arbitrate holds { device with state := .ready } devices = some (devices', replaced) := by
  unfold publishAuthenticatedDevice at h
  split at h
  · cases h
  · exact h

theorem nodup_deviceIds (h : arbitrate holds published devices = some (devices', replaced))
    (hnodup : (devices.map Device.deviceId).Nodup) : (devices'.map Device.deviceId).Nodup := by
  rcases arbitrate_cases h with ⟨-, rfl, hfresh⟩ | ⟨before, existing, after, rfl, rfl, -, hid⟩
  · rw [List.map_append, List.map_singleton, List.nodup_append_comm, List.singleton_append,
      List.nodup_cons]
    refine ⟨fun hmem => ?_, hnodup⟩
    obtain ⟨d, hd, hdid⟩ := List.mem_map.mp hmem
    exact hfresh d hd hdid
  · rw [List.map_append, List.map_cons] at hnodup ⊢
    rwa [← hid]

/-- Publishing a session that has no entry keeps the session ids apart. -/
theorem nodup_sessionIds (h : arbitrate holds published devices = some (devices', replaced))
    (hnodup : (devices.map Device.sessionId).Nodup)
    (hfresh : ∀ d ∈ devices, d.sessionId ≠ published.sessionId) :
    (devices'.map Device.sessionId).Nodup := by
  rcases arbitrate_cases h with ⟨-, rfl, -⟩ | ⟨before, existing, after, rfl, rfl, -, -⟩
  · rw [List.map_append, List.map_singleton, List.nodup_append_comm, List.singleton_append,
      List.nodup_cons]
    refine ⟨fun hmem => ?_, hnodup⟩
    obtain ⟨d, hd, hdid⟩ := List.mem_map.mp hmem
    exact hfresh d hd hdid
  · rw [List.map_append, List.map_cons, List.nodup_middle, List.nodup_cons] at hnodup ⊢
    refine ⟨fun hmem => ?_, hnodup.2⟩
    rw [← List.map_append] at hmem
    obtain ⟨d, hd, hdid⟩ := List.mem_map.mp hmem
    refine hfresh d ?_ hdid
    rw [List.mem_append] at hd
    rw [List.mem_append, List.mem_cons]
    exact hd.imp_right .inr

theorem mem_of_arbitrate (h : arbitrate holds published devices = some (devices', replaced))
    {d : Device} (hd : d ∈ devices') : d = published ∨ d ∈ devices := by
  rcases arbitrate_cases h with ⟨-, rfl, -⟩ | ⟨before, existing, after, rfl, rfl, -, -⟩
  · rw [List.mem_append, List.mem_singleton] at hd
    exact hd.symm
  · rw [List.mem_append, List.mem_cons] at hd
    rw [List.mem_append, List.mem_cons]
    rcases hd with hd | rfl | hd
    · exact .inr (.inl hd)
    · exact .inl rfl
    · exact .inr (.inr (.inr hd))

theorem mem_published (h : arbitrate holds published devices = some (devices', replaced)) :
    published ∈ devices' := by
  rcases arbitrate_cases h with ⟨-, rfl, -⟩ | ⟨before, existing, after, rfl, rfl, -, -⟩
  · simp
  · simp

theorem mem_or_replaced (h : arbitrate holds published devices = some (devices', replaced))
    {d : Device} (hd : d ∈ devices) : d ∈ devices' ∨ replaced = some d := by
  rcases arbitrate_cases h with ⟨-, rfl, -⟩ | ⟨before, existing, after, rfl, rfl, hreplaced, -⟩
  · exact .inl (List.mem_append_left _ hd)
  · rw [List.mem_append, List.mem_cons] at hd
    rw [List.mem_append, List.mem_cons]
    rcases hd with hd | rfl | hd
    · exact .inl (.inl hd)
    · exact .inr hreplaced
    · exact .inl (.inr (.inr hd))

end DeviceRegistry

/-! ## How far a session has come -/

/-- The entry has what the registry publishes of the peer. -/
structure Device.Describes (d : Device) (peer : AuthorizedPeer) : Prop where
  deviceId : d.deviceId = peer.deviceId
  publicKey : d.publicKey = peer.publicKey
  trustRevision : d.trustRevision = peer.revision
  permissions : d.permissions = peer.permissions

/-- The activation has its entry in the registry. -/
def ActivationStage.isPublished : ActivationStage → Bool
  | .published _ => true
  | .assigned _ => true
  | _ => false

/-- The session that the activation replaced. -/
def ActivationStage.replaced : ActivationStage → Option ℕ
  | .published replaced => replaced
  | .assigned replaced => replaced
  | _ => none

/-- An activation that has published nothing has replaced nobody. -/
theorem ActivationStage.replaced_eq_none {stage : ActivationStage}
    (h : stage.isPublished = false) : stage.replaced = none := by
  cases stage <;> first | rfl | cases h

namespace Connection

variable {c c' : Connection} {peer : AuthorizedPeer}

/-- The session that the activation under way replaced. -/
def victim (c : Connection) : Option ℕ :=
  match c.writer with
  | .activation a => a.stage.replaced
  | _ => none

theorem victim_eq {a : Activation} (ha : c.writer = .activation a) :
    c.victim = a.stage.replaced := by
  rw [victim, ha]

/-- Whose entry a session may have: it is ready for the peer, or about to
be. -/
def Claims (c : Connection) (peer : AuthorizedPeer) : Prop :=
  (c.ready = true ∧ c.authorizedPeer = some peer)
    ∨ ∃ a, c.writer = .activation a ∧ a.stage.isPublished = true ∧ a.peer = peer

/-- A session that must have its entry. -/
def Contends (c : Connection) : Prop :=
  (c.ready = true ∧ c.stopping = false ∧ c.released = false)
    ∨ ∃ a, c.writer = .activation a ∧ a.stage.isPublished = true

/-- Cleanup has taken the live entry away. -/
def liveGone (c : Connection) : Bool :=
  c.cleanedUp && match c.writer with
    | .cleanup .unregisterLive => false
    | _ => true

/-- Cleanup has taken the registry entry away. -/
def deviceGone (c : Connection) : Bool :=
  c.cleanedUp && match c.writer with
    | .cleanup .unregisterLive => false
    | .cleanup .removeDevice => false
    | _ => true

theorem liveGone_of_not_cleanedUp (h : c.cleanedUp = false) : c.liveGone = false := by
  rw [liveGone, h, Bool.false_and]

theorem deviceGone_of_not_cleanedUp (h : c.cleanedUp = false) : c.deviceGone = false := by
  rw [deviceGone, h, Bool.false_and]

theorem finalized_of_not_cleanedUp (h : c.cleanedUp = false) : c.finalized = false := by
  rw [finalized, h, Bool.false_and]

/-- An activation has a session that was not cleaned up. -/
theorem Disciplined.cleanedUp_of_not_stopping (hc : c.Disciplined) (h : c.stopping = false) :
    c.cleanedUp = false := by
  cases hcleaned : c.cleanedUp with
  | false => rfl
  | true =>
    rw [hc.cleaned hcleaned] at h
    cases h

section Touches

variable (h : c.Touches c')

include h

theorem Touches.victim : c'.victim = c.victim := by
  rcases h.writer with heq | ⟨hc, hc'⟩
  · rw [Connection.victim, heq]
    rfl
  · unfold Connection.victim
    cases hw : c.writer <;> cases hw' : c'.writer <;> simp_all [Writer.isPlain]

theorem Touches.claims (hclaims : c.Claims peer) : c'.Claims peer := by
  rcases hclaims with ⟨hready, hpeer⟩ | ⟨a, ha, hstage⟩
  · left
    rw [h.ready, h.authorizedPeer]
    exact ⟨hready, hpeer⟩
  · rcases h.writer with heq | ⟨hplain, -⟩
    · exact .inr ⟨a, heq.trans ha, hstage⟩
    · exact absurd ha (Writer.ne_activation_of_isPlain hplain a)

theorem Touches.contends (hcontends : c'.Contends) : c.Contends := by
  rcases hcontends with ⟨hready, hstopping, hreleased⟩ | ⟨a, ha, hstage⟩
  · left
    refine ⟨h.ready ▸ hready, ?_, h.released ▸ hreleased⟩
    rcases h.stopping with heq | ⟨htrue, -⟩
    · exact heq ▸ hstopping
    · rw [hstopping] at htrue
      cases htrue
  · rcases h.writer with heq | ⟨-, hplain⟩
    · exact .inr ⟨a, heq ▸ ha, hstage⟩
    · exact absurd ha (Writer.ne_activation_of_isPlain hplain a)

theorem Touches.gone : c'.liveGone = c.liveGone ∧ c'.deviceGone = c.deviceGone
    ∧ c'.finalized = c.finalized := by
  unfold liveGone deviceGone finalized
  rcases h.writer with heq | ⟨hc, hc'⟩
  · rw [heq, h.cleanedUp]
    exact ⟨rfl, rfl, rfl⟩
  · rw [h.cleanedUp]
    cases hw : c.writer <;> cases hw' : c'.writer <;> simp_all [Writer.isPlain]

end Touches

/-- A session that is stopping must have no entry, unless it is being
activated. -/
theorem not_contends_of_stopping (hstopping : c.stopping = true)
    (hwriter : c.writer.isActivation = false) : ¬ c.Contends := by
  rintro (⟨-, h, -⟩ | ⟨a, ha, -⟩)
  · rw [hstopping] at h
    cases h
  · rw [ha] at hwriter
    cases hwriter

/-- A session that is neither ready nor about to be. -/
theorem not_contends_of_not_ready (hready : c.ready = false)
    (hwriter : ∀ a, c.writer = .activation a → a.stage.isPublished = false) : ¬ c.Contends := by
  rintro (⟨h, -⟩ | ⟨a, ha, hstage⟩)
  · rw [hready] at h
    cases h
  · rw [hwriter a ha] at hstage
    cases hstage

theorem not_claims_of_not_ready (hready : c.ready = false)
    (hwriter : ∀ a, c.writer = .activation a → a.stage.isPublished = false) : ¬ c.Claims peer := by
  rintro (⟨h, -⟩ | ⟨a, ha, hstage, -⟩)
  · rw [hready] at h
    cases h
  · rw [hwriter a ha] at hstage
    cases hstage

end Connection

namespace Node

variable {host : Host} {n n' m : Node}

/-- Another session took over and is about to disconnect this one. -/
def Doomed (n : Node) (session : ℕ) : Prop :=
  (∃ r ∈ n.replacing, r.replaced = session)
    ∨ ∃ other c, n.connection other = some c ∧ c.victim = some session

/-- The session has its entry, or is about to be disconnected. -/
def Secured (n : Node) (session : ℕ) : Prop :=
  (∃ d ∈ n.registry, d.sessionId = session) ∨ n.Doomed session

/-- **What is held of a session** is what its connection has come to. -/
structure Kept (n : Node) (session : ℕ) (c : Connection) : Prop where
  owner : ∀ d ∈ n.registry, d.sessionId = session →
    c.deviceGone = false ∧ ∃ peer, c.Claims peer ∧ d.Describes peer
  owned : c.Contends → n.Secured session
  live : (n.live.lookup session).isSome = true → c.liveGone = false
  manager : session ∈ n.manager → c.finalized = false

/-- Nothing is held of a session that does not exist. -/
structure Absent (n : Node) (session : ℕ) : Prop where
  registry : ∀ d ∈ n.registry, d.sessionId ≠ session
  live : n.live.lookup session = none
  manager : session ∉ n.manager

/-- **The registry has one entry for each device and for each session, all
ready**, and what is held of each session is what it has come to. -/
structure Owned (n : Node) : Prop where
  deviceIds : (n.registry.map Device.deviceId).Nodup
  sessionIds : (n.registry.map Device.sessionId).Nodup
  state : ∀ d ∈ n.registry, d.state = .ready
  kept : ∀ session c, n.connection session = some c → n.Kept session c
  absent : ∀ session, n.connection session = none → n.Absent session

/-- What a step may do to a session it is not about. -/
structure Spares (n m : Node) (session : ℕ) : Prop where
  registry : ∀ d ∈ m.registry, d.sessionId = session → d ∈ n.registry
  secured : n.Secured session → m.Secured session
  live : (m.live.lookup session).isSome = true → (n.live.lookup session).isSome = true
  manager : session ∈ m.manager → session ∈ n.manager

theorem Spares.kept {session : ℕ} {c : Connection} (h : n.Spares m session)
    (hkept : n.Kept session c) : m.Kept session c where
  owner d hd hsession := hkept.owner d (h.registry d hd hsession) hsession
  owned hcontends := h.secured (hkept.owned hcontends)
  live hlive := hkept.live (h.live hlive)
  manager hmanager := hkept.manager (h.manager hmanager)

theorem Spares.absent {session : ℕ} (h : n.Spares m session) (habsent : n.Absent session) :
    m.Absent session where
  registry d hd hsession := habsent.registry d (h.registry d hd hsession) hsession
  live := by
    rw [← Option.not_isSome_iff_eq_none]
    intro hlive
    have hsome := h.live hlive
    rw [habsent.live] at hsome
    cases hsome
  manager hmanager := habsent.manager (h.manager hmanager)

/-- **A step that changes one connection.** -/
theorem Owned.set (hn : n.Owned) {session : ℕ} {c' : Connection}
    (hm : m.connection = (n.setConnection session c').connection)
    (hdevices : (m.registry.map Device.deviceId).Nodup)
    (hsessions : (m.registry.map Device.sessionId).Nodup)
    (hstate : ∀ d ∈ m.registry, d.state = .ready)
    (hkept : m.Kept session c') (hspares : ∀ other, other ≠ session → n.Spares m other) :
    m.Owned where
  deviceIds := hdevices
  sessionIds := hsessions
  state := hstate
  kept other c hc := by
    rw [hm, setConnection_connection] at hc
    split at hc
    · rename_i heq
      rw [heq, ← Option.some.inj hc]
      exact hkept
    · rename_i hne
      exact (hspares other hne).kept (hn.kept other c hc)
  absent other hnone := by
    rw [hm, setConnection_connection] at hnone
    split at hnone
    · cases hnone
    · rename_i hne
      exact (hspares other hne).absent (hn.absent other hnone)

/-- A step that changes one connection, and not the registry. -/
theorem Owned.setConnection (hn : n.Owned) {session : ℕ} {c' : Connection}
    (hm : m.connection = (n.setConnection session c').connection) (hregistry : m.registry = n.registry)
    (hkept : m.Kept session c') (hspares : ∀ other, other ≠ session → n.Spares m other) :
    m.Owned :=
  hn.set hm (hregistry ▸ hn.deviceIds) (hregistry ▸ hn.sessionIds) (hregistry ▸ hn.state) hkept
    hspares

/-- A step that changes neither a connection nor the registry. -/
theorem Owned.congr (hn : n.Owned) (hm : m.connection = n.connection)
    (hregistry : m.registry = n.registry) (hspares : ∀ session, n.Spares m session) :
    m.Owned where
  deviceIds := hregistry ▸ hn.deviceIds
  sessionIds := hregistry ▸ hn.sessionIds
  state := hregistry ▸ hn.state
  kept session c hc := (hspares session).kept (hn.kept session c (hm ▸ hc))
  absent session hnone := (hspares session).absent (hn.absent session (hm ▸ hnone))

/-- A session stays secured while its entry stays, while who is to disconnect
it still is, and while the victim of the connection that changes is the
same. -/
theorem Secured.set {session other : ℕ} {c c' : Connection} (h : n.Secured other)
    (hc : n.connection session = some c)
    (hm : m.connection = (n.setConnection session c').connection)
    (hregistry : ∀ d ∈ n.registry, d.sessionId = other → m.Secured other)
    (hreplacing : ∀ r ∈ n.replacing, r.replaced = other → m.Secured other)
    (hvictim : c.victim = some other → m.Secured other) : m.Secured other := by
  rcases h with ⟨d, hd, hsession⟩ | ⟨r, hr, hreplaced⟩ | ⟨s, d, hd, hs⟩
  · exact hregistry d hd hsession
  · exact hreplacing r hr hreplaced
  · by_cases hne : s = session
    · subst hne
      obtain rfl := Option.some.inj (hc.symm.trans hd)
      exact hvictim hs
    · refine .inr (.inr ⟨s, d, ?_, hs⟩)
      rw [hm, setConnection_connection, if_neg hne, hd]

section Frame

variable {session : ℕ} {c c' : Connection} (hc : n.connection session = some c)
  (hm : m.connection = (n.setConnection session c').connection)
  (hregistry : m.registry = n.registry) (hreplacing : ∀ r ∈ n.replacing, r ∈ m.replacing)

include hc hm hregistry hreplacing

/-- A change of a connection that keeps its victim leaves every session
secured. -/
theorem secured_of_victim (hvictim : ∀ s, c.victim = some s → c'.victim = some s) {other : ℕ}
    (h : n.Secured other) : m.Secured other := by
  refine h.set hc hm (fun d hd hs => .inl ⟨d, hregistry ▸ hd, hs⟩)
    (fun r hr hs => .inr (.inl ⟨r, hreplacing r hr, hs⟩)) (fun h => ?_)
  refine .inr (.inr ⟨session, c', ?_, hvictim other h⟩)
  rw [hm, setConnection_connection, if_pos rfl]

/-- If it adds no other session to the live map or to the manager, it spares
every other session. -/
theorem spares_of_victim (hvictim : ∀ s, c.victim = some s → c'.victim = some s)
    (hlive : ∀ other, other ≠ session → (m.live.lookup other).isSome = true →
      (n.live.lookup other).isSome = true)
    (hmanager : ∀ other ∈ m.manager, other ∈ n.manager) (other : ℕ) (hne : other ≠ session) :
    n.Spares m other where
  registry _ hd _ := hregistry ▸ hd
  secured := secured_of_victim hc hm hregistry hreplacing hvictim
  live := hlive other hne
  manager := hmanager other

/-- **A change that leaves the authorization alone** keeps everything. -/
theorem Owned.touch (hn : n.Owned) (htouches : c.Touches c')
    (hlive : ∀ other, (m.live.lookup other).isSome = true → (n.live.lookup other).isSome = true)
    (hmanager : ∀ other ∈ m.manager, other ∈ n.manager) : m.Owned := by
  have hvictim : ∀ s, c.victim = some s → c'.victim = some s :=
    fun s h => htouches.victim.trans h
  obtain ⟨hliveGone, hdeviceGone, hfinalized⟩ := htouches.gone
  have hkept := hn.kept session c hc
  refine hn.setConnection hm hregistry ⟨fun d hd hs => ?_, fun hcontends => ?_, fun h => ?_,
    fun h => ?_⟩ (spares_of_victim hc hm hregistry hreplacing hvictim (fun other _ => hlive other)
      hmanager)
  · obtain ⟨hgone, peer, hclaims, hdescribes⟩ := hkept.owner d (hregistry ▸ hd) hs
    exact ⟨hdeviceGone.trans hgone, peer, htouches.claims hclaims, hdescribes⟩
  · exact secured_of_victim hc hm hregistry hreplacing hvictim
      (hkept.owned (htouches.contends hcontends))
  · exact hliveGone.trans (hkept.live (hlive session h))
  · exact hfinalized.trans (hkept.manager (hmanager session h))

end Frame

/-- Where neither the registry, nor a connection, nor a replacement goes. -/
theorem spares_of_same (hm : m.connection = n.connection) (hregistry : m.registry = n.registry)
    (hreplacing : m.replacing = n.replacing)
    (hlive : ∀ other, (m.live.lookup other).isSome = true → (n.live.lookup other).isSome = true)
    (hmanager : ∀ other ∈ m.manager, other ∈ n.manager) (session : ℕ) : n.Spares m session where
  registry _ hd _ := hregistry ▸ hd
  secured h := by
    unfold Secured Doomed at h ⊢
    rwa [hregistry, hreplacing, hm]
  live := hlive session
  manager := hmanager session

theorem isSome_of_erase {live : LiveMap} {erased session : ℕ}
    (h : ((live.erase erased).lookup session).isSome = true) :
    session ≠ erased ∧ (live.lookup session).isSome = true := by
  obtain ⟨a, ha⟩ := Option.isSome_iff_exists.mp h
  obtain ⟨hne, ha⟩ := lookup_of_erase ha
  exact ⟨hne, Option.isSome_iff_exists.mpr ⟨a, ha⟩⟩

section Activation

variable {session : ℕ} {c : Connection} {a : Activation}

/-- A session under activation was not cleaned up. -/
theorem Disciplined.not_cleanedUp (hn : n.Disciplined) (hc : n.connection session = some c)
    (ha : c.writer = .activation a) : c.cleanedUp = false :=
  (hn.connection session c hc).cleanedUp_of_not_stopping
    ((hn.connection session c hc).activation a ha).2.1

/-- A step of an activation that has published nothing. -/
theorem Owned.unpublished (hn : n.Owned) (hdisciplined : n.Disciplined)
    (hc : n.connection session = some c) (ha : c.writer = .activation a)
    (hstage : a.stage.isPublished = false) (w : Writer)
    (hw : ∀ b, w = .activation b → b.stage.isPublished = false)
    (hm : m.connection = (n.setConnection session { c with writer := w }).connection)
    (hregistry : m.registry = n.registry) (hreplacing : m.replacing = n.replacing)
    (hlive : ∀ other, other ≠ session → (m.live.lookup other).isSome = true →
      (n.live.lookup other).isSome = true)
    (hmanager : m.manager = n.manager) : m.Owned := by
  have hready := ((hdisciplined.connection session c hc).activation a ha).1
  have hcleaned := hdisciplined.not_cleanedUp hc ha
  have hunpublished : ∀ b, c.writer = .activation b → b.stage.isPublished = false := by
    intro b hb
    rw [ha] at hb
    cases hb
    exact hstage
  refine hn.setConnection hm hregistry ⟨fun d hd hs => ?_, fun hcontends => ?_, fun _ => ?_,
    fun _ => ?_⟩ (spares_of_victim hc hm hregistry (fun r hr => hreplacing ▸ hr) (fun s hs => ?_)
      hlive (fun other h => hmanager ▸ h))
  · obtain ⟨-, peer, hclaims, -⟩ := (hn.kept session c hc).owner d (hregistry ▸ hd) hs
    exact absurd hclaims (Connection.not_claims_of_not_ready hready hunpublished)
  · exact absurd hcontends (Connection.not_contends_of_not_ready hready hw)
  · exact Connection.liveGone_of_not_cleanedUp hcleaned
  · exact Connection.finalized_of_not_cleanedUp hcleaned
  · rw [Connection.victim_eq ha, ActivationStage.replaced_eq_none hstage] at hs
    cases hs

/-- **Publishing**: the session has its entry, and who had it is doomed. -/
theorem Owned.publish (hn : n.Owned) (hdisciplined : n.Disciplined)
    (hc : n.connection session = some c) (ha : c.writer = .activation a)
    (hstage : a.stage = .registered) {devices : List Device} {replaced : Option Device}
    (hpublish : DeviceRegistry.publishAuthenticatedDevice n.holds n.registry
      (c.device host.myDeviceId session a) a.peer = some (devices, replaced)) :
    ({ n.setConnection session { c with
        writer := .activation { a with stage := .published (replaced.map Device.sessionId) } } with
      registry := devices } : Node).Owned := by
  have harbitrate := DeviceRegistry.publishAuthenticatedDevice_cases hpublish
  have hready := ((hdisciplined.connection session c hc).activation a ha).1
  have hcleaned := hdisciplined.not_cleanedUp hc ha
  have hfresh : ∀ d ∈ n.registry, d.sessionId ≠ session := by
    intro d hd hs
    obtain ⟨-, peer, hclaims, -⟩ := (hn.kept session c hc).owner d hd hs
    refine Connection.not_claims_of_not_ready hready (fun b hb => ?_) hclaims
    rw [ha] at hb
    cases hb
    rw [hstage]
    rfl
  have hmem : ∀ d ∈ devices, d.sessionId = session →
      d = { c.device host.myDeviceId session a with state := .ready } :=
    fun d hd hs => (DeviceRegistry.mem_of_arbitrate harbitrate hd).resolve_right
      (fun hd => hfresh d hd hs)
  refine hn.set rfl (DeviceRegistry.nodup_deviceIds harbitrate hn.deviceIds)
    (DeviceRegistry.nodup_sessionIds harbitrate hn.sessionIds hfresh) (fun d hd => ?_)
    ⟨fun d hd hs => ?_, fun _ => ?_, fun _ => ?_, fun _ => ?_⟩ (fun other hne => ⟨?_, ?_, id, id⟩)
  · rcases DeviceRegistry.mem_of_arbitrate harbitrate hd with rfl | hd
    · rfl
    · exact hn.state d hd
  · obtain rfl := hmem d hd hs
    exact ⟨Connection.deviceGone_of_not_cleanedUp hcleaned, a.peer, .inr ⟨_, rfl, rfl, rfl⟩,
      rfl, rfl, rfl, rfl⟩
  · exact .inl ⟨_, DeviceRegistry.mem_published harbitrate, rfl⟩
  · exact Connection.liveGone_of_not_cleanedUp hcleaned
  · exact Connection.finalized_of_not_cleanedUp hcleaned
  · intro d hd hs
    refine (DeviceRegistry.mem_of_arbitrate harbitrate hd).resolve_left ?_
    rintro rfl
    exact hne hs.symm
  · intro h
    refine h.set hc rfl (fun d hd hs => ?_) (fun r hr hs => .inr (.inl ⟨r, hr, hs⟩)) (fun h => ?_)
    · rcases DeviceRegistry.mem_or_replaced harbitrate hd with hd | rfl
      · exact .inl ⟨d, hd, hs⟩
      · refine .inr (.inr ⟨session, _, (setConnection_connection ..).trans (if_pos rfl), ?_⟩)
        rw [← hs]
        rfl
    · rw [Connection.victim_eq ha, hstage] at h
      cases h

theorem Owned.assign (hn : n.Owned) (hdisciplined : n.Disciplined)
    (hc : n.connection session = some c) (ha : c.writer = .activation a) {replaced : Option ℕ}
    (hstage : a.stage = .published replaced) :
    (n.setConnection session { c with
      writer := .activation { a with stage := .assigned replaced }
      authorizedPeer := some a.peer }).Owned := by
  have hcleaned := hdisciplined.not_cleanedUp hc ha
  have hready := ((hdisciplined.connection session c hc).activation a ha).1
  have hkept := hn.kept session c hc
  have hvictim : ∀ s, c.victim = some s →
      ({ c with
        writer := .activation { a with stage := .assigned replaced }
        authorizedPeer := some a.peer } : Connection).victim = some s := by
    intro s hs
    rw [Connection.victim_eq ha, hstage] at hs
    exact hs
  refine hn.setConnection rfl rfl ⟨fun d hd hs => ?_, fun _ => ?_, fun _ => ?_, fun _ => ?_⟩
    (spares_of_victim hc rfl rfl (fun _ hr => hr) hvictim (fun _ _ h => h) (fun _ h => h))
  · obtain ⟨-, peer, hclaims, hdescribes⟩ := hkept.owner d hd hs
    refine ⟨Connection.deviceGone_of_not_cleanedUp hcleaned, peer, ?_, hdescribes⟩
    rcases hclaims with ⟨h, -⟩ | ⟨b, hb, -, rfl⟩
    · rw [hready] at h
      cases h
    · rw [ha] at hb
      cases hb
      exact .inr ⟨_, rfl, rfl, rfl⟩
  · refine secured_of_victim hc rfl rfl (fun _ hr => hr) hvictim (hkept.owned (.inr ⟨a, ha, ?_⟩))
    rw [hstage]
    rfl
  · exact Connection.liveGone_of_not_cleanedUp hcleaned
  · exact Connection.finalized_of_not_cleanedUp hcleaned

/-- **The session is ready**, and who had its entry is about to be
disconnected. -/
theorem Owned.ready (hn : n.Owned) (hdisciplined : n.Disciplined)
    (hc : n.connection session = some c) (ha : c.writer = .activation a) {replaced : Option ℕ}
    (hstage : a.stage = .assigned replaced)
    (hm : m.connection = (n.setConnection session { c with writer := .free, ready := true }).connection)
    (hregistry : m.registry = n.registry) (hlive : m.live = n.live) (hmanager : m.manager = n.manager)
    (hreplacing : ∀ r ∈ n.replacing, r ∈ m.replacing)
    (hvictim : ∀ victim, replaced = some victim → ⟨session, victim⟩ ∈ m.replacing) : m.Owned := by
  have hdisc := hdisciplined.connection session c hc
  have hcleaned := hdisciplined.not_cleanedUp hc ha
  have hkept := hn.kept session c hc
  have hsecured : ∀ other, n.Secured other → m.Secured other := by
    intro other h
    refine h.set hc hm (fun d hd hs => .inl ⟨d, hregistry ▸ hd, hs⟩)
      (fun r hr hs => .inr (.inl ⟨r, hreplacing r hr, hs⟩)) (fun h => ?_)
    rw [Connection.victim_eq ha, hstage] at h
    exact .inr (.inl ⟨_, hvictim other h, rfl⟩)
  refine hn.setConnection hm hregistry ⟨fun d hd hs => ?_, fun _ => ?_, fun _ => ?_, fun _ => ?_⟩
    (fun other _ => ⟨fun d hd _ => hregistry ▸ hd, hsecured other, fun h => hlive ▸ h,
      fun h => hmanager ▸ h⟩)
  · obtain ⟨-, peer, hclaims, hdescribes⟩ := hkept.owner d (hregistry ▸ hd) hs
    refine ⟨Connection.deviceGone_of_not_cleanedUp hcleaned, peer, ?_, hdescribes⟩
    rcases hclaims with ⟨h, -⟩ | ⟨b, hb, -, rfl⟩
    · rw [(hdisc.activation a ha).1] at h
      cases h
    · rw [ha] at hb
      cases hb
      exact .inl ⟨rfl, hdisc.assigned a replaced ha hstage⟩
  · refine hsecured session (hkept.owned (.inr ⟨a, ha, ?_⟩))
    rw [hstage]
    rfl
  · exact Connection.liveGone_of_not_cleanedUp hcleaned
  · exact Connection.finalized_of_not_cleanedUp hcleaned

/-- **Every step of an activation keeps the ownership.** -/
theorem Owned.activate (hn : n.Owned) (hdisciplined : n.Disciplined) {fails : Bool}
    (hc : n.connection session = some c) (ha : c.writer = .activation a) :
    (n.activate host c session a fails).Owned := by
  have hbefore : ∀ (w : Writer) {m : Node}, a.stage.isPublished = false →
      (∀ b, w = .activation b → b.stage.isPublished = false) →
      m.connection = (n.setConnection session { c with writer := w }).connection →
      m.registry = n.registry → m.replacing = n.replacing →
      (∀ other, other ≠ session → (m.live.lookup other).isSome = true →
        (n.live.lookup other).isSome = true) → m.manager = n.manager → m.Owned :=
    fun w m hstage hw hm hregistry hreplacing hlive hmanager =>
      hn.unpublished hdisciplined hc ha hstage w hw hm hregistry hreplacing hlive hmanager
  unfold Node.activate
  split
  · rename_i hstage
    split
    · exact hbefore (.activation _) (by rw [hstage]; rfl) (fun b hb => by cases hb; rfl) rfl rfl rfl
        (fun _ _ h => h) rfl
    · exact hbefore .free (by rw [hstage]; rfl) (fun b hb => by cases hb) rfl rfl rfl
        (fun _ _ h => h) rfl
  · rename_i hstage
    split
    · exact hbefore .free (by rw [hstage]; rfl) (fun b hb => by cases hb) rfl rfl rfl
        (fun _ _ h => h) rfl
    · refine hbefore (.activation _) (by rw [hstage]; rfl) (fun b hb => by cases hb; rfl) rfl rfl rfl
        (fun other hne h => ?_) rfl
      change ((n.live.insert session a.peer.live).lookup other).isSome = true at h
      rwa [AList.lookup_insert_ne hne] at h
  · rename_i hstage
    split
    · exact hbefore (.activation _) (by rw [hstage]; rfl) (fun b hb => by cases hb; rfl) rfl rfl rfl
        (fun _ _ h => h) rfl
    · rename_i devices replaced hpublish
      exact hn.publish hdisciplined hc ha hstage hpublish
  · rename_i hstage
    exact hbefore .free (by rw [hstage]; rfl) (fun b hb => by cases hb) rfl rfl rfl
      (fun _ _ h => (isSome_of_erase h).2) rfl
  · rename_i replaced hstage
    exact hn.assign hdisciplined hc ha hstage
  · rename_i replaced hstage
    cases replaced with
    | none =>
      exact hn.ready hdisciplined hc ha hstage rfl rfl rfl rfl (fun _ hr => hr)
        (fun _ h => by cases h)
    | some victim =>
      refine hn.ready hdisciplined hc ha hstage rfl rfl rfl rfl (fun _ hr => List.mem_cons_of_mem _ hr)
        (fun v h => ?_)
      obtain rfl := Option.some.inj h
      exact List.mem_cons_self

end Activation

/-- A session that was asked to disconnect, through whichever pointer, need
have no entry. -/
theorem not_contends_of_disconnect (hn : n.Disciplined) {session : ℕ}
    (h : n.disconnect session = some m) {c : Connection} (hc : m.connection session = some c) :
    ¬ c.Contends := by
  rcases disconnect_cases h with ⟨rfl, hreleased⟩ | ⟨d, d', hd, hd', rfl⟩
  · rintro (⟨-, -, h⟩ | ⟨a, ha, -⟩)
    · rw [hreleased c hc] at h
      cases h
    · have hreferred := ((hn.connection session c hc).activation a ha).2.2
      rw [hreleased c hc] at hreferred
      cases hreferred
  · rw [setConnection_connection, if_pos rfl] at hc
    obtain rfl := Option.some.inj hc
    refine Connection.not_contends_of_stopping (Connection.requestDisconnect_stopping hd') ?_
    simp only [Connection.requestDisconnect] at hd'
    split at hd'
    · cases hd'
    · rename_i hactivation
      obtain rfl := Option.some.inj hd'
      simpa using hactivation

theorem Owned.disconnect (hn : n.Owned) {session : ℕ} (h : n.disconnect session = some m) :
    m.Owned := by
  rcases disconnect_cases h with ⟨rfl, -⟩ | ⟨c, c', hc, hc', rfl⟩
  · exact hn
  · exact hn.touch hc rfl rfl (fun _ hr => hr) (Connection.requestDisconnect_touches hc')
      (fun _ h => h) (fun _ h => h)

/-- **The replaced session is disconnected**, and needs its entry no more. -/
theorem Owned.replace (hn : n.Owned) (hdisciplined : n.Disciplined) {r : Replacement}
    (h : n.disconnect r.replaced = some m) :
    ({ m with replacing := n.replacing.erase r } : Node).Owned := by
  have hm := hn.disconnect h
  have hreplacing : m.replacing = n.replacing := by
    rcases disconnect_cases h with ⟨rfl, -⟩ | ⟨c, c', -, -, rfl⟩ <;> rfl
  have hspares : ∀ session, session ≠ r.replaced →
      m.Spares { m with replacing := n.replacing.erase r } session := by
    refine fun session hne => ⟨fun _ hd _ => hd, fun h => ?_, id, id⟩
    rcases h with h | ⟨other, hother, hs⟩ | h
    · exact .inl h
    · refine .inr (.inl ⟨other, ?_, hs⟩)
      rw [hreplacing] at hother
      refine (List.mem_erase_of_ne ?_).mpr hother
      rintro rfl
      exact hne hs.symm
    · exact .inr (.inr h)
  refine ⟨hm.deviceIds, hm.sessionIds, hm.state, fun session c hc => ?_, fun session hnone => ?_⟩
  · have hkept := hm.kept session c hc
    by_cases hsession : session = r.replaced
    · subst hsession
      exact ⟨hkept.owner, fun hcontends => absurd hcontends
        (not_contends_of_disconnect hdisciplined h hc), hkept.live, hkept.manager⟩
    · exact (hspares session hsession).kept hkept
  · have habsent := hm.absent session hnone
    exact ⟨habsent.registry, habsent.live, habsent.manager⟩

/-- **Cleanup** takes away what is held of its own session. -/
theorem Owned.cleanup (hn : n.Owned) (hdisciplined : n.Disciplined) {session : ℕ} {c : Connection}
    (hc : n.connection session = some c) (h : n.cleanup c session = some m) : m.Owned := by
  have hdisc := hdisciplined.connection session c hc
  have hkept := hn.kept session c hc
  have hstopping : ∀ stage, c.writer = .cleanup stage → c.stopping = true :=
    fun stage h => hdisc.cleaned (hdisc.cleanup stage h)
  have hnovictim : (∀ a, c.writer ≠ .activation a) → ∀ s, c.victim = some s → False := by
    intro hw s hs
    cases hcw : c.writer with
    | activation a => exact hw a hcw
    | _ =>
      rw [Connection.victim, hcw] at hs
      cases hs
  -- a session under cleanup claims its entry because it is ready
  have hclaims : ∀ {w : Writer} {b : Bool}, (∀ a, c.writer ≠ .activation a) → ∀ {peer},
      c.Claims peer → ({ c with writer := w, cleanedUp := b } : Connection).Claims peer := by
    rintro w b hw peer (hready | ⟨a, ha, -⟩)
    · exact .inl hready
    · exact absurd ha (hw a)
  rcases cleanup_cases h with ⟨hw, hs, hcleaned, rfl⟩ | ⟨hw, rfl⟩ | ⟨hw, rfl⟩ | ⟨hw, rfl⟩
  · have hna : ∀ a, c.writer ≠ .activation a := by simp [hw]
    refine hn.setConnection rfl rfl ⟨fun d hd hds => ?_, fun hcontends => ?_, fun _ => rfl,
      fun _ => rfl⟩ (spares_of_victim hc rfl rfl (fun _ hr => hr)
        (fun s hs => (hnovictim hna s hs).elim) (fun _ _ h => h) (fun _ h => h))
    · obtain ⟨-, peer, hpeer, hdescribes⟩ := hkept.owner d hd hds
      exact ⟨rfl, peer, hclaims hna hpeer, hdescribes⟩
    · exact absurd hcontends (Connection.not_contends_of_stopping hs rfl)
  · have hna : ∀ a, c.writer ≠ .activation a := by simp [hw]
    refine hn.setConnection rfl rfl ⟨fun d hd hds => ?_, fun hcontends => ?_, fun hlive => ?_,
      fun _ => ?_⟩ (spares_of_victim hc rfl rfl (fun _ hr => hr)
        (fun s hs => (hnovictim hna s hs).elim) (fun _ _ h => (isSome_of_erase h).2) (fun _ h => h))
    · obtain ⟨-, peer, hpeer, hdescribes⟩ := hkept.owner d hd hds
      exact ⟨by simp [Connection.deviceGone], peer, hclaims hna hpeer, hdescribes⟩
    · exact absurd hcontends (Connection.not_contends_of_stopping (hstopping _ hw) rfl)
    · exact absurd rfl (isSome_of_erase hlive).1
    · simp [Connection.finalized]
  · have hna : ∀ a, c.writer ≠ .activation a := by simp [hw]
    have hsub : (DeviceRegistry.removeDevice n.registry session).Sublist n.registry :=
      List.filter_sublist
    have hmem : ∀ d ∈ DeviceRegistry.removeDevice n.registry session,
        d ∈ n.registry ∧ d.sessionId ≠ session := by
      intro d hd
      simpa [DeviceRegistry.removeDevice] using hd
    refine hn.set rfl (hn.deviceIds.sublist (hsub.map _)) (hn.sessionIds.sublist (hsub.map _))
      (fun d hd => hn.state d (hmem d hd).1)
      ⟨fun d hd hds => absurd hds (hmem d hd).2, fun hcontends => ?_, fun hlive => ?_, fun _ => ?_⟩
      (fun other hne => ⟨fun d hd _ => (hmem d hd).1, fun h => ?_, id, id⟩)
    · exact absurd hcontends (Connection.not_contends_of_stopping (hstopping _ hw) rfl)
    · have hgone := hkept.live hlive
      simp [Connection.liveGone, hdisc.cleanup _ hw, hw] at hgone
    · simp [Connection.finalized]
    · refine h.set hc rfl (fun d hd hds => .inl ⟨d, ?_, hds⟩)
        (fun r hr hs => .inr (.inl ⟨r, hr, hs⟩)) (fun h => (hnovictim hna other h).elim)
      show d ∈ List.filter _ n.registry
      rw [List.mem_filter, decide_eq_true_eq, hds]
      exact ⟨hd, hne⟩
  · have hna : ∀ a, c.writer ≠ .activation a := by simp [hw]
    refine hn.setConnection rfl rfl ⟨fun d hd hds => ?_, fun hcontends => ?_, fun hlive => ?_,
      fun hmanager => ?_⟩ (spares_of_victim hc rfl rfl (fun _ hr => hr)
        (fun s hs => (hnovictim hna s hs).elim) (fun _ _ h => h)
        (fun _ h => Finset.mem_of_mem_erase h))
    · have hgone := (hkept.owner d hd hds).1
      simp [Connection.deviceGone, hdisc.cleanup _ hw, hw] at hgone
    · exact absurd hcontends (Connection.not_contends_of_stopping (hstopping _ hw) rfl)
    · have hgone := hkept.live hlive
      simp [Connection.liveGone, hdisc.cleanup _ hw, hw] at hgone
    · exact absurd rfl (Finset.ne_of_mem_erase hmanager)

theorem Owned.effect (hn : n.Owned) (hdisciplined : n.Disciplined) (h : Effect host n n') :
    n'.Owned := by
  cases h with
  | idle => exact hn
  | store h =>
    exact hn.congr rfl rfl (spares_of_same rfl rfl rfl (fun _ h => h) (fun _ h => h))
  | create outgoing =>
    have hnone := hdisciplined.fresh n.nextSession le_rfl
    have habsent := hn.absent _ hnone
    refine hn.setConnection rfl rfl ⟨fun d hd hs => absurd hs (habsent.registry d hd),
      fun hcontends => ?_, fun _ => rfl, fun _ => rfl⟩ (fun other hne => ⟨fun _ hd _ => hd,
        fun h => ?_, id, fun h => (Finset.mem_insert.mp h).resolve_left hne⟩)
    · exact absurd hcontends
        (Connection.not_contends_of_not_ready rfl (fun _ h => by cases h))
    · rcases h with h | h | ⟨s, c, hc, hs⟩
      · exact .inl h
      · exact .inr (.inl h)
      · refine .inr (.inr ⟨s, c, ?_, hs⟩)
        show (n.setConnection _ _).connection s = some c
        rw [setConnection_connection, if_neg, hc]
        rintro rfl
        rw [hnone] at hc
        cases hc
  | calls h =>
    exact hn.congr rfl rfl (spares_of_same rfl rfl rfl (fun _ h => h) (fun _ h => h))
  | lock hcalls hcall hc hfree hstopping hready =>
    rename_i calls call peer c
    have hcleaned := (hdisciplined.connection _ c hc).cleanedUp_of_not_stopping hstopping
    have hna : ∀ a, c.writer = .activation a → a.stage.isPublished = false := by
      simp [hfree]
    refine hn.setConnection rfl rfl ⟨fun d hd hs => ?_, fun hcontends => ?_, fun _ => ?_,
      fun _ => ?_⟩ (spares_of_victim hc rfl rfl (fun _ hr => hr) (fun s hs => ?_) (fun _ _ h => h)
        (fun _ h => h))
    · obtain ⟨-, p, hclaims, -⟩ := (hn.kept _ c hc).owner d hd hs
      exact absurd hclaims (Connection.not_claims_of_not_ready hready hna)
    · refine absurd hcontends (Connection.not_contends_of_not_ready hready (fun b hb => ?_))
      cases hb
      rfl
    · exact Connection.liveGone_of_not_cleanedUp hcleaned
    · exact Connection.finalized_of_not_cleanedUp hcleaned
    · rw [Connection.victim, hfree] at hs
      cases hs
  | activate hc ha => exact hn.activate hdisciplined hc ha
  | replace hr hm => exact hn.replace hdisciplined hm
  | monitor h =>
    rcases runMonitor_cases h with ⟨-, monitor, forceScan, lastToken, rfl⟩ |
      ⟨entry, todo, -, rfl⟩ | ⟨session, todo, m, -, hm, rfl⟩
    · exact hn.congr rfl rfl (spares_of_same rfl rfl rfl (fun _ h => h) (fun _ h => h))
    · exact hn.congr rfl rfl
        (spares_of_same rfl rfl rfl (fun _ h => (isSome_of_erase h).2) (fun _ h => h))
    · exact (hn.disconnect hm).congr rfl rfl
        (spares_of_same rfl rfl rfl (fun _ h => h) (fun _ h => h))
  | stopAuthentication =>
    exact hn.congr rfl rfl (spares_of_same rfl rfl rfl (fun _ h => h) (fun _ h => h))
  | cleanup hc hm => exact hn.cleanup hdisciplined hc hm
  | release hc hfree hcalls =>
    rename_i session c
    have hkept := hn.kept session c hc
    refine hn.setConnection rfl rfl ⟨hkept.owner, fun hcontends => ?_, hkept.live, hkept.manager⟩
      (spares_of_victim hc rfl rfl (fun _ hr => hr) (fun _ hs => hs) (fun _ _ h => h)
        (fun _ h => h))
    rcases hcontends with ⟨-, -, h⟩ | ⟨a, ha, -⟩
    · cases h
    · exact absurd (hfree.symm.trans ha) (by simp)
  | forget session =>
    exact hn.congr rfl rfl (spares_of_same rfl rfl rfl (fun _ h => h)
      (fun _ h => Finset.mem_of_mem_erase h))
  | touch events hc htouches =>
    exact hn.touch hc rfl rfl (fun _ hr => hr) htouches (fun _ h => h) (fun _ h => h)
  | consumeEvents =>
    exact hn.congr rfl rfl (spares_of_same rfl rfl rfl (fun _ h => h) (fun _ h => h))

/-! ## After cleanup -/

/-- An activation changes no other connection. -/
theorem activate_connection_of_ne {session other : ℕ} {c : Connection} {a : Activation}
    {fails : Bool} (hne : other ≠ session) :
    (n.activate host c session a fails).connection other = n.connection other := by
  obtain ⟨c', live, forceScan, registry, replacing, -, heq⟩ := activate_eq host n c session a fails
  rw [heq]
  exact (setConnection_connection ..).trans (if_neg hne)

/-- A change of one connection keeps a cleanup completed, if that of the
connection does. -/
theorem finalized_set {session other : ℕ} {c c' d : Connection}
    (hm : m.connection = (n.setConnection other c').connection)
    (hc : n.connection session = some c) (hfinalized : c.finalized = true)
    (hd : n.connection other = some d) (hother : d.finalized = true → c'.finalized = true) :
    ∃ c, m.connection session = some c ∧ c.finalized = true := by
  by_cases hne : session = other
  · subst hne
    obtain rfl := Option.some.inj (hc.symm.trans hd)
    exact ⟨c', by rw [hm, setConnection_connection, if_pos rfl], hother hfinalized⟩
  · exact ⟨c, by rw [hm, setConnection_connection, if_neg hne, hc], hfinalized⟩

/-- A disconnect keeps a cleanup completed. -/
theorem finalized_disconnect {session other : ℕ} {c : Connection}
    (h : n.disconnect other = some m) (hc : n.connection session = some c)
    (hfinalized : c.finalized = true) :
    ∃ c, m.connection session = some c ∧ c.finalized = true := by
  rcases disconnect_cases h with ⟨rfl, -⟩ | ⟨d, d', hd, hd', rfl⟩
  · exact ⟨c, hc, hfinalized⟩
  · exact finalized_set rfl hc hfinalized hd
      (fun h => (Connection.requestDisconnect_touches hd').gone.2.2.trans h)

/-- **A cleanup that has completed stays so.** -/
theorem finalized_effect (hn : n.Disciplined) (h : Effect host n n') {session : ℕ} {c : Connection}
    (hc : n.connection session = some c) (hfinalized : c.finalized = true) :
    ∃ c, n'.connection session = some c ∧ c.finalized = true := by
  have hcleaned : ∀ {d : Connection}, d.finalized = true → d.cleanedUp = true := by
    intro d hd
    rw [Connection.finalized, Bool.and_eq_true] at hd
    exact hd.1
  cases h with
  | create outgoing =>
    refine ⟨c, ?_, hfinalized⟩
    show (n.setConnection _ _).connection session = some c
    rw [setConnection_connection, if_neg (hn.lt hc).ne, hc]
  | lock hcalls hcall hd hfree hstopping hready =>
    rename_i calls call peer d
    refine finalized_set rfl hc hfinalized hd (fun h => ?_)
    have hstop := (hn.connection _ d hd).cleaned (hcleaned h)
    rw [hstopping] at hstop
    cases hstop
  | activate hd ha =>
    rename_i other d a fails
    have hne : session ≠ other := by
      rintro rfl
      obtain rfl := Option.some.inj (hc.symm.trans hd)
      have hnot := hn.not_cleanedUp hc ha
      rw [hcleaned hfinalized] at hnot
      cases hnot
    exact ⟨c, (activate_connection_of_ne hne).trans hc, hfinalized⟩
  | replace hr hm =>
    obtain ⟨d, hd, hf⟩ := finalized_disconnect hm hc hfinalized
    exact ⟨d, hd, hf⟩
  | monitor h =>
    rcases runMonitor_cases h with ⟨-, monitor, forceScan, lastToken, rfl⟩ |
      ⟨entry, todo, -, rfl⟩ | ⟨other, todo, m, -, hm, rfl⟩
    · exact ⟨c, hc, hfinalized⟩
    · exact ⟨c, hc, hfinalized⟩
    · obtain ⟨d, hd, hf⟩ := finalized_disconnect hm hc hfinalized
      exact ⟨d, hd, hf⟩
  | cleanup hd hm =>
    rename_i other d
    have hnot : ∀ stage, d.writer = .cleanup stage → d.finalized = false := by
      intro stage hw
      rw [Connection.finalized, hw, Bool.and_false]
    rcases cleanup_cases hm with ⟨-, -, hd', rfl⟩ | ⟨hw, rfl⟩ | ⟨hw, rfl⟩ | ⟨hw, rfl⟩
    · refine finalized_set rfl hc hfinalized hd (fun h => ?_)
      rw [hcleaned h] at hd'
      cases hd'
    · exact finalized_set rfl hc hfinalized hd (fun h => by rw [hnot _ hw] at h; cases h)
    · exact finalized_set rfl hc hfinalized hd (fun h => by rw [hnot _ hw] at h; cases h)
    · exact finalized_set rfl hc hfinalized hd (fun h => by rw [hnot _ hw] at h; cases h)
  | release hd hfree hcalls => exact finalized_set rfl hc hfinalized hd id
  | touch events hd htouches =>
    exact finalized_set rfl hc hfinalized hd (fun h => htouches.gone.2.2.trans h)
  | _ => exact ⟨c, hc, hfinalized⟩

/-! ## Single ownership -/

/-- What holds in every state. -/
structure Arbitrated (n : Node) : Prop where
  disciplined : n.Disciplined
  owned : n.Owned

theorem Arbitrated.step (hn : n.Arbitrated) {e : NodeEvent} (h : n.step host e = some n') :
    n'.Arbitrated :=
  ⟨hn.disciplined.effect (step_effect h), hn.owned.effect hn.disciplined (step_effect h)⟩

theorem arbitrated_initial : initial.Arbitrated where
  disciplined := disciplined_initial
  owned := {
    deviceIds := List.nodup_nil
    sessionIds := List.nodup_nil
    state := fun _ h => by cases h
    kept := fun _ _ h => by cases h
    absent := fun _ _ => ⟨fun _ h => (by cases h), rfl, Finset.notMem_empty _⟩ }

theorem Arbitrated.runs (hn : n.Arbitrated) {events : List NodeEvent}
    (h : Gasoline.runs (Node.step host) n events = some n') : n'.Arbitrated :=
  runs_invariant (I := Arbitrated) (fun _ _ _ hn hstep => hn.step hstep) h hn

/-- A cleanup that has completed stays so in every later state. -/
theorem Arbitrated.finalized_runs (hn : n.Arbitrated) {events : List NodeEvent}
    (h : Gasoline.runs (Node.step host) n events = some n') {session : ℕ} {c : Connection}
    (hc : n.connection session = some c) (hfinalized : c.finalized = true) :
    ∃ c, n'.connection session = some c ∧ c.finalized = true := by
  have hinv := runs_invariant
    (I := fun m : Node => m.Arbitrated ∧ ∃ c, m.connection session = some c ∧ c.finalized = true)
    (fun _ _ _ ⟨hm, c, hc, hf⟩ hstep =>
      ⟨hm.step hstep, finalized_effect hm.disciplined (step_effect hstep) hc hf⟩)
    h ⟨hn, c, hc, hfinalized⟩
  exact hinv.2

/-- **No activation is under way**: no thread is between the locks of
`activate_authorized_peer` and its end. -/
structure NoActivation (n : Node) : Prop where
  replacing : n.replacing = []
  connection : ∀ session c, n.connection session = some c → c.writer.isActivation = false

/-- Where no activation is under way, a session that is ready and not stopping
has its entry. -/
theorem Arbitrated.owner (hn : n.Arbitrated) (hquiet : n.NoActivation) {id : ℕ} {c : Connection}
    (hc : n.session id = some c) (hready : c.ready = true) (hstopping : c.stopping = false) :
    ∃ d ∈ n.registry, d.sessionId = id ∧ ∃ peer, c.authorizedPeer = some peer
      ∧ d.Describes peer := by
  obtain ⟨hc, hreleased⟩ := session_eq_some.mp hc
  have hkept := hn.owned.kept id c hc
  rcases hkept.owned (.inl ⟨hready, hstopping, hreleased⟩) with ⟨d, hd, hs⟩ |
    ⟨r, hr, -⟩ | ⟨other, c', hc', hvictim⟩
  · obtain ⟨-, peer, ⟨-, hpeer⟩ | ⟨a, ha, -⟩, hdescribes⟩ := hkept.owner d hd hs
    · exact ⟨d, hd, hs, peer, hpeer, hdescribes⟩
    · have hnone := hquiet.connection id c hc
      rw [ha] at hnone
      cases hnone
  · rw [hquiet.replacing] at hr
    cases hr
  · have hnone := hquiet.connection other c' hc'
    cases hw : c'.writer with
    | activation a =>
      rw [hw] at hnone
      cases hnone
    | _ =>
      rw [Connection.victim, hw] at hvictim
      cases hvictim

/-- **There is a single ready owner for each peer.** In every state that a
process can reach: the registry has no two entries with one device id or one
session id, and all its entries are ready. Where no activation is under way,
each entry is that of a session that is ready, whose cleanup has not
completed, and whose peer it describes; and each session that is ready and
not stopping has the entry of its device id, so there is at most one. Once
the cleanup of a session has completed, neither the registry nor the live
map nor the connection manager has an entry of it in any later state. And a
cleanup removes no entry of another session. -/
theorem single_ready_owner {events : List NodeEvent}
    (hrun : Gasoline.runs (Node.step host) initial events = some n) :
    (n.registry.map Device.deviceId).Nodup
      ∧ (n.registry.map Device.sessionId).Nodup
      ∧ (∀ d ∈ n.registry, d.state = .ready)
      ∧ (n.NoActivation →
        (∀ d ∈ n.registry, ∃ c peer, n.connection d.sessionId = some c ∧ c.ready = true
            ∧ c.finalized = false ∧ c.authorizedPeer = some peer ∧ d.Describes peer)
          ∧ (∀ id c, n.session id = some c → c.ready = true → c.stopping = false →
            ∃ d ∈ n.registry, d.sessionId = id ∧ ∃ peer, c.authorizedPeer = some peer
              ∧ d.Describes peer)
          ∧ ∀ id id' c c' peer peer', n.session id = some c → c.ready = true →
            c.stopping = false → c.authorizedPeer = some peer → n.session id' = some c' →
            c'.ready = true → c'.stopping = false → c'.authorizedPeer = some peer' →
            peer.deviceId = peer'.deviceId → id = id')
      ∧ (∀ id c, n.connection id = some c → c.finalized = true → ∀ later n',
        Gasoline.runs (Node.step host) n later = some n' →
          (∀ d ∈ n'.registry, d.sessionId ≠ id) ∧ n'.live.lookup id = none ∧ id ∉ n'.manager)
      ∧ ∀ id n', n.step host (.cleanup id) = some n' →
        (∀ d, d.sessionId ≠ id → (d ∈ n'.registry ↔ d ∈ n.registry))
          ∧ (∀ other, other ≠ id → n'.live.lookup other = n.live.lookup other)
          ∧ ∀ other, other ≠ id → (other ∈ n'.manager ↔ other ∈ n.manager) := by
  have hn := arbitrated_initial.runs hrun
  refine ⟨hn.owned.deviceIds, hn.owned.sessionIds, hn.owned.state, fun hquiet => ⟨?_, ?_, ?_⟩,
    ?_, ?_⟩
  · intro d hd
    cases hc : n.connection d.sessionId with
    | none => exact absurd rfl ((hn.owned.absent _ hc).registry d hd)
    | some c =>
      obtain ⟨hgone, peer, hclaims, hdescribes⟩ := (hn.owned.kept _ c hc).owner d hd rfl
      have hfinalized : c.finalized = false := by
        have hnone := hquiet.connection _ c hc
        unfold Connection.deviceGone at hgone
        unfold Connection.finalized
        cases hw : c.writer <;> simp_all
      rcases hclaims with ⟨hready, hpeer⟩ | ⟨a, ha, -⟩
      · exact ⟨c, peer, rfl, hready, hfinalized, hpeer, hdescribes⟩
      · have hnone := hquiet.connection _ c hc
        rw [ha] at hnone
        cases hnone
  · intro id c hc hready hstopping
    exact hn.owner hquiet hc hready hstopping
  · intro id id' c c' peer peer' hc hready hstopping hpeer hc' hready' hstopping' hpeer' hid
    obtain ⟨d, hd, rfl, p, hp, hdescribes⟩ := hn.owner hquiet hc hready hstopping
    obtain ⟨d', hd', rfl, p', hp', hdescribes'⟩ := hn.owner hquiet hc' hready' hstopping'
    obtain rfl := Option.some.inj (hpeer.symm.trans hp)
    obtain rfl := Option.some.inj (hpeer'.symm.trans hp')
    have heq := List.inj_on_of_nodup_map hn.owned.deviceIds hd hd'
      (hdescribes.deviceId.trans (hid.trans hdescribes'.deviceId.symm))
    rw [heq]
  · intro id c hc hfinalized later n' hlater
    have hn' := hn.runs hlater
    obtain ⟨c', hc', hfinalized'⟩ := hn.finalized_runs hlater hc hfinalized
    have hkept := hn'.owned.kept id c' hc'
    have hgone : c'.deviceGone = true ∧ c'.liveGone = true := by
      unfold Connection.deviceGone Connection.liveGone
      unfold Connection.finalized at hfinalized'
      cases hw : c'.writer <;> simp_all
    refine ⟨fun d hd hs => ?_, ?_, fun hmanager => ?_⟩
    · have hnot := (hkept.owner d hd hs).1
      rw [hgone.1] at hnot
      cases hnot
    · rw [← Option.not_isSome_iff_eq_none]
      intro hlive
      have hnot := hkept.live hlive
      rw [hgone.2] at hnot
      cases hnot
    · have hnot := hkept.manager hmanager
      rw [hfinalized'] at hnot
      cases hnot
  · intro id n' hcleanup
    obtain ⟨c, hc, hm⟩ := Option.bind_eq_some_iff.mp hcleanup
    rcases cleanup_cases hm with ⟨-, -, -, rfl⟩ | ⟨-, rfl⟩ | ⟨-, rfl⟩ | ⟨-, rfl⟩
    · exact ⟨fun _ _ => .rfl, fun _ _ => rfl, fun _ _ => .rfl⟩
    · exact ⟨fun _ _ => .rfl, fun _ hne => AList.lookup_erase_ne hne, fun _ _ => .rfl⟩
    · refine ⟨fun d hne => ?_, fun _ _ => rfl, fun _ _ => .rfl⟩
      show d ∈ List.filter _ n.registry ↔ d ∈ n.registry
      rw [List.mem_filter, decide_eq_true_eq]
      exact and_iff_left hne
    · exact ⟨fun _ _ => .rfl, fun _ _ => rfl, fun _ hne => by simp [hne]⟩

/-- The peer connects, and then this device connects to it too: the second
connection is the preferred one and replaces the first, which is cleaned
up. -/
def replacement : List NodeEvent :=
  [.store ⟨0, .importDeviceForAdmin TrustStores.sampleDevice, true⟩, .create false, .create true]
    ++ activation 1 ++ activation 2 ++ [.replace ⟨2, 1⟩] ++ List.replicate 4 (.cleanup 1)

/-- The hypothesis is met by a replacement, and then the owner is ready. -/
theorem single_ready_owner_replacement :
    ∃ (n : Node) (c : Connection), Gasoline.runs (Node.step sampleHost) initial replacement = some n
      ∧ n.registry.map Device.sessionId = [2] ∧ n.connection 2 = some c ∧ c.ready = true
      ∧ n.live.lookup 1 = none := by
  obtain ⟨n, hrun, hn⟩ : ∃ n, Gasoline.runs (Node.step sampleHost) initial replacement = some n
      ∧ (n.replacing.isEmpty && n.nextSession == 3
          && n.registry.map Device.sessionId == [2]
          && (List.range 3).map (fun s => (n.connection s).map (fun c =>
            (c.writer.isActivation, c.finalized)))
          == [none, some (false, true), some (false, false)]) = true :=
    Option.map_eq_some_iff.mp (by decide +kernel)
  simp only [Bool.and_eq_true, beq_iff_eq, List.range, List.range.loop, List.map_cons,
    List.map_nil, List.cons.injEq, and_true] at hn
  obtain ⟨⟨⟨hreplacing, hnext⟩, hregistry⟩, h0, h1, h2⟩ := hn
  have hquiet : n.NoActivation := by
    refine ⟨List.isEmpty_iff.mp hreplacing, fun session c hc => ?_⟩
    have hlt := (arbitrated_initial.runs hrun).disciplined.lt hc
    rw [hnext] at hlt
    interval_cases session
    · rw [hc] at h0
      cases h0
    · rw [hc] at h1
      exact (Prod.mk.inj (Option.some.inj h1)).1
    · rw [hc] at h2
      exact (Prod.mk.inj (Option.some.inj h2)).1
  obtain ⟨-, -, -, hsessions, hgone, -⟩ := single_ready_owner hrun
  obtain ⟨c₁, hc₁, hflags₁⟩ := Option.map_eq_some_iff.mp h1
  obtain ⟨-, hlive, -⟩ := hgone 1 c₁ hc₁ (Prod.mk.inj hflags₁).2 [] n rfl
  obtain ⟨d, hd, hds⟩ := List.mem_map.mp
    (show 2 ∈ n.registry.map Device.sessionId by rw [hregistry]; exact List.mem_cons_self)
  obtain ⟨c, peer, hc, hready, -⟩ := (hsessions hquiet).1 d hd
  exact ⟨n, c, hrun, hregistry, hds ▸ hc, hready, hlive⟩

end Node

end Gasoline
