import Gasoline.NodeEffects
import Gasoline.TrustReading

/-!
# No ready session escapes revocation

The monitor looks at the change token about ten times a second and scans the
live sessions when it has moved, or when a session was registered since.
Where it waits with nothing left to do, every session that is ready has the
authorization that the store has.

A live entry that is no longer current is always on its way to the monitor
(`Node.Scanned`): the token differs from the last one the monitor saw, or a
scan is forced, or the scan that is under way still comes to the entry. And
a session that is ready is in the live map until the callback that
disconnects it is due (`Node.Guarded`). Both hold in every state, so also
where a commit comes between the validation and the registration of a
session, or between the reading of the token, the snapshot and the check of
an entry.
-/

namespace Gasoline

/-- **The store has exactly this authorization**: the device is active with
this key, at this revision and with these permissions. -/
def LiveAuthorization.Current (db : Database) (live : LiveAuthorization) : Prop :=
  TrustStore.findActiveAuthorization db live.uuid live.publicKey
    = .ok (some ⟨live.revision, live.permissions⟩)

theorem current_of_stored {db : Database} {fails : Bool} {live : LiveAuthorization}
    (h : SessionAuthentication.stored db fails live.uuid live.publicKey live.revision
      live.permissions = true) : live.Current db := by
  simp only [SessionAuthentication.stored, Bool.and_eq_true] at h
  obtain ⟨-, h⟩ := h
  split at h
  · rename_i current hfind
    rw [Bool.and_eq_true, beq_iff_eq, beq_iff_eq] at h
    rw [LiveAuthorization.Current, hfind, ← h.1, ← h.2]
  · cases h

/-- The monitor comes to the entry in what it is doing. -/
def Monitor.Covers : Monitor → LiveEntry → Prop
  | .top, _ => False
  | .waiting _, _ => False
  | .woken forceScan, _ => forceScan = true
  | .snapshot, _ => True
  | .scanning todo, entry => entry ∈ todo
  | .stale found todo, entry => entry = found ∨ entry ∈ todo
  | .invoking _ todo, entry => entry ∈ todo
  | .stopped, _ => True

namespace Node

variable {host : Host} {n n' : Node}

/-! ## Live entries -/

/-- A live entry is current, or the monitor will come to it. -/
def Watched (n : Node) (entry : LiveEntry) : Prop :=
  entry.2.Current n.database ∨ n.forceScan = true ∨ n.lastToken ≠ some n.token
    ∨ n.monitor.Covers entry

/-- **Every live entry is current, or the monitor will come to it.** The
monitor has seen no token that is still to come. -/
structure Scanned (n : Node) : Prop where
  wellFormed : n.database.WellFormed
  seen : ∀ t, n.lastToken = some t → t.localGeneration ≤ n.token.localGeneration
    ∧ t.externalGeneration ≤ n.token.externalGeneration
  live : ∀ session live, n.live.lookup session = some live → n.Watched ⟨session, live⟩

/-- What the invariant does not speak of, and entries that are gone. -/
theorem Scanned.congr (hn : n.Scanned) {m : Node} (hstores : m.stores = n.stores)
    (htoken : m.lastToken = n.lastToken) (hforce : m.forceScan = n.forceScan)
    (hmonitor : m.monitor = n.monitor)
    (hlive : ∀ session live, m.live.lookup session = some live →
      n.live.lookup session = some live) : m.Scanned where
  wellFormed := by
    rw [database, hstores]
    exact hn.wellFormed
  seen t ht := by
    rw [token, hstores]
    exact hn.seen t (htoken ▸ ht)
  live session live h := by
    have hwatched := hn.live session live (hlive session live h)
    unfold Watched database token at hwatched ⊢
    rwa [hstores, hforce, htoken, hmonitor]

theorem lookup_of_erase {live : LiveMap} {erased session : ℕ} {a : LiveAuthorization}
    (h : (live.erase erased).lookup session = some a) :
    session ≠ erased ∧ live.lookup session = some a := by
  by_cases hsession : session = erased
  · subst hsession
    rw [AList.lookup_erase] at h
    cases h
  · rw [AList.lookup_erase_ne hsession] at h
    exact ⟨hsession, h⟩

/-- **A commit**: the token moves, or every authorization stays. -/
theorem Scanned.store (hn : n.Scanned) {e : StoreEvent} {stores : TrustStores}
    (h : n.stores.step e = some stores) : ({ n with stores := stores } : Node).Scanned := by
  obtain ⟨hlocal, hexternal, hsame⟩ := TrustStores.changeToken_step hn.wellFormed h 0
  refine ⟨(TrustStores.step_cases hn.wellFormed h).1, fun t ht => ?_, fun session live hlive => ?_⟩
  · obtain ⟨h₁, h₂⟩ := hn.seen t ht
    exact ⟨h₁.trans hlocal, h₂.trans hexternal⟩
  · by_cases htoken : n.lastToken = some (stores.changeToken 0)
    · -- the monitor has seen the token there is now, so it was the token before
      obtain ⟨h₁, h₂⟩ := hn.seen _ htoken
      have heq : stores.changeToken 0 = n.stores.changeToken 0 := by
        have hl := le_antisymm h₁ hlocal
        have he := le_antisymm h₂ hexternal
        cases hx : stores.changeToken 0
        cases hy : n.token
        rw [hx, hy] at hl he
        rw [token] at hy
        rw [hy]
        exact congrArg₂ ChangeToken.mk hl he
      rcases hn.live session live hlive with hcurrent | hforce | hlast | hcovers
      · exact .inl ((hsame heq _ _).trans hcurrent)
      · exact .inr (.inl hforce)
      · exact absurd (htoken.trans (congrArg some heq)) hlast
      · exact .inr (.inr (.inr hcovers))
    · exact .inr (.inr (.inl htoken))

/-- What the monitor does not know of stays. -/
theorem Watched.next {entry : LiveEntry} (h : n.Watched entry) {m : Node}
    (hstores : m.stores = n.stores) (hforce : n.forceScan = true → m.Watched entry)
    (htoken : n.lastToken ≠ some n.token → m.Watched entry)
    (hcovers : n.monitor.Covers entry → m.Watched entry) : m.Watched entry := by
  rcases h with hcurrent | h | h | h
  · left
    rwa [database, hstores]
  · exact hforce h
  · exact htoken h
  · exact hcovers h

/-- **A step of the monitor** leaves no entry behind. -/
theorem Scanned.monitor (hn : n.Scanned) {fails : Bool} (h : n.runMonitor fails = some n') :
    n'.Scanned := by
  have hseen : ∀ t, some n.token = some t → t.localGeneration ≤ n.token.localGeneration
      ∧ t.externalGeneration ≤ n.token.externalGeneration := by
    rintro t ⟨⟩
    exact ⟨le_rfl, le_rfl⟩
  -- where neither `force_scan_` nor the last token changes, only the monitor's place matters
  have hmove : ∀ monitor, (∀ session live, n.live.lookup session = some live →
      n.monitor.Covers ⟨session, live⟩ → live.Current n.database ∨ monitor.Covers ⟨session, live⟩) →
      ({ n with monitor := monitor } : Node).Scanned := by
    intro monitor hcovers
    refine ⟨hn.wellFormed, hn.seen, fun session live hlive => ?_⟩
    refine (hn.live session live hlive).next rfl (fun h => .inr (.inl h))
      (fun h => .inr (.inr (.inl h))) (fun h => ?_)
    rcases hcovers session live hlive h with hcurrent | hcovers
    · exact .inl hcurrent
    · exact .inr (.inr (.inr hcovers))
  unfold runMonitor at h
  split at h
  · rename_i hmonitor
    cases h
    exact hmove _ (fun _ _ _ h => by rw [hmonitor] at h; exact h.elim)
  · rename_i timed hmonitor
    split at h
    · split at h
      · cases h
        exact hmove _ (fun _ _ _ h => by rw [hmonitor] at h; exact h.elim)
      · cases h
        -- the monitor takes `force_scan_` with it
        refine ⟨hn.wellFormed, hn.seen, fun session live hlive => ?_⟩
        refine (hn.live session live hlive).next rfl (fun h => .inr (.inr (.inr h)))
          (fun h => .inr (.inr (.inl h))) (fun h => ?_)
        rw [hmonitor] at h
        exact h.elim
    · cases h
  · rename_i forceScan hmonitor
    split at h
    · cases h
      exact ⟨hn.wellFormed, fun _ h => (by cases h), fun _ _ _ => .inr (.inr (.inr trivial))⟩
    · split at h
      · cases h
        exact ⟨hn.wellFormed, hseen, fun _ _ _ => .inr (.inr (.inr trivial))⟩
      · rename_i hscan
        simp only [Bool.or_eq_true, decide_eq_true_eq, not_or, not_not] at hscan
        cases h
        refine ⟨hn.wellFormed, hseen, fun session live hlive => ?_⟩
        refine (hn.live session live hlive).next rfl (fun h => .inr (.inl h))
          (fun h => absurd hscan.2 h) (fun h => ?_)
        rw [hmonitor] at h
        exact absurd h hscan.1
  · cases h
    exact hmove _ (fun _ _ hlive _ => .inr (AList.mem_lookup_iff.mp hlive))
  · rename_i hmonitor
    cases h
    exact hmove _ (fun _ _ _ h => by rw [hmonitor] at h; cases h)
  · rename_i entry todo hmonitor
    split at h
    · rename_i hstored
      cases h
      refine hmove _ (fun _ _ _ h => ?_)
      rw [hmonitor] at h
      rcases List.mem_cons.mp h with rfl | h
      · exact .inl (current_of_stored hstored)
      · exact .inr h
    · cases h
      refine hmove _ (fun _ _ _ h => .inr ?_)
      rw [hmonitor] at h
      exact List.mem_cons.mp h
  · rename_i entry todo hmonitor
    -- a live entry that is still to come is not the one that was found stale
    have htodo : ∀ {session live}, (⟨session, live⟩ : LiveEntry) ≠ entry →
        n.monitor.Covers ⟨session, live⟩ → (⟨session, live⟩ : LiveEntry) ∈ todo := by
      intro session live hne hcovers
      rw [hmonitor] at hcovers
      exact hcovers.resolve_left hne
    split at h
    · rename_i hnone
      cases h
      refine hmove _ (fun session live hlive h => .inr (htodo ?_ h))
      rintro rfl
      rw [hnone] at hlive
      cases hlive
    · rename_i found hfound
      split at h
      · rename_i hdiffers
        cases h
        refine hmove _ (fun session live hlive h => .inr (htodo ?_ h))
        rintro rfl
        obtain rfl := Option.some.inj (hfound.symm.trans hlive)
        simp at hdiffers
      · cases h
        refine ⟨hn.wellFormed, hn.seen, fun session live hlive => ?_⟩
        obtain ⟨hsession, hlive⟩ := lookup_of_erase hlive
        refine (hn.live session live hlive).next rfl (fun h => .inr (.inl h))
          (fun h => .inr (.inr (.inl h))) (fun h => .inr (.inr (.inr (htodo ?_ h))))
        rintro rfl
        exact hsession rfl
  · rename_i session todo hmonitor
    obtain ⟨m, hm, rfl⟩ := Option.map_eq_some_iff.mp h
    have hscanned : ({ n with monitor := .scanning todo } : Node).Scanned :=
      hmove _ (fun _ _ _ h => by rw [hmonitor] at h; exact .inr h)
    rcases disconnect_cases hm with ⟨rfl, -⟩ | ⟨c, c', -, -, rfl⟩
    · exact hscanned
    · exact hscanned.congr rfl rfl rfl rfl (fun _ _ h => h)
  · cases h

/-- **Every step leaves every live entry current, or on its way to the
monitor.** -/
theorem Scanned.effect (hn : n.Scanned) (h : Effect host n n') : n'.Scanned := by
  cases h with
  | idle => exact hn
  | store h => exact hn.store h
  | create outgoing => exact hn.congr rfl rfl rfl rfl (fun _ _ h => h)
  | calls h => exact hn.congr rfl rfl rfl rfl (fun _ _ h => h)
  | lock => exact hn.congr rfl rfl rfl rfl (fun _ _ h => h)
  | activate hc ha =>
    unfold Node.activate
    split
    · split
      · exact hn.congr rfl rfl rfl rfl (fun _ _ h => h)
      · exact hn.congr rfl rfl rfl rfl (fun _ _ h => h)
    · split
      · exact hn.congr rfl rfl rfl rfl (fun _ _ h => h)
      · exact ⟨hn.wellFormed, hn.seen, fun _ _ _ => .inr (.inl rfl)⟩
    · split
      · exact hn.congr rfl rfl rfl rfl (fun _ _ h => h)
      · exact hn.congr rfl rfl rfl rfl (fun _ _ h => h)
    · exact hn.congr rfl rfl rfl rfl (fun _ _ h => (lookup_of_erase h).2)
    · exact hn.congr rfl rfl rfl rfl (fun _ _ h => h)
    · exact hn.congr rfl rfl rfl rfl (fun _ _ h => h)
  | replace hr hm =>
    rcases disconnect_cases hm with ⟨rfl, -⟩ | ⟨c, c', -, -, rfl⟩
    · exact hn.congr rfl rfl rfl rfl (fun _ _ h => h)
    · exact hn.congr rfl rfl rfl rfl (fun _ _ h => h)
  | monitor h => exact hn.monitor h
  | stopAuthentication => exact hn.congr rfl rfl rfl rfl (fun _ _ h => h)
  | cleanup hc hm =>
    rcases cleanup_cases hm with ⟨-, -, -, rfl⟩ | ⟨-, rfl⟩ | ⟨-, rfl⟩ | ⟨-, rfl⟩
    · exact hn.congr rfl rfl rfl rfl (fun _ _ h => h)
    · exact hn.congr rfl rfl rfl rfl (fun _ _ h => (lookup_of_erase h).2)
    · exact hn.congr rfl rfl rfl rfl (fun _ _ h => h)
    · exact hn.congr rfl rfl rfl rfl (fun _ _ h => h)
  | release => exact hn.congr rfl rfl rfl rfl (fun _ _ h => h)
  | forget => exact hn.congr rfl rfl rfl rfl (fun _ _ h => h)
  | touch => exact hn.congr rfl rfl rfl rfl (fun _ _ h => h)
  | consumeEvents => exact hn.congr rfl rfl rfl rfl (fun _ _ h => h)

/-! ## Ready sessions -/

/-- The activation has registered its live session, and not withdrawn it. -/
def isRegistered : ActivationStage → Bool
  | .registered => true
  | .published _ => true
  | .assigned _ => true
  | _ => false

/-- The connection has an authorization that a revocation must reach: it is
ready and not stopping, or it is about to be ready. -/
def Holds (c : Connection) (peer : AuthorizedPeer) : Prop :=
  (c.ready = true ∧ c.stopping = false ∧ c.released = false ∧ c.authorizedPeer = some peer)
    ∨ ∃ a, c.writer = .activation a ∧ isRegistered a.stage = true ∧ a.peer = peer

/-- The authorization is in the live map, or the callback is due. -/
def Guards (n : Node) (session : ℕ) (peer : AuthorizedPeer) : Prop :=
  n.live.lookup session = some peer.live ∨ ∃ todo, n.monitor = .invoking session todo

/-- **Every authorization that a session has is in the live map**, until the
callback that disconnects the session is due. -/
def Guarded (n : Node) : Prop :=
  ∀ session c peer, n.connection session = some c → Holds c peer → n.Guards session peer

/-- A change that leaves the authorization alone leaves what it holds. -/
theorem Holds.touches {c c' : Connection} {peer : AuthorizedPeer} (h : Holds c' peer)
    (htouches : c.Touches c') : Holds c peer := by
  rcases h with ⟨hready, hstopping, hreleased, hpeer⟩ | ⟨a, ha, hstage⟩
  · refine .inl ⟨htouches.ready ▸ hready, ?_, htouches.released ▸ hreleased,
      htouches.authorizedPeer ▸ hpeer⟩
    rcases htouches.stopping with heq | ⟨htrue, -⟩
    · exact heq ▸ hstopping
    · rw [hstopping] at htrue
      cases htrue
  · refine .inr ⟨a, ?_, hstage⟩
    rcases htouches.writer with heq | ⟨-, hplain⟩
    · exact heq ▸ ha
    · exact absurd ha (Writer.ne_activation_of_isPlain hplain a)

/-- A session that is stopping has nothing, unless it is being activated. -/
theorem not_holds_of_stopping {c : Connection} {peer : AuthorizedPeer} (hstopping : c.stopping = true)
    (hwriter : c.writer.isActivation = false) : ¬ Holds c peer := by
  rintro (⟨-, h, -⟩ | ⟨a, ha, -⟩)
  · rw [hstopping] at h
    cases h
  · rw [ha] at hwriter
    cases hwriter

theorem not_holds_of_not_ready {c : Connection} {peer : AuthorizedPeer} (hready : c.ready = false)
    (hwriter : ∀ a, c.writer = .activation a → isRegistered a.stage = false) : ¬ Holds c peer := by
  rintro (⟨h, -⟩ | ⟨a, ha, hstage, -⟩)
  · rw [hready] at h
    cases h
  · rw [hwriter a ha] at hstage
    cases hstage

theorem Guarded.set (hn : n.Guarded) {session : ℕ} {c' : Connection} {m : Node}
    (hm : m.connection = (n.setConnection session c').connection)
    (hsession : ∀ peer, Holds c' peer → m.Guards session peer)
    (hothers : ∀ other peer, other ≠ session → n.Guards other peer → m.Guards other peer) :
    m.Guarded := by
  intro other c peer hc hholds
  rw [hm, setConnection_connection] at hc
  split at hc
  · rename_i heq
    obtain rfl := Option.some.inj hc
    exact heq ▸ hsession peer hholds
  · rename_i hne
    exact hothers other peer hne (hn other c peer hc hholds)

theorem Guarded.congr (hn : n.Guarded) {m : Node} (hconnection : m.connection = n.connection)
    (hguards : ∀ session peer, n.Guards session peer → m.Guards session peer) : m.Guarded :=
  fun session c peer hc hholds => hguards session peer (hn session c peer (hconnection ▸ hc) hholds)

/-- A change that leaves the authorization of a connection alone. -/
theorem Guarded.touch (hn : n.Guarded) {session : ℕ} {c c' : Connection} {m : Node}
    (hc : n.connection session = some c) (htouches : c.Touches c')
    (hm : m.connection = (n.setConnection session c').connection)
    (hguards : ∀ other peer, n.Guards other peer → m.Guards other peer) : m.Guarded :=
  hn.set hm (fun peer h => hguards session peer (hn session c peer hc (h.touches htouches)))
    (fun other peer _ => hguards other peer)

theorem Guards.erase {session other : ℕ} {peer : AuthorizedPeer} (h : n.Guards other peer)
    (hne : other ≠ session) {m : Node} (hlive : m.live = n.live.erase session)
    (hmonitor : m.monitor = n.monitor) : m.Guards other peer := by
  rcases h with h | h
  · left
    rwa [hlive, AList.lookup_erase_ne hne]
  · right
    rwa [hmonitor]

/-- **An activation** registers its session before it is ready. -/
theorem Guarded.activate (hn : n.Guarded) (hdisciplined : n.Disciplined) {session : ℕ}
    {c : Connection} {a : Activation} {fails : Bool} (hc : n.connection session = some c)
    (ha : c.writer = .activation a) : (n.activate host c session a fails).Guarded := by
  have hdisc := hdisciplined.connection session c hc
  have hready := (hdisc.activation a ha).1
  -- a step to a stage before registration, or out of the lock
  have hbefore : ∀ (w : Writer) (m : Node), (∀ b, w = .activation b → isRegistered b.stage = false) →
      m.connection = (n.setConnection session { c with writer := w }).connection →
      (∀ other peer, other ≠ session → n.Guards other peer → m.Guards other peer) → m.Guarded :=
    fun w m hw hm hothers => hn.set hm
      (fun peer h => absurd h (not_holds_of_not_ready hready hw)) hothers
  have hguards : isRegistered a.stage = true → n.Guards session a.peer :=
    fun hstage => hn session c a.peer hc (.inr ⟨a, ha, hstage, rfl⟩)
  unfold Node.activate
  split
  · split
    · exact hbefore (.activation _) _ (fun b hb => by cases hb; rfl) rfl (fun _ _ _ h => h)
    · exact hbefore .free _ (fun b hb => by cases hb) rfl (fun _ _ _ h => h)
  · split
    · exact hbefore .free _ (fun b hb => by cases hb) rfl (fun _ _ _ h => h)
    · refine hn.set rfl (fun peer h => ?_) (fun other peer hne h => ?_)
      · rcases h with ⟨h, -⟩ | ⟨b, hb, -, rfl⟩
        · exact absurd h (by simp [hready])
        · cases hb
          exact .inl (AList.lookup_insert _)
      · rcases h with h | h
        · exact .inl ((AList.lookup_insert_ne hne).trans h)
        · exact .inr h
  · rename_i hstage
    split
    · exact hbefore (.activation _) _ (fun b hb => by cases hb; rfl) rfl (fun _ _ _ h => h)
    · refine hn.set rfl (fun peer h => ?_) (fun _ _ _ h => h)
      rcases h with ⟨h, -⟩ | ⟨b, hb, -, rfl⟩
      · exact absurd h (by simp [hready])
      · cases hb
        exact hguards (by rw [hstage]; rfl)
  · exact hbefore .free _ (fun b hb => by cases hb) rfl (fun _ _ hne h => h.erase hne rfl rfl)
  · rename_i replaced hstage
    refine hn.set rfl (fun peer h => ?_) (fun _ _ _ h => h)
    rcases h with ⟨h, -⟩ | ⟨b, hb, -, rfl⟩
    · exact absurd h (by simp [hready])
    · cases hb
      exact hguards (by rw [hstage]; rfl)
  · rename_i replaced hstage
    refine hn.set rfl (fun peer h => ?_) (fun _ _ _ h => h)
    rcases h with ⟨-, -, -, hpeer⟩ | ⟨b, hb, -⟩
    · have hassigned := hdisc.assigned a replaced ha hstage
      obtain rfl := Option.some.inj (hassigned.symm.trans hpeer)
      exact hguards (by rw [hstage]; rfl)
    · cases hb

/-- **A step of the monitor**: an entry that is taken out of the live map has
its callback due, and the callback stops the session. -/
theorem Guarded.monitor (hn : n.Guarded) (hdisciplined : n.Disciplined) {fails : Bool}
    (h : n.runMonitor fails = some n') : n'.Guarded := by
  rcases runMonitor_cases h with ⟨hmonitor, monitor, forceScan, lastToken, rfl⟩ |
    ⟨entry, todo, hmonitor, rfl⟩ | ⟨session, todo, m, hmonitor, hm, rfl⟩
  · refine hn.congr rfl (fun session peer h => h.imp_right ?_)
    rintro ⟨todo, h⟩
    exact absurd h (hmonitor session todo)
  · refine hn.congr rfl (fun session peer h => ?_)
    by_cases hsession : session = entry.1
    · exact .inr ⟨todo, by rw [hsession]⟩
    · rcases h with h | ⟨todo', h⟩
      · exact .inl ((AList.lookup_erase_ne hsession).trans h)
      · rw [hmonitor] at h
        cases h
  · -- guards of other sessions are in the live map
    have hothers : ∀ other peer, other ≠ session → n.Guards other peer →
        ({ m with monitor := .scanning todo } : Node).Guards other peer := by
      rintro other peer hne (hlive | ⟨todo', hinvoking⟩)
      · left
        rcases disconnect_cases hm with ⟨rfl, -⟩ | ⟨c, c', -, -, rfl⟩
        · exact hlive
        · exact hlive
      · rw [hmonitor] at hinvoking
        cases hinvoking
        exact absurd rfl hne
    rcases disconnect_cases hm with ⟨rfl, hreleased⟩ | ⟨c, c', hc, hc', rfl⟩
    · intro other c peer hc hholds
      by_cases hother : other = session
      · subst hother
        have hgone := hreleased c hc
        rcases hholds with ⟨-, -, h, -⟩ | ⟨a, ha, -⟩
        · rw [hgone] at h
          cases h
        · rw [((hdisciplined.connection other c hc).activation a ha).2.2] at hgone
          cases hgone
      · exact hothers other peer hother (hn other c peer hc hholds)
    · have htouches := Connection.requestDisconnect_touches hc'
      have hinactive : c'.writer.isActivation = false := by
        simp only [Connection.requestDisconnect] at hc'
        split at hc'
        · cases hc'
        · rename_i hactivation
          obtain rfl := Option.some.inj hc'
          simpa using hactivation
      exact hn.set rfl (fun peer h => absurd h
        (not_holds_of_stopping (Connection.requestDisconnect_stopping hc') hinactive)) hothers

/-- **Every step keeps every authorization in the live map, or its callback
due.** -/
theorem Guarded.effect (hn : n.Guarded) (hdisciplined : n.Disciplined) (h : Effect host n n') :
    n'.Guarded := by
  cases h with
  | idle => exact hn
  | store h => exact hn.congr rfl (fun _ _ h => h)
  | create outgoing =>
    refine hn.set rfl (fun peer h => ?_) (fun _ _ _ h => h)
    exact absurd h (not_holds_of_not_ready rfl (fun _ h => by cases h))
  | calls h => exact hn.congr rfl (fun _ _ h => h)
  | lock hcalls hcall hc hfree hstopping hready =>
    refine hn.set rfl (fun peer h => ?_) (fun _ _ _ h => h)
    refine absurd h (not_holds_of_not_ready hready (fun b hb => ?_))
    cases hb
    rfl
  | activate hc ha => exact hn.activate hdisciplined hc ha
  | replace hr hm =>
    rcases disconnect_cases hm with ⟨rfl, -⟩ | ⟨c, c', hc, hc', rfl⟩
    · exact hn.congr rfl (fun _ _ h => h)
    · exact hn.touch hc (Connection.requestDisconnect_touches hc') rfl (fun _ _ h => h)
  | monitor h => exact hn.monitor hdisciplined h
  | stopAuthentication => exact hn.congr rfl (fun _ _ h => h)
  | cleanup hc hm =>
    rename_i session c
    have hstopping : ∀ stage, c.writer = .cleanup stage → c.stopping = true := fun stage h =>
      (hdisciplined.connection session c hc).cleaned
        ((hdisciplined.connection session c hc).cleanup stage h)
    rcases cleanup_cases hm with ⟨-, h, -, rfl⟩ | ⟨h, rfl⟩ | ⟨h, rfl⟩ | ⟨h, rfl⟩
    · exact hn.set rfl (fun _ hholds => absurd hholds (not_holds_of_stopping h rfl))
        (fun _ _ _ h => h)
    · exact hn.set rfl (fun _ hholds => absurd hholds (not_holds_of_stopping (hstopping _ h) rfl))
        (fun _ _ hne h => h.erase hne rfl rfl)
    · exact hn.set rfl (fun _ hholds => absurd hholds (not_holds_of_stopping (hstopping _ h) rfl))
        (fun _ _ _ h => h)
    · exact hn.set rfl (fun _ hholds => absurd hholds (not_holds_of_stopping (hstopping _ h) rfl))
        (fun _ _ _ h => h)
  | release hc hfree hcalls =>
    refine hn.set rfl (fun peer h => ?_) (fun _ _ _ h => h)
    rcases h with ⟨-, -, h, -⟩ | ⟨a, ha, -⟩
    · cases h
    · exact absurd (hfree.symm.trans ha) (by simp)
  | forget session => exact hn.congr rfl (fun _ _ h => h)
  | touch events hc htouches => exact hn.touch hc htouches rfl (fun _ _ h => h)
  | consumeEvents => exact hn.congr rfl (fun _ _ h => h)

/-! ## The monitor at rest -/

/-- What holds in every state. -/
structure Supervised (n : Node) : Prop where
  disciplined : n.Disciplined
  scanned : n.Scanned
  guarded : n.Guarded

theorem Supervised.step (hn : n.Supervised) {e : NodeEvent} (h : n.step host e = some n') :
    n'.Supervised :=
  ⟨hn.disciplined.effect (step_effect h), hn.scanned.effect (step_effect h),
    hn.guarded.effect hn.disciplined (step_effect h)⟩

theorem supervised_initial : initial.Supervised where
  disciplined := disciplined_initial
  scanned := ⟨Database.wellFormed_empty, fun _ h => (by cases h), fun _ _ h => (by cases h)⟩
  guarded _ _ _ h := by cases h

theorem supervised_of_runs {events : List NodeEvent}
    (h : runs (Node.step host) initial events = some n) : n.Supervised :=
  runs_invariant (I := Supervised) (fun _ _ _ hn hstep => hn.step hstep) h supervised_initial

/-- **The monitor is about to wait, with nothing pending**: no scan is under
way and no callback is due, no scan is forced, and the token is the last one
it saw. -/
structure AtRest (n : Node) : Prop where
  monitor : n.monitor = .top ∨ ∃ timed, n.monitor = .waiting timed
  forceScan : n.forceScan = false
  token : n.lastToken = some n.token

/-- **A session**: a connection that someone refers to. One whose last
reference is gone is in its destructor, which stops it first. -/
def session (n : Node) (id : ℕ) : Option Connection :=
  (n.connection id).filter (fun c => !c.released)

theorem session_eq_some {id : ℕ} {c : Connection} :
    n.session id = some c ↔ n.connection id = some c ∧ c.released = false := by
  rw [session, Option.filter_eq_some_iff, Bool.not_eq_true']

/-- **No ready session escapes revocation.** In every state that a process
can reach, with any number of stores committing and any number of sessions
being activated, disconnected and cleaned up, where the monitor is about to
wait with nothing pending, every session that is ready and not stopping has
an authorization that `find_active_authorization` still returns exactly.
This is so whether or not activations are under way. -/
theorem ready_session_current {events : List NodeEvent}
    (hrun : runs (Node.step host) initial events = some n) (hrest : n.AtRest) {id : ℕ}
    {c : Connection} (hc : n.session id = some c) (hready : c.ready = true)
    (hstopping : c.stopping = false) :
    ∃ peer, c.authorizedPeer = some peer
      ∧ TrustStore.findActiveAuthorization n.database peer.uuid peer.publicKey
        = .ok (some ⟨peer.revision, peer.permissions⟩) := by
  have hn := supervised_of_runs hrun
  obtain ⟨hc, hreleased⟩ := session_eq_some.mp hc
  obtain ⟨peer, hpeer⟩ := (hn.disciplined.connection id c hc).ready hready
  refine ⟨peer, hpeer, ?_⟩
  have hlive : n.live.lookup id = some peer.live := by
    rcases hn.guarded id c peer hc (.inl ⟨hready, hstopping, hreleased, hpeer⟩) with h | ⟨todo, h⟩
    · exact h
    · rcases hrest.monitor with hmonitor | ⟨timed, hmonitor⟩
      · rw [hmonitor] at h
        cases h
      · rw [hmonitor] at h
        cases h
  rcases hn.scanned.live id peer.live hlive with hcurrent | hforce | htoken | hcovers
  · exact hcurrent
  · rw [hrest.forceScan] at hforce
    cases hforce
  · exact absurd hrest.token htoken
  · rcases hrest.monitor with hmonitor | ⟨timed, hmonitor⟩
    · rw [hmonitor] at hcovers
      exact hcovers.elim
    · rw [hmonitor] at hcovers
      exact hcovers.elim

/-! ## A session that is activated and scanned -/

/-- The host of the runs below. It parses nothing. -/
def sampleHost : Host where
  myDeviceId := ascii "00000000-0000-4000-8000-000000000000"
  parse := fun _ => .error "no JSON"

/-- The peer that the record of `sampleDevice` authorizes. -/
def samplePeer : AuthorizedPeer where
  uuid := TrustStores.sampleUuid
  publicKey := TrustStores.sampleKey
  deviceId := trustUuidToString TrustStores.sampleUuid
  revision := 1
  permissions := []
  named := rfl

/-- A call for the peer. -/
def sampleCall (session : ℕ) (stage : CallStage) : Call := ⟨session, ascii "peer", ascii "linux", stage⟩

/-- A session is authorized and activated. -/
def activation (session : ℕ) : List NodeEvent :=
  let identity : VerifiedPeerIdentity := ⟨TrustStores.sampleUuid, TrustStores.sampleKey⟩
  [.authenticate session identity (ascii "peer") (ascii "linux") false,
    .advance (sampleCall session (.identified identity)) false false,
    .advance (sampleCall session (.authorized samplePeer)) false false,
    .advance (sampleCall session (.entered samplePeer)) false false]
    ++ List.replicate 5 (.activate session false)

/-- The peer is imported through another store, the session is activated, and
the monitor scans it. -/
def activatedAndScanned : List NodeEvent :=
  [.store ⟨1, .importDeviceForAdmin TrustStores.sampleDevice, true⟩, .create true]
    ++ activation 1 ++ List.replicate 6 (.monitor false)

/-- The hypotheses are met where a session was activated and scanned. -/
theorem ready_session_current_scanned :
    ∃ (n : Node) (c : Connection) (peer : AuthorizedPeer),
      runs (Node.step sampleHost) initial activatedAndScanned = some n ∧ n.AtRest
      ∧ n.session 1 = some c ∧ c.ready = true ∧ c.stopping = false
      ∧ TrustStore.findActiveAuthorization n.database peer.uuid peer.publicKey
        = .ok (some ⟨peer.revision, peer.permissions⟩) := by
  obtain ⟨n, hrun, hn⟩ : ∃ n, runs (Node.step sampleHost) initial activatedAndScanned = some n
      ∧ (n.monitor, n.forceScan, decide (n.lastToken = some n.token),
          (n.session 1).map (fun c => (c.ready, c.stopping)))
        = (.top, false, true, some (true, false)) :=
    Option.map_eq_some_iff.mp (by decide +kernel)
  simp only [Prod.mk.injEq, decide_eq_true_eq] at hn
  obtain ⟨hmonitor, hforce, htoken, hsession⟩ := hn
  obtain ⟨c, hc, hflags⟩ := Option.map_eq_some_iff.mp hsession
  obtain ⟨hready, hstopping⟩ := Prod.mk.inj hflags
  have hrest : n.AtRest := ⟨.inl hmonitor, hforce, htoken⟩
  obtain ⟨peer, -, hcurrent⟩ := ready_session_current hrun hrest hc hready hstopping
  exact ⟨n, c, peer, hrun, hrest, hc, hready, hstopping, hcurrent⟩

end Node

end Gasoline
