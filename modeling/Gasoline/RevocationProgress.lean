import Gasoline.Traffic

/-!
# Revocation comes in time

`Gasoline.Revocation` says what holds where the monitor is at rest. Here is
how soon it comes to that: a ready session whose authorization the store does
not have is stopped before the monitor has begun its loop twice
(`Node.revoked_session_stops`). One beginning is not enough, since the scan
that is under way may have passed the session by; and the answer does not
depend on how many sessions there are, on reads that fail, or on what the
other threads do in between. Nor does it depend on what becomes of the
device: an authorization that the store has lost is behind the device's
revision, and does not come back (`Node.revoked_along`).

Nor can the monitor be kept from it. It waits for nothing but for an
activation that is under way, and an activation waits for nothing, so from
every state the monitor can be brought there by its own steps and those of
activations (`Node.revocation_completes`).
-/

namespace Gasoline

/-- How many steps an activation has before it. -/
def ActivationStage.ahead : ActivationStage → ℕ
  | .locked => 5
  | .validated => 4
  | .registered => 3
  | .rejected => 1
  | .published _ => 2
  | .assigned _ => 1

/-! ## Authorizations do not come back -/

/-- The record of the device has gone past this authorization. -/
def LiveAuthorization.Superseded (db : Database) (live : LiveAuthorization) : Prop :=
  ∃ d, db.ledger.device live.uuid = some d ∧ live.revision.toInt < d.revision.toInt

/-- **The store has granted this authorization**: it has it, or it had it. -/
def LiveAuthorization.Granted (db : Database) (live : LiveAuthorization) : Prop :=
  live.Current db ∨ live.Superseded db

section Grants

variable {s s' : TrustStores} {e : StoreEvent} {live : LiveAuthorization}

/-- What is current is in the record of the device. -/
theorem device_of_current {db : Database} (hwf : db.WellFormed) (h : live.Current db) :
    ∃ d, db.ledger.device live.uuid = some d ∧ d.revision = live.revision := by
  rw [LiveAuthorization.Current, Database.findActiveAuthorization_eq hwf, Except.ok.injEq,
    Option.map_eq_some_iff] at h
  obtain ⟨d, hd, hauthorization⟩ := h
  exact ⟨d, (Option.filter_eq_some_iff.mp hd).1, (ActivePeerAuthorization.mk.inj hauthorization).1⟩

theorem not_current_of_superseded {db : Database} (hwf : db.WellFormed)
    (h : live.Superseded db) : ¬ live.Current db := by
  intro hcurrent
  obtain ⟨d, hd, hlt⟩ := h
  obtain ⟨d', hd', hrevision⟩ := device_of_current hwf hcurrent
  obtain rfl := Option.some.inj (hd.symm.trans hd')
  rw [hrevision] at hlt
  exact lt_irrefl _ hlt

theorem superseded_step (hwf : s.database.WellFormed) (h : s.step e = some s')
    (hlive : live.Superseded s.database) : live.Superseded s'.database := by
  obtain ⟨d, hd, hlt⟩ := hlive
  obtain ⟨d', hd', -, rfl | hrevision⟩ := TrustStores.step_extends hwf h live.uuid d hd
  · exact ⟨d', hd', hlt⟩
  · exact ⟨d', hd', hlt.trans hrevision⟩

/-- **What was granted stays granted**: a write to the record supersedes it. -/
theorem granted_step (hwf : s.database.WellFormed) (h : s.step e = some s')
    (hlive : live.Granted s.database) : live.Granted s'.database := by
  rcases hlive with hcurrent | hsuperseded
  · obtain ⟨d, hd, hrevision⟩ := device_of_current hwf hcurrent
    obtain ⟨d', hd', -, rfl | hlt⟩ := TrustStores.step_extends hwf h live.uuid d hd
    · left
      rw [LiveAuthorization.Current, Database.findActiveAuthorization_eq hwf] at hcurrent
      rw [LiveAuthorization.Current,
        Database.findActiveAuthorization_eq (TrustStores.step_cases hwf h).1, ← hcurrent]
      exact congrArg (fun x => Except.ok ((Option.filter _ x).map _)) (hd'.trans hd.symm)
    · exact .inr ⟨d', hd', hrevision ▸ hlt⟩
  · exact .inr (superseded_step hwf h hsuperseded)

end Grants

/-- The authorizations a connection has were granted. -/
structure Connection.Granted (db : Database) (c : Connection) : Prop where
  authorizedPeer : ∀ peer, c.authorizedPeer = some peer → peer.live.Granted db
  activation : ∀ a, c.writer = .activation a → a.stage ≠ .locked → a.peer.live.Granted db

theorem Connection.Granted.touches {db : Database} {c c' : Connection} (h : c.Granted db)
    (htouches : c.Touches c') : c'.Granted db where
  authorizedPeer peer hpeer := h.authorizedPeer peer (htouches.authorizedPeer ▸ hpeer)
  activation a ha hstage := by
    rcases htouches.writer with heq | ⟨-, hplain⟩
    · exact h.activation a (heq ▸ ha) hstage
    · exact absurd ha (Writer.ne_activation_of_isPlain hplain a)

namespace Node

variable {host : Host} {n n' m : Node} {id : ℕ} {peer : AuthorizedPeer}

/-- **Every authorization there is was granted.** -/
def Granted (n : Node) : Prop :=
  ∀ session c, n.connection session = some c → c.Granted n.database

theorem Granted.set (hn : n.Granted) {session : ℕ} {c' : Connection}
    (hm : m.connection = (n.setConnection session c').connection) (hstores : m.stores = n.stores)
    (hc' : c'.Granted n.database) : m.Granted := by
  intro other c hc
  rw [database, hstores]
  rw [hm, setConnection_connection] at hc
  split at hc
  · obtain rfl := Option.some.inj hc
    exact hc'
  · exact hn other c hc

theorem Granted.disconnect (hn : n.Granted) {session : ℕ} (h : n.disconnect session = some m)
    (hm : n'.connection = m.connection) (hstores : n'.stores = m.stores) : n'.Granted := by
  rcases disconnect_cases h with ⟨rfl, -⟩ | ⟨c, c', hc, hc', rfl⟩
  · intro other d hd
    rw [database, hstores]
    exact hn other d (hm ▸ hd)
  · exact hn.set hm hstores ((hn session c hc).touches (Connection.requestDisconnect_touches hc'))

/-- **An activation** goes on where the store has the authorization. -/
theorem Granted.activate (hn : n.Granted) {session : ℕ} {c : Connection} {a : Activation}
    {fails : Bool} (hc : n.connection session = some c) (ha : c.writer = .activation a) :
    (n.activate host c session a fails).Granted := by
  have hconnection := hn session c hc
  have hgoto : ∀ stage : ActivationStage, a.peer.live.Granted n.database →
      ({ c with writer := .activation { a with stage := stage } } : Connection).Granted
        n.database := by
    intro stage hgranted
    refine ⟨hconnection.authorizedPeer, fun b hb _ => ?_⟩
    cases hb
    exact hgranted
  have hfree : ∀ ready, ({ c with writer := .free, ready := ready } : Connection).Granted
      n.database := fun ready => ⟨hconnection.authorizedPeer, fun b hb => by cases hb⟩
  unfold Node.activate
  split
  · split
    · rename_i hcurrent
      exact hn.set rfl rfl (hgoto _ (.inl (current_of_stored hcurrent)))
    · exact hn.set rfl rfl (hfree _)
  · rename_i hstage
    have hgranted := hconnection.activation a ha (by simp [hstage])
    split
    · exact hn.set rfl rfl (hfree _)
    · exact hn.set rfl rfl (hgoto _ hgranted)
  · rename_i hstage
    have hgranted := hconnection.activation a ha (by simp [hstage])
    split
    · exact hn.set rfl rfl (hgoto _ hgranted)
    · exact hn.set rfl rfl (hgoto _ hgranted)
  · exact hn.set rfl rfl (hfree _)
  · rename_i replaced hstage
    have hgranted := hconnection.activation a ha (by simp [hstage])
    refine hn.set rfl rfl ⟨fun peer hpeer => ?_, fun b hb _ => ?_⟩
    · cases hpeer
      exact hgranted
    · cases hb
      exact hgranted
  · exact hn.set rfl rfl (hfree _)

theorem Granted.effect (hn : n.Granted) (hwf : n.database.WellFormed) (h : Effect host n n') :
    n'.Granted := by
  cases h with
  | store hstore =>
    intro session c hc
    have hconnection := hn session c hc
    exact ⟨fun peer hpeer => granted_step hwf hstore (hconnection.authorizedPeer peer hpeer),
      fun a ha hstage => granted_step hwf hstore (hconnection.activation a ha hstage)⟩
  | create outgoing => exact hn.set rfl rfl ⟨fun _ h => (by cases h), fun _ h => (by cases h)⟩
  | lock hcalls hcall hc =>
    refine hn.set rfl rfl ⟨(hn _ _ hc).authorizedPeer, fun a ha hstage => ?_⟩
    cases ha
    exact absurd rfl hstage
  | activate hc ha => exact hn.activate hc ha
  | replace hr hm => exact hn.disconnect hm rfl rfl
  | monitor h =>
    rcases runMonitor_cases h with ⟨-, monitor, forceScan, lastToken, rfl⟩ |
      ⟨entry, todo, -, rfl⟩ | ⟨session, todo, m, -, hm, rfl⟩
    · exact hn
    · exact hn
    · exact hn.disconnect hm rfl rfl
  | cleanup hc hm =>
    have hcleanup := hn _ _ hc
    rcases cleanup_cases hm with ⟨-, -, -, rfl⟩ | ⟨-, rfl⟩ | ⟨-, rfl⟩ | ⟨-, rfl⟩ <;>
      exact hn.set rfl rfl ⟨hcleanup.authorizedPeer, fun a ha => by cases ha⟩
  | release hc hfree =>
    exact hn.set rfl rfl ⟨(hn _ _ hc).authorizedPeer, (hn _ _ hc).activation⟩
  | touch events hc htouches => exact hn.set rfl rfl ((hn _ _ hc).touches htouches)
  | _ => exact hn

theorem granted_of_runs {events : List NodeEvent}
    (h : runs (Node.step host) initial events = some n) : n.Granted := by
  have hinv := runs_invariant (I := fun u => u.Supervised ∧ u.Granted)
    (fun _ _ _ hs hstep => ⟨hs.1.step hstep,
      hs.2.effect hs.1.scanned.wellFormed (step_effect hstep)⟩) h
    ⟨supervised_initial, fun _ _ h => (by cases h)⟩
  exact hinv.2

/-- A record that has gone past an authorization has done so for good. -/
theorem superseded_effect (hn : n.Supervised) (h : Effect host n n')
    (hlive : peer.live.Superseded n.database) : peer.live.Superseded n'.database := by
  cases h with
  | store hstore => exact superseded_step hn.scanned.wellFormed hstore hlive
  | activate hc ha =>
    obtain ⟨d', live, forceScan, registry, replacing, -, heq⟩ := activate_eq host n _ _ _ _
    rw [heq]
    exact hlive
  | replace hr hm =>
    rcases disconnect_cases hm with ⟨rfl, -⟩ | ⟨d, d', -, -, rfl⟩
    · exact hlive
    · exact hlive
  | monitor h =>
    rcases runMonitor_cases h with ⟨-, monitor, forceScan, lastToken, rfl⟩ |
      ⟨entry, todo, -, rfl⟩ | ⟨session, todo, m, -, hm, rfl⟩
    · exact hlive
    · exact hlive
    · rcases disconnect_cases hm with ⟨rfl, -⟩ | ⟨d, d', -, -, rfl⟩
      · exact hlive
      · exact hlive
  | cleanup hc hm =>
    rcases cleanup_cases hm with ⟨-, -, -, rfl⟩ | ⟨-, rfl⟩ | ⟨-, rfl⟩ | ⟨-, rfl⟩ <;> exact hlive
  | _ => exact hlive

/-- **An authorization that is lost does not come back**, as long as the
process runs. -/
theorem revoked_along {before events : List NodeEvent} {c : Connection}
    (hbefore : runs (Node.step host) initial before = some n) (hc : n.connection id = some c)
    (hpeer : c.authorizedPeer = some peer) (hrevoked : ¬ peer.live.Current n.database)
    (hrun : runs (Node.step host) n events = some m) :
    Along (Node.step host) (fun u => ¬ peer.live.Current u.database) n events := by
  have hsuperseded : peer.live.Superseded n.database :=
    ((granted_of_runs hbefore id c hc).authorizedPeer peer hpeer).resolve_left hrevoked
  refine (Along.of_end (I := fun u => u.Supervised ∧ peer.live.Superseded u.database)
    (J := fun _ => True) ?_ (fun _ _ _ _ _ _ => trivial) hrun
    ⟨supervised_of_runs hbefore, hsuperseded⟩ trivial).mono ?_
  · rintro s e t ⟨hs, hlive⟩ hstep
    exact ⟨hs.step hstep, superseded_effect hs (step_effect hstep) hlive⟩
  · rintro s ⟨⟨hs, hlive⟩, -⟩
    exact not_current_of_superseded hs.scanned.wellFormed hlive

/-! ## Sessions that no one has stopped -/

/-- The session is ready, with this peer. -/
def ReadyFor (n : Node) (id : ℕ) (peer : AuthorizedPeer) : Prop :=
  ∃ c, n.connection id = some c ∧ c.ready = true ∧ c.authorizedPeer = some peer

/-- No one has stopped the session or released its last reference. -/
def Running (n : Node) (id : ℕ) : Prop :=
  ∀ c, n.connection id = some c → c.stopping = false ∧ c.released = false

/-- **A session that is ready stays ready**, with its peer. -/
theorem ReadyFor.step (h : n.ReadyFor id peer) (hn : n.Disciplined) {e : NodeEvent}
    (hstep : n.step host e = some n') : n'.ReadyFor id peer := by
  obtain ⟨c, hc, hready, hpeer⟩ := h
  obtain ⟨c', hc', hwork⟩ := work_of_step hn hstep hc
  obtain ⟨hready', hpeer'⟩ := hwork.later.ready hready
  exact ⟨c', hc', hready', hpeer'.trans hpeer⟩

/-- A change of one connection keeps what it keeps of that connection. -/
theorem keeps_set {P : Connection → Prop} {other : ℕ} {c c' d : Connection}
    (hm : m.connection = (n.setConnection other c').connection)
    (hc : n.connection id = some c) (hP : P c) (hd : n.connection other = some d)
    (hother : P d → P c') : ∃ c, m.connection id = some c ∧ P c := by
  by_cases hne : id = other
  · subst hne
    obtain rfl := Option.some.inj (hc.symm.trans hd)
    exact ⟨c', by rw [hm, setConnection_connection, if_pos rfl], hother hP⟩
  · exact ⟨c, by rw [hm, setConnection_connection, if_neg hne, hc], hP⟩

/-- A disconnect through a weak pointer keeps what it keeps. -/
theorem keeps_disconnect {P : Connection → Prop} {other : ℕ} {c : Connection}
    (h : n.disconnect other = some m) (hm : n'.connection = m.connection)
    (hc : n.connection id = some c) (hP : P c)
    (hkeeps : ∀ d d', d.requestDisconnect = some d' → P d → P d') :
    ∃ c, n'.connection id = some c ∧ P c := by
  rcases disconnect_cases h with ⟨rfl, -⟩ | ⟨d, d', hd, hd', rfl⟩
  · exact ⟨c, hm ▸ hc, hP⟩
  · exact keeps_set hm hc hP hd (hkeeps d d' hd')

/-- **A reference that is gone stays gone.** -/
theorem released_effect (hn : n.Disciplined) (h : Effect host n n') {c : Connection}
    (hc : n.connection id = some c) (hreleased : c.released = true) :
    ∃ c, n'.connection id = some c ∧ c.released = true := by
  have hdisconnect : ∀ d d' : Connection, d.requestDisconnect = some d' → d.released = true →
      d'.released = true :=
    fun d d' hd h => (Connection.requestDisconnect_touches hd).released.trans h
  cases h with
  | create outgoing =>
    refine ⟨c, ?_, hreleased⟩
    show (n.setConnection _ _).connection id = some c
    rw [setConnection_connection, if_neg (hn.lt hc).ne, hc]
  | lock hcalls hcall hd => exact keeps_set rfl hc hreleased hd (fun h => h)
  | activate hd ha =>
    obtain ⟨d', live, forceScan, registry, replacing, hactivates, heq⟩ :=
      activate_eq host n _ _ _ _
    rw [heq]
    exact keeps_set rfl hc hreleased hd hactivates.released.trans
  | replace hr hm => exact keeps_disconnect hm rfl hc hreleased hdisconnect
  | monitor h =>
    rcases runMonitor_cases h with ⟨-, monitor, forceScan, lastToken, rfl⟩ |
      ⟨entry, todo, -, rfl⟩ | ⟨other, todo, m, -, hm, rfl⟩
    · exact ⟨c, hc, hreleased⟩
    · exact ⟨c, hc, hreleased⟩
    · exact keeps_disconnect hm rfl hc hreleased hdisconnect
  | cleanup hd hm =>
    rcases cleanup_cases hm with ⟨-, -, -, rfl⟩ | ⟨-, rfl⟩ | ⟨-, rfl⟩ | ⟨-, rfl⟩ <;>
      exact keeps_set rfl hc hreleased hd (fun h => h)
  | release hd => exact keeps_set rfl hc hreleased hd (fun _ => rfl)
  | touch events hd htouches => exact keeps_set rfl hc hreleased hd htouches.released.trans
  | _ => exact ⟨c, hc, hreleased⟩

/-- **A session that was stopped stays stopped**, so one that is running has
been running before. -/
theorem Running.of_step (hn : n.Disciplined) {e : NodeEvent} (hstep : n.step host e = some n')
    (hrunning : n'.Running id) : n.Running id := by
  intro c hc
  constructor
  · obtain ⟨c', hc', hwork⟩ := work_of_step hn hstep hc
    by_contra hstopping
    have hstopped := hwork.later.stopping (Bool.eq_true_of_not_eq_false hstopping)
    rw [(hrunning c' hc').1] at hstopped
    cases hstopped
  · by_contra hreleased
    obtain ⟨c', hc', hgone⟩ :=
      released_effect hn (step_effect hstep) hc (Bool.eq_true_of_not_eq_false hreleased)
    rw [(hrunning c' hc').2] at hgone
    cases hgone

/-! ## The monitor comes to a session -/

/-- **The monitor comes to the session before it begins its loop again**: it
is about to wait, it has a scan before it, or the callback is due. -/
def Imminent (n : Node) (id : ℕ) (peer : AuthorizedPeer) : Prop :=
  (∃ timed, n.monitor = .waiting timed) ∨ n.monitor.Covers ⟨id, peer.live⟩
    ∨ (∃ forceScan, n.monitor = .woken forceScan ∧ n.lastToken ≠ some n.token)
    ∨ ∃ todo, n.monitor = .invoking id todo

theorem Imminent.ne_top (h : n.Imminent id peer) : n.monitor ≠ .top := by
  intro htop
  rcases h with ⟨timed, h⟩ | h | ⟨forceScan, h, -⟩ | ⟨todo, h⟩
  · rw [htop] at h
    cases h
  · rw [htop] at h
    exact h
  · rw [htop] at h
    cases h
  · rw [htop] at h
    cases h

/-- In a scan, the session is still to come. -/
theorem Imminent.covers (h : n.Imminent id peer) (hwaiting : ∀ timed, n.monitor ≠ .waiting timed)
    (hwoken : ∀ forceScan, n.monitor ≠ .woken forceScan)
    (hinvoking : ∀ todo, n.monitor ≠ .invoking id todo) : n.monitor.Covers ⟨id, peer.live⟩ := by
  rcases h with ⟨timed, h⟩ | h | ⟨forceScan, h, -⟩ | ⟨todo, h⟩
  · exact absurd h (hwaiting timed)
  · exact h
  · exact absurd h (hwoken forceScan)
  · exact absurd h (hinvoking todo)

theorem Imminent.congr (h : n.Imminent id peer) (hmonitor : m.monitor = n.monitor)
    (htoken : n.lastToken ≠ some n.token → m.lastToken ≠ some m.token) : m.Imminent id peer := by
  unfold Imminent
  rw [hmonitor]
  refine h.imp_right (Or.imp_right (Or.imp_left ?_))
  rintro ⟨forceScan, hwoken, hlast⟩
  exact ⟨forceScan, hwoken, htoken hlast⟩

/-- A token that has moved on does not come back. -/
theorem Scanned.token_ne (hn : n.Scanned) {e : StoreEvent} {stores : TrustStores}
    (h : n.stores.step e = some stores) (hlast : n.lastToken ≠ some n.token) :
    n.lastToken ≠ some (stores.changeToken 0) := by
  intro heq
  obtain ⟨hlocal, hexternal, -⟩ := TrustStores.changeToken_step hn.wellFormed h 0
  obtain ⟨h₁, h₂⟩ := hn.seen _ heq
  refine hlast (heq.trans (congrArg some ?_))
  have hl := le_antisymm h₁ hlocal
  have he := le_antisymm h₂ hexternal
  cases hx : stores.changeToken 0
  cases hy : n.token
  rw [hx, hy] at hl he
  exact congrArg₂ ChangeToken.mk hl he

section Monitor

variable (hn : n.Supervised) (hready : n.ReadyFor id peer) (hrunning : n.Running id)

include hn hready hrunning

/-- A running session is in the live map, until its callback is due. -/
theorem guards_of_running : n.Guards id peer := by
  obtain ⟨c, hc, hc', hpeer⟩ := hready
  obtain ⟨hstopping, hreleased⟩ := hrunning c hc
  exact hn.guarded id c peer hc (.inl ⟨hc', hstopping, hreleased, hpeer⟩)

/-- It is in the live map where no callback is due. -/
theorem live_of_running (hmonitor : ∀ todo, n.monitor ≠ .invoking id todo) :
    n.live.lookup id = some peer.live := by
  rcases guards_of_running hn hready hrunning with h | ⟨todo, h⟩
  · exact h
  · exact absurd h (hmonitor todo)

end Monitor

/-- **A step of the monitor** does not pass by a session whose authorization
the store does not have. -/
theorem Imminent.monitor (h : n.Imminent id peer) (hn : n.Supervised) (hn' : n'.Supervised)
    (hready : n.ReadyFor id peer) (hready' : n'.ReadyFor id peer) (hrunning : n.Running id)
    (hrunning' : n'.Running id) (hrevoked : ¬ peer.live.Current n.database) {fails : Bool}
    (hstep : n.runMonitor fails = some n') : n'.Imminent id peer := by
  have hlive := live_of_running hn hready hrunning
  have hstep' := hstep
  unfold runMonitor at hstep
  split at hstep
  · rename_i hmonitor
    exact absurd hmonitor h.ne_top
  · rename_i timed hmonitor
    split at hstep
    · split at hstep
      · cases hstep
        exact .inr (.inl trivial)
      · cases hstep
        -- without a forced scan, the session is watched since the token has moved
        have hwatched := hn'.scanned.live id peer.live
          (live_of_running hn' hready' hrunning' (fun _ h => by cases h))
        rcases hwatched with hcurrent | hforce | htoken | hcovers
        · exact absurd hcurrent hrevoked
        · cases hforce
        · exact .inr (.inr (.inl ⟨_, rfl, htoken⟩))
        · exact .inr (.inl hcovers)
    · cases hstep
  · rename_i forceScan hmonitor
    split at hstep
    · cases hstep
      exact .inr (.inl trivial)
    · split at hstep
      · cases hstep
        exact .inr (.inl trivial)
      · rename_i hscan
        simp only [Bool.or_eq_true, decide_eq_true_eq, not_or, not_not] at hscan
        exfalso
        unfold Imminent at h
        rw [hmonitor] at h
        rcases h with ⟨timed, h⟩ | h | ⟨forceScan', -, htoken⟩ | ⟨todo, h⟩
        · cases h
        · exact hscan.1 h
        · exact htoken hscan.2
        · cases h
  · rename_i hmonitor
    cases hstep
    refine .inr (.inl ?_)
    exact AList.mem_lookup_iff.mp (hlive (fun _ h => by rw [hmonitor] at h; cases h))
  · rename_i hmonitor
    have hcovers := h.covers (by simp [hmonitor]) (by simp [hmonitor]) (by simp [hmonitor])
    rw [hmonitor] at hcovers
    cases hcovers
  · rename_i entry todo hmonitor
    have hcovers := h.covers (by simp [hmonitor]) (by simp [hmonitor]) (by simp [hmonitor])
    rw [hmonitor] at hcovers
    split at hstep
    · rename_i hstored
      cases hstep
      refine .inr (.inl ?_)
      rcases List.mem_cons.mp hcovers with rfl | hmem
      · exact absurd (current_of_stored hstored) hrevoked
      · exact hmem
    · cases hstep
      exact .inr (.inl (List.mem_cons.mp hcovers))
  · rename_i entry todo hmonitor
    have hcovers := h.covers (by simp [hmonitor]) (by simp [hmonitor]) (by simp [hmonitor])
    rw [hmonitor] at hcovers
    have hlive := hlive (fun _ h => by rw [hmonitor] at h; cases h)
    split at hstep
    · rename_i hnone
      cases hstep
      refine .inr (.inl (hcovers.resolve_left ?_))
      rintro rfl
      rw [hnone] at hlive
      cases hlive
    · rename_i found hfound
      split at hstep
      · rename_i hdiffers
        cases hstep
        refine .inr (.inl (hcovers.resolve_left ?_))
        rintro rfl
        obtain rfl := Option.some.inj (hfound.symm.trans hlive)
        simp at hdiffers
      · cases hstep
        rcases hcovers with rfl | hmem
        · exact .inr (.inr (.inr ⟨todo, rfl⟩))
        · exact .inr (.inl hmem)
  · rename_i session todo hmonitor
    obtain ⟨m, hm, rfl⟩ := Option.map_eq_some_iff.mp hstep
    refine .inr (.inl ?_)
    unfold Imminent at h
    rw [hmonitor] at h
    rcases h with ⟨timed, h⟩ | h | ⟨forceScan', h, -⟩ | ⟨todo', h⟩
    · cases h
    · exact h
    · cases h
    · -- the callback of the session stops it
      cases h
      exfalso
      rcases disconnect_cases hm with ⟨rfl, hreleased⟩ | ⟨c, c', -, hc', rfl⟩
      · obtain ⟨c, hc, -⟩ := hready
        have hgone := hreleased c hc
        rw [(hrunning c hc).2] at hgone
        cases hgone
      · have hstopped := Connection.requestDisconnect_stopping hc'
        rw [(hrunning' c' (by simp)).1] at hstopped
        cases hstopped
  · cases hstep

/-- **No step passes by a session** whose authorization the store does not
have. -/
theorem Imminent.step (h : n.Imminent id peer) (hn : n.Supervised) (hready : n.ReadyFor id peer)
    (hrunning : n.Running id) (hrunning' : n'.Running id)
    (hrevoked : ¬ peer.live.Current n.database) {e : NodeEvent} (hstep : n.step host e = some n') :
    n'.Imminent id peer := by
  have hn' := hn.step hstep
  have hready' := hready.step hn.disciplined hstep
  cases step_effect hstep with
  | store hstore => exact h.congr rfl (hn.scanned.token_ne hstore)
  | activate hd ha =>
    obtain ⟨d', live, forceScan, registry, replacing, -, heq⟩ := activate_eq host n _ _ _ _
    rw [heq]
    exact h.congr rfl (fun h => h)
  | replace hr hm =>
    rcases disconnect_cases hm with ⟨rfl, -⟩ | ⟨d, d', -, -, rfl⟩
    · exact h.congr rfl (fun h => h)
    · exact h.congr rfl (fun h => h)
  | monitor hmonitor => exact h.monitor hn hn' hready hready' hrunning hrunning' hrevoked hmonitor
  | cleanup hd hm =>
    rcases cleanup_cases hm with ⟨-, -, -, rfl⟩ | ⟨-, rfl⟩ | ⟨-, rfl⟩ | ⟨-, rfl⟩ <;>
      exact h.congr rfl (fun h => h)
  | _ => exact h.congr rfl (fun h => h)

/-! ## How soon -/

/-- The monitor begins its loop. -/
def beginsTurn (n : Node) : NodeEvent → Bool
  | .monitor _ => decide (n.monitor = .top)
  | _ => false

/-- Once the monitor has begun its loop, it comes to every session. -/
theorem imminent_of_beginsTurn {e : NodeEvent} (h : n.beginsTurn e = true)
    (hstep : n.step host e = some n') : n'.Imminent id peer := by
  cases e with
  | monitor fails =>
    have htop : n.monitor = .top := of_decide_eq_true h
    change n.runMonitor fails = some n' at hstep
    rw [runMonitor, htop] at hstep
    cases hstep
    exact .inl ⟨_, rfl⟩
  | _ => cases h

/-- What is known of a ready session throughout a run in which no one stops
it. -/
structure Escapes (id : ℕ) (peer : AuthorizedPeer) (n : Node) : Prop where
  supervised : n.Supervised
  ready : n.ReadyFor id peer
  running : n.Running id

open Classical in
/-- **A session that is not stopped is not scanned**: the monitor begins at
most one loop while the session goes on without an authorization. -/
theorem turns_le_one {events : List NodeEvent} (hn : n.Supervised) (hready : n.ReadyFor id peer)
    (hrun : runs (step host) n events = some m) (hrunning : m.Running id)
    (hrevoked : Along (step host) (fun u => ¬ peer.live.Current u.database) n events) :
    occurrences (step host) beginsTurn n events ≤ 1 := by
  have halong : Along (step host) (fun u => u.Escapes id peer) n events := by
    refine (Along.of_end (I := fun u => u.Supervised ∧ u.ReadyFor id peer)
      (J := fun u => u.Running id) ?_ ?_ hrun ⟨hn, hready⟩ hrunning).mono ?_
    · rintro s e t ⟨hs, hready⟩ hstep
      exact ⟨hs.step hstep, hready.step hs.disciplined hstep⟩
    · rintro s e t ⟨hs, -⟩ hstep ht
      exact ht.of_step hs.disciplined hstep
    · rintro s ⟨⟨hs, hready⟩, hrunning⟩
      exact ⟨hs, hready, hrunning⟩
  -- a session is passed by at most once: by the scan that was under way at first
  have hrank := occurrences_le_rank (P := beginsTurn)
    (fun u => if u.Imminent id peer then 0 else 1) ?_ hrun (halong.and hrevoked)
  · refine hrank.trans ?_
    split <;> omega
  · rintro s e t ⟨hs, hrevoked⟩ ⟨ht, -⟩ hstep
    by_cases himminent : s.Imminent id peer
    · have hnext := himminent.step hs.supervised hs.ready hs.running ht.running hrevoked hstep
      have hturn : s.beginsTurn e = false := by
        cases e with
        | monitor fails => exact decide_eq_false himminent.ne_top
        | _ => rfl
      simp [himminent, hnext, hturn]
    · cases hturn : s.beginsTurn e with
      | false => simp only [himminent, if_false]; split <;> simp
      | true =>
        have hnext : t.Imminent id peer := imminent_of_beginsTurn hturn hstep
        simp [himminent, hnext]

/-- **A revoked session is stopped in time.** Take any state that a process
can reach, with any number of sessions and stores, where the store does not
have the authorization of a session that is ready: the device was revoked, or
its record was written in any other way. In no run from there does the store
ever have the authorization again. And if the monitor begins its loop twice
in the run, the session is stopping at the end, if anyone still refers to
it. -/
theorem revoked_session_stops {before events : List NodeEvent} {c : Connection}
    (hbefore : runs (step host) initial before = some n) (hc : n.session id = some c)
    (hready : c.ready = true) (hpeer : c.authorizedPeer = some peer)
    (hrevoked : ¬ peer.live.Current n.database) (hrun : runs (step host) n events = some m) :
    Along (step host) (fun u => ¬ peer.live.Current u.database) n events
      ∧ (2 ≤ occurrences (step host) beginsTurn n events →
        ∀ c', m.session id = some c' → c'.stopping = true) := by
  obtain ⟨hc, -⟩ := session_eq_some.mp hc
  have halong := revoked_along hbefore hc hpeer hrevoked hrun
  refine ⟨halong, fun hturns c' hc' => ?_⟩
  obtain ⟨hc', hreleased⟩ := session_eq_some.mp hc'
  by_contra hstopping
  have hrunning : m.Running id := by
    intro d hd
    obtain rfl := Option.some.inj (hd.symm.trans hc')
    exact ⟨Bool.eq_false_iff.mpr hstopping, hreleased⟩
  have hone := turns_le_one (supervised_of_runs hbefore) ⟨c, hc, hready, hpeer⟩ hrun hrunning halong
  omega

/-- What a store that answers does not have. -/
theorem not_current_of_stale
    (h : SessionAuthentication.authorizationIsCurrent n.database false peer = false) :
    ¬ peer.live.Current n.database := by
  intro hcurrent
  have hfind : TrustStore.findActiveAuthorization n.database peer.uuid peer.publicKey
      = .ok (some ⟨peer.revision, peer.permissions⟩) := hcurrent
  simp [SessionAuthentication.authorizationIsCurrent, SessionAuthentication.stored, hfind] at h

/-- The session is activated and scanned, and then the device is revoked
through another store. -/
def activatedAndRevoked : List NodeEvent :=
  activatedAndScanned ++ [.store ⟨1, .revokeDevice TrustStores.sampleUuid 1 7, true⟩]

/-- The monitor goes through its loop, and begins it again. -/
def oneLoop : List NodeEvent := List.replicate 9 (.monitor false)

/-- The session of the revoked device is stopped in the loop that the monitor
begins next. -/
theorem revoked_session_stops_revocation :
    ∃ (n m : Node) (c c' : Connection),
      runs (Node.step sampleHost) initial activatedAndRevoked = some n
      ∧ n.session 1 = some c ∧ c.ready = true ∧ c.stopping = false
      ∧ runs (Node.step sampleHost) n oneLoop = some m
      ∧ Along (Node.step sampleHost) (fun u => ¬ samplePeer.live.Current u.database) n oneLoop
      ∧ m.session 1 = some c' ∧ c'.stopping = true := by
  obtain ⟨n, hbefore, hn⟩ : ∃ n, runs (Node.step sampleHost) initial activatedAndRevoked = some n
      ∧ ((n.session 1).map (fun c => (c.ready, c.stopping, c.authorizedPeer)),
          SessionAuthentication.authorizationIsCurrent n.database false samplePeer,
          occurrences (Node.step sampleHost) beginsTurn n oneLoop,
          (runs (Node.step sampleHost) n oneLoop).any (fun m => (m.session 1).isSome))
        = (some (true, false, some samplePeer), false, 2, true) :=
    Option.map_eq_some_iff.mp (by decide +kernel)
  simp only [Prod.mk.injEq] at hn
  obtain ⟨hsession, hstale, hturns, hend⟩ := hn
  obtain ⟨c, hc, hflags⟩ := Option.map_eq_some_iff.mp hsession
  simp only [Prod.mk.injEq] at hflags
  obtain ⟨hready, hstopping, hpeer⟩ := hflags
  obtain ⟨m, hrun, hm⟩ := (Option.any_eq_true _ _).mp hend
  obtain ⟨c', hc'⟩ := Option.isSome_iff_exists.mp hm
  obtain ⟨halong, hstops⟩ :=
    revoked_session_stops hbefore hc hready hpeer (not_current_of_stale hstale) hrun
  exact ⟨n, m, c, c', hbefore, hc, hready, hstopping, hrun, halong, hc', hstops hturns.ge c' hc'⟩

/-! ## Nothing keeps the monitor from it -/

/-- A step of the monitor or of an activation, with a store that answers. -/
def Drives (e : NodeEvent) : Prop :=
  e = .monitor false ∨ ∃ session, e = .activate session false

theorem released_of_drives {e : NodeEvent} (he : Drives e) (hstep : n.step host e = some n')
    {c : Connection} (hc : n.connection id = some c) (hreleased : c.released = false) :
    ∃ c, n'.connection id = some c ∧ c.released = false := by
  rcases he with rfl | ⟨session, rfl⟩
  · rcases runMonitor_cases hstep with ⟨-, monitor, forceScan, lastToken, rfl⟩ |
      ⟨entry, todo, -, rfl⟩ | ⟨other, todo, m, -, hm, rfl⟩
    · exact ⟨c, hc, hreleased⟩
    · exact ⟨c, hc, hreleased⟩
    · exact keeps_disconnect hm rfl hc hreleased
        (fun d d' hd h => (Connection.requestDisconnect_touches hd).released.trans h)
  · cases happens hstep with
    | activate hd ha =>
      obtain ⟨d', live, forceScan, registry, replacing, hactivates, heq⟩ :=
        activate_eq host n _ _ _ _
      rw [heq]
      exact keeps_set rfl hc hreleased hd hactivates.released.trans

/-- Driving a session leaves the stores alone, and does not stop the monitor. -/
theorem stores_of_drives {e : NodeEvent} (he : Drives e) (hstep : n.step host e = some n') :
    n'.stores = n.stores ∧ n'.authStopping = n.authStopping := by
  rcases he with rfl | ⟨session, rfl⟩
  · rcases runMonitor_cases hstep with ⟨-, monitor, forceScan, lastToken, rfl⟩ |
      ⟨entry, todo, -, rfl⟩ | ⟨other, todo, m, -, hm, rfl⟩
    · exact ⟨rfl, rfl⟩
    · exact ⟨rfl, rfl⟩
    · rcases disconnect_cases hm with ⟨rfl, -⟩ | ⟨c, c', -, -, rfl⟩
      · exact ⟨rfl, rfl⟩
      · exact ⟨rfl, rfl⟩
  · cases happens hstep with
    | activate hd ha =>
      obtain ⟨d', live, forceScan, registry, replacing, -, heq⟩ := activate_eq host n _ _ _ _
      rw [heq]
      exact ⟨rfl, rfl⟩

/-- **The monitor ends only where it is told to.** -/
theorem stops_step (h : n.monitor = .stopped → n.authStopping = true) {e : NodeEvent}
    (hstep : n.step host e = some n') : n'.monitor = .stopped → n'.authStopping = true := by
  cases step_effect hstep with
  | activate hd ha =>
    obtain ⟨d', live, forceScan, registry, replacing, -, heq⟩ := activate_eq host n _ _ _ _
    rw [heq]
    exact h
  | replace hr hm =>
    rcases disconnect_cases hm with ⟨rfl, -⟩ | ⟨d, d', -, -, rfl⟩
    · exact h
    · exact h
  | monitor hmonitor =>
    intro hstopped
    unfold runMonitor at hmonitor
    split at hmonitor
    · cases hmonitor
      cases hstopped
    · split at hmonitor
      · split at hmonitor
        · rename_i hstopping
          cases hmonitor
          exact hstopping
        · cases hmonitor
          cases hstopped
      · cases hmonitor
    · split at hmonitor
      · cases hmonitor
        cases hstopped
      · split at hmonitor
        · cases hmonitor
          cases hstopped
        · cases hmonitor
          cases hstopped
    · cases hmonitor
      cases hstopped
    · cases hmonitor
      cases hstopped
    · split at hmonitor
      · cases hmonitor
        cases hstopped
      · cases hmonitor
        cases hstopped
    · split at hmonitor
      · cases hmonitor
        cases hstopped
      · split at hmonitor
        · cases hmonitor
          cases hstopped
        · cases hmonitor
          cases hstopped
    · obtain ⟨m, -, rfl⟩ := Option.map_eq_some_iff.mp hmonitor
      cases hstopped
    · cases hmonitor
  | stopAuthentication => exact fun _ => rfl
  | cleanup hd hm =>
    rcases cleanup_cases hm with ⟨-, -, -, rfl⟩ | ⟨-, rfl⟩ | ⟨-, rfl⟩ | ⟨-, rfl⟩ <;> exact h
  | _ => exact h

/-- **The session is to be stopped, and the monitor works.** -/
structure Chased (id : ℕ) (peer : AuthorizedPeer) (n : Node) : Prop where
  supervised : n.Supervised
  ready : n.ReadyFor id peer
  working : n.authStopping = false
  revoked : ¬ peer.live.Current n.database
  referred : ∃ c, n.connection id = some c ∧ c.released = false
  stops : n.monitor = .stopped → n.authStopping = true

theorem Chased.step (h : n.Chased id peer) {e : NodeEvent} (he : Drives e)
    (hstep : n.step host e = some n') : n'.Chased id peer := by
  obtain ⟨hstores, hworking⟩ := stores_of_drives he hstep
  obtain ⟨c, hc, hreleased⟩ := h.referred
  refine ⟨h.supervised.step hstep, h.ready.step h.supervised.disciplined hstep,
    hworking.trans h.working, ?_, released_of_drives he hstep hc hreleased,
    stops_step h.stops hstep⟩
  rw [database, hstores]
  exact h.revoked

/-- **An activation goes on**, and comes to its end. -/
theorem activate_ahead (host : Host) (n : Node) (c : Connection) (session : ℕ) (a : Activation) :
    (n.activate host c session a false).monitor = n.monitor
      ∧ ∃ c', (n.activate host c session a false).connection session = some c'
        ∧ (c'.writer = .free ∨ ∃ b, c'.writer = .activation b ∧ b.stage.ahead < a.stage.ahead) := by
  unfold Node.activate
  split
  · rename_i hstage
    rw [hstage]
    split
    · exact ⟨rfl, _, Function.update_self .., .inr ⟨_, rfl, by show 4 < 5; decide⟩⟩
    · exact ⟨rfl, _, Function.update_self .., .inl rfl⟩
  · rename_i hstage
    rw [hstage]
    split
    · exact ⟨rfl, _, Function.update_self .., .inl rfl⟩
    · exact ⟨rfl, _, Function.update_self .., .inr ⟨_, rfl, by show 3 < 4; decide⟩⟩
  · rename_i hstage
    rw [hstage]
    split
    · exact ⟨rfl, _, Function.update_self .., .inr ⟨_, rfl, by show 1 < 3; decide⟩⟩
    · exact ⟨rfl, _, Function.update_self .., .inr ⟨_, rfl, by show 2 < 3; decide⟩⟩
  · exact ⟨rfl, _, Function.update_self .., .inl rfl⟩
  · rename_i hstage
    rw [hstage]
    exact ⟨rfl, _, Function.update_self .., .inr ⟨_, rfl, by show 1 < 2; decide⟩⟩
  · exact ⟨rfl, _, Function.update_self .., .inl rfl⟩

/-- **An activation that is under way can end**, while the monitor waits for
it. -/
theorem reaches_unlocked {session : ℕ} {c : Connection} {a : Activation}
    (hc : n.connection session = some c) (ha : c.writer = .activation a) :
    Reaches (step host) Drives (fun m => m.monitor = n.monitor
      ∧ ∃ c', m.connection session = some c' ∧ c'.writer = .free) n := by
  generalize hahead : a.stage.ahead = k
  induction k using Nat.strong_induction_on generalizing n c a with
  | _ k ih =>
    obtain ⟨hmonitor, c', hc', hnext⟩ := activate_ahead host n c session a
    refine .next (e := .activate session false) (.inr ⟨session, rfl⟩)
      (show n.step host (.activate session false) = some (n.activate host c session a false) by
        simp only [step, hc, Option.bind_some, ha]) ?_
    rcases hnext with hfree | ⟨b, hb, hlt⟩
    · exact .done ⟨hmonitor, c', hc', hfree⟩
    · rw [← hmonitor]
      exact ih _ (hahead ▸ hlt) hc' hb rfl

theorem reaches_invoked {session : ℕ} {todo : List LiveEntry}
    (hmonitor : n.monitor = .invoking session todo) :
    Reaches (step host) Drives (fun m => m.monitor = .scanning todo) n := by
  -- where nothing holds `lifecycle_mutex_`
  have hfree : ∀ {m : Node}, m.monitor = .invoking session todo →
      (∀ c, m.connection session = some c → c.writer.isActivation = false) →
      Reaches (step host) Drives (fun m => m.monitor = .scanning todo) m := by
    intro m hm hfree
    have hdisconnect : ∃ m', m.disconnect session = some m' := by
      unfold disconnect
      split
      · rename_i c hc
        split
        · exact ⟨_, rfl⟩
        · simp [Connection.requestDisconnect, hfree c hc]
      · exact ⟨_, rfl⟩
    obtain ⟨m', hm'⟩ := hdisconnect
    refine .next (e := .monitor false) (t := { m' with monitor := .scanning todo }) (.inl rfl) ?_
      (.done rfl)
    show m.runMonitor false = _
    simp only [runMonitor, hm, hm', Option.map_some]
  by_cases hactivation : ∃ c a, n.connection session = some c ∧ c.writer = .activation a
  · obtain ⟨c, a, hc, ha⟩ := hactivation
    refine (reaches_unlocked hc ha).trans ?_
    rintro m ⟨hm, c', hc', hwriter⟩
    refine hfree (hm.trans hmonitor) (fun d hd => ?_)
    obtain rfl := Option.some.inj (hc'.symm.trans hd)
    rw [hwriter]
    rfl
  · refine hfree hmonitor (fun c hc => ?_)
    cases hw : c.writer with
    | activation a => exact absurd ⟨c, a, hc, hw⟩ hactivation
    | _ => rfl

theorem reaches_scanned {todo : List LiveEntry} (hmonitor : n.monitor = .scanning todo) :
    Reaches (step host) Drives (fun m => m.monitor = .top) n := by
  induction todo generalizing n with
  | nil =>
    refine .next (e := .monitor false) (.inl rfl)
      (show n.runMonitor false = some { n with monitor := .top } by
        simp only [runMonitor, hmonitor])
      (.done rfl)
  | cons entry todo ih =>
    -- the entry is current, it is gone, or its callback runs
    cases hstored : SessionAuthentication.stored n.database false entry.2.uuid entry.2.publicKey
        entry.2.revision entry.2.permissions with
    | true =>
      refine .next (e := .monitor false) (t := { n with monitor := .scanning todo }) (.inl rfl) ?_
        (ih rfl)
      show n.runMonitor false = _
      simp only [runMonitor, hmonitor, hstored, if_true]
    | false =>
      refine .next (e := .monitor false) (t := { n with monitor := .stale entry todo }) (.inl rfl)
        ?_ ?_
      · show n.runMonitor false = _
        simp [runMonitor, hmonitor, hstored]
      · obtain ⟨m, hm, hnext⟩ : ∃ m,
            ({ n with monitor := .stale entry todo } : Node).runMonitor false = some m
              ∧ (m.monitor = .scanning todo ∨ m.monitor = .invoking entry.1 todo) := by
          simp only [runMonitor]
          split
          · exact ⟨_, rfl, .inl rfl⟩
          · split
            · exact ⟨_, rfl, .inl rfl⟩
            · exact ⟨_, rfl, .inr rfl⟩
        refine .next (e := .monitor false) (.inl rfl) hm ?_
        rcases hnext with hscanning | hinvoking
        · exact ih hscanning
        · exact (reaches_invoked hinvoking).trans (fun _ h => ih h)

/-- **A loop of the monitor can end**, from wherever it is, as long as the
session is in the live map. -/
theorem Chased.reaches_top (h : n.Chased id peer) :
    Reaches (Node.step host) Drives (fun m => ¬ m.Running id ∨ m.monitor = .top) n := by
  have hscan : ∀ {m : Node} {todo : List LiveEntry}, m.monitor = .scanning todo →
      Reaches (Node.step host) Drives (fun m => ¬ m.Running id ∨ m.monitor = .top) m :=
    fun hm => (reaches_scanned hm).trans (fun _ h => .done (.inr h))
  have hsnapshot : ∀ {m : Node}, m.monitor = .snapshot →
      Reaches (Node.step host) Drives (fun m => ¬ m.Running id ∨ m.monitor = .top) m := by
    intro m hm
    refine .next (e := .monitor false) (t := { m with monitor := .scanning m.live.entries })
      (.inl rfl) ?_ (hscan rfl)
    show m.runMonitor false = _
    simp only [runMonitor, hm]
  have hwoken : ∀ {m : Node} {forceScan : Bool}, m.monitor = .woken forceScan →
      Reaches (Node.step host) Drives (fun m => ¬ m.Running id ∨ m.monitor = .top) m := by
    intro m forceScan hm
    obtain ⟨m', hm', hnext⟩ : ∃ m', m.runMonitor false = some m'
        ∧ (m'.monitor = .snapshot ∨ m'.monitor = .top) := by
      simp only [runMonitor, hm, Bool.false_eq_true, if_false]
      split
      · exact ⟨_, rfl, .inl rfl⟩
      · exact ⟨_, rfl, .inr rfl⟩
    refine .next (e := .monitor false) (.inl rfl) hm' ?_
    rcases hnext with h | h
    · exact hsnapshot h
    · exact .done (.inr h)
  by_cases hrunning : n.Running id
  · cases hmonitor : n.monitor with
    | top => exact .done (.inr hmonitor)
    | waiting timed =>
      -- the session is live, so the wait ends
      have hlive := live_of_running h.supervised h.ready hrunning (by simp [hmonitor])
      have hentries : n.live.entries.isEmpty = false := by
        cases hempty : n.live.entries with
        | nil =>
          have hmem := AList.mem_lookup_iff.mp hlive
          rw [hempty] at hmem
          cases hmem
        | cons entry entries => rfl
      refine .next (e := .monitor false)
        (t := { n with monitor := .woken n.forceScan, forceScan := false }) (.inl rfl) ?_
        (hwoken rfl)
      show n.runMonitor false = _
      simp [runMonitor, hmonitor, hentries, h.working]
    | woken forceScan => exact hwoken hmonitor
    | snapshot => exact hsnapshot hmonitor
    | scanning todo => exact hscan hmonitor
    | stale entry todo =>
      obtain ⟨m, hm, hnext⟩ : ∃ m, n.runMonitor false = some m
          ∧ (m.monitor = .scanning todo ∨ m.monitor = .invoking entry.1 todo) := by
        simp only [runMonitor, hmonitor]
        split
        · exact ⟨_, rfl, .inl rfl⟩
        · split
          · exact ⟨_, rfl, .inl rfl⟩
          · exact ⟨_, rfl, .inr rfl⟩
      refine .next (e := .monitor false) (.inl rfl) hm ?_
      rcases hnext with hscanning | hinvoking
      · exact hscan hscanning
      · exact (reaches_invoked hinvoking).trans (fun _ h => hscan h)
    | invoking session todo => exact (reaches_invoked hmonitor).trans (fun _ h => hscan h)
    | stopped =>
      have hstopped := h.stops hmonitor
      rw [h.working] at hstopped
      cases hstopped
  · exact .done (.inl hrunning)


/-- **Nothing keeps a revoked session from being stopped.** In every state that
a process can reach where the store does not have the authorization of a ready
session that is still referred to, and the monitor has not been told to end,
some steps of the monitor and of activations that are under way lead to a state
where the session is stopping: no other thread has to do anything, nor does a
read have to fail. -/
theorem revocation_completes {before : List NodeEvent} {c : Connection}
    (hbefore : runs (step host) initial before = some n) (hc : n.session id = some c)
    (hready : c.ready = true) (hpeer : c.authorizedPeer = some peer)
    (hworking : n.authStopping = false) (hrevoked : ¬ peer.live.Current n.database) :
    ∃ events m c', (∀ e ∈ events, Drives e) ∧ runs (step host) n events = some m
      ∧ m.session id = some c' ∧ c'.stopping = true := by
  obtain ⟨hc, hreleased⟩ := session_eq_some.mp hc
  have hchased : n.Chased id peer :=
    { supervised := supervised_of_runs hbefore
      ready := ⟨c, hc, hready, hpeer⟩
      working := hworking
      revoked := hrevoked
      referred := ⟨c, hc, hreleased⟩
      stops := runs_invariant (I := fun u : Node => u.monitor = .stopped → u.authStopping = true)
        (fun _ _ _ hs hstep => stops_step hs hstep) hbefore (fun h => by cases h) }
  have hkeeps : ∀ (s : Node) (e : NodeEvent) (t : Node), Drives e → s.Chased id peer →
      s.step host e = some t → t.Chased id peer := fun _ _ _ he hs hstep => hs.step he hstep
  -- once the monitor has begun a loop, it does not end it without coming to the session
  have hcome : ∀ {m : Node}, m.Chased id peer → m.Imminent id peer →
      Reaches (step host) Drives (fun u => ¬ u.Running id ∧ u.Chased id peer) m := by
    intro m hm himminent
    refine ((hm.reaches_top.keeps hkeeps hm).keeps
      (I := fun u => u.Chased id peer ∧ (u.Running id → u.Imminent id peer)) ?_
      ⟨hm, fun _ => himminent⟩).trans ?_
    · rintro s e t he ⟨hs, hnext⟩ hstep
      refine ⟨hs.step he hstep, fun ht => ?_⟩
      have hrunning := ht.of_step hs.supervised.disciplined hstep
      exact (hnext hrunning).step hs.supervised hs.ready hrunning ht hs.revoked hstep
    · rintro u ⟨⟨hu, hchased⟩, -, hnext⟩
      by_cases hrunning : u.Running id
      · exact absurd (hu.resolve_left (not_not_intro hrunning)) (hnext hrunning).ne_top
      · exact .done ⟨hrunning, hchased⟩
  have hreaches : Reaches (step host) Drives (fun u => ¬ u.Running id ∧ u.Chased id peer) n := by
    refine (hchased.reaches_top.keeps hkeeps hchased).trans ?_
    rintro u ⟨hrunning | htop, hu⟩
    · exact .done ⟨hrunning, hu⟩
    · have hstep : u.step host (.monitor false)
          = some { u with monitor := .waiting !(u.live.entries.isEmpty && !u.forceScan) } := by
        show u.runMonitor false = _
        rw [runMonitor, htop]
      exact .next (.inl rfl) hstep (hcome (hu.step (.inl rfl) hstep) (.inl ⟨_, rfl⟩))
  obtain ⟨events, m, hevents, hrun, hrunning, hm⟩ := hreaches.exists_runs
  obtain ⟨c', hc', hreleased'⟩ := hm.referred
  refine ⟨events, m, c', hevents, hrun, session_eq_some.mpr ⟨hc', hreleased'⟩, ?_⟩
  by_contra hstopping
  refine hrunning (fun d hd => ?_)
  obtain rfl := Option.some.inj (hd.symm.trans hc')
  exact ⟨Bool.eq_false_iff.mpr hstopping, hreleased'⟩

/-- A device is revoked while the monitor is asleep, and the session is
stopped. -/
theorem revocation_completes_revocation :
    ∃ (n : Node) (events : List NodeEvent) (m : Node) (c' : Connection),
      runs (Node.step sampleHost) initial activatedAndRevoked = some n
      ∧ (∀ e ∈ events, Drives e) ∧ runs (Node.step sampleHost) n events = some m
      ∧ m.session 1 = some c' ∧ c'.stopping = true := by
  obtain ⟨n, hbefore, hn⟩ : ∃ n, runs (Node.step sampleHost) initial activatedAndRevoked = some n
      ∧ ((n.session 1).map (fun c => (c.ready, c.authorizedPeer)),
          SessionAuthentication.authorizationIsCurrent n.database false samplePeer, n.authStopping)
        = (some (true, some samplePeer), false, false) :=
    Option.map_eq_some_iff.mp (by decide +kernel)
  simp only [Prod.mk.injEq] at hn
  obtain ⟨hsession, hstale, hworking⟩ := hn
  obtain ⟨c, hc, hflags⟩ := Option.map_eq_some_iff.mp hsession
  obtain ⟨hready, hpeer⟩ := Prod.mk.inj hflags
  obtain ⟨events, m, c', hevents, hrun, hc', hstopping⟩ :=
    revocation_completes hbefore hc hready hpeer hworking (not_current_of_stale hstale)
  exact ⟨n, events, m, c', hbefore, hevents, hrun, hc', hstopping⟩

end Node

end Gasoline
