import Gasoline.LockScripts

/-!
# The locks of a process

What the functions of the source do with mutexes and shared pointers, one
script for each, and the threads of a process. Conditions are left open, and
so is which connection a weak pointer leads to.

The mutexes of a connection are to be taken in the order `write_mutex_`,
`lifecycle_mutex_`, `socket_mutex_`, says the source, and the others are taken
behind them. Two places need care. The registry is locked while a pointer to
the owner of an entry is taken, and if that pointer is the last one when it
goes, the destructor of a connection locks the registry again; the pointer is
in a variable from before the lock, so it goes behind it. And this happens
while `activate_authorized_peer` holds the locks of its own connection, so
the destructor takes `write_mutex_` of the one below `lifecycle_mutex_` of the
other. Nobody else can ask for it any more.

In every run of the process, no set of threads waits for itself
(`no_deadlock`), and no thread gets at a connection, or at its mutexes, after
the last pointer to it has gone (`gone_for_good`).
-/

namespace Gasoline

namespace Locking

/-- The mutexes. -/
inductive Mutex
  /-- `write_mutex_`, of a connection. -/
  | write (c : ℕ)
  /-- `lifecycle_mutex_`. -/
  | lifecycle (c : ℕ)
  /-- `socket_mutex_`. -/
  | socket (c : ℕ)
  /-- `live_mutex_`. -/
  | live
  /-- `registry_mutex`. -/
  | registry
  /-- `manager_mutex`. -/
  | manager
  /-- `TrustStore::Impl::mutex`. -/
  | store
  /-- `g_events_mutex`. -/
  | events
  /-- `discovery_mutex_`. -/
  | discovery
  deriving DecidableEq, Repr

open Script

/-- `if (...) s`. -/
def sometimes (s : Script Mutex) : Script Mutex := either skip s

/-! ## The tables -/

/-- Every operation of the `TrustStore`. -/
def storeCall : Script Mutex := guard .store skip

/-- `SessionAuthentication::authorization_is_current`. -/
def authorizationIsCurrent : Script Mutex := storeCall

/-- `SessionAuthentication::register_live_session`. -/
def registerLiveSession : Script Mutex := seq authorizationIsCurrent (sometimes (guard .live skip))

/-- `SessionAuthentication::unregister_live_session`. -/
def unregisterLiveSession : Script Mutex := guard .live skip

/-- `DeviceRegistry::publish_authenticated_device`. The variable `candidate`
is filled, and `owner` within the lock. -/
def publishAuthenticatedDevice (c : ℕ) : Script Mutex :=
  scope (seq (lockWeak c skip)
    (scope (guard .registry (sometimes (any (fun owner => lockWeak owner skip))))))

/-- `DeviceRegistry::remove_device`. -/
def removeDevice : Script Mutex := guard .registry skip

/-- `DeviceRegistry::is_already_connected`. -/
def isAlreadyConnected : Script Mutex := guard .registry skip

/-- `DeviceRegistry::get_devices_copy`. -/
def getDevicesCopy : Script Mutex := guard .registry skip

/-- `ConnectionManager::register_connection`. -/
def registerConnection : Script Mutex := guard .manager skip

/-- `ConnectionManager::unregister_connection`. -/
def unregisterConnection : Script Mutex := guard .manager skip

/-- `ConnectionManager::find`, into a variable of the caller. -/
def find (c : ℕ) : Script Mutex := guard .manager (lockWeak c skip)

/-- `EventBus::emit_message`. -/
def emitMessage : Script Mutex := guard .events skip

/-- `EventBus::consume_events`. -/
def consumeEvents : Script Mutex := guard .events skip

/-! ## Connections -/

/-- `Connection::request_disconnect`. -/
def requestDisconnect (c : ℕ) : Script Mutex := guard (.lifecycle c) (guard (.socket c) skip)

/-- `Connection::send_packet_locked`. -/
def sendPacketLocked (c : ℕ) : Script Mutex := sometimes (requestDisconnect c)

/-- `Connection::send_packet`. -/
def sendPacket (c : ℕ) : Script Mutex :=
  guard (.write c) (sometimes (either (sendPacketLocked c)
    (seq authorizationIsCurrent (either (requestDisconnect c) (sendPacketLocked c)))))

/-- `Connection::send_preface`. -/
def sendPreface (c : ℕ) : Script Mutex := guard (.write c) (sometimes (requestDisconnect c))

/-- `Connection::send_initial_hello`. -/
def sendInitialHello (c : ℕ) : Script Mutex := guard (.write c) (sometimes (sendPacketLocked c))

/-- `Connection::accept_peer_preface`. -/
def acceptPeerPreface (c : ℕ) : Script Mutex :=
  sometimes (seq (sendInitialHello c) (sometimes (requestDisconnect c)))

/-- `Connection::activate_authorized_peer`. -/
def activateAuthorizedPeer (c : ℕ) : Script Mutex :=
  sometimes (seq (scope (lockWeak c skip)) (seq
    (guard (.write c) (guard (.lifecycle c) (sometimes (seq registerLiveSession (sometimes
      (seq (publishAuthenticatedDevice c) (sometimes unregisterLiveSession)))))))
    (sometimes (any (fun replaced => scope (lockWeak replaced (requestDisconnect replaced)))))))

/-- `Connection::complete_authentication_after_verified_identity`. -/
def completeAuthentication (c : ℕ) : Script Mutex :=
  seq (sometimes storeCall) (sometimes (activateAuthorizedPeer c))

/-- **`Connection::finalize_disconnect`.** -/
def finalizeDisconnect (c : ℕ) : Script Mutex :=
  seq (requestDisconnect c) (guard (.write c) (guard (.socket c)
    (sometimes (seq unregisterLiveSession (seq removeDevice unregisterConnection)))))

/-- `PacketRouter::route`, with a pointer from `shared_from_this`. -/
def route (c : ℕ) : Script Mutex :=
  scope (lockWeak c (sometimes (either emitMessage (sendPacket c))))

/-- `Connection::handle_record`. -/
def handleRecord (c : ℕ) : Script Mutex :=
  seq (sometimes (seq (sometimes authorizationIsCurrent) (sometimes (route c))))
    (sometimes (requestDisconnect c))

/-- `Connection::receive_loop`. -/
def receiveLoop (c : ℕ) : Script Mutex :=
  many (seq (many (seq (acceptPeerPreface c) (sometimes (handleRecord c))))
    (seq (sometimes (acceptPeerPreface c)) (sometimes (requestDisconnect c))))

/-- The worker that `Connection::start` starts. -/
def worker (c : ℕ) : Script Mutex :=
  seq (sendPreface c) (seq (sometimes (receiveLoop c)) (finalizeDisconnect c))

/-- `Connection::start`. -/
def start (c : ℕ) : Script Mutex := sometimes (either (spawn c (worker c)) (finalizeDisconnect c))

/-- `Connection::create`, and `start`. -/
def connect : Script Mutex := scope (create (fun c => seq registerConnection (start c)))

/-! ## Threads -/

/-- `SessionAuthentication::monitor_live_authorizations`. While it waits, the
mutex is not held. -/
def monitorLiveAuthorizations : Script Mutex :=
  many (seq (guard .live skip) (seq (many (guard .live skip)) (seq storeCall
    (sometimes (seq (guard .live skip) (many (seq storeCall (sometimes (seq (guard .live skip)
      (sometimes (any (fun c => scope (lockWeak c (requestDisconnect c))))))))))))))

/-- `MessageService::send_to_device`. -/
def sendToDevice : Script Mutex :=
  seq getDevicesCopy (sometimes (any (fun c => scope (lockWeak c (sometimes (sendPacket c))))))

/-- `MessageService::broadcast_message`. -/
def broadcastMessage : Script Mutex :=
  seq getDevicesCopy (many (any (fun c => scope (lockWeak c (sometimes (sendPacket c))))))

/-- `handle_api_client`. -/
def handleApiClient : Script Mutex :=
  sometimes (either getDevicesCopy (either consumeEvents (sometimes sendToDevice)))

/-- `DiscoveryClient::on_device_discovered`, up to the thread it starts. -/
def onDeviceDiscovered : Script Mutex := sometimes (guard .discovery isAlreadyConnected)

/-- The thread that it starts. -/
def dial : Script Mutex := seq (sometimes connect) (guard .discovery skip)

/-- **What threads are started with.** -/
inductive Entry
  | monitor
  /-- `Server::start`. -/
  | server
  | discovered
  | dial
  | apiClient
  /-- The thread of `main` that sends a message. -/
  | sender
  /-- A connection is authenticated, by whoever has a pointer to it. -/
  | authenticate
  /-- A connection is looked up. -/
  | find
  /-- The trust store is used. -/
  | administer
  deriving DecidableEq, Repr

def Entry.script : Entry → Script Mutex
  | .monitor => monitorLiveAuthorizations
  | .server => many connect
  | .discovered => many onDeviceDiscovered
  | .dial => Locking.dial
  | .apiClient => handleApiClient
  | .sender => seq (many getDevicesCopy) broadcastMessage
  | .authenticate => any (fun c => scope (lockWeak c (completeAuthentication c)))
  | .find => any (fun c => scope (Locking.find c))
  | .administer => many storeCall

/-- The connection a mutex is part of. -/
def Mutex.owner : Mutex → Option ℕ
  | .write c => some c
  | .lifecycle c => some c
  | .socket c => some c
  | _ => none

/-- The order of the mutexes. -/
def Mutex.rank : Mutex → ℕ
  | .discovery => 0
  | .write _ => 1
  | .lifecycle _ => 2
  | .socket _ => 3
  | _ => 4

/-- **The process.** The destructor of a connection is
`finalize_disconnect`. -/
def program : LockProgram Mutex Entry where
  owner := Mutex.owner
  rank := Mutex.rank
  ceiling := 4
  destructor := finalizeDisconnect
  entry := Entry.script

/-! ## The order is kept -/

/-- All mutexes that are held rank lower. -/
def Below (n : ℕ) (held : List Mutex) : Prop := ∀ m ∈ held, m.rank < n

section Ordered

variable {held : List Mutex} {owned buried : List ℕ} {slot : Bool} {c n : ℕ}

theorem Below.mono {k : ℕ} (h : Below n held) (hle : n ≤ k) : Below k held :=
  fun m hm => (h m hm).trans_le hle

theorem Below.cons {l : Mutex} (h : Below l.rank held) (hlt : l.rank < n) :
    Below n (l :: held) := by
  intro m hm
  rcases List.mem_cons.mp hm with rfl | hm
  · exact hlt
  · exact (h m hm).trans hlt

theorem below_nil : Below n [] := fun _ hm => absurd hm List.not_mem_nil

theorem within_sometimes {s : Script Mutex} (h : s.Within program held owned buried slot) :
    (sometimes s).Within program held owned buried slot := ⟨trivial, h⟩

/-- **A mutex in its order**, of a connection that there is a pointer to. -/
theorem within_guard {l : Mutex} {body : Script Mutex} (howner : ∀ d, l.owner = some d → d ∈ owned)
    (hbelow : Below l.rank held) (hbody : body.Within program (l :: held) owned buried slot) :
    (guard l body).Within program held owned buried slot :=
  ⟨fun d hd => .inl (howner d hd), .inl hbelow, hbody⟩

/-- The mutex of a table, behind all of connections. -/
theorem within_table {l : Mutex} (hbelow : Below 4 held) (howner : l.owner = none)
    (hrank : l.rank = 4) : (guard l skip).Within program held owned buried slot := by
  refine within_guard (fun d hd => ?_) (hrank ▸ hbelow) trivial
  rw [howner] at hd
  cases hd

/-- **A variable with a pointer**, if the object is still there. -/
theorem within_pointer {body : Script Mutex} (hbelow : Below 4 held)
    (hbody : body.Within program held (c :: owned) buried true) :
    (scope (lockWeak c body)).Within program held owned buried slot := ⟨hbelow, rfl, hbody⟩

theorem requestDisconnect_within (hc : c ∈ owned) (h : Below 2 held) :
    (requestDisconnect c).Within program held owned buried slot := by
  have howner : ∀ d, some c = some d → d ∈ owned := fun d hd => Option.some.inj hd ▸ hc
  refine within_guard (l := .lifecycle c) howner h ?_
  exact within_guard (l := .socket c) howner (Below.cons h (by simp [Mutex.rank])) trivial

theorem registerLiveSession_within (h : Below 4 held) :
    registerLiveSession.Within program held owned buried slot :=
  ⟨within_table h rfl rfl, within_sometimes (within_table h rfl rfl)⟩

theorem publishAuthenticatedDevice_within (h : Below 4 held) :
    (publishAuthenticatedDevice c).Within program held owned buried slot := by
  refine ⟨h, ⟨rfl, trivial⟩, h, ?_⟩
  refine within_guard (l := .registry) (fun d hd => by cases hd) h ?_
  exact within_sometimes (fun owner => ⟨rfl, trivial⟩)

theorem sendPacketLocked_within (hc : c ∈ owned) (h : Below 2 held) :
    (sendPacketLocked c).Within program held owned buried slot :=
  within_sometimes (requestDisconnect_within hc h)

/-- A function of a connection that locks `write_mutex_` first. -/
theorem within_write {body : Script Mutex} (hc : c ∈ owned) (h : Below 1 held)
    (hbody : body.Within program (.write c :: held) owned buried slot) :
    (guard (.write c) body).Within program held owned buried slot :=
  within_guard (l := .write c) (fun _ hd => Option.some.inj hd ▸ hc) h hbody

theorem sendPacket_within (hc : c ∈ owned) (h : Below 1 held) :
    (sendPacket c).Within program held owned buried slot := by
  have hwrite : Below 2 (.write c :: held) := Below.cons h (by simp [Mutex.rank])
  refine within_write hc h (within_sometimes ⟨sendPacketLocked_within hc hwrite, ?_, ?_⟩)
  · exact within_table (hwrite.mono (by decide)) rfl rfl
  · exact ⟨requestDisconnect_within hc hwrite, sendPacketLocked_within hc hwrite⟩

theorem sendPreface_within (hc : c ∈ owned) (h : Below 1 held) :
    (sendPreface c).Within program held owned buried slot :=
  within_write hc h (within_sometimes
    (requestDisconnect_within hc (Below.cons h (by simp [Mutex.rank]))))

theorem acceptPeerPreface_within (hc : c ∈ owned) (h : Below 1 held) :
    (acceptPeerPreface c).Within program held owned buried slot := by
  refine within_sometimes ⟨within_write hc h (within_sometimes ?_), within_sometimes ?_⟩
  · exact sendPacketLocked_within hc (Below.cons h (by simp [Mutex.rank]))
  · exact requestDisconnect_within hc (h.mono (by decide))

/-- **A connection is made ready.** A pointer to another one may go here, with
two mutexes held. -/
theorem activateAuthorizedPeer_within (hc : c ∈ owned) (h : Below 1 held) :
    (activateAuthorizedPeer c).Within program held owned buried slot := by
  have hall : Below 4 (.lifecycle c :: .write c :: held) :=
    Below.cons (Below.cons h (by simp [Mutex.rank])) (by simp [Mutex.rank])
  refine within_sometimes ⟨within_pointer (h.mono (by decide)) trivial, ?_, ?_⟩
  · refine within_write hc h (within_guard (l := .lifecycle c)
      (fun _ hd => Option.some.inj hd ▸ hc) (Below.cons h (by simp [Mutex.rank]))
      (within_sometimes ?_))
    refine ⟨registerLiveSession_within hall, within_sometimes ⟨?_, within_sometimes ?_⟩⟩
    · exact publishAuthenticatedDevice_within hall
    · exact within_table hall rfl rfl
  · refine within_sometimes (fun replaced => within_pointer (h.mono (by decide)) ?_)
    exact requestDisconnect_within List.mem_cons_self (h.mono (by decide))

theorem handleRecord_within (hc : c ∈ owned) (h : Below 1 held) :
    (handleRecord c).Within program held owned buried slot := by
  have htable : Below 4 held := h.mono (by decide)
  refine ⟨within_sometimes ⟨within_sometimes (within_table htable rfl rfl), within_sometimes ?_⟩,
    within_sometimes (requestDisconnect_within hc (h.mono (by decide)))⟩
  refine within_pointer htable (within_sometimes ⟨within_table htable rfl rfl, ?_⟩)
  exact sendPacket_within List.mem_cons_self h

theorem receiveLoop_within (hc : c ∈ owned) (h : Below 1 held) :
    (receiveLoop c).Within program held owned buried slot := by
  refine ⟨⟨acceptPeerPreface_within hc h, within_sometimes (handleRecord_within hc h)⟩, ?_, ?_⟩
  · exact within_sometimes (acceptPeerPreface_within hc h)
  · exact within_sometimes (requestDisconnect_within hc (h.mono (by decide)))

/-- The tables are cleaned up, whatever is held of connections. -/
theorem cleanup_within (h : Below 4 held) :
    (sometimes (seq unregisterLiveSession (seq removeDevice unregisterConnection))).Within program
      held owned buried slot :=
  within_sometimes ⟨within_table h rfl rfl, within_table h rfl rfl, within_table h rfl rfl⟩

theorem finalizeDisconnect_within (hc : c ∈ owned) (h : Below 1 held) :
    (finalizeDisconnect c).Within program held owned buried slot := by
  have hwrite : Below 3 (.write c :: held) := Below.cons h (by simp [Mutex.rank])
  refine ⟨requestDisconnect_within hc (h.mono (by decide)), within_write hc h ?_⟩
  refine within_guard (l := .socket c) (fun _ hd => Option.some.inj hd ▸ hc) hwrite ?_
  exact cleanup_within (Below.cons hwrite (by simp [Mutex.rank]))

/-- **A destructor**, wherever it runs: the mutexes of the connection are its
own, and the tables come behind all that are held. -/
theorem destructor_within (h : Below 4 held) (hfree : ∀ m ∈ held, m.owner ≠ some c) :
    (finalizeDisconnect c).Within program held owned (c :: buried) slot := by
  have hown : ∀ {l : Mutex} {held' : List Mutex} {body : Script Mutex}, l.owner = some c →
      l ∉ held' → body.Within program (l :: held') owned (c :: buried) slot →
      (guard l body).Within program held' owned (c :: buried) slot := by
    intro l held' body howner hnot hbody
    refine ⟨fun d hd => .inr ?_, .inr ⟨c, List.mem_cons_self, howner, hnot⟩, hbody⟩
    obtain rfl : c = d := Option.some.inj (howner.symm.trans hd)
    exact List.mem_cons_self
  have hnot : ∀ l : Mutex, l.owner = some c → l ∉ held := fun l hl hmem => hfree l hmem hl
  refine ⟨hown (l := .lifecycle c) rfl (hnot _ rfl) (hown (l := .socket c) rfl ?_ trivial),
    hown (l := .write c) rfl (hnot _ rfl) (hown (l := .socket c) rfl ?_ (cleanup_within ?_))⟩
  · simpa using hnot (.socket c) rfl
  · simpa using hnot (.socket c) rfl
  · intro m hm
    rcases List.mem_cons.mp hm with rfl | hm
    · simp [Mutex.rank]
    · rcases List.mem_cons.mp hm with rfl | hm
      · simp [Mutex.rank]
      · exact h m hm

theorem connect_within : connect.Within program [] [] [] false := by
  refine ⟨below_nil, rfl, fun c => ⟨within_table below_nil rfl rfl, within_sometimes ⟨?_, ?_⟩⟩⟩
  · have hself : c ∈ [c] := List.mem_cons_self
    refine ⟨List.mem_cons_self, sendPreface_within hself below_nil, within_sometimes ?_, ?_⟩
    · exact receiveLoop_within hself below_nil
    · exact finalizeDisconnect_within hself below_nil
  · exact finalizeDisconnect_within List.mem_cons_self below_nil

theorem monitorLiveAuthorizations_within :
    monitorLiveAuthorizations.Within program [] [] [] slot := by
  have htable : ∀ {l : Mutex}, l.owner = none → l.rank = 4 →
      (guard l skip).Within program [] [] [] slot := fun howner hrank =>
    within_table below_nil howner hrank
  refine ⟨htable rfl rfl, htable rfl rfl, htable rfl rfl, within_sometimes ⟨htable rfl rfl, ?_⟩⟩
  refine ⟨htable rfl rfl, within_sometimes ⟨htable rfl rfl, within_sometimes (fun c => ?_)⟩⟩
  exact within_pointer below_nil (requestDisconnect_within List.mem_cons_self below_nil)

/-- A message to a connection that is looked up. -/
theorem message_within : (any (fun c => scope (lockWeak c (sometimes (sendPacket c))))).Within
    program [] [] [] slot :=
  fun _ => within_pointer below_nil (within_sometimes
    (sendPacket_within List.mem_cons_self below_nil))

theorem onDeviceDiscovered_within : onDeviceDiscovered.Within program [] [] [] slot := by
  refine within_sometimes (within_guard (l := .discovery) (fun d hd => by cases hd) below_nil ?_)
  exact within_table (Below.cons below_nil (by simp [Mutex.rank])) rfl rfl

theorem entry_within (e : Entry) : e.script.Within program [] [] [] false := by
  have hdevices : getDevicesCopy.Within program [] [] [] false := within_table below_nil rfl rfl
  cases e with
  | monitor => exact monitorLiveAuthorizations_within
  | server => exact connect_within
  | discovered => exact onDeviceDiscovered_within
  | dial =>
    refine ⟨within_sometimes connect_within, ?_⟩
    exact within_guard (l := .discovery) (fun d hd => by cases hd) below_nil trivial
  | apiClient =>
    refine within_sometimes ⟨hdevices, within_table below_nil rfl rfl, within_sometimes ?_⟩
    exact ⟨hdevices, within_sometimes message_within⟩
  | sender => exact ⟨hdevices, hdevices, message_within⟩
  | authenticate =>
    refine fun c => within_pointer below_nil ⟨within_sometimes (within_table below_nil rfl rfl), ?_⟩
    exact within_sometimes (activateAuthorizedPeer_within List.mem_cons_self below_nil)
  | find =>
    refine fun c => ⟨below_nil, within_guard (l := .manager) (fun d hd => by cases hd) below_nil ?_⟩
    exact ⟨rfl, trivial⟩
  | administer => exact within_table below_nil rfl rfl

/-- **The process keeps to the order.** -/
theorem ordered : program.Ordered :=
  ⟨entry_within, fun _ _ _ _ _ h hfree => destructor_within h hfree⟩

end Ordered

/-! ## Every run of the process -/

/-- **No set of threads is deadlocked.** Whatever has happened, among threads
that are not done one can go on, or waits for a mutex that none of them
holds. -/
theorem no_deadlock {events : List (ThreadEvent Entry)} {s : Threads Mutex}
    (h : runs (Threads.step program) .initial events = some s) {D : Finset ℕ} (hD : D.Nonempty)
    (hbusy : ∀ t ∈ D, s.stack t ≠ []) :
    ∃ t ∈ D, (∃ choice, (s.go program t choice).isSome = true)
      ∨ ∃ l, s.Waits t l ∧ ∀ u ∈ D, l ∉ heldBy (s.stack u) :=
  (Threads.sound_of_runs ordered h).progress hD hbusy

/-- A connection comes in, its worker sends the preface, and then somebody has
it authenticated. -/
def prefaceAndAuthentication : List (ThreadEvent Entry) :=
  [ThreadEvent.start Entry.server] ++ List.replicate 8 (ThreadEvent.go 0 1)
    ++ List.replicate 2 (ThreadEvent.go 0 0) ++ List.replicate 2 (ThreadEvent.go 1 0)
    ++ [ThreadEvent.start Entry.authenticate] ++ List.replicate 6 (ThreadEvent.go 2 0)
    ++ List.replicate 2 (ThreadEvent.go 2 1) ++ List.replicate 7 (ThreadEvent.go 2 0)

theorem no_deadlock_preface : ∃ s, runs (Threads.step program) .initial prefaceAndAuthentication
      = some s ∧ .write 0 ∈ heldBy (s.stack 1)
    ∧ ∃ t ∈ ({1, 2} : Finset ℕ), (∃ choice, (s.go program t choice).isSome = true)
      ∨ ∃ l, s.Waits t l ∧ ∀ u ∈ ({1, 2} : Finset ℕ), l ∉ heldBy (s.stack u) := by
  have hrun : (runs (Threads.step program) .initial prefaceAndAuthentication).any (fun s =>
      decide (.write 0 ∈ heldBy (s.stack 1)) && !(s.stack 1).isEmpty && !(s.stack 2).isEmpty)
        = true := by decide +kernel
  obtain ⟨s, hs, hstacks⟩ := (Option.any_eq_true _ _).mp hrun
  simp only [Bool.and_eq_true, decide_eq_true_eq, Bool.not_eq_true'] at hstacks
  obtain ⟨⟨hheld, hone⟩, htwo⟩ := hstacks
  refine ⟨s, hs, hheld, no_deadlock hs ⟨1, by simp⟩ (fun t ht => ?_)⟩
  rcases Finset.mem_insert.mp ht with rfl | ht
  · exact List.isEmpty_eq_false_iff.mp hone
  · rw [Finset.mem_singleton.mp ht]
    exact List.isEmpty_eq_false_iff.mp htwo

/-- **A connection that is gone is gone for good.** Once nobody has a pointer
to it, nobody gets one; its destructor is not entered again; and only a thread
that is in the destructor by then holds or asks for one of its mutexes. -/
theorem gone_for_good {events later : List (ThreadEvent Entry)} {s s' : Threads Mutex} {c : ℕ}
    (h : runs (Threads.step program) .initial events = some s) (hgone : s.Gone c)
    (h' : runs (Threads.step program) s later = some s') :
    (∀ t, c ∉ ownedBy (s'.stack t))
      ∧ (∀ t, (buriedBy (s'.stack t)).count c ≤ (buriedBy (s.stack t)).count c)
      ∧ ∀ t l, l.owner = some c → l ∈ heldBy (s'.stack t) ∨ s'.Asks t l →
        c ∈ buriedBy (s.stack t) := by
  have hsound := Threads.sound_of_runs ordered h
  have hstays := hsound.gone_runs ordered hgone h'
  have hlater : s'.Sound program :=
    runs_invariant (I := Threads.Sound program) (fun _ _ _ hs he => hs.step ordered he) h' hsound
  refine ⟨hstays.gone.lost, hstays.buried, fun t l howner huse => ?_⟩
  rcases hlater.entitled howner huse with howned | hburied
  · exact absurd howned (hstays.gone.lost t)
  · have hcount := (List.count_pos_iff.mpr hburied).trans_le (hstays.buried t)
    exact List.count_pos_iff.mp hcount

/-- A connection comes in, and no worker can be started for it. -/
def workerStartupFailed : List (ThreadEvent Entry) :=
  [ThreadEvent.start Entry.server] ++ List.replicate 10 (ThreadEvent.go 0 1)
    ++ List.replicate 12 (ThreadEvent.go 0 0)

/-- Somebody has the connection authenticated while it is destroyed. -/
def lateAuthentication : List (ThreadEvent Entry) :=
  [ThreadEvent.start Entry.authenticate] ++ List.replicate 3 (ThreadEvent.go 1 0)
    ++ List.replicate 2 (ThreadEvent.go 0 0)

theorem gone_for_good_failed : ∃ s s',
    runs (Threads.step program) .initial workerStartupFailed = some s ∧ s.Gone 0
      ∧ runs (Threads.step program) s lateAuthentication = some s'
      ∧ (∀ t, 0 ∉ ownedBy (s'.stack t))
      ∧ (∀ t, (buriedBy (s'.stack t)).count 0 ≤ (buriedBy (s.stack t)).count 0)
      ∧ ∀ t l, l.owner = some 0 → l ∈ heldBy (s'.stack t) ∨ s'.Asks t l →
        0 ∈ buriedBy (s.stack t) := by
  have hrun : (runs (Threads.step program) .initial workerStartupFailed).any (fun s =>
      decide (0 < s.nextObject) && !s.isAlive 0
        && (runs (Threads.step program) s lateAuthentication).isSome) = true := by decide +kernel
  obtain ⟨s, hs, hstate⟩ := (Option.any_eq_true _ _).mp hrun
  simp only [Bool.and_eq_true, decide_eq_true_eq, Bool.not_eq_true'] at hstate
  obtain ⟨⟨hold, halive⟩, hlater⟩ := hstate
  obtain ⟨s', hs'⟩ := Option.isSome_iff_exists.mp hlater
  have hgone : s.Gone 0 :=
    (Threads.gone_iff (Threads.sound_of_runs ordered hs)).mpr ⟨hold, halive⟩
  exact ⟨s, s', hs, hgone, hs', gone_for_good hs hgone hs'⟩

end Locking

end Gasoline
