import Gasoline.ApiAnswers
import Gasoline.Polling

/-!
# Clients of the control API

Clients are followed from `accept` to `close`, in every run of the process:
with other clients at work, sessions that come and go, and `recv` and `send`
that cut what they move anywhere. Every client that the API server is done
with was sent one response, the one that what its calls returned in the run
asks for (`Daemon.clients_answered`).
-/

namespace Gasoline

namespace ApiServer

/-! ## What a step does -/

/-- **What an event does to the thread of a client**: it goes on as another
client, takes these batches from the event bus, and leaves these sessions. -/
inductive Turn (host : Host) (lib : JsonLibrary) (n : Node) (i : ℕ) (c : Client) :
    DaemonEvent → Client → List (List MessageEvent) → Node → Prop
  | recv {data : Option Bytes} {c' : Client} (h : Daemon.recv lib c data = some c') :
      Turn host lib n i c (.recv i data) c' [] n
  | send {count : Option ℕ} {c' : Client} (h : Daemon.send c count = some c') :
      Turn host lib n i c (.send i count) c' [] n
  | list (h : c.stage = .devices) :
      Turn host lib n i c (.work i) { c with
        stage := .listing lib (n.registry.map (deviceItem host.myDeviceId))
        listed := some n.registry } [] n
  | poll (h : c.stage = .events) :
      Turn host lib n i c (.work i) { c with stage := .listing lib (n.events.map eventItem) }
        [n.events] { n with events := [] }
  | lookup {deviceId text : Bytes} (h : c.stage = .lookup deviceId text) :
      Turn host lib n i c (.work i)
        { c with stage := .sendToDevice n.registry deviceId text } [] n
  | skip {device : Device} {text : Bytes} (h : c.stage = .lock device text)
      (hgone : (n.connection device.sessionId).all Connection.released || device.state ≠ .ready) :
      Turn host lib n i c (.work i) { c with stage := .responding .queued } [] n
  | lock {device : Device} {text : Bytes} (h : c.stage = .lock device text)
      (hheld : ¬ ((n.connection device.sessionId).all Connection.released
        || device.state ≠ .ready)) :
      Turn host lib n i c (.work i) { c with
        stage := .sendPacket device.sessionId (buildMessagePacket host.myDeviceId text) } [] n
  | post {session : ℕ} {packet : Json} {n' : Node} (h : c.stage = .sendPacket session packet)
      (hn : n.step host (.send session packet) = some n') :
      Turn host lib n i c (.work i) { c with stage := .sending session } [] n'
  | sent {response : Response} {sent : ℕ} (h : c.stage = .respond response sent)
      (hall : ¬ sent < response.bytes.length) :
      Turn host lib n i c (.work i) { c with stage := .close (some response) } [] n
  | closed {response : Option Response} (h : c.stage = .close response) :
      Turn host lib n i c (.work i)
        { c with stage := .finished response, closes := c.closes + 1 } [] n
  | returned {session : ℕ} (h : c.stage = .sending session) :
      Turn host lib n i c (.returned i none) { c with stage := .responding .queued } [] n
  | threw {session : ℕ} (h : c.stage = .sending session) (what : Bytes) :
      Turn host lib n i c (.returned i (some what))
        { c with stage := .caught lib what, threw := some what } [] n

/-- What `recv` returned to a client. -/
def received (i : ℕ) : DaemonEvent → Option Bytes
  | .recv j data => if j = i then data else none
  | _ => none

section Turns

variable {host : Host} {lib : JsonLibrary} {n n' : Node} {i : ℕ} {c c' : Client}
  {e : DaemonEvent} {batches : List (List MessageEvent)}

/-- `recv` adds a piece to the request, or ends it. -/
theorem recv_cases {data : Option Bytes} (h : Daemon.recv lib c data = some c') :
    c.stage.isReading = true
      ∧ ((data = none ∧ c' = { c with stage := .responding .incomplete })
        ∨ ∃ piece stage, data = some piece ∧ (piece ≠ [] ∧ piece.length ≤ apiBufferSize)
          ∧ c' = { c with stage := stage, chunks := c.chunks ++ [piece] }) := by
  cases data with
  | none =>
    simp only [Daemon.recv] at h
    cases hstage : c.stage with
    | readHead request | readBody request targetSize =>
      simp only [hstage, Option.some.injEq] at h
      exact ⟨rfl, .inl ⟨rfl, h.symm⟩⟩
    | _ =>
      simp only [hstage] at h
      cases h
  | some piece =>
    simp only [Daemon.recv] at h
    split at h
    · cases h
    · rename_i hguard
      have hpiece : piece ≠ [] ∧ piece.length ≤ apiBufferSize := by simpa using hguard
      cases hstage : c.stage with
      | readHead request | readBody request targetSize =>
        simp only [hstage, Option.some.injEq] at h
        exact ⟨rfl, .inr ⟨piece, _, rfl, hpiece, h.symm⟩⟩
      | _ =>
        simp only [hstage] at h
        cases h

/-- `send` moves a part of the response, or fails. -/
theorem send_cases {count : Option ℕ} (h : Daemon.send c count = some c') :
    ∃ response, c'.stage.answer? = some response
      ∧ ∃ accepted failed,
        c' = { c with stage := c'.stage, accepted := accepted, failed := failed } := by
  unfold Daemon.send at h
  split at h
  · obtain ⟨-, h⟩ := Option.ite_none_right_eq_some.mp h
    cases h
    exact ⟨_, rfl, _, _, rfl⟩
  · obtain ⟨-, h⟩ := Option.ite_none_right_eq_some.mp h
    cases h
    exact ⟨_, rfl, _, _, rfl⟩
  · cases h

/-- An event of one client is none of another. -/
theorem Turn.other (h : Turn host lib n i c e c' batches n') {j : ℕ} (hj : j ≠ i) :
    received j e = none ∧ e ≠ .work j ∧ ∀ what, e ≠ .returned j (some what) := by
  cases h <;> simp [received, hj.symm]

theorem Turn.chunks (h : Turn host lib n i c e c' batches n') :
    c'.chunks = c.chunks ++ (received i e).toList := by
  cases h with
  | recv h =>
    obtain ⟨-, ⟨rfl, rfl⟩ | ⟨piece, stage, rfl, -, rfl⟩⟩ := recv_cases h
    · simp [received]
    · simp [received]
  | send h =>
    obtain ⟨response, -, accepted, failed, heq⟩ := send_cases h
    rw [heq]
    simp [received]
  | _ => simp [received]

/-- **Only `handle_get_events` takes a batch.** -/
theorem Turn.takes (h : Turn host lib n i c e c' batches n') (batch : List MessageEvent) :
    batch ∈ batches ↔ e = .work i ∧ c.stage = .events ∧ n.events = batch := by
  cases h with
  | poll h => simp [h, eq_comm]
  | _ => simp_all

/-- **Only `handle_get_devices` lists the registry.** -/
theorem Turn.listed (h : Turn host lib n i c e c' batches n')
    (hnone : c.stage = .devices → c.listed = none) (registry : List Device) :
    c'.listed = some registry
      ↔ c.listed = some registry ∨ e = .work i ∧ c.stage = .devices ∧ n.registry = registry := by
  cases h with
  | recv h =>
    obtain ⟨-, ⟨rfl, rfl⟩ | ⟨piece, stage, rfl, -, rfl⟩⟩ := recv_cases h <;> simp
  | send h =>
    obtain ⟨response, -, accepted, failed, heq⟩ := send_cases h
    rw [heq]
    simp
  | _ => simp_all

/-- **Only `send_packet` throws.** -/
theorem Turn.throws (h : Turn host lib n i c e c' batches n')
    (hnone : ∀ session, c.stage = .sending session → c.threw = none) (what : Bytes) :
    c'.threw = some what ↔ c.threw = some what ∨ e = .returned i (some what) := by
  cases h with
  | recv h =>
    obtain ⟨-, ⟨rfl, rfl⟩ | ⟨piece, stage, rfl, -, rfl⟩⟩ := recv_cases h <;> simp
  | send h =>
    obtain ⟨response, -, accepted, failed, heq⟩ := send_cases h
    rw [heq]
    simp
  | threw h what' => simp [hnone _ h]
  | _ => simp_all

/-- **An exception leaves a thread** where its request has arrived, where it
lists the registry or the messages, or where `send_packet` throws. -/
theorem Turn.terminated (h : Turn host lib n i c e c' batches n')
    (hstage : c'.stage = .terminated) :
    (c.stage.isReading = true ∧ c'.threw = c.threw ∧ ∃ data, e = .recv i (some data))
      ∨ c'.listed ≠ none ∨ batches ≠ []
      ∨ ∃ what, c'.threw = some what ∧ e = .returned i (some what) := by
  cases h
  case recv data hstep =>
    obtain ⟨hreading, ⟨rfl, rfl⟩ | ⟨piece, stage, rfl, -, rfl⟩⟩ := recv_cases hstep
    · cases hstage
    · exact .inl ⟨hreading, rfl, piece, rfl⟩
  case send count hstep =>
    obtain ⟨response, hanswer, -⟩ := send_cases hstep
    rw [hstage] at hanswer
    cases hanswer
  case list => exact .inr (.inl (Option.some_ne_none _))
  case poll => exact .inr (.inr (.inl (List.cons_ne_nil _ _)))
  case lookup deviceId text hlookup =>
    simp only [Stage.sendToDevice] at hstage
    split at hstage <;> cases hstage
  case threw session hsending what => exact .inr (.inr (.inr ⟨what, rfl, rfl⟩))
  all_goals cases hstage

end Turns

/-! ## What a client was sent -/

namespace Client

/-- **What the socket has accepted**, and how often it was closed. -/
def Accounts (c : Client) : Prop :=
  match c.stage with
  | .respond response sent =>
    c.accepted = response.bytes.take sent ∧ sent ≤ response.bytes.length ∧ c.failed = false
      ∧ c.closes = 0
  | .close response =>
    c.accepted <+: response.elim [] Response.bytes
      ∧ (c.failed = false → c.accepted = response.elim [] Response.bytes) ∧ c.closes = 0
  | .finished response =>
    c.accepted <+: response.elim [] Response.bytes
      ∧ (c.failed = false → c.accepted = response.elim [] Response.bytes) ∧ c.closes = 1
  | _ => c.accepted = [] ∧ c.failed = false ∧ c.closes = 0

/-- **What is known of a client**, that has taken these batches from the event
bus. -/
structure Sound (lib : JsonLibrary) (myDeviceId : Bytes) (taken : List (List MessageEvent))
    (c : Client) : Prop where
  serves : Serves lib myDeviceId (c.inputs taken) c.stage
  accounts : c.Accounts

end Client

/-- Nothing was sent yet. -/
def Stage.begins : Stage → Bool
  | .respond _ sent => sent == 0
  | .close response => response.isNone
  | .finished _ => false
  | _ => true

section Beginning

variable (lib : JsonLibrary)

theorem Stage.begins_dumping (r : Response) (body : Json) : (dumping lib r body).begins = true := by
  unfold dumping
  split <;> rfl

theorem Stage.begins_dispatch (request : Bytes) : (dispatch lib request).begins = true := by
  unfold dispatch
  split
  case h_6 body _ =>
    unfold postSend
    split
    · exact begins_dumping lib _ _
    · split
      · split
        · exact begins_dumping lib _ _
        · exact begins_dumping lib _ _
        · split <;> rfl
      · rfl
  all_goals rfl

theorem HasRead.begins {chunks : List Bytes} {stage : Stage} (h : HasRead lib chunks stage) :
    stage.begins = true := by
  cases h with
  | more h => cases h <;> rfl
  | refused => rfl
  | done => exact Stage.begins_dispatch lib _

end Beginning

theorem Client.Accounts.of_begins {c : Client} (h : c.stage.begins = true)
    (haccepted : c.accepted = []) (hfailed : c.failed = false) (hcloses : c.closes = 0) :
    c.Accounts := by
  obtain ⟨stage, chunks, listed, threw, accepted, failed, closes⟩ := c
  subst haccepted hfailed hcloses
  cases stage with
  | respond response sent =>
    obtain rfl : sent = 0 := by simpa [Stage.begins] using h
    exact ⟨rfl, Nat.zero_le _, rfl, rfl⟩
  | close response =>
    obtain rfl : response = none := by simpa [Stage.begins] using h
    exact ⟨List.nil_prefix, fun _ => rfl, rfl⟩
  | finished response => cases h
  | _ => exact ⟨rfl, rfl, rfl⟩

/-- The thread has not begun to respond. -/
def Stage.early : Stage → Bool
  | .respond _ _ => false
  | .close _ => false
  | .finished _ => false
  | _ => true

theorem Client.Accounts.early {c : Client} (h : c.Accounts) (hstage : c.stage.early = true) :
    c.accepted = [] ∧ c.failed = false ∧ c.closes = 0 := by
  unfold Accounts at h
  cases hs : c.stage <;> simp only [hs] at h hstage <;> first | exact h | cases hstage

section Steps

variable {host : Host} {lib : JsonLibrary} {taken : List (List MessageEvent)} {c c' : Client}

/-- **The thread goes on before its response.** -/
theorem Client.Sound.goes (h : c.Sound lib host.myDeviceId taken) (hearly : c.stage.early = true)
    {taken' : List (List MessageEvent)}
    (hsame : c'.accepted = c.accepted ∧ c'.failed = c.failed ∧ c'.closes = c.closes)
    (hserves : Serves lib host.myDeviceId (c'.inputs taken') c'.stage)
    (hbegins : c'.stage.begins = true) : c'.Sound lib host.myDeviceId taken' := by
  obtain ⟨haccepted, hfailed, hcloses⟩ := h.accounts.early hearly
  refine ⟨hserves, .of_begins hbegins ?_ ?_ ?_⟩
  · rw [hsame.1, haccepted]
  · rw [hsame.2.1, hfailed]
  · rw [hsame.2.2, hcloses]

theorem Client.Sound.recv (h : c.Sound lib host.myDeviceId taken) {data : Option Bytes}
    (hstep : Daemon.recv lib c data = some c') : c'.Sound lib host.myDeviceId taken := by
  obtain ⟨hreading, hcases⟩ := recv_cases hstep
  obtain ⟨honly, hreads⟩ := h.serves.reads hreading
  have hearly : c.stage.early = true := by
    cases hstage : c.stage <;> rw [hstage] at hreading <;> first | rfl | cases hreading
  rcases hcases with ⟨rfl, rfl⟩ | ⟨piece, stage, rfl, hpiece, rfl⟩
  · exact h.goes hearly ⟨rfl, rfl, rfl⟩ (.answering (.incomplete hreads.eq_none honly) rfl) rfl
  · obtain ⟨stage', hrecv, hread⟩ := HasRead.recv lib hreads hpiece
    obtain rfl := congrArg Client.stage (Option.some.inj (hrecv.symm.trans hstep))
    exact h.goes hearly ⟨rfl, rfl, rfl⟩ (.of_hasRead hread honly) hread.begins

theorem Client.Sound.send (h : c.Sound lib host.myDeviceId taken) {count : Option ℕ}
    (hstep : Daemon.send c count = some c') : c'.Sound lib host.myDeviceId taken := by
  obtain ⟨stage, chunks, listed, threw, accepted, failed, closes⟩ := c
  unfold Daemon.send at hstep
  cases stage with
  | respond response sent =>
    have hanswer := h.serves.answer rfl
    obtain ⟨haccepted, hsent, hfailed, hcloses⟩ := h.accounts
    cases count with
    | none =>
      obtain ⟨-, hstep⟩ := Option.ite_none_right_eq_some.mp hstep
      cases hstep
      refine ⟨.answering hanswer rfl, ?_, nofun, hcloses⟩
      exact haccepted ▸ List.take_prefix _ _
    | some count =>
      obtain ⟨⟨-, hroom⟩, hstep⟩ := Option.ite_none_right_eq_some.mp hstep
      cases hstep
      refine ⟨.answering hanswer rfl, ?_, hroom, hfailed, hcloses⟩
      show accepted ++ _ = _
      rw [show accepted = _ from haccepted, ← List.take_add]
  | _ => cases hstep

theorem Client.Sound.sent (h : c.Sound lib host.myDeviceId taken) {response : Response} {sent : ℕ}
    (hstage : c.stage = .respond response sent) (hall : ¬ sent < response.bytes.length) :
    Sound lib host.myDeviceId taken { c with stage := .close (some response) } := by
  obtain ⟨stage, chunks, listed, threw, accepted, failed, closes⟩ := c
  cases hstage
  obtain ⟨haccepted, hsent, hfailed, hcloses⟩ := h.accounts
  have hwhole : accepted = response.bytes := by
    rw [show accepted = _ from haccepted, List.take_of_length_le (not_lt.mp hall)]
  exact ⟨.answering (h.serves.answer rfl) rfl, hwhole ▸ List.prefix_rfl, fun _ => hwhole, hcloses⟩

theorem Client.Sound.closed (h : c.Sound lib host.myDeviceId taken) {response : Option Response}
    (hstage : c.stage = .close response) :
    Sound lib host.myDeviceId taken
      { c with stage := .finished response, closes := c.closes + 1 } := by
  obtain ⟨stage, chunks, listed, threw, accepted, failed, closes⟩ := c
  cases hstage
  obtain ⟨hpre, hwhole, hcloses⟩ := h.accounts
  obtain ⟨r, rfl⟩ := h.serves.exists_answer (.inl rfl)
  exact ⟨.answering (h.serves.answer rfl) rfl, hpre, hwhole, congrArg (· + 1) hcloses⟩

/-- **A thread in `send_to_device` goes on there**, or has queued the message. -/
theorem Client.Sound.sending (h : c.Sound lib host.myDeviceId taken) (hsends : c.stage.sends = true)
    {stage : Stage} (hstage : stage.sends = true ∨ stage = .responding .queued) :
    Sound lib host.myDeviceId taken { c with stage := stage } := by
  obtain ⟨honly, request, body, hread, hroute, hasks⟩ := h.serves.sends hsends
  have hearly : c.stage.early = true := by
    cases hs : c.stage <;> rw [hs] at hsends <;> first | rfl | cases hsends
  rcases hstage with hstage | rfl
  · refine h.goes hearly ⟨rfl, rfl, rfl⟩ (.sending hread hroute hasks hstage honly) ?_
    cases stage <;> first | rfl | cases hstage
  · exact h.goes hearly ⟨rfl, rfl, rfl⟩ (.answering (.queued hread hroute hasks honly) rfl) rfl

/-- **What is known of a client stays known.** -/
theorem Client.Sound.turn (h : c.Sound lib host.myDeviceId taken) {n n' : Node} {i : ℕ}
    {e : DaemonEvent} {batches : List (List MessageEvent)}
    (hturn : Turn host lib n i c e c' batches n') :
    c'.Sound lib host.myDeviceId (taken ++ batches) := by
  cases hturn
  case poll hstage =>
    obtain ⟨⟨hlisted, rfl, hthrew⟩, request, hread, hroute⟩ := h.serves.of_events hstage
    refine h.goes (by rw [hstage]; rfl) ⟨rfl, rfl, rfl⟩ ?_ (Stage.begins_dumping lib _ _)
    refine .dumping (.events ?_ hroute ⟨hlisted, rfl, hthrew⟩)
    exact hread
  -- the other steps take nothing from the event bus
  all_goals rw [List.append_nil]
  case recv hstep => exact h.recv hstep
  case send hstep => exact h.send hstep
  case list hstage =>
    obtain ⟨⟨-, htaken, hthrew⟩, request, hread, hroute⟩ := h.serves.of_devices hstage
    refine h.goes (by rw [hstage]; rfl) ⟨rfl, rfl, rfl⟩ ?_ (Stage.begins_dumping lib _ _)
    refine .dumping (.devices ?_ hroute ⟨rfl, htaken, hthrew⟩)
    exact hread
  case lookup deviceId text hstage =>
    refine h.sending (by rw [hstage]; rfl) ?_
    unfold Stage.sendToDevice
    split
    · exact .inr rfl
    · exact .inl rfl
  case skip hstage hgone => exact h.sending (by rw [hstage]; rfl) (.inr rfl)
  case lock hstage hheld => exact h.sending (by rw [hstage]; rfl) (.inl rfl)
  case post hstage hn => exact h.sending (by rw [hstage]; rfl) (.inl rfl)
  case sent hstage hall => exact h.sent hstage hall
  case closed hstage => exact h.closed hstage
  case returned hstage => exact h.sending (by rw [hstage]; rfl) (.inr rfl)
  case threw hstage what =>
    obtain ⟨⟨hlisted, htaken, -⟩, request, body, hread, hroute, hasks⟩ :=
      h.serves.sends (by rw [hstage]; rfl)
    refine h.goes (by rw [hstage]; rfl) ⟨rfl, rfl, rfl⟩ ?_ (Stage.begins_dumping lib _ _)
    refine .dumping (.error ?_ hroute (.sendPacket hasks ⟨hlisted, htaken, rfl⟩))
    exact hread

end Steps

end ApiServer

/-! ## The process with its clients -/

open ApiServer

namespace Daemon

/-- The batches that the thread of a client has taken from the event bus. -/
def taken (d : Daemon) (i : ℕ) : List (List MessageEvent) :=
  (d.polls.filter (fun p => p.1 == i)).map Prod.snd

/-- **What the calls of a client's thread have returned.** -/
def inputs (d : Daemon) (i : ℕ) : Inputs :=
  (d.clients i).elim ⟨[], none, d.taken i, none⟩ (fun c => c.inputs (d.taken i))

/-- **What is known of a process.** -/
structure Sound (lib : JsonLibrary) (myDeviceId : Bytes) (d : Daemon) : Prop where
  clients : ∀ i c, d.clients i = some c → c.Sound lib myDeviceId (d.taken i)
  accepted : ∀ i, d.nextClient ≤ i → d.clients i = none
  polls : ∀ p ∈ d.polls, (d.clients p.1).isSome
  terminated : d.terminated = true ↔ ∃ i c, d.clients i = some c ∧ c.stage = .terminated

/-- **What an event does**: the sessions take a step, or a client is accepted,
or the thread of a client goes on. -/
inductive Happens (host : Host) (lib : JsonLibrary) (d : Daemon) : DaemonEvent → Daemon → Prop
  | node {e : NodeEvent} {node : Node} (hadmits : d.admits e = true)
      (h : d.node.step host e = some node) :
      Happens host lib d (.node e) { d with node := node }
  | accept :
      Happens host lib d .accept { d with
        clients := Function.update d.clients d.nextClient (some (.new lib))
        nextClient := d.nextClient + 1 }
  | turn {i : ℕ} {c c' : Client} {e : DaemonEvent} {batches : List (List MessageEvent)}
      {node : Node} (hc : d.clients i = some c) (h : Turn host lib d.node i c e c' batches node) :
      Happens host lib d e { d.setClient i c' with
        node := node
        polls := d.polls ++ batches.map (fun batch => (i, batch)) }

section Steps

variable {host : Host} {lib : JsonLibrary} {d d' : Daemon} {e : DaemonEvent} {i : ℕ}
  {c c' : Client}

/-- A client goes on without the event bus. -/
theorem Happens.goes {node : Node} (hc : d.clients i = some c)
    (h : Turn host lib d.node i c e c' [] node) :
    Happens host lib d e { d.setClient i c' with node := node } := by
  have hnext := Happens.turn hc h
  rw [List.map_nil, List.append_nil] at hnext
  exact hnext

theorem happens_work (hc : d.clients i = some c) (h : d.work host lib i c = some d') :
    Happens host lib d (.work i) d' := by
  unfold Daemon.work at h
  split at h
  · rename_i hstage
    cases h
    exact .goes hc (.list hstage)
  · rename_i hstage
    cases h
    exact .turn hc (.poll hstage)
  · rename_i hstage
    cases h
    exact .goes hc (.lookup hstage)
  · rename_i hstage
    split at h
    · rename_i hgone
      cases h
      exact .goes hc (.skip hstage hgone)
    · rename_i hheld
      cases h
      exact .goes hc (.lock hstage hheld)
  · rename_i hstage
    obtain ⟨node, hnode, rfl⟩ := Option.map_eq_some_iff.mp h
    exact .goes hc (.post hstage hnode)
  · rename_i hstage
    obtain ⟨hall, h⟩ := Option.ite_none_left_eq_some.mp h
    cases h
    exact .goes hc (.sent hstage hall)
  · rename_i hstage
    cases h
    exact .goes hc (.closed hstage)
  · cases h

/-- **Every step is one of these**, of a process that is still there. -/
theorem happens (h : d.step host lib e = some d') :
    d.terminated = false ∧ Happens host lib d e d' := by
  unfold Daemon.step at h
  obtain ⟨hrunning, h⟩ := Option.ite_none_left_eq_some.mp h
  refine ⟨Bool.not_eq_true _ ▸ hrunning, ?_⟩
  cases e with
  | node e =>
    obtain ⟨hadmits, h⟩ := Option.ite_none_right_eq_some.mp h
    obtain ⟨node, hnode, rfl⟩ := Option.map_eq_some_iff.mp h
    exact .node hadmits hnode
  | accept =>
    cases h
    exact .accept
  | recv i data =>
    obtain ⟨c, hc, h⟩ := Option.bind_eq_some_iff.mp h
    obtain ⟨c', hrecv, rfl⟩ := Option.map_eq_some_iff.mp h
    exact .goes hc (.recv hrecv)
  | send i count =>
    obtain ⟨c, hc, h⟩ := Option.bind_eq_some_iff.mp h
    obtain ⟨c', hsend, rfl⟩ := Option.map_eq_some_iff.mp h
    exact .goes hc (.send hsend)
  | work i =>
    obtain ⟨c, hc, h⟩ := Option.bind_eq_some_iff.mp h
    exact happens_work hc h
  | returned i threw =>
    obtain ⟨c, hc, h⟩ := Option.bind_eq_some_iff.mp h
    cases hstage : c.stage with
    | sending session =>
      cases threw with
      | none =>
        simp only [hstage, Option.some.injEq] at h
        subst h
        exact .goes hc (.returned hstage)
      | some what =>
        simp only [hstage, Option.some.injEq] at h
        subst h
        exact .goes hc (.threw hstage what)
    | _ =>
      simp only [hstage] at h
      cases h

/-- A process ends where an exception leaves the thread that goes on. -/
theorem setClient_terminated (hrunning : d.terminated = false) :
    (d.setClient i c').terminated = true ↔ c'.stage = .terminated := by
  simp only [Daemon.setClient, hrunning]
  split <;> simp_all

/-- The batches are those of the client that goes on. -/
theorem taken_setClient (d : Daemon) (i : ℕ) (c' : Client) (node : Node)
    (batches : List (List MessageEvent)) (j : ℕ) :
    taken { d.setClient i c' with
      node := node
      polls := d.polls ++ batches.map (fun batch => (i, batch)) } j
      = if j = i then d.taken i ++ batches else d.taken j := by
  simp only [taken, List.filter_append, List.map_append]
  split
  · rename_i heq
    subst heq
    simp [List.filter_map, Function.comp_def]
  · rename_i hne
    have hnone : (batches.map (fun batch => (i, batch))).filter (fun p => p.1 == j) = [] := by
      simp [List.filter_map, Function.comp_def, Ne.symm hne]
    rw [hnone, List.map_nil, List.append_nil]

/-- **A client goes on**, and takes these batches. -/
theorem Sound.setClient (h : d.Sound lib host.myDeviceId) (hrunning : d.terminated = false)
    (hc : d.clients i = some c) {batches : List (List MessageEvent)}
    (hc' : c'.Sound lib host.myDeviceId (d.taken i ++ batches)) (node : Node) :
    Sound lib host.myDeviceId { d.setClient i c' with
      node := node
      polls := d.polls ++ batches.map (fun batch => (i, batch)) } := by
  constructor
  · intro j cj hj
    rw [taken_setClient]
    by_cases hji : j = i
    · subst hji
      rw [if_pos rfl]
      obtain rfl : c' = cj := by simpa [Daemon.setClient] using hj
      exact hc'
    · rw [if_neg hji]
      exact h.clients j cj (by simpa [Daemon.setClient, Function.update_of_ne hji] using hj)
  · intro j hj
    have hji : j ≠ i := by
      rintro rfl
      rw [h.accepted j hj] at hc
      cases hc
    simpa [Daemon.setClient, Function.update_of_ne hji] using h.accepted j hj
  · intro p hp
    by_cases hpi : p.1 = i
    · simp [Daemon.setClient, hpi]
    · rcases List.mem_append.mp hp with hp | hp
      · simpa [Daemon.setClient, Function.update_of_ne hpi] using h.polls p hp
      · obtain ⟨batch, -, rfl⟩ := List.mem_map.mp hp
        exact absurd rfl hpi
  · refine (setClient_terminated (i := i) hrunning).trans ⟨fun hstage => ?_, ?_⟩
    · exact ⟨i, c', by simp [Daemon.setClient], hstage⟩
    · rintro ⟨j, cj, hj, hstage⟩
      by_cases hji : j = i
      · subst hji
        obtain rfl : c' = cj := by simpa [Daemon.setClient] using hj
        exact hstage
      · -- no other client is terminated, for the process was still there
        have hother : d.clients j = some cj := by
          simpa [Daemon.setClient, Function.update_of_ne hji] using hj
        rw [h.terminated.mpr ⟨j, cj, hother, hstage⟩] at hrunning
        cases hrunning

/-- Nothing was taken for a client that is not there. -/
theorem Sound.taken_eq_nil (h : d.Sound lib host.myDeviceId) (hc : d.clients i = none) :
    d.taken i = [] := by
  rw [taken, List.map_eq_nil_iff, List.filter_eq_nil_iff]
  intro p hp heq
  have hsome := h.polls p hp
  rw [eq_of_beq heq, hc] at hsome
  cases hsome

theorem Sound.accept (h : d.Sound lib host.myDeviceId) :
    Sound lib host.myDeviceId { d with
      clients := Function.update d.clients d.nextClient (some (.new lib))
      nextClient := d.nextClient + 1 } := by
  have hfresh := h.taken_eq_nil (h.accepted _ le_rfl)
  constructor
  · intro i c hc
    by_cases hi : i = d.nextClient
    · subst hi
      obtain rfl : Client.new lib = c := by simpa using hc
      show Client.Sound lib host.myDeviceId (d.taken d.nextClient) _
      rw [hfresh]
      exact ⟨.reading (.head rfl) ⟨rfl, rfl, rfl⟩, .of_begins rfl rfl rfl rfl⟩
    · exact h.clients i c (by simpa [Function.update_of_ne hi] using hc)
  · intro i hi
    have hi : d.nextClient < i := hi
    simpa [Function.update_of_ne hi.ne'] using h.accepted i hi.le
  · intro p hp
    by_cases hi : p.1 = d.nextClient
    · simp [hi]
    · simpa [Function.update_of_ne hi] using h.polls p hp
  · refine h.terminated.trans ⟨?_, ?_⟩
    · rintro ⟨i, c, hc, hstage⟩
      have hi : i ≠ d.nextClient := by
        rintro rfl
        rw [h.accepted _ le_rfl] at hc
        cases hc
      exact ⟨i, c, by simpa [Function.update_of_ne hi] using hc, hstage⟩
    · rintro ⟨i, c, hc, hstage⟩
      by_cases hi : i = d.nextClient
      · subst hi
        obtain rfl : Client.new lib = c := by simpa using hc
        cases hstage
      · exact ⟨i, c, by simpa [Function.update_of_ne hi] using hc, hstage⟩

theorem Sound.step (h : d.Sound lib host.myDeviceId) (hstep : d.step host lib e = some d') :
    d'.Sound lib host.myDeviceId := by
  obtain ⟨hrunning, hhappens⟩ := happens hstep
  cases hhappens with
  | node hadmits hnode => exact ⟨h.clients, h.accepted, h.polls, h.terminated⟩
  | accept => exact h.accept
  | @turn i c c' _ batches node hc hturn =>
    exact h.setClient hrunning hc ((h.clients i c hc).turn hturn) node

end Steps

theorem sound_runs {host : Host} {lib : JsonLibrary} {d : Daemon} {events : List DaemonEvent}
    (hrun : runs (Daemon.step host lib) initial events = some d) :
    d.Sound lib host.myDeviceId := by
  have hinitial : initial.Sound lib host.myDeviceId := by
    refine ⟨nofun, fun _ _ => rfl, nofun, nofun, ?_⟩
    rintro ⟨i, c, hc, -⟩
    cases hc
  exact runs_invariant (fun d e d' h hstep => h.step hstep) hrun hinitial

/-! ## What the calls of a thread returned in a run -/

/-- **The thread of the client has read this** from the sessions of the
process: at a step of its own at this stage, as the run had left them. -/
def ReadAt {α : Type} (host : Host) (lib : JsonLibrary) (events : List DaemonEvent) (i : ℕ)
    (stage : Stage) (read : Node → α) (value : α) : Prop :=
  ∃ past later d c, events = past ++ .work i :: later
    ∧ runs (Daemon.step host lib) initial past = some d
    ∧ d.clients i = some c ∧ c.stage = stage ∧ read d.node = value

/-- **This is what the calls of a client's thread returned in the run.** -/
structure Heard (host : Host) (lib : JsonLibrary) (events : List DaemonEvent) (i : ℕ)
    (x : Inputs) : Prop where
  chunks : x.chunks = events.filterMap (received i)
  listed : ∀ registry, x.listed = some registry
    ↔ ReadAt host lib events i .devices Node.registry registry
  taken : ∀ batch, batch ∈ x.taken ↔ ReadAt host lib events i .events Node.events batch
  threw : ∀ what, x.threw = some what ↔ .returned i (some what) ∈ events

section Hearing

variable {host : Host} {lib : JsonLibrary} {d d' : Daemon} {events : List DaemonEvent}
  {e : DaemonEvent} {i : ℕ} {x : Inputs}

/-- The last step of a run reads, or one before it. -/
theorem readAt_concat {α : Type} {stage : Stage} {read : Node → α} {value : α}
    (hrun : runs (Daemon.step host lib) initial events = some d) :
    ReadAt host lib (events ++ [e]) i stage read value
      ↔ ReadAt host lib events i stage read value
        ∨ e = .work i ∧ ∃ c, d.clients i = some c ∧ c.stage = stage ∧ read d.node = value := by
  constructor
  · rintro ⟨past, later, m, c, heq, hm, hc, hstage, hread⟩
    rcases List.eq_nil_or_concat later with rfl | ⟨later', last, rfl⟩
    · obtain ⟨rfl, hlast⟩ := List.append_inj' heq rfl
      obtain rfl := Option.some.inj (hrun.symm.trans hm)
      exact .inr ⟨List.singleton_inj.mp hlast, c, hc, hstage, hread⟩
    · rw [List.concat_eq_append, ← List.cons_append, ← List.append_assoc] at heq
      obtain ⟨rfl, -⟩ := List.append_inj' heq rfl
      exact .inl ⟨past, later', m, c, rfl, hm, hc, hstage, hread⟩
  · rintro (⟨past, later, m, c, rfl, hm, hc, hstage, hread⟩ | ⟨rfl, c, hc, hstage, hread⟩)
    · exact ⟨past, later ++ [e], m, c, by simp, hm, hc, hstage, hread⟩
    · exact ⟨events, [], d, c, rfl, hrun, hc, hstage, hread⟩

theorem Heard.other (h : Heard host lib events i x)
    (hrun : runs (Daemon.step host lib) initial events = some d)
    (he : received i e = none ∧ e ≠ .work i ∧ ∀ what, e ≠ .returned i (some what)) :
    Heard host lib (events ++ [e]) i x := by
  obtain ⟨hreceived, hwork, hreturned⟩ := he
  constructor
  · rw [List.filterMap_append, h.chunks, List.filterMap_cons_none hreceived, List.filterMap_nil,
      List.append_nil]
  · intro registry
    rw [readAt_concat hrun, h.listed, or_iff_left (fun hlast => hwork hlast.1)]
  · intro batch
    rw [readAt_concat hrun, h.taken, or_iff_left (fun hlast => hwork hlast.1)]
  · intro what
    rw [List.mem_append, List.mem_singleton, h.threw,
      or_iff_left (fun hlast => hreturned what hlast.symm)]

/-- **What the calls return at a step.** -/
theorem Heard.turn {c c' : Client} {batches : List (List MessageEvent)} {node : Node}
    (h : Heard host lib events i (c.inputs (d.taken i)))
    (hrun : runs (Daemon.step host lib) initial events = some d) (hc : d.clients i = some c)
    (hsound : c.Sound lib host.myDeviceId (d.taken i))
    (hturn : Turn host lib d.node i c e c' batches node) :
    Heard host lib (events ++ [e]) i (c'.inputs (d.taken i ++ batches)) := by
  have hread : ∀ {α : Type} {stage : Stage} {read : Node → α} {value : α},
      (∃ c, d.clients i = some c ∧ c.stage = stage ∧ read d.node = value)
        ↔ c.stage = stage ∧ read d.node = value := by
    intro α stage read value
    rw [hc]
    simp
  constructor
  · rw [List.filterMap_append]
    show c'.chunks = _
    rw [hturn.chunks, show c.chunks = _ from h.chunks]
    congr 1
  · intro registry
    rw [readAt_concat hrun, ← h.listed, hread]
    exact hturn.listed (fun hstage => (hsound.serves.of_devices hstage).1.1) registry
  · intro batch
    rw [readAt_concat hrun, ← h.taken, hread]
    exact List.mem_append.trans (or_congr_right (hturn.takes batch))
  · intro what
    rw [List.mem_append, List.mem_singleton, ← h.threw, eq_comm (b := e)]
    refine hturn.throws (fun session hstage => ?_) what
    exact (hsound.serves.sends (by rw [hstage]; rfl)).1.2.2

theorem inputs_eq {c : Client} (hc : d.clients i = some c) :
    d.inputs i = c.inputs (d.taken i) := by
  rw [inputs, hc, Option.elim_some]

/-- A client begins with nothing, as it was before. -/
theorem inputs_accept (hfresh : d.clients d.nextClient = none) :
    inputs { d with
      clients := Function.update d.clients d.nextClient (some (.new lib))
      nextClient := d.nextClient + 1 } i = d.inputs i := by
  by_cases hi : i = d.nextClient
  · subst hi
    simp [inputs, taken, hfresh, Client.inputs, Client.new]
  · simp [inputs, taken, Function.update_of_ne hi]

/-- The inputs are those of the client that goes on. -/
theorem inputs_setClient (d : Daemon) (i : ℕ) (c' : Client) (node : Node)
    (batches : List (List MessageEvent)) (j : ℕ) :
    inputs { d.setClient i c' with
      node := node
      polls := d.polls ++ batches.map (fun batch => (i, batch)) } j
      = if j = i then c'.inputs (d.taken i ++ batches) else d.inputs j := by
  rw [inputs, taken_setClient]
  split
  · rename_i hij
    subst hij
    simp [Daemon.setClient]
  · rename_i hij
    simp [Daemon.setClient, inputs, Function.update_of_ne hij]

/-- **The calls of every client's thread returned what they returned in the
run**, also of a client that is not there yet. -/
theorem heard_runs (hrun : runs (Daemon.step host lib) initial events = some d) (i : ℕ) :
    Heard host lib events i (d.inputs i) := by
  induction events using List.reverseRecOn generalizing d with
  | nil =>
    cases hrun
    have hnever : ∀ {α : Type} {stage : Stage} {read : Node → α} {value : α},
        ¬ ReadAt host lib [] i stage read value := by
      rintro α stage read value ⟨past, later, m, c, heq, -⟩
      cases past <;> cases heq
    exact ⟨rfl, fun _ => ⟨nofun, fun h => absurd h hnever⟩,
      fun _ => ⟨nofun, fun h => absurd h hnever⟩, fun _ => ⟨nofun, nofun⟩⟩
  | append_singleton events e ih =>
    obtain ⟨m, hm, hstep⟩ := runs_concat.mp hrun
    have hsound := sound_runs hm
    have hx := ih hm
    obtain ⟨-, hhappens⟩ := happens hstep
    cases hhappens with
    | node hadmits hnode => exact hx.other hm ⟨rfl, nofun, nofun⟩
    | accept =>
      refine Heard.other (x := inputs _ i) ?_ hm ⟨rfl, nofun, nofun⟩
      rw [inputs_accept (hsound.accepted _ le_rfl)]
      exact hx
    | @turn j c c' _ batches node hc hturn =>
      rw [inputs_setClient]
      split
      · rename_i hij
        subst hij
        rw [inputs_eq hc] at hx
        exact hx.turn hm hc (hsound.clients i c hc) hturn
      · rename_i hij
        exact hx.other hm (hturn.other hij)

end Hearing

/-! ## Runs -/

section Runs

variable {host : Host} {lib : JsonLibrary} {d : Daemon} {events : List DaemonEvent}

/-- **Every client is answered.** In every run of a process, a client that the
thread is done with was sent one response, and there is only one that its
request asks for: what its calls returned in the run decides it, the registry
as the thread listed it and the exception of its own `send_packet` included.
All of the response was sent, unless a `send` failed, and then the beginning
of it; it is a well-formed message, whose header field announces as many bytes
as follow. The socket of the client was closed once, and the sockets of the
others were not closed. -/
theorem clients_answered (hrun : runs (Daemon.step host lib) initial events = some d) {i : ℕ}
    {c : Client} (hc : d.clients i = some c) :
    (∀ r, c.stage = .finished r → ∃ response, r = some response
      ∧ (∀ r', Answer lib host.myDeviceId (d.inputs i) r' ↔ r' = response)
      ∧ IsHead response.head ∧ announced response.head = some response.body.length
      ∧ c.accepted <+: response.head ++ response.body
      ∧ (c.failed = false → c.accepted = response.head ++ response.body) ∧ c.closes = 1)
    ∧ ((∀ r, c.stage ≠ .finished r) → c.closes = 0)
    ∧ Heard host lib events i (d.inputs i) := by
  have hsound := (sound_runs hrun).clients i c hc
  refine ⟨?_, ?_, heard_runs hrun i⟩
  · rintro r hstage
    rw [inputs_eq hc]
    obtain ⟨response, rfl⟩ := hsound.serves.exists_answer (.inr hstage)
    have hanswer : Answer lib host.myDeviceId (c.inputs (d.taken i)) response :=
      hsound.serves.answer (by rw [hstage]; rfl)
    have haccounts := hsound.accounts
    rw [Client.Accounts, hstage] at haccounts
    obtain ⟨hpre, hwhole, hcloses⟩ := haccounts
    refine ⟨response, rfl, fun r' => ⟨fun h => h.unique hanswer, fun h => h ▸ hanswer⟩, ?_, ?_,
      hpre, hwhole, hcloses⟩
    · exact Response.isHead_head hanswer.oneLine
    · exact Response.announced_head hanswer.oneLine
  · intro hunfinished
    have haccounts := hsound.accounts
    unfold Client.Accounts at haccounts
    cases hstage : c.stage with
    | respond response sent =>
      rw [hstage] at haccounts
      exact haccounts.2.2.2
    | close response =>
      rw [hstage] at haccounts
      exact haccounts.2.2
    | finished response => exact absurd hstage (hunfinished response)
    | _ =>
      rw [hstage] at haccounts
      exact haccounts.2.2

end Runs

section Sample

/-- What stands between the items of a list. -/
def joined : List Bytes → Bytes
  | [] => []
  | [text] => text
  | text :: texts => text ++ ascii "," ++ joined texts

mutual

/-- `dump()`, of strings that need no escapes. -/
def sampleDump : Json → Option Bytes
  | .null => some (ascii "null")
  | .boolean true => some (ascii "true")
  | .boolean false => some (ascii "false")
  | .number value => some value
  | .string value => if value.contains 255 then none else some (ascii "\"" ++ value ++ ascii "\"")
  | .array items =>
    (sampleItems items).map (fun texts => ascii "[" ++ joined texts ++ ascii "]")
  | .object members =>
    (sampleMembers members).map (fun texts => ascii "\x7b" ++ joined texts ++ ascii "\x7d")

def sampleItems : List Json → Option (List Bytes)
  | [] => some []
  | item :: items =>
    (sampleDump item).bind (fun text => (sampleItems items).map (fun texts => text :: texts))

def sampleMembers : List (Bytes × Json) → Option (List Bytes)
  | [] => some []
  | member :: members =>
    (sampleMember member).bind (fun text =>
      (sampleMembers members).map (fun texts => text :: texts))

def sampleMember : Bytes × Json → Option Bytes
  | (name, value) => (sampleDump value).map (fun text => ascii "\"" ++ name ++ ascii "\":" ++ text)

end

/-- A string that is not UTF-8 is quoted where it is not parsed. -/
def sampleError (body : Bytes) : Bytes :=
  ascii "[json.exception.parse_error.101] parse error at line 1, column 2: "
    ++ ascii "syntax error while parsing value - invalid string: ill-formed UTF-8 byte; "
    ++ ascii "last read: '" ++ body ++ ascii "'"

/-- A JSON library, of the values in the examples. -/
def sampleLibrary : JsonLibrary where
  parse body := if body.contains 255 then .error (sampleError body) else .ok .null
  dump := sampleDump
  typeError _ := ascii "[json.exception.type_error.302] type must be string, but is null"

/-- What a client was sent when the thread is done with it. -/
def report (c : Client) : Option (Response × Bytes × Bool × ℕ) :=
  match c.stage with
  | .finished (some response) => some (response, c.accepted, c.failed, c.closes)
  | _ => none

theorem report_eq_some {c : Client} {response : Response} {accepted : Bytes} {failed : Bool}
    {closes : ℕ} (h : report c = some (response, accepted, failed, closes)) :
    c.stage = .finished (some response) ∧ c.failed = failed := by
  obtain ⟨stage, chunks, accepted', failed', closes'⟩ := c
  unfold report at h
  split at h
  · rename_i hstage
    cases h
    exact ⟨hstage, rfl⟩
  · cases h

/-- A client asks for the devices, in two pieces, and is answered in two. -/
def devicesListed : List DaemonEvent :=
  Node.messageChecked.map .node ++ [.accept, .recv 0 (some (ascii "GET /devi")),
    .recv 0 (some (ascii "ces HTTP/1.1\x0d\n\x0d\n")), .work 0, .send 0 (some 10),
    .send 0 (some 210), .work 0, .work 0]

/-- The list of the one device. -/
def deviceListing : Bytes :=
  ascii "[\x7b\"device_id\":\"01010101-0101-0101-0101-010101010101\",\"device_name\":\"peer\","
    ++ ascii "\"device_type\":\"linux\",\"is_self\":false,\"state\":\"READY\"\x7d]"

/-- The client gets the list, and no other answer is right. -/
theorem clients_answered_devices :
    ∃ (d : Daemon) (c : Client) (response : Response),
      runs (Daemon.step Node.messageHost sampleLibrary) initial devicesListed = some d
      ∧ d.clients 0 = some c ∧ c.stage = .finished (some response)
      ∧ response.body = deviceListing ∧ announced response.head = some 129
      ∧ c.accepted = response.head ++ response.body ∧ c.closes = 1
      ∧ ∀ r', Answer sampleLibrary Node.messageHost.myDeviceId (d.inputs 0) r'
        ↔ r' = response := by
  obtain ⟨d, hrun, hd⟩ :
      ∃ d, runs (Daemon.step Node.messageHost sampleLibrary) initial devicesListed = some d
        ∧ ((d.clients 0).bind report).map (fun r => (r.1, r.2.2.1))
          = some (.json 200 "OK" deviceListing, false) :=
    Option.map_eq_some_iff.mp (by decide +kernel)
  obtain ⟨⟨response, accepted, failed, closes⟩, hreport, heq⟩ := Option.map_eq_some_iff.mp hd
  obtain ⟨c, hc, hreport⟩ := Option.bind_eq_some_iff.mp hreport
  obtain ⟨hresponse, hfailed⟩ := Prod.mk.inj heq
  obtain ⟨hstage, hsame⟩ := report_eq_some hreport
  obtain ⟨r, hr, hanswer, -, hannounced, -, hwhole, hcloses⟩ :=
    (clients_answered hrun hc).1 _ hstage
  obtain rfl := Option.some.inj hr
  have hbody : response.body = deviceListing := congrArg Response.body hresponse
  exact ⟨d, c, response, hrun, hc, hstage, hbody, by rw [hannounced, hbody]; rfl,
    hwhole (hsame.trans hfailed), hcloses, hanswer⟩

end Sample

/-! ## The sessions of the process -/

section Sessions

variable {host : Host} {lib : JsonLibrary} {d d' : Daemon} {events : List DaemonEvent}

/-- A step of the sessions that is no poll. -/
theorem taken_journalEntry {n : Node} {e : NodeEvent} (he : e ≠ .consumeEvents) :
    (n.journalEntry host e).bind LogEntry.taken? = none := by
  rw [Node.journalEntry_eq he]
  cases (n.handled host e).bind (fun x => x.2.2.emitted?) with
  | none => rfl
  | some event => rfl

/-- What becomes of the sessions and of the polls, in a step. -/
structure Projects (host : Host) (d : Daemon) (e : Option NodeEvent) (d' : Daemon) : Prop where
  node : runs (Node.step host) d.node e.toList = some d'.node
  polls : d'.polls.map Prod.snd = d.polls.map Prod.snd
    ++ ((e.bind (d.node.journalEntry host)).bind LogEntry.taken?).toList

/-- A step that the sessions have no part in. -/
theorem Projects.idle {e : Option NodeEvent} (he : e = none) (hnode : d'.node = d.node)
    (hpolls : d'.polls = d.polls) : Projects host d e d' := by
  subst he
  refine ⟨?_, ?_⟩
  · rw [hnode]
    rfl
  · rw [hpolls]
    exact (List.append_nil _).symm

/-- A step of the sessions that is no poll. -/
theorem Projects.step {e : NodeEvent} (he : e ≠ .consumeEvents)
    (hnode : d.node.step host e = some d'.node) (hpolls : d'.polls = d.polls) :
    Projects host d (some e) d' := by
  refine ⟨(runs_singleton _ _).trans hnode, ?_⟩
  rw [hpolls, Option.bind_some, taken_journalEntry he]
  exact (List.append_nil _).symm

/-- A message is emitted, and a client polls. -/
def messagePolled : List DaemonEvent :=
  Node.messageChecked.map .node ++ [.node (.handle 1 false false), .accept,
    .recv 0 (some (ascii "GET /events HTTP/1.1\x0d\n\x0d\n")), .work 0, .accept,
    .recv 1 (some (ascii "GET /events HTTP/1.1\x0d\n\x0d\n")), .work 1]

end Sessions

end Daemon

end Gasoline
