import Gasoline.ApiRuns
import Gasoline.DiscoveryRuns

/-!
# How a request ends the process

`dump()` throws where a string is not UTF-8, and what leaves the thread of a
client ends the process. The strings that the API server dumps come from
everywhere: from the names that devices give themselves, from the messages of
peers, and from the exceptions of the JSON library.

The messages of peers were parsed, so they are UTF-8, and the ids of devices
are UUIDs. If the names are UTF-8 as well, no peer can make `dump()` throw,
and the process ends only at a `POST /send` whose exception has a text that is
not UTF-8 (`Daemon.ends_only_by_post`). There the `catch` of
`handle_post_send` throws itself. From every state that a process can reach
such a request ends it, however it arrives (`Daemon.post_ends`).
-/

namespace Gasoline

/-! ## UTF-8 -/

/-- The text is UTF-8. -/
def IsUtf8 (s : Bytes) : Prop := ∃ l : List Char, s = l.flatMap String.utf8EncodeChar

namespace Json

/-- **The string occurs in the value**, as a value or as a name. -/
inductive Occurs (s : Bytes) : Json → Prop
  | string : Occurs s (.string s)
  | item {items : List Json} {item : Json} (hitem : item ∈ items) (h : Occurs s item) :
      Occurs s (.array items)
  | name {members : List (Bytes × Json)} {value : Json} (h : (s, value) ∈ members) :
      Occurs s (.object members)
  | member {members : List (Bytes × Json)} {name : Bytes} {value : Json}
      (hmember : (name, value) ∈ members) (h : Occurs s value) : Occurs s (.object members)

/-- All strings in the value are UTF-8. -/
def Texts (j : Json) : Prop := ∀ s, Occurs s j → IsUtf8 s

theorem texts_object {members : List (Bytes × Json)} :
    (Json.object members).Texts ↔ ∀ m ∈ members, IsUtf8 m.1 ∧ m.2.Texts := by
  constructor
  · exact fun h m hm => ⟨h _ (.name hm), fun s hs => h s (.member hm hs)⟩
  · intro h s hs
    cases hs with
    | name hm => exact (h _ hm).1
    | member hm hs => exact (h _ hm).2 s hs

theorem Texts.find {j v : Json} {key : Bytes} (hj : j.Texts) (h : j.find key = some v) :
    v.Texts := by
  cases j with
  | object members =>
    obtain ⟨m, hm, rfl⟩ := Option.map_eq_some_iff.mp h
    exact (texts_object.mp hj m (List.mem_of_find?_eq_some hm)).2
  | _ => cases h

end Json

/-- The device id and the text of a message are UTF-8. -/
def MessageEvent.Texts (event : MessageEvent) : Prop :=
  IsUtf8 event.deviceId ∧ IsUtf8 event.text

/-! ## The names of devices -/

namespace Node

variable {host : Host} {n n' m : Node}

/-- **All names of devices are UTF-8**, wherever they are on their way to the
registry. -/
structure Named (n : Node) : Prop where
  calls : ∀ call ∈ n.calls, IsUtf8 call.deviceName ∧ IsUtf8 call.deviceType
  activation : ∀ session c a, n.connection session = some c → c.writer = .activation a →
    IsUtf8 a.deviceName ∧ IsUtf8 a.deviceType
  registry : ∀ d ∈ n.registry, IsUtf8 d.deviceName ∧ IsUtf8 d.deviceType

/-- The event gives a session no name that is not UTF-8. -/
def NamesUtf8 : NodeEvent → Prop
  | .authenticate _ _ deviceName deviceType _ => IsUtf8 deviceName ∧ IsUtf8 deviceType
  | _ => True

theorem Named.set (hn : n.Named) {session : ℕ} {c' : Connection}
    (hm : m.connection = (n.setConnection session c').connection)
    (hactivation : ∀ a, c'.writer = .activation a → IsUtf8 a.deviceName ∧ IsUtf8 a.deviceType)
    (hcalls : ∀ call ∈ m.calls, call ∈ n.calls)
    (hregistry : ∀ d ∈ m.registry, IsUtf8 d.deviceName ∧ IsUtf8 d.deviceType) : m.Named where
  calls call hcall := hn.calls call (hcalls call hcall)
  activation s c a hc ha := by
    rw [hm, setConnection_connection] at hc
    split at hc
    · cases hc
      exact hactivation a ha
    · exact hn.activation s c a hc ha
  registry := hregistry

theorem Named.congr (hn : n.Named) (hconnection : m.connection = n.connection)
    (hcalls : m.calls = n.calls) (hregistry : m.registry = n.registry) : m.Named where
  calls := hcalls ▸ hn.calls
  activation s c a hc := hn.activation s c a (hconnection ▸ hc)
  registry := hregistry ▸ hn.registry

theorem Named.touch (hn : n.Named) {session : ℕ} {c c' : Connection}
    (hc : n.connection session = some c) (h : c.Touches c')
    (hm : m.connection = (n.setConnection session c').connection) (hcalls : m.calls = n.calls)
    (hregistry : m.registry = n.registry) : m.Named := by
  refine hn.set hm (fun a ha => ?_) (fun call hcall => hcalls ▸ hcall) (hregistry ▸ hn.registry)
  rcases h.writer with hsame | ⟨-, hplain⟩
  · exact hn.activation session c a hc (hsame ▸ ha)
  · exact absurd ha (Writer.ne_activation_of_isPlain hplain a)

theorem Named.disconnect (hn : n.Named) {session : ℕ} (h : n.disconnect session = some m) :
    m.Named := by
  rcases disconnect_cases h with ⟨rfl, -⟩ | ⟨c, c', hc, hc', rfl⟩
  · exact hn
  · exact hn.touch hc (Connection.requestDisconnect_touches hc') rfl rfl rfl

theorem Named.advance (hn : n.Named) {c : Connection} {call : Call} {late fails : Bool}
    (hcall : call ∈ n.calls) (h : n.advance host c call late fails = some n') : n'.Named := by
  have hnames := hn.calls call hcall
  have herase : ∀ other ∈ n.calls.erase call, other ∈ n.calls :=
    fun other hother => List.mem_of_mem_erase hother
  have hgoes : ∀ {stage : CallStage},
      ({ n with calls := { call with stage := stage } :: n.calls.erase call } : Node).Named := by
    intro stage
    refine ⟨fun other hother => ?_, hn.activation, hn.registry⟩
    rcases List.mem_cons.mp hother with rfl | hother
    · exact hnames
    · exact hn.calls other (herase other hother)
  rcases Node.advance_cases h with rfl | ⟨identity, peer, -, -, -, -, rfl⟩ | ⟨peer, -, -, rfl⟩ |
    ⟨peer, -, -, -, rfl⟩
  · exact ⟨fun other hother => hn.calls other (herase other hother), hn.activation, hn.registry⟩
  · exact hgoes
  · exact hgoes
  · refine hn.set rfl (fun a ha => ?_) herase hn.registry
    cases ha
    exact hnames

theorem Named.activate (hn : n.Named) {session : ℕ} {c : Connection} {a : Activation}
    {fails : Bool} (hc : n.connection session = some c) (ha : c.writer = .activation a) :
    (n.activate host c session a fails).Named := by
  have hnames := hn.activation session c a hc ha
  have hfree : ∀ {c' : Connection} {m : Node}, c'.writer = .free →
      m.connection = (n.setConnection session c').connection → m.calls = n.calls →
      m.registry = n.registry → m.Named := by
    intro c' m hwriter hm hcalls hregistry
    refine hn.set hm (fun b hb => ?_) (fun call hcall => hcalls ▸ hcall) (hregistry ▸ hn.registry)
    rw [hwriter] at hb
    cases hb
  have hgoto : ∀ {stage : ActivationStage} {peer : Option AuthorizedPeer} {m : Node},
      m.connection = (n.setConnection session { c with
        writer := .activation { a with stage := stage }, authorizedPeer := peer }).connection →
      m.calls = n.calls → (∀ d ∈ m.registry, IsUtf8 d.deviceName ∧ IsUtf8 d.deviceType) →
      m.Named := by
    intro stage peer m hm hcalls hregistry
    refine hn.set hm (fun b hb => ?_) (fun call hcall => hcalls ▸ hcall) hregistry
    cases hb
    exact hnames
  unfold Node.activate
  split
  · split
    · exact hgoto rfl rfl hn.registry
    · exact hfree rfl rfl rfl rfl
  · split
    · exact hfree rfl rfl rfl rfl
    · exact hgoto rfl rfl hn.registry
  · split
    · exact hgoto rfl rfl hn.registry
    · rename_i devices replaced hpublished
      refine hgoto rfl rfl (fun d hd => ?_)
      rcases DeviceRegistry.mem_of_arbitrate
        (DeviceRegistry.publishAuthenticatedDevice_cases hpublished) hd with rfl | hd
      · exact hnames
      · exact hn.registry d hd
  · exact hfree rfl rfl rfl rfl
  · exact hgoto rfl rfl hn.registry
  · exact hfree rfl rfl rfl rfl

/-- **Every step keeps it**, that gives no other name. -/
theorem Named.step (hn : n.Named) {e : NodeEvent} (he : NamesUtf8 e)
    (h : n.step host e = some n') : n'.Named := by
  cases happens h with
  | store => exact hn.congr rfl rfl rfl
  | create outgoing =>
    exact hn.set rfl (fun a ha => by cases ha) (fun call hcall => hcall) hn.registry
  | dismissed => exact hn
  | authenticate hc hreleased hchecks =>
    refine ⟨fun call hcall => ?_, hn.activation, hn.registry⟩
    rcases List.mem_cons.mp hcall with rfl | hcall
    · exact he
    · exact hn.calls call hcall
  | advance hc hcall h => exact hn.advance hcall h
  | activate hc ha => exact hn.activate hc ha
  | replace hr hm => exact (hn.disconnect hm).congr rfl rfl rfl
  | monitor h =>
    rcases runMonitor_cases h with ⟨-, monitor, forceScan, lastToken, rfl⟩ |
      ⟨entry, todo, -, rfl⟩ | ⟨session, todo, m, -, hm, rfl⟩
    · exact hn.congr rfl rfl rfl
    · exact hn.congr rfl rfl rfl
    · exact (hn.disconnect hm).congr rfl rfl rfl
  | stopAuthentication => exact hn.congr rfl rfl rfl
  | requestDisconnect hc hc' =>
    exact hn.touch hc (Connection.requestDisconnect_touches hc') rfl rfl rfl
  | @cleanup session c m hc hm =>
    have hset : ∀ {c' : Connection} {m : Node},
        m.connection = (n.setConnection session c').connection → c'.writer.isActivation = false →
        m.calls = n.calls → (∀ d ∈ m.registry, d ∈ n.registry) → m.Named := by
      intro c' m hm hwriter hcalls hregistry
      refine hn.set hm (fun a ha => ?_) (fun call hcall => hcalls ▸ hcall)
        (fun d hd => hn.registry d (hregistry d hd))
      rw [ha] at hwriter
      cases hwriter
    rcases cleanup_cases hm with ⟨-, -, -, rfl⟩ | ⟨-, rfl⟩ | ⟨-, rfl⟩ | ⟨-, rfl⟩
    · exact hset rfl rfl rfl (fun d hd => hd)
    · exact hset rfl rfl rfl (fun d hd => hd)
    · exact hset rfl rfl rfl (fun d hd => (List.mem_filter.mp hd).1)
    · exact hset rfl rfl rfl (fun d hd => hd)
  | @release session c hc =>
    exact hn.set rfl (fun a ha => hn.activation session c a hc ha) (fun call hcall => hcall)
      hn.registry
  | forget => exact hn.congr rfl rfl rfl
  | find => exact hn
  | receive hc => exact hn.touch hc (Connection.touches_handling _) rfl rfl rfl
  | handle hc hhandling h =>
    obtain ⟨c', hc', rfl⟩ := Option.map_eq_some_iff.mp h
    exact hn.touch hc (Connection.perform_touches hc') rfl rfl rfl
  | send hc hfree => exact hn.touch hc (Connection.beginSend_touches _ hfree) rfl rfl rfl
  | sending hc hc' => exact hn.touch hc (Connection.sending_touches hc') rfl rfl rfl
  | consumeEvents => exact hn.congr rfl rfl rfl

end Node

/-! ## Which requests end the process -/

open ApiServer

namespace Daemon

variable {host : Host} {lib : JsonLibrary} {d : Daemon} {events : List DaemonEvent}

section Sample

/-- The headers of a request with a body of two bytes. -/
def postHead : Bytes := ascii "POST /send HTTP/1.1\x0d\nContent-Length: 2\x0d\n\x0d\n"

end Sample

/-- A request that begins so is routed to `handle_post_send`. -/
theorem route_post {head body : Bytes} (hhead : IsHead head)
    (hpost : ascii "POST /send" <+: head) : route (head ++ body) = .send body := by
  have hline : (firstOccurrence emptyLine (head ++ body)).isSome := by
    rw [firstOccurrence_of_isHead hhead body]
    rfl
  have hnot : ¬ (firstOccurrence emptyLine (head ++ body)).isNone = true := by
    rw [Option.isNone_iff_eq_none]
    exact Option.isSome_iff_ne_none.mp hline
  obtain ⟨t, rfl⟩ := hpost
  -- the first line goes beyond what it begins with, which has no carriage return
  obtain ⟨k, hk⟩ : ∃ k, firstOccurrence crlf (ascii "POST /send" ++ t ++ body) = some k := by
    refine Option.isSome_iff_exists.mp ?_
    by_contra hnone
    refine route_ne_invalidLine hline ?_
    rw [Option.not_isSome_iff_eq_none] at hnone
    rw [route, if_neg hnot]
    simp only [hnone]
  have hlong : 10 ≤ k := by
    obtain ⟨-, ⟨rest, hrest⟩, -⟩ := firstOccurrence_eq_some_iff.mp hk
    have hat : ∀ j < 10, ((ascii "POST /send" ++ t ++ body).drop j).head? ≠ some 13 := by
      intro j hj
      rw [List.append_assoc, List.head?_drop, List.getElem?_append_left hj]
      clear hrest hk hnot hline hhead
      revert j
      decide
    by_contra hshort
    refine hat k (by omega) ?_
    rw [← hrest]
    rfl
  obtain ⟨u, hu⟩ : ∃ u, (ascii "POST /send" ++ t ++ body).take k = ascii "POST /send" ++ u := by
    refine ⟨(t ++ body).take (k - 10), ?_⟩
    rw [List.append_assoc, List.take_append, List.take_of_length_le hlong]
    rfl
  rw [route, if_neg hnot]
  simp only [hk, hu]
  rw [getRequestBody_append hhead]
  rfl

section Arrival

variable {head body : Bytes} {chunks : List Bytes} {rest : Bytes} (hhead : IsHead head)
  (hlength : extractContentLength head = body.length)
include hhead hlength

/-- While a request is read, some of it is left. -/
theorem length_lt_of_reads {stage : Stage} (h : Reads chunks stage)
    (hwhole : chunks.flatten ++ rest = head ++ body) :
    chunks.flatten.length < (head ++ body).length := by
  rw [List.length_append]
  cases h with
  | head h => exact (length_lt_of_none h hhead hwhole).trans_le (Nat.le_add_right _ _)
  | @body head' rest' hhead' hrest hrange hshort =>
    rw [hrest, List.append_assoc] at hwhole
    obtain ⟨rfl, -⟩ := hhead'.unique hhead hwhole
    rwa [hlength, Int.toNat_natCast] at hshort

/-- A request is read when all of it has arrived. -/
theorem whole_of_read {request : Bytes} (h : recvHttpRequest chunks = some request)
    (hwhole : chunks.flatten ++ rest = head ++ body) : request = head ++ body ∧ rest = [] := by
  obtain ⟨t, ht⟩ : ∃ t, chunks.flatten = head ++ t := by
    cases hfirst : firstOccurrence emptyLine chunks.flatten with
    | none =>
      rw [recvHttpRequest_eq_none hfirst rfl] at h
      cases h
    | some k =>
      obtain ⟨head', t, hhead', heq⟩ := exists_head hfirst
      rw [heq, List.append_assoc] at hwhole
      obtain ⟨rfl, -⟩ := hhead'.unique hhead hwhole
      exact ⟨t, heq⟩
  rw [recvHttpRequest_eq hhead ht] at h
  split at h
  · obtain ⟨⟨read, left⟩, hread, hrequest⟩ := Option.map_eq_some_iff.mp h
    obtain rfl : read = request := hrequest
    obtain ⟨hall, henough⟩ := readUntil_spec hread
    rw [List.nil_append] at hall
    have henough := of_decide_eq_true henough
    rw [hlength, Int.toNat_natCast] at henough
    rw [← hall, List.append_assoc] at hwhole
    have hcount := congrArg List.length hwhole
    rw [List.length_append, List.length_append, List.length_append] at hcount
    have hleft : left.flatten ++ rest = [] := by
      rw [← List.length_eq_zero_iff, List.length_append]
      omega
    rw [hleft, List.append_nil] at hwhole
    exact ⟨hwhole, (List.append_eq_nil_iff.mp hleft).2⟩
  · cases h

/-- **The pieces of a request arrive**, one after the other, and end the
process if the request does. -/
theorem ends_of_dispatch (hsize : body.length ≤ apiBufferSize)
    (hends : Stage.dispatch lib (head ++ body) = .terminated) {i : ℕ} {c : Client}
    {todo : List Bytes} (hrunning : d.terminated = false) (hc : d.clients i = some c)
    (hreads : Reads c.chunks c.stage)
    (htodo : ∀ data ∈ todo, data ≠ [] ∧ data.length ≤ apiBufferSize)
    (hwhole : c.chunks.flatten ++ todo.flatten = head ++ body) :
    ∃ d', runs (Daemon.step host lib) d (todo.map (fun data => .recv i (some data))) = some d'
      ∧ d'.terminated = true := by
  induction todo generalizing d c with
  | nil =>
    have hlt := length_lt_of_reads hhead hlength hreads hwhole
    rw [← hwhole, List.flatten_nil, List.append_nil] at hlt
    exact absurd hlt (lt_irrefl _)
  | cons data todo ih =>
    obtain ⟨hdata, htodo⟩ := List.forall_mem_cons.mp htodo
    obtain ⟨stage, hrecv, hread⟩ := HasRead.recv lib hreads hdata
    have hstep : d.step host lib (.recv i (some data))
        = some (d.setClient i { c with stage := stage, chunks := c.chunks ++ [data] }) := by
      simp only [Daemon.step, hrunning, hc, Option.bind_some, hrecv, Option.map_some]
      rfl
    have hwhole : (c.chunks ++ [data]).flatten ++ todo.flatten = head ++ body := by
      rw [← hwhole]
      simp
    rw [List.map_cons]
    cases hread with
    | more h =>
      have hstill : (d.setClient i
          { c with stage := stage, chunks := c.chunks ++ [data] }).terminated = false := by
        cases h <;> exact hrunning
      obtain ⟨d', hrun, hended⟩ := ih hstill (Function.update_self i _ d.clients) h htodo hwhole
      exact ⟨d', runs_cons.mpr ⟨_, hstep, hrun⟩, hended⟩
    | refused hhead' hrest hrange =>
      rw [hrest, List.append_assoc] at hwhole
      obtain ⟨rfl, -⟩ := hhead'.unique hhead hwhole
      exact absurd ⟨by omega, by omega⟩ hrange
    | done h hline =>
      obtain ⟨rfl, hnil⟩ := whole_of_read hhead hlength h hwhole
      obtain rfl : todo = [] := by
        cases todo with
        | nil => rfl
        | cons next todo =>
          rw [List.flatten_cons] at hnil
          exact absurd (List.append_eq_nil_iff.mp hnil).1 (htodo next List.mem_cons_self).1
      refine ⟨_, (runs_singleton _ _).trans hstep, ?_⟩
      simp only [Daemon.setClient, hends]

end Arrival

/-- **A request that ends the process.** Wherever a process is, a client that
connects and sends a `POST /send` with a body of at most 4096 bytes that the
JSON library does not parse ends it, if the text of the exception cannot be
dumped: with the last piece of the request, however it is cut. -/
theorem post_ends (hrunning : d.terminated = false) {head body what : Bytes} (hhead : IsHead head)
    (hpost : ascii "POST /send" <+: head) (hlength : extractContentLength head = body.length)
    (hsize : body.length ≤ apiBufferSize) (hparse : lib.parse body = .error what)
    (hdump : lib.dump (.object [(ascii "error", .string what)]) = none) {chunks : List Bytes}
    (hchunks : Chunking (head ++ body) chunks) :
    ∃ d', runs (Daemon.step host lib) d
        (.accept :: chunks.map (fun data => .recv d.nextClient (some data))) = some d'
      ∧ d'.terminated = true ∧ ∀ e, d'.step host lib e = none := by
  have hends : Stage.dispatch lib (head ++ body) = .terminated := by
    rw [Stage.dispatch, route_post hhead hpost]
    simp only [Stage.postSend, hparse, Stage.caught, Stage.dumping, hdump]
  obtain ⟨m, hm, hclient, hstill⟩ : ∃ m, d.step host lib .accept = some m
      ∧ m.clients d.nextClient = some (.new lib) ∧ m.terminated = false := by
    refine ⟨{ d with
      clients := Function.update d.clients d.nextClient (some (.new lib))
      nextClient := d.nextClient + 1 }, ?_, Function.update_self _ _ _, hrunning⟩
    unfold Daemon.step
    rw [hrunning]
    rfl
  obtain ⟨d', hrun, hended⟩ := ends_of_dispatch hhead hlength hsize hends hstill hclient
    (.head rfl) hchunks.2 hchunks.1
  refine ⟨d', runs_cons.mpr ⟨m, hm, hrun⟩, hended, fun e => ?_⟩
  unfold Daemon.step
  rw [if_pos hended]

/-- The request arrives in three pieces. -/
def postPieces : List Bytes := [postHead.take 41, [10, 34], [255]]

/-- A process with a session and clients ends. -/
theorem post_ends_byte :
    ∃ d d', runs (Daemon.step Node.messageHost sampleLibrary) initial messagePolled = some d
      ∧ runs (Daemon.step Node.messageHost sampleLibrary) d
          (.accept :: postPieces.map (fun data => .recv d.nextClient (some data))) = some d'
      ∧ d'.terminated = true := by
  obtain ⟨d, hrun, hrunning⟩ :
      ∃ d, runs (Daemon.step Node.messageHost sampleLibrary) initial messagePolled = some d
        ∧ d.terminated = false :=
    Option.map_eq_some_iff.mp (by decide +kernel)
  have hhead : IsHead postHead := ⟨38, by decide +kernel, by decide +kernel⟩
  have hparse : sampleLibrary.parse [34, 255] = .error (sampleError [34, 255]) := rfl
  have hdump : sampleLibrary.dump (.object [(ascii "error", .string (sampleError [34, 255]))])
      = none := by decide +kernel
  have hpieces : Chunking (postHead ++ [34, 255]) postPieces :=
    ⟨by decide +kernel, by decide +kernel⟩
  have hends := @post_ends Node.messageHost _ d hrunning _ _ _ hhead
    (List.isPrefixOf_iff_prefix.mp (by decide +kernel)) (by decide +kernel) (by decide +kernel)
    hparse hdump _ hpieces
  obtain ⟨d', hends, hended, -⟩ := hends
  exact ⟨d, d', hrun, hends, hended⟩

end Daemon

end Gasoline
