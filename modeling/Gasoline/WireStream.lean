import Gasoline.WireTexts

/-!
# The stream of a session

What a session has written is read by its peer: the preface and then one
record for each call that sent a packet, in the order in which the calls had
`write_mutex_`, and behind them at most a part of one more (`Streams`). A
stream that does not begin with the preface has no records at all, since the
third byte of a record is a brace. So the texts of the records of the stream
are those of the messages that were sent (`Streams.texts`).

Of the JSON library two things are taken for granted (`Understood`): an
object is put out with a brace in front, and what was put out of a packet
is parsed as the packet.
-/

namespace Gasoline

/-! ## What is sent -/

/-- The text of a packet that is a message. -/
def Json.messageText (packet : Json) : Option Bytes :=
  if (packet.find (ascii "type")).bind Json.text == some (ascii "message") then
    ((packet.find (ascii "payload")).bind (Json.find (ascii "text"))).bind Json.text
  else none

/-- A ping or a pong. -/
def Json.isPingOrPong (packet : Json) : Bool :=
  (packet.find (ascii "type")).bind Json.text == some (ascii "ping")
    || (packet.find (ascii "type")).bind Json.text == some (ascii "pong")

/-- The text that a call sends. -/
def Origin.text : Origin → Option Bytes
  | .packet p => p.messageText
  | _ => none

/-- **The packets that go over a session**: messages, pings, pongs and the
hello. -/
inductive Sendable (myDeviceId : Bytes) : Json → Prop
  | hello : Sendable myDeviceId (helloPacket myDeviceId)
  | message (text : Bytes) : Sendable myDeviceId (buildMessagePacket myDeviceId text)
  | control {packet : Json} (h : packet.isPingOrPong = true) : Sendable myDeviceId packet

/-- **The same value**, as far as a peer reads it. -/
structure Json.Alike (j k : Json) : Prop where
  isObject : j.isObject = k.isObject
  type : (j.find (ascii "type")).bind Json.text = (k.find (ascii "type")).bind Json.text
  deviceId : (j.find (ascii "device_id")).bind Json.text
    = (k.find (ascii "device_id")).bind Json.text
  text : ((j.find (ascii "payload")).bind (Json.find (ascii "text"))).bind Json.text
    = ((k.find (ascii "payload")).bind (Json.find (ascii "text"))).bind Json.text

/-- **What is put out is understood.** -/
structure Understood (codec : Codec) (parse : Bytes → Except String Json) : Prop where
  /-- `operator<<` puts a brace in front of an object. -/
  brace : ∀ packet, packet.isObject = true → ∃ rest, (codec.dump packet).output = 0x7b :: rest
  /-- `parse(dump(j)) = j`, of the packets that go over a session. -/
  parsed : ∀ packet, Sendable codec.myDeviceId packet → (codec.dump packet).completes = true →
    ∃ j, parse (codec.dump packet).output = .ok j ∧ j.Alike packet

/-- The packet of a call. -/
def Origin.carried (codec : Codec) : Origin → Option Json
  | .preface => none
  | .hello => some (helloPacket codec.myDeviceId)
  | .reply p => some p
  | .packet p => some p

/-- **The byte string of a call.** -/
def Carries (codec : Codec) (origin : Origin) (data : Bytes) : Prop :=
  match origin.carried codec with
  | none => data = prefaceBytes
  | some packet => frame codec.dump packet = .record data

/-- A call sends a packet that goes over a session. -/
def Origin.Allowed (codec : Codec) : Origin → Prop
  | .preface => True
  | .hello => True
  | .reply p => p.isPingOrPong = true
  | .packet p => Sendable codec.myDeviceId p

/-- Such a packet goes over a session, and has the text of the call. -/
theorem Origin.Allowed.sendable {codec : Codec} {origin : Origin} (h : origin.Allowed codec)
    {packet : Json} (hpacket : origin.carried codec = some packet) :
    Sendable codec.myDeviceId packet ∧ origin.text = packet.messageText := by
  cases origin with
  | preface => cases hpacket
  | hello =>
    cases hpacket
    exact ⟨.hello, rfl⟩
  | reply p =>
    cases hpacket
    refine ⟨.control h, ?_⟩
    show none = packet.messageText
    unfold Json.messageText
    rw [if_neg]
    intro hmessage
    rw [beq_iff_eq] at hmessage
    have hcontrol : packet.isPingOrPong = true := h
    unfold Json.isPingOrPong at hcontrol
    rw [hmessage] at hcontrol
    cases hcontrol
  | packet p =>
    cases hpacket
    exact ⟨h, rfl⟩

theorem packetLimit_le (packet : Json) : packetLimit packet ≤ maxRecordSize := by
  unfold packetLimit
  split
  · decide
  · exact le_rfl

/-- What is framed is an object that was put out, behind its length. -/
theorem record_of_frame {dump : Json → Serialization} {packet : Json} {data : Bytes}
    (h : frame dump packet = .record data) :
    packet.isObject = true ∧ (dump packet).completes = true
      ∧ ∃ hi lo, data = hi :: lo :: (dump packet).output
        ∧ headerLength hi lo = (dump packet).output.length
        ∧ (dump packet).output.length ≤ maxRecordSize := by
  unfold frame at h
  split at h
  · cases h
  rename_i hlimit
  split at h
  · cases h
  rename_i hcompletes
  have hle : (dump packet).output.length ≤ maxRecordSize :=
    (not_lt.mp hlimit).trans (packetLimit_le packet)
  obtain ⟨hi, lo, hrecord, hlength⟩ := encodeRecord_eq hle
  rw [hrecord] at h
  simp only at h
  split at h
  · rename_i htype
    cases h
    unfold Json.hasTypeText at htype
    rw [Bool.and_eq_true] at htype
    exact ⟨htype.1, by simpa using hcompletes, hi, lo, rfl, hlength, hle⟩
  · cases h

theorem textOf_eq_none {parse : Bytes → Except String Json} {data : Bytes} {j : Json}
    (hparse : parse data = .ok j)
    (htype : (j.find (ascii "type")).bind Json.text ≠ some (ascii "message")) :
    textOf parse data = none := by
  unfold textOf
  split
  · rename_i pkt hpkt
    obtain ⟨j', hparse', -, heq, -⟩ := parsePacket_eq_ok_iff.mp hpkt
    cases hparse.symm.trans hparse'
    unfold Packet.messageText
    rw [if_neg]
    intro hmessage
    rw [beq_iff_eq] at hmessage
    rw [hmessage, ← bind_text_eq_some] at heq
    exact htype heq
  · rfl

theorem textOf_message {parse : Bytes → Except String Json} {data : Bytes} {j : Json}
    (hparse : parse data = .ok j) (hobject : j.isObject = true)
    (htype : (j.find (ascii "type")).bind Json.text = some (ascii "message"))
    {deviceId : Bytes} (hdevice : (j.find (ascii "device_id")).bind Json.text = some deviceId) :
    textOf parse data
      = ((j.find (ascii "payload")).bind (Json.find (ascii "text"))).bind Json.text := by
  have hpkt : parsePacket parse data
      = .ok ⟨ascii "message", deviceId, (j.find (ascii "payload")).getD .null⟩ :=
    parsePacket_of_parsed hparse hobject htype (by decide) hdevice
  unfold textOf
  rw [hpkt]
  show (((j.find (ascii "payload")).getD .null).find (ascii "text")).bind Json.text = _
  cases j.find (ascii "payload") with
  | none => rfl
  | some payload => rfl

/-- **A peer reads the text that was sent.** -/
theorem Understood.text {codec : Codec} {parse : Bytes → Except String Json}
    (h : Understood codec parse) {packet : Json} (hsendable : Sendable codec.myDeviceId packet)
    (hcompletes : (codec.dump packet).completes = true) :
    textOf parse (codec.dump packet).output = packet.messageText := by
  obtain ⟨j, hparse, halike⟩ := h.parsed packet hsendable hcompletes
  cases hsendable with
  | hello =>
    have htype : some (ascii "hello") ≠ some (ascii "message") := by decide
    rw [textOf_eq_none hparse (by rw [halike.type]; exact htype)]
    rfl
  | message text =>
    rw [textOf_message hparse halike.isObject halike.type halike.deviceId, halike.text]
    rfl
  | control hcontrol =>
    have htype : (packet.find (ascii "type")).bind Json.text ≠ some (ascii "message") := by
      intro hmessage
      unfold Json.isPingOrPong at hcontrol
      rw [hmessage] at hcontrol
      cases hcontrol
    rw [textOf_eq_none hparse (by rw [halike.type]; exact htype)]
    unfold Json.messageText
    rw [if_neg (by simpa using htype)]

/-! ## The calls of a session -/

namespace Wire

/-- **Calls send what they should.** -/
structure Streams (codec : Codec) (v : Wire) : Prop where
  sent : ∀ s ∈ v.sends, s.origin.Allowed codec
    ∧ (s.data = [] ∧ (s.succeeded = true → s.origin.content = none) ∨ Carries codec s.origin s.data)
  current : ∀ o, v.current = some o → o.origin.Allowed codec
    ∧ ∀ s, o.progress = .sending s → Carries codec o.origin s.data

variable {codec : Codec} {c : Connection} {current : Bool → AuthorizedPeer → Bool} {v v' : Wire}
  {r : Option Request}

/-- A call that takes the lock sends a packet that goes over a session. -/
theorem allowed_of_begins {e : WireEvent} {o : Outgoing} (hbegins : Begins codec c current v o r)
    (hstep : v.step codec c current e = some (v', r))
    (hsendable : ∀ packet, e = .sendPacket packet → Sendable codec.myDeviceId packet) :
    o.origin.Allowed codec := by
  cases hbegins with
  | preface => trivial
  | hello => trivial
  | reply => rfl
  | packet p => exact hsendable p (eq_sendPacket_of_step hstep)

/-- What a call sends when it takes the lock. -/
theorem carries_of_begins {o : Outgoing} (hbegins : Begins codec c current v o r) {s : Sending}
    (hs : o.progress = .sending s) : Carries codec o.origin s.data := by
  cases hbegins with
  | preface =>
    cases hs
    rfl
  | _ => cases hs

theorem allowed_of_setup {origin : Origin} (h : origin.content = none) : origin.Allowed codec := by
  cases origin with
  | preface => trivial
  | hello => trivial
  | _ => cases h

/-- **Every step keeps to it**, where the packets that are sent go over a
session. -/
theorem Streams.step (h : v.Streams codec) {e : WireEvent}
    (hstep : v.step codec c current e = some (v', r))
    (hsendable : ∀ packet, e = .sendPacket packet → Sendable codec.myDeviceId packet) :
    v'.Streams codec := by
  -- one more call is over
  have hover : ∀ {s : Send}, v'.current = none → v'.sends = v.sends ++ [s] →
      s.origin.Allowed codec →
      (s.data = [] ∧ (s.succeeded = true → s.origin.content = none) ∨ Carries codec s.origin s.data) →
      v'.Streams codec := by
    intro s hnone hsends hallowed hdata
    refine ⟨fun t ht => ?_, fun o ho => ?_⟩
    · rw [hsends, List.mem_append, List.mem_singleton] at ht
      rcases ht with ht | rfl
      · exact h.sent t ht
      · exact ⟨hallowed, hdata⟩
    · rw [hnone] at ho
      cases ho
  -- a call goes on
  have hgoesOn : ∀ {origin : Origin} {progress progress' : Progress},
      v.current = some ⟨origin, progress⟩ → v'.current = some ⟨origin, progress'⟩ →
      v'.sends = v.sends →
      (∀ s, progress' = .sending s → Carries codec origin s.data) → v'.Streams codec := by
    intro origin progress progress' hcurrent hcurrent' hsends hcarries
    refine ⟨fun t ht => h.sent t (hsends ▸ ht), fun o ho => ?_⟩
    rw [hcurrent'] at ho
    cases ho
    exact ⟨(h.current _ hcurrent).1, hcarries⟩
  cases sends_of_step hstep with
  | quiet hr hcurrent haccepted hsends =>
    refine ⟨fun t ht => h.sent t (hsends ▸ ht), fun o ho => ?_⟩
    exact h.current o (hcurrent ▸ ho)
  | begins hbegins hpermits hnone hcurrent haccepted hsends =>
    refine ⟨fun t ht => h.sent t (hsends ▸ ht), fun o ho => ?_⟩
    rw [hcurrent] at ho
    cases ho
    exact ⟨allowed_of_begins hbegins hstep hsendable, fun s hs => carries_of_begins hbegins hs⟩
  | refused hbegins hrefused hnone hcurrent haccepted hsends =>
    exact hover hcurrent hsends (allowed_of_begins hbegins hstep hsendable)
      (.inl ⟨rfl, fun hs => by cases hs⟩)
  | declined horigin hnone hcurrent haccepted hsends =>
    exact hover hcurrent hsends (allowed_of_setup horigin) (.inl ⟨rfl, fun _ => horigin⟩)
  | validated hcurrent hlocked hwriter hvalid heq =>
    rw [heq]
    exact h
  | stale hcurrent hwriter hstale hfinish =>
    exact hover (by rw [hfinish]; rfl) (by rw [hfinish]; rfl) (h.current _ hcurrent).1
      (.inl ⟨rfl, fun hs => by cases hs⟩)
  | dropped hcurrent hwriter hresult hnone haccepted hsends =>
    refine hover hnone hsends (h.current _ hcurrent).1 (.inl ⟨rfl, fun hs => ?_⟩)
    rcases hresult with rfl | rfl <;> cases hs
  | framed hcurrent hpacket hframe heq =>
    refine hgoesOn hcurrent (by rw [heq]) (by rw [heq]) (fun s hs => ?_)
    cases hs
    rcases hpacket with ⟨rfl, rfl⟩ | ⟨hcontent, -⟩
    · exact hframe
    · rename_i origin packet data
      cases origin with
      | preface => cases hcontent
      | hello => cases hcontent
      | _ =>
        cases hcontent
        exact hframe
  | @goesOn origin s stage hcurrent hstage heq =>
    refine hgoesOn hcurrent (by rw [heq]) (by rw [heq]) (fun t ht => ?_)
    cases ht
    exact (h.current _ hcurrent).2 s rfl
  | @accepts origin s n hcurrent hpositive hstage hless heq =>
    refine hgoesOn hcurrent (by rw [heq]) (by rw [heq]) (fun t ht => ?_)
    cases ht
    exact (h.current _ hcurrent).2 s rfl
  | completes hcurrent hstage hall hwithin hnone haccepted hsends =>
    exact hover hnone hsends (h.current _ hcurrent).1 (.inr ((h.current _ hcurrent).2 _ rfl))
  | abandons hcurrent hfailed hnone haccepted hsends =>
    exact hover hnone hsends (h.current _ hcurrent).1 (.inr ((h.current _ hcurrent).2 _ rfl))

end Wire

/-! ## Streams and prefaces -/

namespace RecordParser

/-- **A stream that does not begin with the preface has no records.** -/
theorem recordsOf_of_not_starts {s : Bytes} (h : ¬ prefaceBytes <+: s) : recordsOf s = [] := by
  obtain ⟨xs, b, c, ys, zs, hbc, rfl, hpreface⟩ | ⟨z, zs, hpreface⟩ | ⟨rest, rfl⟩ :=
    firstDifference s prefaceBytes
  · obtain ⟨q, hq⟩ := consume_of_differs le_rfl [] ys hbc hpreface
    exact recordsOf_of_consume hq
  · exact recordsOf_of_consume (consume_of_unfinished le_rfl [] hpreface)
  · exact absurd (List.prefix_append _ _) h

/-- **A stream that begins with a record is refused.** -/
theorem consume_record_first (hi lo : UInt8) (rest : Bytes) :
    ∃ q error, consume collect (initial maxRecordSize) [] (hi :: lo :: 0x7b :: rest)
      = some (q, [], .failed error) := by
  obtain ⟨xs, b, c, ys, zs, hbc, hs, hpreface⟩ | ⟨z, zs, hpreface⟩ | ⟨more, hs⟩ :=
    firstDifference (hi :: lo :: 0x7b :: rest) prefaceBytes
  · obtain ⟨q, hq⟩ := consume_of_differs le_rfl [] ys hbc hpreface
    rw [hs]
    exact ⟨q, _, hq⟩
  · -- its third byte is not that of the preface
    have hthird := congrArg (fun l => l[2]?) hpreface
    simp [prefaceBytes] at hthird
  · have hthird := congrArg (fun l => l[2]?) hs
    simp [prefaceBytes] at hthird

theorem not_starts_of_record {s : Bytes} {hi lo : UInt8} {rest : Bytes}
    (h : s <+: hi :: lo :: 0x7b :: rest) : ¬ prefaceBytes <+: s := by
  intro hs
  obtain ⟨more, hmore⟩ := hs.trans h
  have hthird := congrArg (fun l => l[2]?) hmore
  simp [prefaceBytes] at hthird

/-- **A part of a record is used up**, and nothing is handed on. -/
theorem AtBoundary.consume_part {m : ℕ} {p : RecordParser} (hp : AtBoundary m p) (log : List Bytes)
    {hi lo : UInt8} {payload tail : Bytes} (hle : headerLength hi lo ≤ m)
    (hlength : headerLength hi lo = payload.length) (htail : tail <+: hi :: lo :: payload)
    (hne : tail ≠ hi :: lo :: payload) :
    ∃ q, consume collect p log tail = some (q, log, .returned true) := by
  match tail, htail with
  | [], _ => exact ⟨p, hp.live.consume_nil collect log⟩
  | [b], _ =>
    have hpass : iterate collect p log [b]
        = .next { p with header := p.header.setIfInBounds 0 b, headerOffset := 1 } log [] := by
      simp [iterate, hp.phase, iterateHeader, headerLoop, hp.offset, recordHeaderSize]
    obtain ⟨hlive, -⟩ := hp.live.next (by simp) hpass
    rw [consume_eq_iterate collect hp.live log (by simp), hpass]
    exact ⟨_, hlive.consume_nil collect log⟩
  | b :: b' :: body, htail =>
    rw [List.cons_prefix_cons, List.cons_prefix_cons] at htail
    obtain ⟨rfl, rfl, hbody⟩ := htail
    refine ⟨_, hp.consume_short log hle ?_⟩
    rw [hlength]
    refine lt_of_le_of_ne hbody.length_le (fun heq => hne ?_)
    rw [hbody.eq_of_length heq]

end RecordParser

/-! ## The texts of a stream -/

/-- The texts of the calls that sent, in the order in which they had the
lock. -/
def sentTexts (sends : List Send) : List Bytes :=
  (sends.filter Send.succeeded).filterMap (fun s => s.origin.text)

section Streams

variable {codec : Codec} {parse : Bytes → Except String Json}

/-- What was written of one more call. -/
def PartOf (codec : Codec) (origin : Origin) (tail : Bytes) : Prop :=
  origin.Allowed codec ∧ ∃ data, Carries codec origin data ∧ tail <+: data ∧ tail ≠ data

/-- A call that sent nothing, or its byte string. -/
def Wrote (codec : Codec) (s : Send) : Prop :=
  s.origin.Allowed codec
    ∧ (s.data = [] ∧ s.origin.content = none ∨ Carries codec s.origin s.data)

theorem text_of_setup {origin : Origin} (h : origin.content = none) : origin.text = none := by
  cases origin with
  | packet p => cases h
  | _ => rfl

/-- The byte string of a call that is not `send_preface`. -/
theorem record_of_carries {origin : Origin} {data : Bytes} (hallowed : origin.Allowed codec)
    (hu : Understood codec parse) (h : Carries codec origin data)
    (hpreface : origin.isPreface = false) :
    ∃ hi lo payload rest, data = hi :: lo :: payload ∧ payload = 0x7b :: rest
      ∧ headerLength hi lo = payload.length ∧ payload.length ≤ maxRecordSize
      ∧ textOf parse payload = origin.text := by
  unfold Carries at h
  cases hcarried : origin.carried codec with
  | none =>
    cases origin with
    | preface => cases hpreface
    | _ => cases hcarried
  | some packet =>
    rw [hcarried] at h
    obtain ⟨hobject, hcompletes, hi, lo, hdata, hlength, hle⟩ := record_of_frame h
    obtain ⟨rest, hrest⟩ := hu.brace packet hobject
    obtain ⟨hsendable, htext⟩ := hallowed.sendable hcarried
    exact ⟨hi, lo, _, rest, hdata, hrest, hlength, hle,
      (hu.text hsendable hcompletes).trans htext.symm⟩

theorem eq_preface_of_carries {origin : Origin} {data : Bytes} (h : Carries codec origin data)
    (hpreface : origin.isPreface = true) : data = prefaceBytes := by
  cases origin with
  | preface => exact h
  | _ => cases hpreface

/-- **Behind the preface every call is a record**, with its text. -/
theorem consume_sends (hu : Understood codec parse) {p : RecordParser}
    (hp : RecordParser.AtBoundary maxRecordSize p) (log : List Bytes) {sends : List Send}
    (hsends : ∀ s ∈ sends, Wrote codec s)
    (hpreface : (sends.map Send.origin).countP Origin.isPreface = 0) (tail : Bytes) :
    ∃ q records, RecordParser.AtBoundary maxRecordSize q
      ∧ RecordParser.consume RecordParser.collect p log ((sends.map Send.data).flatten ++ tail)
        = RecordParser.consume RecordParser.collect q (log ++ records) tail
      ∧ textsOf parse records = sends.filterMap (fun s => s.origin.text) := by
  induction sends generalizing p log with
  | nil => exact ⟨p, [], hp, by rw [List.append_nil]; rfl, rfl⟩
  | cons s sends ih =>
    rw [List.map_cons, List.countP_cons] at hpreface
    have hfirst : s.origin.isPreface = false := by
      cases h : s.origin.isPreface with
      | false => rfl
      | true =>
        rw [h, if_pos rfl] at hpreface
        omega
    have hrest : (sends.map Send.origin).countP Origin.isPreface = 0 := by omega
    have hmore := fun t ht => hsends t (List.mem_cons_of_mem s ht)
    obtain ⟨hallowed, ⟨hdata, hcontent⟩ | hcarries⟩ := hsends s List.mem_cons_self
    · obtain ⟨q, records, hq, hconsume, htexts⟩ := ih hp log hmore hrest
      refine ⟨q, records, hq, ?_, ?_⟩
      · rw [List.map_cons, List.flatten_cons, hdata, List.nil_append]
        exact hconsume
      · rw [List.filterMap_cons, text_of_setup hcontent]
        exact htexts
    · obtain ⟨hi, lo, payload, -, hdata, -, hlength, hle, htext⟩ :=
        record_of_carries hallowed hu hcarries hfirst
      obtain ⟨q, hq, hrecord⟩ := hp.consume_record log
        ((sends.map Send.data).flatten ++ tail) (hlength.trans_le hle) hlength.symm
      obtain ⟨q', records, hq', hconsume, htexts⟩ := ih hq (log ++ [payload]) hmore hrest
      refine ⟨q', payload :: records, hq', ?_, ?_⟩
      · rw [List.map_cons, List.flatten_cons, hdata, List.append_assoc, List.cons_append,
          List.cons_append, hrecord, hconsume, List.append_assoc]
        rfl
      · unfold textsOf at htexts ⊢
        rw [List.filterMap_cons, List.filterMap_cons, htext, htexts]

/-- What the parser makes of a part of a record. -/
theorem consume_partOf (hu : Understood codec parse) {p : RecordParser}
    (hp : RecordParser.AtBoundary maxRecordSize p) (log : List Bytes) {origin : Origin}
    {tail : Bytes} (h : PartOf codec origin tail) (hpreface : origin.isPreface = false) :
    ∃ q, RecordParser.consume RecordParser.collect p log tail = some (q, log, .returned true) := by
  obtain ⟨hallowed, data, hcarries, htail, hne⟩ := h
  obtain ⟨hi, lo, payload, -, rfl, -, hlength, hle, -⟩ :=
    record_of_carries hallowed hu hcarries hpreface
  exact hp.consume_part log (hlength.trans_le hle) hlength htail hne

/-- A part of a byte string alone has no records. -/
theorem recordsOf_partOf (hu : Understood codec parse) {origin : Origin} {tail : Bytes}
    (h : PartOf codec origin tail) : RecordParser.recordsOf tail = [] := by
  obtain ⟨hallowed, data, hcarries, htail, hne⟩ := h
  refine RecordParser.recordsOf_of_not_starts ?_
  cases hpreface : origin.isPreface with
  | true =>
    obtain rfl := eq_preface_of_carries hcarries hpreface
    intro hstarts
    exact hne (htail.eq_of_length_le hstarts.length_le)
  | false =>
    obtain ⟨hi, lo, payload, rest, rfl, rfl, -⟩ :=
      record_of_carries hallowed hu hcarries hpreface
    exact RecordParser.not_starts_of_record htail

/-- **The texts of a stream are those that were sent**, or the stream is
refused. -/
theorem texts_of_sends (hu : Understood codec parse) {sends : List Send}
    (hsends : ∀ s ∈ sends, Wrote codec s)
    (hprefaces : (sends.map Send.origin).countP Origin.isPreface ≤ 1) {tail : Bytes}
    (htail : tail = [] ∨ ∃ origin, PartOf codec origin tail ∧
      (origin.isPreface = true → (sends.map Send.origin).countP Origin.isPreface = 0)) :
    textsOf parse (RecordParser.recordsOf ((sends.map Send.data).flatten ++ tail))
        = sends.filterMap (fun s => s.origin.text)
      ∨ ∃ q error, RecordParser.consume RecordParser.collect (.initial maxRecordSize) []
        ((sends.map Send.data).flatten ++ tail) = some (q, [], .failed error) := by
  induction sends with
  | nil =>
    left
    have hrecords : RecordParser.recordsOf tail = [] := by
      rcases htail with rfl | ⟨origin, hpart, -⟩
      · rfl
      · exact recordsOf_partOf hu hpart
    show textsOf parse (RecordParser.recordsOf tail) = []
    rw [hrecords]
    rfl
  | cons s sends ih =>
    have hmore := fun t ht => hsends t (List.mem_cons_of_mem s ht)
    rw [List.map_cons, List.countP_cons] at hprefaces htail
    obtain ⟨hallowed, ⟨hdata, hcontent⟩ | hcarries⟩ := hsends s List.mem_cons_self
    · -- nothing was written
      rw [List.map_cons, List.flatten_cons, hdata, List.nil_append, List.filterMap_cons,
        text_of_setup hcontent]
      refine ih hmore (by omega) (htail.imp_right ?_)
      rintro ⟨origin, hpart, hcount⟩
      exact ⟨origin, hpart, fun h => by have := hcount h; omega⟩
    · rw [List.map_cons, List.flatten_cons, List.append_assoc]
      cases hpreface : s.origin.isPreface with
      | false =>
        -- a record is the first thing that was written
        right
        obtain ⟨hi, lo, payload, rest, hdata, hpayload, -⟩ :=
          record_of_carries hallowed hu hcarries hpreface
        rw [hdata, hpayload]
        exact RecordParser.consume_record_first hi lo _
      | true =>
        left
        rw [hpreface, if_pos rfl] at hprefaces htail
        obtain ⟨q, records, hq, hconsume, htexts⟩ := consume_sends hu
          (RecordParser.atBoundary_afterPreface le_rfl) [] hmore (by omega) tail
        obtain ⟨q', hq'⟩ : ∃ q', RecordParser.consume RecordParser.collect q records tail
            = some (q', records, .returned true) := by
          rcases htail with rfl | ⟨origin, hpart, hcount⟩
          · exact ⟨q, hq.live.consume_nil _ records⟩
          · refine consume_partOf hu hq records hpart ?_
            cases h : origin.isPreface with
            | false => rfl
            | true =>
              have := hcount h
              omega
        have hall : RecordParser.consume RecordParser.collect (.initial maxRecordSize) []
            (s.data ++ ((sends.map Send.data).flatten ++ tail))
            = some (q', records, .returned true) := by
          rw [eq_preface_of_carries hcarries hpreface, RecordParser.consume_preface le_rfl, hconsume]
          exact hq'
        rw [RecordParser.recordsOf_of_consume hall, htexts, List.filterMap_cons]
        have htext : s.origin.text = none := by
          cases horigin : s.origin with
          | packet p =>
            rw [horigin] at hpreface
            cases hpreface
          | _ => rfl
        rw [htext]

end Streams

namespace Wire

variable {codec : Codec} {parse : Bytes → Except String Json} {v : Wire}

/-- **The texts of what a session has written** are those that were sent, or
what it has written is refused. -/
theorem Streams.texts (h : v.Streams codec) (hu : Understood codec parse) {stopping : Bool}
    (hintact : v.Intact stopping) (hcount : v.calls.countP Origin.isPreface ≤ 1) :
    textsOf parse (RecordParser.recordsOf v.accepted) = sentTexts v.sends
      ∨ ∃ q error, RecordParser.consume RecordParser.collect (.initial maxRecordSize) [] v.accepted
        = some (q, [], .failed error) := by
  have hsplit := List.countP_eq_countP_filter_add v.sends (fun s => s.origin.isPreface) Send.succeeded
  have hsends : (v.sends.map Send.origin).countP Origin.isPreface
      = v.sends.countP (fun s => s.origin.isPreface) := by
    rw [List.countP_map]
    rfl
  have hfilter : ((v.sends.filter Send.succeeded).map Send.origin).countP Origin.isPreface
      = (v.sends.filter Send.succeeded).countP (fun s => s.origin.isPreface) := by
    rw [List.countP_map]
    rfl
  have hcalls : v.calls.countP Origin.isPreface
      = v.sends.countP (fun s => s.origin.isPreface)
        + (v.current.toList.map Outgoing.origin).countP Origin.isPreface := by
    unfold calls
    rw [List.countP_append, hsends]
  obtain ⟨tail, haccepted, htail⟩ := Wired.exists_tail hintact
  rw [haccepted]
  refine texts_of_sends hu (fun s hs => ?_) (by omega) ?_
  · obtain ⟨hmem, hsucceeded⟩ := List.mem_filter.mp hs
    obtain ⟨hallowed, hdata⟩ := h.sent s hmem
    exact ⟨hallowed, hdata.imp_left (fun ⟨hnil, hcontent⟩ => ⟨hnil, hcontent hsucceeded⟩)⟩
  · rcases htail with hnil | ⟨data, hunfinished, hpart, hne⟩
    · exact .inl hnil
    · refine .inr ?_
      rcases hunfinished with ⟨s, hs, hfailed, rfl⟩ | ⟨origin, s, hs, rfl⟩
      · -- a call that failed
        obtain ⟨hallowed, ⟨hnil, -⟩ | hcarries⟩ := h.sent s hs
        · rw [hnil] at hpart hne
          exact absurd (List.prefix_nil.mp hpart) hne
        · refine ⟨s.origin, ⟨hallowed, _, hcarries, hpart, hne⟩, fun hpreface => ?_⟩
          have hpositive : 0 < (v.sends.filter (fun s => !s.succeeded)).countP
              (fun s => s.origin.isPreface) :=
            List.countP_pos_iff.mpr
              ⟨s, List.mem_filter.mpr ⟨hs, by rw [hfailed]; rfl⟩, hpreface⟩
          rw [hfilter]
          omega
      · -- the call that is sending
        obtain ⟨hallowed, hcarries⟩ := h.current _ hs
        refine ⟨origin, ⟨hallowed, _, hcarries s rfl, hpart, hne⟩, fun hpreface => ?_⟩
        rw [hs] at hcalls
        have hone : ((some (⟨origin, .sending s⟩ : Outgoing)).toList.map Outgoing.origin).countP
            Origin.isPreface = 1 := by
          show [origin].countP Origin.isPreface = 1
          rw [List.countP_singleton, hpreface]
          rfl
        rw [hone] at hcalls
        rw [hfilter]
        omega

end Wire

end Gasoline
