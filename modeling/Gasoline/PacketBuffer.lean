import Gasoline.FailingPrograms
import Gasoline.WireStream

/-!
# Size limits

`send_packet_locked` has the JSON library write a packet into a buffer that
takes a limited number of bytes, and the buffer throws at the first write
that would go over it. How the library cuts a packet into writes is left
open, and it makes no difference: the packet is sent exactly if it fits
(`sendPacketLocked_eq_frame`), and never in part.

There are three limits. A sender looks at the JSON value to tell a control
packet, 4096 bytes, from others, 65535 bytes; a receiver looks at the packet
it has parsed; and a header announces at most 65535 bytes. They agree
(`size_limits_agree`): what a sender writes passes the checks of a peer that
is ready, and what it refuses would not have passed, or could not have been
encoded.
-/

namespace Gasoline

/-! ## The buffer -/

/-- **`BoundedPacketBuffer`.** -/
structure BoundedPacketBuffer where
  data : Bytes
  limit : ℕ
  deriving DecidableEq, Repr

/-- What the serializer calls of a stream buffer. -/
inductive BufferCall
  | xsputn (data : Bytes)
  /-- `none` is `eof`. -/
  | overflow (value : Option UInt8)
  deriving DecidableEq, Repr

/-- `std::length_error`. -/
inductive LengthError
  | packetExceedsMaximumFrameSize
  deriving DecidableEq, Repr

/-- The bytes that a call brings. -/
def BufferCall.bytes : BufferCall → Bytes
  | .xsputn data => data
  | .overflow none => []
  | .overflow (some character) => [character]

namespace BoundedPacketBuffer

/-- `limit_ - data_.size()`, of `size_t`. -/
def room (b : BoundedPacketBuffer) : ℕ := (b.limit + 2 ^ 64 - b.data.length) % 2 ^ 64

/-- `xsputn`. -/
def xsputn (data : Bytes) : EStateM LengthError BoundedPacketBuffer ℕ := do
  let b ← get
  if b.room < data.length then throw .packetExceedsMaximumFrameSize
  else
    set { b with data := b.data ++ data }
    return data.length

/-- `overflow`. -/
def overflow (value : Option UInt8) : EStateM LengthError BoundedPacketBuffer Unit :=
  match value with
  | none => return ()
  | some character => do
    let _ ← xsputn [character]
    return ()

/-- A call of the serializer. -/
def perform : BufferCall → EStateM LengthError BoundedPacketBuffer Unit
  | .xsputn data => do
    let _ ← xsputn data
    return ()
  | .overflow value => overflow value

/-- **The calls of the serializer**, up to the first that throws. -/
def performAll : List BufferCall → EStateM LengthError BoundedPacketBuffer Unit
  | [] => return ()
  | call :: calls => do
    perform call
    performAll calls

/-- **What holds of the buffer**: it is within its limit, and so the room that
is left is what it seems to be. -/
structure Within (b : BoundedPacketBuffer) : Prop where
  size : b.data.length ≤ b.limit
  limit : b.limit < 2 ^ 64

theorem Within.room {b : BoundedPacketBuffer} (h : b.Within) :
    b.room = b.limit - b.data.length := by
  have hsize := h.size
  have hlimit := h.limit
  unfold BoundedPacketBuffer.room
  rw [Nat.add_comm, Nat.add_sub_assoc hsize, Nat.add_mod_left]
  exact Nat.mod_eq_of_lt (by omega)

/-- **A call appends its bytes if there is room for them**, and else throws
and changes nothing. -/
theorem before_perform {b : BoundedPacketBuffer} (h : b.Within) (call : BufferCall)
    {Q : Except LengthError Unit → BoundedPacketBuffer → Prop}
    (hfits : b.data.length + call.bytes.length ≤ b.limit →
      Q (.ok ()) { b with data := b.data ++ call.bytes })
    (hthrows : b.limit < b.data.length + call.bytes.length →
      Q (.error .packetExceedsMaximumFrameSize) b) :
    Before (perform call) Q b := by
  have hsize := h.size
  have hput : ∀ data, (b.data.length + data.length ≤ b.limit →
        Q (.ok ()) { b with data := b.data ++ data }) →
      (b.limit < b.data.length + data.length → Q (.error .packetExceedsMaximumFrameSize) b) →
      Before (xsputn data >>= fun _ => pure ()) Q b := by
    intro data hfits hthrows
    rw [before_bind, xsputn, before_bind, before_get]
    change Before (if b.room < data.length then throw LengthError.packetExceedsMaximumFrameSize
      else _) _ b
    rw [h.room]
    refine before_ite (fun hover => hthrows (by omega)) (fun hroom => hfits (by omega))
  cases call with
  | xsputn data => exact hput data hfits hthrows
  | overflow value =>
    cases value with
    | none =>
      have hdone := hfits (by simpa [BufferCall.bytes] using hsize)
      rwa [BufferCall.bytes, List.append_nil] at hdone
    | some character => exact hput [character] hfits hthrows

/-- **However the bytes are cut into calls**, they are in the buffer if they
fit, and if they do not, a call throws. The buffer is within its limit at the
end, wherever that is. -/
theorem before_performAll {b : BoundedPacketBuffer} (h : b.Within) (calls : List BufferCall) :
    Before (performAll calls) (fun r b' => b'.Within ∧ b'.limit = b.limit ∧
      match r with
      | .ok _ => b'.data = b.data ++ calls.flatMap BufferCall.bytes
      | .error _ => b.limit < b.data.length + (calls.flatMap BufferCall.bytes).length) b := by
  induction calls generalizing b with
  | nil => exact ⟨h, rfl, (List.append_nil _).symm⟩
  | cons call calls ih =>
    rw [performAll, before_bind]
    refine before_perform h call (fun hfits => ?_) (fun hover => ⟨h, rfl, ?_⟩)
    · have hwithin : ({ b with data := b.data ++ call.bytes } : BoundedPacketBuffer).Within :=
        ⟨by rw [List.length_append]; exact hfits, h.limit⟩
      refine (ih hwithin).mono ?_
      rintro r b' ⟨hwithin', hlimit, hr⟩
      refine ⟨hwithin', hlimit, ?_⟩
      cases r with
      | ok _ =>
        rw [List.flatMap_cons, ← List.append_assoc]
        exact hr
      | error e =>
        rw [List.flatMap_cons, List.length_append, ← Nat.add_assoc, ← List.length_append]
        exact hr
    · show b.limit < _
      rw [List.flatMap_cons, List.length_append]
      omega

end BoundedPacketBuffer

/-! ## Sending -/

/-- **`send_packet_locked`**, up to `send_all`, with the calls that the
serializer makes and whether it then returns. -/
def sendPacketLocked (calls : List BufferCall) (completes : Bool) (packet : Json) : Framed :=
  match (BoundedPacketBuffer.performAll calls).run ⟨[], packetLimit packet⟩ with
  | .error _ _ => .tooLarge
  | .ok _ b =>
    if !completes then .throws
    else
      match encodeRecord b.data with
      | .error _ => .throws
      | .ok record => if packet.hasTypeText then .record record else .throws

theorem within_new (packet : Json) : BoundedPacketBuffer.Within ⟨[], packetLimit packet⟩ where
  size := Nat.zero_le _
  limit := (packetLimit_le packet).trans_lt (by decide)

/-- **How the serializer cuts its output makes no difference.** -/
theorem sendPacketLocked_eq_frame {dump : Json → Serialization} {packet : Json}
    {calls : List BufferCall} (hcalls : calls.flatMap BufferCall.bytes = (dump packet).output) :
    sendPacketLocked calls (dump packet).completes packet = frame dump packet := by
  have hrun := BoundedPacketBuffer.before_performAll (within_new packet) calls
  unfold Before at hrun
  unfold sendPacketLocked frame
  cases hresult : (BoundedPacketBuffer.performAll calls).run ⟨[], packetLimit packet⟩ with
  | error e b =>
    rw [hresult] at hrun
    obtain ⟨-, -, hover⟩ := hrun
    change packetLimit packet < 0 + _ at hover
    rw [hcalls, Nat.zero_add] at hover
    rw [if_pos hover]
  | ok u b =>
    rw [hresult] at hrun
    obtain ⟨data, limit⟩ := b
    obtain ⟨hwithin, hlimit, hdata⟩ := hrun
    change data = [] ++ _ at hdata
    rw [hcalls, List.nil_append] at hdata
    subst hdata
    have hsize : (dump packet).output.length ≤ packetLimit packet :=
      hwithin.size.trans_eq hlimit
    exact (if_neg (not_lt.mpr hsize)).symm

/-! ## On the wire -/

namespace Wire

variable {codec : Codec} {c : Connection} {current : Bool → AuthorizedPeer → Bool} {w : Wire}

/-- A step of the wire, beside a connection that stays as it is. -/
def advance (codec : Codec) (c : Connection) (current : Bool → AuthorizedPeer → Bool) (w : Wire)
    (e : WireEvent) : Option Wire :=
  (w.step codec c current e).map Prod.fst

/-- `send_all` goes round its loop once: it makes its checks, and `::send`
accepts `n` bytes. -/
def offered (n : ℕ) : List WireEvent :=
  [.transmit false (.accepted n), .transmit false (.accepted n)]

/-- **A socket that accepts all bytes**, however many at a time, gets them
all, and `send_all` returns their number. -/
theorem runs_offered (hstopping : c.stopping = false) {packet : Json} {data : Bytes} {sent : ℕ}
    {ns : List ℕ} (hpos : ∀ n ∈ ns, 0 < n) (hsum : sent + ns.sum = data.length)
    (hleft : sent < data.length) :
    runs (advance codec c current)
        { w with current := some ⟨.packet packet, .sending ⟨data, sent, .check⟩⟩ }
        (ns.flatMap offered)
      = some { w with
        current := none
        accepted := w.accepted ++ data.drop sent
        sends := w.sends ++ [⟨.packet packet, data, data.length, .returned data.length⟩] } := by
  induction ns generalizing w sent with
  | nil =>
    rw [List.sum_nil] at hsum
    omega
  | cons n ns ih =>
    have hn := hpos n List.mem_cons_self
    rw [List.sum_cons] at hsum
    rw [List.flatMap_cons, runs_append]
    have hround : runs (advance codec c current)
        { w with current := some ⟨.packet packet, .sending ⟨data, sent, .check⟩⟩ } (offered n)
        = some (if sent + n = data.length then { w with
            current := none
            accepted := w.accepted ++ (data.drop sent).take n
            sends := w.sends ++ [⟨.packet packet, data, data.length, .returned data.length⟩] }
          else { w with
            current := some ⟨.packet packet, .sending ⟨data, sent + n, .check⟩⟩
            accepted := w.accepted ++ (data.drop sent).take n }) := by
      have hmore : ¬ data.length ≤ sent := by omega
      have hfits : ¬ data.length < sent + n := by omega
      by_cases hlast : sent + n = data.length
      · simp [offered, runs, advance, step, transmit, complete, finish, hstopping, hmore, hlast,
          hn.ne']
      · simp [offered, runs, advance, step, transmit, hstopping, hmore, hfits, hlast, hn.ne']
    rw [hround, Option.bind_some]
    by_cases hlast : sent + n = data.length
    · have hnil : ns = [] := by
        cases ns with
        | nil => rfl
        | cons m ms =>
          have hm := hpos m (by simp)
          rw [List.sum_cons] at hsum
          omega
      rw [if_pos hlast, hnil, List.flatMap_nil, runs_nil]
      have htake : (data.drop sent).take n = data.drop sent := by
        refine List.take_of_length_le ?_
        rw [List.length_drop]
        omega
      rw [htake]
    · rw [if_neg hlast]
      refine (ih (w := { w with accepted := w.accepted ++ (data.drop sent).take n })
        (fun m hm => hpos m (List.mem_cons_of_mem n hm)) ?_ ?_).trans ?_
      · omega
      · omega
      simp only [List.append_assoc, ← List.drop_drop, List.take_append_drop]

end Wire

/-! ## At the peer -/

/-- The limit of a packet goes by its type. -/
theorem packetLimit_eq {packet : Json} {type : Bytes}
    (htype : (packet.find (ascii "type")).bind Json.text = some type) :
    packetLimit packet = if isControlType type then maxControlRecordSize else maxRecordSize := by
  unfold packetLimit Json.isControlRecord
  rw [htype, Option.any_some]

/-- Where `handle_record` goes next. -/
def Handling.next (host : Host) (c : Connection) (late : Bool) (current : AuthorizedPeer → Bool)
    (h : Handling) : Handling :=
  (h.step host c late current).2

/-- **The checks of a session that is ready**: the record becomes a packet,
unless it is a control record of more than 4096 bytes. -/
theorem checks_of_ready {host : Host} {c : Connection} {late : Bool}
    {current : AuthorizedPeer → Bool} (hready : c.ready = true) (observed : Option Bool)
    {data : Bytes} {pkt : Packet} (hparse : parsePacket host.parse data = .ok pkt) :
    (Handling.next host c late current)^[3] ⟨data, observed, .checkDeadline⟩
      = ⟨data, some true, if pkt.isControlRecord && decide (maxControlRecordSize < data.length) then
          .disconnect else .decide pkt⟩ := by
  have hdeadline : Handling.next host c late current ⟨data, observed, .checkDeadline⟩
      = ⟨data, some true, .checkSize⟩ := by
    simp [Handling.next, Handling.step, hready]
  have hsize : Handling.next host c late current ⟨data, some true, .checkSize⟩
      = ⟨data, some true, .parse⟩ := by
    simp [Handling.next, Handling.step, hready]
  have hparsed : Handling.next host c late current ⟨data, some true, .parse⟩
      = ⟨data, some true, if pkt.isControlRecord && decide (maxControlRecordSize < data.length) then
          .disconnect else .decide pkt⟩ := by
    unfold Handling.next Handling.step
    simp only [hparse]
    split
    · rfl
    · rfl
  show Handling.next host c late current (Handling.next host c late current
    (Handling.next host c late current ⟨data, observed, .checkDeadline⟩)) = _
  rw [hdeadline, hsize, hparsed]

/-- **Sender and receiver have the same limits.** Take any packet that is an
object with texts for its type, not a hello, and its device id; any way the
serializer cuts its output into writes; and suppose that the output is parsed
as the packet. The buffer stays within its limit, and the room it computes is
the room there is. If the packet fits, that is, has at most 4096 bytes for a
ping or a pong and at most 65535 for any other type, a socket that accepts
all bytes gets exactly the record of it; and of a peer that is ready, the
parser delivers the record and the checks let it pass. If it does not fit,
-1 is returned and nothing is written; and the output cannot be encoded, or
the checks of the peer would have rejected it. -/
theorem size_limits_agree {codec : Codec} {host : Host} {packet : Json} {type deviceId : Bytes}
    {calls : List BufferCall} (hobject : packet.isObject = true)
    (htype : (packet.find (ascii "type")).bind Json.text = some type)
    (hhello : type ≠ ascii "hello")
    (hdevice : (packet.find (ascii "device_id")).bind Json.text = some deviceId)
    (hcompletes : (codec.dump packet).completes = true)
    (hcalls : calls.flatMap BufferCall.bytes = (codec.dump packet).output)
    (hparse : host.parse (codec.dump packet).output = .ok packet) :
    (∀ part, part <+: calls → Before (BoundedPacketBuffer.performAll part)
        (fun _ b => b.limit = packetLimit packet ∧ b.data.length ≤ b.limit
          ∧ b.room = b.limit - b.data.length) ⟨[], packetLimit packet⟩)
      ∧ packetLimit packet = (if type = ascii "ping" ∨ type = ascii "pong" then 4096 else 65535)
      ∧ ((codec.dump packet).output.length ≤ packetLimit packet →
        ∃ record, encodeRecord (codec.dump packet).output = .ok record
          ∧ sendPacketLocked calls true packet = .record record
          ∧ (∀ (c : Connection) current (w : Wire) (ns : List ℕ), c.stopping = false →
            c.writer = .writing packet →
            w.current = some ⟨.packet packet, .locked⟩ → (∀ n ∈ ns, 0 < n) →
            ns.sum = record.length →
            runs (Wire.advance codec c current) w (.serialize :: ns.flatMap Wire.offered)
              = some { w with
                current := none
                accepted := w.accepted ++ record
                sends := w.sends
                  ++ [⟨.packet packet, record, record.length, .returned record.length⟩] })
          ∧ (∀ p, RecordParser.AtBoundary maxRecordSize p → ∀ log rest, ∃ q,
            RecordParser.AtBoundary maxRecordSize q
              ∧ RecordParser.consume RecordParser.collect p log (record ++ rest)
                = RecordParser.consume RecordParser.collect q
                  (log ++ [(codec.dump packet).output]) rest)
          ∧ ∃ pkt : Packet, pkt.type = type ∧ pkt.deviceId = deviceId
            ∧ ∀ c late current observed, c.ready = true →
              (Handling.next host c late current)^[3]
                  ⟨(codec.dump packet).output, observed, .checkDeadline⟩
                = ⟨(codec.dump packet).output, some true, .decide pkt⟩)
      ∧ (packetLimit packet < (codec.dump packet).output.length →
        sendPacketLocked calls true packet = .tooLarge
          ∧ (∀ c current w, c.writer = .writing packet →
            w.current = some ⟨.packet packet, .locked⟩ →
            Wire.advance codec c current w .serialize = some { w with
              current := none
              sends := w.sends ++ [⟨.packet packet, [], 0, .returned (-1)⟩] })
          ∧ ((∃ e, encodeRecord (codec.dump packet).output = .error e)
            ∨ ∀ c late current observed, c.ready = true →
              (Handling.next host c late current)^[3]
                  ⟨(codec.dump packet).output, observed, .checkDeadline⟩
                = ⟨(codec.dump packet).output, some true, .disconnect⟩)) := by
  have hlimit := packetLimit_eq htype
  have hparsed := parsePacket_of_parsed hparse hobject htype hhello hdevice
  have hframe : sendPacketLocked calls true packet = frame codec.dump packet := by
    rw [← hcompletes]
    exact sendPacketLocked_eq_frame hcalls
  have htypeText : packet.hasTypeText = true := by
    unfold Json.hasTypeText
    rw [hobject, Bool.true_and, Option.all_eq_true]
    intro value hvalue
    rw [hvalue, Option.bind_some] at htype
    rw [htype]
    rfl
  refine ⟨fun part hpart => ?_, ?_, fun hfits => ?_, fun hover => ?_⟩
  · refine (BoundedPacketBuffer.before_performAll (within_new packet) part).mono ?_
    rintro r b ⟨hwithin, hsame, -⟩
    exact ⟨hsame, hwithin.size, hwithin.room⟩
  · rw [hlimit]
    simp [isControlType, hhello, maxControlRecordSize, maxRecordSize]
  · have hmax := hfits.trans (packetLimit_le packet)
    obtain ⟨hi, lo, hrecord, hlength⟩ := encodeRecord_eq hmax
    have hframed : frame codec.dump packet = .record (hi :: lo :: (codec.dump packet).output) := by
      unfold frame
      rw [if_neg (not_lt.mpr hfits), hcompletes, hrecord]
      simp [htypeText]
    refine ⟨_, hrecord, hframe.trans hframed, ?_, ?_, ?_⟩
    · intro c current w ns hstopping hwriter hcurrent hpos hsum
      refine runs_cons.mpr ⟨{ w with current := some ⟨.packet packet,
        .sending ⟨hi :: lo :: (codec.dump packet).output, 0, .check⟩⟩ }, ?_, ?_⟩
      · simp [Wire.advance, Wire.step, Wire.serialize, hcurrent, hwriter, hframed]
      · exact Wire.runs_offered hstopping hpos (by rw [hsum, Nat.zero_add]) (by simp)
    · intro p hp log rest
      obtain ⟨q, hq, hconsume⟩ := hp.consume_record log rest (hlength.trans_le hmax) hlength.symm
      exact ⟨q, hq, by rw [← hconsume]; rfl⟩
    · refine ⟨⟨type, deviceId, (packet.find (ascii "payload")).getD .null⟩, rfl, rfl,
        fun c late current observed hready => ?_⟩
      rw [checks_of_ready hready observed hparsed]
      have hpasses : (isControlType type
          && decide (maxControlRecordSize < (codec.dump packet).output.length)) = false := by
        cases hcontrol : isControlType type with
        | false => rfl
        | true =>
          rw [hlimit, if_pos hcontrol] at hfits
          simpa using hfits
      show Handling.mk _ _ (if (isControlType type && _) = true then _ else _) = _
      rw [hpasses]
      rfl
  · have hframed : frame codec.dump packet = .tooLarge := by
      unfold frame
      rw [if_pos hover]
    refine ⟨hframe.trans hframed, fun c current w hwriter hcurrent => ?_, ?_⟩
    · simp [Wire.advance, Wire.step, Wire.serialize, Wire.finish, hcurrent, hwriter, hframed]
    · cases hcontrol : isControlType type with
      | false =>
        rw [hlimit, hcontrol] at hover
        exact .inl ⟨_, if_pos hover⟩
      | true =>
        rw [hlimit, if_pos hcontrol] at hover
        right
        intro c late current observed hready
        rw [checks_of_ready hready observed hparsed]
        have hrejected : (isControlType type
            && decide (maxControlRecordSize < (codec.dump packet).output.length)) = true := by
          rw [hcontrol, Bool.true_and]
          exact decide_eq_true hover
        show Handling.mk _ _ (if (isControlType type && _) = true then _ else _) = _
        rw [hrejected]
        rfl

/-- A ping. -/
def samplePing : Json :=
  .object [(ascii "type", .string (ascii "ping")), (ascii "device_id", .string (ascii "a"))]

/-- The text that the JSON library writes for it, of which braces are written
by their codes. -/
def samplePingText : Bytes :=
  0x7b :: ascii "\"device_id\":\"a\",\"type\":\"ping\"" ++ [0x7d]

/-- The JSON library, as far as the ping is concerned. -/
def pingCodec : Codec where
  myDeviceId := ascii "a"
  parse text := if text = samplePingText then .ok samplePing else .error "no ping"
  dump _ := ⟨samplePingText, true⟩

/-- The hypotheses are met by a ping that is written character by
character. -/
theorem size_limits_agree_ping :
    sendPacketLocked (samplePingText.map (fun c => .overflow (some c))) true samplePing
        = .record ([0, 31] ++ samplePingText)
      ∧ ∃ pkt : Packet, pkt.type = ascii "ping" ∧ pkt.deviceId = ascii "a"
        ∧ ∀ c late current observed, c.ready = true →
          (Handling.next pingCodec.toHost c late current)^[3]
              ⟨samplePingText, observed, .checkDeadline⟩
            = ⟨samplePingText, some true, .decide pkt⟩ := by
  obtain ⟨-, -, hsent, -⟩ := @size_limits_agree pingCodec pingCodec.toHost samplePing
    (ascii "ping") (ascii "a") (samplePingText.map (fun c => .overflow (some c)))
    (by decide) (by decide) (by decide) (by decide) rfl (by decide) rfl
  obtain ⟨record, hrecord, hlocked, -, -, hpeer⟩ := hsent (by decide)
  cases hrecord
  exact ⟨hlocked.trans (congrArg Framed.record (by decide)), hpeer⟩

end Gasoline
