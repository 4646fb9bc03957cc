import Gasoline.WireOrder

/-!
# What a session reads

The worker feeds what it receives to the record parser and hands each record
to `handle_record` before it reads on. So the records of a session are those
of the byte stream it received, from the first one on (`Reading`), however
the stream was cut and whatever the records led to.

What a step of a wire does to the worker and to what was read is said once
(`Reads`).
-/

namespace Gasoline

/-! ## The records of a stream -/

namespace RecordParser

/-- The parser accepts input. -/
def isOpen (p : RecordParser) : Bool := !p.failed && !p.finished

theorem isOpen_of_live {p : RecordParser} (h : p.Live) : p.isOpen = true := by
  unfold isOpen
  rw [h.notFailed, h.notFinished]
  rfl

/-- The end of the stream closes the parser. -/
theorem isOpen_finish (p : RecordParser) : p.finish.1.isOpen = false := by
  unfold finish isOpen
  split
  · rfl
  split
  · rename_i hfinished
    simp [hfinished]
  split
  · rfl
  split
  · rfl
  split <;> simp [fail]

/-- A pass with other records in the log. -/
def Iteration.behind (log : List Bytes) : Iteration (List Bytes) → Iteration (List Bytes)
  | .next q t rest => .next q (log ++ t) rest
  | .exit q t outcome => .exit q (log ++ t) outcome

/-- **The log does not matter to a pass**: records are put behind it. -/
theorem iterate_collect (p : RecordParser) (log : List Bytes) (input : Bytes) :
    iterate collect p log input = (iterate collect p [] input).behind log := by
  have hcomplete : ∀ (q : RecordParser) (rest : Bytes),
      headerComplete collect q log rest = (headerComplete collect q [] rest).behind log := by
    intro q rest
    unfold headerComplete
    simp only
    split
    · simp [fail, Iteration.behind]
    · split <;> simp [collect, Iteration.behind]
  unfold iterate
  split
  · unfold iteratePreface
    split
    · simp [Iteration.behind]
    · split <;> simp [Iteration.behind]
  · unfold iterateHeader
    split
    split
    · simp [Iteration.behind]
    · exact hcomplete _ _
  · unfold iteratePayload payloadComplete
    simp only
    split <;> simp [collect, Iteration.behind]

/-- A pass hands on at most one record. -/
theorem iterate_log (p : RecordParser) (input : Bytes) {q : RecordParser} {t : List Bytes}
    {rest : Bytes} (h : iterate collect p [] input = .next q t rest) :
    t = [] ∨ ∃ payload, t = [payload] := by
  unfold iterate at h
  split at h
  · unfold iteratePreface at h
    split at h
    · cases h
    · split at h <;> cases h <;> exact .inl rfl
  · unfold iterateHeader at h
    split at h
    split at h
    · cases h
      exact .inl rfl
    · unfold headerComplete at h
      simp only at h
      split at h
      · cases h
      · split at h <;> cases h
        · exact .inr ⟨_, rfl⟩
        · exact .inl rfl
  · unfold iteratePayload payloadComplete at h
    simp only at h
    split at h <;> cases h
    · exact .inr ⟨_, rfl⟩
    · exact .inl rfl

/-- A pass that ends the call closes the parser. -/
theorem iterate_collect_exit {p q : RecordParser} {t : List Bytes} {input : Bytes}
    {outcome : ConsumeExit} (h : iterate collect p [] input = .exit q t outcome) :
    q.isOpen = false := by
  have hthrew : outcome ≠ .handlerThrew := by
    rintro rfl
    obtain ⟨payload, hpayload⟩ := iterate_threw h
    cases hpayload
  unfold isOpen
  rw [(iterate_exit h).2 hthrew]
  rfl

/-- **What a call hands on is put behind the log.** -/
theorem consume_collect {p : RecordParser} (hp : p.Live) (log : List Bytes) (input : Bytes) :
    ∃ q t outcome, consume collect p [] input = some (q, t, outcome)
      ∧ consume collect p log input = some (q, log ++ t, outcome) := by
  induction hn : input.length using Nat.strong_induction_on generalizing p log input with
  | _ n ih =>
    by_cases hne : input = []
    · subst hne
      exact ⟨p, [], _, hp.consume_nil collect [], by rw [hp.consume_nil, List.append_nil]⟩
    · rw [consume_eq_iterate collect hp [] hne, consume_eq_iterate collect hp log hne,
        iterate_collect p log]
      cases hit : iterate collect p [] input with
      | exit q t outcome => exact ⟨q, t, outcome, rfl, rfl⟩
      | next q t rest =>
        obtain ⟨hq, hlt⟩ := hp.next hne hit
        obtain ⟨q₁, t₁, o₁, hnil₁, hbehind₁⟩ := ih rest.length (by omega) hq t rest rfl
        obtain ⟨q₂, t₂, o₂, hnil₂, hbehind₂⟩ := ih rest.length (by omega) hq (log ++ t) rest rfl
        obtain ⟨rfl, rfl, rfl⟩ : q₂ = q₁ ∧ t₂ = t₁ ∧ o₂ = o₁ := by
          rw [hnil₁] at hnil₂
          cases hnil₂
          exact ⟨rfl, rfl, rfl⟩
        exact ⟨q₂, t ++ t₂, o₂, hbehind₁, by rw [← List.append_assoc]; exact hbehind₂⟩

/-- **The records of a stream**, as far as the parser takes it. -/
def recordsOf (s : Bytes) : List Bytes :=
  match consume collect (initial maxRecordSize) [] s with
  | some (_, log, _) => log
  | none => []

theorem recordsOf_of_consume {s : Bytes} {q : RecordParser} {log : List Bytes}
    {outcome : ConsumeExit}
    (h : consume collect (initial maxRecordSize) [] s = some (q, log, outcome)) :
    recordsOf s = log := by
  unfold recordsOf
  rw [h]

/-- **More of a stream has more records behind those it had.** -/
theorem recordsOf_append (s t : Bytes) : recordsOf s <+: recordsOf (s ++ t) := by
  obtain ⟨q, log, outcome, h, hlive⟩ :=
    consume_total collect (live_initial le_rfl) ([] : List Bytes) s
  have happend := consume_append collect (live_initial le_rfl) ([] : List Bytes) s t
  rw [h] at happend
  rw [recordsOf_of_consume h]
  cases outcome with
  | returned result =>
    cases result with
    | true =>
      obtain ⟨q', more, outcome', -, hbehind⟩ := consume_collect (hlive rfl) log t
      rw [recordsOf_of_consume (happend.trans hbehind)]
      exact List.prefix_append _ _
    | false => rw [recordsOf_of_consume happend]
  | failed error => rw [recordsOf_of_consume happend]
  | handlerThrew => rw [recordsOf_of_consume happend]

end RecordParser

/-! ## Where the worker is -/

/-- The record, and the input behind it. -/
def Resume.payload : Resume → Option Bytes
  | .record payload _ => some payload
  | .chunk => none

def Resume.rest : Resume → Bytes
  | .record _ rest => rest
  | .chunk => []

namespace Worker

/-- What the worker resumes once `accept_peer_preface` is over. -/
def resume : Worker → Option Resume
  | .accept k => some k
  | .greet k => some k
  | .ungreeted k => some k
  | .accepted k => some k
  | _ => none

/-- The record that is to be handled next. -/
def atHand (w : Worker) : Option Bytes := w.resume.bind Resume.payload

/-- The input that was received and not read. -/
def unread : Worker → Bytes
  | .consume input => input
  | .handle rest => rest
  | w => (w.resume.map Resume.rest).getD []

/-- The worker is in `handle_record`. -/
def isHandling : Worker → Bool
  | .handle _ => true
  | _ => false

end Worker

namespace Wire

/-- What was read. -/
def receipt (v : Wire) : RecordParser × Bytes × List Bytes × List Bytes :=
  (v.parser, v.received, v.records, v.delivered)

/-- **What a step of a wire does to the worker and to what was read.** -/
inductive Reads (codec : Codec) (c : Connection) (current : Bool → AuthorizedPeer → Bool)
    (v v' : Wire) : Option Request → Prop
  /-- Nothing. -/
  | still {r : Option Request} (hr : ∀ payload, r ≠ some (.receive payload))
      (hr' : ∀ late fails, r ≠ some (.handle late fails)) (hworker : v'.worker = v.worker)
      (hreceipt : v'.receipt = v.receipt) : Reads codec c current v v' r
  /-- The worker goes on, with the same record at hand. -/
  | goto {r : Option Request} (hr : r = none ∨ r = some .requestDisconnect)
      (hended : v.worker ≠ .ended) (hunread : v'.worker.unread = v.worker.unread)
      (hhand : v'.worker.atHand = v.worker.atHand) (hout : v.worker.isHandling = false)
      (hout' : v'.worker.isHandling = false)
      (hdisconnect : v.worker = .disconnect → r = some .requestDisconnect)
      (hreceipt : v'.receipt = v.receipt) : Reads codec c current v v' r
  /-- The worker ends. -/
  | quits {r : Option Request} (hr : r = none ∨ r = some .requestDisconnect)
      (hout : v.worker.isHandling = false) (hdisconnect : v.worker ≠ .disconnect)
      (hended : v'.worker = .ended) (hreceipt : v'.receipt = v.receipt) :
      Reads codec c current v v' r
  /-- Bytes are received. -/
  | fetches {chunk : Bytes} (hworker : v.worker = .receive) (hopen : v.parser.isOpen = true)
      (hsame : v' = { v with received := v.received ++ chunk, worker := .consume chunk }) :
      Reads codec c current v v' none
  /-- Bytes are received that the parser does not accept, or the stream ends. -/
  | closes {chunk : Bytes} {parser : RecordParser} (hworker : v.worker = .receive)
      (hclosed : parser.isOpen = false)
      (hsame : v' = { v with
        parser := parser, received := v.received ++ chunk, worker := .disconnect }) :
      Reads codec c current v v' none
  /-- The parser makes a pass. -/
  | passes {input rest : Bytes} {parser : RecordParser} (hworker : v.worker = .consume input)
      (hne : input ≠ []) (hpass : v.parser.iterate RecordParser.collect [] input = .next parser [] rest)
      (hsame : v' = { v with parser := parser, worker := .consume rest }) :
      Reads codec c current v v' none
  /-- The parser hands a record on. -/
  | handsOn {input payload rest : Bytes} {parser : RecordParser}
      (hworker : v.worker = .consume input) (hne : input ≠ [])
      (hpass : v.parser.iterate RecordParser.collect [] input = .next parser [payload] rest)
      (hsame : v' = { v with
        parser := parser
        worker := .accept (.record payload rest)
        records := v.records ++ [payload] }) : Reads codec c current v v' none
  /-- The parser refuses the stream. -/
  | fails {input : Bytes} {parser : RecordParser} (hworker : v.worker = .consume input)
      (hclosed : parser.isOpen = false)
      (hsame : v' = { v with parser := parser, worker := .disconnect }) :
      Reads codec c current v v' none
  /-- The session is stopping, and the record is not handled. -/
  | drops {payload rest : Bytes} (hworker : v.worker = .accepted (.record payload rest))
      (hstopping : c.stopping = true)
      (hsame : v' = { v with
        parser := { v.parser with failed := true }, worker := .consume [] }) :
      Reads codec c current v v' none
  /-- The record is handled. -/
  | begins {payload rest : Bytes} (hworker : v.worker = .accepted (.record payload rest))
      (hsame : v' = { v with worker := .handle rest }) :
      Reads codec c current v v' (some (.receive payload))
  /-- `handle_record` goes on. -/
  | handles {h : Handling} {rest : Bytes} {late fails : Bool} (hworker : v.worker = .handle rest)
      (hh : c.handling = some h)
      (hnot : (h.step codec.toHost c late (current fails)).1 ≠ .returns)
      (hworker' : v'.worker = v.worker) (hparser : v'.parser = v.parser)
      (hreceived : v'.received = v.received) (hrecords : v'.records = v.records)
      (hdelivered : v'.delivered = v.delivered
        ++ match (h.step codec.toHost c late (current fails)).1 with
          | .emit event => [event.text]
          | _ => []) :
      Reads codec c current v v' (some (.handle late fails))
  /-- `handle_record` returns. -/
  | returns {h : Handling} {rest : Bytes} {late fails : Bool} (hworker : v.worker = .handle rest)
      (hh : c.handling = some h)
      (hreturns : (h.step codec.toHost c late (current fails)).1 = .returns)
      (hsame : v' = if h.returnValue c then { v with worker := .consume rest }
        else { v with parser := { v.parser with failed := true }, worker := .consume [] }) :
      Reads codec c current v v' (some (.handle late fails))

variable {codec : Codec} {c : Connection} {current : Bool → AuthorizedPeer → Bool} {v v' : Wire}
  {r : Option Request}

theorem reads_work (hstep : v.work c = some (v', r)) : Reads codec c current v v' r := by
  unfold work at hstep
  split at hstep
  · -- `send_preface`
    rename_i hworker
    split at hstep
    · cases hstep
    split at hstep
    · cases hstep
      exact .quits (.inl rfl) (by rw [hworker]; rfl) (by simp [hworker]) rfl rfl
    split at hstep
    · cases hstep
      exact .goto (.inl rfl) (by simp [hworker]) (by rw [hworker]; rfl) (by rw [hworker]; rfl)
        (by rw [hworker]; rfl) rfl (by simp [hworker]) rfl
    · cases hstep
      exact .still (by simp) (by simp) rfl rfl
  · rename_i hworker
    split at hstep <;> cases hstep
    · exact .quits (.inl rfl) (by rw [hworker]; rfl) (by simp [hworker]) rfl rfl
    · exact .goto (.inl rfl) (by simp [hworker]) (by rw [hworker]; rfl) (by rw [hworker]; rfl)
        (by rw [hworker]; rfl) rfl (by simp [hworker]) rfl
  · rename_i hworker
    split at hstep <;> cases hstep <;>
      exact .goto (.inl rfl) (by simp [hworker]) (by rw [hworker]; rfl) (by rw [hworker]; rfl)
        (by rw [hworker]; rfl) rfl (by simp [hworker]) rfl
  · -- a pass of the parser
    rename_i input hne hworker
    split at hstep
    · rename_i parser rest hpass
      cases hstep
      exact .passes hworker hne hpass rfl
    · rename_i parser payload more rest hpass
      cases hstep
      have hone : more = [] := by
        rcases RecordParser.iterate_log _ _ hpass with h | ⟨p, h⟩ <;> cases h
        rfl
      subst hone
      exact .handsOn hworker hne hpass rfl
    · rename_i parser t outcome hpass
      cases hstep
      exact .fails hworker (RecordParser.iterate_collect_exit hpass) rfl
  · rename_i k hworker
    split at hstep <;> cases hstep <;>
      exact .goto (.inl rfl) (by simp [hworker]) (by rw [hworker]; rfl) (by rw [hworker]; rfl)
        (by rw [hworker]; rfl) rfl (by simp [hworker]) rfl
  · -- `send_initial_hello`
    rename_i k hworker
    split at hstep
    · cases hstep
    split at hstep
    · cases hstep
      exact .goto (.inl rfl) (by simp [hworker]) (by rw [hworker]; rfl) (by rw [hworker]; rfl)
        (by rw [hworker]; rfl) rfl (by simp [hworker]) rfl
    · cases hstep
      exact .still (by simp) (by simp) rfl rfl
  · rename_i k hworker
    cases hstep
    exact .goto (.inr rfl) (by simp [hworker]) (by rw [hworker]; rfl) (by rw [hworker]; rfl)
      (by rw [hworker]; rfl) rfl (by simp [hworker]) rfl
  · rename_i hworker
    cases hstep
    exact .goto (.inl rfl) (by simp [hworker]) (by rw [hworker]; rfl) (by rw [hworker]; rfl)
      (by rw [hworker]; rfl) rfl (by simp [hworker]) rfl
  · -- the record is handled, or the session is stopping
    rename_i payload rest hworker
    split at hstep <;> cases hstep
    · rename_i hstopping
      exact .drops hworker hstopping rfl
    · exact .begins hworker rfl
  · rename_i hworker
    cases hstep
    exact .goto (.inr rfl) (by simp [hworker]) (by rw [hworker]; rfl) (by rw [hworker]; rfl)
      (by rw [hworker]; rfl) rfl (fun _ => rfl) rfl
  · cases hstep

theorem reads_greeted {progress : Progress} (hv : v.Prefaced)
    (hcurrent : v.current = some ⟨.hello, progress⟩) (hr : r = none ∨ r = some .requestDisconnect)
    (sent : Bool) (hworker : v'.worker = Worker.greeted sent v.worker)
    (hreceipt : v'.receipt = v.receipt) : Reads codec c current v v' r := by
  obtain ⟨k, hk⟩ := hv.owner _ hcurrent
  rw [hk] at hworker
  cases sent with
  | true =>
    have hworker : v'.worker = .accepted k := hworker
    exact .goto hr (by simp [hk]) (by rw [hk, hworker]; rfl) (by rw [hk, hworker]; rfl)
      (by rw [hk]; rfl) (by rw [hworker]; rfl) (by simp [hk]) hreceipt
  | false =>
    have hworker : v'.worker = .ungreeted k := hworker
    exact .goto hr (by simp [hk]) (by rw [hk, hworker]; rfl) (by rw [hk, hworker]; rfl)
      (by rw [hk]; rfl) (by rw [hworker]; rfl) (by simp [hk]) hreceipt

theorem reads_complete (hv : v.Prefaced) {origin : Origin} {s : Sending} (accepted : Bytes)
    (hcurrent : v.current = some ⟨origin, .sending s⟩)
    (hstep : ({ v with accepted := accepted } : Wire).complete origin s.data = (v', r)) :
    Reads codec c current v v' r := by
  cases origin with
  | preface =>
    cases hstep
    have hworker : v.worker = .preface := hv.owner _ hcurrent
    exact .goto (.inl rfl) (by simp [hworker]) (by rw [hworker]; rfl) (by rw [hworker]; rfl)
      (by rw [hworker]; rfl) rfl (by simp [hworker]) rfl
  | hello =>
    cases hstep
    exact reads_greeted hv hcurrent (.inl rfl) true rfl rfl
  | _ =>
    cases hstep
    exact .still (by simp) (by simp) rfl rfl

theorem reads_abandon (hv : v.Prefaced) {origin : Origin} {s : Sending}
    (hcurrent : v.current = some ⟨origin, .sending s⟩) (hstep : v.abandon origin s = (v', r)) :
    Reads codec c current v v' r := by
  cases origin with
  | preface =>
    cases hstep
    have hworker : v.worker = .preface := hv.owner _ hcurrent
    exact .quits (.inr rfl) (by rw [hworker]; rfl) (by simp [hworker]) rfl rfl
  | hello =>
    cases hstep
    exact reads_greeted hv hcurrent (.inr rfl) false rfl rfl
  | _ =>
    cases hstep
    exact .still (by simp) (by simp) rfl rfl

theorem reads_transmit (hv : v.Prefaced) {stopping late : Bool} {origin : Origin} {s : Sending}
    {answer : SendAnswer} (hcurrent : v.current = some ⟨origin, .sending s⟩)
    (hstep : v.transmit stopping origin s late answer = some (v', r)) :
    Reads codec c current v v' r := by
  have hstill : ∀ {u : Wire}, u.worker = v.worker → u.receipt = v.receipt →
      Reads codec c current v u none := fun h1 h2 => .still (by simp) (by simp) h1 h2
  unfold transmit at hstep
  split at hstep
  · split at hstep
    · exact reads_complete hv v.accepted hcurrent (Option.some.inj hstep)
    · split at hstep <;> cases hstep <;> exact hstill rfl rfl
  · split at hstep
    · split at hstep
      · cases hstep
        exact hstill rfl rfl
      split at hstep
      · cases hstep
      split at hstep
      · exact reads_complete hv _ hcurrent (Option.some.inj hstep)
      · cases hstep
        exact hstill rfl rfl
    · cases hstep
      exact hstill rfl rfl
    · cases hstep
      exact hstill rfl rfl
    · cases hstep
      exact hstill rfl rfl
    · cases hstep
  · split at hstep
    · cases hstep
      exact hstill rfl rfl
    · cases hstep
      exact hstill rfl rfl
    · cases hstep
  · exact reads_abandon hv hcurrent (Option.some.inj hstep)

/-- `send_packet_locked`, up to `send_all`. -/
theorem reads_serialize (hv : v.Prefaced) {origin : Origin}
    (hcurrent : v.current = some ⟨origin, .locked⟩)
    (hstep : v.serialize codec c origin = some (v', r)) : Reads codec c current v v' r := by
  cases serialized hstep with
  | framed => exact .still (by simp) (by simp) rfl rfl
  | dropped => exact .still (by simp) (by simp) rfl rfl
  | ungreeted horigin hresult hworker =>
    subst horigin
    obtain ⟨k, hk⟩ := hv.owner _ hcurrent
    rcases hworker with rfl | rfl
    · exact .quits (.inl rfl) (by rw [hk]; rfl) (by simp [hk]) rfl rfl
    · exact reads_greeted hv hcurrent (.inl rfl) false rfl rfl

theorem reads_receive (hworker : v.worker = .receive) {answer : RecvAnswer}
    (hstep : v.receive answer = some v') : Reads codec c current v v' none := by
  cases answer with
  | data chunk =>
    simp only [receive] at hstep
    split at hstep
    · cases hstep
    split at hstep
    · cases hstep
      have hclosed : ({ v.parser with failed := true } : RecordParser).isOpen = false := rfl
      exact .closes hworker hclosed rfl
    · rename_i hopen
      cases hstep
      refine .fetches hworker ?_ rfl
      simp only [Bool.or_eq_true, not_or, Bool.not_eq_true] at hopen
      unfold RecordParser.isOpen
      rw [hopen.1, hopen.2]
      rfl
  | eof =>
    cases hstep
    have hsame : ({ v with parser := v.parser.finish.1, worker := .disconnect } : Wire)
        = { v with
          parser := v.parser.finish.1, received := v.received ++ [], worker := .disconnect } := by
      rw [List.append_nil]
    exact .closes hworker (RecordParser.isOpen_finish v.parser) hsame
  | _ =>
    cases hstep
    exact .goto (.inl rfl) (by simp [hworker]) (by rw [hworker]; rfl) (by rw [hworker]; rfl)
      (by rw [hworker]; rfl) rfl (by simp [hworker]) rfl

theorem receipt_beginSend (v : Wire) (c : Connection) (origin : Origin) :
    (v.beginSend c origin).receipt = v.receipt ∧ (v.beginSend c origin).worker = v.worker := by
  unfold beginSend
  split <;> exact ⟨rfl, rfl⟩

theorem reads_handle {h : Handling} {rest : Bytes} {late fails : Bool}
    (hworker : v.worker = .handle rest) (hh : c.handling = some h) :
    Reads codec c current v
      (v.handle codec c h rest (h.step codec.toHost c late (current fails)).1)
      (some (.handle late fails)) := by
  cases haction : (h.step codec.toHost c late (current fails)).1 with
  | returns => exact .returns hworker hh haction rfl
  | sendPong =>
    obtain ⟨hreceipt, hsame⟩ := receipt_beginSend v c (.reply (pongPacket codec.myDeviceId))
    simp only [receipt, Prod.mk.injEq] at hreceipt
    refine .handles hworker hh (by simp [haction]) hsame hreceipt.1 hreceipt.2.1 hreceipt.2.2.1 ?_
    rw [haction, List.append_nil]
    exact hreceipt.2.2.2
  | emit event => exact .handles hworker hh (by simp [haction]) rfl rfl rfl rfl (by rw [haction]; rfl)
  | _ =>
    exact .handles hworker hh (by simp [haction]) rfl rfl rfl rfl
      (by rw [haction, List.append_nil]; rfl)

/-- **Every step does one of these.** -/
theorem reads_of_step (hv : v.Prefaced) {e : WireEvent}
    (hstep : v.step codec c current e = some (v', r)) : Reads codec c current v v' r := by
  cases moves hstep with
  | @start spawned hstarted hreleased =>
    have hworker := hv.idle hstarted
    cases spawned with
    | true =>
      exact .goto (.inl rfl) (by simp [hworker]) (by rw [hworker]; rfl) (by rw [hworker]; rfl)
        (by rw [hworker]; rfl) rfl (by simp [hworker]) rfl
    | false => exact .quits (.inl rfl) (by rw [hworker]; rfl) (by simp [hworker]) rfl rfl
  | work hby hsetup hwork => exact reads_work hwork
  | receive hworker hreceive => exact reads_receive hworker hreceive
  | handle hworker hhandling => exact reads_handle hworker hhandling
  | @sendPacket packet hnone =>
    obtain ⟨hreceipt, hworker⟩ := receipt_beginSend v c (.packet packet)
    exact .still (by simp) (by simp) hworker hreceipt
  | validated => exact .still (by simp) (by simp) rfl rfl
  | stale => exact .still (by simp) (by simp) rfl rfl
  | serialize hcurrent hserialize => exact reads_serialize hv hcurrent hserialize
  | transmit hcurrent htransmit => exact reads_transmit hv hcurrent htransmit

end Wire

/-! ## `handle_record` -/

namespace Connection

variable {codec : Codec} {c c' : Connection} {v v' : Wire}

/-- What is known of the record that the worker is at. -/
def Attending (host : Host) (c : Connection) : Prop :=
  ∀ h, c.handling = some h → c.Attends host h

/-- Only `handle_record` and its call concern the record. -/
theorem handling_of_answer {host : Host} {db : Database} {r : Option Request}
    (hr : ∀ payload, r ≠ some (.receive payload)) (hr' : ∀ late fails, r ≠ some (.handle late fails))
    (h : c.answer host db r = some c') : c'.handling = c.handling := by
  match r, h with
  | none, h =>
    cases h
    rfl
  | some .requestDisconnect, h => rw [requestDisconnect_eq h]
  | some (.receive payload), _ => exact absurd rfl (hr payload)
  | some (.handle late fails), _ => exact absurd rfl (hr' late fails)
  | some (.send packet), h =>
    simp only [answer] at h
    split at h
    · cases h
      exact handling_beginSend packet
    · cases h
  | some (.sending fails outcome), h => exact (later_sending h).2

theorem handling_of_receive {host : Host} {db : Database} {payload : Bytes}
    (h : c.answer host db (some (.receive payload)) = some c') :
    c' = { c with handling := some ⟨payload, none, .loadStopping⟩ } := by
  simp only [answer] at h
  split at h
  · cases h
    rfl
  · cases h

theorem Attending.line (hline : Line codec c v c' v') (h : c.Attending codec.toHost) :
    c'.Attending codec.toHost := by
  intro d hd
  cases hline with
  | other hsame => exact (h d (hsame.handling ▸ hd)).later hsame.toLater
  | @wire _ db e r hv hc =>
    have hlater := later_of_answer hc
    have hother : (∀ payload, r ≠ some (.receive payload)) →
        (∀ late fails, r ≠ some (.handle late fails)) → c'.Attends codec.toHost d := by
      intro hr hr'
      rw [handling_of_answer hr hr' hc] at hd
      exact (h d hd).later hlater
    match r, hc with
    | some (.receive payload), hc =>
      obtain rfl := handling_of_receive hc
      cases hd
      exact attends_begun payload
    | some (.handle late fails), hc =>
      obtain ⟨b, hb, hc⟩ := Option.bind_eq_some_iff.mp hc
      exact (h b hb).step hc hd
    | none, _ => exact hother (by simp) (by simp)
    | some .requestDisconnect, _ => exact hother (by simp) (by simp)
    | some (.send packet), _ => exact hother (by simp) (by simp)
    | some (.sending fails outcome), _ => exact hother (by simp) (by simp)

/-- **`handle_record` returns `false` only on a session that is stopping.** -/
theorem Attends.stopping_of_returns {host : Host} {h : Handling} (hh : c.Attends host h) {late : Bool}
    {current : AuthorizedPeer → Bool} (hreturns : (h.step host c late current).1 = .returns)
    (hvalue : h.returnValue c = false) : c.stopping = true := by
  obtain ⟨payload, observed, stage⟩ := h
  have hbranch := Handling.branch host c late current ⟨payload, observed, stage⟩
  cases stage with
  | loadStopping =>
    simp only [Handling.step] at hreturns
    split at hreturns
    · assumption
    · cases hreturns
  | stopped => exact hh.stopped rfl
  | greeted => simpa [Handling.returnValue] using hvalue
  | routed => simpa [Handling.returnValue] using hvalue
  | _ =>
    -- the other stages do not return
    generalize Handling.step host c late current _ = x at hreturns hbranch
    cases hbranch with
    | returns hstage => simp at hstage
    | _ => cases hreturns

end Connection

/-! ## Records and the stream -/

namespace Wire

variable {codec : Codec} {c c' : Connection} {v v' : Wire}

/-- **The records are those of the stream**: a parser that accepts input is
where the stream leaves it, but for what was not read; and one that does not
is not fed again. -/
structure Reading (c : Connection) (v : Wire) : Prop where
  live : v.parser.isOpen = true → v.parser.Live
  caughtUp : v.parser.isOpen = true → v.worker ≠ .ended →
    RecordParser.consume RecordParser.collect (.initial maxRecordSize) [] v.received
      = RecordParser.consume RecordParser.collect v.parser v.records v.worker.unread
  records : v.records <+: RecordParser.recordsOf v.received
  closed : v.parser.isOpen = false →
    v.worker.unread = [] ∧ (c.stopping = true ∨ v.worker = .disconnect)

/-- What a parser that accepts input has handed on is in the stream. -/
theorem records_of_caughtUp {p : RecordParser} (hp : p.Live) {s unread : Bytes}
    {records : List Bytes}
    (h : RecordParser.consume RecordParser.collect (.initial maxRecordSize) [] s
      = RecordParser.consume RecordParser.collect p records unread) :
    records <+: RecordParser.recordsOf s := by
  obtain ⟨q, t, outcome, -, hbehind⟩ := RecordParser.consume_collect hp records unread
  rw [RecordParser.recordsOf_of_consume (h.trans hbehind)]
  exact List.prefix_append _ _

/-- A parser that accepts input, where the worker is now. -/
theorem reading_of_live (hlive : v.parser.Live)
    (hcaughtUp : RecordParser.consume RecordParser.collect (.initial maxRecordSize) [] v.received
      = RecordParser.consume RecordParser.collect v.parser v.records v.worker.unread) : v.Reading c := by
  refine ⟨fun _ => hlive, fun _ _ => hcaughtUp, records_of_caughtUp hlive hcaughtUp,
    fun hclosed => ?_⟩
  rw [RecordParser.isOpen_of_live hlive] at hclosed
  cases hclosed

theorem reading_of_closed (hclosed : v.parser.isOpen = false)
    (hrecords : v.records <+: RecordParser.recordsOf v.received) (hunread : v.worker.unread = [])
    (hstopping : c.stopping = true ∨ v.worker = .disconnect) : v.Reading c := by
  refine ⟨fun hopen => ?_, fun hopen => ?_, hrecords, fun _ => ⟨hunread, hstopping⟩⟩ <;>
  · rw [hclosed] at hopen
    cases hopen

/-- The worker has gone on, and read nothing. -/
theorem Reading.move (h : v.Reading c) (hparser : v'.parser = v.parser)
    (hreceived : v'.received = v.received) (hrecords : v'.records = v.records)
    (hended : v'.worker ≠ .ended → v.worker ≠ .ended)
    (hunread : v'.worker ≠ .ended → v'.worker.unread = v.worker.unread)
    (hlater : c.stopping = true ∨ v.worker = .disconnect →
      c'.stopping = true ∨ v'.worker = .disconnect) : v'.Reading c' := by
  refine ⟨fun hopen => ?_, fun hopen hne => ?_, ?_, fun hclosed => ⟨?_, ?_⟩⟩
  · rw [hparser] at hopen ⊢
    exact h.live hopen
  · rw [hparser] at hopen
    rw [hparser, hreceived, hrecords, hunread hne]
    exact h.caughtUp hopen (hended hne)
  · rw [hrecords, hreceived]
    exact h.records
  · rw [hparser] at hclosed
    by_cases hne : v'.worker = .ended
    · rw [hne]
      rfl
    · rw [hunread hne]
      exact (h.closed hclosed).1
  · rw [hparser] at hclosed
    exact hlater (h.closed hclosed).2

/-- Where the worker receives or passes input to the parser, the parser
accepts it. -/
theorem Reading.isOpen_of_unread (h : v.Reading c) (hunread : v.worker.unread ≠ []) :
    v.parser.isOpen = true := by
  cases hopen : v.parser.isOpen with
  | true => rfl
  | false => exact absurd (h.closed hopen).1 hunread

theorem Reading.pass (h : v.Reading c) {input rest : Bytes} {parser : RecordParser} {t : List Bytes}
    (hworker : v.worker = .consume input) (hne : input ≠ [])
    (hpass : v.parser.iterate RecordParser.collect [] input = .next parser t rest) :
    parser.Live ∧ RecordParser.consume RecordParser.collect (.initial maxRecordSize) [] v.received
      = RecordParser.consume RecordParser.collect parser (v.records ++ t) rest := by
  have hunread : v.worker.unread = input := by
    rw [hworker]
    rfl
  have hopen := h.isOpen_of_unread (by rw [hunread]; exact hne)
  have hlive := h.live hopen
  refine ⟨(hlive.next hne hpass).1, ?_⟩
  rw [h.caughtUp hopen (by simp [hworker]), hunread,
    RecordParser.consume_eq_iterate _ hlive _ hne, RecordParser.iterate_collect, hpass]
  rfl

theorem Reading.fetch (h : v.Reading c) (hworker : v.worker = .receive)
    (hopen : v.parser.isOpen = true) (chunk : Bytes) :
    RecordParser.consume RecordParser.collect (.initial maxRecordSize) [] (v.received ++ chunk)
      = RecordParser.consume RecordParser.collect v.parser v.records chunk := by
  have hlive := h.live hopen
  have hcaughtUp := h.caughtUp hopen (by simp [hworker])
  have hunread : v.worker.unread = [] := by
    rw [hworker]
    rfl
  rw [hunread, hlive.consume_nil] at hcaughtUp
  rw [RecordParser.consume_append _ (RecordParser.live_initial le_rfl), hcaughtUp]

/-- **The records stay those of the stream.** -/
theorem Reading.line (hline : Line codec c v c' v') (hv : v.Prefaced)
    (hattending : c.Attending codec.toHost) (h : v.Reading c) : v'.Reading c' := by
  cases hline with
  | other hsame =>
    exact h.move rfl rfl rfl id (fun _ => rfl) (fun hs => hs.imp_left hsame.toLater.stopping)
  | @wire _ db e r hstep hc =>
    have hlater := (Connection.later_of_answer hc).stopping
    cases reads_of_step hv hstep with
    | still hr hr' hworker hreceipt =>
      simp only [receipt, Prod.mk.injEq] at hreceipt
      refine h.move hreceipt.1 hreceipt.2.1 hreceipt.2.2.1 (by rw [hworker]; exact id)
        (fun _ => by rw [hworker]) (fun hs => ?_)
      rw [hworker]
      exact hs.imp_left hlater
    | goto hr hended hunread hhand hout hout' hdisconnect hreceipt =>
      simp only [receipt, Prod.mk.injEq] at hreceipt
      refine h.move hreceipt.1 hreceipt.2.1 hreceipt.2.2.1 (fun _ => hended) (fun _ => hunread) ?_
      rintro (hs | hs)
      · exact .inl (hlater hs)
      · rw [hdisconnect hs] at hc
        rw [Connection.requestDisconnect_eq hc]
        exact .inl rfl
    | quits hr hout hdisconnect hended hreceipt =>
      simp only [receipt, Prod.mk.injEq] at hreceipt
      refine h.move hreceipt.1 hreceipt.2.1 hreceipt.2.2.1 (fun hne => absurd hended hne)
        (fun hne => absurd hended hne) ?_
      rintro (hs | hs)
      · exact .inl (hlater hs)
      · exact absurd hs hdisconnect
    | fetches hworker hopen hsame =>
      subst hsame
      exact reading_of_live (h.live hopen) (h.fetch hworker hopen _)
    | closes hworker hclosed hsame =>
      subst hsame
      exact reading_of_closed hclosed (h.records.trans (RecordParser.recordsOf_append _ _)) rfl
        (.inr rfl)
    | passes hworker hne hpass hsame =>
      subst hsame
      obtain ⟨hlive, hcaughtUp⟩ := h.pass hworker hne hpass
      rw [List.append_nil] at hcaughtUp
      exact reading_of_live hlive hcaughtUp
    | handsOn hworker hne hpass hsame =>
      subst hsame
      obtain ⟨hlive, hcaughtUp⟩ := h.pass hworker hne hpass
      exact reading_of_live hlive hcaughtUp
    | fails hworker hclosed hsame =>
      subst hsame
      exact reading_of_closed hclosed h.records rfl (.inr rfl)
    | drops hworker hstopping hsame =>
      subst hsame
      exact reading_of_closed rfl h.records rfl (.inl (hlater hstopping))
    | begins hworker hsame =>
      subst hsame
      refine h.move rfl rfl rfl (fun _ => by simp [hworker]) (fun _ => by rw [hworker]; rfl) ?_
      rintro (hs | hs)
      · exact .inl (hlater hs)
      · rw [hworker] at hs
        cases hs
    | handles hworker hh hnot hworker' hparser hreceived hrecords hdelivered =>
      refine h.move hparser hreceived hrecords (by rw [hworker']; exact id)
        (fun _ => by rw [hworker']) (fun hs => ?_)
      rw [hworker']
      exact hs.imp_left hlater
    | @returns d rest late fails hworker hh hreturns hsame =>
      cases hvalue : d.returnValue c with
      | true =>
        rw [hvalue, if_pos rfl] at hsame
        subst hsame
        refine h.move rfl rfl rfl (fun _ => by simp [hworker]) (fun _ => by rw [hworker]; rfl) ?_
        rintro (hs | hs)
        · exact .inl (hlater hs)
        · rw [hworker] at hs
          cases hs
      | false =>
        have hstopping := (hattending d hh).stopping_of_returns hreturns hvalue
        rw [hvalue, if_neg (by simp)] at hsame
        subst hsame
        exact reading_of_closed rfl h.records rfl (.inl (hlater hstopping))

end Wire

end Gasoline
