import Gasoline.FramingCalls

/-!
# Handlers that throw

A record handler may throw, and `consume` lets the exception through. It
does so in the middle of its work: the phase is already back at the header,
but the delivered payload is still in the buffer, and what is left of the
chunk is known to nobody but the call that is being abandoned. No flag is
set. A caller that goes on with the next chunk therefore starts a record
wherever that chunk happens to start.

`RecordParser.Synchronised` says what a caller would want: the buffer is
released, and whatever arrives later, what is delivered are the records of
the stream in order, with none left out. The main result is that this is
so exactly for the throws on an empty record that ends its chunk – an
empty record never reaches the buffer, and nothing is lost behind it.

The way there compares a handler with `collect`, which keeps everything and
never stops: as long as the handler lets the parser go on, the two runs are
the same, and where it throws, `collect` stands at a record boundary.
-/

namespace Gasoline

namespace RecordParser

variable {σ : Type}

/-- **The records of a stream**: as many as can be cut off behind the
preface. -/
def IsRecords (m : ℕ) (stream : Bytes) (rs : List Bytes) : Prop :=
  ∃ tail e, Cut m stream rs tail ∧ Stuck m tail e

/-- **The parser is where the stream is**, after `received` has been handed
to it and `delivered` has come out of it. -/
structure Synchronised (m : ℕ) (p : RecordParser) (received : Bytes) (delivered : List Bytes) :
    Prop where
  /-- No delivered record is held. -/
  released : p.bufferedPayloadSize = 0
  /-- Whatever arrives later, and whatever the handlers return, what comes
  out are the records of the stream, in order. -/
  inOrder : ∀ (τ : Type) (handler : RecordHandler τ),
    (∀ s payload, (handler s payload).1 ≠ .threw) → ∀ (s : τ) (later : List Bytes),
      ∃ q t results rs, performAll (later.map (.consume handler)) p (s, delivered)
          = some (q, t, results)
        ∧ IsRecords m (received ++ later.flatten) rs ∧ t.2 <+: rs
  /-- Either it accepts nothing any more, or it goes on at the next
  record. -/
  resumes : (p.failed = true ∨ p.finished = true)
    ∨ ∀ later, ∃ q rs outcome, feed collect p delivered later = some (q, rs, outcome)
        ∧ IsRecords m (received ++ later.flatten) rs

/-- **The handler's exception leaves a call.** The earlier calls were given
the chunks `before`, and their caller went on whatever they ended in. -/
def Throws (handler : RecordHandler σ) (p : RecordParser) (s : σ) (before : List Bytes)
    (chunk : Bytes) (q : RecordParser) (t : σ × List Bytes) : Prop :=
  ∃ p' t' results, performAll (before.map (.consume handler)) p (s, []) = some (p', t', results)
    ∧ (Call.consume handler chunk).perform p' t' = some (q, t, .consumed .handlerThrew)

/-! ## Following a handler with `collect` -/

/-- How a pass with some handler compares to the pass with `collect`. -/
inductive Mirrors (log : List Bytes) :
    Iteration (σ × List Bytes) → Iteration (List Bytes) → Prop
  | next (q : RecordParser) (t : σ × List Bytes) (rest : Bytes) :
      Mirrors log (.next q t rest) (.next q t.2 rest)
  | failed (q : RecordParser) (t : σ × List Bytes) (error : FramingError) :
      Mirrors log (.exit q t (.failed error)) (.exit q t.2 (.failed error))
  | stopped (q q₀ : RecordParser) (t : σ × List Bytes) (rest : Bytes) :
      Mirrors log (.exit q t (.returned false)) (.next q₀ t.2 rest)
  /-- The record stays in the buffer. -/
  | threw (q₀ : RecordParser) (t : σ × List Bytes) (r rest : Bytes) (hlog : t.2 = log ++ [r])
      (hphase : q₀.phase = .header) (hoffset : q₀.headerOffset = 0) :
      Mirrors log (.exit { q₀ with payload := r } t .handlerThrew) (.next q₀ t.2 rest)

theorem headerLoop_phase (p : RecordParser) (input : Bytes) :
    (headerLoop p input).1.phase = p.phase := by
  induction input generalizing p with
  | nil => rfl
  | cons b input ih =>
    rw [headerLoop]
    split
    · exact ih _
    · rfl

theorem headerComplete_mirrors (handler : RecordHandler σ) {p : RecordParser}
    (hph : p.phase = .header) (s : σ) (log : List Bytes) (input : Bytes) :
    Mirrors log (headerComplete (logged handler) p (s, log) input)
      (headerComplete collect p log input) := by
  simp only [headerComplete]
  split
  · exact .failed _ (s, log) _
  split
  · cases hverdict : (handler s []).1 with
    | threw =>
      simp only [logged, hverdict]
      exact .threw { p with expectedPayloadSize := p.announced, headerOffset := 0, payload := [] }
        ((handler s []).2, log ++ [[]]) [] input rfl hph rfl
    | returned keepProcessing =>
      cases keepProcessing with
      | true =>
        simp only [logged, hverdict]
        exact .next _ ((handler s []).2, log ++ [[]]) input
      | false =>
        simp only [logged, hverdict]
        exact .stopped _ _ ((handler s []).2, log ++ [[]]) input
  · exact .next _ (s, log) _

theorem payloadComplete_mirrors (handler : RecordHandler σ) {p : RecordParser}
    (hoffset : p.headerOffset = 0) (s : σ) (log : List Bytes) (input : Bytes) :
    Mirrors log (payloadComplete (logged handler) p (s, log) input)
      (payloadComplete collect p log input) := by
  simp only [payloadComplete]
  cases hverdict : (handler s p.payload).1 with
  | threw =>
    simp only [logged, hverdict]
    exact .threw { p with phase := .header, expectedPayloadSize := 0, payload := [] }
      ((handler s p.payload).2, log ++ [p.payload]) p.payload input rfl rfl hoffset
  | returned keepProcessing =>
    cases keepProcessing with
    | true =>
      simp only [logged, hverdict]
      exact .next _ ((handler s p.payload).2, log ++ [p.payload]) input
    | false =>
      simp only [logged, hverdict]
      exact .stopped _ _ ((handler s p.payload).2, log ++ [p.payload]) input

/-- **A pass with a handler follows the pass with `collect`**, up to what
the handler asks for. -/
theorem iterate_mirrors (handler : RecordHandler σ) {p : RecordParser} (hp : p.Live) (s : σ)
    (log : List Bytes) (input : Bytes) :
    Mirrors log (iterate (logged handler) p (s, log) input) (iterate collect p log input) := by
  have hinv := hp.phase
  cases hph : p.phase with
  | preface =>
    simp only [iterate, hph, iteratePreface]
    rcases prefaceLoop p input with ⟨q, error⟩ | ⟨q, rest⟩
    · exact .failed q (s, log) error
    · simp only
      split
      · exact .next _ (s, log) rest
      · exact .next _ (s, log) rest
  | header =>
    have hphase := (headerLoop_phase p input).trans hph
    simp only [iterate, hph, iterateHeader]
    split
    · exact .next _ (s, log) _
    · exact headerComplete_mirrors handler hphase s log _
  | payload =>
    simp only [PhaseInv, hph] at hinv
    simp only [iterate, hph, iteratePayload]
    split
    · refine payloadComplete_mirrors handler ?_ s log _
      exact hinv.2.1
    · exact .next _ (s, log) _

/-- What `collect` holds only grows in a pass. -/
theorem iterate_collect_grows (p : RecordParser) (log : List Bytes) (input : Bytes) :
    (∀ q log' rest, iterate collect p log input = .next q log' rest → log <+: log')
      ∧ ∀ q log' outcome, iterate collect p log input = .exit q log' outcome → log <+: log' := by
  unfold iterate iteratePreface iterateHeader headerComplete iteratePayload payloadComplete collect
  constructor
  · intro q log' rest h
    grind [List.prefix_append]
  · intro q log' outcome h
    grind [List.prefix_append]

theorem consume_collect_grows {p : RecordParser} (hp : p.Live) (log : List Bytes)
    (input : Bytes) :
    ∃ q log' outcome, consume collect p log input = some (q, log', outcome) ∧ log <+: log' := by
  obtain ⟨⟨q, log', outcome⟩, hend, hgrows⟩ := Live.consume_rule
    (P := fun _ log _ last => log <+: last.2.1) (fun _ _ => List.prefix_rfl)
    (fun _ hit => (iterate_collect_grows _ _ _).2 _ _ _ hit)
    (fun _ hit h => ((iterate_collect_grows _ _ _).1 _ _ _ hit).trans h) hp log input
  exact ⟨q, log', outcome, hend, hgrows⟩

/-- **What a handler is called with is what `collect` is called with**, as
far as it gets. -/
theorem consume_logged (handler : RecordHandler σ) {p : RecordParser} (hp : p.Live) {s : σ}
    {log : List Bytes} {input : Bytes} {q : RecordParser} {t : σ × List Bytes}
    {outcome : ConsumeExit} (h : consume (logged handler) p (s, log) input = some (q, t, outcome)) :
    ∃ q' rs outcome', consume collect p log input = some (q', rs, outcome') ∧ t.2 <+: rs
      ∧ (outcome = .returned true → q' = q ∧ rs = t.2 ∧ outcome' = .returned true) := by
  induction hn : input.length using Nat.strong_induction_on generalizing p s log input with
  | _ n ih =>
    by_cases hne : input = []
    · subst hne
      rw [hp.consume_nil] at h
      cases h
      exact ⟨_, log, _, hp.consume_nil collect log, List.prefix_rfl, fun _ => ⟨rfl, rfl, rfl⟩⟩
    · have hmirrors := iterate_mirrors handler hp s log input
      rw [consume_eq_iterate _ hp _ hne] at h
      rw [consume_eq_iterate _ hp _ hne]
      cases hit : iterate (logged handler) p (s, log) input with
      | next q₁ t₁ rest =>
        obtain ⟨hq, hlt⟩ := hp.next hne hit
        rw [hit] at h hmirrors
        generalize iterate collect p log input = it at hmirrors
        cases hmirrors
        exact ih rest.length (by omega) hq h rfl
      | exit q₁ t₁ outcome₁ =>
        have hused := (iterate_exit hit).1
        rw [hit] at h hmirrors
        cases h
        generalize hcollect : iterate collect p log input = it at hmirrors
        cases hmirrors with
        | failed error => exact ⟨q, t.2, _, rfl, List.prefix_rfl, fun h => absurd h hused⟩
        | @stopped _ q₀ _ rest =>
          obtain ⟨hq₀, -⟩ := hp.next hne hcollect
          obtain ⟨q', rs, outcome', hcons, hgrows⟩ := consume_collect_grows hq₀ t.2 rest
          exact ⟨q', rs, outcome', hcons, hgrows, fun h => absurd h hused⟩
        | @threw q₀ _ r rest =>
          obtain ⟨hq₀, -⟩ := hp.next hne hcollect
          obtain ⟨q', rs, outcome', hcons, hgrows⟩ := consume_collect_grows hq₀ t.2 rest
          exact ⟨q', rs, outcome', hcons, hgrows, fun h => absurd h hused⟩

/-! ## Where a throw leaves the parser -/

/-- A call that used its input up leaves the parser live. -/
theorem Live.of_used {handler : RecordHandler σ} {p q : RecordParser} (hp : p.Live) {s t : σ}
    {input : Bytes} (h : consume handler p s input = some (q, t, .returned true)) : q.Live := by
  obtain ⟨q', t', outcome, hq', hlive⟩ := consume_total handler hp s input
  rw [h] at hq'
  cases hq'
  exact hlive rfl

/-- **A throw leaves the parser behind the record it was about.** There,
`collect` stands at a record boundary; the parser differs from that in the
buffer alone. -/
theorem consume_threw (handler : RecordHandler σ) {p : RecordParser} (hp : p.Live) {s : σ}
    {log : List Bytes} {input : Bytes} {q : RecordParser} {t : σ × List Bytes}
    (h : consume (logged handler) p (s, log) input = some (q, t, .handlerThrew)) :
    ∃ read rest q₀ rs r, input = read ++ rest
      ∧ consume collect p log read = some (q₀, rs ++ [r], .returned true) ∧ t.2 = rs ++ [r]
      ∧ q₀.phase = .header ∧ q₀.headerOffset = 0 ∧ q = { q₀ with payload := r } := by
  obtain ⟨read, ⟨rest, rfl⟩, hends, hleast⟩ :=
    exists_stopsAfter (logged handler) (.inl hp) h (by simp)
  have hend := hends []
  rw [List.append_nil] at hend
  rcases List.eq_nil_or_concat read with rfl | ⟨xs, b, rfl⟩
  · rw [hp.consume_nil] at hend
    cases hend
  -- everything before the last byte was used up, so the throw is in the pass over that byte
  rw [List.concat_eq_append] at hend hleast ⊢
  obtain ⟨q₁, t₁, hbefore⟩ := hleast xs (List.prefix_append xs [b]) (by simp)
  obtain ⟨q', rs', outcome', hfollowed, -, hsame⟩ := consume_logged handler hp hbefore
  obtain ⟨hq', hrs', houtcome'⟩ := hsame rfl
  rw [hq', hrs', houtcome'] at hfollowed
  have hq₁ : q₁.Live := hp.of_used hfollowed
  rw [consume_append _ hp, hbefore] at hend
  simp only at hend
  rw [consume_eq_iterate _ hq₁ _ (List.cons_ne_nil b [])] at hend
  have hmirrors := iterate_mirrors handler hq₁ t₁.1 t₁.2 [b]
  cases hit : iterate (logged handler) q₁ t₁ [b] with
  | next q₂ t₂ rest₂ =>
    obtain ⟨hq₂, hlt⟩ := hq₁.next (List.cons_ne_nil b []) hit
    obtain rfl : rest₂ = [] := List.eq_nil_of_length_eq_zero (by simpa using hlt)
    rw [hit] at hend
    simp only [hq₂.consume_nil] at hend
    cases hend
  | exit q₂ t₂ outcome₂ =>
    rw [hit] at hend hmirrors
    cases hend
    generalize hcollect : iterate collect q₁ t₁.2 [b] = it at hmirrors
    cases hmirrors with
    | @threw q₀ _ r rest₂ hlog hphase hoffset =>
      obtain ⟨hq₀, hlt⟩ := hq₁.next (List.cons_ne_nil b []) hcollect
      obtain rfl : rest₂ = [] := List.eq_nil_of_length_eq_zero (by simpa using hlt)
      refine ⟨xs ++ [b], rest, q₀, t₁.2, r, rfl, ?_, hlog, hphase, hoffset, rfl⟩
      rw [consume_append _ hp, hfollowed, ← hlog]
      simp only
      rw [consume_eq_iterate _ hq₁ _ (List.cons_ne_nil b []), hcollect]
      exact hq₀.consume_nil collect t.2

/-! ## Records of a stream -/

/-- What `collect` holds after a whole stream. -/
theorem consume_of_feedAndFinish {handler : RecordHandler σ} {p : RecordParser} (hp : p.Live)
    {s : σ} {stream : Bytes} {r : StreamResult σ}
    (h : feedAndFinish handler p s [stream] = some r) :
    ∃ q outcome, consume handler p s stream = some (q, r.state, outcome) := by
  unfold feedAndFinish at h
  rw [feed_eq_consume handler hp, List.flatten_singleton] at h
  split at h
  · rename_i hconsume
    cases h
    exact ⟨_, _, hconsume⟩
  · rename_i hconsume
    cases h
    exact ⟨_, _, hconsume⟩
  · cases h

/-- **The records of a stream are those `collect` holds behind it.** -/
theorem IsRecords.collected {m : ℕ} (hm : m ≤ maxRecordSize) {stream : Bytes} {rs : List Bytes}
    (h : IsRecords m stream rs) :
    ∃ q outcome, consume collect (initial m) [] stream = some (q, rs, outcome) := by
  obtain ⟨tail, e, hcut, hst⟩ := h
  obtain ⟨r, hr, rfl, -⟩ := feedAndFinish_cut hm hcut hst
  exact consume_of_feedAndFinish (live_initial hm) hr

/-- And `collect` holds the records of every stream behind a preface. -/
theorem isRecords_of_collected {m : ℕ} (hm : m ≤ maxRecordSize) {stream more : Bytes}
    {rs rs' : List Bytes} {tail : Bytes} (hcut : Cut m stream rs tail) {q : RecordParser}
    {outcome : ConsumeExit}
    (h : consume collect (initial m) [] (stream ++ more) = some (q, rs', outcome)) :
    IsRecords m (stream ++ more) rs' := by
  obtain ⟨rest, rfl⟩ := cut_starts hcut
  rw [List.append_assoc] at h ⊢
  obtain ⟨rs₁, tail₁, e₁, hcut₁, hst₁⟩ := exists_cut hm (rest ++ more)
  have hrecords : IsRecords m (prefaceBytes ++ (rest ++ more)) rs₁ := ⟨tail₁, e₁, hcut₁, hst₁⟩
  obtain ⟨q₁, outcome₁, h₁⟩ := hrecords.collected hm
  rw [h] at h₁
  cases h₁
  exact hrecords

/-- The records `bytes` starts with, when it starts with a record: as many
as can be cut off. -/
def StartsWithRecords (m : ℕ) (bytes : Bytes) (rs : List Bytes) : Prop :=
  ∃ encoded tail e, (∀ r ∈ rs, r.length ≤ m) ∧ rs.mapM encodeRecord = .ok encoded
    ∧ bytes = encoded.flatten ++ tail ∧ Stuck m tail e

theorem startsWithRecords_empty (m : ℕ) : StartsWithRecords m [0, 0] [[]] :=
  ⟨[[0, 0]], [], none, by simp, rfl, rfl, .complete⟩

theorem AtBoundary.consume_stuck {m : ℕ} {p : RecordParser} (hp : AtBoundary m p)
    (log : List Bytes) {bytes : Bytes} {rs : List Bytes} (h : StartsWithRecords m bytes rs) :
    ∃ q outcome, consume collect p log bytes = some (q, log ++ rs, outcome) := by
  obtain ⟨encoded, tail, e, hrs, henc, rfl, hst⟩ := h
  obtain ⟨q, hq, hcons⟩ := hp.consume_records log tail hrs henc
  obtain ⟨r, hr, hstate, -⟩ := hq.finish_stuck (log ++ rs) hst
  obtain ⟨q', outcome, hq'⟩ := consume_of_feedAndFinish hq.live hr
  exact ⟨q', outcome, by rw [hcons, hq', hstate]⟩

/-- **At a boundary, the records of the stream are all complete.** -/
theorem atBoundary_of_collected {m : ℕ} (hm : m ≤ maxRecordSize) {stream : Bytes}
    {q : RecordParser} {rs : List Bytes}
    (h : consume collect (initial m) [] stream = some (q, rs, .returned true))
    (hphase : q.phase = .header) (hoffset : q.headerOffset = 0) :
    AtBoundary m q ∧ Cut m stream rs [] := by
  obtain ⟨xs, b, c, ys, zs, hbc, hs, hpre⟩ | ⟨z, zs, hpre⟩ | ⟨rest, rfl⟩ :=
    firstDifference stream prefaceBytes
  · obtain ⟨q', hq'⟩ := consume_of_differs hm [] ys hbc hpre
    rw [hs, hq'] at h
    cases h
  · rw [consume_of_unfinished hm [] hpre] at h
    cases h
    cases hphase
  obtain ⟨rs₁, encoded, tail, e, hrs, henc, rfl, hst⟩ := exists_stuck hm rest
  obtain ⟨q', hq', hcons⟩ := (atBoundary_afterPreface hm).consume_records [] tail hrs henc
  rw [consume_preface hm, hcons, List.nil_append] at h
  -- of the four tails only the empty one leaves the parser at a boundary
  cases hst with
  | complete =>
    rw [hq'.live.consume_nil] at h
    cases h
    exact ⟨hq', hrs, encoded, henc, by rw [List.append_assoc]⟩
  | header b =>
    have hit : iterate collect q' rs₁ [b]
        = .next { q' with header := q'.header.setIfInBounds 0 b, headerOffset := 1 } rs₁ [] := by
      simp [iterate, hq'.phase, iterateHeader, headerLoop, hq'.offset, recordHeaderSize]
    obtain ⟨hlive, -⟩ := hq'.live.next (by simp) hit
    rw [consume_eq_iterate collect hq'.live rs₁ (by simp), hit] at h
    simp only [hlive.consume_nil] at h
    cases h
    cases hoffset
  | oversized hi lo rest hlt =>
    obtain ⟨q'', hq''⟩ := hq'.consume_oversized rs₁ rest hlt
    rw [hq''] at h
    cases h
  | payload hi lo body hle hlt =>
    rw [hq'.consume_short rs₁ hle hlt] at h
    cases h
    cases hphase

/-- **Nothing can be left out at a record boundary.** If what `collect`
holds is the same with and without `rest` in front, whatever follows, then
there is no `rest`. -/
theorem AtBoundary.eq_nil_of_same {m : ℕ} (hm : m ≤ maxRecordSize) {p : RecordParser}
    (hp : AtBoundary m p) (log : List Bytes) {rest : Bytes}
    (h : ∀ more, ∃ q q' outcome outcome' rs, consume collect p log more = some (q, rs, outcome)
      ∧ consume collect p log (rest ++ more) = some (q', rs, outcome')) :
    rest = [] := by
  have hsame : ∀ {more : Bytes} {rs rs' : List Bytes}, StartsWithRecords m more rs →
      StartsWithRecords m (rest ++ more) rs' → rs = rs' := by
    intro more rs rs' hrs hrs'
    obtain ⟨q, q', outcome, outcome', held, hq, hq'⟩ := h more
    obtain ⟨_, _, h₁⟩ := hp.consume_stuck log hrs
    obtain ⟨_, _, h₂⟩ := hp.consume_stuck log hrs'
    rw [hq] at h₁
    rw [hq'] at h₂
    cases h₁
    exact List.append_cancel_left (Prod.mk.inj (Prod.mk.inj (Option.some.inj h₂)).2).1
  have hnothing : StartsWithRecords m [] [] := ⟨[], [], none, by simp, rfl, rfl, .complete⟩
  obtain ⟨rs, encoded, tail, e, hrs, henc, hrest, hst⟩ := exists_stuck hm rest
  -- with nothing behind it, `rest` holds no complete record
  obtain rfl : [] = rs :=
    hsame hnothing ⟨encoded, tail, e, hrs, henc, (List.append_nil _).trans hrest, hst⟩
  cases henc
  obtain rfl : rest = tail := hrest
  -- with an empty record behind it, the first record is empty on both sides
  obtain ⟨rs', encoded', tail', e', hrs', henc', hrest', hst'⟩ := exists_stuck hm (rest ++ [0, 0])
  obtain rfl : [[]] = rs' :=
    hsame (startsWithRecords_empty m) ⟨encoded', tail', e', hrs', henc', hrest', hst'⟩
  cases henc'
  cases hst with
  | complete => rfl
  | header b =>
    obtain rfl : b = 0 := (List.cons.inj hrest').1
    -- one more byte would complete a record on one side only
    have hbyte : StartsWithRecords m [0] [] := ⟨[], [0], _, by simp, rfl, rfl, .header 0⟩
    cases hsame hbyte (startsWithRecords_empty m)
  | oversized hi lo body hlt =>
    obtain rfl : hi = 0 := (List.cons.inj hrest').1
    obtain rfl : lo = 0 := (List.cons.inj (List.cons.inj hrest').2).1
    exact absurd hlt (Nat.not_lt_zero m)
  | payload hi lo body hle hlt =>
    obtain rfl : hi = 0 := (List.cons.inj hrest').1
    obtain rfl : lo = 0 := (List.cons.inj (List.cons.inj hrest').2).1
    exact absurd hlt (Nat.not_lt_zero _)

/-! ## Later calls -/

/-- More input gives `collect` more to hold. -/
theorem consume_collect_append {p : RecordParser} (hp : p.Live) {log rs : List Bytes}
    {xs : Bytes} {q : RecordParser} {outcome : ConsumeExit}
    (h : consume collect p log xs = some (q, rs, outcome)) (ys : Bytes) :
    ∃ q' rs' outcome', consume collect p log (xs ++ ys) = some (q', rs', outcome')
      ∧ rs <+: rs' := by
  by_cases hused : outcome = .returned true
  · subst hused
    rw [consume_append collect hp, h]
    exact consume_collect_grows (hp.of_used h) rs ys
  · exact ⟨q, rs, outcome, consume_append_of_stopped collect hp h hused ys, List.prefix_rfl⟩

/-- **Calls whose handlers return** are called with what `collect` is
called with, as far as they get. -/
theorem performAll_logged {handler : RecordHandler σ}
    (hret : ∀ s payload, (handler s payload).1 ≠ .threw) {p : RecordParser} (hp : p.Live)
    (s : σ) (log : List Bytes) (chunks : List Bytes) :
    ∃ q t results, performAll (chunks.map (.consume handler)) p (s, log) = some (q, t, results)
      ∧ ∃ q' rs outcome, consume collect p log chunks.flatten = some (q', rs, outcome)
        ∧ t.2 <+: rs := by
  induction chunks generalizing p s log with
  | nil => exact ⟨p, (s, log), [], rfl, p, log, _, hp.consume_nil collect log, List.prefix_rfl⟩
  | cons chunk chunks ih =>
    obtain ⟨q, t, outcome, hq, houtcome⟩ := consume_of_returns (logged handler)
      (fun s payload => hret s.1 payload) hp (s, log) chunk
    have hcall : (Call.consume handler chunk).perform p (s, log)
        = some (q, t, .consumed outcome) := by
      rw [Call.perform, hq]
      rfl
    obtain ⟨q', rs, outcome', hfollowed, hrs, hsame⟩ := consume_logged handler hp hq
    rcases houtcome with ⟨hused, hlive⟩ | ⟨-, hfailed⟩
    · -- the chunk is used up: so is it by `collect`
      obtain ⟨q₁, t₁, results, hrest, hcollect⟩ := ih hlive t.1 t.2
      obtain ⟨hq', hrs', houtcome'⟩ := hsame hused
      refine ⟨q₁, t₁, .consumed outcome :: results, ?_, ?_⟩
      · rw [List.map_cons, performAll, hcall, Option.bind_some]
        show (performAll _ q t).map _ = _
        rw [hrest]
        rfl
      · rw [hq', hrs', houtcome'] at hfollowed
        rw [List.flatten_cons, consume_append collect hp, hfollowed]
        exact hcollect
    · -- the parser has failed: nothing is called any more
      obtain ⟨q₁, results, hrest, -⟩ := refuses_of_failed hfailed t (chunks.map (.consume handler))
      refine ⟨q₁, t, .consumed outcome :: results, ?_, ?_⟩
      · rw [List.map_cons, performAll, hcall, Option.bind_some]
        show (performAll _ q t).map _ = _
        rw [hrest]
        rfl
      · obtain ⟨q₂, rs₂, outcome₂, hall, hgrows⟩ :=
          consume_collect_append hp hfollowed chunks.flatten
        exact ⟨q₂, rs₂, outcome₂, hall, hrs.trans hgrows⟩

/-- **A parser that follows the stream is synchronised with it** at every
record boundary. -/
theorem synchronised_of_collected {m : ℕ} (hm : m ≤ maxRecordSize) {received : Bytes}
    {p : RecordParser} {delivered : List Bytes}
    (h : consume collect (initial m) [] received = some (p, delivered, .returned true))
    (hp : AtBoundary m p) (hcut : Cut m received delivered []) :
    Synchronised m p received delivered := by
  have hinv := hp.live.phase
  simp only [PhaseInv, hp.phase] at hinv
  have hwhole : ∀ more, consume collect (initial m) [] (received ++ more)
      = consume collect p delivered more := by
    intro more
    rw [consume_append collect (live_initial hm), h]
  refine ⟨?_, fun τ handler hret s later => ?_, .inr fun later => ?_⟩
  · rw [bufferedPayloadSize, hinv.2.2]
    rfl
  · obtain ⟨q, t, results, hcalls, q', rs, outcome, hcollect, hrs⟩ :=
      performAll_logged hret hp.live s delivered later
    refine ⟨q, t, results, rs, hcalls, ?_, hrs⟩
    exact isRecords_of_collected hm hcut ((hwhole _).trans hcollect)
  · obtain ⟨q, rs, outcome, hcollect, -⟩ := consume_total collect hp.live delivered later.flatten
    refine ⟨q, rs, outcome, ?_, ?_⟩
    · rw [feed_eq_consume collect hp.live, hcollect]
    · exact isRecords_of_collected hm hcut ((hwhole _).trans hcollect)

/-! ## Throws -/

/-- **What a throw leaves behind**, in a run that has followed the stream so
far. -/
theorem threw_spec {m : ℕ} (hm : m ≤ maxRecordSize) {handler : RecordHandler σ}
    {received chunk : Bytes} {p q : RecordParser} {t t' : σ × List Bytes}
    (h : consume collect (initial m) [] received = some (p, t.2, .returned true))
    (hthrow : (Call.consume handler chunk).perform p t = some (q, t', .consumed .handlerThrew)) :
    ∃ read rest q₀ rs r, received ++ chunk = read ++ rest
      ∧ consume collect (initial m) [] read = some (q₀, rs ++ [r], .returned true)
      ∧ AtBoundary m q₀ ∧ Cut m read (rs ++ [r]) [] ∧ t'.2 = rs ++ [r]
      ∧ q = { q₀ with payload := r } := by
  obtain ⟨⟨q₁, t₁, outcome⟩, hconsume, heq⟩ := Option.map_eq_some_iff.mp hthrow
  cases heq
  obtain ⟨read, rest, q₀, rs, r, rfl, hcollect, hlog, hphase, hoffset, hq⟩ :=
    consume_threw handler ((live_initial hm).of_used h) hconsume
  have hread : consume collect (initial m) [] (received ++ read)
      = some (q₀, rs ++ [r], .returned true) := by
    rw [consume_append collect (live_initial hm), h]
    exact hcollect
  obtain ⟨hboundary, hcut⟩ := atBoundary_of_collected hm hread hphase hoffset
  exact ⟨received ++ read, rest, q₀, rs, r, (List.append_assoc _ _ _).symm, hread, hboundary, hcut,
    hlog, hq⟩

/-- A throw is harmless if the record it is about is empty and nothing has
been received behind it. -/
def HarmlessThrow (m : ℕ) (received : Bytes) (delivered : List Bytes) : Prop :=
  delivered.getLast? = some [] ∧ Cut m received delivered []

theorem cut_tail_eq {m : ℕ} {s rest : Bytes} {rs : List Bytes} (h : Cut m s rs [])
    (h' : Cut m (s ++ rest) rs []) : rest = [] := by
  obtain ⟨-, encoded, henc, rfl⟩ := h
  obtain ⟨-, encoded', henc', heq⟩ := h'
  rw [henc] at henc'
  cases henc'
  simpa using heq

/-- **A parser is synchronised behind a throw exactly if the throw is
harmless.** -/
theorem synchronised_iff_harmless {m : ℕ} (hm : m ≤ maxRecordSize) {handler : RecordHandler σ}
    {received chunk : Bytes} {p q : RecordParser} {t t' : σ × List Bytes}
    (h : consume collect (initial m) [] received = some (p, t.2, .returned true))
    (hthrow : (Call.consume handler chunk).perform p t = some (q, t', .consumed .handlerThrew)) :
    Synchronised m q (received ++ chunk) t'.2 ↔ HarmlessThrow m (received ++ chunk) t'.2 := by
  obtain ⟨read, rest, q₀, rs, r, hstream, hread, hboundary, hcut, hlog, rfl⟩ :=
    threw_spec hm h hthrow
  have hinv := hboundary.live.phase
  simp only [PhaseInv, hboundary.phase] at hinv
  have hclean : { q₀ with payload := [] } = q₀ := by rw [← hinv.2.2]
  rw [hstream, hlog]
  constructor
  · rintro ⟨hreleased, -, hresumes⟩
    obtain rfl : r = [] := List.eq_nil_of_length_eq_zero hreleased
    rw [hclean] at hresumes
    have hnext := hresumes.resolve_left (fun hdone => by
      simp [hboundary.live.notFailed, hboundary.live.notFinished] at hdone)
    obtain rfl : rest = [] := by
      refine hboundary.eq_nil_of_same hm (rs ++ [[]]) (fun more => ?_)
      obtain ⟨q', held, outcome, hfeed, hrecords⟩ := hnext [more]
      rw [feed_eq_consume collect hboundary.live, List.flatten_singleton] at hfeed
      rw [List.flatten_singleton, List.append_assoc] at hrecords
      obtain ⟨q'', outcome', hwhole⟩ := hrecords.collected hm
      rw [consume_append collect (live_initial hm), hread] at hwhole
      exact ⟨q', q'', outcome, outcome', held, hfeed, hwhole⟩
    rw [List.append_nil]
    exact ⟨List.getLast?_concat, hcut⟩
  · rintro ⟨hempty, hwhole⟩
    obtain rfl : r = [] := Option.some.inj (List.getLast?_concat.symm.trans hempty)
    obtain rfl : rest = [] := cut_tail_eq hcut hwhole
    rw [hclean, List.append_nil]
    exact synchronised_of_collected hm hread hboundary hcut

/-! ## Whole runs -/

theorem performAll_concat {cs : List (Call σ)} {c : Call σ} {p q : RecordParser}
    {s t : σ × List Bytes} {results : List CallResult}
    (h : performAll (cs ++ [c]) p s = some (q, t, results)) :
    ∃ p' t' results' r, performAll cs p s = some (p', t', results')
      ∧ c.perform p' t' = some (q, t, r) := by
  induction cs generalizing p s results with
  | nil =>
    obtain ⟨⟨q', t', r⟩, hcall, hrest⟩ := Option.bind_eq_some_iff.mp h
    cases hrest
    exact ⟨p, s, [], r, rfl, hcall⟩
  | cons d cs ih =>
    obtain ⟨⟨p₁, t₁, r₁⟩, hcall, hrest⟩ := Option.bind_eq_some_iff.mp h
    obtain ⟨⟨q', t', results'⟩, htail, heq⟩ := Option.map_eq_some_iff.mp hrest
    cases heq
    obtain ⟨p', t', results'', r, hbefore, hlast⟩ := ih htail
    refine ⟨p', t', r₁ :: results'', r, ?_, hlast⟩
    rw [performAll, hcall, Option.bind_some]
    show (performAll cs p₁ t₁).map _ = _
    rw [hbefore]
    rfl

/-- **As long as throws are harmless, the run follows the stream** – until
the parser fails. -/
theorem followed_of_harmless {m : ℕ} (hm : m ≤ maxRecordSize) {handler : RecordHandler σ} {s : σ}
    {chunks : List Bytes}
    (hharmless : ∀ before chunk q t, before ++ [chunk] <+: chunks →
      Throws handler (initial m) s before chunk q t →
      HarmlessThrow m (before ++ [chunk]).flatten t.2)
    {q : RecordParser} {t : σ × List Bytes} {results : List CallResult}
    (h : performAll (chunks.map (.consume handler)) (initial m) (s, []) = some (q, t, results)) :
    q.failed = true
      ∨ consume collect (initial m) [] chunks.flatten = some (q, t.2, .returned true) := by
  induction chunks using List.reverseRecOn generalizing q t results with
  | nil =>
    cases h
    exact .inr ((live_initial hm).consume_nil collect [])
  | append_singleton before chunk ih =>
    rw [List.map_append, List.map_singleton] at h
    obtain ⟨p', t', results', r, hbefore, hlast⟩ := performAll_concat h
    have hprevious :=
      ih (fun b c q t hpart => hharmless b c q t (hpart.trans (List.prefix_append _ _)))
      hbefore
    rcases hprevious with hfailed | hfollowed
    · obtain ⟨r', hr', -⟩ := perform_of_failed (.consume handler chunk) hfailed t'
      rw [hlast] at hr'
      cases hr'
      exact .inl hfailed
    have hwhole : ∀ more, consume collect (initial m) [] (before.flatten ++ more)
        = consume collect p' t'.2 more := by
      intro more
      rw [consume_append collect (live_initial hm), hfollowed]
    rw [List.flatten_append, List.flatten_singleton]
    obtain ⟨⟨q₁, t₁, outcome⟩, hconsume, heq⟩ := Option.map_eq_some_iff.mp hlast
    cases heq
    have hlive : p'.Live := (live_initial hm).of_used hfollowed
    obtain ⟨q₂, t₂, outcome₂, hq₂, hends⟩ := consume_spec (logged handler) hlive t' chunk
    rw [hconsume] at hq₂
    cases hq₂
    obtain ⟨rfl, -⟩ | ⟨rfl, -⟩ | ⟨-, -, hfailed⟩ := hends
    · -- the chunk is used up
      obtain ⟨q', rs, outcome', hcollect, -, hsame⟩ := consume_logged handler hlive hconsume
      obtain ⟨hq', hrs, houtcome'⟩ := hsame rfl
      rw [hq', hrs, houtcome'] at hcollect
      exact .inr ((hwhole chunk).trans hcollect)
    · -- the handler threw: nothing is held, and nothing was left
      obtain ⟨hempty, hcut⟩ := hharmless before chunk q t List.prefix_rfl
        ⟨p', t', results', hbefore, hlast⟩
      rw [List.flatten_append, List.flatten_singleton] at hcut
      obtain ⟨read, rest, q₀, rs, r, hstream, hread, hboundary, hcut₀, hlog, rfl⟩ :=
        threw_spec hm hfollowed hlast
      have hinv := hboundary.live.phase
      simp only [PhaseInv, hboundary.phase] at hinv
      rw [hlog] at hempty hcut ⊢
      obtain rfl : r = [] := Option.some.inj (List.getLast?_concat.symm.trans hempty)
      rw [hstream] at hcut ⊢
      obtain rfl : rest = [] := cut_tail_eq hcut₀ hcut
      have hclean : { q₀ with payload := [] } = q₀ := by rw [← hinv.2.2]
      rw [List.append_nil, hclean]
      exact .inr hread
    · exact .inl hfailed

/-- **When a throwing handler leaves the stream intact.** Take any limit,
any handler and any chunks, with a caller that goes on with the next chunk
whatever a call ended in. The parser is synchronised with the stream behind
every throw exactly if every throw is harmless: the record the handler
threw on is empty, and nothing of its chunk is behind it. -/
theorem throws_synchronised_iff {m : ℕ} {p : RecordParser} (hp : create m = .ok p)
    (handler : RecordHandler σ) (s : σ) (chunks : List Bytes) :
    (∀ before chunk q t, before ++ [chunk] <+: chunks → Throws handler p s before chunk q t →
        Synchronised m q (before ++ [chunk]).flatten t.2)
      ↔ ∀ before chunk q t, before ++ [chunk] <+: chunks → Throws handler p s before chunk q t →
        HarmlessThrow m (before ++ [chunk]).flatten t.2 := by
  obtain ⟨rfl, hm⟩ := create_eq_ok hp
  -- behind harmless throws, one more throw is judged alike by both sides
  have hone : ∀ before chunk q t, Throws handler (initial m) s before chunk q t →
      (∀ b c q t, b ++ [c] <+: before → Throws handler (initial m) s b c q t →
        HarmlessThrow m (b ++ [c]).flatten t.2) →
      (Synchronised m q (before ++ [chunk]).flatten t.2
        ↔ HarmlessThrow m (before ++ [chunk]).flatten t.2) := by
    rintro before chunk q t ⟨p', t', results, hbefore, hthrow⟩ hharmless
    rcases followed_of_harmless hm hharmless hbefore with hfailed | hfollowed
    · obtain ⟨r, hr, hcode⟩ := perform_of_failed (.consume handler chunk) hfailed t'
      rw [hthrow] at hr
      cases hr
      cases hcode
    · rw [List.flatten_append, List.flatten_singleton]
      exact synchronised_iff_harmless hm hfollowed hthrow
  constructor
  · intro hsync before
    induction hn : before.length using Nat.strong_induction_on generalizing before with
    | _ n ih =>
      intro chunk q t hpart hthrow
      refine (hone before chunk q t hthrow (fun b c q t hb hc => ?_)).mp
        (hsync before chunk q t hpart hthrow)
      have hlt : b.length < n := by
        have := hb.length_le
        rw [List.length_append, List.length_singleton] at this
        omega
      exact ih b.length hlt b rfl c q t (hb.trans ((List.prefix_append _ _).trans hpart)) hc
  · intro hharmless before chunk q t hpart hthrow
    refine (hone before chunk q t hthrow (fun b c q t hb hc => ?_)).mpr
      (hharmless before chunk q t hpart hthrow)
    exact hharmless b c q t (hb.trans ((List.prefix_append _ _).trans hpart)) hc

/-- A handler that throws on the first record it sees. -/
def throwOnFirst : RecordHandler ℕ := fun n _ => (if n = 0 then .threw else .returned true, n + 1)

/-- An empty record that ends its chunk: the throw is harmless. -/
theorem throws_synchronised_iff_empty :
    ∃ q t, Throws throwOnFirst (initial 16) 0 [] (prefaceBytes ++ [0, 0]) q t
      ∧ Synchronised 16 q (prefaceBytes ++ [0, 0]) t.2 := by
  have hthrow : Throws throwOnFirst (initial 16) 0 [] (prefaceBytes ++ [0, 0])
      (afterPreface 16) (1, [[]]) := ⟨initial 16, (0, []), [], rfl, rfl⟩
  refine ⟨_, _, hthrow, (throws_synchronised_iff (m := 16) rfl throwOnFirst 0
    [prefaceBytes ++ [0, 0]]).mpr ?_ [] _ _ _ List.prefix_rfl hthrow⟩
  rintro before chunk q t hpart ⟨p', t', results, hbefore, hcall⟩
  have hlen := hpart.length_le
  obtain rfl : before = [] := List.eq_nil_of_length_eq_zero (by simpa using hlen)
  obtain rfl : chunk = prefaceBytes ++ [0, 0] := (List.cons_prefix_cons.mp hpart).1
  cases hbefore
  have hend : some ((1 : ℕ), [([] : Bytes)]) = some t :=
    congrArg (Option.map (fun x : RecordParser × (ℕ × List Bytes) × CallResult => x.2.1)) hcall
  cases hend
  exact ⟨rfl, by simp, [[0, 0]], rfl, rfl⟩

/-- A record, and the header of the next in the same chunk. -/
def splitChunk : Bytes := prefaceBytes ++ [0, 1, 5, 0, 2]

/-- **A throw loses the header behind its record**: the buffer keeps the
delivered byte, and the payload of the next record is read as a record of
its own. -/
theorem throw_desynchronises :
    (∃ q t, Throws throwOnFirst (initial 16) 0 [] splitChunk q t ∧ q.bufferedPayloadSize = 1
      ∧ (∃ q' t' results, performAll [.consume throwOnFirst [0, 1, 9]] q t
          = some (q', t', results) ∧ t'.2 = [[5], [9]])
      ∧ IsRecords 16 (splitChunk ++ [0, 1, 9]) [[5], [0, 1]])
    ∧ ¬ ∀ before chunk q t, before ++ [chunk] <+: [splitChunk, [0, 1, 9]] →
        Throws throwOnFirst (initial 16) 0 before chunk q t →
        Synchronised 16 q (before ++ [chunk]).flatten t.2 := by
  have hthrow : Throws throwOnFirst (initial 16) 0 [] splitChunk
      { afterPreface 16 with header := #v[0, 1], payload := [5] } (1, [[5]]) :=
    ⟨initial 16, (0, []), [], rfl, rfl⟩
  refine ⟨⟨_, _, hthrow, rfl, ⟨_, _, _, rfl, rfl⟩, [9], _, ?_, .header 9⟩, fun hsync => ?_⟩
  · exact ⟨by simp, [[0, 1, 5], [0, 2, 0, 1]], rfl, rfl⟩
  · have h := (hsync [] splitChunk _ _ (List.prefix_append [splitChunk] _) hthrow).released
    cases h

end RecordParser

end Gasoline
