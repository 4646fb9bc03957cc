import Gasoline.FramingRuns

/-!
# The grammar the parser accepts

A well-formed stream is the preface followed by encoded records no longer
than the limit. Cutting complete records off the front of a stream as long
as that works leaves a tail that is empty, a lone header byte, a header
that announces too much, or a header with too little behind it – and which
of these it is decides what the parser says.

The forward direction is a computation: from a record boundary, a call over
an encoded record delivers it and is back at a boundary
(`AtBoundary.consume_record`). The converse needs no second induction,
since every stream has a cut and the parser is a function.
-/

namespace Gasoline

/-- The length two header bytes announce. -/
def headerLength (hi lo : UInt8) : ℕ := hi.toNat * 256 + lo.toNat

/-- The first length byte of a payload of length `n`. -/
theorem toNat_highByte {n : ℕ} (h : n ≤ maxRecordSize) :
    (UInt8.ofNat ((n >>> 8) &&& 0xff)).toNat = n / 256 := by
  unfold maxRecordSize at h
  rw [show (0xff : ℕ) = 2 ^ 8 - 1 from rfl, Nat.and_two_pow_sub_one_eq_mod,
    Nat.shiftRight_eq_div_pow, UInt8.toNat_ofNat']
  omega

/-- The second length byte of a payload of length `n`. -/
theorem toNat_lowByte (n : ℕ) : (UInt8.ofNat (n &&& 0xff)).toNat = n % 256 := by
  rw [show (0xff : ℕ) = 2 ^ 8 - 1 from rfl, Nat.and_two_pow_sub_one_eq_mod,
    UInt8.toNat_ofNat']
  omega

/-- **The header of an encoded record announces its length.** -/
theorem headerLength_encode {n : ℕ} (h : n ≤ maxRecordSize) :
    headerLength (UInt8.ofNat ((n >>> 8) &&& 0xff)) (UInt8.ofNat (n &&& 0xff)) = n := by
  rw [headerLength, toNat_highByte h, toNat_lowByte]
  omega

/-- Two bytes are determined by the length they announce. -/
theorem headerLength_inj {hi lo hi' lo' : UInt8}
    (h : headerLength hi lo = headerLength hi' lo') : hi = hi' ∧ lo = lo' := by
  unfold headerLength at h
  have h₁ := lo.toNat_lt
  have h₂ := lo'.toNat_lt
  exact ⟨UInt8.toNat_inj.mp (by omega), UInt8.toNat_inj.mp (by omega)⟩

/-- What `encode_record` writes for a payload a header can announce. -/
theorem encodeRecord_eq {r : Bytes} (h : r.length ≤ maxRecordSize) :
    ∃ hi lo, encodeRecord r = .ok (hi :: lo :: r) ∧ headerLength hi lo = r.length := by
  refine ⟨_, _, ?_, headerLength_encode h⟩
  rw [encodeRecord, if_neg (by omega)]

/-- **A cut of a stream**: the preface, complete records within the limit,
and what is left. -/
def Cut (m : ℕ) (s : Bytes) (rs : List Bytes) (tail : Bytes) : Prop :=
  (∀ r ∈ rs, r.length ≤ m)
    ∧ ∃ encoded, rs.mapM encodeRecord = .ok encoded
        ∧ s = prefaceBytes ++ encoded.flatten ++ tail

/-- Some byte of the stream differs from the preface byte at its
position. -/
def DiffersFromPreface (s : Bytes) : Prop :=
  ∃ (i : ℕ) (b c : UInt8), s[i]? = some b ∧ prefaceBytes[i]? = some c ∧ b ≠ c

/-- Two lists differ at a first position, or one continues the other. -/
theorem firstDifference {α : Type} [DecidableEq α] (s t : List α) :
    (∃ xs b c ys zs, b ≠ c ∧ s = xs ++ b :: ys ∧ t = xs ++ c :: zs)
      ∨ (∃ z zs, t = s ++ z :: zs) ∨ ∃ rest, s = t ++ rest := by
  induction s generalizing t with
  | nil =>
    cases t with
    | nil => exact Or.inr (Or.inr ⟨[], rfl⟩)
    | cons z zs => exact Or.inr (Or.inl ⟨z, zs, rfl⟩)
  | cons b s ih =>
    cases t with
    | nil => exact Or.inr (Or.inr ⟨b :: s, rfl⟩)
    | cons c t =>
      by_cases hbc : b = c
      · subst hbc
        obtain ⟨xs, b', c', ys, zs, hne, rfl, rfl⟩ | ⟨z, zs, rfl⟩ | ⟨rest, rfl⟩ := ih t
        · exact Or.inl ⟨b :: xs, b', c', ys, zs, hne, rfl, rfl⟩
        · exact Or.inr (Or.inl ⟨z, zs, rfl⟩)
        · exact Or.inr (Or.inr ⟨rest, rfl⟩)
      · exact Or.inl ⟨[], b, c, s, t, hbc, rfl, rfl⟩

namespace RecordParser

/-- The handler that keeps every record and always asks for more. -/
def collect : RecordHandler (List Bytes) :=
  fun delivered payload => (.returned true, delivered ++ [payload])

namespace StreamResult

variable {σ : Type}

/-- Every chunk was used up and `finish` did not throw. -/
def accepted (r : StreamResult σ) : Prop :=
  r.outcome = .returned true ∧ r.finish = some (.ok ())

/-- The code of the error thrown, by `consume` or by `finish`. -/
def errorCode (r : StreamResult σ) : Option FramingErrorCode :=
  match r.outcome, r.finish with
  | .failed error, _ => some error.code
  | _, some (.error error) => some error.code
  | _, _ => none

end StreamResult

/-! ## The preface -/

/-- Bytes that match the preface move the offset past them. -/
theorem prefaceLoop_match {p : RecordParser} (xs zs ys : Bytes)
    (h : prefaceBytes.drop p.prefaceOffset = xs ++ zs) :
    prefaceLoop p (xs ++ ys)
      = prefaceLoop { p with prefaceOffset := p.prefaceOffset + xs.length } ys := by
  induction xs generalizing p with
  | nil => rfl
  | cons b xs ih =>
    have hget : prefaceBytes[p.prefaceOffset]? = some b := by
      have := congrArg List.head? h
      rwa [List.head?_drop, List.cons_append, List.head?_cons] at this
    have hlt : p.prefaceOffset < prefaceBytes.length :=
      (List.getElem?_eq_some_iff.mp hget).1
    have hdrop : prefaceBytes.drop (p.prefaceOffset + 1) = xs ++ zs := by
      rw [← List.tail_drop, h]
      rfl
    rw [List.cons_append, prefaceLoop, if_pos hlt, if_neg (by simpa using hget)]
    rw [ih (p := { p with prefaceOffset := p.prefaceOffset + 1 }) hdrop, List.length_cons]
    congr 2
    simp only
    omega

/-- A byte that differs from the preface stops the loop. -/
theorem prefaceLoop_mismatch {p : RecordParser} {b c : UInt8} (ys : Bytes)
    (h : prefaceBytes[p.prefaceOffset]? = some c) (hbc : b ≠ c) :
    prefaceLoop p (b :: ys)
      = .error (p.fail .invalidPreface "invalid protocol v2 preface or version") := by
  have hlt : p.prefaceOffset < prefaceBytes.length := (List.getElem?_eq_some_iff.mp h).1
  rw [prefaceLoop, if_pos hlt, if_pos]
  rw [h]
  simpa using hbc.symm

/-- What the first pass does, once it is known what the preface loop
does. -/
theorem iterate_initial {m : ℕ} (log : List Bytes) (s : Bytes) :
    iterate collect (initial m) log s = iteratePreface (initial m) log s := rfl

/-- **A stream that differs from the preface is refused**, and nothing is
delivered. -/
theorem consume_of_differs {m : ℕ} (hm : m ≤ maxRecordSize) (log : List Bytes)
    {xs zs : Bytes} {b c : UInt8} (ys : Bytes) (hbc : b ≠ c)
    (h : prefaceBytes = xs ++ c :: zs) :
    ∃ q, consume collect (initial m) log (xs ++ b :: ys)
      = some (q, log,
          .failed ⟨.invalidPreface, "invalid protocol v2 preface or version"⟩) := by
  have hloop : prefaceLoop (initial m) (xs ++ b :: ys)
      = .error (fail { initial m with prefaceOffset := 0 + xs.length }
          .invalidPreface "invalid protocol v2 preface or version") := by
    rw [prefaceLoop_match (p := initial m) xs (c :: zs) (b :: ys) h]
    refine prefaceLoop_mismatch (c := c) ys ?_ hbc
    rw [h, List.getElem?_append_right (by simp [initial])]
    simp [initial]
  rw [consume_eq_iterate collect (live_initial hm) log (by simp), iterate_initial,
    iteratePreface, hloop]
  exact ⟨_, rfl⟩

/-- **A proper prefix of the preface is used up** and leaves the parser in
the preface phase. -/
theorem consume_of_unfinished {m : ℕ} (hm : m ≤ maxRecordSize) (log : List Bytes)
    {s zs : Bytes} {z : UInt8} (h : prefaceBytes = s ++ z :: zs) :
    consume collect (initial m) log s
      = some ({ initial m with prefaceOffset := s.length }, log, .returned true) := by
  have hlt : s.length < prefaceBytes.length := by
    rw [h, List.length_append, List.length_cons]
    omega
  by_cases hs : s = []
  · subst hs
    exact (live_initial hm).consume_nil collect log
  · have hloop : prefaceLoop (initial m) s
        = .ok ({ initial m with prefaceOffset := s.length }, []) := by
      have := prefaceLoop_match (p := initial m) s (z :: zs) [] h
      rw [List.append_nil, show (initial m).prefaceOffset + s.length = s.length from
        Nat.zero_add _] at this
      exact this
    rw [consume_eq_iterate collect (live_initial hm) log hs, iterate_initial,
      iteratePreface, hloop]
    simp only [hlt.ne, if_false]
    exact Live.consume_nil (p := { initial m with prefaceOffset := s.length }) collect
      ⟨hm, ⟨hlt, rfl, rfl⟩, rfl, rfl⟩ log

/-- The parser at the first record boundary. -/
def afterPreface (m : ℕ) : RecordParser :=
  { initial m with phase := .header, prefaceOffset := prefaceSize }

/-- A call over the preface and more continues from the first record
boundary. -/
theorem consume_preface {m : ℕ} (hm : m ≤ maxRecordSize) (log : List Bytes)
    (rest : Bytes) :
    consume collect (initial m) log (prefaceBytes ++ rest)
      = consume collect (afterPreface m) log rest := by
  have hloop : prefaceLoop (initial m) (prefaceBytes ++ rest)
      = .ok ({ initial m with prefaceOffset := prefaceSize }, rest) := by
    rw [prefaceLoop_match (p := initial m) prefaceBytes [] rest rfl]
    exact prefaceLoop_full rfl rest
  rw [consume_eq_iterate collect (live_initial hm) log (by simp [prefaceBytes]),
    iterate_initial, iteratePreface, hloop]
  rfl

/-! ## Records -/

/-- A live parser at a record boundary, with limit `m`. -/
structure AtBoundary (m : ℕ) (p : RecordParser) : Prop where
  /-- It accepts input. -/
  live : p.Live
  /-- It is in the header phase. -/
  phase : p.phase = .header
  /-- No header byte is stored. -/
  offset : p.headerOffset = 0
  /-- Its limit. -/
  limit : p.maximumRecordSize = m

theorem atBoundary_afterPreface {m : ℕ} (hm : m ≤ maxRecordSize) :
    AtBoundary m (afterPreface m) :=
  ⟨⟨hm, ⟨rfl, Nat.two_pos, rfl⟩, rfl, rfl⟩, rfl, rfl, rfl⟩

theorem headerLoop_two {p : RecordParser} (h : p.headerOffset = 0) (hi lo : UInt8)
    (rest : Bytes) :
    headerLoop p (hi :: lo :: rest)
      = ({ p with header := #v[hi, lo], headerOffset := 2 }, rest) := by
  rw [headerLoop, if_pos (by rw [h]; decide), headerLoop, if_pos (by simp only [h]; decide)]
  rw [headerLoop_full (by simp only [h]; rfl)]
  have hw : (p.header.setIfInBounds 0 hi).setIfInBounds (0 + 1) lo = #v[hi, lo] := by
    ext i hi2
    obtain rfl | rfl : i = 0 ∨ i = 1 := by omega
    · simp
    · simp
  simp only [h, hw]

/-- The length a complete header announces. -/
theorem announced_mk (m : ℕ) (ph : Phase) (po : ℕ) (hi lo : UInt8) (ho size : ℕ)
    (held : Bytes) (failed finished : Bool) :
    announced ⟨m, ph, po, #v[hi, lo], ho, size, held, failed, finished⟩
      = headerLength hi lo := by
  have hlo := lo.toNat_lt
  show (hi.toNat <<< 8) ||| lo.toNat = hi.toNat * 256 + lo.toNat
  rw [← Nat.shiftLeft_add_eq_or_of_lt hlo, Nat.shiftLeft_eq]

/-- A header phase pass over two bytes and more. -/
theorem AtBoundary.iterate_eq {m : ℕ} {p : RecordParser} (hp : AtBoundary m p)
    (log : List Bytes) (hi lo : UInt8) (rest : Bytes) :
    iterate collect p log (hi :: lo :: rest)
      = headerComplete collect { p with header := #v[hi, lo], headerOffset := 2 } log rest := by
  simp only [iterate, hp.phase, iterateHeader, headerLoop_two hp.offset]
  rfl

/-- **A header that announces too much is refused.** -/
theorem AtBoundary.consume_oversized {m : ℕ} {p : RecordParser} (hp : AtBoundary m p)
    (log : List Bytes) {hi lo : UInt8} (rest : Bytes) (h : m < headerLength hi lo) :
    ∃ q, consume collect p log (hi :: lo :: rest)
      = some (q, log,
          .failed ⟨.oversizedRecord, "protocol v2 record exceeds configured limit"⟩) := by
  obtain rfl := hp.limit
  rw [consume_eq_iterate collect hp.live log (by simp), hp.iterate_eq, headerComplete]
  simp only [announced_mk, gt_iff_lt, h, if_true, fail]
  exact ⟨_, rfl⟩

/-- The state of a parser that has read a header and `held` of the payload
behind it. -/
def inPayload (p : RecordParser) (hi lo : UInt8) (held : Bytes) : RecordParser :=
  { p with
    header := #v[hi, lo]
    headerOffset := 0
    expectedPayloadSize := headerLength hi lo
    payload := held
    phase := .payload }

/-- An acceptable header with a payload to come enters the payload
phase. -/
theorem AtBoundary.consume_header {m : ℕ} {p : RecordParser} (hp : AtBoundary m p)
    (log : List Bytes) {hi lo : UInt8} (rest : Bytes) (hle : headerLength hi lo ≤ m)
    (hpos : 0 < headerLength hi lo) :
    consume collect p log (hi :: lo :: rest)
      = consume collect (inPayload p hi lo []) log rest := by
  obtain rfl := hp.limit
  rw [consume_eq_iterate collect hp.live log (by simp), hp.iterate_eq, headerComplete]
  simp only [announced_mk, gt_iff_lt, Nat.not_lt.mpr hle, if_false, hpos.ne']
  rfl

theorem AtBoundary.live_inPayload {m : ℕ} {p : RecordParser} (hp : AtBoundary m p)
    {hi lo : UInt8} (held : Bytes) (hle : headerLength hi lo ≤ m)
    (hlt : held.length < headerLength hi lo) : (inPayload p hi lo held).Live := by
  have hph := hp.live.phase
  simp only [PhaseInv, hp.phase] at hph
  exact ⟨hp.live.limit, ⟨hph.1, rfl, hlt, hle.trans hp.limit.ge⟩, hp.live.notFailed,
    hp.live.notFinished⟩

/-- **Too little behind a header is used up** and leaves the parser in the
payload phase. -/
theorem AtBoundary.consume_short {m : ℕ} {p : RecordParser} (hp : AtBoundary m p)
    (log : List Bytes) {hi lo : UInt8} {body : Bytes} (hle : headerLength hi lo ≤ m)
    (hlt : body.length < headerLength hi lo) :
    consume collect p log (hi :: lo :: body)
      = some (inPayload p hi lo body, log, .returned true) := by
  have hpos : 0 < headerLength hi lo := Nat.zero_lt_of_lt hlt
  rw [hp.consume_header log body hle hpos]
  have hlive := hp.live_inPayload [] hle hpos
  by_cases hb : body = []
  · subst hb
    exact hlive.consume_nil collect log
  · have hmax : headerLength hi lo ≤ maxRecordSize :=
      hle.trans (hp.limit ▸ hp.live.limit)
    have hit : iterate collect (inPayload p hi lo []) log body
        = .next (inPayload p hi lo body) log [] := by
      have hsub : sizeSub (headerLength hi lo) 0 = headerLength hi lo :=
        sizeSub_of_le (Nat.zero_le _) hmax
      simp only [iterate, inPayload, iteratePayload, List.length_nil, List.nil_append, hsub]
      rw [min_eq_right hlt.le, List.take_length, List.drop_length, if_neg hlt.ne]
    rw [consume_eq_iterate collect hlive log hb, hit]
    exact (hp.live_inPayload body hle hlt).consume_nil collect log

/-- **A complete record is delivered**, and the parser is back at a record
boundary. -/
theorem AtBoundary.consume_record {m : ℕ} {p : RecordParser} (hp : AtBoundary m p)
    (log : List Bytes) {hi lo : UInt8} {r : Bytes} (rest : Bytes)
    (hle : headerLength hi lo ≤ m) (hlen : r.length = headerLength hi lo) :
    ∃ q, AtBoundary m q
      ∧ consume collect p log (hi :: lo :: (r ++ rest))
          = consume collect q (log ++ [r]) rest := by
  have hph := hp.live.phase
  simp only [PhaseInv, hp.phase] at hph
  by_cases hpos : headerLength hi lo = 0
  · -- a record of length zero never enters the payload phase
    have hr : r = [] := List.eq_nil_of_length_eq_zero (hlen.trans hpos)
    subst hr
    refine ⟨{ p with
        header := #v[hi, lo]
        headerOffset := 0
        expectedPayloadSize := headerLength hi lo
        payload := [] }, ?_, ?_⟩
    · refine ⟨⟨hp.live.limit, ?_, hp.live.notFailed, hp.live.notFinished⟩, hp.phase, rfl,
        hp.limit⟩
      simp only [PhaseInv, hp.phase]
      exact ⟨hph.1, by decide, trivial⟩
    · rw [consume_eq_iterate collect hp.live log (by simp), hp.iterate_eq, headerComplete]
      simp only [announced_mk, gt_iff_lt, hpos, Nat.not_lt_zero, if_false, if_true]
      rfl
  · have hpos' : 0 < headerLength hi lo := Nat.pos_of_ne_zero hpos
    have hmax : headerLength hi lo ≤ maxRecordSize :=
      hle.trans (hp.limit ▸ hp.live.limit)
    have hlive := hp.live_inPayload [] hle hpos'
    have hne : r ++ rest ≠ [] := by
      intro h
      rw [(List.append_eq_nil_iff.mp h).1] at hlen
      exact hpos hlen.symm
    refine ⟨{ p with
        header := #v[hi, lo]
        headerOffset := 0
        expectedPayloadSize := 0
        payload := []
        phase := .header }, ?_, ?_⟩
    · exact ⟨⟨hp.live.limit, ⟨hph.1, by simp [recordHeaderSize], rfl⟩, hp.live.notFailed,
        hp.live.notFinished⟩, rfl, rfl, hp.limit⟩
    · have hit : iterate collect (inPayload p hi lo []) log (r ++ rest)
          = payloadComplete collect (inPayload p hi lo r) log rest := by
        have hsub : sizeSub (headerLength hi lo) 0 = headerLength hi lo :=
          sizeSub_of_le (Nat.zero_le _) hmax
        have hmin : min (headerLength hi lo) (r ++ rest).length = r.length := by
          rw [List.length_append]
          omega
        simp only [iterate, inPayload, iteratePayload, List.length_nil, List.nil_append, hsub]
        rw [hmin, List.take_left, List.drop_left, if_pos hlen]
      rw [hp.consume_header log (r ++ rest) hle hpos',
        consume_eq_iterate collect hlive log hne, hit]
      rfl

/-- **Encoded records are delivered in order.** -/
theorem AtBoundary.consume_records {m : ℕ} {p : RecordParser} (hp : AtBoundary m p)
    (log : List Bytes) {rs encoded : List Bytes} (tail : Bytes)
    (hrs : ∀ r ∈ rs, r.length ≤ m) (henc : rs.mapM encodeRecord = .ok encoded) :
    ∃ q, AtBoundary m q
      ∧ consume collect p log (encoded.flatten ++ tail)
          = consume collect q (log ++ rs) tail := by
  induction rs generalizing p log encoded with
  | nil =>
    cases henc
    exact ⟨p, hp, by rw [List.append_nil]; rfl⟩
  | cons r rs ih =>
    have hr : r.length ≤ m := hrs r List.mem_cons_self
    have hmax : r.length ≤ maxRecordSize := hr.trans (hp.limit ▸ hp.live.limit)
    obtain ⟨hi, lo, hrec, hlen⟩ := encodeRecord_eq hmax
    rw [List.mapM_cons, hrec] at henc
    cases hrest : rs.mapM encodeRecord with
    | error e =>
      rw [hrest] at henc
      cases henc
    | ok more =>
      rw [hrest] at henc
      cases henc
      obtain ⟨q, hq, hcons⟩ := hp.consume_record log (r := r) (more.flatten ++ tail)
        (hlen.trans_le hr) hlen.symm
      obtain ⟨q', hq', hcons'⟩ := ih hq (log ++ [r])
        (fun x hx => hrs x (List.mem_cons_of_mem r hx)) hrest
      refine ⟨q', hq', ?_⟩
      rw [List.flatten_cons, List.append_assoc, List.cons_append, List.cons_append, hcons,
        hcons', List.append_assoc]
      rfl

/-! ## What is left once no record can be cut off -/

/-- **A tail no record can be cut off**, and the error it stands for: none
if nothing is left. -/
inductive Stuck (m : ℕ) : Bytes → Option FramingErrorCode → Prop
  | complete : Stuck m [] none
  | header (b : UInt8) : Stuck m [b] (some .truncatedHeader)
  | oversized (hi lo : UInt8) (rest : Bytes) (h : m < headerLength hi lo) :
      Stuck m (hi :: lo :: rest) (some .oversizedRecord)
  | payload (hi lo : UInt8) (body : Bytes) (hle : headerLength hi lo ≤ m)
      (h : body.length < headerLength hi lo) :
      Stuck m (hi :: lo :: body) (some .truncatedPayload)

theorem mapM_encodeRecord_cons {m : ℕ} (hm : m ≤ maxRecordSize) {hi lo : UInt8}
    {r : Bytes} {rs encoded : List Bytes} (hle : headerLength hi lo ≤ m)
    (hlen : r.length = headerLength hi lo) (h : rs.mapM encodeRecord = .ok encoded) :
    (r :: rs).mapM encodeRecord = .ok ((hi :: lo :: r) :: encoded) := by
  obtain ⟨hi', lo', hrec, hlen'⟩ := encodeRecord_eq (r := r) (hlen.trans_le (hle.trans hm))
  obtain ⟨rfl, rfl⟩ := headerLength_inj (hlen'.trans hlen)
  rw [List.mapM_cons, hrec, h]
  rfl

/-- **Every byte string is encoded records and a stuck tail.** -/
theorem exists_stuck {m : ℕ} (hm : m ≤ maxRecordSize) (s : Bytes) :
    ∃ (rs encoded : List Bytes) (tail : Bytes) (e : Option FramingErrorCode),
      (∀ r ∈ rs, r.length ≤ m) ∧ rs.mapM encodeRecord = .ok encoded
        ∧ s = encoded.flatten ++ tail ∧ Stuck m tail e := by
  induction hn : s.length using Nat.strong_induction_on generalizing s with
  | _ n ih =>
    match s, hn with
    | [], _ => exact ⟨[], [], [], none, by simp, rfl, rfl, .complete⟩
    | [b], _ => exact ⟨[], [], [b], _, by simp, rfl, rfl, .header b⟩
    | hi :: lo :: body, hn =>
      by_cases hle : headerLength hi lo ≤ m
      · by_cases hlt : body.length < headerLength hi lo
        · exact ⟨[], [], hi :: lo :: body, _, by simp, rfl, rfl, .payload hi lo body hle hlt⟩
        · -- a complete record: cut it off and go on behind it
          obtain ⟨rs, encoded, tail, e, hrs, henc, hs, hst⟩ :=
            ih (body.drop (headerLength hi lo)).length
              (by rw [← hn, List.length_drop, List.length_cons, List.length_cons]; omega)
              (body.drop (headerLength hi lo)) rfl
          have hlen : (body.take (headerLength hi lo)).length = headerLength hi lo := by
            rw [List.length_take]
            omega
          refine ⟨body.take (headerLength hi lo) :: rs, _, tail, e, ?_,
            mapM_encodeRecord_cons hm hle hlen henc, ?_, hst⟩
          · intro r hr
            rcases List.mem_cons.mp hr with rfl | hr
            · exact hlen.trans_le hle
            · exact hrs r hr
          · rw [List.flatten_cons, List.append_assoc, ← hs, List.cons_append,
              List.cons_append, List.take_append_drop]
      · exact ⟨[], [], hi :: lo :: body, _, by simp, rfl, rfl,
          .oversized hi lo body (Nat.lt_of_not_le hle)⟩

/-- What a stuck tail makes of a whole stream. -/
theorem AtBoundary.finish_stuck {m : ℕ} {p : RecordParser} (hp : AtBoundary m p)
    (log : List Bytes) {tail : Bytes} {e : Option FramingErrorCode} (h : Stuck m tail e) :
    ∃ r, feedAndFinish collect p log [tail] = some r ∧ r.state = log
      ∧ r.errorCode = e ∧ (r.accepted ↔ e = none) := by
  unfold feedAndFinish
  rw [feed_eq_consume collect hp.live, List.flatten_singleton]
  cases h with
  | complete =>
    rw [hp.live.consume_nil]
    simp [finish, hp.live.notFailed, hp.live.notFinished, hp.phase, hp.offset,
      StreamResult.errorCode, StreamResult.accepted]
  | header b =>
    have hit : iterate collect p log [b]
        = .next { p with header := p.header.setIfInBounds 0 b, headerOffset := 1 } log [] := by
      simp [iterate, hp.phase, iterateHeader, headerLoop, hp.offset, recordHeaderSize]
    obtain ⟨hlive, -⟩ := hp.live.next (by simp) hit
    rw [consume_eq_iterate collect hp.live log (by simp), hit]
    simp only [hlive.consume_nil]
    simp [finish, hp.live.notFailed, hp.live.notFinished, hp.phase, fail,
      StreamResult.errorCode, StreamResult.accepted]
  | oversized hi lo rest h =>
    obtain ⟨q, hq⟩ := hp.consume_oversized log rest h
    rw [hq]
    simp [StreamResult.errorCode, StreamResult.accepted]
  | payload hi lo body hle h =>
    rw [hp.consume_short log hle h]
    simp [finish, hp.live.notFailed, hp.live.notFinished, inPayload, fail,
      StreamResult.errorCode, StreamResult.accepted]

/-- **What the parser makes of a cut stream**: it delivers the records
before the tail and reports what the tail stands for. -/
theorem feedAndFinish_cut {m : ℕ} (hm : m ≤ maxRecordSize) {s : Bytes} {rs : List Bytes}
    {tail : Bytes} {e : Option FramingErrorCode} (hcut : Cut m s rs tail)
    (h : Stuck m tail e) :
    ∃ r, feedAndFinish collect (initial m) [] [s] = some r ∧ r.state = rs
      ∧ r.errorCode = e ∧ (r.accepted ↔ e = none) := by
  obtain ⟨hrs, encoded, henc, rfl⟩ := hcut
  obtain ⟨q, hq, hcons⟩ := (atBoundary_afterPreface hm).consume_records [] tail hrs henc
  obtain ⟨r, hr, hrest⟩ := hq.finish_stuck rs h
  refine ⟨r, ?_, hrest⟩
  rw [← hr]
  unfold feedAndFinish
  rw [feed_eq_consume collect (live_initial hm), feed_eq_consume collect hq.live,
    List.flatten_singleton, List.flatten_singleton, List.append_assoc, consume_preface hm, hcons]
  rfl

/-- The preface in front of anything is a cut with a stuck tail. -/
theorem exists_cut {m : ℕ} (hm : m ≤ maxRecordSize) (rest : Bytes) :
    ∃ rs tail e, Cut m (prefaceBytes ++ rest) rs tail ∧ Stuck m tail e := by
  obtain ⟨rs, encoded, tail, e, hrs, henc, hs, hst⟩ := exists_stuck hm rest
  exact ⟨rs, tail, e, ⟨hrs, encoded, henc, by rw [hs, List.append_assoc]⟩, hst⟩

/-- **A cut can be carried on** until its tail is stuck. -/
theorem cut_extend {m : ℕ} (hm : m ≤ maxRecordSize) {s : Bytes} {rs : List Bytes}
    {tail : Bytes} (h : Cut m s rs tail) :
    ∃ more tail' e, Cut m s (rs ++ more) tail' ∧ Stuck m tail' e := by
  obtain ⟨hrs, encoded, henc, rfl⟩ := h
  obtain ⟨more, encoded', tail', e, hmore, henc', rfl, hst⟩ := exists_stuck hm tail
  refine ⟨more, tail', e, ⟨?_, encoded ++ encoded', ?_, ?_⟩, hst⟩
  · intro r hr
    exact (List.mem_append.mp hr).elim (hrs r) (hmore r)
  · rw [List.mapM_append, henc, henc']
    rfl
  · simp only [List.flatten_append, List.append_assoc]

theorem cut_starts {m : ℕ} {s : Bytes} {rs : List Bytes} {tail : Bytes}
    (h : Cut m s rs tail) : ∃ rest, s = prefaceBytes ++ rest := by
  obtain ⟨-, encoded, -, rfl⟩ := h
  exact ⟨encoded.flatten ++ tail, List.append_assoc _ _ _⟩

/-- The preface does not differ from itself. -/
theorem not_differsFromPreface_append (rest : Bytes) :
    ¬ DiffersFromPreface (prefaceBytes ++ rest) := by
  rintro ⟨i, b, c, hb, hc, hne⟩
  have hi : i < prefaceBytes.length := (List.getElem?_eq_some_iff.mp hc).1
  rw [List.getElem?_append_left hi, hc] at hb
  exact hne (Option.some.inj hb).symm

theorem not_differsFromPreface_unfinished {s zs : Bytes} {z : UInt8}
    (h : prefaceBytes = s ++ z :: zs) : ¬ DiffersFromPreface s := by
  rintro ⟨i, b, c, hb, hc, hne⟩
  have hi : i < s.length := (List.getElem?_eq_some_iff.mp hb).1
  rw [h, List.getElem?_append_left hi, hb] at hc
  exact hne (Option.some.inj hc)

/-- A proper prefix of the preface does not start with the preface. -/
theorem not_starts_of_unfinished {s zs : Bytes} {z : UInt8} (h : prefaceBytes = s ++ z :: zs) :
    ¬ ∃ rest, s = prefaceBytes ++ rest := by
  rintro ⟨rest, rfl⟩
  have := congrArg List.length h
  simp only [List.length_append, List.length_cons] at this
  omega

/-- What the parser makes of a stream that is not the preface and more: an
error, and nothing delivered. -/
theorem feedAndFinish_preface {m : ℕ} (hm : m ≤ maxRecordSize) (s : Bytes) :
    (∃ rest, s = prefaceBytes ++ rest)
      ∨ ∃ r, feedAndFinish collect (initial m) [] [s] = some r ∧ r.state = []
          ∧ ¬ r.accepted
          ∧ ((DiffersFromPreface s ∧ (¬ ∃ z zs, prefaceBytes = s ++ z :: zs)
                ∧ r.errorCode = some .invalidPreface)
            ∨ (¬ DiffersFromPreface s ∧ (∃ z zs, prefaceBytes = s ++ z :: zs)
                ∧ r.errorCode = some .truncatedPreface)) := by
  unfold feedAndFinish
  rw [feed_eq_consume collect (live_initial hm), List.flatten_singleton]
  obtain ⟨xs, b, c, ys, zs, hbc, hs, hpre⟩ | ⟨z, zs, hpre⟩ | hstart :=
    firstDifference s prefaceBytes
  · right
    obtain ⟨q, hq⟩ := consume_of_differs hm [] ys hbc hpre
    have hdiff : DiffersFromPreface s := by
      refine ⟨xs.length, b, c, ?_, ?_, hbc⟩
      · rw [hs, List.getElem?_append_right le_rfl, Nat.sub_self]
        rfl
      · rw [hpre, List.getElem?_append_right le_rfl, Nat.sub_self]
        rfl
    rw [hs, hq, ← hs]
    refine ⟨_, rfl, rfl, by simp [StreamResult.accepted], Or.inl ⟨hdiff, ?_, rfl⟩⟩
    rintro ⟨z, zs, h⟩
    exact not_differsFromPreface_unfinished h hdiff
  · right
    rw [consume_of_unfinished hm [] hpre]
    refine ⟨_, rfl, rfl, ?_, Or.inr ⟨not_differsFromPreface_unfinished hpre, ⟨z, zs, hpre⟩, ?_⟩⟩
    · simp [StreamResult.accepted, finish, initial, fail]
    · simp [StreamResult.errorCode, finish, initial, fail]
  · exact Or.inl hstart

/-- **What the grammar says of a run over `s`**: which records it must
deliver, when it is accepted, and which error it must end in otherwise. -/
structure Verdict (m : ℕ) (s : Bytes) (r : StreamResult (List Bytes)) : Prop where
  /-- Accepted with the records `rs` is being the preface followed by the
  encodings of `rs`, all within the limit. -/
  accepted_iff : ∀ rs, (r.accepted ∧ r.state = rs) ↔ Cut m s rs []
  /-- A stream of any other form ends in one of five errors. -/
  rejected : (¬ ∃ rs, Cut m s rs []) → r.errorCode ∈ [some .invalidPreface,
    some .oversizedRecord, some .truncatedPreface, some .truncatedHeader,
    some .truncatedPayload]
  /-- Some byte differs from the preface at its position. -/
  invalidPreface_iff : r.errorCode = some .invalidPreface ↔ DiffersFromPreface s
  /-- The first header no record follows announces more than the limit. -/
  oversizedRecord_iff : r.errorCode = some .oversizedRecord ↔
    ∃ rs hi lo rest, Cut m s rs (hi :: lo :: rest) ∧ m < headerLength hi lo
  /-- The stream ends inside the preface. -/
  truncatedPreface_iff : r.errorCode = some .truncatedPreface ↔
    ∃ z zs, prefaceBytes = s ++ z :: zs
  /-- The stream ends inside a header. -/
  truncatedHeader_iff : r.errorCode = some .truncatedHeader ↔ ∃ rs b, Cut m s rs [b]
  /-- The stream ends inside a payload. -/
  truncatedPayload_iff : r.errorCode = some .truncatedPayload ↔
    ∃ rs hi lo body, Cut m s rs (hi :: lo :: body) ∧ headerLength hi lo ≤ m
      ∧ body.length < headerLength hi lo
  /-- Every complete record the stream starts with is delivered. -/
  delivers : ∀ rs tail, Cut m s rs tail → rs <+: r.state
  /-- Nothing else is delivered. -/
  delivers_only : r.state ≠ [] → ∃ tail, Cut m s r.state tail

/-- The verdict on a stream with no cut: it fails before its first
record. -/
theorem verdict_of_not_cut {m : ℕ} {s : Bytes} {r : StreamResult (List Bytes)}
    (hno : ∀ rs tail, ¬ Cut m s rs tail) (hstate : r.state = []) (hacc : ¬ r.accepted)
    (hcode : (DiffersFromPreface s ∧ (¬ ∃ z zs, prefaceBytes = s ++ z :: zs)
          ∧ r.errorCode = some .invalidPreface)
        ∨ (¬ DiffersFromPreface s ∧ (∃ z zs, prefaceBytes = s ++ z :: zs)
          ∧ r.errorCode = some .truncatedPreface)) :
    Verdict m s r where
  accepted_iff rs := ⟨fun h => absurd h.1 hacc, fun h => absurd h (hno _ _)⟩
  rejected _ := by rcases hcode with ⟨-, -, hc⟩ | ⟨-, -, hc⟩ <;> simp [hc]
  invalidPreface_iff := by rcases hcode with ⟨hd, -, hc⟩ | ⟨hd, -, hc⟩ <;> simp [hc, hd]
  oversizedRecord_iff := by rcases hcode with ⟨-, -, hc⟩ | ⟨-, -, hc⟩ <;> simp [hc, hno]
  truncatedPreface_iff := by
    rcases hcode with ⟨-, hp, hc⟩ | ⟨-, hp, hc⟩ <;> rw [hc]
    · exact ⟨fun h => by simp at h, fun h => absurd h hp⟩
    · exact ⟨fun _ => hp, fun _ => rfl⟩
  truncatedHeader_iff := by rcases hcode with ⟨-, -, hc⟩ | ⟨-, -, hc⟩ <;> simp [hc, hno]
  truncatedPayload_iff := by rcases hcode with ⟨-, -, hc⟩ | ⟨-, -, hc⟩ <;> simp [hc, hno]
  delivers rs tail h := absurd h (hno _ _)
  delivers_only h := absurd hstate h

/-- The verdict on a stream with a cut: the error is the one its stuck tail
stands for. -/
theorem verdict_of_cut {m : ℕ} (hm : m ≤ maxRecordSize) {s : Bytes}
    {r : StreamResult (List Bytes)} {tail : Bytes} {e : Option FramingErrorCode}
    (hr : feedAndFinish collect (initial m) [] [s] = some r)
    (hcut : Cut m s r.state tail) (hst : Stuck m tail e) : Verdict m s r := by
  -- every cut with a stuck tail tells what the one run does
  have hrun : ∀ {rs tail e}, Cut m s rs tail → Stuck m tail e →
      r.state = rs ∧ r.errorCode = e ∧ (r.accepted ↔ e = none) := by
    intro rs tail e hcut hst
    obtain ⟨r', hr', h⟩ := feedAndFinish_cut hm hcut hst
    rw [hr] at hr'
    cases hr'
    exact h
  obtain ⟨-, hcode, hacc⟩ := hrun hcut hst
  have hstuck : ∀ {c}, r.errorCode = some c → Stuck m tail (some c) := by
    intro c hc
    rw [← hc, hcode]
    exact hst
  obtain ⟨rest, hrest⟩ := cut_starts hcut
  refine ⟨fun rs => ⟨?_, fun h => ?_⟩, fun hno => ?_, ⟨?_, ?_⟩, ⟨?_, ?_⟩, ⟨?_, ?_⟩, ⟨?_, ?_⟩,
    ⟨?_, ?_⟩, fun rs tail h => ?_, fun _ => ⟨tail, hcut⟩⟩
  · rintro ⟨haccepted, rfl⟩
    rw [hacc.mp haccepted] at hst
    cases hst
    exact hcut
  · obtain ⟨h₁, -, h₃⟩ := hrun h .complete
    exact ⟨h₃.mpr rfl, h₁⟩
  · rw [hcode]
    cases hst with
    | complete => exact absurd ⟨_, hcut⟩ hno
    | header => simp
    | oversized => simp
    | payload => simp
  · intro h
    cases hstuck h
  · intro h
    rw [hrest] at h
    exact absurd h (not_differsFromPreface_append rest)
  · intro h
    cases hstuck h with
    | oversized hi lo rest' h => exact ⟨_, hi, lo, rest', hcut, h⟩
  · rintro ⟨rs, hi, lo, rest', hcut, h⟩
    exact (hrun hcut (.oversized hi lo rest' h)).2.1
  · intro h
    cases hstuck h
  · rintro ⟨z, zs, h⟩
    exact absurd ⟨rest, hrest⟩ (not_starts_of_unfinished h)
  · intro h
    cases hstuck h with
    | header b => exact ⟨_, b, hcut⟩
  · rintro ⟨rs, b, hcut⟩
    exact (hrun hcut (.header b)).2.1
  · intro h
    cases hstuck h with
    | payload hi lo body hle h => exact ⟨_, hi, lo, body, hcut, hle, h⟩
  · rintro ⟨rs, hi, lo, body, hcut, hle, h⟩
    exact (hrun hcut (.payload hi lo body hle h)).2.1
  · obtain ⟨more, tail', e', hcut', hst'⟩ := cut_extend hm h
    rw [(hrun hcut' hst').1]
    exact List.prefix_append rs more

/-- **The parser accepts exactly the grammar and inverts the encoder.** For
every limit, every byte string and every way of cutting it into chunks, the
run ends and is what the grammar says of the bytes. -/
theorem feedAndFinish_grammar {m : ℕ} {p : RecordParser} (hp : create m = .ok p)
    (chunks : List Bytes) :
    ∃ r, feedAndFinish collect p [] chunks = some r ∧ Verdict m chunks.flatten r := by
  obtain ⟨rfl, hm⟩ := create_eq_ok hp
  rw [feedAndFinish_eq collect (live_initial hm)]
  obtain ⟨rest, hstart⟩ | ⟨r, hr, hstate, hacc, hcode⟩ :=
    feedAndFinish_preface hm chunks.flatten
  · obtain ⟨rs, tail, e, hcut, hst⟩ := exists_cut hm rest
    rw [← hstart] at hcut
    obtain ⟨r, hr, rfl, -⟩ := feedAndFinish_cut hm hcut hst
    exact ⟨r, hr, verdict_of_cut hm hr hcut hst⟩
  · refine ⟨r, hr, verdict_of_not_cut (fun rs tail hcut => ?_) hstate hacc hcode⟩
    obtain ⟨rest, hrest⟩ := cut_starts hcut
    rcases hcode with ⟨hd, -, -⟩ | ⟨-, ⟨z, zs, h⟩, -⟩
    · rw [hrest] at hd
      exact not_differsFromPreface_append rest hd
    · exact not_starts_of_unfinished h ⟨rest, hrest⟩

/-- The preface, one record of two bytes and the start of another, in four
chunks: one record is delivered and the stream ends inside a payload. -/
theorem feedAndFinish_grammar_split :
    create 16 = .ok (initial 16)
      ∧ ∃ r, feedAndFinish collect (initial 16) []
          [prefaceBytes.take 3, prefaceBytes.drop 3 ++ [0], [2, 0x68], [0x69, 0, 5, 1]] = some r
        ∧ Verdict 16 (prefaceBytes ++ [0, 2, 0x68, 0x69, 0, 5, 1]) r :=
  ⟨rfl, feedAndFinish_grammar (m := 16) rfl _⟩

end RecordParser

end Gasoline
