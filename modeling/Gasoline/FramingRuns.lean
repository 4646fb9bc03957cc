import Gasoline.Framing

/-!
# Fragmentation does not matter

`RecordParser.Live` is what holds of a parser between two passes of its
outer loop, as long as it accepts input. From such a parser every pass
eats a byte (`RecordParser.Live.next`), so the fuel of the model is enough
and the loop can be unfolded one pass at a time. A pass over `xs ++ ys`
either does what the pass over `xs` did, or picks up exactly where that
pass ran out of input (`RecordParser.iterate_append`); hence a call over
`xs ++ ys` is a call over `xs` followed by one over `ys`, and what a whole
stream does depends on its bytes alone.
-/

namespace Gasoline

namespace RecordParser

variable {σ : Type}

/-- What the fields are in each phase, between two passes. -/
def PhaseInv (p : RecordParser) : Prop :=
  match p.phase with
  | .preface => p.prefaceOffset < prefaceSize ∧ p.headerOffset = 0 ∧ p.payload = []
  | .header => p.prefaceOffset = prefaceSize ∧ p.headerOffset < recordHeaderSize
      ∧ p.payload = []
  | .payload => p.prefaceOffset = prefaceSize ∧ p.headerOffset = 0
      ∧ p.payload.length < p.expectedPayloadSize
      ∧ p.expectedPayloadSize ≤ p.maximumRecordSize

/-- **A parser that accepts input**, between two passes. -/
structure Live (p : RecordParser) : Prop where
  /-- The limit is one a header can announce. -/
  limit : p.maximumRecordSize ≤ maxRecordSize
  /-- The fields are those of the phase. -/
  phase : p.PhaseInv
  /-- It has not failed. -/
  notFailed : p.failed = false
  /-- It has not been finished. -/
  notFinished : p.finished = false

theorem live_initial {m : ℕ} (hm : m ≤ maxRecordSize) : (initial m).Live :=
  ⟨hm, ⟨Nat.succ_pos 9, rfl, rfl⟩, rfl, rfl⟩

/-- The constructor builds a new parser, for a limit a header can
announce. -/
theorem create_eq_ok {m : ℕ} {p : RecordParser} (h : create m = .ok p) :
    p = initial m ∧ m ≤ maxRecordSize := by
  unfold create at h
  split at h
  · cases h
  · cases h
    exact ⟨rfl, by omega⟩

/-- `size_t` subtraction is subtraction where it does not wrap. -/
theorem sizeSub_of_le {a b : ℕ} (h : b ≤ a) (ha : a ≤ maxRecordSize) :
    sizeSub a b = a - b := by
  have hlt : a < 2 ^ 64 := lt_of_le_of_lt ha (by decide)
  unfold sizeSub
  rw [show a + 2 ^ 64 - b = (a - b) + 2 ^ 64 from by omega, Nat.add_mod_right,
    Nat.mod_eq_of_lt (by omega)]

/-! ## The inner loops -/

/-- Going on with `ys` after `xs` is one run of the preface loop. -/
theorem prefaceLoop_append (p : RecordParser) (xs ys : Bytes) :
    prefaceLoop p (xs ++ ys)
      = match prefaceLoop p xs with
        | .error e => .error e
        | .ok (q, rest) => prefaceLoop q (rest ++ ys) := by
  induction xs generalizing p with
  | nil => rfl
  | cons b xs ih =>
    rw [List.cons_append, prefaceLoop, prefaceLoop]
    by_cases hlt : p.prefaceOffset < prefaceBytes.length
    · rw [if_pos hlt, if_pos hlt]
      by_cases hb : prefaceBytes[p.prefaceOffset]? ≠ some b
      · rw [if_pos hb, if_pos hb]
      · rw [if_neg hb, if_neg hb]
        exact ih _
    · rw [if_neg hlt, if_neg hlt]
      show _ = prefaceLoop p (b :: (xs ++ ys))
      rw [prefaceLoop, if_neg hlt]

/-- What the preface loop leaves: it read from the front, only the offset
moved, and input is left over only once the preface is complete. -/
theorem prefaceLoop_ok {p q : RecordParser} {input rest : Bytes}
    (h : prefaceLoop p input = .ok (q, rest)) (hp : p.prefaceOffset ≤ prefaceSize) :
    ∃ k read, q = { p with prefaceOffset := k } ∧ input = read ++ rest
      ∧ k = p.prefaceOffset + read.length
      ∧ k ≤ prefaceSize ∧ (k < prefaceSize → rest = []) := by
  induction input generalizing p with
  | nil =>
    cases h
    exact ⟨_, [], rfl, rfl, rfl, hp, fun _ => rfl⟩
  | cons b input ih =>
    rw [prefaceLoop, length_prefaceBytes] at h
    split at h
    · rename_i hlt
      split at h
      · cases h
      · obtain ⟨k, read, hq, hin, hk, hle, hrest⟩ := ih h hlt
        refine ⟨k, b :: read, hq, congrArg (b :: ·) hin, ?_, hle, hrest⟩
        rw [hk, List.length_cons]
        exact Nat.succ_add_eq_add_succ _ _
    · rename_i hlt
      cases h
      exact ⟨_, [], rfl, rfl, rfl, hp, fun hc => absurd hc hlt⟩

/-- A failing preface loop marks the parser, within the preface, and throws
`InvalidPreface`. -/
theorem prefaceLoop_error {p q : RecordParser} {input : Bytes} {e : FramingError}
    (h : prefaceLoop p input = .error (q, e)) :
    (∃ k, k < prefaceSize ∧ q = { p with prefaceOffset := k, failed := true })
      ∧ e = ⟨.invalidPreface, "invalid protocol v2 preface or version"⟩ := by
  induction input generalizing p with
  | nil => cases h
  | cons b input ih =>
    rw [prefaceLoop, length_prefaceBytes] at h
    split at h
    · rename_i hlt
      split at h
      · cases h
        exact ⟨⟨_, hlt, rfl⟩, rfl⟩
      · obtain ⟨⟨k, hk, rfl⟩, he⟩ := ih h
        exact ⟨⟨k, hk, rfl⟩, he⟩
    · cases h

/-- Going on with `ys` after `xs` is one run of the header loop. -/
theorem headerLoop_append (p : RecordParser) (xs ys : Bytes) :
    headerLoop p (xs ++ ys)
      = headerLoop (headerLoop p xs).1 ((headerLoop p xs).2 ++ ys) := by
  induction xs generalizing p with
  | nil => rfl
  | cons b xs ih =>
    rw [List.cons_append, headerLoop, headerLoop]
    by_cases hlt : p.headerOffset < recordHeaderSize
    · rw [if_pos hlt, if_pos hlt]
      exact ih _
    · rw [if_neg hlt, if_neg hlt]
      show _ = headerLoop p (b :: (xs ++ ys))
      rw [headerLoop, if_neg hlt]

/-- What the header loop leaves: it read from the front, only the header
and its offset moved, and input is left over only once the header is
complete. -/
theorem headerLoop_spec (p : RecordParser) (input : Bytes) :
    ∃ w k read rest, headerLoop p input = ({ p with header := w, headerOffset := k }, rest)
      ∧ input = read ++ rest ∧ k = p.headerOffset + read.length
      ∧ (p.headerOffset ≤ recordHeaderSize → k ≤ recordHeaderSize)
      ∧ (k < recordHeaderSize → rest = []) := by
  induction input generalizing p with
  | nil => exact ⟨_, _, [], [], rfl, rfl, rfl, id, fun _ => rfl⟩
  | cons b input ih =>
    rw [headerLoop]
    split
    · rename_i hlt
      obtain ⟨w, k, read, rest, hq, hin, hk, hle, hrest⟩ := ih { p with
        header := p.header.setIfInBounds p.headerOffset b
        headerOffset := p.headerOffset + 1 }
      refine ⟨w, k, b :: read, rest, hq, congrArg (b :: ·) hin, ?_, fun _ => hle hlt, hrest⟩
      rw [hk, List.length_cons]
      exact Nat.succ_add_eq_add_succ _ _
    · rename_i hlt
      exact ⟨_, _, [], _, rfl, rfl, rfl, id, fun hc => absurd hc hlt⟩

theorem headerLoop_full {p : RecordParser} (h : p.headerOffset = recordHeaderSize)
    (input : Bytes) : headerLoop p input = (p, input) := by
  cases input with
  | nil => rfl
  | cons b input => rw [headerLoop, if_neg (by omega)]

theorem prefaceLoop_full {p : RecordParser} (h : p.prefaceOffset = prefaceSize)
    (input : Bytes) : prefaceLoop p input = .ok (p, input) := by
  cases input with
  | nil => rfl
  | cons b input => rw [prefaceLoop, length_prefaceBytes, if_neg (by omega)]

/-! ## One pass of the outer loop -/

/-- **What a pass can do and go on**, with a parser that accepts input. It
reads from the front, and stops where the phase ends or the input does. -/
inductive GoesOn (handler : RecordHandler σ) (p : RecordParser) (s : σ) (input : Bytes) :
    RecordParser → σ → Bytes → Prop
  /-- The input ends within the preface. -/
  | preface (hph : p.phase = .preface) (hlt : p.prefaceOffset + input.length < prefaceSize) :
      GoesOn handler p s input { p with prefaceOffset := p.prefaceOffset + input.length } s []
  /-- The preface is complete. -/
  | prefaceDone {read rest : Bytes} (hph : p.phase = .preface) (hin : input = read ++ rest)
      (hfull : p.prefaceOffset + read.length = prefaceSize) :
      GoesOn handler p s input
        { p with prefaceOffset := p.prefaceOffset + read.length, phase := .header } s rest
  /-- The input ends within a header. -/
  | header {w : Vector UInt8 2} (hph : p.phase = .header)
      (hlt : p.headerOffset + input.length < recordHeaderSize) :
      GoesOn handler p s input
        { p with header := w, headerOffset := p.headerOffset + input.length } s []
  /-- A header announced an empty record, and the handler took it. -/
  | empty {w : Vector UInt8 2} {n : ℕ} {t : σ} {read rest : Bytes} (hph : p.phase = .header)
      (hin : input = read ++ rest) (hfull : p.headerOffset + read.length = recordHeaderSize)
      (hn : n = 0) (hcall : handler s [] = (.returned true, t)) :
      GoesOn handler p s input
        { p with header := w, headerOffset := 0, expectedPayloadSize := n, payload := [] } t rest
  /-- A header announced a record within the limit. -/
  | announced {w : Vector UInt8 2} {n : ℕ} {read rest : Bytes} (hph : p.phase = .header)
      (hin : input = read ++ rest) (hfull : p.headerOffset + read.length = recordHeaderSize)
      (hpos : 0 < n) (hle : n ≤ p.maximumRecordSize) :
      GoesOn handler p s input
        { p with
          header := w
          headerOffset := 0
          expectedPayloadSize := n
          payload := []
          phase := .payload } s rest
  /-- The input ends within a payload. -/
  | payload (hph : p.phase = .payload)
      (hlt : p.payload.length + input.length < p.expectedPayloadSize) :
      GoesOn handler p s input { p with payload := p.payload ++ input } s []
  /-- A payload is complete, and the handler took it. -/
  | record {t : σ} {read rest : Bytes} (hph : p.phase = .payload) (hin : input = read ++ rest)
      (hfull : p.payload.length + read.length = p.expectedPayloadSize)
      (hcall : handler s (p.payload ++ read) = (.returned true, t)) :
      GoesOn handler p s input
        { p with phase := .header, expectedPayloadSize := 0, payload := [] } t rest

theorem Live.goesOn_preface (handler : RecordHandler σ) {p q : RecordParser} {s t : σ}
    {input rest : Bytes} (hp : p.Live) (hph : p.phase = .preface)
    (h : iteratePreface p s input = .next q t rest) : GoesOn handler p s input q t rest := by
  have hinv := hp.phase
  simp only [PhaseInv, hph] at hinv
  unfold iteratePreface at h
  split at h
  · cases h
  · rename_i hloop
    obtain ⟨k, read, rfl, rfl, rfl, hle, hrest⟩ := prefaceLoop_ok hloop hinv.1.le
    rw [length_prefaceBytes] at h
    split at h
    · rename_i hfull
      cases h
      exact .prefaceDone hph rfl hfull
    · rename_i hpart
      cases h
      have hlt : p.prefaceOffset + read.length < prefaceSize := lt_of_le_of_ne hle hpart
      obtain rfl := hrest hlt
      rw [List.append_nil]
      exact .preface hph hlt

theorem Live.goesOn_header {handler : RecordHandler σ} {p q : RecordParser} {s t : σ}
    {input rest : Bytes} (hp : p.Live) (hph : p.phase = .header)
    (h : iterateHeader handler p s input = .next q t rest) : GoesOn handler p s input q t rest := by
  have hinv := hp.phase
  simp only [PhaseInv, hph] at hinv
  obtain ⟨w, k, read, left, hloop, rfl, rfl, hle, hrest⟩ := headerLoop_spec p input
  simp only [iterateHeader, hloop] at h
  split at h
  · rename_i hpart
    cases h
    have hlt := lt_of_le_of_ne (hle hinv.2.1.le) hpart
    obtain rfl := hrest hlt
    rw [List.append_nil]
    exact .header hph hlt
  · rename_i hfull
    simp only [headerComplete] at h
    split at h
    · cases h
    · rename_i hsize
      split at h
      · rename_i hzero
        split at h
        · cases h
        · cases h
        · rename_i hcall
          cases h
          exact .empty hph rfl (not_not.mp hfull) hzero hcall
      · rename_i hpos
        cases h
        exact .announced hph rfl (not_not.mp hfull) (Nat.pos_of_ne_zero hpos)
          (Nat.le_of_not_lt hsize)

theorem Live.goesOn_payload {handler : RecordHandler σ} {p q : RecordParser} {s t : σ}
    {input rest : Bytes} (hp : p.Live) (hph : p.phase = .payload)
    (h : iteratePayload handler p s input = .next q t rest) :
    GoesOn handler p s input q t rest := by
  have hinv := hp.phase
  simp only [PhaseInv, hph] at hinv
  obtain ⟨-, -, hlt, hmax⟩ := hinv
  simp only [iteratePayload, payloadComplete] at h
  rw [sizeSub_of_le hlt.le (hmax.trans hp.limit)] at h
  split at h
  · rename_i hfull
    rw [List.length_append] at hfull
    split at h
    · cases h
    · cases h
    · rename_i hcall
      cases h
      exact .record hph (List.take_append_drop _ _).symm hfull hcall
  · rename_i hpart
    cases h
    -- all of the input was taken, as the payload would be complete otherwise
    have hshort : p.payload.length + input.length < p.expectedPayloadSize := by
      rw [List.length_append, List.length_take] at hpart
      omega
    have hall : min (p.expectedPayloadSize - p.payload.length) input.length = input.length := by
      omega
    rw [hall, List.take_length, List.drop_length]
    exact .payload hph hshort

/-- **What a pass does**, if the loop goes on after it. -/
theorem Live.goesOn {handler : RecordHandler σ} {p q : RecordParser} {s t : σ}
    {input rest : Bytes} (hp : p.Live) (h : iterate handler p s input = .next q t rest) :
    GoesOn handler p s input q t rest := by
  unfold iterate at h
  split at h
  · exact hp.goesOn_preface handler ‹_› h
  · exact hp.goesOn_header ‹_› h
  · exact hp.goesOn_payload ‹_› h

/-- **Every pass eats a byte and keeps the parser live.** -/
theorem Live.next {handler : RecordHandler σ} {p q : RecordParser} {s t : σ}
    {input rest : Bytes} (hp : p.Live) (hne : input ≠ [])
    (h : iterate handler p s input = .next q t rest) :
    q.Live ∧ rest.length < input.length := by
  have hpos : 0 < input.length := List.length_pos_of_ne_nil hne
  have hinv := hp.phase
  unfold PhaseInv at hinv
  cases hp.goesOn h with
  | preface hph hlt =>
    simp only [hph] at hinv
    refine ⟨⟨hp.limit, ?_, hp.notFailed, hp.notFinished⟩, hpos⟩
    simp only [PhaseInv, hph]
    exact ⟨hlt, hinv.2⟩
  | prefaceDone hph hin hfull =>
    simp only [hph] at hinv
    refine ⟨⟨hp.limit, ⟨hfull, ?_, hinv.2.2⟩, hp.notFailed, hp.notFinished⟩, ?_⟩
    · simp [hinv.2.1, recordHeaderSize]
    · rw [hin, List.length_append]
      omega
  | header hph hlt =>
    simp only [hph] at hinv
    refine ⟨⟨hp.limit, ?_, hp.notFailed, hp.notFinished⟩, hpos⟩
    simp only [PhaseInv, hph]
    exact ⟨hinv.1, hlt, hinv.2.2⟩
  | empty hph hin hfull hn hcall =>
    simp only [hph] at hinv
    refine ⟨⟨hp.limit, ?_, hp.notFailed, hp.notFinished⟩, ?_⟩
    · simp only [PhaseInv, hph]
      exact ⟨hinv.1, by decide, trivial⟩
    · rw [hin, List.length_append]
      omega
  | announced hph hin hfull hpos hle =>
    simp only [hph] at hinv
    refine ⟨⟨hp.limit, ⟨hinv.1, rfl, hpos, hle⟩, hp.notFailed, hp.notFinished⟩, ?_⟩
    rw [hin, List.length_append]
    omega
  | payload hph hlt =>
    simp only [hph] at hinv
    refine ⟨⟨hp.limit, ?_, hp.notFailed, hp.notFinished⟩, hpos⟩
    simp only [PhaseInv, hph, List.length_append]
    exact ⟨hinv.1, hinv.2.1, hlt, hinv.2.2.2⟩
  | record hph hin hfull hcall =>
    simp only [hph] at hinv
    refine ⟨⟨hp.limit, ⟨hinv.1, ?_, rfl⟩, hp.notFailed, hp.notFinished⟩, ?_⟩
    · simp [hinv.2.1, recordHeaderSize]
    · rw [hin, List.length_append]
      omega

/-- **How a pass can end a call.** Where it fails, the parser is marked; where
the handler throws, it is left as it stands. -/
inductive EndsCall (handler : RecordHandler σ) (p : RecordParser) (s : σ) :
    RecordParser → σ → ConsumeExit → Prop
  /-- A byte is not that of the preface. -/
  | invalidPreface {k : ℕ} (hph : p.phase = .preface) (hk : k < prefaceSize) :
      EndsCall handler p s { p with prefaceOffset := k, failed := true } s
        (.failed ⟨.invalidPreface, "invalid protocol v2 preface or version"⟩)
  /-- A header announced a record beyond the limit. -/
  | oversized {w : Vector UInt8 2} {n : ℕ} (hph : p.phase = .header)
      (hn : p.maximumRecordSize < n) :
      EndsCall handler p s
        { p with header := w, headerOffset := 0, expectedPayloadSize := n, failed := true } s
        (.failed ⟨.oversizedRecord, "protocol v2 record exceeds configured limit"⟩)
  /-- The handler stopped at an empty record. -/
  | emptyStopped {w : Vector UInt8 2} {n : ℕ} {t : σ} (hph : p.phase = .header) (hn : n = 0)
      (hcall : handler s [] = (.returned false, t)) :
      EndsCall handler p s
        { p with
          header := w
          headerOffset := 0
          expectedPayloadSize := n
          payload := []
          failed := true } t (.returned false)
  /-- The handler threw at an empty record. -/
  | emptyThrew {w : Vector UInt8 2} {n : ℕ} {t : σ} (hph : p.phase = .header) (hn : n = 0)
      (hcall : handler s [] = (.threw, t)) :
      EndsCall handler p s
        { p with header := w, headerOffset := 0, expectedPayloadSize := n, payload := [] } t
        .handlerThrew
  /-- The handler stopped at a payload. -/
  | stopped {t : σ} {payload : Bytes} (hph : p.phase = .payload)
      (hcall : handler s payload = (.returned false, t)) :
      EndsCall handler p s
        { p with phase := .header, expectedPayloadSize := 0, payload := [], failed := true } t
        (.returned false)
  /-- The handler threw at a payload. -/
  | threw {t : σ} {payload : Bytes} (hph : p.phase = .payload)
      (hcall : handler s payload = (.threw, t)) :
      EndsCall handler p s
        { p with phase := .header, expectedPayloadSize := 0, payload := payload } t .handlerThrew

/-- **What a pass does**, if the call ends with it. -/
theorem endsCall {handler : RecordHandler σ} {p q : RecordParser} {s t : σ} {input : Bytes}
    {outcome : ConsumeExit} (h : iterate handler p s input = .exit q t outcome) :
    EndsCall handler p s q t outcome := by
  unfold iterate at h
  split at h
  · rename_i hph
    unfold iteratePreface at h
    split at h
    · rename_i hloop
      cases h
      obtain ⟨⟨k, hk, rfl⟩, rfl⟩ := prefaceLoop_error hloop
      exact .invalidPreface hph hk
    · split at h <;> cases h
  · rename_i hph
    obtain ⟨w, k, read, left, hloop, -⟩ := headerLoop_spec p input
    simp only [iterateHeader, headerComplete, fail, hloop] at h
    split at h
    · cases h
    · split at h
      · rename_i hsize
        cases h
        exact .oversized hph hsize
      · split at h
        · rename_i hzero
          split at h
          · rename_i hcall
            cases h
            exact .emptyThrew hph hzero hcall
          · rename_i hcall
            cases h
            exact .emptyStopped hph hzero hcall
          · cases h
        · cases h
  · rename_i hph
    simp only [iteratePayload, payloadComplete] at h
    split at h
    · split at h
      · rename_i hcall
        cases h
        exact .threw hph hcall
      · rename_i hcall
        cases h
        exact .stopped hph hcall
      · cases h
    · cases h

/-- A pass that ends the call marks the parser, or lets the handler's
exception through; it never reports the input as used up. -/
theorem iterate_exit {handler : RecordHandler σ} {p q : RecordParser} {s t : σ}
    {input : Bytes} {outcome : ConsumeExit}
    (h : iterate handler p s input = .exit q t outcome) :
    outcome ≠ .returned true ∧ (outcome ≠ .handlerThrew → q.failed = true) := by
  cases endsCall h <;> simp

/-- A pass the handler's exception went through is one in which the handler
threw. -/
theorem iterate_threw {handler : RecordHandler σ} {p q : RecordParser} {s t : σ}
    {input : Bytes} (h : iterate handler p s input = .exit q t .handlerThrew) :
    ∃ payload, (handler s payload).1 = .threw := by
  cases endsCall h with
  | emptyThrew hph hn hcall => exact ⟨_, congrArg Prod.fst hcall⟩
  | threw hph hcall => exact ⟨_, congrArg Prod.fst hcall⟩

/-- The same pass with more unread input behind it. -/
def Iteration.extend (ys : Bytes) : Iteration σ → Iteration σ
  | .next p s input => .next p s (input ++ ys)
  | .exit p s outcome => .exit p s outcome

/-- What follows a complete header does not look at the input. -/
theorem headerComplete_append (handler : RecordHandler σ) (p : RecordParser) (s : σ)
    (xs ys : Bytes) :
    headerComplete handler p s (xs ++ ys) = (headerComplete handler p s xs).extend ys := by
  simp only [headerComplete]
  split
  · rfl
  · split
    · split <;> rfl
    · rfl

/-- What follows a complete payload does not look at the input. -/
theorem payloadComplete_append (handler : RecordHandler σ) (p : RecordParser) (s : σ)
    (xs ys : Bytes) :
    payloadComplete handler p s (xs ++ ys) = (payloadComplete handler p s xs).extend ys := by
  simp only [payloadComplete]
  split <;> rfl

/-- A pass over more input does what the pass over `xs` did, or picks up
where that one ran out. -/
def Resumes (handler : RecordHandler σ) (p : RecordParser) (s : σ) (xs ys : Bytes) : Prop :=
  iterate handler p s (xs ++ ys) = (iterate handler p s xs).extend ys
    ∨ ∃ q t, iterate handler p s xs = .next q t []
        ∧ iterate handler p s (xs ++ ys) = iterate handler q t ys

theorem resumes_preface (handler : RecordHandler σ) {p : RecordParser} (s : σ)
    (hp : p.Live) (hph : p.phase = .preface) (xs ys : Bytes) :
    Resumes handler p s xs ys := by
  have hinv := hp.phase
  simp only [PhaseInv, hph] at hinv
  unfold Resumes
  simp only [iterate, hph, iteratePreface]
  rw [prefaceLoop_append]
  cases hloop : prefaceLoop p xs with
  | error e => exact Or.inl rfl
  | ok r =>
    obtain ⟨q, rest⟩ := r
    obtain ⟨k, read, rfl, -, -, hle, hrest⟩ := prefaceLoop_ok hloop hinv.1.le
    simp only [length_prefaceBytes]
    by_cases hk : k = prefaceSize
    · -- the preface was complete before `xs` ended
      left
      subst hk
      rw [prefaceLoop_full rfl]
      simp only [if_true]
      rfl
    · right
      refine ⟨{ p with prefaceOffset := k }, s, ?_, ?_⟩
      · simp only [hk, if_false, hrest (by omega)]
      · rw [hrest (by omega), List.nil_append]
        simp only [hph]

theorem resumes_header (handler : RecordHandler σ) {p : RecordParser} (s : σ)
    (hp : p.Live) (hph : p.phase = .header) (xs ys : Bytes) :
    Resumes handler p s xs ys := by
  have hinv := hp.phase
  simp only [PhaseInv, hph] at hinv
  unfold Resumes
  simp only [iterate, hph, iterateHeader]
  rw [headerLoop_append]
  obtain ⟨w, k, read, left, hloop, -, -, hle, hrest⟩ := headerLoop_spec p xs
  have hle := hle hinv.2.1.le
  rw [hloop]
  simp only
  by_cases hk : k = recordHeaderSize
  · -- the header was complete before `xs` ended
    left
    rw [headerLoop_full hk]
    simp only [hk, ne_eq, not_true, if_false]
    exact headerComplete_append handler _ s left ys
  · right
    refine ⟨{ p with header := w, headerOffset := k }, s, ?_, ?_⟩
    · rw [if_pos hk, hrest (by omega)]
    · rw [hrest (by omega), List.nil_append]
      simp only [hph]

theorem resumes_payload (handler : RecordHandler σ) {p : RecordParser} (s : σ)
    (hp : p.Live) (hph : p.phase = .payload) (xs ys : Bytes) :
    Resumes handler p s xs ys := by
  have hinv := hp.phase
  simp only [PhaseInv, hph] at hinv
  obtain ⟨hoff, hho, hlt, hmax⟩ := hinv
  have hexp : p.expectedPayloadSize ≤ maxRecordSize := hmax.trans hp.limit
  unfold Resumes
  simp only [iterate, hph, iteratePayload]
  rw [sizeSub_of_le hlt.le hexp]
  by_cases hle : p.expectedPayloadSize - p.payload.length ≤ xs.length
  · -- the record was complete before `xs` ended
    left
    have hmin : min (p.expectedPayloadSize - p.payload.length) xs.length
        = p.expectedPayloadSize - p.payload.length := min_eq_left hle
    have hmin' : min (p.expectedPayloadSize - p.payload.length) (xs ++ ys).length
        = p.expectedPayloadSize - p.payload.length :=
      min_eq_left (hle.trans (by rw [List.length_append]; omega))
    rw [hmin, hmin', List.take_append_of_le_length hle, List.drop_append_of_le_length hle]
    have hfull : (p.payload ++ xs.take (p.expectedPayloadSize - p.payload.length)).length
        = p.expectedPayloadSize := by
      rw [List.length_append, List.length_take]
      omega
    rw [if_pos hfull, if_pos hfull]
    exact payloadComplete_append handler _ s _ ys
  · right
    have hmin : min (p.expectedPayloadSize - p.payload.length) xs.length = xs.length := by
      omega
    have hlen : (p.payload ++ xs).length < p.expectedPayloadSize := by
      rw [List.length_append]
      omega
    refine ⟨{ p with payload := p.payload ++ xs }, s, ?_, ?_⟩
    · rw [hmin, List.take_length, List.drop_length, if_neg hlen.ne, hph]
    · have hsub : p.expectedPayloadSize - (p.payload ++ xs).length
          = p.expectedPayloadSize - p.payload.length - xs.length := by
        rw [List.length_append]
        omega
      have hcount : min (p.expectedPayloadSize - p.payload.length) (xs ++ ys).length
          = xs.length
            + min (p.expectedPayloadSize - p.payload.length - xs.length) ys.length := by
        rw [List.length_append]
        omega
      rw [hcount, List.take_length_add_append, List.drop_length_add_append,
        ← List.append_assoc]
      simp only [hph]
      rw [sizeSub_of_le hlen.le hexp, hsub]

/-- **A pass over more input resumes the shorter one.** -/
theorem iterate_append (handler : RecordHandler σ) {p : RecordParser} (s : σ)
    (hp : p.Live) (xs ys : Bytes) : Resumes handler p s xs ys := by
  cases hph : p.phase with
  | preface => exact resumes_preface handler s hp hph xs ys
  | header => exact resumes_header handler s hp hph xs ys
  | payload => exact resumes_payload handler s hp hph xs ys

/-! ## The loop, one pass at a time -/

/-- Fuel beyond the unread input changes nothing. -/
theorem consumeLoop_of_le (handler : RecordHandler σ) {p : RecordParser} (hp : p.Live)
    (s : σ) {input : Bytes} {fuel : ℕ} (h : input.length ≤ fuel) :
    consumeLoop handler fuel p s input = consumeLoop handler input.length p s input := by
  induction fuel using Nat.strong_induction_on generalizing p s input with
  | _ fuel ih =>
    cases input with
    | nil => cases fuel <;> rfl
    | cons b input =>
      cases fuel with
      | zero => simp at h
      | succ fuel =>
        rw [List.length_cons, consumeLoop, consumeLoop]
        cases hit : iterate handler p s (b :: input) with
        | exit q t outcome => rfl
        | next q t rest =>
          obtain ⟨hq, hlt⟩ := hp.next (List.cons_ne_nil b input) hit
          rw [List.length_cons] at h hlt
          show consumeLoop handler fuel q t rest = consumeLoop handler input.length q t rest
          rw [ih fuel (by omega) hq t (by omega), ih input.length (by omega) hq t (by omega)]

theorem Live.consume_eq (handler : RecordHandler σ) {p : RecordParser} (hp : p.Live)
    (s : σ) (input : Bytes) :
    consume handler p s input = consumeLoop handler input.length p s input := by
  rw [consume, hp.notFailed, hp.notFinished]
  rfl

theorem Live.consume_nil (handler : RecordHandler σ) {p : RecordParser} (hp : p.Live)
    (s : σ) : consume handler p s [] = some (p, s, .returned true) := by
  rw [hp.consume_eq]
  rfl

/-- **A call, one pass at a time**: the fuel of the model is enough. -/
theorem consume_eq_iterate (handler : RecordHandler σ) {p : RecordParser} (hp : p.Live)
    (s : σ) {input : Bytes} (hne : input ≠ []) :
    consume handler p s input
      = match iterate handler p s input with
        | .next q t rest => consume handler q t rest
        | .exit q t outcome => some (q, t, outcome) := by
  rw [hp.consume_eq]
  cases input with
  | nil => exact absurd rfl hne
  | cons b input =>
    rw [List.length_cons, consumeLoop]
    cases hit : iterate handler p s (b :: input) with
    | exit q t outcome => rfl
    | next q t rest =>
      obtain ⟨hq, hlt⟩ := hp.next hne hit
      rw [List.length_cons] at hlt
      show consumeLoop handler input.length q t rest = consume handler q t rest
      rw [hq.consume_eq, consumeLoop_of_le handler hq t (by omega)]

/-- **What holds of every call, by induction over its passes**: it does
where the input is used up, where a pass ends the call, and where a pass goes
on and it does from there. Every call ends, as every pass eats a byte. -/
theorem Live.consume_rule {handler : RecordHandler σ}
    {P : RecordParser → σ → Bytes → RecordParser × σ × ConsumeExit → Prop}
    (used : ∀ {p : RecordParser} (s : σ), p.Live → P p s [] (p, s, .returned true))
    (ends : ∀ {p q : RecordParser} {s t : σ} {input : Bytes} {outcome : ConsumeExit}, p.Live →
      iterate handler p s input = .exit q t outcome → P p s input (q, t, outcome))
    (goesOn : ∀ {p q : RecordParser} {s t : σ} {input rest : Bytes}
      {last : RecordParser × σ × ConsumeExit}, p.Live →
      iterate handler p s input = .next q t rest → P q t rest last → P p s input last)
    {p : RecordParser} (hp : p.Live) (s : σ) (input : Bytes) :
    ∃ last, consume handler p s input = some last ∧ P p s input last := by
  induction hn : input.length using Nat.strong_induction_on generalizing p s input with
  | _ n ih =>
    by_cases hne : input = []
    · subst hne
      exact ⟨_, hp.consume_nil handler s, used s hp⟩
    · rw [consume_eq_iterate handler hp s hne]
      cases hit : iterate handler p s input with
      | exit q t outcome => exact ⟨_, rfl, ends hp hit⟩
      | next q t rest =>
        obtain ⟨hq, hlt⟩ := hp.next hne hit
        obtain ⟨last, hlast, hrest⟩ := ih rest.length (by omega) hq t rest rfl
        exact ⟨last, hlast, goesOn hp hit hrest⟩

/-- **Every call of `consume` ends**, and one that used its input up leaves
the parser live. -/
theorem consume_total (handler : RecordHandler σ) {p : RecordParser} (hp : p.Live)
    (s : σ) (input : Bytes) :
    ∃ q t outcome, consume handler p s input = some (q, t, outcome)
      ∧ (outcome = .returned true → q.Live) := by
  obtain ⟨⟨q, t, outcome⟩, hend, hlive⟩ := Live.consume_rule 
    (P := fun _ _ _ last => last.2.2 = .returned true → last.1.Live)
    (fun _ hp _ => hp) (fun _ hit h => absurd h (iterate_exit hit).1) (fun _ _ h => h) hp s input
  exact ⟨q, t, outcome, hend, hlive⟩

/-- **A call over `xs ++ ys` is a call over `xs`, then one over `ys`** –
the second made only if the first used its input up. -/
theorem consume_append (handler : RecordHandler σ) {p : RecordParser} (hp : p.Live)
    (s : σ) (xs ys : Bytes) :
    consume handler p s (xs ++ ys)
      = match consume handler p s xs with
        | some (q, t, .returned true) => consume handler q t ys
        | r => r := by
  induction hn : xs.length using Nat.strong_induction_on generalizing p s xs with
  | _ n ih =>
    by_cases hne : xs = []
    · subst hne
      rw [hp.consume_nil, List.nil_append]
    · have hne' : xs ++ ys ≠ [] := by simp [hne]
      rw [consume_eq_iterate handler hp s hne, consume_eq_iterate handler hp s hne']
      obtain hext | ⟨q, t, hit, hres⟩ := iterate_append handler s hp xs ys
      · rw [hext]
        cases hit : iterate handler p s xs with
        | exit q t outcome =>
          obtain ⟨hne, -⟩ := iterate_exit hit
          simp only [Iteration.extend]
          split
          · rename_i heq
            cases heq
            exact absurd rfl hne
          · rfl
        | next q t rest =>
          obtain ⟨hq, hlt⟩ := hp.next hne hit
          exact ih rest.length (by omega) hq t rest rfl
      · -- the pass over `xs` ran out of input: the next call starts there
        obtain ⟨hq, -⟩ := hp.next hne hit
        rw [hit, hres]
        simp only [hq.consume_nil]
        by_cases hys : ys = []
        · subst hys
          rw [List.append_nil, hit] at hres
          rw [← hres, hq.consume_nil]
          exact hq.consume_nil handler t
        · rw [consume_eq_iterate handler hq t hys]

/-! ## Whole streams -/

/-- Feeding chunks in order, until a call returns `false` or throws. -/
def feed (handler : RecordHandler σ) :
    RecordParser → σ → List Bytes → Option (RecordParser × σ × ConsumeExit)
  | p, s, [] => some (p, s, .returned true)
  | p, s, chunk :: chunks =>
    match consume handler p s chunk with
    | some (q, t, .returned true) => feed handler q t chunks
    | r => r

/-- What a caller sees of a whole stream: the state the handler is left in,
how the last call ended, and what `finish` did – when it was called. -/
structure StreamResult (σ : Type) where
  /-- The handler's state at the end. -/
  state : σ
  /-- How the last `consume` ended. -/
  outcome : ConsumeExit
  /-- What `finish` did, if every chunk was used up. -/
  finish : Option (Except FramingError Unit)

/-- **A whole stream**: feed the chunks, and finish if all were used up. -/
def feedAndFinish (handler : RecordHandler σ) (p : RecordParser) (s : σ)
    (chunks : List Bytes) : Option (StreamResult σ) :=
  match feed handler p s chunks with
  | some (q, t, .returned true) => some ⟨t, .returned true, some q.finish.2⟩
  | some (_, t, outcome) => some ⟨t, outcome, none⟩
  | none => none

/-- A handler that also keeps the payloads it was called with, in order. -/
def logged (handler : RecordHandler σ) : RecordHandler (σ × List Bytes) :=
  fun (s, calls) payload => ((handler s payload).1, (handler s payload).2, calls ++ [payload])

/-- Feeding chunks is one call over their concatenation. -/
theorem feed_eq_consume (handler : RecordHandler σ) {p : RecordParser} (hp : p.Live)
    (s : σ) (chunks : List Bytes) :
    feed handler p s chunks = consume handler p s chunks.flatten := by
  induction chunks generalizing p s with
  | nil => rw [List.flatten_nil, hp.consume_nil, feed]
  | cons chunk chunks ih =>
    rw [List.flatten_cons, consume_append handler hp, feed]
    obtain ⟨q, t, outcome, hc, hlive⟩ := consume_total handler hp s chunk
    rw [hc]
    cases outcome with
    | returned result =>
      cases result with
      | true => exact ih (hlive rfl) t
      | false => rfl
    | failed error => rfl
    | handlerThrew => rfl

/-- A whole stream is one call over its bytes, then `finish`. -/
theorem feedAndFinish_eq (handler : RecordHandler σ) {p : RecordParser} (hp : p.Live)
    (s : σ) (chunks : List Bytes) :
    feedAndFinish handler p s chunks = feedAndFinish handler p s [chunks.flatten] := by
  unfold feedAndFinish
  rw [feed_eq_consume handler hp, feed_eq_consume handler hp, List.flatten_singleton]

/-- **The parser does not depend on how the stream is cut.** For every
limit, every handler and every two ways of cutting the same bytes into
chunks, both runs end – and end alike: the handler is called with the same
payloads in the same order, its own state, the outcome and what `finish`
does are the same. -/
theorem feedAndFinish_fragmentation {m : ℕ} {p : RecordParser} (hp : create m = .ok p)
    (handler : RecordHandler σ) (s : σ) (chunks chunks' : List Bytes)
    (h : chunks.flatten = chunks'.flatten) :
    ∃ r, feedAndFinish (logged handler) p (s, []) chunks = some r
      ∧ feedAndFinish (logged handler) p (s, []) chunks' = some r := by
  obtain ⟨rfl, hm⟩ := create_eq_ok hp
  have hlive := live_initial hm
  obtain ⟨q, t, outcome, hc, -⟩ :=
    consume_total (logged handler) hlive (s, []) chunks'.flatten
  have hsome : ∃ r, feedAndFinish (logged handler) (initial m) (s, []) chunks' = some r := by
    unfold feedAndFinish
    rw [feed_eq_consume (logged handler) hlive, hc]
    split
    · exact ⟨_, rfl⟩
    · exact ⟨_, rfl⟩
    · rename_i hnone
      cases hnone
  obtain ⟨r, hr⟩ := hsome
  refine ⟨r, ?_, hr⟩
  rw [feedAndFinish_eq _ hlive, h, ← feedAndFinish_eq _ hlive, hr]

/-- A preface and a record cut at two different places: both runs end
alike. -/
theorem feedAndFinish_fragmentation_split :
    create 16 = .ok (initial 16)
      ∧ [prefaceBytes, [0, 1], [7]].flatten = [prefaceBytes ++ [0], [], [1, 7]].flatten
      ∧ ∃ r, feedAndFinish (logged fun n _ => (.returned true, n + 1)) (initial 16) (0, [])
            [prefaceBytes, [0, 1], [7]] = some r
          ∧ feedAndFinish (logged fun n _ => (.returned true, n + 1)) (initial 16) (0, [])
            [prefaceBytes ++ [0], [], [1, 7]] = some r :=
  ⟨rfl, rfl, feedAndFinish_fragmentation (m := 16) rfl _ 0 _ _ rfl⟩

end RecordParser

end Gasoline
