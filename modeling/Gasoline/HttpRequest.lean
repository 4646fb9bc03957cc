import Gasoline.Search
import Gasoline.UuidLanguage

/-!
# Requests of the control API

The API server reads a request from a socket: up to the first empty line, and
then as many bytes as the text `Content-Length:` announces. What `recv`
returns are pieces of what the client sent, cut anywhere.

Whether a request is read does not depend on the pieces. Its body does:
what `recv` returned is kept as a whole, so whatever arrived in the same
piece behind the body is part of it. And the number is looked for in the text
of the headers, not in the header field. `body_as_announced_iff` says exactly
for which streams the body is what the header field announces.
-/

namespace Gasoline

namespace ApiServer

/-- `API_BUFFER_SIZE`. -/
def apiBufferSize : ℕ := 4096

/-- The end of a line. -/
def crlf : Bytes := [13, 10]

/-- The end of the headers. -/
def emptyLine : Bytes := [13, 10, 13, 10]

/-- The text that is looked for. -/
def needle : Bytes := ascii "Content-Length:"

/-! ## Numbers -/

/-- `isspace`. -/
def isSpace (b : UInt8) : Bool := b == 32 || (decide (9 ≤ b) && decide (b ≤ 13))

/-- `isdigit`. -/
def isDigit (b : UInt8) : Bool := decide (48 ≤ b) && decide (b ≤ 57)

/-- The number that decimal digits denote. -/
def decimalValue (digits : Bytes) : ℕ := digits.foldl (fun n b => 10 * n + (b.toNat - 48)) 0

/-- **`std::stoi`**: white space, a sign, digits; `none` where it throws, for
want of digits or since the number is no `int`. What follows the digits is
ignored. -/
def stoi (text : Bytes) : Option ℤ :=
  let signed := text.dropWhile isSpace
  let negative := signed.head? == some 45
  let unsigned := if negative || signed.head? == some 43 then signed.tail else signed
  let digits := unsigned.takeWhile isDigit
  let value : ℤ := if negative then -decimalValue digits else decimalValue digits
  if digits.isEmpty || decide (value < -2 ^ 31) || decide (2 ^ 31 ≤ value) then none else some value

/-! ## Reading a request -/

/-- `extract_content_length`. -/
def extractContentLength (headers : Bytes) : ℤ :=
  match firstOccurrence needle headers with
  | none => 0
  | some pos =>
    let value := (headers.drop (pos + needle.length)).dropWhile (· == 32)
    match firstOccurrence crlf value with
    | none => 0
    | some valueEnd => (stoi (value.take valueEnd)).getD 0

/-- **`recv_http_request`**, of what the calls of `recv` return before they
return nothing: the request, or `none` where it returns false. -/
def recvHttpRequest (chunks : List Bytes) : Option Bytes := do
  let (request, chunks) ← readUntil (fun r => (firstOccurrence emptyLine r).isSome) [] chunks
  let headersEnd ← firstOccurrence emptyLine request
  let contentLength := extractContentLength (request.take (headersEnd + 4))
  if contentLength < 0 || (apiBufferSize : ℤ) < contentLength then none
  else
    let targetSize := headersEnd + 4 + contentLength.toNat
    let (request, _) ← readUntil (fun r => decide (targetSize ≤ r.length)) request chunks
    return request

/-- `get_request_body`. -/
def getRequestBody (request : Bytes) : Bytes :=
  match firstOccurrence emptyLine request with
  | none => []
  | some headersEnd => request.drop (headersEnd + 4)

/-! ## What HTTP says -/

/-- The lines of a text. -/
def lines : Bytes → List Bytes
  | [] => [[]]
  | [b] => [[b]]
  | b :: c :: rest =>
    if b = 13 ∧ c = 10 then [] :: lines rest
    else
      match lines (c :: rest) with
      | [] => [[b]]
      | line :: more => (b :: line) :: more

/-- The name of a header field: what stands before the first colon. -/
def fieldName (line : Bytes) : Bytes := line.takeWhile (· != 58)

/-- The value of a header field: what stands behind the colon, without the
blanks and tabs around it. -/
def fieldValue (line : Bytes) : Bytes :=
  let value := (line.dropWhile (· != 58)).tail.dropWhile (fun b => b == 32 || b == 9)
  (value.reverse.dropWhile (fun b => b == 32 || b == 9)).reverse

/-- The line is a field with the name `Content-Length`, in whatever case. -/
def isContentLength (line : Bytes) : Bool :=
  line.contains 58 && (fieldName line).map lowerLetter == ascii "content-length"

/-- **What the headers announce**: the number in the field `Content-Length`,
nothing without such a field; `none` where the field has no number. -/
def announced (headers : Bytes) : Option ℕ :=
  match (lines headers).tail.find? isContentLength with
  | none => some 0
  | some line =>
    let value := fieldValue line
    if value.isEmpty || !value.all isDigit then none else some (decimalValue value)

/-- The text ends with its first empty line. -/
def IsHead (head : Bytes) : Prop :=
  ∃ i, firstOccurrence emptyLine head = some i ∧ head.length = i + 4

/-- **How a stream may arrive**: `recv` returns non-empty pieces of at most
4096 bytes. -/
def Chunking (s : Bytes) (chunks : List Bytes) : Prop :=
  chunks.flatten = s ∧ ∀ c ∈ chunks, c ≠ [] ∧ c.length ≤ apiBufferSize

/-- **The body is what was announced**, however the stream arrives: whether a
request is read does not depend on it, and what is read has as its body the
announced number of bytes behind the headers. -/
def BodyAsAnnounced (s : Bytes) : Prop :=
  ∀ chunks chunks', Chunking s chunks → Chunking s chunks' →
    (recvHttpRequest chunks).isSome = (recvHttpRequest chunks').isSome
      ∧ ∀ request request', recvHttpRequest chunks = some request →
        recvHttpRequest chunks' = some request' →
        getRequestBody request = getRequestBody request'
          ∧ ∃ head rest n, IsHead head ∧ s = head ++ rest ∧ announced head = some n
            ∧ n ≤ rest.length ∧ getRequestBody request = rest.take n

/-! ## What stands in the text -/

/-- **The value that stands behind the first text `Content-Length:`**, without
the blanks before it, up to the end of the line. -/
def StandsBehind (head value : Bytes) : Prop :=
  ∃ before blanks after, head = before ++ (needle ++ (blanks ++ (value ++ (crlf ++ after))))
    ∧ firstOccurrence needle head = some before.length
    ∧ (∀ b ∈ blanks, b = 32) ∧ value.head? ≠ some 32
    ∧ firstOccurrence crlf (value ++ (crlf ++ after)) = some value.length

/-- **The number that the text of the headers states**: the one that the
value begins with, and 0 if there is none. -/
def States (head : Bytes) (n : ℤ) : Prop :=
  (firstOccurrence needle head = none ∧ n = 0)
    ∨ ∃ value, StandsBehind head value ∧ n = (stoi value).getD 0

/-- Blanks before something else are dropped. -/
theorem dropWhile_blanks {blanks rest : Bytes} (hblanks : ∀ b ∈ blanks, b = 32)
    (hrest : rest.head? ≠ some 32) : (blanks ++ rest).dropWhile (· == 32) = rest := by
  rw [List.dropWhile_append_of_pos (fun b hb => by simp [hblanks b hb])]
  cases rest with
  | nil => rfl
  | cons b rest =>
    rw [List.dropWhile_cons_of_neg]
    intro hb
    exact hrest (by rw [List.head?_cons, beq_iff_eq.mp hb])

theorem isHead_iff {head : Bytes} : IsHead head ↔ ∃ mid, head = mid ++ emptyLine
    ∧ firstOccurrence emptyLine head = some mid.length := by
  constructor
  · rintro ⟨i, hfirst, hlength⟩
    have hcut := eq_of_firstOccurrence hfirst
    have hnil : head.drop (i + emptyLine.length) = [] := List.drop_eq_nil_of_le hlength.le
    rw [hnil, List.append_nil] at hcut
    refine ⟨head.take i, hcut, ?_⟩
    rw [List.length_take, min_eq_left (by omega)]
    exact hfirst
  · rintro ⟨mid, rfl, hfirst⟩
    exact ⟨mid.length, hfirst, by simp [emptyLine]⟩

/-- The text is not found at the end of the headers. -/
theorem needle_before_end {mid : Bytes} {i : ℕ}
    (h : firstOccurrence needle (mid ++ emptyLine) = some i) : i + needle.length ≤ mid.length := by
  obtain ⟨-, hoccurs, -⟩ := firstOccurrence_eq_some_iff.mp h
  have hroom : i + 15 ≤ mid.length + 4 := by
    have hlength := hoccurs.length_le
    rw [List.length_drop, List.length_append] at hlength
    change 15 ≤ mid.length + 4 - i at hlength
    omega
  by_contra hover
  change ¬ i + 15 ≤ mid.length at hover
  -- the carriage return at the end of the headers would be part of the text
  obtain ⟨rest, hrest⟩ := hoccurs
  have hk : mid.length - i < needle.length := by
    show _ < 15
    omega
  have hreturn : needle[mid.length - i]? = some 13 := by
    rw [← @List.getElem?_append_left _ needle rest _ hk, hrest, List.getElem?_drop,
      Nat.add_sub_cancel' (by omega), List.getElem?_append_right le_rfl, Nat.sub_self]
    rfl
  exact absurd (List.mem_of_getElem? hreturn) (by decide)

theorem crlf_behind {mid tail : Bytes} (h : (mid ++ emptyLine).dropWhile (· == 32) = tail) :
    ∃ k, firstOccurrence crlf tail = some k := by
  have hends : ∃ u, tail = u ++ emptyLine := by
    rw [List.dropWhile_append] at h
    split at h
    · exact ⟨[], by rw [← h]; rfl⟩
    · exact ⟨_, h.symm⟩
  obtain ⟨u, rfl⟩ := hends
  cases hfind : firstOccurrence crlf (u ++ emptyLine) with
  | some k => exact ⟨k, rfl⟩
  | none =>
    refine absurd ?_ (firstOccurrence_eq_none_iff.mp hfind u.length (by simp))
    rw [List.drop_left]
    exact ⟨crlf, rfl⟩

/-- **`extract_content_length` returns the number that the text states.** -/
theorem states_iff {head : Bytes} (hhead : IsHead head) {n : ℤ} :
    States head n ↔ extractContentLength head = n := by
  constructor
  · rintro (⟨hnone, rfl⟩ | ⟨value, ⟨before, blanks, after, hcut, hfirst, hblanks, hvalue, hend⟩, rfl⟩)
    · rw [extractContentLength, hnone]
    · have htail : (head.drop (before.length + needle.length)).dropWhile (· == 32)
          = value ++ (crlf ++ after) := by
        rw [hcut, ← List.drop_drop, List.drop_left, List.drop_left]
        refine dropWhile_blanks hblanks ?_
        cases value with
        | nil => simp [crlf]
        | cons b value => simpa using hvalue
      rw [extractContentLength, hfirst]
      simp only [htail, hend, List.take_left]
  · rintro rfl
    obtain ⟨mid, rfl, -⟩ := isHead_iff.mp hhead
    unfold extractContentLength
    cases hfirst : firstOccurrence needle (mid ++ emptyLine) with
    | none => exact .inl ⟨hfirst, rfl⟩
    | some i =>
      have hroom := needle_before_end hfirst
      have hdrop : (mid ++ emptyLine).drop (i + needle.length)
          = mid.drop (i + needle.length) ++ emptyLine := List.drop_append_of_le_length hroom
      obtain ⟨tail, htail⟩ : ∃ tail,
          ((mid ++ emptyLine).drop (i + needle.length)).dropWhile (· == 32) = tail := ⟨_, rfl⟩
      obtain ⟨k, hk⟩ := crlf_behind (hdrop ▸ htail)
      simp only [htail, hk]
      have hcut := eq_of_firstOccurrence hk
      have hi : ((mid ++ emptyLine).take i).length = i := by
        rw [List.length_take, List.length_append]
        omega
      obtain ⟨hkle, -, -⟩ := firstOccurrence_eq_some_iff.mp hk
      have hvalue : (tail.take k).length = k := by
        rw [List.length_take]
        omega
      refine .inr ⟨tail.take k, ⟨(mid ++ emptyLine).take i,
        ((mid ++ emptyLine).drop (i + needle.length)).takeWhile (· == 32),
        tail.drop (k + crlf.length), ?_, ?_, fun b hb => ?_, ?_, ?_⟩, rfl⟩
      · rw [← hcut, ← htail, List.takeWhile_append_dropWhile]
        exact eq_of_firstOccurrence hfirst
      · rw [hi, hfirst]
      · simpa using List.mem_takeWhile_imp hb
      · intro hblank
        have hhead : tail.head? = some 32 := by
          rw [← List.take_append_drop k tail, List.head?_append, hblank]
          rfl
        have hnot := List.head?_dropWhile_not (· == 32)
          ((mid ++ emptyLine).drop (i + needle.length))
        rw [htail, hhead] at hnot
        cases hnot
      · rw [← hcut, hvalue, hk]

/-! ## Reading -/

/-- A request that is read to its headers has them. -/
theorem firstOccurrence_of_isHead {head : Bytes} (hhead : IsHead head) (rest : Bytes) :
    firstOccurrence emptyLine (head ++ rest) = some (head.length - 4) := by
  obtain ⟨i, hfirst, hlength⟩ := hhead
  have hsame := ((firstOccurrence_append rest).mp hfirst).1
  rw [hsame, hlength, Nat.add_sub_cancel]

theorem IsHead.length {head : Bytes} (hhead : IsHead head) : 4 ≤ head.length := by
  obtain ⟨i, -, hlength⟩ := hhead
  omega

theorem IsHead.unique {head head' rest rest' : Bytes} (h : IsHead head) (h' : IsHead head')
    (heq : head ++ rest = head' ++ rest') : head = head' ∧ rest = rest' := by
  have hfirst := firstOccurrence_of_isHead h rest
  rw [heq, firstOccurrence_of_isHead h' rest'] at hfirst
  have hlength : head.length = head'.length := by
    have hle := h.length
    have hle' := h'.length
    have hsub := Option.some.inj hfirst
    omega
  exact List.append_inj heq hlength

/-- A stream with an empty line begins with headers. -/
theorem exists_head {s : Bytes} {i : ℕ} (h : firstOccurrence emptyLine s = some i) :
    ∃ head rest, IsHead head ∧ s = head ++ rest := by
  have hcut := eq_of_firstOccurrence h
  obtain ⟨hle, -, -⟩ := firstOccurrence_eq_some_iff.mp h
  have htake : (s.take i).length = i := by
    rw [List.length_take]
    omega
  rw [← List.append_assoc] at hcut
  refine ⟨s.take i ++ emptyLine, s.drop (i + emptyLine.length), isHead_iff.mpr ⟨s.take i, rfl, ?_⟩,
    hcut⟩
  refine (firstOccurrence_append (s.drop (i + emptyLine.length))).mpr ⟨?_, ?_⟩
  · rw [← hcut, htake, h]
  · rw [List.length_append]

/-- **What `recv_http_request` comes to**: the number in the headers decides
how far the stream is read. -/
theorem recvHttpRequest_eq {head rest : Bytes} (hhead : IsHead head) {chunks : List Bytes}
    (hchunks : chunks.flatten = head ++ rest) :
    recvHttpRequest chunks
      = if 0 ≤ extractContentLength head ∧ extractContentLength head ≤ apiBufferSize then
          (readUntil (fun r => decide (head.length + (extractContentLength head).toNat ≤ r.length))
            [] chunks).map Prod.fst
        else none := by
  have hfour := hhead.length
  -- the headers are read whole, with whatever came with them
  have hcontains : ∀ r, r <+: head ++ rest → head.length ≤ r.length →
      ∃ t, r = head ++ t := by
    intro r hr hlength
    obtain ⟨t, ht⟩ := List.prefix_of_prefix_length_le (List.prefix_append head rest) hr hlength
    exact ⟨t, ht.symm⟩
  have hsome : (readUntil (fun r => (firstOccurrence emptyLine r).isSome) [] chunks).isSome
      = true := by
    rw [readUntil_isSome_iff (fun r t hr => ?_), List.nil_append, hchunks,
      firstOccurrence_of_isHead hhead rest]
    · rfl
    · obtain ⟨i, hi⟩ := Option.isSome_iff_exists.mp hr
      rw [((firstOccurrence_append t).mp hi).1]
      rfl
  obtain ⟨⟨request, left⟩, hread⟩ := Option.isSome_iff_exists.mp hsome
  obtain ⟨hall, hfound⟩ := readUntil_spec hread
  rw [List.nil_append, hchunks] at hall
  obtain ⟨i, hi⟩ := Option.isSome_iff_exists.mp hfound
  obtain ⟨hfirst, hroom⟩ := (firstOccurrence_append left.flatten).mp hi
  rw [hall, firstOccurrence_of_isHead hhead rest] at hfirst
  obtain rfl := Option.some.inj hfirst
  have hroom' : head.length - 4 + 4 ≤ request.length := hroom
  obtain ⟨t, rfl⟩ := hcontains request ⟨left.flatten, hall⟩ (by omega)
  have hheaders : (head ++ t).take (head.length - 4 + 4) = head := by
    rw [Nat.sub_add_cancel hfour, List.take_left]
  unfold recvHttpRequest
  simp only [hread, hi, Option.bind_eq_bind, Option.bind_some, hheaders]
  by_cases hrange : 0 ≤ extractContentLength head ∧ extractContentLength head ≤ apiBufferSize
  · rw [if_pos hrange, if_neg (by simpa using hrange), Nat.sub_add_cancel hfour,
      readUntil_readUntil hread (fun r hr hlength => ?_)]
    · cases readUntil (fun r => decide (head.length + (extractContentLength head).toNat
        ≤ r.length)) [] chunks with
      | none => rfl
      | some x => rfl
    · rw [List.nil_append, hchunks] at hr
      obtain ⟨u, rfl⟩ := hcontains r hr (by
        have hle := of_decide_eq_true hlength
        omega)
      rw [firstOccurrence_of_isHead hhead u]
      rfl
  · rw [if_neg hrange, if_pos (by
      simp only [Bool.or_eq_true, decide_eq_true_eq]
      omega)]

/-- Without an empty line there is no request. -/
theorem recvHttpRequest_eq_none {s : Bytes} (h : firstOccurrence emptyLine s = none)
    {chunks : List Bytes} (hchunks : chunks.flatten = s) : recvHttpRequest chunks = none := by
  have hnone : readUntil (fun r => (firstOccurrence emptyLine r).isSome) [] chunks = none := by
    cases hread : readUntil (fun r => (firstOccurrence emptyLine r).isSome) [] chunks with
    | none => rfl
    | some x =>
      obtain ⟨hall, hfound⟩ := readUntil_spec hread
      obtain ⟨i, hi⟩ := Option.isSome_iff_exists.mp hfound
      have hfirst := ((firstOccurrence_append x.2.flatten).mp hi).1
      rw [hall, List.nil_append, hchunks, h] at hfirst
      cases hfirst
  unfold recvHttpRequest
  rw [hnone]
  rfl

/-- The body of a request is what was read behind the headers. -/
theorem getRequestBody_append {head : Bytes} (hhead : IsHead head) (t : Bytes) :
    getRequestBody (head ++ t) = t := by
  rw [getRequestBody, firstOccurrence_of_isHead hhead t]
  show (head ++ t).drop (head.length - 4 + 4) = t
  rw [Nat.sub_add_cancel hhead.length, List.drop_left]

theorem chunking_bytes (s : Bytes) : Chunking s (s.map (fun b => [b])) := by
  refine ⟨?_, fun c hc => ?_⟩
  · induction s with
    | nil => rfl
    | cons b s ih => rw [List.map_cons, List.flatten_cons, ih, List.singleton_append]
  · obtain ⟨b, -, rfl⟩ := List.mem_map.mp hc
    exact ⟨List.cons_ne_nil b [], by simp [apiBufferSize]⟩

/-- **Some way of arriving reads just so much behind the headers**: `recv` has
left one byte of the body out, and its next piece has that byte and `k`
more. -/
theorem exists_chunking {head : Bytes} (rest : Bytes) (hhead : IsHead head)
    (hnonneg : 0 ≤ extractContentLength head)
    (hbound : extractContentLength head ≤ apiBufferSize) {k : ℕ} (hk : k < apiBufferSize)
    (henough : (extractContentLength head).toNat + k ≤ rest.length) :
    ∃ chunks, Chunking (head ++ rest) chunks ∧ recvHttpRequest chunks
      = some (head ++ rest.take ((extractContentLength head).toNat + k)) := by
  have hfour := hhead.length
  obtain ⟨n, hn⟩ : ∃ n, (extractContentLength head).toNat = n := ⟨_, rfl⟩
  rw [hn] at henough ⊢
  have hlength : (head ++ rest).length = head.length + rest.length := List.length_append
  -- all but the last byte of the body, then a piece, then the rest
  obtain ⟨before, hbefore⟩ : ∃ b, (head ++ rest).take (head.length + n - 1) = b := ⟨_, rfl⟩
  obtain ⟨piece, hpiece⟩ : ∃ p, ((head ++ rest).drop (head.length + n - 1)).take (k + 1) = p :=
    ⟨_, rfl⟩
  obtain ⟨after, hafter⟩ : ∃ a, ((head ++ rest).drop (head.length + n - 1)).drop (k + 1) = a :=
    ⟨_, rfl⟩
  have hbeforeLength : before.length = head.length + n - 1 := by
    rw [← hbefore, List.length_take]
    omega
  have hpieceLength : piece.length = k + 1 := by
    rw [← hpiece, List.length_take, List.length_drop]
    omega
  have hwhole : before ++ (piece ++ after) = head ++ rest := by
    rw [← hbefore, ← hpiece, ← hafter, List.take_append_drop, List.take_append_drop]
  have hread : before ++ piece = head ++ rest.take (n + k) := by
    have htake : (head ++ rest).take (head.length + (n + k)) = head ++ rest.take (n + k) := by
      rw [List.take_append, List.take_of_length_le (by omega), Nat.add_sub_cancel_left]
    have hsame : (before ++ piece).length = head.length + (n + k) := by
      rw [List.length_append]
      omega
    rw [← htake, ← hwhole, ← List.append_assoc, ← hsame, List.take_left]
  have hflat : (before.map (fun b => [b]) ++ piece :: after.map (fun b => [b])).flatten
      = head ++ rest := by
    rw [List.flatten_append, List.flatten_cons, (chunking_bytes before).1,
      (chunking_bytes after).1, hwhole]
  refine ⟨before.map (fun b => [b]) ++ piece :: after.map (fun b => [b]), ⟨hflat, ?_⟩, ?_⟩
  · intro c hc
    rcases List.mem_append.mp hc with hc | hc
    · exact (chunking_bytes before).2 c hc
    · rcases List.mem_cons.mp hc with rfl | hc
      · refine ⟨fun hnil => ?_, ?_⟩
        · rw [hnil] at hpieceLength
          cases hpieceLength
        · omega
      · exact (chunking_bytes after).2 c hc
  · rw [recvHttpRequest_eq hhead hflat, if_pos ⟨hnonneg, hbound⟩, hn, readUntil_length]
    · rw [Option.map_some, List.nil_append, (chunking_bytes before).1, hread]
    · rw [List.nil_append, (chunking_bytes before).1]
      omega
    · rw [List.nil_append, (chunking_bytes before).1, List.length_append]
      omega

/-- **When the body of a request is what its headers announce.** Take any
stream. A request is read or not, and its body is the announced number of
bytes behind the headers, however the stream arrives, exactly if no request
is read anyhow – there is no empty line, the number in the text of the
headers is negative or over 4096, or the stream ends within the body – or
nothing follows the body, and the header field announces the number that the
text states. -/
theorem body_as_announced_iff (s : Bytes) :
    BodyAsAnnounced s ↔ ∀ head rest n, IsHead head → s = head ++ rest → States head n →
      0 ≤ n → n ≤ 4096 → n ≤ rest.length →
        (rest.length : ℤ) = n ∧ announced head = some n.toNat := by
  constructor
  · rintro hs head rest n hhead rfl hstates hnonneg hbound henough
    have hextract := (states_iff hhead).mp hstates
    subst hextract
    -- one piece ends with the body, and one has a byte more
    obtain ⟨chunks, hchunks, hread⟩ := exists_chunking rest (k := 0) hhead hnonneg hbound
      (by decide) (by omega)
    rw [Nat.add_zero] at hread
    obtain ⟨-, head', rest', m, hhead', hsame, hannounced, hm, hbody⟩ :=
      (hs chunks chunks hchunks hchunks).2 _ _ hread hread
    obtain ⟨rfl, rfl⟩ := hhead.unique hhead' hsame
    rw [getRequestBody_append hhead] at hbody
    have hlengths := congrArg List.length hbody
    rw [List.length_take, List.length_take] at hlengths
    refine ⟨?_, ?_⟩
    · by_contra hmore
      obtain ⟨chunks', hchunks', hread'⟩ := exists_chunking rest (k := 1) hhead hnonneg
        hbound (by decide) (by omega)
      have hbodies := ((hs chunks chunks' hchunks hchunks').2 _ _ hread hread').1
      rw [getRequestBody_append hhead, getRequestBody_append hhead] at hbodies
      have hdiffer := congrArg List.length hbodies
      rw [List.length_take, List.length_take] at hdiffer
      omega
    · rw [hannounced]
      congr 1
      omega
  · intro hcondition chunks chunks' hchunks hchunks'
    cases hfirst : firstOccurrence emptyLine s with
    | none =>
      rw [recvHttpRequest_eq_none hfirst hchunks.1, recvHttpRequest_eq_none hfirst hchunks'.1]
      exact ⟨rfl, fun _ _ h => by cases h⟩
    | some i =>
      obtain ⟨head, rest, hhead, rfl⟩ := exists_head hfirst
      have hreads := fun {cs : List Bytes} (hcs : Chunking (head ++ rest) cs) =>
        recvHttpRequest_eq hhead hcs.1
      by_cases hrange : 0 ≤ extractContentLength head
          ∧ extractContentLength head ≤ apiBufferSize
      · have hsome : ∀ {cs : List Bytes}, Chunking (head ++ rest) cs →
            (recvHttpRequest cs).isSome
              = decide (head.length + (extractContentLength head).toNat
                ≤ (head ++ rest).length) := by
          intro cs hcs
          rw [hreads hcs, if_pos hrange, Option.isSome_map,
            readUntil_isSome_iff (fun r t hr => ?_), List.nil_append, hcs.1]
          simp only [decide_eq_true_eq, List.length_append] at hr ⊢
          omega
        -- what is read is the whole stream
        have hwhole : ∀ {cs : List Bytes} {request : Bytes}, Chunking (head ++ rest) cs →
            recvHttpRequest cs = some request → request = head ++ rest
              ∧ announced head = some rest.length := by
          intro cs request hcs hread
          have henough := hsome hcs
          rw [hread, Option.isSome_some, eq_comm, decide_eq_true_eq, List.length_append] at henough
          obtain ⟨hlength, hannounced⟩ := hcondition head rest _ hhead rfl
            ((states_iff hhead).mpr rfl) hrange.1 hrange.2 (by omega)
          rw [hreads hcs, if_pos hrange] at hread
          obtain ⟨⟨result, left⟩, hresult, rfl⟩ := Option.map_eq_some_iff.mp hread
          obtain ⟨hall, hdone⟩ := readUntil_spec hresult
          rw [List.nil_append, hcs.1] at hall
          have hleft := congrArg List.length hall
          have htarget := of_decide_eq_true hdone
          rw [List.length_append, List.length_append] at hleft
          have hnil : left.flatten = [] := List.eq_nil_of_length_eq_zero (by omega)
          rw [hnil, List.append_nil] at hall
          refine ⟨hall, ?_⟩
          rw [hannounced]
          congr 1
          omega
        refine ⟨by rw [hsome hchunks, hsome hchunks'], fun request request' h h' => ?_⟩
        obtain ⟨rfl, hannounced⟩ := hwhole hchunks h
        obtain ⟨rfl, -⟩ := hwhole hchunks' h'
        refine ⟨rfl, head, rest, rest.length, hhead, rfl, hannounced, le_rfl, ?_⟩
        rw [getRequestBody_append hhead, List.take_length]
      · rw [hreads hchunks, hreads hchunks', if_neg hrange, if_neg hrange]
        exact ⟨rfl, fun _ _ h => by cases h⟩

/-- A field name in lower case announces a body that is not waited for. -/
example : announced (ascii "POST /send HTTP/1.1\r\ncontent-length: 2\r\n\r\n") = some 2
    ∧ extractContentLength (ascii "POST /send HTTP/1.1\r\ncontent-length: 2\r\n\r\n") = 0 := by
  decide +kernel

/-- **A byte behind the body becomes part of it**, or not. -/
theorem body_depends_on_segmentation :
    ¬ BodyAsAnnounced (ascii "POST /send HTTP/1.1\r\nContent-Length: 2\r\n\r\nokX") := by
  intro h
  have hdiffer := ((h [ascii "POST /send HTTP/1.1\r\nContent-Length: 2\r\n\r\nokX"]
    [ascii "POST /send HTTP/1.1\r\nContent-Length: 2\r\n\r\nok", ascii "X"]
    ⟨by decide, by decide⟩ ⟨by decide, by decide⟩).2
    (ascii "POST /send HTTP/1.1\r\nContent-Length: 2\r\n\r\nokX")
    (ascii "POST /send HTTP/1.1\r\nContent-Length: 2\r\n\r\nok")
    (by decide +kernel) (by decide +kernel)).1
  exact absurd hdiffer (by decide +kernel)

end ApiServer

end Gasoline
