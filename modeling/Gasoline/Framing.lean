import Gasoline.Bytes

/-!
# Protocol v2 framing

Each direction of a session is a byte stream: ten preface bytes, then
records, each a two-byte network-order length followed by that many
payload bytes. The encoder is one function. The decoder is the
incremental `RecordParser`: the receive loop hands it whatever `recv`
returned, and it calls a handler once per complete record.

`consume` is three nested loops over the unread input, and what one
iteration of the outer loop does depends on the phase the parser is in.
The model keeps that shape: `iterate` is one pass through the outer
loop's body, `consumeLoop` repeats it, and the fields are the members of
the class. Nothing bounds the loop but the input it eats, so the model
runs it on fuel – as many iterations as there are unread bytes – and
`RecordParser.consume_eq_iterate` says that this is enough from every
state the parser can be in.

A handler is an arbitrary function of a state of its own, so that it may
depend on every record seen so far; it may also throw.
-/

namespace Gasoline

/-- The wire version, `WIRE_VERSION`. -/
def wireVersion : ℕ := 2

/-- The length of the preface, `PREFACE_SIZE`. -/
def prefaceSize : ℕ := 10

/-- The length of a record header, `RECORD_HEADER_SIZE`. -/
def recordHeaderSize : ℕ := 2

/-- The largest payload a header can announce, `MAX_RECORD_SIZE`. -/
def maxRecordSize : ℕ := 65535

/-- The preface: the ASCII magic `GASOLINE` and the network-order
version. -/
def prefaceBytes : Bytes :=
  [0x47, 0x41, 0x53, 0x4f, 0x4c, 0x49, 0x4e, 0x45,
    UInt8.ofNat ((wireVersion >>> 8) &&& 0xff), UInt8.ofNat (wireVersion &&& 0xff)]

@[simp] theorem length_prefaceBytes : prefaceBytes.length = prefaceSize := rfl

/-- `encode_record`: the two length bytes, then the payload. A payload no
header can announce is refused. -/
def encodeRecord (payload : Bytes) : Except String Bytes :=
  if payload.length > maxRecordSize then
    .error "protocol v2 record exceeds 16-bit length limit"
  else
    .ok (UInt8.ofNat ((payload.length >>> 8) &&& 0xff)
      :: UInt8.ofNat (payload.length &&& 0xff) :: payload)

/-- The ways a stream can be malformed. -/
inductive FramingErrorCode
  | invalidPreface
  | oversizedRecord
  | truncatedPreface
  | truncatedHeader
  | truncatedPayload
  | parserFinished
  deriving DecidableEq, Repr

/-- `FramingError`: the code and the text the exception carries. -/
structure FramingError where
  /-- What `code()` returns. -/
  code : FramingErrorCode
  /-- What `what()` returns. -/
  message : String
  deriving DecidableEq, Repr

/-- What one call of the handler does: return a verdict, or throw. -/
inductive HandlerResult
  | returned (keepProcessing : Bool)
  | threw
  deriving DecidableEq, Repr

/-- A record handler with a state `σ` of its own. -/
abbrev RecordHandler (σ : Type) := σ → Bytes → HandlerResult × σ

/-- How a call of `consume` ends. -/
inductive ConsumeExit
  /-- The call returned: `true` once the input is used up, `false` when the
  handler asked to stop. -/
  | returned (result : Bool)
  /-- A `FramingError` was thrown. -/
  | failed (error : FramingError)
  /-- The handler's own exception went through. -/
  | handlerThrew
  deriving DecidableEq, Repr

/-- The phases of the parser. -/
inductive Phase
  | preface
  | header
  | payload
  deriving DecidableEq, Repr

/-- **The incremental parser**, member by member. -/
structure RecordParser where
  maximumRecordSize : ℕ
  phase : Phase
  prefaceOffset : ℕ
  header : Vector UInt8 2
  headerOffset : ℕ
  expectedPayloadSize : ℕ
  payload : Bytes
  failed : Bool
  finished : Bool
  deriving DecidableEq, Repr

namespace RecordParser

/-- A parser that has seen nothing. -/
def initial (maximumRecordSize : ℕ) : RecordParser where
  maximumRecordSize := maximumRecordSize
  phase := .preface
  prefaceOffset := 0
  header := #v[0, 0]
  headerOffset := 0
  expectedPayloadSize := 0
  payload := []
  failed := false
  finished := false

/-- The constructor refuses a limit no header can announce. -/
def create (maximumRecordSize : ℕ) : Except String RecordParser :=
  if maximumRecordSize > maxRecordSize then
    .error "record parser limit exceeds protocol v2 maximum"
  else
    .ok (initial maximumRecordSize)

/-- `fail`: the parser is marked before the exception leaves. -/
def fail (p : RecordParser) (code : FramingErrorCode) (message : String) :
    RecordParser × FramingError :=
  ({ p with failed := true }, ⟨code, message⟩)

/-- Subtraction of two `size_t` values, which wraps below zero. -/
def sizeSub (a b : ℕ) : ℕ := (a + 2 ^ 64 - b) % 2 ^ 64

/-- The inner loop of the preface phase: compare byte by byte until the
preface or the input is used up. -/
def prefaceLoop : RecordParser → Bytes →
    Except (RecordParser × FramingError) (RecordParser × Bytes)
  | p, [] => .ok (p, [])
  | p, b :: input =>
    if p.prefaceOffset < prefaceBytes.length then
      if prefaceBytes[p.prefaceOffset]? ≠ some b then
        .error (p.fail .invalidPreface "invalid protocol v2 preface or version")
      else
        prefaceLoop { p with prefaceOffset := p.prefaceOffset + 1 } input
    else
      .ok (p, b :: input)

/-- The inner loop of the header phase: store bytes until the header or
the input is used up. -/
def headerLoop : RecordParser → Bytes → RecordParser × Bytes
  | p, [] => (p, [])
  | p, b :: input =>
    if p.headerOffset < recordHeaderSize then
      headerLoop { p with
        header := p.header.setIfInBounds p.headerOffset b
        headerOffset := p.headerOffset + 1 } input
    else
      (p, b :: input)

/-- The length a complete header announces. -/
def announced (p : RecordParser) : ℕ :=
  (p.header[0].toNat <<< 8) ||| p.header[1].toNat

variable {σ : Type}

/-- What one pass through the body of the outer loop leaves: either the
loop goes on with the unread input, or the call ends. -/
inductive Iteration (σ : Type)
  | next (parser : RecordParser) (state : σ) (input : Bytes)
  | exit (parser : RecordParser) (state : σ) (outcome : ConsumeExit)

/-- A pass in the preface phase. -/
def iteratePreface (p : RecordParser) (s : σ) (input : Bytes) : Iteration σ :=
  match prefaceLoop p input with
  | .error (p, error) => .exit p s (.failed error)
  | .ok (p, input) =>
    if p.prefaceOffset = prefaceBytes.length then
      .next { p with phase := .header } s input
    else
      .next p s input

/-- What follows a complete header. The length is checked before anything
is reserved for it, and a record of length zero is delivered on the
spot. -/
def headerComplete (handler : RecordHandler σ) (p : RecordParser) (s : σ)
    (input : Bytes) : Iteration σ :=
  let p := { p with expectedPayloadSize := p.announced, headerOffset := 0 }
  if p.expectedPayloadSize > p.maximumRecordSize then
    match p.fail .oversizedRecord "protocol v2 record exceeds configured limit" with
    | (p, error) => .exit p s (.failed error)
  else if p.expectedPayloadSize = 0 then
    let p := { p with payload := [] }
    match handler s [] with
    | (.threw, s) => .exit p s .handlerThrew
    | (.returned false, s) => .exit { p with failed := true } s (.returned false)
    | (.returned true, s) => .next p s input
  else
    .next { p with payload := [], phase := .payload } s input

/-- A pass in the header phase. -/
def iterateHeader (handler : RecordHandler σ) (p : RecordParser) (s : σ)
    (input : Bytes) : Iteration σ :=
  match headerLoop p input with
  | (p, input) =>
    if p.headerOffset ≠ recordHeaderSize then
      .next p s input
    else
      headerComplete handler p s input

/-- What follows the last byte of a payload. The phase is reset before the
handler runs, the buffer after it. -/
def payloadComplete (handler : RecordHandler σ) (p : RecordParser) (s : σ)
    (input : Bytes) : Iteration σ :=
  let p := { p with phase := .header, expectedPayloadSize := 0 }
  match handler s p.payload with
  | (.threw, s) => .exit p s .handlerThrew
  | (.returned false, s) =>
    .exit { p with payload := [], failed := true } s (.returned false)
  | (.returned true, s) => .next { p with payload := [] } s input

/-- A pass in the payload phase. -/
def iteratePayload (handler : RecordHandler σ) (p : RecordParser) (s : σ)
    (input : Bytes) : Iteration σ :=
  let remaining := sizeSub p.expectedPayloadSize p.payload.length
  let count := min remaining input.length
  let p := { p with payload := p.payload ++ input.take count }
  let input := input.drop count
  if p.payload.length = p.expectedPayloadSize then
    payloadComplete handler p s input
  else
    .next p s input

/-- One pass through the body of the outer loop. -/
def iterate (handler : RecordHandler σ) (p : RecordParser) (s : σ)
    (input : Bytes) : Iteration σ :=
  match p.phase with
  | .preface => iteratePreface p s input
  | .header => iterateHeader handler p s input
  | .payload => iteratePayload handler p s input

/-- The outer loop, for at most `fuel` passes: `none` when they do not use
the input up. -/
def consumeLoop (handler : RecordHandler σ) :
    ℕ → RecordParser → σ → Bytes → Option (RecordParser × σ × ConsumeExit)
  | _, p, s, [] => some (p, s, .returned true)
  | 0, _, _, _ :: _ => none
  | fuel + 1, p, s, b :: input =>
    match iterate handler p s (b :: input) with
    | .next p s input => consumeLoop handler fuel p s input
    | .exit p s outcome => some (p, s, outcome)

/-- **`consume`**: refuse a parser that is done for, else run the loop. -/
def consume (handler : RecordHandler σ) (p : RecordParser) (s : σ) (input : Bytes) :
    Option (RecordParser × σ × ConsumeExit) :=
  if p.failed || p.finished then
    match p.fail .parserFinished "protocol v2 parser is not accepting input" with
    | (p, error) => some (p, s, .failed error)
  else
    consumeLoop handler input.length p s input

/-- **`finish`**: end of stream, clean only at a record boundary. -/
def finish (p : RecordParser) : RecordParser × Except FramingError Unit :=
  if p.failed then
    let (p, error) := p.fail .parserFinished "protocol v2 parser already failed"
    (p, .error error)
  else if p.finished then
    (p, .ok ())
  else if p.phase = .preface then
    let (p, error) := p.fail .truncatedPreface "truncated protocol v2 preface"
    (p, .error error)
  else if p.phase = .payload then
    let (p, error) := p.fail .truncatedPayload "truncated protocol v2 record payload"
    (p, .error error)
  else if p.headerOffset ≠ 0 then
    let (p, error) := p.fail .truncatedHeader "truncated protocol v2 record header"
    (p, .error error)
  else
    ({ p with finished := true }, .ok ())

/-- `preface_complete`. -/
def prefaceComplete (p : RecordParser) : Bool := p.phase != .preface

/-- `buffered_payload_size`. -/
def bufferedPayloadSize (p : RecordParser) : ℕ := p.payload.length

end RecordParser

end Gasoline
