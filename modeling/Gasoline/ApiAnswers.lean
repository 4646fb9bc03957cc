import Gasoline.ApiResponses

/-!
# What the control API answers

What the calls of a thread return decides what it answers (`Answer`), and
there is one answer (`Answer.unique`). A client's request is read piece by
piece, and the thread has read a request just when `recv_http_request` of all
the pieces returns (`HasRead`); from there on it is followed to its response,
or to what its `dump()` throws (`Serves`).
-/

namespace Gasoline

namespace ApiServer

/-! ## Reading a request -/

/-- **The thread has read these pieces and needs more.** -/
inductive Reads (chunks : List Bytes) : Stage → Prop
  | head (h : firstOccurrence emptyLine chunks.flatten = none) :
      Reads chunks (.readHead chunks.flatten)
  | body {head rest : Bytes} (hhead : IsHead head) (hrest : chunks.flatten = head ++ rest)
      (hrange : 0 ≤ extractContentLength head ∧ extractContentLength head ≤ apiBufferSize)
      (hshort : chunks.flatten.length < head.length + (extractContentLength head).toNat) :
      Reads chunks (.readBody chunks.flatten (head.length + (extractContentLength head).toNat))

/-- **What is known of a request once it is read, or not.** -/
inductive HasRead (lib : JsonLibrary) (chunks : List Bytes) : Stage → Prop
  | more {stage : Stage} (h : Reads chunks stage) : HasRead lib chunks stage
  | refused {head rest : Bytes} (hhead : IsHead head) (hrest : chunks.flatten = head ++ rest)
      (hrange : ¬ (0 ≤ extractContentLength head ∧ extractContentLength head ≤ apiBufferSize)) :
      HasRead lib chunks (.responding .incomplete)
  | done {request : Bytes} (h : recvHttpRequest chunks = some request)
      (hline : (firstOccurrence emptyLine request).isSome) :
      HasRead lib chunks (.dispatch lib request)

/-- The headers of a text with an empty line. -/
theorem IsHead.take_eq {head rest : Bytes} {headersEnd : ℕ} (hhead : IsHead head)
    (h : firstOccurrence emptyLine (head ++ rest) = some headersEnd) :
    headersEnd + 4 = head.length ∧ (head ++ rest).take (headersEnd + 4) = head := by
  rw [firstOccurrence_of_isHead hhead rest] at h
  have hsame := Option.some.inj h
  have hfour := hhead.length
  have hlength : headersEnd + 4 = head.length := by omega
  refine ⟨hlength, ?_⟩
  rw [hlength, List.take_left]

/-- A text without an empty line is shorter than the headers that it begins. -/
theorem length_lt_of_none {s data head rest : Bytes} (h : firstOccurrence emptyLine s = none)
    (hhead : IsHead head) (heq : s ++ data = head ++ rest) : s.length < head.length := by
  by_contra hle
  obtain ⟨t, ht⟩ := List.prefix_of_prefix_length_le (List.prefix_append head rest)
    (heq ▸ List.prefix_append s data) (not_lt.mp hle)
  rw [← ht, firstOccurrence_of_isHead hhead t] at h
  cases h

/-- A request that is not complete is not read. -/
theorem recvHttpRequest_eq_none_of_lt {head rest : Bytes} {chunks : List Bytes}
    (hhead : IsHead head) (hchunks : chunks.flatten = head ++ rest)
    (hshort : chunks.flatten.length < head.length + (extractContentLength head).toNat) :
    recvHttpRequest chunks = none := by
  rw [recvHttpRequest_eq hhead hchunks]
  split
  · have hread : (readUntil (fun r => decide (head.length + (extractContentLength head).toNat
        ≤ r.length)) [] chunks).isSome = false := by
      rw [readUntil_isSome_iff, List.nil_append, decide_eq_false (not_le.mpr hshort)]
      intro r t hr
      simp only [decide_eq_true_eq, List.length_append] at hr ⊢
      omega
    rw [Option.isSome_eq_false_iff, Option.isNone_iff_eq_none] at hread
    rw [hread, Option.map_none]
  · rfl

/-- A request that is being read is not read yet. -/
theorem Reads.eq_none {chunks : List Bytes} {stage : Stage} (h : Reads chunks stage) :
    recvHttpRequest chunks = none := by
  cases h with
  | head h => exact recvHttpRequest_eq_none h rfl
  | body hhead hrest _ hshort => exact recvHttpRequest_eq_none_of_lt hhead hrest hshort

theorem recvHttpRequest_concat {head rest data : Bytes} {chunks : List Bytes} (hhead : IsHead head)
    (hchunks : chunks.flatten ++ data = head ++ rest)
    (hrange : 0 ≤ extractContentLength head ∧ extractContentLength head ≤ apiBufferSize)
    (hshort : chunks.flatten.length < head.length + (extractContentLength head).toNat)
    (henough : head.length + (extractContentLength head).toNat ≤ (chunks.flatten ++ data).length) :
    recvHttpRequest (chunks ++ [data]) = some (chunks.flatten ++ data) := by
  have hflatten : (chunks ++ [data]).flatten = head ++ rest := by simp [hchunks]
  rw [recvHttpRequest_eq hhead hflatten, if_pos hrange]
  exact congrArg (Option.map Prod.fst)
    (readUntil_length (show ([] ++ chunks.flatten).length < _ from hshort) henough)

/-- **The second loop goes on**, when the headers are read. -/
theorem HasRead.readingBody (lib : JsonLibrary) {head rest data : Bytes} {chunks : List Bytes}
    (hhead : IsHead head) (hchunks : chunks.flatten ++ data = head ++ rest)
    (hrange : 0 ≤ extractContentLength head ∧ extractContentLength head ≤ apiBufferSize)
    (hshort : chunks.flatten.length < head.length + (extractContentLength head).toNat) :
    HasRead lib (chunks ++ [data])
      (.readingBody lib (chunks.flatten ++ data)
        (head.length + (extractContentLength head).toNat)) := by
  have hflatten : (chunks ++ [data]).flatten = chunks.flatten ++ data := by simp
  unfold Stage.readingBody
  split
  · rename_i hmore
    rw [← hflatten] at hchunks hmore ⊢
    exact .more (.body hhead hchunks hrange hmore)
  · rename_i henough
    refine .done (recvHttpRequest_concat hhead hchunks hrange hshort (not_lt.mp henough)) ?_
    rw [hchunks, firstOccurrence_of_isHead hhead rest]
    rfl

theorem HasRead.readingHead (lib : JsonLibrary) {chunks : List Bytes} {data : Bytes}
    (h : firstOccurrence emptyLine chunks.flatten = none) :
    HasRead lib (chunks ++ [data]) (.readingHead lib (chunks.flatten ++ data)) := by
  have hflatten : (chunks ++ [data]).flatten = chunks.flatten ++ data := by simp
  unfold Stage.readingHead
  cases hfirst : firstOccurrence emptyLine (chunks.flatten ++ data) with
  | none =>
    rw [← hflatten] at hfirst ⊢
    exact .more (.head hfirst)
  | some headersEnd =>
    obtain ⟨head, rest, hhead, heq⟩ := exists_head hfirst
    obtain ⟨hlength, htake⟩ := hhead.take_eq (heq ▸ hfirst)
    rw [← heq, hlength] at htake
    simp only [hlength, htake]
    split
    · rename_i hout
      refine .refused hhead (hflatten.trans heq) ?_
      simp only [Bool.or_eq_true, decide_eq_true_eq] at hout
      omega
    · rename_i hin
      have hrange : 0 ≤ extractContentLength head ∧ extractContentLength head ≤ apiBufferSize := by
        simpa using hin
      refine .readingBody lib hhead heq hrange ?_
      exact (length_lt_of_none h hhead heq).trans_le (Nat.le_add_right _ _)

/-- **A piece arrives.** -/
theorem HasRead.recv (lib : JsonLibrary) {c : Client} {data : Bytes} (h : Reads c.chunks c.stage)
    (hdata : data ≠ [] ∧ data.length ≤ apiBufferSize) :
    ∃ stage, Daemon.recv lib c (some data)
        = some { c with stage := stage, chunks := c.chunks ++ [data] }
      ∧ HasRead lib (c.chunks ++ [data]) stage := by
  obtain ⟨stage, chunks, accepted, failed, closes⟩ := c
  have hguard : ¬ (data.isEmpty || decide (apiBufferSize < data.length)) = true := by
    simp [hdata.1, hdata.2]
  change Reads chunks stage at h
  unfold Daemon.recv
  cases h with
  | head h =>
    refine ⟨_, ?_, .readingHead lib h⟩
    simp only [if_neg hguard]
  | @body head rest hhead hrest hrange hshort =>
    have hchunks : chunks.flatten ++ data = head ++ (rest ++ data) := by
      rw [← List.append_assoc, ← hrest]
    refine ⟨_, ?_, .readingBody lib hhead hchunks hrange hshort⟩
    simp only [if_neg hguard]

/-! ## What a client is answered -/

/-- **What the calls of a thread have returned**: the pieces of its request,
the registry that `handle_get_devices` copied, the batches that
`consume_events` took, and what `send_packet` threw. -/
structure Inputs where
  chunks : List Bytes
  listed : Option (List Device)
  taken : List (List MessageEvent)
  threw : Option Bytes

/-- Besides `recv`, just these calls have returned. -/
def Inputs.Only (x : Inputs) (listed : Option (List Device)) (taken : List (List MessageEvent))
    (threw : Option Bytes) : Prop :=
  x.listed = listed ∧ x.taken = taken ∧ x.threw = threw

/-- What the calls of a client's thread have returned, with the batches it has
taken. -/
def Client.inputs (c : Client) (taken : List (List MessageEvent)) : Inputs :=
  ⟨c.chunks, c.listed, taken, c.threw⟩

/-- The request asks for a message to be sent. -/
def Asks (lib : JsonLibrary) (requestBody : Bytes) : Prop :=
  ∃ body deviceId text, lib.parse requestBody = .ok body
    ∧ body.find (ascii "device_id") = some (.string deviceId)
    ∧ body.find (ascii "text") = some (.string text)

/-- **What is thrown in `handle_post_send`**: the body is not parsed, one of
the values is no string, or `send_packet` throws. -/
inductive Throws (lib : JsonLibrary) (x : Inputs) (requestBody : Bytes) : Bytes → Prop
  | parse {what : Bytes} (h : lib.parse requestBody = .error what) (honly : x.Only none [] none) :
      Throws lib x requestBody what
  | deviceId {body value text : Json} (hparse : lib.parse requestBody = .ok body)
      (hid : body.find (ascii "device_id") = some value)
      (htext : body.find (ascii "text") = some text) (hvalue : value.text = none)
      (honly : x.Only none [] none) : Throws lib x requestBody (lib.typeError value)
  | text {body value : Json} {deviceId : Bytes} (hparse : lib.parse requestBody = .ok body)
      (hid : body.find (ascii "device_id") = some (.string deviceId))
      (htext : body.find (ascii "text") = some value) (hvalue : value.text = none)
      (honly : x.Only none [] none) : Throws lib x requestBody (lib.typeError value)
  | sendPacket {what : Bytes} (hasks : Asks lib requestBody)
      (honly : x.Only none [] (some what)) : Throws lib x requestBody what

/-- **What a thread dumps into its response**: the response without its body,
and the body. -/
inductive Dumps (lib : JsonLibrary) (myDeviceId : Bytes) (x : Inputs) : Response → Json → Prop
  | devices {request : Bytes} (hread : recvHttpRequest x.chunks = some request)
      (hroute : route request = .devices) {registry : List Device}
      (honly : x.Only (some registry) [] none) :
      Dumps lib myDeviceId x (.json 200 "OK" []) (.array (registry.map (deviceItem myDeviceId)))
  | events {request : Bytes} (hread : recvHttpRequest x.chunks = some request)
      (hroute : route request = .events) {batch : List MessageEvent}
      (honly : x.Only none [batch] none) :
      Dumps lib myDeviceId x (.json 200 "OK" []) (.array (batch.map eventItem))
  | error {request body : Bytes} (hread : recvHttpRequest x.chunks = some request)
      (hroute : route request = .send body) {what : Bytes} (hwhat : Throws lib x body what) :
      Dumps lib myDeviceId x (.json 400 "Bad Request" []) (.object [(ascii "error", .string what)])

/-- **The response to a request**, when the calls of the thread have returned
this. -/
inductive Answer (lib : JsonLibrary) (myDeviceId : Bytes) (x : Inputs) : Response → Prop
  | incomplete (hread : recvHttpRequest x.chunks = none) (honly : x.Only none [] none) :
      Answer lib myDeviceId x .incomplete
  | options {request : Bytes} (hread : recvHttpRequest x.chunks = some request)
      (hroute : route request = .options) (honly : x.Only none [] none) :
      Answer lib myDeviceId x .noContent
  | notFound {request : Bytes} (hread : recvHttpRequest x.chunks = some request)
      (hroute : route request = .notFound) (honly : x.Only none [] none) :
      Answer lib myDeviceId x .notFound
  | missingFields {request requestBody : Bytes} (hread : recvHttpRequest x.chunks = some request)
      (hroute : route request = .send requestBody) {body : Json}
      (hparse : lib.parse requestBody = .ok body)
      (hmissing : body.find (ascii "device_id") = none ∨ body.find (ascii "text") = none)
      (honly : x.Only none [] none) : Answer lib myDeviceId x .missingFields
  | queued {request body : Bytes} (hread : recvHttpRequest x.chunks = some request)
      (hroute : route request = .send body) (hasks : Asks lib body)
      (honly : x.Only none [] none) : Answer lib myDeviceId x .queued
  | dumped {r : Response} {body : Json} {text : Bytes} (h : Dumps lib myDeviceId x r body)
      (htext : lib.dump body = some text) : Answer lib myDeviceId x { r with body := text }

section Unique

variable {lib : JsonLibrary} {myDeviceId requestBody : Bytes} {x : Inputs}

/-- What is thrown is determined by the request and by what the calls return. -/
theorem Throws.unique {what what' : Bytes} (h : Throws lib x requestBody what)
    (h' : Throws lib x requestBody what') : what = what' := by
  cases h with
  | parse h honly => cases h' <;> grind [Inputs.Only, Asks]
  | deviceId hparse hid htext hvalue honly => cases h' <;> grind [Inputs.Only, Asks, Json.text]
  | text hparse hid htext hvalue honly => cases h' <;> grind [Inputs.Only, Asks, Json.text]
  | sendPacket hasks honly => cases h' <;> grind [Inputs.Only, Asks, Json.text]

/-- Where nothing is missing and `send_packet` returns, nothing is thrown. -/
theorem Throws.not_queued {what : Bytes} (h : Throws lib x requestBody what)
    (hasks : Asks lib requestBody) (honly : x.Only none [] none) : False := by
  cases h <;> grind [Inputs.Only, Asks, Json.text]

/-- Where a field is missing, nothing is thrown. -/
theorem Throws.not_missing {what : Bytes} (h : Throws lib x requestBody what) {body : Json}
    (hparse : lib.parse requestBody = .ok body)
    (hmissing : body.find (ascii "device_id") = none ∨ body.find (ascii "text") = none) :
    False := by
  cases h <;> grind [Asks]

theorem Dumps.unique {r r' : Response} {body body' : Json} (h : Dumps lib myDeviceId x r body)
    (h' : Dumps lib myDeviceId x r' body') : r = r' ∧ body = body' := by
  cases h with
  | devices hread hroute honly => cases h' <;> grind [Inputs.Only]
  | events hread hroute honly => cases h' <;> grind [Inputs.Only]
  | error hread hroute hwhat => cases h' <;> grind [Throws.unique]

theorem Dumps.reads {r : Response} {body : Json} (h : Dumps lib myDeviceId x r body) :
    ∃ request, recvHttpRequest x.chunks = some request
      ∧ (route request = .devices ∨ route request = .events
        ∨ ∃ requestBody what, route request = .send requestBody
          ∧ Throws lib x requestBody what) := by
  cases h with
  | devices hread hroute honly => exact ⟨_, hread, .inl hroute⟩
  | events hread hroute honly => exact ⟨_, hread, .inr (.inl hroute)⟩
  | error hread hroute hwhat => exact ⟨_, hread, .inr (.inr ⟨_, _, hroute, hwhat⟩)⟩

/-- **The response is determined** by the pieces of the request and by what
the calls of the thread return. -/
theorem Answer.unique {r r' : Response} (h : Answer lib myDeviceId x r)
    (h' : Answer lib myDeviceId x r') : r = r' := by
  cases h with
  | incomplete hread honly => cases h' <;> grind [Dumps.reads]
  | options hread hroute honly => cases h' <;> grind [Dumps.reads]
  | notFound hread hroute honly => cases h' <;> grind [Dumps.reads]
  | missingFields hread hroute hparse hmissing honly =>
    cases h' <;> grind [Dumps.reads, Throws.not_missing, Asks]
  | queued hread hroute hasks honly =>
    cases h' <;> grind [Dumps.reads, Throws.not_queued, Asks]
  | dumped hdumps htext =>
    cases h' with
    | dumped hdumps' htext' =>
      obtain ⟨rfl, rfl⟩ := hdumps.unique hdumps'
      rw [Option.some.inj (htext.symm.trans htext')]
    | missingFields => grind [Dumps.reads, Throws.not_missing]
    | queued => grind [Dumps.reads, Throws.not_queued]
    | _ => grind [Dumps.reads]

end Unique

namespace Stage

/-- The thread reads a request. -/
def isReading : Stage → Bool
  | .readHead _ => true
  | .readBody _ _ => true
  | _ => false

/-- The thread is in `send_to_device`. -/
def sends : Stage → Bool
  | .lookup _ _ => true
  | .lock _ _ => true
  | .sendPacket _ _ => true
  | .sending _ => true
  | _ => false

/-- The response the thread sends or has sent. -/
def answer? : Stage → Option Response
  | .respond response _ => some response
  | .close response => response
  | .finished response => response
  | _ => none

end Stage

/-- **What a thread has come to.** An exception that leaves it is what its
`dump()` throws. -/
inductive Serves (lib : JsonLibrary) (myDeviceId : Bytes) (x : Inputs) : Stage → Prop
  | reading {stage : Stage} (h : Reads x.chunks stage) (honly : x.Only none [] none) :
      Serves lib myDeviceId x stage
  | devices {request : Bytes} (hread : recvHttpRequest x.chunks = some request)
      (hroute : route request = .devices) (honly : x.Only none [] none) :
      Serves lib myDeviceId x .devices
  | events {request : Bytes} (hread : recvHttpRequest x.chunks = some request)
      (hroute : route request = .events) (honly : x.Only none [] none) :
      Serves lib myDeviceId x .events
  | sending {request body : Bytes} (hread : recvHttpRequest x.chunks = some request)
      (hroute : route request = .send body) (hasks : Asks lib body) {stage : Stage}
      (hstage : stage.sends = true) (honly : x.Only none [] none) : Serves lib myDeviceId x stage
  | answering {response : Response} (h : Answer lib myDeviceId x response) {stage : Stage}
      (hstage : stage.answer? = some response) : Serves lib myDeviceId x stage
  | terminated {r : Response} {body : Json} (h : Dumps lib myDeviceId x r body)
      (hthrows : lib.dump body = none) : Serves lib myDeviceId x .terminated

theorem Json.eq_string_of_text {value : Json} {text : Bytes} (h : value.text = some text) :
    value = .string text := by
  cases value with
  | string value => exact congrArg Json.string (Option.some.inj h)
  | _ => cases h

/-- A request that is read has its empty line. -/
theorem route_ne_unterminated {request : Bytes}
    (hline : (firstOccurrence emptyLine request).isSome) : route request ≠ .unterminated := by
  intro h
  unfold route at h
  rw [if_neg (by simp [Option.isSome_iff_ne_none.mp hline])] at h
  split at h
  · cases h
  · dsimp only at h
    split_ifs at h

theorem route_ne_invalidLine {request : Bytes}
    (hline : (firstOccurrence emptyLine request).isSome) : route request ≠ .invalidLine := by
  obtain ⟨i, hi⟩ := Option.isSome_iff_exists.mp hline
  obtain ⟨hle, ⟨rest, hrest⟩, -⟩ := firstOccurrence_eq_some_iff.mp hi
  intro h
  unfold route at h
  rw [if_neg (by simp [Option.isSome_iff_ne_none.mp hline])] at h
  split at h
  · rename_i hnone
    exact firstOccurrence_eq_none_iff.mp hnone i hle ⟨13 :: 10 :: rest, hrest⟩
  · dsimp only at h
    split_ifs at h

section Serving

variable {lib : JsonLibrary} {myDeviceId : Bytes} {x : Inputs} {stage : Stage}

/-- **Every response stays within its lines.** -/
theorem Answer.oneLine {r : Response} (h : Answer lib myDeviceId x r) : r.OneLine := by
  have hjson : ∀ code body, (Response.json code "OK" body).OneLine
      ∧ (Response.json code "Bad Request" body).OneLine := by
    intro code body
    refine ⟨⟨?_, ?_⟩, ?_, ?_⟩
    · exact show 13 ∉ ascii "OK" by decide
    · exact show 13 ∉ ascii "application/json" by decide
    · exact show 13 ∉ ascii "Bad Request" by decide
    · exact show 13 ∉ ascii "application/json" by decide
  cases h with
  | incomplete _ _ => exact (hjson _ _).2
  | options _ _ _ => exact ⟨by decide, by decide⟩
  | notFound _ _ _ => exact ⟨by decide, by decide⟩
  | missingFields _ _ _ _ _ => exact (hjson _ _).2
  | queued _ _ _ _ => exact (hjson _ _).1
  | dumped h _ =>
    cases h with
    | devices _ _ _ => exact (hjson _ _).1
    | events _ _ _ => exact (hjson _ _).1
    | error _ _ _ => exact (hjson _ _).2

/-- Where something is thrown, nothing was listed or taken. -/
theorem Throws.only {requestBody what : Bytes} (h : Throws lib x requestBody what) :
    x.Only none [] none ∨ x.Only none [] (some what) := by
  cases h with
  | parse _ honly => exact .inl honly
  | deviceId _ _ _ _ honly => exact .inl honly
  | text _ _ _ _ honly => exact .inl honly
  | sendPacket _ honly => exact .inr honly

/-- What a thread dumps is the batch that it took, if it took one. -/
theorem Dumps.taken {r : Response} {body : Json} (h : Dumps lib myDeviceId x r body) :
    x.taken = [] ∨ ∃ batch, x.taken = [batch] ∧ r = .json 200 "OK" []
      ∧ body = .array (batch.map eventItem) := by
  cases h with
  | devices _ _ honly => exact .inl honly.2.1
  | events _ _ honly => exact .inr ⟨_, honly.2.1, rfl, rfl⟩
  | error _ _ hwhat =>
    rcases hwhat.only with honly | honly
    · exact .inl honly.2.1
    · exact .inl honly.2.1

/-- What a thread responds is the batch that it took, if it took one. -/
theorem Answer.taken {r : Response} (h : Answer lib myDeviceId x r) :
    x.taken = [] ∨ ∃ batch text, x.taken = [batch]
      ∧ lib.dump (.array (batch.map eventItem)) = some text ∧ r = .json 200 "OK" text := by
  cases h with
  | incomplete _ honly => exact .inl honly.2.1
  | options _ _ honly => exact .inl honly.2.1
  | notFound _ _ honly => exact .inl honly.2.1
  | missingFields _ _ _ _ honly => exact .inl honly.2.1
  | queued _ _ _ honly => exact .inl honly.2.1
  | @dumped r body text h htext =>
    rcases h.taken with hempty | ⟨batch, htaken, rfl, rfl⟩
    · exact .inl hempty
    · exact .inr ⟨batch, text, htaken, htext, rfl⟩

theorem Serves.length_le (h : Serves lib myDeviceId x stage) : x.taken.length ≤ 1 := by
  have hshort : x.taken = [] ∨ (∃ batch, x.taken = [batch]) → x.taken.length ≤ 1 := by
    rintro (hempty | ⟨batch, htaken⟩)
    · rw [hempty]
      exact Nat.zero_le 1
    · rw [htaken]
      exact le_rfl
  refine hshort ?_
  cases h with
  | reading _ honly => exact .inl honly.2.1
  | devices _ _ honly => exact .inl honly.2.1
  | events _ _ honly => exact .inl honly.2.1
  | sending _ _ _ _ honly => exact .inl honly.2.1
  | answering h _ =>
    rcases h.taken with hempty | ⟨batch, text, htaken, -, -⟩
    · exact .inl hempty
    · exact .inr ⟨batch, htaken⟩
  | terminated h _ =>
    rcases h.taken with hempty | ⟨batch, htaken, -, -⟩
    · exact .inl hempty
    · exact .inr ⟨batch, htaken⟩

theorem Serves.reads (h : Serves lib myDeviceId x stage) (hstage : stage.isReading = true) :
    x.Only none [] none ∧ Reads x.chunks stage := by
  cases h with
  | reading h honly => exact ⟨honly, h⟩
  | sending _ _ _ h _ => cases stage <;> first | (cases h; done) | cases hstage
  | answering _ h => cases stage <;> first | (cases h; done) | cases hstage
  | _ => cases hstage

/-- A thread in `send_to_device` was asked for it. -/
theorem Serves.sends (h : Serves lib myDeviceId x stage) (hstage : stage.sends = true) :
    x.Only none [] none ∧ ∃ request body, recvHttpRequest x.chunks = some request
      ∧ route request = .send body ∧ Asks lib body := by
  cases h with
  | reading h _ => cases h <;> cases hstage
  | sending hread hroute hasks _ honly => exact ⟨honly, _, _, hread, hroute, hasks⟩
  | answering _ h => cases stage <;> first | (cases h; done) | cases hstage
  | _ => cases hstage

/-- A thread at the registry was asked for it. -/
theorem Serves.of_devices (h : Serves lib myDeviceId x stage) (hstage : stage = .devices) :
    x.Only none [] none ∧ ∃ request, recvHttpRequest x.chunks = some request
      ∧ route request = .devices := by
  subst hstage
  cases h with
  | reading h _ => cases h
  | devices hread hroute honly => exact ⟨honly, _, hread, hroute⟩
  | sending _ _ _ h _ => cases h
  | answering _ h => cases h

/-- A thread at the event bus was asked for it. -/
theorem Serves.of_events (h : Serves lib myDeviceId x stage) (hstage : stage = .events) :
    x.Only none [] none ∧ ∃ request, recvHttpRequest x.chunks = some request
      ∧ route request = .events := by
  subst hstage
  cases h with
  | reading h _ => cases h
  | events hread hroute honly => exact ⟨honly, _, hread, hroute⟩
  | sending _ _ _ h _ => cases h
  | answering _ h => cases h

theorem Serves.answer (h : Serves lib myDeviceId x stage) {response : Response}
    (hstage : stage.answer? = some response) : Answer lib myDeviceId x response := by
  cases h with
  | reading h _ => cases h <;> cases hstage
  | sending _ _ _ h _ => cases stage <;> first | (cases h; done) | cases hstage
  | answering h h' =>
    rw [hstage] at h'
    cases h'
    exact h
  | _ => cases hstage

/-- No socket is closed without a response. -/
theorem Serves.exists_answer (h : Serves lib myDeviceId x stage) {response : Option Response}
    (hstage : stage = .close response ∨ stage = .finished response) :
    ∃ r, response = some r := by
  cases response with
  | some r => exact ⟨r, rfl⟩
  | none =>
    rcases hstage with rfl | rfl
    all_goals
      cases h with
      | reading h _ => cases h
      | sending _ _ _ h _ => cases h
      | answering _ h => cases h

theorem Serves.dumping {r : Response} {body : Json} (h : Dumps lib myDeviceId x r body) :
    Serves lib myDeviceId x (.dumping lib r body) := by
  unfold Stage.dumping
  cases hdump : lib.dump body with
  | none => exact .terminated h hdump
  | some text => exact .answering (.dumped h hdump) rfl

theorem Serves.postSend {request body : Bytes} (hread : recvHttpRequest x.chunks = some request)
    (hroute : route request = .send body) (honly : x.Only none [] none) :
    Serves lib myDeviceId x (.postSend lib body) := by
  have hcaught : ∀ {what}, Throws lib x body what → Serves lib myDeviceId x (.caught lib what) :=
    fun hwhat => .dumping (.error hread hroute hwhat)
  unfold Stage.postSend
  cases hparse : lib.parse body with
  | error what => exact hcaught (.parse hparse honly)
  | ok value =>
    cases hid : value.find (ascii "device_id") with
    | none =>
      simp only [hid]
      exact .answering (.missingFields hread hroute hparse (.inl hid) honly) rfl
    | some deviceId =>
      cases htext : value.find (ascii "text") with
      | none =>
        simp only [hid, htext]
        exact .answering (.missingFields hread hroute hparse (.inr htext) honly) rfl
      | some text =>
        cases hidText : deviceId.text with
        | none =>
          simp only [hid, htext, hidText]
          exact hcaught (.deviceId hparse hid htext hidText honly)
        | some i =>
          have hidString : value.find (ascii "device_id") = some (.string i) := by
            rw [hid, Json.eq_string_of_text hidText]
          cases htextText : text.text with
          | none =>
            simp only [hid, htext, hidText, htextText]
            exact hcaught (.text hparse hidString htext htextText honly)
          | some t =>
            have htextString : value.find (ascii "text") = some (.string t) := by
              rw [htext, Json.eq_string_of_text htextText]
            have hasks : Asks lib body := ⟨value, i, t, hparse, hidString, htextString⟩
            simp only [hid, htext, hidText, htextText]
            split
            · exact .answering (.queued hread hroute hasks honly) rfl
            · exact .sending hread hroute hasks rfl honly

/-- **A request that is read is served.** -/
theorem Serves.dispatch {request : Bytes} (hread : recvHttpRequest x.chunks = some request)
    (hline : (firstOccurrence emptyLine request).isSome) (honly : x.Only none [] none) :
    Serves lib myDeviceId x (.dispatch lib request) := by
  unfold Stage.dispatch
  cases hroute : route request with
  | unterminated => exact absurd hroute (route_ne_unterminated hline)
  | invalidLine => exact absurd hroute (route_ne_invalidLine hline)
  | options => exact .answering (.options hread hroute honly) rfl
  | devices => exact .devices hread hroute honly
  | events => exact .events hread hroute honly
  | send body => exact .postSend hread hroute honly
  | notFound => exact .answering (.notFound hread hroute honly) rfl

theorem Serves.of_hasRead (h : HasRead lib x.chunks stage) (honly : x.Only none [] none) :
    Serves lib myDeviceId x stage := by
  cases h with
  | more h => exact .reading h honly
  | refused hhead hrest hrange =>
    refine .answering (.incomplete ?_ honly) rfl
    rw [recvHttpRequest_eq hhead hrest, if_neg hrange]
  | done h hline => exact .dispatch h hline honly

end Serving

end ApiServer

end Gasoline
