import Mathlib.Logic.Relation
import Gasoline.FramingCalls

/-!
# Where the bytes of a stream are

What the members of the parser are at any moment, as the code that uses them
takes for granted: offsets stay within what they index, and the payload is
shorter than it is to become, so that the subtraction in `consume` does not
wrap and every pass of its loop eats a byte. It holds between calls, of a
parser that failed too, and wherever the condition of the loop is tested
(`RecordParser.Represents`).

And every byte is somewhere: in the preface, in a record that was delivered,
in the header or in the payload that is being read
(`RecordParser.accounted`). Each pass moves bytes from the input to one of
these and to one only, so nothing is lost or counted twice, however the
stream is cut into calls.
-/

namespace Gasoline

namespace RecordParser

variable {σ : Type}

/-! ## The members -/

/-- **What the members of a parser with the limit `m` are.** -/
structure Represents (m : ℕ) (p : RecordParser) : Prop where
  limit : p.maximumRecordSize = m
  /-- The offset into the preface. -/
  prefaceOffset : p.prefaceOffset ≤ 10
  prefaceDone : p.phase ≠ .preface → p.prefaceOffset = 10
  /-- The offset into the header. -/
  headerOffset : p.headerOffset < 2
  headerDone : p.phase = .payload → p.headerOffset = 0
  /-- A payload that is being read is not complete. -/
  payload : p.phase = .payload →
    p.payload.length < p.expectedPayloadSize ∧ p.expectedPayloadSize ≤ m
  /-- And there is no other, unless the parser failed. -/
  noPayload : p.phase ≠ .payload → p.failed = false → p.payload = []

/-- **The bytes a parser has consumed**, from where they are now: the
preface, the records that were delivered with their headers, and what there
is of the next one. -/
def accounted (p : RecordParser) (delivered : List Bytes) : ℕ :=
  p.prefaceOffset + (delivered.map (fun r => 2 + r.length)).sum + p.headerOffset
    + if p.phase = .payload then 2 + p.bufferedPayloadSize else 0

theorem Live.represents {p : RecordParser} (hp : p.Live) : p.Represents p.maximumRecordSize := by
  have hinv := hp.phase
  unfold PhaseInv at hinv
  cases hph : p.phase with
  | preface =>
    simp only [hph] at hinv
    exact ⟨rfl, hinv.1.le, fun h => absurd hph h, by simp [hinv.2.1], fun h => by simp [hph] at h,
      fun h => by simp [hph] at h, fun _ _ => hinv.2.2⟩
  | header =>
    simp only [hph] at hinv
    exact ⟨rfl, hinv.1.le, fun _ => hinv.1, hinv.2.1, fun h => by simp [hph] at h,
      fun h => by simp [hph] at h, fun _ _ => hinv.2.2⟩
  | payload =>
    simp only [hph] at hinv
    exact ⟨rfl, hinv.1.le, fun _ => hinv.1, by simp [hinv.2.1], fun _ => hinv.2.1,
      fun _ => hinv.2.2, fun h => absurd hph h⟩

/-! ## One pass -/

theorem sum_delivered (delivered : List Bytes) (r : Bytes) :
    ((delivered ++ [r]).map (fun r => 2 + r.length)).sum
      = (delivered.map (fun r => 2 + r.length)).sum + (2 + r.length) := by
  rw [List.map_append, List.sum_append, List.map_singleton, List.sum_singleton]

/-- What the handler is called with is kept. -/
theorem snd_of_logged {handler : RecordHandler σ} {t t' : σ × List Bytes} {r : Bytes}
    {result : HandlerResult} (h : logged handler t r = (result, t')) : t'.2 = t.2 ++ [r] :=
  (congrArg (fun x => x.2.2) h).symm

/-- **No byte is lost between two moments of a call, or counted twice**: what
the parser consumed in between is what is no longer unread. -/
def Counts (p : RecordParser) (before : List Bytes) (input : Bytes) (q : RecordParser)
    (after : List Bytes) (rest : Bytes) : Prop :=
  q.maximumRecordSize = p.maximumRecordSize
    ∧ q.accounted after + rest.length = p.accounted before + input.length

/-- **Every pass accounts for the bytes it reads.** -/
theorem Live.counts {handler : RecordHandler σ} {p q : RecordParser} {t t' : σ × List Bytes}
    {input rest : Bytes} (hp : p.Live)
    (h : iterate (logged handler) p t input = .next q t' rest) :
    Counts p t.2 input q t'.2 rest := by
  cases hp.goesOn h with
  | preface hph hlt =>
    refine ⟨rfl, ?_⟩
    simp only [accounted, hph, reduceCtorEq, if_false, List.length_nil]
    omega
  | prefaceDone hph hin hfull =>
    refine ⟨rfl, ?_⟩
    simp only [accounted, hph, reduceCtorEq, if_false, hin, List.length_append]
    omega
  | header hph hlt =>
    refine ⟨rfl, ?_⟩
    simp only [accounted, hph, reduceCtorEq, if_false, List.length_nil]
    omega
  | empty hph hin hfull hn hcall =>
    -- the two bytes of the header are now those of a record
    have htwo : p.headerOffset + _ = 2 := hfull
    refine ⟨rfl, ?_⟩
    simp only [accounted, hph, reduceCtorEq, if_false, hin, List.length_append,
      snd_of_logged hcall, sum_delivered, List.length_nil]
    omega
  | announced hph hin hfull hpos hle =>
    -- and here those in front of a payload
    have htwo : p.headerOffset + _ = 2 := hfull
    refine ⟨rfl, ?_⟩
    simp only [accounted, bufferedPayloadSize, hph, reduceCtorEq, if_false, if_true, hin,
      List.length_append, List.length_nil]
    omega
  | payload hph hlt =>
    refine ⟨rfl, ?_⟩
    simp only [accounted, bufferedPayloadSize, hph, if_true, List.length_append, List.length_nil]
    omega
  | record hph hin hfull hcall =>
    refine ⟨rfl, ?_⟩
    simp only [accounted, bufferedPayloadSize, hph, reduceCtorEq, if_false, if_true, hin,
      List.length_append, snd_of_logged hcall, sum_delivered]
    omega

/-- **A pass reads from the front**: what it leaves unread is the end of its
input. -/
theorem Live.suffix {handler : RecordHandler σ} {p q : RecordParser} {s t : σ}
    {input rest : Bytes} (hp : p.Live) (h : iterate handler p s input = .next q t rest) :
    rest <:+ input := by
  cases hp.goesOn h with
  | preface => exact List.nil_suffix
  | prefaceDone _ hin => exact ⟨_, hin.symm⟩
  | header => exact List.nil_suffix
  | empty _ hin => exact ⟨_, hin.symm⟩
  | announced _ hin => exact ⟨_, hin.symm⟩
  | payload => exact List.nil_suffix
  | record _ hin => exact ⟨_, hin.symm⟩

/-! ## Parsers that failed -/

/-- A parser that failed outside a payload. -/
theorem represents_of_failed {m : ℕ} {p : RecordParser} (hlimit : p.maximumRecordSize = m)
    (hf : p.failed = true) (hph : p.phase ≠ .payload) (hpre : p.prefaceOffset ≤ 10)
    (hdone : p.phase ≠ .preface → p.prefaceOffset = 10) (hoff : p.headerOffset < 2) :
    p.Represents m where
  limit := hlimit
  prefaceOffset := hpre
  prefaceDone := hdone
  headerOffset := hoff
  headerDone h := absurd h hph
  payload h := absurd h hph
  noPayload _ h := by simp [hf] at h

/-- **The members after a pass that ends the call.** The offset into the
header is reset before the length is checked, and the phase before the
handler is called, so that both ways of failing leave them in order. -/
theorem Live.represents_exit {handler : RecordHandler σ} {p q : RecordParser} {s t : σ}
    {input : Bytes} {outcome : ConsumeExit} (hp : p.Live)
    (h : iterate handler p s input = .exit q t outcome) (hthrew : outcome ≠ .handlerThrew) :
    q.Represents p.maximumRecordSize := by
  have hinv := hp.phase
  unfold PhaseInv at hinv
  cases endsCall h with
  | invalidPreface hph hk =>
    simp only [hph] at hinv
    exact represents_of_failed rfl rfl (by simp [hph]) hk.le (fun h => absurd hph h)
      (by simp [hinv.2.1])
  | oversized hph hn =>
    simp only [hph] at hinv
    exact represents_of_failed rfl rfl (by simp [hph]) hinv.1.le (fun _ => hinv.1) (by simp)
  | emptyStopped hph hn hcall =>
    simp only [hph] at hinv
    exact represents_of_failed rfl rfl (by simp [hph]) hinv.1.le (fun _ => hinv.1) (by simp)
  | emptyThrew => exact absurd rfl hthrew
  | stopped hph hcall =>
    simp only [hph] at hinv
    exact represents_of_failed rfl rfl (by simp) hinv.1.le (fun _ => hinv.1) (by simp [hinv.2.1])
  | threw => exact absurd rfl hthrew

/-! ## One call -/

/-- **How a call leaves the parser**: in order, and either failed or with all
of the input accounted for. -/
theorem Live.consume_accounts {handler : RecordHandler σ}
    (hret : ∀ s payload, (handler s payload).1 ≠ .threw) {p : RecordParser} (hp : p.Live)
    (t : σ × List Bytes) (input : Bytes) :
    ∃ q t' outcome, consume (logged handler) p t input = some (q, t', outcome)
      ∧ q.Represents p.maximumRecordSize
      ∧ (q.failed = true ∨ q.Live ∧ q.accounted t'.2 = p.accounted t.2 + input.length) := by
  have hthrew : ∀ {p q : RecordParser} {t t' : σ × List Bytes} {input : Bytes}
      {outcome : ConsumeExit}, iterate (logged handler) p t input = .exit q t' outcome →
      outcome ≠ .handlerThrew := by
    rintro p q t t' input outcome hit rfl
    obtain ⟨payload, hpayload⟩ := iterate_threw hit
    exact hret t.1 payload hpayload
  obtain ⟨⟨q, t', outcome⟩, hend, hleft⟩ := Live.consume_rule
    (P := fun p t input last => last.1.Represents p.maximumRecordSize
      ∧ (last.1.failed = true
        ∨ last.1.Live ∧ last.1.accounted last.2.1.2 = p.accounted t.2 + input.length))
    (fun _ hp => ⟨hp.represents, .inr ⟨hp, rfl⟩⟩)
    (fun hp hit => ⟨hp.represents_exit hit (hthrew hit), .inl ((iterate_exit hit).2 (hthrew hit))⟩)
    (fun hp hit h => by rwa [(hp.counts hit).1, (hp.counts hit).2] at h) hp t input
  exact ⟨q, t', outcome, hend, hleft⟩

/-- **A moment at which the condition of the outer loop is tested.** -/
structure LoopHead (σ : Type) where
  parser : RecordParser
  /-- The state of the handler. -/
  state : σ
  /-- What is left of the input. -/
  unread : Bytes

/-- From one such moment to the next: there is input, and the body of the
loop does not leave it. -/
def Turn (handler : RecordHandler σ) (a b : LoopHead σ) : Prop :=
  a.unread ≠ [] ∧ iterate handler a.parser a.state a.unread = .next b.parser b.state b.unread

/-- **The moments of a call**: none if it is refused, else the entry of the
loop and what follows. -/
def HeadOf (handler : RecordHandler σ) (p : RecordParser) (s : σ) (input : Bytes)
    (b : LoopHead σ) : Prop :=
  (p.failed || p.finished) = false ∧ Relation.ReflTransGen (Turn handler) ⟨p, s, input⟩ b

/-- What holds at every moment of a call, relative to the first. -/
theorem Live.turns {handler : RecordHandler σ} {a b : LoopHead (σ × List Bytes)}
    (ha : a.parser.Live) (h : Relation.ReflTransGen (Turn (logged handler)) a b) :
    b.parser.Live
      ∧ Counts a.parser a.state.2 a.unread b.parser b.state.2 b.unread
      ∧ b.unread <:+ a.unread
      ∧ consume (logged handler) a.parser a.state a.unread
          = consume (logged handler) b.parser b.state b.unread := by
  induction h with
  | refl => exact ⟨ha, ⟨rfl, rfl⟩, List.suffix_rfl, rfl⟩
  | tail _ hturn ih =>
    obtain ⟨hne, hit⟩ := hturn
    obtain ⟨hlive, ⟨hlimit, hcount⟩, hsuffix, hsame⟩ := ih
    obtain ⟨hlimit', hcount'⟩ := hlive.counts hit
    refine ⟨(hlive.next hne hit).1, ⟨hlimit'.trans hlimit, hcount'.trans hcount⟩,
      (hlive.suffix hit).trans hsuffix, ?_⟩
    rw [hsame, consume_eq_iterate _ hlive _ hne, hit]

/-- **What holds wherever the condition of the loop is tested**, in a call
with `input` that was made when `total` bytes had been consumed. -/
structure InOrder (handler : RecordHandler (σ × List Bytes)) (m total : ℕ) (input : Bytes)
    (b : LoopHead (σ × List Bytes)) : Prop where
  represents : b.parser.Represents m
  notFailed : b.parser.failed = false
  /-- The bytes that are not unread were read from the front. -/
  suffix : b.unread <:+ input
  /-- Each of them is somewhere. -/
  accounted : total + (input.length - b.unread.length) = b.parser.accounted b.state.2
  /-- The subtraction does not wrap, and something remains. -/
  remaining : b.parser.phase = .payload →
    sizeSub b.parser.expectedPayloadSize b.parser.payload.length
        = b.parser.expectedPayloadSize - b.parser.payload.length
      ∧ 0 < b.parser.expectedPayloadSize - b.parser.payload.length
  /-- The body of the loop reads a byte. -/
  reads : ∀ c, Turn handler b c → c.unread.length < b.unread.length

theorem Live.inOrder {handler : RecordHandler σ} {p : RecordParser} (hp : p.Live)
    (t : σ × List Bytes) (input : Bytes) {b : LoopHead (σ × List Bytes)}
    (h : HeadOf (logged handler) p t input b) :
    InOrder (logged handler) p.maximumRecordSize (p.accounted t.2) input b
      ∧ consume (logged handler) p t input
          = consume (logged handler) b.parser b.state b.unread := by
  obtain ⟨hlive, ⟨hlimit, hcount⟩, hsuffix, hsame⟩ := Live.turns (a := ⟨p, t, input⟩) hp h.2
  have hrep : b.parser.Represents p.maximumRecordSize := hlimit ▸ hlive.represents
  have hle := hsuffix.length_le
  simp only at hcount hle
  refine ⟨⟨hrep, hlive.notFailed, hsuffix, by omega, fun hph => ?_, fun c hturn => ?_⟩, hsame⟩
  · obtain ⟨hlt, hmax⟩ := hrep.payload hph
    exact ⟨sizeSub_of_le hlt.le (hmax.trans hp.limit), by omega⟩
  · exact (hlive.next hturn.1 hturn.2).2

/-! ## Any number of calls -/

/-- How many bytes a call hands over. -/
def Call.size : Call σ → ℕ
  | .consume _ input => input.length
  | .finish => 0

/-- What holds between two calls, `total` bytes having been handed over: the
members are in order, and unless the parser failed it has consumed them
all. -/
structure Settled (m total : ℕ) (p : RecordParser) (delivered : List Bytes) : Prop where
  represents : p.Represents m
  accepts : p.BetweenCalls
  accounted : p.failed = false → total = p.accounted delivered

theorem finish_flags (p : RecordParser) :
    ∃ failed finished, p.finish.1 = { p with failed := failed, finished := finished }
      ∧ (failed = false → p.failed = false) := by
  unfold finish
  split
  · exact ⟨_, _, rfl, fun h => (by cases h)⟩
  rename_i hf
  have hnot : p.failed = false := by simpa using hf
  split
  · exact ⟨_, _, rfl, fun _ => hnot⟩
  split
  · exact ⟨_, _, rfl, fun _ => hnot⟩
  split
  · exact ⟨_, _, rfl, fun _ => hnot⟩
  split
  · exact ⟨_, _, rfl, fun _ => hnot⟩
  · exact ⟨_, _, rfl, fun _ => hnot⟩

/-- The members do not depend on whether the parser was finished, and only
in one place on whether it failed. -/
theorem Represents.flags {m : ℕ} {p : RecordParser} (hp : p.Represents m) {failed finished : Bool}
    (hf : failed = false → p.failed = false) :
    Represents m { p with failed := failed, finished := finished } :=
  ⟨hp.limit, hp.prefaceOffset, hp.prefaceDone, hp.headerOffset, hp.headerDone, hp.payload,
    fun hph h => hp.noPayload hph (hf h)⟩

theorem Settled.perform {c : Call σ} (hc : c.Returns) {m total : ℕ} {p : RecordParser}
    {t : σ × List Bytes} (hp : Settled m total p t.2) :
    ∃ q t' r, c.perform p t = some (q, t', r) ∧ Settled m (total + c.size) q t'.2 := by
  cases c with
  | consume handler input =>
    rcases hp.accepts with hlive | hdone
    · obtain ⟨q, t', outcome, hq, hrep, hleft⟩ := hlive.consume_accounts hc t input
      rw [hp.represents.limit] at hrep
      refine ⟨q, t', .consumed outcome, by rw [Call.perform, hq]; rfl, hrep, ?_, fun hf => ?_⟩
      · exact hleft.elim (fun h => .inr (.inl h)) (fun h => .inl h.1)
      · rcases hleft with hfailed | ⟨-, hcount⟩
        · simp [hf] at hfailed
        · rw [hcount, hp.accounted hlive.notFailed]
          rfl
    · refine ⟨{ p with failed := true }, t, _, by rw [Call.perform, consume_of_failed _ hdone]; rfl,
        hp.represents.flags (fun h => (by cases h)), .inr (.inl rfl), fun h => (by cases h)⟩
  | finish =>
    obtain ⟨failed, finished, hflags, hf⟩ := finish_flags p
    have hdone : p.finish.1.BetweenCalls := by
      obtain ⟨-, -, hfailed⟩ | ⟨-, -, hfinished⟩ := finish_spec p
      · exact .inr (.inl hfailed)
      · exact .inr (.inr hfinished)
    refine ⟨p.finish.1, t, _, rfl, ?_, hdone, ?_⟩
    · rw [hflags]
      exact hp.represents.flags hf
    · rw [hflags]
      intro h
      exact hp.accounted (hf h)

theorem Settled.performAll {cs : List (Call σ)} (hcs : ∀ c ∈ cs, c.Returns) {m total : ℕ}
    {p : RecordParser} {t : σ × List Bytes} (hp : Settled m total p t.2) :
    ∃ q t' rs, RecordParser.performAll cs p t = some (q, t', rs)
      ∧ Settled m (total + (cs.map Call.size).sum) q t'.2 := by
  induction cs generalizing p t total with
  | nil => exact ⟨p, t, [], rfl, hp⟩
  | cons c cs ih =>
    obtain ⟨hc, hrest⟩ := List.forall_mem_cons.mp hcs
    obtain ⟨q, t', r, hq, hset⟩ := hp.perform hc
    obtain ⟨q', t'', rs, hq', hset'⟩ := ih hrest hset
    refine ⟨q', t'', r :: rs, ?_, ?_⟩
    · rw [RecordParser.performAll, hq, Option.bind_some]
      show (RecordParser.performAll cs q t').map _ = _
      rw [hq']
      rfl
    · rw [List.map_cons, List.sum_cons, ← Nat.add_assoc]
      exact hset'

/-- **The members of the parser, and where its bytes are.** For every limit a
parser can be built with and every sequence of calls whose handlers return:
all of them end, the members are in order after the last one, and unless the
parser failed the bytes that were handed over are those it accounts for. In
a call that follows, with any handler and any input, the same holds wherever
the condition of the loop is tested, of the bytes read so far; every turn of
the loop reads at least one more, and the call comes to what is left of it
from there. -/
theorem bytes_accounted {m : ℕ} (hm : m ≤ 65535) (s : σ) {cs : List (Call σ)}
    (hcs : ∀ c ∈ cs, c.Returns) :
    ∃ p q t rs, create m = .ok p ∧ performAll cs p (s, []) = some (q, t, rs)
      ∧ q.Represents m
      ∧ (q.failed = false → (cs.map Call.size).sum = q.accounted t.2)
      ∧ ∀ handler input b, HeadOf (logged handler) q t input b →
          InOrder (logged handler) m (cs.map Call.size).sum input b
            ∧ consume (logged handler) q t input
                = consume (logged handler) b.parser b.state b.unread := by
  have hnew : create m = .ok (initial m) := if_neg (Nat.not_lt.mpr hm)
  have hlive : (initial m).Live := live_initial hm
  have hstart : Settled m 0 (initial m) (s, ([] : List Bytes)).2 :=
    ⟨hlive.represents, .inl hlive, fun _ => rfl⟩
  obtain ⟨q, t, rs, hq, hset⟩ := hstart.performAll hcs
  rw [Nat.zero_add] at hset
  refine ⟨initial m, q, t, rs, hnew, hq, hset.represents, hset.accounted, ?_⟩
  intro handler input b hb
  have hopen : q.failed = false ∧ q.finished = false := by simpa using hb.1
  have hq : q.Live := hset.accepts.resolve_right (by simp [hopen])
  rw [← hset.represents.limit, hset.accounted hopen.1]
  exact hq.inOrder t input hb

/-- A record of no bytes, then two of the five bytes of another. -/
def partialStream : List (Call (List Bytes)) :=
  [.consume collect (prefaceBytes ++ [0, 0]), .consume collect [0, 5, 97, 98]]

/-- The sixteen bytes are a preface, a header with nothing behind it, a
header and two bytes. The next call is in order when it has completed the
payload, with three more bytes accounted for and one unread. -/
theorem bytes_accounted_partial :
    ∃ q t rs b, performAll partialStream (initial 65535) ([], []) = some (q, t, rs)
      ∧ q.bufferedPayloadSize = 2 ∧ t.2 = [[]] ∧ 16 = q.accounted t.2
      ∧ InOrder (logged collect) 65535 16 [99, 100, 101, 0] b
      ∧ b.state.2 = [[], [97, 98, 99, 100, 101]] ∧ b.unread = [0] := by
  have hreturns : ∀ c ∈ partialStream, c.Returns := by
    simp [partialStream, Call.Returns, collect]
  obtain ⟨p, q, t, rs, hp, hq, -, hcount, hheads⟩ := bytes_accounted (le_refl 65535) [] hreturns
  obtain ⟨rfl, -⟩ := create_eq_ok hp
  have hrun : (performAll partialStream (initial 65535) ([], [])).map (fun x => (x.1, x.2.1))
      = some ({ initial 65535 with
          phase := .payload
          prefaceOffset := 10
          header := #v[0, 5]
          expectedPayloadSize := 5
          payload := [97, 98] }, ([[]], [[]])) := by
    decide +kernel
  rw [hq] at hrun
  cases hrun
  let b : LoopHead (List Bytes × List Bytes) :=
    ⟨{ initial 65535 with phase := .header, prefaceOffset := 10, header := #v[0, 5] },
      ([[], [97, 98, 99, 100, 101]], [[], [97, 98, 99, 100, 101]]), [0]⟩
  refine ⟨_, _, rs, b, hq, rfl, rfl, hcount rfl, ?_, rfl, rfl⟩
  exact (hheads collect [99, 100, 101, 0] _ ⟨rfl, .single ⟨by decide, rfl⟩⟩).1

end RecordParser

end Gasoline
