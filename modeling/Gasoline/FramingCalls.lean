import Gasoline.FramingGrammar

/-!
# Calls on a parser that is done for

A stream is fed until a call does not use its chunk up, and then the caller
is expected to stop. Nothing makes it: `consume` and `finish` can be called
on, in any order, and a protocol violation must not become the start of a
new stream. Two flags of the parser keep it from that, and this module says
what they amount to for every sequence of calls.

Failure is entered from six places, but it is left the same way from each
of them: the flag `failed_` is set. From there on a call does nothing but
throw (`RecordParser.refuses_of_failed`). A successful `finish` sets the
other flag; it is harmless until the next `consume`, which sets the first.
-/

namespace Gasoline

namespace RecordParser

variable {σ : Type}

/-- **A call of a member function**, with the handler it is given. -/
inductive Call (σ : Type)
  | consume (handler : RecordHandler σ) (input : Bytes)
  | finish

/-- How a call ended. -/
inductive CallResult
  | consumed (outcome : ConsumeExit)
  | finished (result : Except FramingError Unit)

/-- The code of the `FramingError` a call threw. -/
def CallResult.errorCode : CallResult → Option FramingErrorCode
  | .consumed (.failed error) => some error.code
  | .finished (.error error) => some error.code
  | _ => none

/-- A `FramingError` was thrown, or a handler asked to stop. -/
def CallResult.terminal : CallResult → Bool
  | .consumed (.failed _) => true
  | .consumed (.returned false) => true
  | .finished (.error _) => true
  | _ => false

/-- The handler of a call returns, whatever it is called with. -/
def Call.Returns : Call σ → Prop
  | .consume handler _ => ∀ s payload, (handler s payload).1 ≠ .threw
  | .finish => True

/-- **One call.** The handlers of different calls may differ; they share a
state, and what they are called with is kept beside it. -/
def Call.perform : Call σ → RecordParser → σ × List Bytes →
    Option (RecordParser × (σ × List Bytes) × CallResult)
  | .consume handler input, p, s =>
    (RecordParser.consume (logged handler) p s input).map
      (fun (q, t, outcome) => (q, t, .consumed outcome))
  | .finish, p, s => some (p.finish.1, s, .finished p.finish.2)

/-- Calls in order, whatever each of them ended in. -/
def performAll : List (Call σ) → RecordParser → σ × List Bytes →
    Option (RecordParser × (σ × List Bytes) × List CallResult)
  | [], p, s => some (p, s, [])
  | c :: cs, p, s =>
    (c.perform p s).bind (fun (q, t, r) =>
      (performAll cs q t).map (fun (q, t, rs) => (q, t, r :: rs)))

/-- Every call from here on throws `ParserFinished`, and no handler is
called again. -/
def Refuses (p : RecordParser) (s : σ × List Bytes) : Prop :=
  ∀ cs, ∃ q rs, performAll cs p s = some (q, s, rs) ∧ rs.length = cs.length
    ∧ ∀ r ∈ rs, r.errorCode = some .parserFinished

/-- Calls of `finish` succeed and change nothing, and the first call of
`consume` among them is refused, like everything behind it. -/
def IsFinished (p : RecordParser) (s : σ × List Bytes) : Prop :=
  (∀ n, performAll (List.replicate n .finish) p s
      = some (p, s, List.replicate n (.finished (.ok ()))))
    ∧ ∀ n handler input cs, ∃ q rs,
        performAll (List.replicate n .finish ++ .consume handler input :: cs) p s
            = some (q, s, List.replicate n (.finished (.ok ())) ++ rs)
          ∧ rs.length = cs.length + 1 ∧ ∀ r ∈ rs, r.errorCode = some .parserFinished

/-- **The stopping point of a call**: `read` is the shortest start of the
input after which the call ends as it did, and it ends so whatever
follows. -/
structure StopsAfter (handler : RecordHandler σ) (p : RecordParser) (s : σ)
    (input read : Bytes) (last : RecordParser × σ × ConsumeExit) : Prop where
  /-- The input starts with it. -/
  start : read <+: input
  /-- What follows is not looked at. -/
  ends : ∀ other, consume handler p s (read ++ other) = some last
  /-- The call would have gone on after less. -/
  least : ∀ xs, xs <+: read → xs ≠ read →
    ∃ q t, consume handler p s xs = some (q, t, .returned true)

/-! ## Failed parsers -/

/-- A failed parser throws, and stays failed. -/
theorem consume_of_failed (handler : RecordHandler σ) {p : RecordParser}
    (h : p.failed = true ∨ p.finished = true) (s : σ) (input : Bytes) :
    consume handler p s input = some ({ p with failed := true }, s,
      .failed ⟨.parserFinished, "protocol v2 parser is not accepting input"⟩) := by
  have hrefused : (p.failed || p.finished) = true := by simpa using h
  rw [consume, hrefused]
  rfl

theorem finish_of_failed {p : RecordParser} (h : p.failed = true) :
    p.finish = (p, .error ⟨.parserFinished, "protocol v2 parser already failed"⟩) := by
  have hsame : { p with failed := true } = p := by rw [← h]
  unfold finish
  rw [if_pos h]
  show ({ p with failed := true }, _) = _
  rw [hsame]

theorem perform_of_failed (c : Call σ) {p : RecordParser} (h : p.failed = true)
    (s : σ × List Bytes) :
    ∃ r, c.perform p s = some (p, s, r) ∧ r.errorCode = some .parserFinished := by
  have hsame : { p with failed := true } = p := by rw [← h]
  cases c with
  | consume handler input =>
    have hcall : (Call.consume handler input).perform p s = some (p, s, .consumed
        (.failed ⟨.parserFinished, "protocol v2 parser is not accepting input"⟩)) := by
      rw [Call.perform, consume_of_failed _ (.inl h), hsame]
      rfl
    exact ⟨_, hcall, rfl⟩
  | finish =>
    have hcall : (Call.finish : Call σ).perform p s = some (p, s, .finished
        (.error ⟨.parserFinished, "protocol v2 parser already failed"⟩)) := by
      rw [Call.perform, finish_of_failed h]
    exact ⟨_, hcall, rfl⟩

/-- **A failed parser refuses everything.** -/
theorem refuses_of_failed {p : RecordParser} (h : p.failed = true) (s : σ × List Bytes) :
    Refuses p s := by
  intro cs
  induction cs with
  | nil => exact ⟨p, [], rfl, rfl, fun r hr => by cases hr⟩
  | cons c cs ih =>
    obtain ⟨r, hr, hcode⟩ := perform_of_failed c h s
    obtain ⟨q, rs, hrs, hlen, hcodes⟩ := ih
    refine ⟨q, r :: rs, ?_, congrArg (· + 1) hlen, List.forall_mem_cons.mpr ⟨hcode, hcodes⟩⟩
    rw [performAll, hr, Option.bind_some]
    show (performAll cs p s).map _ = _
    rw [hrs]
    rfl

/-- Further calls of `finish` on a finished parser. -/
theorem performAll_finish {p : RecordParser} (h : p.finish = (p, .ok ())) (s : σ × List Bytes)
    (n : ℕ) (cs : List (Call σ)) :
    performAll (List.replicate n .finish ++ cs) p s
      = (performAll cs p s).map (fun (q, t, rs) =>
          (q, t, List.replicate n (.finished (.ok ())) ++ rs)) := by
  induction n with
  | zero => exact Option.map_id'.symm
  | succ n ih =>
    rw [List.replicate_succ, List.replicate_succ, List.cons_append, performAll, Call.perform, h]
    show (performAll (List.replicate n .finish ++ cs) p s).map _ = _
    rw [ih, Option.map_map]
    rfl

/-- **A parser that was finished** accepts `finish` and nothing else. -/
theorem isFinished_of_finished {p : RecordParser} (hf : p.failed = false) (hd : p.finished = true)
    (s : σ × List Bytes) : IsFinished p s := by
  have hfinish : p.finish = (p, .ok ()) := by
    unfold finish
    rw [if_neg (by simp [hf]), if_pos hd]
  refine ⟨fun n => ?_, fun n handler input cs => ?_⟩
  · have h := performAll_finish hfinish s n []
    rw [List.append_nil] at h
    rw [h]
    simp [performAll]
  · -- the refused call sets the other flag
    have hcall : performAll (.consume handler input :: cs) p s
        = performAll (.consume handler input :: cs) { p with failed := true } s := by
      rw [performAll, performAll, Call.perform, Call.perform, consume_of_failed _ (.inr hd),
        consume_of_failed _ (.inl rfl)]
    obtain ⟨q, rs, hrs, hlen, hcodes⟩ :=
      refuses_of_failed (p := { p with failed := true }) rfl s (.consume handler input :: cs)
    refine ⟨q, rs, ?_, hlen, hcodes⟩
    rw [performAll_finish hfinish, hcall, hrs]
    rfl

/-! ## The parsers calls lead to -/

/-- What holds of a parser between two calls, as long as handlers
return. -/
def BetweenCalls (p : RecordParser) : Prop :=
  p.Live ∨ p.failed = true ∨ p.finished = true

/-- **How a call ends**: its input is used up, the handler's exception goes
through, or the parser is left failed. -/
theorem consume_spec (handler : RecordHandler σ) {p : RecordParser} (hp : p.Live) (s : σ)
    (input : Bytes) :
    ∃ q t outcome, consume handler p s input = some (q, t, outcome)
      ∧ (outcome = .returned true ∧ q.Live
        ∨ outcome = .handlerThrew ∧ (∃ s' payload, (handler s' payload).1 = .threw)
        ∨ outcome ≠ .returned true ∧ outcome ≠ .handlerThrew ∧ q.failed = true) := by
  have hends : ∀ {p q : RecordParser} {s t : σ} {input : Bytes} {outcome : ConsumeExit},
      iterate handler p s input = .exit q t outcome →
      outcome = .handlerThrew ∧ (∃ s' payload, (handler s' payload).1 = .threw)
        ∨ outcome ≠ .returned true ∧ outcome ≠ .handlerThrew ∧ q.failed = true := by
    intro p q s t input outcome hit
    obtain ⟨hused, hfailed⟩ := iterate_exit hit
    by_cases hthrew : outcome = .handlerThrew
    · subst hthrew
      obtain ⟨payload, hpayload⟩ := iterate_threw hit
      exact .inl ⟨rfl, s, payload, hpayload⟩
    · exact .inr ⟨hused, hthrew, hfailed hthrew⟩
  obtain ⟨⟨q, t, outcome⟩, hend, hleft⟩ := Live.consume_rule
    (P := fun _ _ _ last => last.2.2 = .returned true ∧ last.1.Live
      ∨ last.2.2 = .handlerThrew ∧ (∃ s' payload, (handler s' payload).1 = .threw)
      ∨ last.2.2 ≠ .returned true ∧ last.2.2 ≠ .handlerThrew ∧ last.1.failed = true)
    (fun _ hp => .inl ⟨rfl, hp⟩) (fun _ hit => .inr (hends hit)) (fun _ _ h => h) hp s input
  exact ⟨q, t, outcome, hend, hleft⟩


/-- A call whose handler returns uses its input up or leaves the parser
failed. -/
theorem consume_of_returns (handler : RecordHandler σ)
    (hret : ∀ s payload, (handler s payload).1 ≠ .threw) {p : RecordParser} (hp : p.Live)
    (s : σ) (input : Bytes) :
    ∃ q t outcome, consume handler p s input = some (q, t, outcome)
      ∧ (outcome = .returned true ∧ q.Live ∨ outcome ≠ .returned true ∧ q.failed = true) := by
  obtain ⟨q, t, outcome, hq, hused | ⟨-, s', payload, hthrew⟩ | ⟨hstop, -, hfailed⟩⟩ :=
    consume_spec handler hp s input
  · exact ⟨q, t, outcome, hq, .inl hused⟩
  · exact absurd hthrew (hret s' payload)
  · exact ⟨q, t, outcome, hq, .inr ⟨hstop, hfailed⟩⟩

/-- `finish` fails and marks the parser, or succeeds and marks it. -/
theorem finish_spec (p : RecordParser) :
    (∃ error, p.finish.2 = .error error ∧ p.finish.1.failed = true)
      ∨ p.finish.2 = .ok () ∧ p.finish.1.failed = false ∧ p.finish.1.finished = true := by
  unfold finish
  split
  · exact .inl ⟨_, rfl, rfl⟩
  rename_i hf
  split
  · exact .inr ⟨rfl, by simpa using hf, ‹_›⟩
  split
  · exact .inl ⟨_, rfl, rfl⟩
  split
  · exact .inl ⟨_, rfl, rfl⟩
  split
  · exact .inl ⟨_, rfl, rfl⟩
  · exact .inr ⟨rfl, by simpa using hf, rfl⟩

/-- **What one call does to the flags.** -/
theorem perform_spec {c : Call σ} (hc : c.Returns) {p : RecordParser} (hp : p.BetweenCalls)
    (s : σ × List Bytes) :
    ∃ q t r, c.perform p s = some (q, t, r) ∧ q.BetweenCalls
      ∧ (r.terminal = true → q.failed = true)
      ∧ (r = .finished (.ok ()) → q.failed = false ∧ q.finished = true) := by
  cases c with
  | consume handler input =>
    rcases hp with hlive | hdone
    · obtain ⟨q, t, outcome, hq, houtcome⟩ := consume_of_returns (logged handler)
        (fun s payload => hc s.1 payload) hlive s input
      refine ⟨q, t, .consumed outcome, ?_, ?_, ?_, fun h => by cases h⟩
      · rw [Call.perform, hq]
        rfl
      · exact houtcome.imp (fun h => h.2) (fun h => .inl h.2)
      · intro hterminal
        rcases houtcome with ⟨rfl, -⟩ | ⟨-, hfailed⟩
        · cases hterminal
        · exact hfailed
    · have hcall : (Call.consume handler input).perform p s = some ({ p with failed := true }, s,
          .consumed (.failed ⟨.parserFinished, "protocol v2 parser is not accepting input"⟩)) := by
        rw [Call.perform, consume_of_failed _ hdone]
        rfl
      exact ⟨_, s, _, hcall, .inr (.inl rfl), fun _ => rfl, fun h => by cases h⟩
  | finish =>
    refine ⟨_, s, _, rfl, ?_⟩
    obtain ⟨error, herror, hfailed⟩ | ⟨hok, hfailed, hfinished⟩ := finish_spec p
    · rw [herror]
      exact ⟨.inr (.inl hfailed), fun _ => hfailed, fun h => by cases h⟩
    · rw [hok]
      exact ⟨.inr (.inr hfinished), (fun h => by cases h), fun _ => ⟨hfailed, hfinished⟩⟩

theorem performAll_spec {cs : List (Call σ)} (hcs : ∀ c ∈ cs, c.Returns) {p : RecordParser}
    (hp : p.BetweenCalls) (s : σ × List Bytes) :
    ∃ q t rs, performAll cs p s = some (q, t, rs) ∧ q.BetweenCalls := by
  induction cs generalizing p s with
  | nil => exact ⟨p, s, [], rfl, hp⟩
  | cons c cs ih =>
    obtain ⟨hc, hrest⟩ := List.forall_mem_cons.mp hcs
    obtain ⟨q, t, r, hq, hbetween, -⟩ := perform_spec hc hp s
    obtain ⟨q', t', rs, hq', hbetween'⟩ := ih hrest hbetween t
    refine ⟨q', t', r :: rs, ?_, hbetween'⟩
    rw [performAll, hq, Option.bind_some]
    show (performAll cs q t).map _ = _
    rw [hq']
    rfl

/-! ## Stopping points -/

/-- A call that stopped does so with anything behind its input. -/
theorem consume_append_of_stopped (handler : RecordHandler σ) {p q : RecordParser} (hp : p.Live)
    {s t : σ} {xs : Bytes} {outcome : ConsumeExit}
    (h : consume handler p s xs = some (q, t, outcome)) (hstop : outcome ≠ .returned true)
    (ys : Bytes) : consume handler p s (xs ++ ys) = some (q, t, outcome) := by
  rw [consume_append handler hp, h]
  cases outcome with
  | returned result =>
    cases result with
    | true => exact absurd rfl hstop
    | false => rfl
  | failed error => rfl
  | handlerThrew => rfl

/-- **Every call that does not use its input up has a stopping point.** -/
theorem exists_stopsAfter (handler : RecordHandler σ) {p q : RecordParser} (hp : p.BetweenCalls)
    {s t : σ} {input : Bytes} {outcome : ConsumeExit}
    (h : consume handler p s input = some (q, t, outcome)) (hstop : outcome ≠ .returned true) :
    ∃ read, StopsAfter handler p s input read (q, t, outcome) := by
  rcases hp with hlive | hdone
  · -- the shortest start of the input after which the call does not go on
    classical
    have hex : ∃ n, ∀ q t, consume handler p s (input.take n) ≠ some (q, t, .returned true) := by
      refine ⟨input.length, fun q' t' heq => ?_⟩
      rw [List.take_length, h] at heq
      cases heq
      exact hstop rfl
    obtain ⟨q', t', outcome', hq', -⟩ :=
      consume_total handler hlive s (input.take (Nat.find hex))
    have hstop' : outcome' ≠ .returned true := by
      rintro rfl
      exact Nat.find_spec hex q' t' hq'
    have hends := consume_append_of_stopped handler hlive hq' hstop'
    have hlast : some (q', t', outcome') = some (q, t, outcome) := by
      rw [← hends (input.drop (Nat.find hex)), List.take_append_drop, h]
    refine ⟨input.take (Nat.find hex), List.take_prefix _ _, fun other => (hends other).trans hlast,
      fun xs hxs hne => ?_⟩
    have hlt : xs.length < Nat.find hex :=
      lt_of_lt_of_le (lt_of_le_of_ne hxs.length_le (fun hlen => hne (hxs.eq_of_length hlen)))
        (List.length_take_le _ _)
    have hxs : xs = input.take xs.length :=
      (List.prefix_iff_eq_take.mp (hxs.trans (List.take_prefix _ _)))
    have hgo := Nat.find_min hex hlt
    push Not at hgo
    rw [hxs]
    exact hgo
  · -- a parser that is done for stops before the first byte
    have hrefused := consume_of_failed handler hdone s
    rw [hrefused] at h
    refine ⟨[], List.nil_prefix, fun other => (hrefused other).trans h, fun xs hxs hne => ?_⟩
    exact absurd (List.prefix_nil.mp hxs) hne

/-! ## Terminal states -/

/-- **Terminal states are absorbing.** Take a new parser, any calls whose
handlers return, and one more. If that call threw a `FramingError` or
returned `false`, no later call invokes a handler and every one of them
throws `ParserFinished`; and if it was a `consume`, the bytes behind its
stopping point made no difference. If it was a `finish` that succeeded,
calls of `finish` keep succeeding until there is a `consume`, which is
refused together with everything behind it. -/
theorem terminal_calls {m : ℕ} {p : RecordParser} (hp : create m = .ok p) (s : σ)
    {before : List (Call σ)} (hbefore : ∀ c ∈ before, c.Returns) {c : Call σ} (hc : c.Returns) :
    ∃ q t rs q' t' r, performAll before p (s, []) = some (q, t, rs)
      ∧ c.perform q t = some (q', t', r)
      ∧ (r.terminal = true → Refuses q' t')
      ∧ (r.terminal = true → ∀ handler input, c = .consume handler input →
          ∃ outcome read, r = .consumed outcome
            ∧ StopsAfter (logged handler) q t input read (q', t', outcome))
      ∧ (r = .finished (.ok ()) → IsFinished q' t') := by
  obtain ⟨rfl, hm⟩ := create_eq_ok hp
  obtain ⟨q, t, rs, hq, hbetween⟩ := performAll_spec hbefore (.inl (live_initial hm)) (s, [])
  obtain ⟨q', t', r, hq', -, hterminal, hfinished⟩ := perform_spec hc hbetween t
  refine ⟨q, t, rs, q', t', r, hq, hq', fun h => refuses_of_failed (hterminal h) t', ?_, ?_⟩
  · rintro hr handler input rfl
    obtain ⟨⟨q₁, t₁, outcome⟩, hconsume, heq⟩ := Option.map_eq_some_iff.mp hq'
    cases heq
    have hstop : outcome ≠ .returned true := by
      rintro rfl
      cases hr
    obtain ⟨read, hread⟩ := exists_stopsAfter (logged handler) hbetween hconsume hstop
    exact ⟨outcome, read, rfl, hread⟩
  · intro hr
    exact isFinished_of_finished (hfinished hr).1 (hfinished hr).2 t'

/-- A handler that stops at its second record. -/
def stopAtSecond : RecordHandler ℕ := fun n _ => (.returned (n = 0), n + 1)

/-- Two records and a byte behind them: the parser stops at the second, and
from there on nothing is delivered. -/
theorem terminal_calls_stopped :
    ∃ q t, (Call.consume stopAtSecond [0, 1, 7, 0, 0, 9]).perform (afterPreface 16) (0, [])
        = some (q, t, .consumed (.returned false))
      ∧ t = (2, [[7], []]) ∧ Refuses q t := by
  have hbefore : ∀ c ∈ [Call.consume stopAtSecond prefaceBytes], c.Returns := by
    simp [Call.Returns, stopAtSecond]
  have hc : (Call.consume stopAtSecond [0, 1, 7, 0, 0, 9]).Returns := by
    simp [Call.Returns, stopAtSecond]
  obtain ⟨q, t, rs, q', t', r, hbegin, hcall, hrefuses, -⟩ :=
    terminal_calls (m := 16) rfl 0 hbefore hc
  have hstart : some (afterPreface 16, ((0 : ℕ), ([] : List Bytes))) = some (q, t) :=
    congrArg (Option.map (fun x : RecordParser × (ℕ × List Bytes) × List CallResult =>
      (x.1, x.2.1))) hbegin
  cases hstart
  have hend : some (((2 : ℕ), [[7], ([] : Bytes)]), CallResult.consumed (.returned false))
      = some (t', r) := congrArg (Option.map Prod.snd) hcall
  cases hend
  exact ⟨q', _, hcall, rfl, hrefuses rfl⟩

end RecordParser

end Gasoline
