import Gasoline.WireSends

/-!
# Frames are whole

The bytes a socket accepted are the byte strings of the calls that sent, one
after the other, and behind them at most the beginning of one more. Whatever
the kernel answers and whoever disconnects, a call that could not finish its
byte string has stopped the session before it releases `write_mutex_`, and
then no one writes any more (`Intact`).
-/

namespace Gasoline

/-- The call returned a count. -/
def Send.succeeded (s : Send) : Bool :=
  match s.result with
  | .returned n => decide (0 ≤ n)
  | .threw => false

/-- The call returned -1 with a part of its byte string written. -/
def Send.Torn (s : Send) : Prop :=
  0 < s.sent ∧ s.sent < s.data.length ∧ s.result = .returned (-1)

instance (s : Send) : Decidable s.Torn :=
  inferInstanceAs (Decidable (0 < s.sent ∧ s.sent < s.data.length ∧ s.result = .returned (-1)))

/-- The byte strings of the calls that sent, in the order in which they had
the lock. -/
def finished (sends : List Send) : Bytes := ((sends.filter Send.succeeded).map Send.data).flatten

/-- What was accepted of the byte string that is being sent. -/
def begun : Option Outgoing → Bytes
  | some ⟨_, .sending s⟩ => s.data.take s.sent
  | _ => []

namespace Wire

/-- The calls, in the order in which they took the lock. -/
def calls (v : Wire) : List Origin := v.sends.map Send.origin ++ v.current.toList.map Outgoing.origin

/-- A byte string that was to be sent by a call that did not succeed, or has
not yet. -/
def Unfinished (v : Wire) (data : Bytes) : Prop :=
  (∃ s ∈ v.sends, s.succeeded = false ∧ s.data = data)
    ∨ ∃ origin s, v.current = some ⟨origin, .sending s⟩ ∧ s.data = data

/-- `send_all` returned -1 with a part of its byte string written. -/
def Broken (v : Wire) : Prop :=
  (∃ s ∈ v.sends, s.Torn)
    ∨ ∃ origin s, v.current = some ⟨origin, .sending s⟩ ∧ s.stage = .failed ∧ 0 < s.sent

/-- **What the socket accepted is whole**, up to the call that is sending or
the one that stopped the session. -/
structure Intact (stopping : Bool) (v : Wire) : Prop where
  within : ∀ origin s, v.current = some ⟨origin, .sending s⟩ → s.sent < s.data.length
  whole : (∀ s ∈ v.sends, ¬ s.Torn) → v.accepted = finished v.sends ++ begun v.current
  torn : ∀ s ∈ v.sends, s.Torn → stopping = true ∧ v.current = none
    ∧ v.accepted = finished v.sends ++ s.data.take s.sent

end Wire

/-! ## Byte strings -/

theorem finished_append (sends : List Send) (s : Send) :
    finished (sends ++ [s]) = finished sends ++ if s.succeeded then s.data else [] := by
  unfold finished
  rw [List.filter_append, List.map_append, List.flatten_append]
  cases hs : s.succeeded with
  | true => simp [hs]
  | false => simp [hs]

theorem finished_append_nil (sends : List Send) {s : Send} (h : s.data = []) :
    finished (sends ++ [s]) = finished sends := by
  rw [finished_append, h]
  split <;> exact List.append_nil _

theorem length_of_frame {dump : Json → Serialization} {packet : Json} {data : Bytes}
    (h : frame dump packet = .record data) : 0 < data.length := by
  unfold frame at h
  split at h
  · cases h
  split at h
  · cases h
  split at h
  · cases h
  rename_i record hrecord
  split at h
  · cases h
    unfold encodeRecord at hrecord
    split at hrecord
    · cases hrecord
    · cases hrecord
      exact Nat.succ_pos _
  · cases h

namespace Wire.Intact

variable {stopping stopping' : Bool} {v v' : Wire}

/-- A session that goes on stopping, with no call that sends. -/
theorem append_nil (h : v.Intact stopping) (hlater : stopping = true → stopping' = true) {s : Send}
    (hdata : s.data = []) (hsent : s.sent = 0) (hbegun : begun v.current = [])
    (hcurrent : v'.current = none) (haccepted : v'.accepted = v.accepted)
    (hsends : v'.sends = v.sends ++ [s]) : v'.Intact stopping' := by
  have hnot : ¬ s.Torn := fun ht => by
    have := ht.1
    omega
  have hmem : ∀ t ∈ v'.sends, t.Torn → t ∈ v.sends := by
    intro t ht htorn
    rw [hsends, List.mem_append, List.mem_singleton] at ht
    rcases ht with ht | rfl
    · exact ht
    · exact absurd htorn hnot
  refine ⟨fun origin t ht => ?_, fun hall => ?_, fun t ht htorn => ?_⟩
  · rw [hcurrent] at ht
    cases ht
  · rw [haccepted, h.whole (fun t ht => hall t (by rw [hsends]; exact List.mem_append_left _ ht)),
      hbegun, hsends, finished_append_nil _ hdata, hcurrent]
    rfl
  · obtain ⟨hstop, -, heq⟩ := h.torn t (hmem t ht htorn) htorn
    refine ⟨hlater hstop, hcurrent, ?_⟩
    rw [haccepted, heq, hsends, finished_append_nil _ hdata]

/-- The call goes on, with nothing accepted. -/
theorem goto (h : v.Intact stopping) (hlater : stopping = true → stopping' = true)
    (hwithin : ∀ origin s, v'.current = some ⟨origin, .sending s⟩ → s.sent < s.data.length)
    (hidle : stopping = true → v.current = none → v'.current = none)
    (hbegun : begun v'.current = begun v.current) (haccepted : v'.accepted = v.accepted)
    (hsends : v'.sends = v.sends) : v'.Intact stopping' := by
  refine ⟨hwithin, fun hall => ?_, fun t ht htorn => ?_⟩
  · rw [hsends] at hall
    rw [haccepted, h.whole hall, hbegun, hsends]
  · rw [hsends] at ht
    obtain ⟨hstop, hnone, heq⟩ := h.torn t ht htorn
    exact ⟨hlater hstop, hidle hstop hnone, by rw [haccepted, heq, hsends]⟩

/-- While a call sends, no call was torn. -/
theorem not_torn (h : v.Intact stopping) {o : Outgoing} (hcurrent : v.current = some o) :
    ∀ s ∈ v.sends, ¬ s.Torn := by
  intro s hs htorn
  obtain ⟨-, hnone, -⟩ := h.torn s hs htorn
  rw [hcurrent] at hnone
  cases hnone

/-- **Every step of a line keeps what was accepted whole.** -/
theorem line {codec : Codec} {c c' : Connection} (hline : Line codec c v c' v')
    (hheld : Held c v.current) (h : v.Intact c.stopping) : v'.Intact c'.stopping := by
  cases hline with
  | other hsame =>
    exact h.goto hsame.stopping h.within (fun _ hnone => hnone) rfl rfl rfl
  | wire hv hc =>
    have hlater := (Connection.later_of_answer hc).stopping
    cases Wire.sends_of_step hv with
    | quiet hr hcurrent haccepted hsends =>
      exact h.goto hlater (by rw [hcurrent]; exact h.within)
        (fun _ hnone => by rw [hcurrent, hnone]) (by rw [hcurrent]) haccepted hsends
    | @begins o r hbegins hpermits hnone hcurrent haccepted hsends =>
      -- a session that is stopping lets no call send
      refine h.goto hlater ?_ (fun hstopping => ?_) ?_ haccepted hsends
      · intro origin s hs
        rw [hcurrent] at hs
        cases hbegins <;> cases hs
        decide
      · rw [hpermits.1] at hstopping
        cases hstopping
      · rw [hcurrent, hnone]
        cases hbegins <;> rfl
    | refused hbegins hrefused hnone hcurrent haccepted hsends =>
      exact h.append_nil hlater rfl rfl (by rw [hnone]; rfl) hcurrent haccepted hsends
    | declined horigin hnone hcurrent haccepted hsends =>
      exact h.append_nil hlater rfl rfl (by rw [hnone]; rfl) hcurrent haccepted hsends
    | validated hcurrent hlocked hwriter hvalid hsame =>
      subst hsame
      exact h.goto hlater h.within (fun _ hnone => hnone) rfl rfl rfl
    | stale hcurrent hwriter hstale hfinish =>
      subst hfinish
      exact h.append_nil hlater rfl rfl (by rw [hcurrent]; rfl) rfl rfl rfl
    | dropped hcurrent hwriter hresult hnone haccepted hsends =>
      exact h.append_nil hlater rfl rfl (by rw [hcurrent]; rfl) hnone haccepted hsends
    | framed hcurrent hpacket hframe hsame =>
      subst hsame
      refine h.goto hlater ?_ (fun _ hnone => ?_) (by rw [hcurrent]; rfl) rfl rfl
      · intro origin s hs
        cases hs
        exact length_of_frame hframe
      · rw [hcurrent] at hnone
        cases hnone
    | @goesOn origin s stage hcurrent hstage hsame =>
      subst hsame
      refine h.goto hlater ?_ (fun _ hnone => ?_) (by rw [hcurrent]; rfl) rfl rfl
      · intro origin' s' hs
        cases hs
        exact h.within origin s hcurrent
      · rw [hcurrent] at hnone
        cases hnone
    | @accepts origin s n hcurrent hpositive hstage hless hsame =>
      subst hsame
      have hnot := h.not_torn hcurrent
      refine ⟨fun origin' s' hs => ?_, fun _ => ?_, fun t ht htorn => absurd htorn (hnot t ht)⟩
      · cases hs
        exact hless
      · show v.accepted ++ (s.data.drop s.sent).take n = finished v.sends ++ s.data.take (s.sent + n)
        rw [h.whole hnot, hcurrent, List.append_assoc]
        show finished v.sends ++ (s.data.take s.sent ++ (s.data.drop s.sent).take n) = _
        rw [← List.take_add]
    | @completes origin s n hcurrent hstage hall hwithin hnone haccepted hsends =>
      have hnot := h.not_torn hcurrent
      have hmem : ∀ t ∈ v'.sends, ¬ t.Torn := by
        intro t ht htorn
        rw [hsends, List.mem_append, List.mem_singleton] at ht
        rcases ht with ht | rfl
        · exact hnot t ht htorn
        · exact absurd htorn.2.1 (lt_irrefl _)
      refine ⟨fun origin' s' hs => ?_, fun _ => ?_, fun t ht htorn => absurd htorn (hmem t ht)⟩
      · rw [hnone] at hs
        cases hs
      · rw [haccepted, h.whole hnot, hcurrent, hsends, finished_append, hnone, List.append_assoc]
        show finished v.sends ++ (s.data.take s.sent ++ (s.data.drop s.sent).take n) = _
        rw [← List.take_add, List.take_of_length_le hall]
        simp [Send.succeeded, begun]
    | @abandons origin s hcurrent hfailed hnone haccepted hsends =>
      have hnot := h.not_torn hcurrent
      have hwithin := h.within origin s hcurrent
      have hfinished : finished v'.sends = finished v.sends := by
        rw [hsends, finished_append]
        exact List.append_nil _
      have hstopping : c'.stopping = true := by
        rw [hcurrent] at hheld
        cases hcontent : origin.content with
        | none =>
          rw [ending_setup hcontent] at hc
          rw [Connection.requestDisconnect_eq hc]
        | some packet =>
          rw [ending_packet hcontent, Connection.answer_sending] at hc
          exact (Connection.sending_writing (hheld.writing hcontent) hc).2.1 _ rfl
      refine ⟨fun origin' s' hs => ?_, fun hall => ?_, fun t ht htorn => ?_⟩
      · rw [hnone] at hs
        cases hs
      · -- nothing of the byte string was accepted
        have hzero : s.sent = 0 := by
          by_contra hne
          refine hall ⟨origin, s.data, s.sent, .returned (-1)⟩ ?_ ⟨Nat.pos_of_ne_zero hne, hwithin, rfl⟩
          rw [hsends]
          exact List.mem_append_right _ (List.mem_singleton_self _)
        rw [haccepted, h.whole hnot, hfinished, hcurrent, hnone]
        show _ ++ s.data.take s.sent = _ ++ []
        rw [hzero, List.take_zero]
      · rw [hsends, List.mem_append, List.mem_singleton] at ht
        rcases ht with ht | rfl
        · exact absurd htorn (hnot t ht)
        · refine ⟨hstopping, hnone, ?_⟩
          rw [haccepted, h.whole hnot, hfinished, hcurrent]
          rfl

end Wire.Intact

/-! ## Runs -/

namespace Wire

variable {codec : Codec} {c c' : Connection} {v v' : Wire}

/-- **Behind a part of a byte string nothing is written.** -/
theorem Broken.line (hline : Line codec c v c' v') (hintact : v.Intact c.stopping)
    (h : v.Broken) : v'.Broken ∧ v'.accepted = v.accepted := by
  cases hline with
  | other hsame => exact ⟨h, rfl⟩
  | wire hv hc =>
    have hmore : ∀ {s : Send}, v'.current = none → v'.sends = v.sends ++ [s] →
        (∃ t ∈ v.sends, t.Torn) → v'.Broken := by
      rintro s - hsends ⟨t, ht, htorn⟩
      exact .inl ⟨t, by rw [hsends]; exact List.mem_append_left _ ht, htorn⟩
    -- no call begins or goes on sending where one is torn
    have htorn : v.current = none → ∃ t ∈ v.sends, t.Torn := by
      intro hnone
      rcases h with h | ⟨origin, s, hs, -⟩
      · exact h
      · rw [hnone] at hs
        cases hs
    have hfailed : ∀ {origin : Origin} {p : Progress}, v.current = some ⟨origin, p⟩ →
        ∃ s, p = .sending s ∧ s.stage = .failed ∧ 0 < s.sent := by
      intro origin p hcurrent
      rcases h with ⟨t, ht, htorn⟩ | ⟨origin', s, hs, hstage, hpositive⟩
      · exact absurd htorn (hintact.not_torn hcurrent t ht)
      · rw [hcurrent] at hs
        cases hs
        exact ⟨s, rfl, hstage, hpositive⟩
    cases Wire.sends_of_step hv with
    | quiet hr hcurrent haccepted hsends =>
      refine ⟨?_, haccepted⟩
      unfold Broken
      rw [hcurrent, hsends]
      exact h
    | begins hbegins hpermits hnone hcurrent haccepted hsends =>
      obtain ⟨t, ht, htorn⟩ := htorn hnone
      have hstopping := (hintact.torn t ht htorn).1
      rw [hpermits.1] at hstopping
      cases hstopping
    | refused hbegins hrefused hnone hcurrent haccepted hsends =>
      exact ⟨hmore hcurrent hsends (htorn hnone), haccepted⟩
    | declined horigin hnone hcurrent haccepted hsends =>
      exact ⟨hmore hcurrent hsends (htorn hnone), haccepted⟩
    | @validated o fails packet hcurrent hlocked hwriter hvalid hsame =>
      obtain ⟨origin, progress⟩ := o
      obtain ⟨s, rfl, -⟩ := hfailed hcurrent
      cases hlocked
    | stale hcurrent hwriter hstale hfinish =>
      obtain ⟨s, hs, -⟩ := hfailed hcurrent
      cases hs
    | dropped hcurrent hwriter hresult hnone haccepted hsends =>
      obtain ⟨s, hs, -⟩ := hfailed hcurrent
      cases hs
    | framed hcurrent hpacket hframe hsame =>
      obtain ⟨s, hs, -⟩ := hfailed hcurrent
      cases hs
    | goesOn stage hcurrent hstage hsame =>
      obtain ⟨s, hs, hfail, -⟩ := hfailed hcurrent
      cases hs
      exact absurd hfail hstage
    | accepts hcurrent hpositive hstage hless hsame =>
      obtain ⟨s, hs, hfail, -⟩ := hfailed hcurrent
      cases hs
      rw [hstage] at hfail
      cases hfail
    | completes hcurrent hstage hall hwithin hnone haccepted hsends =>
      obtain ⟨s, hs, hfail, -⟩ := hfailed hcurrent
      cases hs
      exact absurd hfail hstage
    | @abandons origin s hcurrent hstage hnone haccepted hsends =>
      obtain ⟨s', hs, -, hpositive⟩ := hfailed hcurrent
      cases hs
      refine ⟨.inl ⟨⟨origin, s.data, s.sent, .returned (-1)⟩, ?_, hpositive,
        hintact.within origin s hcurrent, rfl⟩, haccepted⟩
      rw [hsends]
      exact List.mem_append_right _ (List.mem_singleton_self _)

/-- **Calls are kept in the order in which they take the lock**, and none
takes it while another holds it. -/
theorem calls_step {current : Bool → AuthorizedPeer → Bool} {e : WireEvent} {r : Option Request}
    (hstep : v.step codec c current e = some (v', r)) :
    v'.calls = v.calls ∨ v.current = none ∧ ∃ origin, v'.calls = v.calls ++ [origin] := by
  have hcalls : ∀ {u : Wire} {s : Send}, u.current = none → u.sends = v.sends ++ [s] →
      u.calls = v.sends.map Send.origin ++ [s.origin] := by
    intro u s hcurrent hsends
    unfold calls
    rw [hcurrent, hsends, List.map_append]
    exact List.append_nil _
  have hcurrent : ∀ {o : Outgoing}, v.current = some o →
      v.calls = v.sends.map Send.origin ++ [o.origin] := by
    intro o h
    unfold calls
    rw [h]
    rfl
  have hidle : v.current = none → v.calls = v.sends.map Send.origin := by
    intro h
    unfold calls
    rw [h]
    exact List.append_nil _
  cases Wire.sends_of_step hstep with
  | quiet hr hsame haccepted hsends =>
    unfold calls
    rw [hsame, hsends]
    exact .inl rfl
  | @begins o r hbegins hpermits hnone hsome haccepted hsends =>
    refine .inr ⟨hnone, o.origin, ?_⟩
    rw [hidle hnone]
    unfold calls
    rw [hsome, hsends]
    rfl
  | refused hbegins hrefused hnone hnone' haccepted hsends =>
    exact .inr ⟨hnone, _, by rw [hcalls hnone' hsends, hidle hnone]⟩
  | declined horigin hnone hnone' haccepted hsends =>
    exact .inr ⟨hnone, _, by rw [hcalls hnone' hsends, hidle hnone]⟩
  | validated h hlocked hwriter hvalid hsame =>
    rw [hsame]
    exact .inl rfl
  | @stale origin fails packet h hwriter hstale hfinish =>
    rw [hcurrent h, hfinish]
    exact .inl (hcalls (s := ⟨origin, [], 0, .returned (-1)⟩) rfl rfl)
  | dropped h hwriter hresult hnone haccepted hsends =>
    exact .inl (by rw [hcalls hnone hsends, hcurrent h])
  | framed h hpacket hframe hsame =>
    rw [hcurrent h, hsame]
    exact .inl rfl
  | goesOn stage h hstage hsame =>
    rw [hcurrent h, hsame]
    exact .inl rfl
  | accepts h hpositive hstage hless hsame =>
    rw [hcurrent h, hsame]
    exact .inl rfl
  | completes h hstage hall hwithin hnone haccepted hsends =>
    exact .inl (by rw [hcalls hnone hsends, hcurrent h])
  | abandons h hstage hnone haccepted hsends =>
    exact .inl (by rw [hcalls hnone hsends, hcurrent h])

theorem calls_line (hline : Line codec c v c' v') :
    v'.calls = v.calls ∨ v.current = none ∧ ∃ origin, v'.calls = v.calls ++ [origin] := by
  cases hline with
  | other hsame => exact .inl rfl
  | wire hv hc => exact calls_step hv

/-- Before serialization nothing is written. -/
theorem accepted_of_locked {origin : Origin} (hline : Line codec c v c' v')
    (hlocked : v.current = some ⟨origin, .locked⟩) : v'.accepted = v.accepted := by
  cases hline with
  | other hsame => rfl
  | wire hv hc =>
    cases Wire.sends_of_step hv with
    | quiet _ _ haccepted => exact haccepted
    | begins _ _ _ _ haccepted => exact haccepted
    | refused _ _ _ _ haccepted => exact haccepted
    | declined _ _ _ haccepted => exact haccepted
    | validated _ _ _ _ hsame => rw [hsame]
    | stale _ _ _ hfinish =>
      rw [hfinish]
      rfl
    | dropped _ _ _ _ haccepted => exact haccepted
    | framed _ _ _ hsame => rw [hsame]
    | goesOn _ _ _ hsame => rw [hsame]
    | accepts hcurrent => cases hlocked.symm.trans hcurrent
    | completes hcurrent => cases hlocked.symm.trans hcurrent
    | abandons _ _ _ haccepted => exact haccepted

/-- A packet that is too large ends its call. -/
theorem serialize_tooLarge {origin : Origin} {packet : Json} {r : Option Request}
    (hcontent : origin.content = some packet) (hframe : frame codec.dump packet = .tooLarge)
    (h : v.serialize codec c origin = some (v', r)) :
    v' = v.finish ⟨origin, [], 0, .returned (-1)⟩ ∧ r = some (.sending false .refused)
      ∧ ∃ p, c.writer = .writing p := by
  cases origin with
  | preface => cases hcontent
  | hello => cases hcontent
  | reply p =>
    cases hcontent
    simp only [serialize, hframe] at h
    split at h
    · rename_i hwriter
      cases h
      exact ⟨rfl, rfl, _, hwriter⟩
    · cases h
  | packet p =>
    cases hcontent
    simp only [serialize, hframe] at h
    split at h
    · rename_i hwriter
      cases h
      exact ⟨rfl, rfl, _, hwriter⟩
    · cases h

end Wire

namespace Wired

variable {codec : Codec} {w : Wired} {events : List WiredEvent}

/-- What is whole is the byte strings of the calls that sent, and the
beginning of one more. -/
theorem exists_tail {v : Wire} {stopping : Bool} (h : v.Intact stopping) :
    ∃ tail, v.accepted = finished v.sends ++ tail
      ∧ (tail = [] ∨ ∃ data, v.Unfinished data ∧ tail <+: data ∧ tail ≠ data) := by
  have hproper : ∀ {data : Bytes} {n : ℕ}, n < data.length →
      data.take n <+: data ∧ data.take n ≠ data := by
    intro data n hn
    refine ⟨List.take_prefix n data, fun heq => ?_⟩
    have hlength := congrArg List.length heq
    rw [List.length_take] at hlength
    omega
  by_cases hall : ∀ s ∈ v.sends, ¬ s.Torn
  · refine ⟨begun v.current, h.whole hall, ?_⟩
    match hcurrent : v.current with
    | none => exact .inl rfl
    | some ⟨_, .locked⟩ => exact .inl rfl
    | some ⟨origin, .sending s⟩ =>
      exact .inr ⟨s.data, .inr ⟨origin, s, hcurrent, rfl⟩, hproper (h.within origin s hcurrent)⟩
  · push Not at hall
    obtain ⟨s, hs, htorn⟩ := hall
    refine ⟨s.data.take s.sent, (h.torn s hs htorn).2.2, .inr ⟨s.data, .inl ⟨s, hs, ?_, rfl⟩,
      hproper htorn.2.1⟩⟩
    unfold Send.succeeded
    rw [htorn.2.2]
    rfl

/-- In every run, what was accepted is whole. -/
theorem intact_of_runs (h : runs (Wired.step codec) .initial events = some w) {session : ℕ}
    {c : Connection} (hc : w.node.connection session = some c) :
    Held c (w.wire session).current ∧ (w.wire session).Intact c.stopping := by
  refine (line_of_runs (I := fun c v => Held c v.current ∧ v.Intact c.stopping) ?_ ?_ h).2 session c hc
  · intro outgoing
    refine ⟨rfl, fun _ _ h => (by cases h), fun _ => rfl, fun s hs => ?_⟩
    cases hs
  · intro c v c' v' hline hv
    exact ⟨Held.line hline hv.1, Wire.Intact.line hline hv.1 hv.2⟩

/-- **No byte behind a part of a byte string**, in every run that goes on. -/
theorem accepted_of_broken (h : runs (Wired.step codec) .initial events = some w) {session : ℕ}
    {c : Connection} (hc : w.node.connection session = some c) (hbroken : (w.wire session).Broken)
    {events' : List WiredEvent} {w' : Wired} (h' : runs (Wired.step codec) w events' = some w') :
    (w'.wire session).Broken ∧ (w'.wire session).accepted = (w.wire session).accepted
      ∧ ∃ c', w'.node.connection session = some c' := by
  induction events' using List.reverseRecOn generalizing w' with
  | nil =>
    cases h'
    exact ⟨hbroken, rfl, c, hc⟩
  | append_singleton es e ih =>
    obtain ⟨u, hu, hstep⟩ := runs_concat.mp h'
    obtain ⟨hbroken', haccepted, c', hc'⟩ := ih hu
    have hruns : runs (Wired.step codec) .initial (events ++ es) = some u :=
      runs_append_iff.mpr ⟨w, h, hu⟩
    obtain ⟨c'', hc'', hline⟩ := line_of_step (disciplined_of_runs hruns) hstep hc'
    obtain ⟨hbroken'', heq⟩ := hbroken'.line hline (intact_of_runs hruns hc').2
    exact ⟨hbroken'', heq.trans haccepted, c'', hc''⟩

/-- **Frames on the wire are whole.** In every run of a node with its wires,
whoever sends and whatever the kernel answers, what the socket of a session
accepted is the byte strings of the calls that returned a count, in the
order in which they took `write_mutex_`, and at most the beginning of one
more; once a call has written a part of its byte string and failed, nothing
is written any more; and a packet that is too large writes nothing and does
not stop the session. -/
theorem frames_whole (h : runs (Wired.step codec) .initial events = some w) {session : ℕ}
    {c : Connection} (hc : w.node.connection session = some c) :
    (∃ tail, (w.wire session).accepted = finished (w.wire session).sends ++ tail
      ∧ (tail = [] ∨ ∃ data, (w.wire session).Unfinished data ∧ tail <+: data ∧ tail ≠ data))
    ∧ (∀ e w', w.step codec e = some w' → (w'.wire session).calls = (w.wire session).calls
      ∨ (w.wire session).current = none
        ∧ ∃ origin, (w'.wire session).calls = (w.wire session).calls ++ [origin])
    ∧ ((w.wire session).Broken → ∀ events' w', runs (Wired.step codec) w events' = some w' →
      (w'.wire session).accepted = (w.wire session).accepted)
    ∧ ∀ origin packet, (w.wire session).current = some ⟨origin, .locked⟩ →
      origin.content = some packet → frame codec.dump packet = .tooLarge →
      (∀ e w', w.step codec e = some w' →
        (w'.wire session).accepted = (w.wire session).accepted)
      ∧ ∀ w', w.step codec (.wire session .serialize) = some w' →
        (w'.wire session).sends
            = (w.wire session).sends ++ [⟨origin, [], 0, .returned (-1)⟩]
          ∧ (w'.wire session).current = none
          ∧ w'.node.connection session = some { c with writer := .free } := by
  obtain ⟨hheld, hintact⟩ := intact_of_runs h hc
  have hline : ∀ {e w'}, w.step codec e = some w' → ∃ c', w'.node.connection session = some c'
      ∧ Line codec c (w.wire session) c' (w'.wire session) :=
    fun he => line_of_step (disciplined_of_runs h) he hc
  refine ⟨exists_tail hintact, fun e w' he => ?_, fun hbroken events' w' h' => ?_,
    fun origin packet hlocked hcontent hframe => ⟨fun e w' he => ?_, fun w' he => ?_⟩⟩
  · obtain ⟨c', -, hline⟩ := hline he
    exact Wire.calls_line hline
  · exact (accepted_of_broken h hc hbroken h').2.1
  · obtain ⟨c', -, hline⟩ := hline he
    exact Wire.accepted_of_locked hline hlocked
  · obtain ⟨b, hb, he⟩ := Option.bind_eq_some_iff.mp he
    obtain rfl := Option.some.inj (hc.symm.trans hb)
    obtain ⟨⟨v, r⟩, hv, he⟩ := Option.bind_eq_some_iff.mp he
    obtain ⟨n, hn, rfl⟩ := Option.map_eq_some_iff.mp he
    obtain ⟨c', hc', hconnection⟩ := answer_of_request hb hn
    simp only [Wire.step, hlocked] at hv
    obtain ⟨rfl, rfl, p, hwriter⟩ := Wire.serialize_tooLarge hcontent hframe hv
    rw [Connection.answer_sending] at hc'
    have hfree := (Connection.sending_writing hwriter hc').2.2 rfl
    refine ⟨?_, ?_, by rw [hconnection, Function.update_self, hfree]⟩
    · show (Function.update w.wire session _ session).sends = _
      rw [Function.update_self]
      rfl
    · show (Function.update w.wire session _ session).current = _
      rw [Function.update_self]
      rfl

/-! ## A preface that is torn -/

/-- The text of a packet with this payload. Its strings need no escapes. -/
def packetText (deviceId payload type : Bytes) : Bytes :=
  ascii "\x7b\"device_id\":\"" ++ deviceId ++ ascii "\",\"payload\":" ++ payload ++ ascii ",\"type\":\""
    ++ type ++ ascii "\"\x7d"

/-- What the JSON library makes of the packets of the runs below. -/
def sampleDump (packet : Json) : Serialization where
  output :=
    let deviceId := ((packet.find (ascii "device_id")).bind Json.text).getD []
    match (packet.find (ascii "payload")).bind (fun payload => (payload.find (ascii "text")).bind Json.text) with
    | some text => packetText deviceId (ascii "\x7b\"text\":\"" ++ text ++ ascii "\"\x7d") (ascii "message")
    | none => packetText deviceId
        (ascii "\x7b\"device_name\":\"Gasoline\",\"device_type\":\"linux\"\x7d") (ascii "hello")
  completes := true

/-- The JSON library, and a device. -/
def sampleCodec : Codec where
  toHost := Node.sampleHost
  dump := sampleDump

/-- Four bytes of the preface are accepted, behind an interrupt and a poll,
and then `::send` fails. -/
def tornPreface : List WiredEvent :=
  [.node (.create true), .wire 1 (.start true), .wire 1 .work,
    .wire 1 (.transmit false .error), .wire 1 (.transmit false .interrupted),
    .wire 1 (.transmit false .error), .wire 1 (.transmit false .blocked),
    .wire 1 (.transmit false .writable), .wire 1 (.transmit false .error),
    .wire 1 (.transmit false (.accepted 4)), .wire 1 (.transmit false .error),
    .wire 1 (.transmit false .error), .wire 1 (.transmit false .error)]

/-- Nothing is written behind it. -/
theorem frames_whole_torn :
    ∃ w, runs (Wired.step sampleCodec) .initial tornPreface = some w
      ∧ (w.wire 1).accepted = prefaceBytes.take 4
      ∧ ∀ events' w', runs (Wired.step sampleCodec) w events' = some w' →
        (w'.wire 1).accepted = prefaceBytes.take 4 := by
  obtain ⟨w, hrun, hw⟩ : ∃ w, runs (Wired.step sampleCodec) .initial tornPreface = some w
      ∧ ((w.wire 1).accepted, decide (∃ s ∈ (w.wire 1).sends, s.Torn), (w.node.connection 1).isSome)
        = (prefaceBytes.take 4, true, true) :=
    Option.map_eq_some_iff.mp (by decide +kernel)
  simp only [Prod.mk.injEq, decide_eq_true_eq] at hw
  obtain ⟨haccepted, htorn, hsome⟩ := hw
  obtain ⟨c, hc⟩ := Option.isSome_iff_exists.mp hsome
  refine ⟨w, hrun, haccepted, fun events' w' h' => ?_⟩
  rw [(frames_whole hrun hc).2.2.1 (.inl htorn) events' w' h', haccepted]

end Wired

end Gasoline
