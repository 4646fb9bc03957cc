import Gasoline.WireFrames

/-!
# The worker and the prefaces

A direction of a session begins with the preface, and no record is sent
before the preface of the peer was validated. The worker keeps to that: it
sends its preface and its hello once, and its hello and its pongs only
behind both prefaces (`Prefaced`), whatever the kernel answers and whoever
else holds the lock.
-/

namespace Gasoline

/-! ## The parser -/

namespace RecordParser

variable {σ : Type}

theorem phase_headerLoop (p : RecordParser) (input : Bytes) :
    (headerLoop p input).1.phase = p.phase := by
  induction input generalizing p with
  | nil => rfl
  | cons b input ih =>
    unfold headerLoop
    split
    · exact ih _
    · rfl

/-- What a pass leaves is past the preface where the parser was, or where a
record was handed on. -/
def Iteration.Past (past : Bool) (log : List Bytes) : Iteration (List Bytes) → Prop
  | .next q t _ => (past = true → q.prefaceComplete = true) ∧ (t ≠ log → q.prefaceComplete = true)
  | .exit q _ _ => past = true → q.prefaceComplete = true

/-- **A parser does not go back to the preface**, and hands on no record
before it. -/
theorem iterate_past (p : RecordParser) (log : List Bytes) (input : Bytes) :
    (p.iterate collect log input).Past p.prefaceComplete log := by
  unfold iterate
  split
  · rename_i hphase
    have hnot : p.prefaceComplete = false := by
      unfold prefaceComplete
      rw [hphase]
      rfl
    rw [hnot]
    unfold iteratePreface
    split
    · exact fun h => (by cases h)
    · split <;> exact ⟨fun h => (by cases h), fun hne => absurd rfl hne⟩
  · rename_i hphase
    have hloop : (headerLoop p input).1.phase = .header := by rw [phase_headerLoop, hphase]
    have hpast : ∀ {q : RecordParser}, q.phase = .header → q.prefaceComplete = true := by
      intro q hq
      unfold prefaceComplete
      rw [hq]
      rfl
    unfold iterateHeader
    split
    rename_i q rest hq
    rw [hq] at hloop
    split
    · exact ⟨fun _ => hpast hloop, fun hne => absurd rfl hne⟩
    · unfold headerComplete
      simp only
      split
      · exact fun _ => hpast hloop
      · split
        · exact ⟨fun _ => hpast hloop, fun _ => hpast hloop⟩
        · exact ⟨fun _ => rfl, fun _ => rfl⟩
  · rename_i hphase
    unfold iteratePayload
    simp only
    split
    · exact ⟨fun _ => rfl, fun _ => rfl⟩
    · refine ⟨fun h => h, fun hne => absurd rfl hne⟩

/-- The end of the stream leaves the phase alone. -/
theorem prefaceComplete_finish (p : RecordParser) : p.finish.1.prefaceComplete = p.prefaceComplete := by
  unfold finish
  split
  · rfl
  split
  · rfl
  split
  · rfl
  split
  · rfl
  split <;> rfl

end RecordParser

/-! ## The worker -/

/-- The worker is past `send_preface`. -/
def Worker.isPast : Worker → Bool
  | .idle => false
  | .preface => false
  | .ended => false
  | _ => true

/-- The worker is past the preface of the peer. -/
def Worker.isResumed : Worker → Bool
  | .accept _ => true
  | .greet _ => true
  | .ungreeted _ => true
  | .accepted _ => true
  | .handle _ => true
  | _ => false

/-- The calls of `send_preface`. -/
def Origin.isPreface : Origin → Bool
  | .preface => true
  | _ => false

/-- The calls of `send_initial_hello`. -/
def Origin.isHello : Origin → Bool
  | .hello => true
  | _ => false

/-- Who waits for a call that sends. -/
def Origin.Concerns : Origin → Worker → Prop
  | .preface, worker => worker = .preface
  | .hello, worker => ∃ k, worker = .greet k
  | .reply _, worker => ∃ rest, worker = .handle rest
  | .packet _, _ => True

namespace Wire

/-- The complete preface was written. -/
def PrefaceWritten (v : Wire) : Prop :=
  ∃ s ∈ v.sends, s.origin = .preface ∧ s.data = prefaceBytes ∧ s.succeeded = true

/-- **The worker keeps to the order**: it is past its preface where it
receives, and past that of the peer where it handles records; and it calls
`send_preface` and `send_initial_hello` once. -/
structure Prefaced (v : Wire) : Prop where
  idle : v.started = false → v.worker = .idle
  past : v.worker.isPast = true → v.localPrefaceSent = true
  resumed : v.worker.isResumed = true → v.parser.prefaceComplete = true
  owner : ∀ o, v.current = some o → o.origin.Concerns v.worker
  data : ∀ s, v.current = some ⟨.preface, .sending s⟩ → s.data = prefaceBytes
  written : v.localPrefaceSent = true → v.PrefaceWritten
  prefaces : v.calls.countP Origin.isPreface ≤ 1
  noPreface : v.worker = .idle ∨ (v.worker = .preface ∧ ∀ o, v.current = some o → o.origin ≠ .preface) →
    v.calls.countP Origin.isPreface = 0
  greets : ∀ k, v.worker = .greet k → v.peerPrefaceReceived = true
  hellos : v.calls.countP Origin.isHello ≤ 1
  noHello : v.peerPrefaceReceived = false
      ∨ ((∃ k, v.worker = .greet k) ∧ ∀ o, v.current = some o → o.origin ≠ .hello) →
    v.calls.countP Origin.isHello = 0

variable {v v' : Wire}

theorem calls_finish_current {o : Outgoing} (h : v.current = some o) {s : Send}
    (horigin : s.origin = o.origin) : (v.finish s).calls = v.calls := by
  unfold calls finish
  rw [h, List.map_append]
  simp [horigin]

theorem calls_finish_none (h : v.current = none) (s : Send) :
    (v.finish s).calls = v.calls ++ [s.origin] := by
  unfold calls finish
  rw [h, List.map_append]
  simp

theorem calls_begin (h : v.current = none) (o : Outgoing) :
    ({ v with current := some o } : Wire).calls = v.calls ++ [o.origin] := by
  unfold calls
  rw [h]
  simp

theorem PrefaceWritten.finish (h : v.PrefaceWritten) (s : Send) : (v.finish s).PrefaceWritten := by
  obtain ⟨t, ht, hpreface⟩ := h
  exact ⟨t, List.mem_append_left _ ht, hpreface⟩

/-- **The worker goes somewhere else** than to `send_preface`, and no call
that it waits for sends. -/
theorem Prefaced.move (h : v.Prefaced) (hcurrent : v'.current = v.current) (hsends : v'.sends = v.sends)
    (hsent : v'.localPrefaceSent = v.localPrefaceSent) (hstarted : v'.started = v.started)
    (hactive : v.worker ≠ .idle) (hfree : ∀ o, v.current = some o → ∃ p, o.origin = .packet p)
    (hidle : v'.worker ≠ .idle) (hpreface : v'.worker ≠ .preface)
    (hpast : v'.worker.isPast = true → v.localPrefaceSent = true)
    (hresumed : v'.worker.isResumed = true → v'.parser.prefaceComplete = true)
    (hgreets : ∀ k, v'.worker = .greet k → v'.peerPrefaceReceived = true)
    (hhello : v'.peerPrefaceReceived = false ∨ (∃ k, v'.worker = .greet k) →
      v.calls.countP Origin.isHello = 0) : v'.Prefaced := by
  have hcalls : v'.calls = v.calls := by
    unfold calls
    rw [hcurrent, hsends]
  refine ⟨fun hs => ?_, fun hp => by rw [hsent]; exact hpast hp, hresumed, fun o ho => ?_,
    fun s hs => ?_, fun hs => ?_, by rw [hcalls]; exact h.prefaces, fun hw => ?_, hgreets,
    by rw [hcalls]; exact h.hellos, fun hw => ?_⟩
  · exact absurd (h.idle (hstarted ▸ hs)) hactive
  · rw [hcurrent] at ho
    obtain ⟨p, hp⟩ := hfree o ho
    rw [hp]
    trivial
  · exact h.data s (hcurrent ▸ hs)
  · unfold PrefaceWritten
    rw [hsends]
    exact h.written (hsent ▸ hs)
  · rcases hw with hw | hw
    · exact absurd hw hidle
    · exact absurd hw.1 hpreface
  · rw [hcalls]
    exact hhello (hw.imp id (fun hw => hw.1))

theorem Prefaced.begins (h : v.Prefaced) (hnone : v.current = none) {o : Outgoing}
    (hconcerns : o.origin.Concerns v.worker)
    (hdata : ∀ s, o = ⟨.preface, .sending s⟩ → s.data = prefaceBytes) :
    ({ v with current := some o } : Wire).Prefaced := by
  have hcalls := calls_begin hnone o
  have hidle : ∀ o', v.current = some o' → o'.origin ≠ .preface ∧ o'.origin ≠ .hello := by
    intro o' ho'
    rw [hnone] at ho'
    cases ho'
  refine ⟨h.idle, h.past, h.resumed, fun o' ho' => ?_, fun s hs => hdata s (Option.some.inj hs),
    h.written, ?_, fun hw => ?_, h.greets, ?_, fun hw => ?_⟩
  · cases ho'
    exact hconcerns
  · rw [hcalls, List.countP_append]
    cases horigin : o.origin with
    | preface =>
      rw [horigin] at hconcerns
      rw [h.noPreface (.inr ⟨hconcerns, fun o' ho' => (hidle o' ho').1⟩)]
      exact le_refl 1
    | _ => exact h.prefaces
  · -- the call is not `send_preface`
    rw [hcalls, List.countP_append]
    cases horigin : o.origin with
    | preface =>
      rw [horigin] at hconcerns
      rcases hw with hw | ⟨-, hnot⟩
      · cases hconcerns.symm.trans hw
      · exact absurd horigin (hnot o rfl)
    | _ => exact h.noPreface (hw.imp id (fun hw => ⟨hw.1, fun o' ho' => (hidle o' ho').1⟩))
  · rw [hcalls, List.countP_append]
    cases horigin : o.origin with
    | hello =>
      rw [horigin] at hconcerns
      rw [h.noHello (.inr ⟨hconcerns, fun o' ho' => (hidle o' ho').2⟩)]
      exact le_refl 1
    | _ => exact h.hellos
  · rw [hcalls, List.countP_append]
    cases horigin : o.origin with
    | hello =>
      rw [horigin] at hconcerns
      obtain ⟨k, hk⟩ := hconcerns
      rcases hw with hw | ⟨-, hnot⟩
      · cases (h.greets k hk).symm.trans hw
      · exact absurd horigin (hnot o rfl)
    | _ => exact h.noHello (hw.imp id (fun hw => ⟨hw.1, fun o' ho' => (hidle o' ho').2⟩))

/-- **A call of `send_packet` is over**, or was refused. -/
theorem Prefaced.settle (h : v.Prefaced) {s : Send} (hcontent : s.origin.content.isSome = true)
    (hcurrent : v.current = none ∨ ∃ o, v.current = some o ∧ o.origin = s.origin) :
    (v.finish s).Prefaced := by
  have hpacket : s.origin.isPreface = false ∧ s.origin.isHello = false := by
    cases horigin : s.origin with
    | preface =>
      rw [horigin] at hcontent
      cases hcontent
    | hello =>
      rw [horigin] at hcontent
      cases hcontent
    | _ => exact ⟨rfl, rfl⟩
  have hidle : ∀ o', v.current = some o' → o'.origin ≠ .preface ∧ o'.origin ≠ .hello := by
    intro o' ho'
    rcases hcurrent with hnone | ⟨o, ho, horigin⟩
    · rw [hnone] at ho'
      cases ho'
    · rw [ho] at ho'
      cases ho'
      rw [horigin]
      refine ⟨fun heq => ?_, fun heq => ?_⟩ <;> rw [heq] at hcontent <;> cases hcontent
  have hcalls : (v.finish s).calls.countP Origin.isPreface = v.calls.countP Origin.isPreface
      ∧ (v.finish s).calls.countP Origin.isHello = v.calls.countP Origin.isHello := by
    rcases hcurrent with hnone | ⟨o, ho, horigin⟩
    · rw [calls_finish_none hnone, List.countP_append, List.countP_append]
      simp [hpacket]
    · rw [calls_finish_current ho horigin.symm]
      exact ⟨rfl, rfl⟩
  refine ⟨h.idle, h.past, h.resumed, fun o ho => (by cases ho), fun s hs => (by cases hs),
    fun hs => (h.written hs).finish s, by rw [hcalls.1]; exact h.prefaces, fun hw => ?_, h.greets,
    by rw [hcalls.2]; exact h.hellos, fun hw => ?_⟩
  · rw [hcalls.1]
    exact h.noPreface (hw.imp id (fun hw => ⟨hw.1, fun o' ho' => (hidle o' ho').1⟩))
  · rw [hcalls.2]
    exact h.noHello (hw.imp id (fun hw => ⟨hw.1, fun o' ho' => (hidle o' ho').2⟩))

/-- **`send_preface` or `send_initial_hello` is over**, and the worker goes
on. -/
theorem Prefaced.setup (h : v.Prefaced) {s : Send} (hcontent : s.origin.content = none)
    (hconcerns : s.origin.Concerns v.worker)
    (hcurrent : v.current = none ∨ ∃ o, v.current = some o ∧ o.origin = s.origin)
    (hnone : v'.current = none) (hsends : v'.sends = v.sends ++ [s])
    (hstarted : v'.started = v.started) (hparser : v'.parser = v.parser)
    (hreceived : v'.peerPrefaceReceived = v.peerPrefaceReceived)
    (hworker : v'.worker ≠ .idle ∧ v'.worker ≠ .preface ∧ ∀ k, v'.worker ≠ .greet k)
    (hpast : v'.worker.isPast = true → v'.localPrefaceSent = true)
    (hresumed : v'.worker.isResumed = true → v.worker.isResumed = true)
    (hwritten : v'.localPrefaceSent = true → v.localPrefaceSent = true
      ∨ s.origin = .preface ∧ s.data = prefaceBytes ∧ s.succeeded = true) : v'.Prefaced := by
  obtain ⟨hidle, hpreface, hgreet⟩ := hworker
  have hcalls : v'.calls = (v.finish s).calls := by
    unfold calls
    rw [hnone, hsends]
    rfl
  -- a call that was there is counted already, and one that was not is the first
  have hcount : ∀ {q : Origin → Bool},
      (v.current = none → v.calls.countP q ≤ 0 ∨ q s.origin = false) →
      v.calls.countP q ≤ 1 → v'.calls.countP q ≤ 1 := by
    intro q hfirst hq
    rw [hcalls]
    rcases hcurrent with hc | ⟨o, ho, horigin⟩
    · rw [calls_finish_none hc, List.countP_append, List.countP_singleton]
      rcases hfirst hc with hzero | hnot
      · split <;> omega
      · rw [hnot]
        exact hq
    · rw [calls_finish_current ho horigin.symm]
      exact hq
  have hempty : v.current = none → ∀ o, v.current = some o → o.origin ≠ .preface ∧ o.origin ≠ .hello := by
    intro hc o ho
    rw [hc] at ho
    cases ho
  refine ⟨fun hs => ?_, hpast, fun hr => by rw [hparser]; exact h.resumed (hresumed hr),
    fun o ho => ?_, fun t ht => ?_, fun hs => ?_, hcount (fun hc => ?_) h.prefaces, fun hw => ?_,
    fun k hk => absurd hk (hgreet k), hcount (fun hc => ?_) h.hellos, fun hw => ?_⟩
  · have hworker := h.idle (hstarted ▸ hs)
    cases horigin : s.origin with
    | preface =>
      rw [horigin] at hconcerns
      cases hconcerns.symm.trans hworker
    | hello =>
      rw [horigin] at hconcerns
      obtain ⟨k, hk⟩ := hconcerns
      cases hk.symm.trans hworker
    | _ =>
      rw [horigin] at hcontent
      cases hcontent
  · rw [hnone] at ho
    cases ho
  · rw [hnone] at ht
    cases ht
  · rcases hwritten hs with hs | hs
    · obtain ⟨t, ht, htail⟩ := h.written hs
      exact ⟨t, by rw [hsends]; exact List.mem_append_left _ ht, htail⟩
    · exact ⟨s, by rw [hsends]; exact List.mem_append_right _ (List.mem_singleton_self s), hs⟩
  · cases horigin : s.origin with
    | preface =>
      rw [horigin] at hconcerns
      exact .inl (h.noPreface (.inr ⟨hconcerns, fun o ho => (hempty hc o ho).1⟩)).le
    | _ => exact .inr rfl
  · rcases hw with hw | hw
    · exact absurd hw hidle
    · exact absurd hw.1 hpreface
  · cases horigin : s.origin with
    | hello =>
      rw [horigin] at hconcerns
      exact .inl (h.noHello (.inr ⟨hconcerns, fun o ho => (hempty hc o ho).2⟩)).le
    | _ => exact .inr rfl
  · have hw : v.peerPrefaceReceived = false := by
      rcases hw with hw | ⟨⟨k, hk⟩, -⟩
      · exact hreceived ▸ hw
      · exact absurd hk (hgreet k)
    have hhello : s.origin.isHello = false := by
      cases horigin : s.origin with
      | hello =>
        rw [horigin] at hconcerns
        obtain ⟨k, hk⟩ := hconcerns
        cases (h.greets k hk).symm.trans hw
      | _ => rfl
    have hzero := h.noHello (.inl hw)
    rw [hcalls]
    rcases hcurrent with hc | ⟨o, ho, horigin⟩
    · rw [calls_finish_none hc, List.countP_append, hzero, List.countP_singleton, hhello]
      rfl
    · rw [calls_finish_current ho horigin.symm, hzero]

variable {codec : Codec} {c : Connection} {current : Bool → AuthorizedPeer → Bool}
  {r : Option Request}

/-- A call that the worker does not wait for. -/
theorem packet_of_not_byWorker {o : Outgoing} (h : o.byWorker = false) : ∃ p, o.origin = .packet p := by
  obtain ⟨origin, progress⟩ := o
  cases origin with
  | packet p => exact ⟨p, rfl⟩
  | _ => cases h

/-- The worker goes on behind its preface, to neither `send_preface` nor
`send_initial_hello`. -/
theorem Prefaced.goto (h : v.Prefaced) (hfree : ∀ o, v.current = some o → ∃ p, o.origin = .packet p)
    (hpast : v.worker.isPast = true)
    (hsame : v'.current = v.current ∧ v'.sends = v.sends ∧ v'.localPrefaceSent = v.localPrefaceSent
      ∧ v'.started = v.started ∧ v'.peerPrefaceReceived = v.peerPrefaceReceived)
    (hworker : v'.worker ≠ .idle ∧ v'.worker ≠ .preface ∧ ∀ k, v'.worker ≠ .greet k)
    (hresumed : v'.worker.isResumed = true → v'.parser.prefaceComplete = true) : v'.Prefaced := by
  obtain ⟨hcurrent, hsends, hsent, hstarted, hreceived⟩ := hsame
  refine h.move hcurrent hsends hsent hstarted ?_ hfree hworker.1 hworker.2.1
    (fun _ => h.past hpast) hresumed (fun k hk => absurd hk (hworker.2.2 k)) ?_
  · intro hidle
    rw [hidle] at hpast
    cases hpast
  · rintro (hfalse | ⟨k, hk⟩)
    · exact h.noHello (.inl (hreceived ▸ hfalse))
    · exact absurd hk (hworker.2.2 k)

theorem Prefaced.work (h : v.Prefaced) (hfree : ∀ o, v.current = some o → ∃ p, o.origin = .packet p)
    (hnone : v.worker = .preface ∨ (∃ k, v.worker = .greet k) → v.current = none)
    (hstep : v.work c = some (v', r)) : v'.Prefaced := by
  have hgoto : ∀ {u : Wire}, v.worker.isPast = true →
      u.current = v.current ∧ u.sends = v.sends ∧ u.localPrefaceSent = v.localPrefaceSent
        ∧ u.started = v.started ∧ u.peerPrefaceReceived = v.peerPrefaceReceived →
      (u.worker ≠ .idle ∧ u.worker ≠ .preface ∧ ∀ k, u.worker ≠ .greet k) →
      (u.worker.isResumed = true → u.parser.prefaceComplete = true) → u.Prefaced :=
    h.goto hfree
  unfold Wire.work at hstep
  split at hstep
  · -- `send_preface`
    rename_i hworker
    have hc := hnone (.inl hworker)
    split at hstep
    · cases hstep
    split at hstep
    · cases hstep
      exact h.setup (s := ⟨.preface, [], 0, .returned (-1)⟩) rfl hworker (.inl hc) rfl rfl rfl rfl rfl
        (by simp) (fun hp => by cases hp) (fun hr => by cases hr) .inl
    split at hstep
    · rename_i hsent
      cases hstep
      exact h.setup (s := ⟨.preface, [], 0, .returned 0⟩) rfl hworker (.inl hc) rfl rfl rfl rfl rfl
        (by simp) (fun _ => hsent) (fun hr => by cases hr) .inl
    · cases hstep
      exact h.begins hc hworker (fun s hs => by cases hs; rfl)
  · rename_i hworker
    split at hstep <;> cases hstep <;>
      exact hgoto (by rw [hworker]; rfl) ⟨rfl, rfl, rfl, rfl, rfl⟩ (by simp) (fun hr => by cases hr)
  · -- at the end of the input
    rename_i hworker
    split at hstep <;> cases hstep
    · rename_i hcomplete
      rw [Bool.and_eq_true] at hcomplete
      exact hgoto (by rw [hworker]; rfl) ⟨rfl, rfl, rfl, rfl, rfl⟩ (by simp) (fun _ => hcomplete.1)
    · exact hgoto (by rw [hworker]; rfl) ⟨rfl, rfl, rfl, rfl, rfl⟩ (by simp) (fun hr => by cases hr)
  · -- a pass of the parser
    rename_i input _ hworker
    have hiterate := RecordParser.iterate_past v.parser [] input
    split at hstep
    · cases hstep
      exact hgoto (by rw [hworker]; rfl) ⟨rfl, rfl, rfl, rfl, rfl⟩ (by simp) (fun hr => by cases hr)
    · rename_i hnext
      rw [hnext] at hiterate
      cases hstep
      exact hgoto (by rw [hworker]; rfl) ⟨rfl, rfl, rfl, rfl, rfl⟩ (by simp)
        (fun _ => hiterate.2 (by simp))
    · cases hstep
      exact hgoto (by rw [hworker]; rfl) ⟨rfl, rfl, rfl, rfl, rfl⟩ (by simp) (fun hr => by cases hr)
  · -- `accept_peer_preface`
    rename_i k hworker
    have hresumed := h.resumed (by rw [hworker]; rfl)
    split at hstep <;> cases hstep
    · exact hgoto (by rw [hworker]; rfl) ⟨rfl, rfl, rfl, rfl, rfl⟩ (by simp) (fun _ => hresumed)
    · rename_i hfirst
      exact h.move rfl rfl rfl rfl (by simp [hworker]) hfree (by simp) (by simp)
        (fun _ => h.past (by rw [hworker]; rfl)) (fun _ => hresumed) (fun _ _ => rfl)
        (fun _ => h.noHello (.inl (by simpa using hfirst)))
  · -- `send_initial_hello`
    rename_i k hworker
    have hc := hnone (.inr ⟨k, hworker⟩)
    split at hstep
    · cases hstep
    split at hstep
    · cases hstep
      exact h.setup (s := ⟨.hello, [], 0, .returned (-1)⟩) rfl ⟨k, hworker⟩ (.inl hc) rfl rfl rfl rfl
        rfl (by simp) (fun _ => h.past (by rw [hworker]; rfl))
        (fun _ => by rw [hworker]; rfl) .inl
    · cases hstep
      exact h.begins hc ⟨k, hworker⟩ (fun s hs => by cases hs)
  · rename_i k hworker
    cases hstep
    exact hgoto (by rw [hworker]; rfl) ⟨rfl, rfl, rfl, rfl, rfl⟩ (by simp)
      (fun _ => h.resumed (by rw [hworker]; rfl))
  · rename_i hworker
    cases hstep
    exact hgoto (by rw [hworker]; rfl) ⟨rfl, rfl, rfl, rfl, rfl⟩ (by simp) (fun hr => by cases hr)
  · -- the record is handled, or the session is stopping
    rename_i payload rest hworker
    split at hstep <;> cases hstep
    · exact hgoto (by rw [hworker]; rfl) ⟨rfl, rfl, rfl, rfl, rfl⟩ (by simp) (fun hr => by cases hr)
    · exact hgoto (by rw [hworker]; rfl) ⟨rfl, rfl, rfl, rfl, rfl⟩ (by simp)
        (fun _ => h.resumed (by rw [hworker]; rfl))
  · rename_i hworker
    cases hstep
    exact hgoto (by rw [hworker]; rfl) ⟨rfl, rfl, rfl, rfl, rfl⟩ (by simp) (fun hr => by cases hr)
  · cases hstep

theorem Prefaced.proceed (h : v.Prefaced) {origin : Origin} {progress : Progress}
    (hcurrent : v.current = some ⟨origin, progress⟩) {progress' : Progress} (accepted : Bytes)
    (hdata : origin = .preface → ∀ s, progress' = .sending s → s.data = prefaceBytes) :
    ({ v with accepted := accepted, current := some ⟨origin, progress'⟩ } : Wire).Prefaced := by
  have hcalls : ({ v with accepted := accepted, current := some ⟨origin, progress'⟩ } : Wire).calls
      = v.calls := by
    unfold calls
    rw [hcurrent]
    rfl
  have horigin : ∀ {o : Origin},
      (∀ o', some (⟨origin, progress'⟩ : Outgoing) = some o' → o'.origin ≠ o) →
      ∀ o', v.current = some o' → o'.origin ≠ o := by
    intro o hnot o' ho'
    rw [hcurrent] at ho'
    cases ho'
    exact hnot ⟨origin, progress'⟩ rfl
  refine ⟨h.idle, h.past, h.resumed, fun o ho => ?_, fun s hs => ?_, h.written,
    by rw [hcalls]; exact h.prefaces, fun hw => ?_, h.greets, by rw [hcalls]; exact h.hellos,
    fun hw => ?_⟩
  · cases ho
    exact h.owner ⟨origin, progress⟩ hcurrent
  · cases hs
    exact hdata rfl s rfl
  · rw [hcalls]
    exact h.noPreface (hw.imp id (fun hw => ⟨hw.1, horigin hw.2⟩))
  · rw [hcalls]
    exact h.noHello (hw.imp id (fun hw => ⟨hw.1, horigin hw.2⟩))

theorem Prefaced.beginSend (h : v.Prefaced) (hnone : v.current = none) {origin : Origin}
    (hcontent : origin.content.isSome = true) (hconcerns : origin.Concerns v.worker) :
    (v.beginSend c origin).Prefaced := by
  unfold Wire.beginSend
  split
  · exact h.settle hcontent (.inl hnone)
  · exact h.begins hnone hconcerns (fun s hs => by cases hs)

/-- `send_initial_hello` is over, and the worker goes on. -/
theorem Prefaced.greeted (h : v.Prefaced) {progress : Progress}
    (hcurrent : v.current = some ⟨.hello, progress⟩) {s : Send} (horigin : s.origin = .hello)
    {worker : Worker} (hworker : worker = .ended ∨ ∃ sent, worker = Worker.greeted sent v.worker) :
    ({ v.finish s with worker := worker } : Wire).Prefaced := by
  obtain ⟨k, hk⟩ := h.owner _ hcurrent
  have hworker : worker = .ended ∨ worker = .accepted k ∨ worker = .ungreeted k := by
    rcases hworker with hended | ⟨sent, hsent⟩
    · exact .inl hended
    · rw [hk] at hsent
      cases sent with
      | true => exact .inr (.inl hsent)
      | false => exact .inr (.inr hsent)
  refine h.setup (s := s) (by rw [horigin]; rfl) (by rw [horigin]; exact ⟨k, hk⟩)
    (.inr ⟨_, hcurrent, horigin.symm⟩) rfl rfl rfl rfl rfl ?_
    (fun _ => h.past (by rw [hk]; rfl)) (fun _ => by rw [hk]; rfl) .inl
  rcases hworker with rfl | rfl | rfl <;> simp

theorem Prefaced.complete (h : v.Prefaced) {origin : Origin} {s : Sending} (accepted : Bytes)
    (hcurrent : v.current = some ⟨origin, .sending s⟩)
    (hstep : ({ v with accepted := accepted } : Wire).complete origin s.data = (v', r)) :
    v'.Prefaced := by
  have h' : ({ v with accepted := accepted } : Wire).Prefaced :=
    ⟨h.idle, h.past, h.resumed, h.owner, h.data, h.written, h.prefaces, h.noPreface, h.greets,
      h.hellos, h.noHello⟩
  cases origin with
  | preface =>
    cases hstep
    have hdata := h.data s hcurrent
    exact h'.setup (s := ⟨.preface, s.data, s.data.length, .returned s.data.length⟩) rfl
      (h.owner _ hcurrent) (.inr ⟨_, hcurrent, rfl⟩) rfl rfl rfl rfl rfl (by simp) (fun _ => rfl)
      (fun hr => by cases hr) (fun _ => .inr ⟨rfl, hdata, by simp [Send.succeeded]⟩)
  | hello =>
    cases hstep
    exact h'.greeted hcurrent rfl (.inr ⟨true, rfl⟩)
  | reply p =>
    cases hstep
    exact h'.settle rfl (.inr ⟨_, hcurrent, rfl⟩)
  | packet p =>
    cases hstep
    exact h'.settle rfl (.inr ⟨_, hcurrent, rfl⟩)

theorem Prefaced.abandon (h : v.Prefaced) {origin : Origin} {s : Sending}
    (hcurrent : v.current = some ⟨origin, .sending s⟩) (hstep : v.abandon origin s = (v', r)) :
    v'.Prefaced := by
  cases origin with
  | preface =>
    cases hstep
    exact h.setup (s := ⟨.preface, s.data, s.sent, .returned (-1)⟩) rfl
      (h.owner _ hcurrent) (.inr ⟨_, hcurrent, rfl⟩) rfl rfl rfl rfl rfl (by simp)
      (fun hp => by cases hp) (fun hr => by cases hr) .inl
  | hello =>
    cases hstep
    exact h.greeted hcurrent rfl (.inr ⟨false, rfl⟩)
  | reply p =>
    cases hstep
    exact h.settle rfl (.inr ⟨_, hcurrent, rfl⟩)
  | packet p =>
    cases hstep
    exact h.settle rfl (.inr ⟨_, hcurrent, rfl⟩)

theorem Prefaced.transmit (h : v.Prefaced) {stopping late : Bool} {origin : Origin} {s : Sending}
    {answer : SendAnswer} (hcurrent : v.current = some ⟨origin, .sending s⟩)
    (hstep : v.transmit stopping origin s late answer = some (v', r)) : v'.Prefaced := by
  have hgoto : ∀ {stage : SendStage},
      ({ v with current := some ⟨origin, .sending { s with stage := stage }⟩ } : Wire).Prefaced := by
    intro stage
    refine h.proceed hcurrent v.accepted (fun horigin t ht => ?_)
    subst horigin
    cases ht
    exact h.data s hcurrent
  unfold Wire.transmit at hstep
  split at hstep
  · split at hstep
    · exact h.complete v.accepted hcurrent (Option.some.inj hstep)
    · split at hstep <;> cases hstep <;> exact hgoto
  · split at hstep
    · split at hstep
      · cases hstep
        exact hgoto
      split at hstep
      · cases hstep
      split at hstep
      · exact h.complete _ hcurrent (Option.some.inj hstep)
      · cases hstep
        refine h.proceed hcurrent _ (fun horigin t ht => ?_)
        subst horigin
        cases ht
        exact h.data s hcurrent
    · cases hstep
      exact hgoto
    · cases hstep
      exact hgoto
    · cases hstep
      exact hgoto
    · cases hstep
  · split at hstep
    · cases hstep
      exact hgoto
    · cases hstep
      exact hgoto
    · cases hstep
  · exact h.abandon hcurrent (Option.some.inj hstep)

/-- `send_packet_locked`, up to `send_all`. -/
theorem Prefaced.serialize (h : v.Prefaced) {origin : Origin}
    (hcurrent : v.current = some ⟨origin, .locked⟩)
    (hstep : v.serialize codec c origin = some (v', r)) : v'.Prefaced := by
  cases serialized hstep with
  | framed hpacket hframe =>
    have hne : origin ≠ .preface := by
      rintro rfl
      rcases hpacket with ⟨horigin, -⟩ | ⟨hcontent, -⟩
      · cases horigin
      · cases hcontent
    exact h.proceed hcurrent v.accepted (fun horigin => absurd horigin hne)
  | dropped hcontent hwriter hresult =>
    exact h.settle (by rw [hcontent]; rfl) (.inr ⟨_, hcurrent, rfl⟩)
  | ungreeted horigin hresult hworker =>
    subst horigin
    refine h.greeted hcurrent rfl (hworker.imp_right (fun hsent => ⟨false, hsent⟩))

theorem Prefaced.receive (h : v.Prefaced) (hworker : v.worker = .receive) {answer : RecvAnswer}
    (hstep : v.receive answer = some v') : v'.Prefaced := by
  have hfree : ∀ o, v.current = some o → ∃ p, o.origin = .packet p := by
    intro o ho
    have hconcerns := h.owner o ho
    rw [hworker] at hconcerns
    cases horigin : o.origin with
    | packet p => exact ⟨p, rfl⟩
    | preface =>
      rw [horigin] at hconcerns
      cases hconcerns
    | hello =>
      rw [horigin] at hconcerns
      obtain ⟨k, hk⟩ := hconcerns
      cases hk
    | reply p =>
      rw [horigin] at hconcerns
      obtain ⟨rest, hrest⟩ := hconcerns
      cases hrest
  have hpast : v.worker.isPast = true := by rw [hworker]; rfl
  cases answer with
  | data chunk =>
    simp only [Wire.receive] at hstep
    split at hstep
    · cases hstep
    · split at hstep <;> cases hstep <;>
        exact h.goto hfree hpast ⟨rfl, rfl, rfl, rfl, rfl⟩ (by simp) (fun hr => by cases hr)
  | _ =>
    cases hstep
    exact h.goto hfree hpast ⟨rfl, rfl, rfl, rfl, rfl⟩ (by simp) (fun hr => by cases hr)

theorem Prefaced.start (h : v.Prefaced) (hnew : v.started = false) (spawned : Bool) :
    ({ v with started := true, worker := if spawned then .preface else .ended } : Wire).Prefaced := by
  have hidle := h.idle hnew
  have hpacket : ∀ o, v.current = some o → o.origin.Concerns .idle := by
    intro o ho
    rw [← hidle]
    exact h.owner o ho
  refine ⟨fun hs => (by cases hs), fun hp => ?_, fun hr => ?_, fun o ho => ?_, fun s hs => ?_,
    h.written, h.prefaces, fun _ => h.noPreface (.inl hidle), fun k hk => ?_, h.hellos, fun hw => ?_⟩
  · cases spawned <;> cases hp
  · cases spawned <;> cases hr
  · have hconcerns := hpacket o ho
    cases horigin : o.origin with
    | packet p => trivial
    | preface =>
      rw [horigin] at hconcerns
      cases hconcerns
    | hello =>
      rw [horigin] at hconcerns
      obtain ⟨k, hk⟩ := hconcerns
      cases hk
    | reply p =>
      rw [horigin] at hconcerns
      obtain ⟨rest, hrest⟩ := hconcerns
      cases hrest
  · exact h.data s hs
  · cases spawned <;> cases hk
  · refine h.noHello (.inl ?_)
    rcases hw with hw | ⟨⟨k, hk⟩, -⟩
    · exact hw
    · cases spawned <;> cases hk

/-- **Every step of a wire keeps to the order.** -/
theorem Prefaced.step (h : v.Prefaced) (hheld : Held c v.current) {e : WireEvent}
    (hstep : v.step codec c current e = some (v', r)) : v'.Prefaced := by
  -- what holds the lock where it is not the worker
  have hfree : v.current.any Outgoing.byWorker = false →
      ∀ o, v.current = some o → ∃ p, o.origin = .packet p := by
    intro hby o ho
    rw [ho] at hby
    exact packet_of_not_byWorker (by simpa using hby)
  cases moves hstep with
  | start hstarted hreleased => exact h.start hstarted _
  | work hby hsetup hwork =>
    refine h.work (hfree hby) (fun hworker => hsetup.resolve_right ?_) hwork
    rintro ⟨hpreface, hgreet⟩
    rcases hworker with hw | ⟨k, hw⟩
    · exact hpreface hw
    · exact hgreet k hw
  | receive hworker hreceive => exact h.receive hworker hreceive
  | @handle late fails rest handling hworker hhandling hby hnone =>
    have hpast : v.worker.isPast = true := by rw [hworker]; rfl
    generalize (handling.step codec.toHost c late (current fails)).1 = action at hnone ⊢
    cases action with
    | sendPong => exact h.beginSend (hnone rfl) rfl ⟨rest, hworker⟩
    | returns =>
      simp only [Wire.handle]
      split <;>
        exact h.goto (hfree hby) hpast ⟨rfl, rfl, rfl, rfl, rfl⟩ (by simp) (fun hr => by cases hr)
    | emit event =>
      exact ⟨h.idle, h.past, h.resumed, h.owner, h.data, h.written, h.prefaces, h.noPreface,
        h.greets, h.hellos, h.noHello⟩
    | _ => exact h
  | sendPacket hnone => exact h.beginSend hnone rfl trivial
  | validated => exact h
  | @stale fails origin packet hcurrent hwriter hstale =>
    refine h.settle ?_ (.inr ⟨_, hcurrent, rfl⟩)
    -- a setup message is not checked
    cases hcontent : origin.content with
    | some p => rfl
    | none =>
      rw [hcurrent] at hheld
      have hidle := (held_setup (o := ⟨origin, .locked⟩) hcontent).mp hheld
      rw [hwriter] at hidle
      cases hidle
  | serialize hcurrent hserialize => exact h.serialize hcurrent hserialize
  | transmit hcurrent htransmit => exact h.transmit hcurrent htransmit

theorem Prefaced.line {c' : Connection} (hline : Line codec c v c' v') (hheld : Held c v.current)
    (h : v.Prefaced) : v'.Prefaced := by
  cases hline with
  | other hsame => exact h
  | wire hstep hanswer => exact h.step hheld hstep

end Wire

end Gasoline
