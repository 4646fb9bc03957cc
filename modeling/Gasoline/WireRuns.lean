import Gasoline.Wire

/-!
# Runs of a node with its wires

A step of a node with its wires is at most one step of the node
(`node_of_runs`), so what is known of the runs of a node is known of it here
too. Of one session, such a step is seen as a step of its line, that is of
its connection and its wire (`Line`): something happens elsewhere, or the
wire takes a step and the connection does what the wire asks for. An
invariant of lines is an invariant of all runs (`line_of_runs`).
-/

namespace Gasoline

/-! ## The node below -/

namespace Wired

variable {codec : Codec} {w w' : Wired}

/-- A step is at most one step of the node. -/
theorem node_of_step {e : WiredEvent} (h : w.step codec e = some w') :
    w'.node = w.node ∨ ∃ d, w.node.step codec.toHost d = some w'.node := by
  cases e with
  | node d =>
    simp only [step] at h
    split at h
    · obtain ⟨n, hn, rfl⟩ := Option.map_eq_some_iff.mp h
      exact .inr ⟨d, hn⟩
    · cases h
  | wire session d =>
    obtain ⟨c, -, h⟩ := Option.bind_eq_some_iff.mp h
    obtain ⟨r, -, h⟩ := Option.bind_eq_some_iff.mp h
    obtain ⟨n, hn, rfl⟩ := Option.map_eq_some_iff.mp h
    cases hr : r.2 with
    | none =>
      rw [hr] at hn
      cases hn
      exact .inl rfl
    | some request =>
      rw [hr] at hn
      exact .inr ⟨_, hn⟩

/-- **A node with its wires is a node**: every run of it is one of the
node. -/
theorem node_of_runs {events : List WiredEvent}
    (h : runs (Wired.step codec) .initial events = some w) :
    ∃ es, runs (Node.step codec.toHost) .initial es = some w.node := by
  induction events using List.reverseRecOn generalizing w with
  | nil =>
    cases h
    exact ⟨[], rfl⟩
  | append_singleton events e ih =>
    obtain ⟨u, hu, hstep⟩ := runs_concat.mp h
    obtain ⟨es, hes⟩ := ih hu
    rcases node_of_step hstep with heq | ⟨d, hd⟩
    · exact ⟨es, by rw [heq, hes]⟩
    · exact ⟨es ++ [d], runs_concat.mpr ⟨u.node, hes, hd⟩⟩

end Wired

/-! ## Lines -/

/-- **What the connection does where its wire asks for it.** -/
def Connection.answer (host : Host) (db : Database) (c : Connection) :
    Option Request → Option Connection
  | none => some c
  | some .requestDisconnect => c.requestDisconnect
  | some (.receive payload) =>
    if c.handling.isNone && !c.released then
      some { c with handling := some ⟨payload, none, .loadStopping⟩ }
    else none
  | some (.handle late fails) =>
    c.handling.bind (fun h => c.perform host (h.step host c late
      (SessionAuthentication.authorizationIsCurrent db fails)))
  | some (.send packet) =>
    if c.writer.isFree && !c.released then some (c.beginSend packet) else none
  | some (.sending fails outcome) => c.sending db fails outcome

@[simp] theorem Connection.answer_sending (host : Host) (db : Database) (c : Connection)
    (fails : Bool) (outcome : SendOutcome) :
    c.answer host db (some (.sending fails outcome)) = c.sending db fails outcome := rfl

/-- **A step of a line.** -/
inductive Line (codec : Codec) (c : Connection) (v : Wire) : Connection → Wire → Prop
  /-- Something happens elsewhere. -/
  | other {c' : Connection} (h : c.Undisturbed c') : Line codec c v c' v
  /-- Something happens on the wire. -/
  | wire {c' : Connection} {v' : Wire} {db : Database} {e : WireEvent} {r : Option Request}
      (hv : v.step codec c (SessionAuthentication.authorizationIsCurrent db) e = some (v', r))
      (hc : c.answer codec.toHost db r = some c') : Line codec c v c' v'

namespace Wired

variable {codec : Codec} {w w' : Wired}

/-- The node answers for the connection, and leaves the others alone. -/
theorem answer_of_request {n n' : Node} {session : ℕ} {c : Connection} {r : Option Request}
    (hc : n.connection session = some c) (h : request codec n session r = some n') :
    ∃ c', c.answer codec.toHost n.database r = some c'
      ∧ n'.connection = Function.update n.connection session (some c') := by
  cases r with
  | none =>
    cases h
    exact ⟨c, rfl, by rw [← hc, Function.update_eq_self]⟩
  | some r =>
    cases r with
    | requestDisconnect =>
      obtain ⟨d, hd, h⟩ := Option.bind_eq_some_iff.mp h
      obtain ⟨d', hd', rfl⟩ := Option.map_eq_some_iff.mp h
      obtain rfl := Option.some.inj (hc.symm.trans hd)
      exact ⟨d', hd', rfl⟩
    | receive payload =>
      obtain ⟨d, hd, h⟩ := Option.bind_eq_some_iff.mp h
      obtain rfl := Option.some.inj (hc.symm.trans hd)
      split at h
      · rename_i hguard
        cases h
        exact ⟨_, if_pos hguard, rfl⟩
      · cases h
    | handle late fails =>
      obtain ⟨d, hd, h⟩ := Option.bind_eq_some_iff.mp h
      obtain rfl := Option.some.inj (hc.symm.trans hd)
      obtain ⟨handling, hhandling, h⟩ := Option.bind_eq_some_iff.mp h
      obtain ⟨d', hd', rfl⟩ := Option.map_eq_some_iff.mp h
      exact ⟨d', Option.bind_eq_some_iff.mpr ⟨handling, hhandling, hd'⟩, rfl⟩
    | send packet =>
      obtain ⟨d, hd, h⟩ := Option.bind_eq_some_iff.mp h
      obtain rfl := Option.some.inj (hc.symm.trans hd)
      split at h
      · rename_i hguard
        cases h
        exact ⟨_, if_pos hguard, rfl⟩
      · cases h
    | sending fails outcome =>
      obtain ⟨d, hd, h⟩ := Option.bind_eq_some_iff.mp h
      obtain rfl := Option.some.inj (hc.symm.trans hd)
      obtain ⟨d', hd', rfl⟩ := Option.map_eq_some_iff.mp h
      exact ⟨d', hd', rfl⟩

/-- What the wires leave to others does not disturb the lines. -/
theorem undisturbed_of_admits {e : NodeEvent} {n' : Node} (hn : w.node.Disciplined)
    (hadmits : w.admits e = true) (h : w.node.step codec.toHost e = some n') {session : ℕ}
    {c : Connection} (hc : w.node.connection session = some c) :
    ∃ c', n'.connection session = some c' ∧ c.Undisturbed c' := by
  obtain ⟨c', hc', hwork⟩ := Node.work_of_step hn h hc
  refine ⟨c', hc', ?_⟩
  cases hwork with
  | other h => exact h
  | receive => cases hadmits
  | handle => cases hadmits
  | send => cases hadmits
  | sending => cases hadmits

/-- **Of one session, a step is a step of its line.** -/
theorem line_of_step (hn : w.node.Disciplined) {e : WiredEvent} (h : w.step codec e = some w')
    {session : ℕ} {c : Connection} (hc : w.node.connection session = some c) :
    ∃ c', w'.node.connection session = some c'
      ∧ Line codec c (w.wire session) c' (w'.wire session) := by
  cases e with
  | node d =>
    simp only [step] at h
    split at h
    · rename_i hadmits
      obtain ⟨n, hn', rfl⟩ := Option.map_eq_some_iff.mp h
      obtain ⟨c', hc', hsame⟩ := undisturbed_of_admits hn hadmits hn' hc
      exact ⟨c', hc', .other hsame⟩
    · cases h
  | wire other d =>
    obtain ⟨b, hb, h⟩ := Option.bind_eq_some_iff.mp h
    obtain ⟨⟨v, r⟩, hv, h⟩ := Option.bind_eq_some_iff.mp h
    obtain ⟨n, hn', rfl⟩ := Option.map_eq_some_iff.mp h
    obtain ⟨b', hb', hconnection⟩ := answer_of_request hb hn'
    by_cases hne : session = other
    · subst hne
      obtain rfl := Option.some.inj (hc.symm.trans hb)
      refine ⟨b', by rw [hconnection, Function.update_self], ?_⟩
      show Line codec c (w.wire session) b' (Function.update w.wire session v session)
      rw [Function.update_self]
      exact .wire hv hb'
    · refine ⟨c, by rw [hconnection, Function.update_of_ne hne, hc], ?_⟩
      show Line codec c (w.wire session) c (Function.update w.wire other v session)
      rw [Function.update_of_ne hne]
      exact .other (.refl c)

/-- **A wire changes only by its own steps.** -/
theorem wire_of_step {e : WiredEvent} (h : w.step codec e = some w') (session : ℕ) :
    w'.wire session = w.wire session
      ∨ ∃ c d r, w.node.connection session = some c ∧ e = .wire session d
        ∧ (w.wire session).step codec c
          (SessionAuthentication.authorizationIsCurrent w.node.database) d
            = some (w'.wire session, r) := by
  cases e with
  | node d =>
    simp only [step] at h
    split at h
    · obtain ⟨n, -, rfl⟩ := Option.map_eq_some_iff.mp h
      exact .inl rfl
    · cases h
  | wire other d =>
    obtain ⟨c, hc, h⟩ := Option.bind_eq_some_iff.mp h
    obtain ⟨⟨v, r⟩, hv, h⟩ := Option.bind_eq_some_iff.mp h
    obtain ⟨n, -, rfl⟩ := Option.map_eq_some_iff.mp h
    by_cases hne : session = other
    · subst hne
      refine .inr ⟨c, d, r, hc, rfl, ?_⟩
      show _ = some (Function.update w.wire session v session, r)
      rw [Function.update_self]
      exact hv
    · exact .inl (Function.update_of_ne hne _ _)

theorem new_of_step {e : WiredEvent} (h : w.step codec e = some w') {session : ℕ}
    (hwire : w.node.connection session = none → w.wire session = .initial)
    (hnone : w.node.connection session = none) :
    w'.wire session = .initial
      ∧ ∀ c', w'.node.connection session = some c' → ∃ outgoing, c' = .create outgoing := by
  cases e with
  | node d =>
    simp only [step] at h
    split at h
    · obtain ⟨n, hn, rfl⟩ := Option.map_eq_some_iff.mp h
      exact ⟨hwire hnone, fun c' hc' => Node.create_of_step hn hnone hc'⟩
    · cases h
  | wire other d =>
    obtain ⟨b, hb, h⟩ := Option.bind_eq_some_iff.mp h
    obtain ⟨⟨v, r⟩, hv, h⟩ := Option.bind_eq_some_iff.mp h
    obtain ⟨n, hn, rfl⟩ := Option.map_eq_some_iff.mp h
    obtain ⟨b', -, hconnection⟩ := answer_of_request hb hn
    have hne : session ≠ other := by
      rintro rfl
      rw [hnone] at hb
      cases hb
    refine ⟨?_, fun c' hc' => ?_⟩
    · show Function.update w.wire other v session = .initial
      rw [Function.update_of_ne hne]
      exact hwire hnone
    · rw [hconnection, Function.update_of_ne hne, hnone] at hc'
      cases hc'

theorem disciplined_of_runs {events : List WiredEvent}
    (h : runs (Wired.step codec) .initial events = some w) : w.node.Disciplined := by
  obtain ⟨es, hes⟩ := node_of_runs h
  exact (Node.supervised_of_runs hes).disciplined

/-- **What every step of a line keeps holds of every line**, in every run. -/
theorem line_of_runs {I : Connection → Wire → Prop} (hnew : ∀ outgoing, I (.create outgoing) .initial)
    (hstep : ∀ {c v c' v'}, Line codec c v c' v' → I c v → I c' v') {events : List WiredEvent}
    (h : runs (Wired.step codec) .initial events = some w) :
    (∀ session, w.node.connection session = none → w.wire session = .initial)
      ∧ ∀ session c, w.node.connection session = some c → I c (w.wire session) := by
  induction events using List.reverseRecOn generalizing w with
  | nil =>
    cases h
    exact ⟨fun _ _ => rfl, fun session c hc => by cases hc⟩
  | append_singleton events e ih =>
    obtain ⟨u, hu, he⟩ := runs_concat.mp h
    obtain ⟨hwire, hline⟩ := ih hu
    have hn := disciplined_of_runs hu
    refine ⟨fun session hnone => ?_, fun session c' hc' => ?_⟩
    · cases hc : u.node.connection session with
      | none => exact (new_of_step he (hwire session) hc).1
      | some c =>
        obtain ⟨c', hc', -⟩ := line_of_step hn he hc
        rw [hnone] at hc'
        cases hc'
    · cases hc : u.node.connection session with
      | none =>
        obtain ⟨hinitial, hcreate⟩ := new_of_step he (hwire session) hc
        obtain ⟨outgoing, rfl⟩ := hcreate c' hc'
        rw [hinitial]
        exact hnew outgoing
      | some c =>
        obtain ⟨d, hd, hlined⟩ := line_of_step hn he hc
        obtain rfl := Option.some.inj (hc'.symm.trans hd)
        exact hstep hlined (hline session c hc)

end Wired

end Gasoline
