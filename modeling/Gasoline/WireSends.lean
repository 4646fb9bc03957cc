import Gasoline.WireRuns

/-!
# Calls that send

What a step of a wire does to the call that holds `write_mutex_` to send
(`Sends`): a call takes the lock, is refused, goes on, has bytes accepted,
and ends, in this order. The connection agrees on who holds the lock and for
what (`Held`), so that what a call asks of the session when it ends is
what happens.
-/

namespace Gasoline

/-- The packet of a call. -/
def Origin.content : Origin → Option Json
  | .preface => none
  | .hello => none
  | .reply p => some p
  | .packet p => some p

namespace Wire

/-- **A call takes the lock**, and what it asks of the session. -/
inductive Begins (codec : Codec) (c : Connection) (current : Bool → AuthorizedPeer → Bool)
    (v : Wire) : Outgoing → Option Request → Prop
  | preface (hworker : v.worker = .preface) (hfirst : v.localPrefaceSent = false)
      (hfree : c.writer = .free) :
      Begins codec c current v ⟨.preface, .sending ⟨prefaceBytes, 0, .check⟩⟩ none
  | hello {k : Resume} (hworker : v.worker = .greet k) (hsent : v.localPrefaceSent = true)
      (hfree : c.writer = .free) : Begins codec c current v ⟨.hello, .locked⟩ none
  | reply {h : Handling} {rest : Bytes} {late fails : Bool} (hworker : v.worker = .handle rest)
      (hh : c.handling = some h)
      (haction : (h.step codec.toHost c late (current fails)).1 = .sendPong) :
      Begins codec c current v ⟨.reply (pongPacket codec.myDeviceId), .locked⟩
        (some (.handle late fails))
  | packet (packet : Json) : Begins codec c current v ⟨.packet packet, .locked⟩ (some (.send packet))

/-- The connection lets a call of `send_packet` send. -/
def Permits (c : Connection) (origin : Origin) : Prop :=
  c.stopping = false
    ∧ (origin.content.isSome = true → c.ready = true ∧ c.authorizedPeer.isSome = true)

/-- What a step of the wire asks for that does not concern the lock. -/
inductive Plain (codec : Codec) (c : Connection) (current : Bool → AuthorizedPeer → Bool) :
    Option Request → Prop
  | nothing : Plain codec c current none
  | requestDisconnect : Plain codec c current (some .requestDisconnect)
  | receive (payload : Bytes) : Plain codec c current (some (.receive payload))
  | handle {h : Handling} {late fails : Bool} (hh : c.handling = some h)
      (haction : (h.step codec.toHost c late (current fails)).1 ≠ .sendPong) :
      Plain codec c current (some (.handle late fails))

/-- What a call asks for when it ends. -/
def ending (origin : Origin) (setup : Option Request) (fails : Bool) (outcome : SendOutcome) :
    Option Request :=
  match origin.content with
  | none => setup
  | some _ => some (.sending fails outcome)

/-- **What a step of a wire does to the calls that send.** -/
inductive Sends (codec : Codec) (c : Connection) (current : Bool → AuthorizedPeer → Bool)
    (v v' : Wire) : Option Request → Prop
  /-- Nothing. -/
  | quiet {r : Option Request} (hr : Plain codec c current r) (hcurrent : v'.current = v.current)
      (haccepted : v'.accepted = v.accepted) (hsends : v'.sends = v.sends) :
      Sends codec c current v v' r
  /-- A call takes the lock. -/
  | begins {o : Outgoing} {r : Option Request} (hbegins : Begins codec c current v o r)
      (hpermits : Permits c o.origin) (hnone : v.current = none) (hcurrent : v'.current = some o)
      (haccepted : v'.accepted = v.accepted) (hsends : v'.sends = v.sends) :
      Sends codec c current v v' r
  /-- A call takes the lock and is refused. -/
  | refused {o : Outgoing} {r : Option Request} (hbegins : Begins codec c current v o r)
      (hrefused : ¬ Permits c o.origin) (hnone : v.current = none) (hcurrent : v'.current = none)
      (haccepted : v'.accepted = v.accepted)
      (hsends : v'.sends = v.sends ++ [⟨o.origin, [], 0, .returned (-1)⟩]) :
      Sends codec c current v v' r
  /-- The worker takes the lock and has nothing to send. -/
  | declined {origin : Origin} {n : ℤ} (horigin : origin.content = none) (hnone : v.current = none)
      (hcurrent : v'.current = none) (haccepted : v'.accepted = v.accepted)
      (hsends : v'.sends = v.sends ++ [⟨origin, [], 0, .returned n⟩]) :
      Sends codec c current v v' none
  /-- The authorization of the peer is current. -/
  | validated {o : Outgoing} {fails : Bool} {packet : Json} (hcurrent : v.current = some o)
      (hlocked : o.progress = .locked) (hwriter : c.writer = .checking packet)
      (hvalid : c.authorizedPeer.any (current fails) = true) (hsame : v' = v) :
      Sends codec c current v v' (some (.sending fails .refused))
  /-- The authorization of the peer is not current. -/
  | stale {origin : Origin} {fails : Bool} {packet : Json} (hcurrent : v.current = some ⟨origin, .locked⟩)
      (hwriter : c.writer = .checking packet)
      (hstale : c.authorizedPeer.any (current fails) = false)
      (hfinish : v' = v.finish ⟨origin, [], 0, .returned (-1)⟩) :
      Sends codec c current v v' (some (.sending fails .refused))
  /-- The packet cannot be sent. -/
  | dropped {origin : Origin} {result : SendResult} (hcurrent : v.current = some ⟨origin, .locked⟩)
      (hwriter : origin.content.isSome = true → ∃ packet, c.writer = .writing packet)
      (hresult : result = .returned (-1) ∨ result = .threw)
      (hnone : v'.current = none) (haccepted : v'.accepted = v.accepted)
      (hsends : v'.sends = v.sends ++ [⟨origin, [], 0, result⟩]) :
      Sends codec c current v v' (ending origin none false .refused)
  /-- The packet is serialized. -/
  | framed {origin : Origin} {packet : Json} {data : Bytes}
      (hcurrent : v.current = some ⟨origin, .locked⟩)
      (hpacket : origin = .hello ∧ packet = helloPacket codec.myDeviceId
        ∨ origin.content = some packet ∧ ∃ packet, c.writer = .writing packet)
      (hframe : frame codec.dump packet = .record data)
      (hsame : v' = { v with current := some ⟨origin, .sending ⟨data, 0, .check⟩⟩ }) :
      Sends codec c current v v' none
  /-- `send_all` goes on. -/
  | goesOn {origin : Origin} {s : Sending} (stage : SendStage)
      (hcurrent : v.current = some ⟨origin, .sending s⟩) (hstage : s.stage ≠ .failed)
      (hsame : v' = { v with current := some ⟨origin, .sending { s with stage := stage }⟩ }) :
      Sends codec c current v v' none
  /-- Bytes are accepted, and not the last ones. -/
  | accepts {origin : Origin} {s : Sending} {n : ℕ} (hcurrent : v.current = some ⟨origin, .sending s⟩)
      (hpositive : 0 < n) (hstage : s.stage = .send) (hless : s.sent + n < s.data.length)
      (hsame : v' = { v with
        accepted := v.accepted ++ (s.data.drop s.sent).take n
        current := some ⟨origin, .sending ⟨s.data, s.sent + n, .check⟩⟩ }) :
      Sends codec c current v v' none
  /-- The last bytes are accepted. -/
  | completes {origin : Origin} {s : Sending} {n : ℕ}
      (hcurrent : v.current = some ⟨origin, .sending s⟩)
      (hstage : s.stage ≠ .failed) (hall : s.data.length ≤ s.sent + n)
      (hwithin : n ≠ 0 → s.sent + n = s.data.length)
      (hnone : v'.current = none)
      (haccepted : v'.accepted = v.accepted ++ (s.data.drop s.sent).take n)
      (hsends : v'.sends = v.sends ++ [⟨origin, s.data, s.data.length, .returned s.data.length⟩]) :
      Sends codec c current v v' (ending origin none false .sent)
  /-- `send_all` failed, and the call ends. -/
  | abandons {origin : Origin} {s : Sending} (hcurrent : v.current = some ⟨origin, .sending s⟩)
      (hfailed : s.stage = .failed) (hnone : v'.current = none)
      (haccepted : v'.accepted = v.accepted)
      (hsends : v'.sends = v.sends ++ [⟨origin, s.data, s.sent, .returned (-1)⟩]) :
      Sends codec c current v v'
        (ending origin (some .requestDisconnect) false (.failed (decide (0 < s.sent))))

variable {codec : Codec} {c : Connection} {current : Bool → AuthorizedPeer → Bool} {v v' : Wire}
  {r : Option Request}

/-- `send_packet` has the lock, and sends or is refused. -/
theorem sends_beginSend {o : Outgoing} (hnone : v.current = none) (hlocked : o.progress = .locked)
    (hbegins : Begins codec c current v o r) (hcontent : o.origin.content.isSome = true) :
    Sends codec c current v (v.beginSend c o.origin) r := by
  unfold beginSend
  split
  · rename_i hrefused
    refine .refused hbegins ?_ hnone rfl rfl rfl
    rintro ⟨hstopping, hready⟩
    obtain ⟨hready, hpeer⟩ := hready hcontent
    simp [hstopping, hready, Option.isNone_eq_false_iff.mpr hpeer] at hrefused
  · rename_i hpermits
    simp only [Bool.or_eq_true, not_or, Bool.not_eq_true, Bool.not_eq_false'] at hpermits
    refine .begins hbegins ⟨hpermits.1.1, fun _ => ⟨hpermits.1.2, ?_⟩⟩ hnone ?_ rfl rfl
    · exact Option.isNone_eq_false_iff.mp hpermits.2
    · rw [← hlocked]

theorem sends_work (h : v.work c = some (v', r))
    (hcurrent : v.current = none ∨ (v.worker ≠ .preface ∧ ∀ k, v.worker ≠ .greet k)) :
    Sends codec c current v v' r := by
  have hnone : v.worker = .preface ∨ (∃ k, v.worker = .greet k) → v.current = none := by
    rintro (hworker | ⟨k, hworker⟩)
    · exact hcurrent.resolve_right (fun hnot => hnot.1 hworker)
    · exact hcurrent.resolve_right (fun hnot => hnot.2 k hworker)
  have hquiet : ∀ {u : Wire} {r : Option Request}, Plain codec c current r → u.current = v.current →
      u.accepted = v.accepted → u.sends = v.sends → Sends codec c current v u r :=
    fun hr h1 h2 h3 => .quiet hr h1 h2 h3
  unfold work at h
  split at h
  · -- `send_preface`
    rename_i hworker
    split at h
    · cases h
    rename_i hfree
    have hfree : c.writer = .free := Writer.eq_free (by simpa using hfree)
    split at h
    · cases h
      exact .declined rfl (hnone (.inl hworker)) rfl rfl rfl
    rename_i hstopping
    split at h
    · cases h
      exact .declined rfl (hnone (.inl hworker)) rfl rfl rfl
    · rename_i hsent
      cases h
      exact .begins (.preface hworker (by simpa using hsent) hfree)
        ⟨by simpa using hstopping, fun h => by cases h⟩ (hnone (.inl hworker)) rfl rfl rfl
  · split at h <;> cases h <;> exact hquiet .nothing rfl rfl rfl
  · split at h <;> cases h <;> exact hquiet .nothing rfl rfl rfl
  · split at h <;> cases h <;> exact hquiet .nothing rfl rfl rfl
  · split at h <;> cases h <;> exact hquiet .nothing rfl rfl rfl
  · -- `send_initial_hello`
    rename_i k hworker
    split at h
    · cases h
    rename_i hfree
    have hfree : c.writer = .free := Writer.eq_free (by simpa using hfree)
    split at h
    · cases h
      exact .declined rfl (hnone (.inr ⟨k, hworker⟩)) rfl rfl rfl
    · rename_i hguard
      cases h
      simp only [Bool.or_eq_true, not_or, Bool.not_eq_true, Bool.not_eq_false'] at hguard
      exact .begins (.hello hworker hguard.2 hfree) ⟨hguard.1, fun h => by cases h⟩
        (hnone (.inr ⟨k, hworker⟩)) rfl rfl rfl
  · cases h
    exact hquiet .requestDisconnect rfl rfl rfl
  · cases h
    exact hquiet .nothing rfl rfl rfl
  · split at h
    · cases h
      exact hquiet .nothing rfl rfl rfl
    · cases h
      exact hquiet (.receive _) rfl rfl rfl
  · cases h
    exact hquiet .requestDisconnect rfl rfl rfl
  · cases h

/-- **What `serialize` can do.** -/
inductive Serialized (codec : Codec) (c : Connection) (v : Wire) (origin : Origin) :
    Wire → Option Request → Prop
  /-- The packet is serialized. -/
  | framed {packet : Json} {data : Bytes}
      (hpacket : origin = .hello ∧ packet = helloPacket codec.myDeviceId
        ∨ origin.content = some packet ∧ ∃ packet, c.writer = .writing packet)
      (hframe : frame codec.dump packet = .record data) :
      Serialized codec c v origin
        { v with current := some ⟨origin, .sending ⟨data, 0, .check⟩⟩ } none
  /-- The packet of a caller cannot be. -/
  | dropped {packet : Json} {result : SendResult} (hcontent : origin.content = some packet)
      (hwriter : ∃ packet, c.writer = .writing packet)
      (hresult : result = .returned (-1) ∨ result = .threw) :
      Serialized codec c v origin (v.finish ⟨origin, [], 0, result⟩)
        (some (.sending false .refused))
  /-- The hello cannot be. -/
  | ungreeted {result : SendResult} {worker : Worker} (horigin : origin = .hello)
      (hresult : result = .returned (-1) ∨ result = .threw)
      (hworker : worker = .ended ∨ worker = Worker.greeted false v.worker) :
      Serialized codec c v origin { v.finish ⟨origin, [], 0, result⟩ with worker := worker } none

theorem serialized {origin : Origin} {r : Option Request}
    (h : v.serialize codec c origin = some (v', r)) : Serialized codec c v origin v' r := by
  cases origin with
  | preface => cases h
  | hello =>
    simp only [serialize] at h
    split at h
    · cases h
      exact .ungreeted rfl (.inl rfl) (.inr rfl)
    · cases h
      exact .ungreeted rfl (.inr rfl) (.inl rfl)
    · rename_i data hframe
      cases h
      exact .framed (.inl ⟨rfl, rfl⟩) hframe
  | reply packet | packet packet =>
    simp only [serialize] at h
    split at h
    · rename_i hwriter
      split at h
      · cases h
        exact .dropped rfl ⟨_, hwriter⟩ (.inl rfl)
      · cases h
        exact .dropped rfl ⟨_, hwriter⟩ (.inr rfl)
      · rename_i data hframe
        cases h
        exact .framed (.inr ⟨rfl, _, hwriter⟩) hframe
    · cases h

/-- `send_packet_locked`, up to `send_all`. -/
theorem sends_serialize {origin : Origin} (hcurrent : v.current = some ⟨origin, .locked⟩)
    (h : v.serialize codec c origin = some (v', r)) : Sends codec c current v v' r := by
  cases serialized h with
  | framed hpacket hframe => exact .framed hcurrent hpacket hframe rfl
  | dropped hcontent hwriter hresult =>
    have hending : ending origin none false .refused = some (.sending false .refused) := by
      unfold ending
      rw [hcontent]
    rw [← hending]
    exact .dropped hcurrent (fun _ => hwriter) hresult rfl rfl rfl
  | ungreeted horigin hresult hworker =>
    subst horigin
    show Sends codec c current v _ (ending .hello none false .refused)
    exact .dropped hcurrent (fun h => by cases h) hresult rfl rfl rfl

/-- What `send_all` leaves when everything was accepted. -/
theorem complete_eq {origin : Origin} {data : Bytes} (h : v.complete origin data = (v', r)) :
    v'.current = none ∧ v'.accepted = v.accepted
      ∧ v'.sends = v.sends ++ [⟨origin, data, data.length, .returned data.length⟩]
      ∧ r = ending origin none false .sent := by
  cases origin <;> cases h <;> exact ⟨rfl, rfl, rfl, rfl⟩

theorem abandon_eq {origin : Origin} {s : Sending} (h : v.abandon origin s = (v', r)) :
    v'.current = none ∧ v'.accepted = v.accepted
      ∧ v'.sends = v.sends ++ [⟨origin, s.data, s.sent, .returned (-1)⟩]
      ∧ r = ending origin (some .requestDisconnect) false (.failed (decide (0 < s.sent))) := by
  cases origin <;> cases h <;> exact ⟨rfl, rfl, rfl, rfl⟩

theorem sends_transmit {stopping late : Bool} {origin : Origin} {s : Sending} {answer : SendAnswer}
    (hcurrent : v.current = some ⟨origin, .sending s⟩)
    (h : v.transmit stopping origin s late answer = some (v', r)) :
    Sends codec c current v v' r := by
  unfold transmit at h
  split at h
  · rename_i hstage
    split at h
    · rename_i hall
      obtain ⟨hnone, haccepted, hsends, rfl⟩ := complete_eq (Option.some.inj h)
      refine .completes hcurrent (n := 0) (by simp [hstage]) hall (fun hne => absurd rfl hne) hnone ?_
        hsends
      rw [haccepted, List.take_zero, List.append_nil]
    · split at h <;> cases h <;> exact .goesOn _ hcurrent (by simp [hstage]) rfl
  · rename_i hstage
    split at h
    · rename_i n
      split at h
      · cases h
        exact .goesOn _ hcurrent (by simp [hstage]) rfl
      rename_i hpositive
      split at h
      · cases h
      rename_i hwithin
      split at h
      · rename_i hall
        obtain ⟨hnone, haccepted, hsends, rfl⟩ := complete_eq (Option.some.inj h)
        exact .completes hcurrent (by simp [hstage]) hall.ge (fun _ => hall) hnone haccepted hsends
      · rename_i hless
        cases h
        exact .accepts hcurrent (Nat.pos_of_ne_zero hpositive) hstage (by omega) rfl
    · cases h
      exact .goesOn _ hcurrent (by simp [hstage]) rfl
    · cases h
      exact .goesOn _ hcurrent (by simp [hstage]) rfl
    · cases h
      exact .goesOn _ hcurrent (by simp [hstage]) rfl
    · cases h
  · rename_i hstage
    split at h
    · cases h
      exact .goesOn _ hcurrent (by simp [hstage]) rfl
    · cases h
      exact .goesOn _ hcurrent (by simp [hstage]) rfl
    · cases h
  · rename_i hstage
    obtain ⟨hnone, haccepted, hsends, rfl⟩ := abandon_eq (Option.some.inj h)
    exact .abandons hcurrent hstage hnone haccepted hsends

/-- Receiving has nothing to do with the calls that send. -/
theorem receive_eq {answer : RecvAnswer} (h : v.receive answer = some v') :
    v'.current = v.current ∧ v'.accepted = v.accepted ∧ v'.sends = v.sends := by
  cases answer with
  | data chunk =>
    simp only [receive] at h
    split at h
    · cases h
    · split at h <;> cases h <;> exact ⟨rfl, rfl, rfl⟩
  | _ =>
    cases h
    exact ⟨rfl, rfl, rfl⟩

/-- Nor has `handle_record`, but for a pong. -/
theorem handle_eq {action : HandlingAction} (haction : action ≠ .sendPong) (h : Handling)
    (rest : Bytes) : (v.handle codec c h rest action).current = v.current
      ∧ (v.handle codec c h rest action).accepted = v.accepted
      ∧ (v.handle codec c h rest action).sends = v.sends := by
  cases action with
  | sendPong => exact absurd rfl haction
  | returns =>
    simp only [handle]
    split <;> exact ⟨rfl, rfl, rfl⟩
  | _ => exact ⟨rfl, rfl, rfl⟩

/-- **What happens on a wire at an event**: what had to hold for it, and what
it leaves. -/
inductive Moves (codec : Codec) (c : Connection) (current : Bool → AuthorizedPeer → Bool)
    (v : Wire) : WireEvent → Wire → Option Request → Prop
  | start {spawned : Bool} (hstarted : v.started = false) (hreleased : c.released = false) :
      Moves codec c current v (.start spawned)
        { v with started := true, worker := if spawned then .preface else .ended } none
  /-- The worker waits for the lock only where it is to send a setup
  message. -/
  | work {v' : Wire} {r : Option Request} (hby : v.current.any Outgoing.byWorker = false)
      (hsetup : v.current = none ∨ v.worker ≠ .preface ∧ ∀ k, v.worker ≠ .greet k)
      (h : v.work c = some (v', r)) : Moves codec c current v .work v' r
  | receive {answer : RecvAnswer} {v' : Wire} (hworker : v.worker = .receive)
      (h : v.receive answer = some v') : Moves codec c current v (.receive answer) v' none
  | handle {late fails : Bool} {rest : Bytes} {handling : Handling}
      (hworker : v.worker = .handle rest) (hhandling : c.handling = some handling)
      (hby : v.current.any Outgoing.byWorker = false)
      (hnone : (handling.step codec.toHost c late (current fails)).1 = .sendPong →
        v.current = none) :
      Moves codec c current v (.handle late fails)
        (v.handle codec c handling rest (handling.step codec.toHost c late (current fails)).1)
        (some (.handle late fails))
  | sendPacket {packet : Json} (hnone : v.current = none) :
      Moves codec c current v (.sendPacket packet) (v.beginSend c (.packet packet))
        (some (.send packet))
  | validated {fails : Bool} {origin : Origin} {packet : Json}
      (hcurrent : v.current = some ⟨origin, .locked⟩) (hwriter : c.writer = .checking packet)
      (hvalid : c.authorizedPeer.any (current fails) = true) :
      Moves codec c current v (.validate fails) v (some (.sending fails .refused))
  | stale {fails : Bool} {origin : Origin} {packet : Json}
      (hcurrent : v.current = some ⟨origin, .locked⟩) (hwriter : c.writer = .checking packet)
      (hstale : c.authorizedPeer.any (current fails) = false) :
      Moves codec c current v (.validate fails) (v.finish ⟨origin, [], 0, .returned (-1)⟩)
        (some (.sending fails .refused))
  | serialize {origin : Origin} {v' : Wire} {r : Option Request}
      (hcurrent : v.current = some ⟨origin, .locked⟩)
      (h : v.serialize codec c origin = some (v', r)) : Moves codec c current v .serialize v' r
  | transmit {late : Bool} {answer : SendAnswer} {origin : Origin} {s : Sending} {v' : Wire}
      {r : Option Request} (hcurrent : v.current = some ⟨origin, .sending s⟩)
      (h : v.transmit c.stopping origin s late answer = some (v', r)) :
      Moves codec c current v (.transmit late answer) v' r

theorem moves {e : WireEvent} (h : v.step codec c current e = some (v', r)) :
    Moves codec c current v e v' r := by
  cases e with
  | start spawned =>
    simp only [step] at h
    split at h
    · cases h
    · rename_i hguard
      simp only [Bool.or_eq_true, not_or, Bool.not_eq_true] at hguard
      cases h
      exact .start hguard.1 hguard.2
  | work =>
    simp only [step] at h
    split at h
    · cases h
    rename_i hby
    split at h
    · cases h
    · cases h
    · rename_i hpreface hgreet
      refine .work (by simpa using hby) ?_ h
      cases hcurrent : v.current with
      | none => exact .inl rfl
      | some o => exact .inr ⟨fun hw => hpreface o hw hcurrent, fun k hw => hgreet k o hw hcurrent⟩
  | receive answer =>
    simp only [step] at h
    split at h
    · rename_i hworker
      obtain ⟨u, hu, heq⟩ := Option.map_eq_some_iff.mp h
      cases heq
      exact .receive hworker hu
    · cases h
  | handle late fails =>
    simp only [step] at h
    split at h
    · rename_i rest handling hworker hhandling
      split at h
      · cases h
      rename_i hguard
      simp only [Bool.or_eq_true, Bool.and_eq_true, decide_eq_true_eq, not_or, not_and,
        Bool.not_eq_true, Option.isSome_eq_false_iff] at hguard
      cases h
      exact .handle hworker hhandling hguard.1
        (fun hpong => Option.isNone_iff_eq_none.mp (hguard.2 hpong))
    · cases h
  | sendPacket packet =>
    simp only [step] at h
    split at h
    · cases h
    · rename_i hnone
      cases h
      exact .sendPacket (by simpa using hnone)
  | validate fails =>
    simp only [step] at h
    split at h
    · rename_i origin packet hcurrent hwriter
      cases hvalid : c.authorizedPeer.any (current fails) with
      | true =>
        rw [hvalid] at h
        cases h
        exact .validated hcurrent hwriter hvalid
      | false =>
        rw [hvalid] at h
        cases h
        exact .stale hcurrent hwriter hvalid
    · cases h
  | serialize =>
    simp only [step] at h
    split at h
    · rename_i hcurrent
      exact .serialize hcurrent h
    · cases h
  | transmit late answer =>
    simp only [step] at h
    split at h
    · rename_i hcurrent
      exact .transmit hcurrent h
    · cases h

/-- **Every step of a wire does one of these** to the calls that send. -/
theorem sends_of_step {e : WireEvent} (h : v.step codec c current e = some (v', r)) :
    Sends codec c current v v' r := by
  cases moves h with
  | start => exact .quiet .nothing rfl rfl rfl
  | work hby hsetup hwork => exact sends_work hwork hsetup
  | receive hworker hreceive =>
    obtain ⟨hcurrent, haccepted, hsends⟩ := receive_eq hreceive
    exact .quiet .nothing hcurrent haccepted hsends
  | @handle late fails rest handling hworker hhandling hby hnone =>
    by_cases hpong : (handling.step codec.toHost c late (current fails)).1 = .sendPong
    · rw [hpong]
      exact sends_beginSend (o := ⟨.reply (pongPacket codec.myDeviceId), .locked⟩)
        (hnone hpong) rfl (.reply hworker hhandling hpong) rfl
    · obtain ⟨hcurrent, haccepted, hsends⟩ := handle_eq hpong handling rest
      exact .quiet (.handle hhandling hpong) hcurrent haccepted hsends
  | @sendPacket packet hnone =>
    exact sends_beginSend (o := ⟨.packet packet, .locked⟩) hnone rfl (.packet packet) rfl
  | validated hcurrent hwriter hvalid => exact .validated hcurrent rfl hwriter hvalid rfl
  | stale hcurrent hwriter hstale => exact .stale hcurrent hwriter hstale rfl
  | serialize hcurrent hserialize => exact sends_serialize hcurrent hserialize
  | transmit hcurrent htransmit => exact sends_transmit hcurrent htransmit

end Wire

/-! ## Who holds the lock -/

/-- **The connection agrees with its wire** on who holds `write_mutex_` to
send, and for what. -/
def Held (c : Connection) (current : Option Outgoing) : Prop :=
  match current.bind (fun o => o.origin.content.map (fun packet => (packet, o.progress))) with
  | none => c.writer.isSending = false
  | some (packet, .locked) => c.writer = .checking packet ∨ c.writer = .writing packet
  | some (packet, .sending _) => c.writer = .writing packet

namespace Connection

variable {c c' : Connection}

/-- A disconnect stops the session and leaves the lock alone. -/
theorem requestDisconnect_eq (h : c.requestDisconnect = some c') :
    c' = { c with stopping := true } := by
  unfold requestDisconnect at h
  split at h
  · cases h
  · cases h
    rfl

/-- But for a pong, `handle_record` leaves the lock alone. -/
theorem writer_perform {host : Host} {x : HandlingAction × Handling} (hx : x.1 ≠ .sendPong)
    (h : c.perform host x = some c') : c'.writer = c.writer := by
  obtain ⟨action, next⟩ := x
  cases action with
  | requestDisconnect =>
    obtain ⟨d, hd, rfl⟩ := Option.map_eq_some_iff.mp h
    rw [requestDisconnect_eq hd]
  | sendPong => exact absurd rfl hx
  | _ =>
    cases h
    rfl

theorem perform_sendPong {host : Host} {x : HandlingAction × Handling} (hx : x.1 = .sendPong)
    (h : c.perform host x = some c') : c.writer = .free
      ∧ c' = { c.beginSend (pongPacket host.myDeviceId) with handling := some x.2 } := by
  obtain ⟨action, next⟩ := x
  cases hx
  simp only [perform] at h
  split at h
  · rename_i hfree
    cases h
    exact ⟨Writer.eq_free hfree, rfl⟩
  · cases h

/-- What is asked for that does not concern the lock leaves it alone. -/
theorem writer_of_plain {codec : Codec} {db : Database} {r : Option Request}
    (hr : Wire.Plain codec c (SessionAuthentication.authorizationIsCurrent db) r)
    (h : c.answer codec.toHost db r = some c') : c'.writer = c.writer := by
  cases hr with
  | nothing =>
    cases h
    rfl
  | requestDisconnect => rw [requestDisconnect_eq h]
  | receive payload =>
    simp only [answer] at h
    split at h
    · cases h
      rfl
    · cases h
  | handle hh haction =>
    obtain ⟨d, hd, h⟩ := Option.bind_eq_some_iff.mp h
    obtain rfl := Option.some.inj (hh.symm.trans hd)
    exact writer_perform haction h

/-- What a wire asks for is later in the life of its connection. -/
theorem later_of_answer {host : Host} {db : Database} {r : Option Request}
    (h : c.answer host db r = some c') : c.Later c' := by
  match r, h with
  | none, h =>
    cases h
    exact .refl c
  | some .requestDisconnect, h => exact (undisturbed_requestDisconnect h).toLater
  | some (.receive payload), h =>
    simp only [answer] at h
    split at h
    · cases h
      exact ⟨fun h => ⟨h, rfl⟩, id, id⟩
    · cases h
  | some (.handle late fails), h =>
    obtain ⟨d, -, h⟩ := Option.bind_eq_some_iff.mp h
    exact later_perform h
  | some (.send packet), h =>
    simp only [answer] at h
    split at h
    · cases h
      exact later_beginSend packet
    · cases h
  | some (.sending fails outcome), h => exact (later_sending h).1

theorem beginSend_of_permits {packet : Json} {origin : Origin} (hpermits : Wire.Permits c origin)
    (hcontent : origin.content.isSome = true) :
    c.beginSend packet = { c with writer := .writing packet }
      ∨ c.beginSend packet = { c with writer := .checking packet } := by
  obtain ⟨hstopping, hready⟩ := hpermits
  obtain ⟨hready, hpeer⟩ := hready hcontent
  unfold beginSend
  rw [if_neg (by simp [hstopping, hready, Option.isNone_eq_false_iff.mpr hpeer])]
  split
  · exact .inl rfl
  · exact .inr rfl

theorem beginSend_of_not_permits {packet : Json} {origin : Origin}
    (hrefused : ¬ Wire.Permits c origin) : c.beginSend packet = c := by
  unfold beginSend
  rw [if_pos]
  by_contra hguard
  simp only [Bool.or_eq_true, not_or, Bool.not_eq_true, Bool.not_eq_false'] at hguard
  exact hrefused ⟨hguard.1.1, fun _ => ⟨hguard.1.2, Option.isNone_eq_false_iff.mp hguard.2⟩⟩

theorem held_of_begins {codec : Codec} {db : Database} {v : Wire} {o : Outgoing} {r : Option Request}
    (hbegins : Wire.Begins codec c (SessionAuthentication.authorizationIsCurrent db) v o r)
    (hpermits : Wire.Permits c o.origin) (h : c.answer codec.toHost db r = some c') :
    Held c' (some o) := by
  cases hbegins with
  | preface hworker hfirst hfree =>
    cases h
    show c.writer.isSending = false
    rw [hfree]
    rfl
  | hello hworker hsent hfree =>
    cases h
    show c.writer.isSending = false
    rw [hfree]
    rfl
  | reply hworker hh haction =>
    obtain ⟨d, hd, h⟩ := Option.bind_eq_some_iff.mp h
    obtain rfl := Option.some.inj (hh.symm.trans hd)
    obtain ⟨-, rfl⟩ := perform_sendPong haction h
    rcases beginSend_of_permits hpermits rfl with heq | heq <;> rw [heq]
    · exact .inr rfl
    · exact .inl rfl
  | packet packet =>
    simp only [answer] at h
    split at h
    · cases h
      rcases beginSend_of_permits hpermits rfl with heq | heq <;> rw [heq]
      · exact .inr rfl
      · exact .inl rfl
    · cases h

theorem held_of_refused {codec : Codec} {db : Database} {v : Wire} {o : Outgoing} {r : Option Request}
    (hbegins : Wire.Begins codec c (SessionAuthentication.authorizationIsCurrent db) v o r)
    (hrefused : ¬ Wire.Permits c o.origin) (h : c.answer codec.toHost db r = some c') :
    Held c' none := by
  show c'.writer.isSending = false
  cases hbegins with
  | preface hworker hfirst hfree =>
    cases h
    rw [hfree]
    rfl
  | hello hworker hsent hfree =>
    cases h
    rw [hfree]
    rfl
  | reply hworker hh haction =>
    obtain ⟨d, hd, h⟩ := Option.bind_eq_some_iff.mp h
    obtain rfl := Option.some.inj (hh.symm.trans hd)
    obtain ⟨hfree, rfl⟩ := perform_sendPong haction h
    show (c.beginSend _).writer.isSending = false
    rw [beginSend_of_not_permits hrefused, hfree]
    rfl
  | packet packet =>
    simp only [answer] at h
    split at h
    · rename_i hguard
      rw [Bool.and_eq_true] at hguard
      cases h
      rw [beginSend_of_not_permits hrefused, Writer.eq_free hguard.1]
      rfl
    · cases h

theorem sending_writing {db : Database} {fails : Bool} {outcome : SendOutcome} {packet : Json}
    (hwriter : c.writer = .writing packet) (h : c.sending db fails outcome = some c') :
    c'.writer = .free ∧ (∀ started, outcome = .failed started → c'.stopping = true)
      ∧ (outcome = .refused → c' = { c with writer := .free }) := by
  unfold sending at h
  rw [hwriter] at h
  cases outcome with
  | refused =>
    cases h
    exact ⟨rfl, fun _ h => (by cases h), fun _ => rfl⟩
  | failed started =>
    cases h
    exact ⟨rfl, fun _ _ => rfl, fun h => (by cases h)⟩
  | sent =>
    cases h
    exact ⟨rfl, fun _ h => (by cases h), fun h => (by cases h)⟩

theorem sending_checking {db : Database} {fails : Bool} {outcome : SendOutcome} {packet : Json}
    (hwriter : c.writer = .checking packet) (h : c.sending db fails outcome = some c') :
    c' = if c.authorizedPeer.any (SessionAuthentication.authorizationIsCurrent db fails) then
        { c with writer := .writing packet }
      else { c with writer := .free, stopping := true } := by
  unfold sending at h
  rw [hwriter] at h
  split <;> rename_i hvalid <;> simp only [hvalid] at h <;> cases h <;> rfl

end Connection

/-- A call that holds the lock to send its packet. -/
theorem Held.writing {c : Connection} {origin : Origin} {s : Sending} {packet : Json}
    (h : Held c (some ⟨origin, .sending s⟩)) (hcontent : origin.content = some packet) :
    c.writer = .writing packet := by
  unfold Held at h
  simpa [hcontent] using h

theorem Held.locked {c : Connection} {origin : Origin} {packet : Json}
    (h : Held c (some ⟨origin, .locked⟩)) (hcontent : origin.content = some packet) :
    c.writer = .checking packet ∨ c.writer = .writing packet := by
  unfold Held at h
  simpa [hcontent] using h

/-- The worker holds the lock for a setup message. -/
theorem held_setup {c : Connection} {o : Outgoing} (hcontent : o.origin.content = none) :
    Held c (some o) ↔ c.writer.isSending = false := by
  unfold Held
  simp [hcontent]

theorem Held.sending {c : Connection} {origin : Origin} {s : Sending}
    (h : Held c (some ⟨origin, .sending s⟩)) (s' : Sending) :
    Held c (some ⟨origin, .sending s'⟩) := by
  unfold Held at h ⊢
  cases hcontent : origin.content with
  | none => simpa [hcontent] using h
  | some packet => simpa [hcontent] using h

theorem ending_setup {origin : Origin} {setup : Option Request} {fails : Bool}
    {outcome : SendOutcome} (hcontent : origin.content = none) :
    Wire.ending origin setup fails outcome = setup := by
  unfold Wire.ending
  rw [hcontent]

theorem ending_packet {origin : Origin} {setup : Option Request} {fails : Bool}
    {outcome : SendOutcome} {packet : Json} (hcontent : origin.content = some packet) :
    Wire.ending origin setup fails outcome = some (.sending fails outcome) := by
  unfold Wire.ending
  rw [hcontent]

/-- **The connection goes on agreeing with its wire.** -/
theorem Held.line {codec : Codec} {c c' : Connection} {v v' : Wire} (hline : Line codec c v c' v')
    (h : Held c v.current) : Held c' v'.current := by
  cases hline with
  | other hsame =>
    rcases hsame.writer with heq | ⟨hidle, hidle'⟩
    · unfold Held
      rw [heq]
      exact h
    · -- no one sends, before and after
      unfold Held at h ⊢
      split at h
      · exact hidle'
      · rcases h with h | h <;> rw [h] at hidle <;> cases hidle
      · rw [h] at hidle
        cases hidle
  | wire hv hc =>
    cases Wire.sends_of_step hv with
    | quiet hr hcurrent =>
      rw [hcurrent]
      unfold Held
      rw [Connection.writer_of_plain hr hc]
      exact h
    | begins hbegins hpermits _ hcurrent =>
      rw [hcurrent]
      exact Connection.held_of_begins hbegins hpermits hc
    | refused hbegins hrefused _ hcurrent =>
      rw [hcurrent]
      exact Connection.held_of_refused hbegins hrefused hc
    | declined _ hnone hcurrent =>
      cases hc
      rw [hcurrent, ← hnone]
      exact h
    | @validated o fails packet hcurrent hlocked hwriter hvalid hsame =>
      obtain ⟨origin, progress⟩ := o
      cases hlocked
      rw [Connection.answer_sending] at hc
      have hc := Connection.sending_checking hwriter hc
      rw [if_pos hvalid] at hc
      rw [hsame, hcurrent, hc]
      rw [hcurrent] at h
      cases hcontent : origin.content with
      | none =>
        have hidle := (held_setup (o := ⟨origin, .locked⟩) hcontent).mp h
        rw [hwriter] at hidle
        cases hidle
      | some p =>
        rcases h.locked hcontent with hp | hp
        · cases hwriter.symm.trans hp
          unfold Held
          simp [hcontent]
        · cases hwriter.symm.trans hp
    | stale hcurrent hwriter hstale hfinish =>
      rw [Connection.answer_sending] at hc
      have hc := Connection.sending_checking hwriter hc
      rw [if_neg (by simp [hstale])] at hc
      rw [hfinish, hc]
      rfl
    | @dropped origin result hcurrent hwriter hresult hnone =>
      rw [hnone]
      rw [hcurrent] at h
      cases hcontent : origin.content with
      | none =>
        rw [ending_setup hcontent] at hc
        cases hc
        exact (held_setup hcontent).mp h
      | some p =>
        rw [ending_packet hcontent, Connection.answer_sending] at hc
        obtain ⟨packet, hwriter⟩ := hwriter (by rw [hcontent]; rfl)
        show c'.writer.isSending = false
        rw [(Connection.sending_writing hwriter hc).1]
        rfl
    | framed hcurrent hpacket hframe hsame =>
      cases hc
      rw [hsame]
      rw [hcurrent] at h
      rcases hpacket with ⟨rfl, -⟩ | ⟨hcontent, packet, hwriter⟩
      · exact h
      · rcases h.locked hcontent with hp | hp
        · cases hwriter.symm.trans hp
        · unfold Held
          simpa [hcontent] using hp
    | goesOn stage hcurrent _ hsame =>
      cases hc
      rw [hsame]
      rw [hcurrent] at h
      exact h.sending _
    | accepts hcurrent _ _ _ hsame =>
      cases hc
      rw [hsame]
      rw [hcurrent] at h
      exact h.sending _
    | @completes origin s n hcurrent _ _ _ hnone =>
      rw [hnone]
      rw [hcurrent] at h
      cases hcontent : origin.content with
      | none =>
        rw [ending_setup hcontent] at hc
        cases hc
        exact (held_setup hcontent).mp h
      | some p =>
        rw [ending_packet hcontent, Connection.answer_sending] at hc
        show c'.writer.isSending = false
        rw [(Connection.sending_writing (h.writing hcontent) hc).1]
        rfl
    | @abandons origin s hcurrent _ hnone =>
      rw [hnone]
      rw [hcurrent] at h
      cases hcontent : origin.content with
      | none =>
        rw [ending_setup hcontent] at hc
        rw [Connection.requestDisconnect_eq hc]
        exact (held_setup hcontent).mp h
      | some p =>
        rw [ending_packet hcontent, Connection.answer_sending] at hc
        show c'.writer.isSending = false
        rw [(Connection.sending_writing (h.writing hcontent) hc).1]
        rfl

end Gasoline
