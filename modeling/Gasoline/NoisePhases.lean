import Gasoline.NoiseHandle

/-!
# The phases of a Noise handle

What one call does to a handle is said once (`Effect`): a call that is
refused changes nothing, and any other call found the mutex in order and the
session in the phase it is for. The argument checks of the entry points all
do nothing but refuse (`Checks`), so that each entry point is read from its
lock on.

From it, by induction on the calls: a handle reaches its transport once, by
an `enter_transport` that found the handshake finished, and a handle that
failed is dead.
-/

namespace Gasoline

variable {H T α : Type}

/-! ## What a call does -/

/-- How a call ends that the library had a part in. -/
inductive Ending.Asked : Ending → Prop
  | ok : Asked .ok
  | failed {result : NoiseResult} (hresult : result ≠ .ok) : Asked (.aborted (.failed result))
  | panicked : Asked (.aborted .panicked)

/-- **What one call does to a handle.** -/
inductive Effect (lib : Clatter H T) (h : NoiseHandle H T) :
    Entry → Ending → NoiseHandle H T → Prop
  | refused {entry : Entry} {result : NoiseResult} (hresult : result ≠ .ok) :
      Effect lib h entry (.aborted (.refused result)) h
  /-- A message of the handshake. -/
  | message {entry : Entry} {x x' : H} {ending : Ending} (hentry : entry.isHandshake = true)
      (hlive : h.poisoned = false) (hstate : h.state = .handshake x) (hending : ending.Asked) :
      Effect lib h entry ending
        { h with state := .handshake x', poisoned := ending == .aborted .panicked }
  /-- A query. -/
  | query {entry : Entry} {ending : Ending} (hentry : entry.isQuery = true)
      (hlive : h.poisoned = false) (hstate : h.state ≠ .failed)
      (hending : ending = .ok ∨ ending = .aborted .panicked) :
      Effect lib h entry ending { h with poisoned := ending == .aborted .panicked }
  /-- The transport is entered. -/
  | entered {x : H} {t : T} (hlive : h.poisoned = false) (hstate : h.state = .handshake x)
      (hfinished : lib.isFinished x = .returned true) :
      Effect lib h .enterTransport .ok { h with state := .transport t }
  /-- The handshake is lost. -/
  | lost {x : H} {ending : Ending} (hlive : h.poisoned = false) (hstate : h.state = .handshake x)
      (hfinished : lib.isFinished x ≠ .returned false) (hending : ending.Asked)
      (hlost : ending ≠ .ok) :
      Effect lib h .enterTransport ending
        { h with state := .failed, poisoned := ending == .aborted .panicked }
  /-- A transport is used, and is still there. -/
  | used {entry : Entry} {t t' : T} {ending : Ending} (hentry : entry.isTransport = true)
      (hlive : h.poisoned = false) (hstate : h.state = .transport t) (hending : ending.Asked)
      (hreceived : ∀ b, entry = .transportDecrypt b → ∀ result, ending ≠ .aborted (.failed result)) :
      Effect lib h entry ending
        { h with state := .transport t', poisoned := ending == .aborted .panicked }
  /-- A message that was not received ends the session. -/
  | notReceived {b : Buffers} {t : T} {result : NoiseResult} (hlive : h.poisoned = false)
      (hstate : h.state = .transport t) (hresult : result ≠ .ok) :
      Effect lib h (.transportDecrypt b) (.aborted (.failed result)) { h with state := .failed }
  | destroyed {destroyed : Bool} : Effect lib h .destroy .ok { h with destroyed := destroyed }

/-! ## Checks -/

/-- **A check**: it leaves the handle and the mutex alone, and returns or
refuses. -/
def Checks (x : Ffi H T Unit) : Prop :=
  ∀ f, Before x (fun r g => g.handle = f.handle ∧ g.locked = f.locked
    ∧ ∀ why, r = .error why → ∃ result, why = .refused result ∧ result ≠ .ok) f

namespace Checks

theorem done : Checks (pure () : Ffi H T Unit) :=
  fun _ => ⟨rfl, rfl, fun _ h => by cases h⟩

theorem refuseIf (c : Bool) {result : NoiseResult} (hresult : result ≠ .ok) :
    Checks (Ffi.refuseIf c result : Ffi H T Unit) := by
  intro f
  refine before_ite (fun _ => ?_) (fun _ => done f)
  refine ⟨rfl, rfl, fun why h => ?_⟩
  cases h
  exact ⟨result, rfl, hresult⟩

theorem store (v : Stored) : Checks (Ffi.store v : Ffi H T Unit) :=
  fun _ => ⟨rfl, rfl, fun _ h => by cases h⟩

/-- Checks one after the other are a check. -/
theorem bind {x : Ffi H T Unit} {y : Unit → Ffi H T Unit} (hx : Checks x) (hy : Checks (y ())) :
    Checks (x >>= y) := by
  intro f
  rw [before_bind]
  refine (hx f).mono (fun r g hg => ?_)
  cases r with
  | error why => exact ⟨hg.1, hg.2.1, fun why h => hg.2.2 _ (by cases h; rfl)⟩
  | ok u =>
    refine (hy g).mono (fun r g' hg' => ?_)
    exact ⟨hg'.1.trans hg.1, hg'.2.1.trans hg.2.1, hg'.2.2⟩

theorem validateBuffer (data len : UInt64) : Checks (Ffi.validateBuffer data len : Ffi H T Unit) :=
  refuseIf _ (by decide)

theorem checkedSlice (data len : UInt64) :
    Checks (if len == 0 then pure () else Ffi.validateBuffer data len : Ffi H T Unit) := by
  split
  · exact done
  · exact validateBuffer data len

theorem validateHandshakeBuffers (b : Buffers) :
    Checks (Ffi.validateHandshakeBuffers b : Ffi H T Unit) :=
  (refuseIf _ (by decide)).bind <| (validateBuffer _ _).bind <| (validateBuffer _ _).bind <|
    (refuseIf _ (by decide)).bind <| (store _).bind <| refuseIf _ (by decide)

end Checks

/-! ## Reading an entry point -/

section Reading

variable {lib : Clatter H T} {h : NoiseHandle H T} {entry : Entry} {f : Frame H T}

/-- What a body that ends so did. -/
def Ends (lib : Clatter H T) (h : NoiseHandle H T) (entry : Entry) :
    Except Abort Unit → Frame H T → Prop
  | .ok (), f => Effect lib h entry .ok f.handle
  | .error why, f => Effect lib h entry (.aborted why) (f.release why)

/-- The effect of a call is what its body does. -/
theorem effect_of_before {body : Ffi H T Unit}
    (hbody : Before body (Ends lib h entry) ⟨h, false, none⟩) :
    Effect lib h entry (h.guard body).1 (h.guard body).2.1 := by
  unfold Before at hbody
  unfold NoiseHandle.guard
  split at hbody
  · rename_i hrun
    rw [hrun]
    exact hbody
  · rename_i hrun
    rw [hrun]
    exact hbody

/-- Where nothing panics, the mutex is not poisoned. -/
theorem release_of_ne_panicked {why : Abort} (hwhy : why ≠ .panicked) :
    f.release why = f.handle := by
  have hne : (why == Abort.panicked) = false := beq_eq_false_iff_ne.mpr hwhy
  unfold Frame.release
  rw [hne, Bool.and_false, Bool.or_false]

theorem ends_refused {result : NoiseResult} (hf : f.handle = h) (hresult : result ≠ .ok) :
    Ends lib h entry (.error (.refused result)) f := by
  show Effect lib h entry _ _
  rw [release_of_ne_panicked (by simp), hf]
  exact .refused hresult

theorem Checks.before {x : Ffi H T Unit} {k : Unit → Ffi H T Unit} (hx : Checks x)
    (hf : f.handle = h)
    (hk : ∀ g, g.handle = h → g.locked = f.locked → Before (k ()) (Ends lib h entry) g) :
    Before (x >>= k) (Ends lib h entry) f := by
  rw [before_bind]
  refine (hx f).mono (fun r g hg => ?_)
  cases r with
  | ok u => exact hk g (hg.1.trans hf) hg.2.1
  | error why =>
    obtain ⟨result, rfl, hresult⟩ := hg.2.2 why rfl
    exact ends_refused (hg.1.trans hf) hresult

theorem before_lock {k : Unit → Ffi H T Unit} (hf : f.handle = h)
    (hk : h.poisoned = false → ∀ g, g.handle = h → g.locked = true →
      Before (k ()) (Ends lib h entry) g) :
    Before (Ffi.lock >>= k) (Ends lib h entry) f := by
  unfold Ffi.lock
  rw [bind_assoc, before_bind, before_get]
  show Before ((Ffi.refuseIf f.handle.poisoned .internalError >>= fun _ => _) >>= k) _ f
  rw [bind_assoc, before_bind]
  refine before_ite (fun _ => ends_refused hf (by simp)) (fun hlive => ?_)
  exact hk (by rw [← hf]; simpa using hlive) _ hf rfl

theorem before_getState {k : SessionState H T → Ffi H T Unit} :
    Before (Ffi.getState >>= k) (Ends lib h entry) f
      ↔ Before (k f.handle.state) (Ends lib h entry) f := Iff.rfl

/-- The session is a handshake, or the call is refused. -/
theorem before_theHandshake {k : H → Ffi H T Unit} (hf : f.handle = h)
    (hk : ∀ x, h.state = .handshake x → Before (k x) (Ends lib h entry) f) :
    Before (Ffi.theHandshake >>= k) (Ends lib h entry) f := by
  subst hf
  unfold Ffi.theHandshake
  rw [bind_assoc, before_getState]
  cases hstate : f.handle.state with
  | handshake x => exact hk x hstate
  | transport t => exact ends_refused rfl (by simp)
  | failed => exact ends_refused rfl (by simp)

/-- The session is a transport, or the call is refused. -/
theorem before_theTransport {k : T → Ffi H T Unit} (hf : f.handle = h)
    (hk : ∀ t, h.state = .transport t → Before (k t) (Ends lib h entry) f) :
    Before (Ffi.theTransport >>= k) (Ends lib h entry) f := by
  subst hf
  unfold Ffi.theTransport
  rw [bind_assoc, before_getState]
  cases hstate : f.handle.state with
  | handshake x => exact ends_refused rfl (by simp)
  | transport t => exact hk t hstate
  | failed => exact ends_refused rfl (by simp)

theorem before_ask {o : Outcome α} {k : α → Ffi H T Unit}
    (hpanic : o = .panicked → Ends lib h entry (.error .panicked) f)
    (hk : ∀ a, o = .returned a → Before (k a) (Ends lib h entry) f) :
    Before (Ffi.ask o >>= k) (Ends lib h entry) f := by
  cases o with
  | returned a => exact hk a rfl
  | panicked => exact hpanic rfl

/-- An answer that is an error ends the call. -/
theorem before_mapErr {E : Type} {m : E → NoiseResult} {o : Except E α} {k : α → Ffi H T Unit}
    (hfailed : ∀ e, Ends lib h entry (.error (.failed (m e))) f)
    (hk : ∀ a, o = .ok a → Before (k a) (Ends lib h entry) f) :
    Before (Ffi.mapErr m o >>= k) (Ends lib h entry) f := by
  cases o with
  | ok a => exact hk a rfl
  | error e => exact hfailed e

theorem before_setState {s : SessionState H T} {k : Unit → Ffi H T Unit}
    (hk : Before (k ()) (Ends lib h entry) { f with handle := { f.handle with state := s } }) :
    Before (Ffi.setState s >>= k) (Ends lib h entry) f := hk

/-- How the ending of a body is reported. -/
def ending : Except Abort Unit → Ending
  | .ok () => .ok
  | .error why => .aborted why

/-- **The library had a part in it**: what is left is the session as it is
then, and the mutex is poisoned by a panic. -/
theorem ends_asked {s : SessionState H T} {r : Except Abort Unit}
    (hf : f.handle = { h with state := s }) (hlocked : f.locked = true) (hlive : h.poisoned = false)
    (hr : (ending r).Asked)
    (heffect : (ending r).Asked → Effect lib h entry (ending r)
      { h with state := s, poisoned := ending r == .aborted .panicked }) :
    Ends lib h entry r f := by
  have h' := heffect hr
  cases r with
  | ok u =>
    show Effect lib h entry .ok f.handle
    rw [hf, hlive]
    exact h'
  | error why =>
    show Effect lib h entry (.aborted why) (f.release why)
    unfold Frame.release
    rw [hf, hlocked, hlive]
    cases why with
    | refused result => exact h'
    | failed result => exact h'
    | panicked => exact h'

theorem mapHandshakeError_ne_ok (e : HandshakeError) : mapHandshakeError e ≠ .ok := by
  cases e <;> decide

theorem mapTransportError_ne_ok (e : TransportError) : mapTransportError e ≠ .ok := by
  cases e <;> decide

/-- A query of the library, of a handshake or a transport that stays as it
is. -/
theorem ends_query {r : Except Abort Unit} (hentry : entry.isQuery = true) (hf : f.handle = h)
    (hlocked : f.locked = true) (hlive : h.poisoned = false) (hstate : h.state ≠ .failed)
    (hr : r = .ok () ∨ r = .error .panicked) : Ends lib h entry r f := by
  refine ends_asked hf hlocked hlive ?_ (fun _ => .query hentry hlive hstate ?_)
  · rcases hr with rfl | rfl
    · exact .ok
    · exact .panicked
  · rcases hr with rfl | rfl
    · exact .inl rfl
    · exact .inr rfl

/-- **A message of the handshake**, from the answer of the library on. -/
theorem before_message (hentry : entry.isHandshake = true) {x : H} (hf : f.handle = h)
    (hlocked : f.locked = true) (hlive : h.poisoned = false) (hstate : h.state = .handshake x)
    (answer : Outcome (Except HandshakeError UInt64) × H) :
    Before (do
      Ffi.setState (.handshake answer.2)
      let written ← Ffi.mapErr mapHandshakeError (← Ffi.ask answer.1)
      Ffi.store (.length written)) (Ends lib h entry) f := by
  have hends : ∀ {g : Frame H T} {r : Except Abort Unit},
      g.handle = { h with state := .handshake answer.2 } → g.locked = true → (ending r).Asked →
      Ends lib h entry r g := fun hg hlocked hr =>
    ends_asked hg hlocked hlive hr (fun hr => .message hentry hlive hstate hr)
  subst hf
  refine before_setState (before_ask (fun _ => hends rfl hlocked .panicked) (fun a _ => ?_))
  refine before_mapErr (fun e => ?_) (fun written _ => ?_)
  · exact hends rfl hlocked (.failed (mapHandshakeError_ne_ok e))
  · show Ends lib _ entry (.ok ()) _
    exact hends rfl hlocked .ok

/-- The library reports the overhead of the next message. -/
theorem before_overhead (hentry : entry.isHandshake = true) {x : H} (hf : f.handle = h)
    (hlocked : f.locked = true) (hlive : h.poisoned = false) (hstate : h.state = .handshake x)
    {k : UInt64 → Ffi H T Unit} (hk : ∀ overhead, Before (k overhead) (Ends lib h entry) f) :
    Before (do
      let overhead ← Ffi.mapErr mapHandshakeError (← Ffi.ask (lib.getNextMessageOverhead x))
      k overhead) (Ends lib h entry) f := by
  have hsame : f.handle = { h with state := .handshake x } := by
    rw [hf, ← hstate]
  have hends : ∀ {r : Except Abort Unit}, (ending r).Asked → Ends lib h entry r f := fun hr =>
    ends_asked hsame hlocked hlive hr (fun hr => .message hentry hlive hstate hr)
  refine before_ask (fun _ => hends .panicked) (fun a _ => ?_)
  exact before_mapErr (fun e => hends (.failed (mapHandshakeError_ne_ok e))) (fun o _ => hk o)

end Reading

/-! ## The entry points -/

section EntryPoints

variable (lib : Clatter H T) (null : Bool) {h : NoiseHandle H T}

theorem handshakeWrite_ends (b : Buffers) (f : Frame H T) (hf : f.handle = h) :
    Before (Ffi.handshakeWrite lib null b) (Ends lib h (.handshakeWrite b)) f := by
  refine (Checks.validateHandshakeBuffers b).before hf (fun f hf _ => ?_)
  refine (Checks.refuseIf _ (by decide)).before hf (fun f hf _ => ?_)
  refine before_lock hf (fun hlive f hf hlocked => ?_)
  refine before_theHandshake hf (fun x hstate => ?_)
  refine before_overhead rfl hf hlocked hlive hstate (fun overhead => ?_)
  split
  · exact ends_refused hf (by decide)
  · refine (Checks.refuseIf _ (by decide)).before hf (fun f hf h1 => ?_)
    refine (Checks.refuseIf _ (by decide)).before hf (fun f hf h2 => ?_)
    refine (Checks.checkedSlice _ _).before hf (fun f hf h3 => ?_)
    refine (Checks.checkedSlice _ _).before hf (fun f hf h4 => ?_)
    exact before_message rfl hf (by rw [h4, h3, h2, h1, hlocked]) hlive hstate _

theorem handshakeRead_ends (b : Buffers) (f : Frame H T) (hf : f.handle = h) :
    Before (Ffi.handshakeRead lib null b) (Ends lib h (.handshakeRead b)) f := by
  refine (Checks.validateHandshakeBuffers b).before hf (fun f hf _ => ?_)
  refine (Checks.refuseIf _ (by decide)).before hf (fun f hf _ => ?_)
  refine before_lock hf (fun hlive f hf hlocked => ?_)
  refine before_theHandshake hf (fun x hstate => ?_)
  refine before_overhead rfl hf hlocked hlive hstate (fun overhead => ?_)
  refine (Checks.refuseIf _ (by decide)).before hf (fun f hf h1 => ?_)
  refine (Checks.refuseIf _ (by decide)).before hf (fun f hf h2 => ?_)
  refine (Checks.checkedSlice _ _).before hf (fun f hf h3 => ?_)
  refine (Checks.checkedSlice _ _).before hf (fun f hf h4 => ?_)
  exact before_message rfl hf (by rw [h4, h3, h2, h1, hlocked]) hlive hstate _

theorem handshakeIsComplete_ends (complete : UInt64) (f : Frame H T) (hf : f.handle = h) :
    Before (Ffi.handshakeIsComplete lib null complete)
      (Ends lib h (.handshakeIsComplete complete)) f := by
  refine (Checks.refuseIf _ (by decide)).before hf (fun f hf _ => ?_)
  refine (Checks.store _).before hf (fun f hf _ => ?_)
  refine (Checks.refuseIf _ (by decide)).before hf (fun f hf _ => ?_)
  refine before_lock hf (fun hlive f hf hlocked => ?_)
  rw [before_getState, hf]
  cases hstate : h.state with
  | handshake x =>
    have hne : h.state ≠ .failed := by simp [hstate]
    refine before_ask (fun _ => ends_query rfl hf hlocked hlive hne (.inr rfl)) (fun a _ => ?_)
    show Ends lib h _ (.ok ()) _
    exact ends_query rfl hf hlocked hlive hne (.inl rfl)
  | transport t =>
    show Ends lib h _ (.ok ()) _
    exact ends_query rfl hf hlocked hlive (by simp [hstate]) (.inl rfl)
  | failed => exact ends_refused hf (by decide)

theorem before_copyFromSlice {entry : Entry} {f : Frame H T} (hentry : entry.isQuery = true)
    (hf : f.handle = h) (hlocked : f.locked = true) (hlive : h.poisoned = false)
    (hstate : h.state ≠ .failed) (hash : Bytes) :
    Before (Ffi.copyFromSlice hash) (Ends lib h entry) f := by
  refine before_ite (fun _ => ?_) (fun _ => ?_)
  · show Ends lib h entry (.ok ()) _
    exact ends_query hentry hf hlocked hlive hstate (.inl rfl)
  · exact ends_query hentry hf hlocked hlive hstate (.inr rfl)

theorem copyHandshakeHash_ends (output capacity : UInt64) (f : Frame H T) (hf : f.handle = h) :
    Before (Ffi.copyHandshakeHash lib null output capacity)
      (Ends lib h (.copyHandshakeHash output capacity)) f := by
  refine (Checks.refuseIf _ (by decide)).before hf (fun f hf _ => ?_)
  refine (Checks.checkedSlice _ _).before hf (fun f hf _ => ?_)
  refine (Checks.refuseIf _ (by decide)).before hf (fun f hf _ => ?_)
  refine before_lock hf (fun hlive f hf hlocked => ?_)
  rw [before_getState, hf]
  cases hstate : h.state with
  | handshake x =>
    have hne : h.state ≠ .failed := by simp [hstate]
    have hpanic : Ends lib h (.copyHandshakeHash output capacity) (.error .panicked) f :=
      ends_query rfl hf hlocked hlive hne (.inr rfl)
    refine before_ask (fun _ => hpanic) (fun finished _ => ?_)
    refine before_ite (fun _ => ?_) (fun _ => ends_refused hf (by decide))
    exact before_ask (fun _ => hpanic)
      (fun hash _ => before_copyFromSlice lib rfl hf hlocked hlive hne hash)
  | transport t =>
    have hne : h.state ≠ .failed := by simp [hstate]
    refine before_ask (fun _ => ends_query rfl hf hlocked hlive hne (.inr rfl)) (fun hash _ => ?_)
    exact before_copyFromSlice lib rfl hf hlocked hlive hne hash
  | failed => exact ends_refused hf (by decide)

/-- **Entering the transport**: what was taken out is put back where the
wrapper refuses, and lost where the library does not go along. -/
theorem enterTransport_ends (f : Frame H T) (hf : f.handle = h) :
    Before (Ffi.enterTransport lib null) (Ends lib h .enterTransport) f := by
  refine (Checks.refuseIf _ (by decide)).before hf (fun f hf _ => ?_)
  refine before_lock hf (fun hlive f hf hlocked => ?_)
  rw [before_getState, hf]
  -- putting back what was there
  have hback : ({ f.handle with state := h.state } : NoiseHandle H T) = h := by rw [hf]
  cases hstate : h.state with
  | handshake x =>
    rw [hstate] at hback
    have hlost : ∀ {r : Except Abort Unit}, lib.isFinished x ≠ .returned false →
        (ending r).Asked → ending r ≠ .ok →
        Ends lib h .enterTransport r { f with handle := { f.handle with state := .failed } } :=
      fun hfinished hr hne => ends_asked (by rw [hf]) hlocked hlive hr
        (fun hr => .lost hlive hstate hfinished hr hne)
    refine before_setState (before_ask (fun hpanic => ?_) (fun finished hfin => ?_))
    · exact hlost (by simp [hpanic]) .panicked (by simp [ending])
    refine before_ite (fun _ => ?_) (fun hfinished => ?_)
    · refine before_setState ?_
      exact ends_refused hback (by decide)
    · have htrue : lib.isFinished x = .returned true := by
        rw [hfin, show finished = true by simpa using hfinished]
      have hnot : lib.isFinished x ≠ .returned false := by simp [htrue]
      refine before_ask (fun _ => hlost hnot .panicked (by simp [ending])) (fun answer _ => ?_)
      refine before_mapErr (fun e => ?_) (fun transport _ => ?_)
      · exact hlost hnot (.failed (mapHandshakeError_ne_ok e)) (by simp [ending])
      · show Effect lib h .enterTransport .ok { f.handle with state := .transport transport }
        rw [hf]
        exact .entered hlive hstate htrue
  | transport t =>
    rw [hstate] at hback
    refine before_setState (before_setState ?_)
    exact ends_refused hback (by decide)
  | failed =>
    rw [hstate] at hback
    refine before_setState (before_setState ?_)
    exact ends_refused hback (by decide)

/-- A transport is used, and is still there. -/
theorem ends_used {entry : Entry} {f : Frame H T} {t t' : T} {r : Except Abort Unit}
    (hentry : entry.isTransport = true) (hf : f.handle = { h with state := .transport t' })
    (hlocked : f.locked = true) (hlive : h.poisoned = false) (hstate : h.state = .transport t)
    (hr : (ending r).Asked)
    (hreceived : ∀ b, entry = .transportDecrypt b →
      ∀ result, ending r ≠ .aborted (.failed result)) :
    Ends lib h entry r f :=
  ends_asked hf hlocked hlive hr (fun hr => .used hentry hlive hstate hr hreceived)

theorem transportEncrypt_ends (b : Buffers) (f : Frame H T) (hf : f.handle = h) :
    Before (Ffi.transportEncrypt lib null b) (Ends lib h (.transportEncrypt b)) f := by
  refine (Checks.refuseIf _ (by decide)).before hf (fun f hf _ => ?_)
  refine (Checks.store _).before hf (fun f hf _ => ?_)
  refine (Checks.refuseIf _ (by decide)).before hf (fun f hf _ => ?_)
  refine (Checks.refuseIf _ (by decide)).before hf (fun f hf _ => ?_)
  refine (Checks.refuseIf _ (by decide)).before hf (fun f hf _ => ?_)
  refine (Checks.checkedSlice _ _).before hf (fun f hf _ => ?_)
  refine (Checks.checkedSlice _ _).before hf (fun f hf _ => ?_)
  refine (Checks.refuseIf _ (by decide)).before hf (fun f hf _ => ?_)
  refine before_lock hf (fun hlive f hf hlocked => ?_)
  refine before_theTransport hf (fun t hstate => ?_)
  subst hf
  have hends : ∀ {g : Frame H T} {r : Except Abort Unit},
      g.handle = { f.handle with state := .transport (lib.send t).2 } → g.locked = true →
      (ending r).Asked → Ends lib f.handle (.transportEncrypt b) r g := fun hg hl hr =>
    ends_used lib rfl hg hl hlive hstate hr (fun b' hb => by cases hb)
  refine before_setState (before_ask (fun _ => hends rfl hlocked .panicked) (fun answer _ => ?_))
  refine before_mapErr (fun e => ?_) (fun written _ => ?_)
  · exact hends rfl hlocked (.failed (mapTransportError_ne_ok e))
  · show Ends lib f.handle _ (.ok ()) _
    exact hends rfl hlocked .ok

/-- A message that the library does not receive ends the session. -/
theorem transportDecrypt_ends (b : Buffers) (f : Frame H T) (hf : f.handle = h) :
    Before (Ffi.transportDecrypt lib null b) (Ends lib h (.transportDecrypt b)) f := by
  refine (Checks.refuseIf _ (by decide)).before hf (fun f hf _ => ?_)
  refine (Checks.store _).before hf (fun f hf _ => ?_)
  refine (Checks.refuseIf _ (by decide)).before hf (fun f hf _ => ?_)
  refine (Checks.refuseIf _ (by decide)).before hf (fun f hf _ => ?_)
  refine (Checks.refuseIf _ (by decide)).before hf (fun f hf _ => ?_)
  refine (Checks.refuseIf _ (by decide)).before hf (fun f hf _ => ?_)
  refine (Checks.checkedSlice _ _).before hf (fun f hf _ => ?_)
  refine (Checks.checkedSlice _ _).before hf (fun f hf _ => ?_)
  refine (Checks.refuseIf _ (by decide)).before hf (fun f hf _ => ?_)
  refine before_lock hf (fun hlive f hf hlocked => ?_)
  refine before_theTransport hf (fun t hstate => ?_)
  subst hf
  have hends : ∀ {g : Frame H T} {r : Except Abort Unit},
      g.handle = { f.handle with state := .transport (lib.receive t).2 } → g.locked = true →
      (ending r).Asked → (∀ result, ending r ≠ .aborted (.failed result)) →
      Ends lib f.handle (.transportDecrypt b) r g := fun hg hl hr hreceived =>
    ends_used lib rfl hg hl hlive hstate hr (fun _ _ => hreceived)
  refine before_setState (before_ask (fun _ => hends rfl hlocked .panicked (by simp [ending]))
    (fun answer _ => ?_))
  cases answer with
  | ok written =>
    show Ends lib f.handle _ (.ok ()) _
    exact hends rfl hlocked .ok (by simp [ending])
  | error e =>
    refine before_setState ?_
    show Effect lib f.handle _ _ _
    rw [release_of_ne_panicked (by simp)]
    exact .notReceived hlive hstate (mapTransportError_ne_ok e)

theorem rekey_ends {entry : Entry} (hentry : entry.isTransport = true)
    (hnot : ∀ b, entry ≠ .transportDecrypt b)
    (answer : T → Outcome (Except TransportError Unit) × T) (f : Frame H T) (hf : f.handle = h) :
    Before (Ffi.rekey null answer) (Ends lib h entry) f := by
  refine (Checks.refuseIf _ (by decide)).before hf (fun f hf _ => ?_)
  refine before_lock hf (fun hlive f hf hlocked => ?_)
  refine before_theTransport hf (fun t hstate => ?_)
  subst hf
  have hends : ∀ {g : Frame H T} {r : Except Abort Unit},
      g.handle = { f.handle with state := .transport (answer t).2 } → g.locked = true →
      (ending r).Asked → Ends lib f.handle entry r g := fun hg hl hr =>
    ends_used lib hentry hg hl hlive hstate hr (fun b hb => absurd hb (hnot b))
  refine before_setState (before_ask (fun _ => hends rfl hlocked .panicked) (fun a _ => ?_))
  cases a with
  | ok u =>
    show Ends lib f.handle entry (.ok ()) _
    exact hends rfl hlocked .ok
  | error e =>
    show Ends lib f.handle entry (.error (.failed _)) _
    exact hends rfl hlocked (.failed (mapTransportError_ne_ok e))

theorem destroy_ends (f : Frame H T) (hf : f.handle = h) :
    Before (Ffi.destroy null) (Ends lib h .destroy) f := by
  refine before_ite (fun _ => ?_) (fun _ => ?_)
  · show Effect lib h .destroy .ok f.handle
    rw [hf]
    exact .destroyed
  · show Effect lib h .destroy .ok { f.handle with destroyed := true }
    rw [hf]
    exact .destroyed

end EntryPoints

/-- **Every call does one of these.** -/
theorem NoiseHandle.effect (h : NoiseHandle H T) (c : FfiCall H T) :
    Effect c.library h c.entry (h.ending c) (h.after c) := by
  refine effect_of_before ?_
  unfold Entry.body
  cases hentry : c.entry with
  | handshakeWrite b => exact handshakeWrite_ends _ _ b _ rfl
  | handshakeRead b => exact handshakeRead_ends _ _ b _ rfl
  | handshakeIsComplete complete => exact handshakeIsComplete_ends _ _ complete _ rfl
  | copyHandshakeHash output capacity => exact copyHandshakeHash_ends _ _ output capacity _ rfl
  | enterTransport => exact enterTransport_ends _ _ _ rfl
  | transportEncrypt b => exact transportEncrypt_ends _ _ b _ rfl
  | transportDecrypt b => exact transportDecrypt_ends _ _ b _ rfl
  | rekeySender => exact rekey_ends _ _ rfl (by simp) _ _ rfl
  | rekeyReceiver => exact rekey_ends _ _ rfl (by simp) _ _ rfl
  | destroy => exact destroy_ends _ _ _ rfl

/-- The handle is of no use any more. -/
def NoiseHandle.Dead (h : NoiseHandle H T) : Prop := h.poisoned = true ∨ h.state = .failed

/-! ## What follows from the effect -/

namespace Effect

variable {lib : Clatter H T} {h h' : NoiseHandle H T} {entry : Entry} {e : Ending}

/-- The code is `Ok` where nothing aborted the call. -/
theorem ok_of_result (he : Effect lib h entry e h') (hresult : e.result = .ok) : e = .ok := by
  have hasked : e.Asked → e = .ok := by
    intro hasked
    cases hasked with
    | ok => rfl
    | failed hne => exact absurd hresult hne
    | panicked => cases hresult
  cases he with
  | refused hne => exact absurd hresult hne
  | message _ _ _ hending => exact hasked hending
  | query _ _ _ hending =>
    rcases hending with rfl | rfl
    · rfl
    · cases hresult
  | entered => rfl
  | lost _ _ _ hending => exact hasked hending
  | used _ _ _ hending => exact hasked hending
  | notReceived _ _ hne => exact absurd hresult hne
  | destroyed => rfl

/-- **A call that is refused changes nothing.** -/
theorem eq_of_refused {result : NoiseResult} (he : Effect lib h entry (.aborted (.refused result)) h') :
    h' = h := by
  cases he with
  | refused => rfl
  | message _ _ _ hending => cases hending
  | query _ _ _ hending => rcases hending with hending | hending <;> cases hending
  | lost _ _ _ hending => cases hending
  | used _ _ _ hending => cases hending

/-- **A dead handle stays dead**, and does nothing but be destroyed. -/
theorem dead (he : Effect lib h entry e h') (hdead : h.Dead) :
    h'.Dead ∧ (entry ≠ .destroy → e ≠ .ok) := by
  have hlive : ∀ {P : Prop}, h.poisoned = false → h.state ≠ .failed → P := by
    intro P hpoisoned hstate
    rcases hdead with hdead | hdead
    · rw [hpoisoned] at hdead
      cases hdead
    · exact absurd hdead hstate
  cases he with
  | refused => exact ⟨hdead, fun _ => by simp⟩
  | message _ hpoisoned hstate => exact hlive hpoisoned (by simp [hstate])
  | query _ hpoisoned hstate => exact hlive hpoisoned hstate
  | entered hpoisoned hstate => exact hlive hpoisoned (by simp [hstate])
  | lost hpoisoned hstate => exact hlive hpoisoned (by simp [hstate])
  | used _ hpoisoned hstate => exact hlive hpoisoned (by simp [hstate])
  | notReceived hpoisoned hstate => exact hlive hpoisoned (by simp [hstate])
  | destroyed => exact ⟨hdead, fun hne => absurd rfl hne⟩

/-- **A panic kills the handle.** -/
theorem dead_of_panicked (he : Effect lib h entry (.aborted .panicked) h') : h'.Dead := by
  cases he with
  | message => exact .inl rfl
  | query => exact .inl rfl
  | lost => exact .inl rfl
  | used => exact .inl rfl

/-- **An error of `receive` or of `finalize` kills it.** -/
theorem dead_of_failed {result : NoiseResult} (he : Effect lib h entry (.aborted (.failed result)) h')
    (hentry : entry = .enterTransport ∨ ∃ b, entry = .transportDecrypt b) : h'.Dead := by
  cases he with
  | message hmessage =>
    rcases hentry with rfl | ⟨b, rfl⟩ <;> cases hmessage
  | query hquery =>
    rcases hentry with rfl | ⟨b, rfl⟩ <;> cases hquery
  | lost => exact .inr rfl
  | used hused _ _ _ hreceived =>
    rcases hentry with rfl | ⟨b, rfl⟩
    · cases hused
    · exact absurd rfl (hreceived b rfl result)
  | notReceived => exact .inr rfl

/-- A transport that is there was there, or was entered. -/
theorem transport_before (he : Effect lib h entry e h') {t : T} (ht : h'.state = .transport t) :
    (∃ t, h.state = .transport t) ∨ (entry = .enterTransport ∧ e = .ok) := by
  cases he with
  | refused => exact .inl ⟨t, ht⟩
  | message => cases ht
  | query => exact .inl ⟨t, ht⟩
  | entered => exact .inr ⟨rfl, rfl⟩
  | lost => cases ht
  | used _ _ hstate => exact .inl ⟨_, hstate⟩
  | notReceived => cases ht
  | destroyed => exact .inl ⟨t, ht⟩

/-- A handshake that is there was there, and the transport was not
entered. -/
theorem handshake_before (he : Effect lib h entry e h') {x : H} (hx : h'.state = .handshake x) :
    (∃ x, h.state = .handshake x) ∧ ¬ (entry = .enterTransport ∧ e = .ok) := by
  cases he with
  | refused => exact ⟨⟨x, hx⟩, fun hne => by cases hne.2⟩
  | message hmessage _ hstate =>
    exact ⟨⟨_, hstate⟩, fun hne => by rw [hne.1] at hmessage; cases hmessage⟩
  | query hquery => exact ⟨⟨x, hx⟩, fun hne => by rw [hne.1] at hquery; cases hquery⟩
  | entered => cases hx
  | lost => cases hx
  | used => cases hx
  | notReceived => cases hx
  | destroyed => exact ⟨⟨x, hx⟩, fun hne => by cases hne.1⟩

/-- A transport is used where there is one. -/
theorem transport_of_used (he : Effect lib h entry .ok h') (hentry : entry.isTransport = true) :
    ∃ t, h.state = .transport t := by
  cases he with
  | message hmessage => cases entry <;> simp [Entry.isHandshake, Entry.isTransport] at hmessage hentry
  | query hquery => cases entry <;> simp [Entry.isQuery, Entry.isTransport] at hquery hentry
  | entered => cases hentry
  | lost => cases hentry
  | used _ _ hstate => exact ⟨_, hstate⟩
  | destroyed => cases hentry

/-- **Entering the transport**: the handshake is finished then. -/
theorem finished_of_entered (he : Effect lib h .enterTransport .ok h') :
    ∃ x, h.state = .handshake x ∧ lib.isFinished x = .returned true := by
  cases he with
  | message hmessage => cases hmessage
  | query hquery => cases hquery
  | entered _ hstate hfinished => exact ⟨_, hstate, hfinished⟩
  | lost _ _ _ _ hlost => exact absurd rfl hlost
  | used hused => cases hused

/-- **Out of turn**, the wrapper refuses. -/
theorem refused_of_enter (he : Effect lib h .enterTransport e h')
    (hturn : ∀ x, h.state = .handshake x → lib.isFinished x = .returned false) :
    ∃ result, e = .aborted (.refused result) := by
  cases he with
  | refused => exact ⟨_, rfl⟩
  | message hmessage => cases hmessage
  | query hquery => cases hquery
  | entered _ hstate hfinished =>
    have hnot := hturn _ hstate
    rw [hfinished] at hnot
    cases hnot
  | lost _ hstate hfinished => exact absurd (hturn _ hstate) hfinished
  | used hused => cases hused

end Effect

namespace NoiseHandle

variable {h₀ h : NoiseHandle H T} {c : FfiCall H T} {cs : List (FfiCall H T)}

/-! ## Calls in a row -/

/-- Such a call was among them. -/
def Happened (P : NoiseHandle H T → FfiCall H T → Prop) (h₀ : NoiseHandle H T)
    (cs : List (FfiCall H T)) : Prop :=
  ∃ before c after h, cs = before ++ c :: after ∧ runs step h₀ before = some h ∧ P h c

/-- An `enter_transport` that returns `Ok`. -/
def Enters (h : NoiseHandle H T) (c : FfiCall H T) : Prop :=
  c.entry = .enterTransport ∧ h.returnsOk c

/-- A call that ends the session: one that panicked, or one in which the
library did not receive a message or did not finalize the handshake. -/
def Fatal (h : NoiseHandle H T) (c : FfiCall H T) : Prop :=
  h.ending c = .aborted .panicked
    ∨ (c.entry = .enterTransport ∨ ∃ b, c.entry = .transportDecrypt b)
      ∧ ∃ result, h.ending c = .aborted (.failed result)

theorem happened_concat {P : NoiseHandle H T → FfiCall H T → Prop} (hruns : runs step h₀ cs = some h) :
    Happened P h₀ (cs ++ [c]) ↔ Happened P h₀ cs ∨ P h c := by
  constructor
  · rintro ⟨before, d, after, u, heq, hu, hP⟩
    rcases List.eq_nil_or_concat after with rfl | ⟨after', e, rfl⟩
    · obtain ⟨rfl, hcd⟩ := List.append_inj' heq rfl
      cases hcd
      rw [hruns] at hu
      cases hu
      exact .inr hP
    · rw [List.concat_eq_append, ← List.cons_append, ← List.append_assoc] at heq
      obtain ⟨rfl, -⟩ := List.append_inj' heq rfl
      exact .inl ⟨before, d, after', u, rfl, hu, hP⟩
  · rintro (⟨before, d, after, u, rfl, hu, hP⟩ | hP)
    · exact ⟨before, d, after ++ [c], u, by simp, hu, hP⟩
    · exact ⟨cs, c, [], h, rfl, hruns, hP⟩

/-- Nothing happened before the first call. -/
theorem not_happened_nil {P : NoiseHandle H T → FfiCall H T → Prop} : ¬ Happened P h₀ [] := by
  rintro ⟨before, c, after, h, heq, -, -⟩
  exact List.cons_ne_nil c after (List.append_eq_nil_iff.mp heq.symm).2

/-- `Ok` is returned where nothing aborted the call. -/
theorem returnsOk_iff : h.returnsOk c ↔ h.ending c = .ok := by
  refine ⟨(h.effect c).ok_of_result, fun hok => ?_⟩
  unfold returnsOk
  rw [hok]
  rfl

/-- **What is known of a handle**, from the calls that were made of it. -/
structure Phased (h₀ : NoiseHandle H T) (cs : List (FfiCall H T)) (h : NoiseHandle H T) : Prop where
  transport : ∀ t, h.state = .transport t → Happened Enters h₀ cs
  handshake : ∀ x, h.state = .handshake x → ¬ Happened Enters h₀ cs
  dead : Happened Fatal h₀ cs → h.Dead

theorem Phased.after (hh : Phased h₀ cs h) (hruns : runs step h₀ cs = some h) (c : FfiCall H T) :
    Phased h₀ (cs ++ [c]) (h.after c) := by
  have heffect := h.effect c
  have henters : Enters h c ↔ c.entry = .enterTransport ∧ h.ending c = .ok := by
    unfold Enters
    rw [returnsOk_iff]
  refine ⟨fun t ht => ?_, fun x hx => ?_, fun hfatal => ?_⟩
  · rw [happened_concat hruns]
    rcases heffect.transport_before ht with ⟨t', ht'⟩ | hentered
    · exact .inl (hh.transport t' ht')
    · exact .inr (henters.mpr hentered)
  · obtain ⟨⟨x', hx'⟩, hnot⟩ := heffect.handshake_before hx
    rw [happened_concat hruns, henters]
    rintro (hentered | hentered)
    · exact hh.handshake x' hx' hentered
    · exact hnot hentered
  · rcases (happened_concat hruns).mp hfatal with hfatal | hfatal
    · exact (heffect.dead (hh.dead hfatal)).1
    · rcases hfatal with hpanicked | ⟨hentry, result, hfailed⟩
      · rw [hpanicked] at heffect
        exact heffect.dead_of_panicked
      · rw [hfailed] at heffect
        exact heffect.dead_of_failed hentry

theorem phased_of_runs {x : H} (hnew : h₀.state = .handshake x) (hruns : runs step h₀ cs = some h) :
    Phased h₀ cs h := by
  induction cs using List.reverseRecOn generalizing h with
  | nil =>
    cases hruns
    refine ⟨fun t ht => ?_, fun _ _ => not_happened_nil, fun hfatal => absurd hfatal not_happened_nil⟩
    rw [hnew] at ht
    cases ht
  | append_singleton cs c ih =>
    obtain ⟨u, hu, hstep⟩ := runs_concat.mp hruns
    unfold step at hstep
    split at hstep
    · cases hstep
    · cases hstep
      exact (ih hu).after hu c

theorem state_create {new : Outcome (Except HandshakeError H)} {prologue prologueLen outHandle : UInt64}
    (h : create new prologue prologueLen outHandle = .ok h₀) : ∃ x, h₀.state = .handshake x := by
  unfold create at h
  split at h
  · cases h
  split at h
  · cases h
  split at h
  · cases h
  split at h
  · cases h
  · cases h
  · cases h
    exact ⟨_, rfl⟩

/-- **The handle fails closed and skips no phase**, whatever calls are made
and whatever the library answers. -/
theorem fails_closed {new : Outcome (Except HandshakeError H)}
    {prologue prologueLen outHandle : UInt64}
    (hcreate : create new prologue prologueLen outHandle = .ok h₀)
    (hruns : runs step h₀ cs = some h) (c : FfiCall H T) :
    (c.entry.isTransport = true → h.returnsOk c → Happened Enters h₀ cs)
      ∧ (Enters h c → ¬ Happened Enters h₀ cs
        ∧ ∃ x, h.state = .handshake x ∧ c.library.isFinished x = .returned true)
      ∧ (Happened Fatal h₀ cs → c.entry ≠ .destroy → ¬ h.returnsOk c)
      ∧ (∀ result, h.ending c = .aborted (.refused result) → h.after c = h)
      ∧ (c.entry = .enterTransport →
        (∃ x, h.state = .handshake x ∧ c.library.isFinished x = .returned false)
          ∨ Happened Enters h₀ cs →
        (∃ result, h.ending c = .aborted (.refused result)) ∧ h.after c = h) := by
  obtain ⟨x₀, hx₀⟩ := state_create hcreate
  have hphased := phased_of_runs hx₀ hruns
  have heffect := h.effect c
  have hrefused : ∀ result, h.ending c = .aborted (.refused result) → h.after c = h := by
    intro result heq
    rw [heq] at heffect
    exact heffect.eq_of_refused
  refine ⟨fun hentry hok => ?_, fun henters => ?_, fun hfatal hentry => ?_, hrefused,
    fun hentry hturn => ?_⟩
  · rw [returnsOk_iff.mp hok] at heffect
    obtain ⟨t, ht⟩ := heffect.transport_of_used hentry
    exact hphased.transport t ht
  · rw [returnsOk_iff.mp henters.2, henters.1] at heffect
    obtain ⟨x, hx, hfinished⟩ := heffect.finished_of_entered
    exact ⟨hphased.handshake x hx, x, hx, hfinished⟩
  · rw [returnsOk_iff]
    exact (heffect.dead (hphased.dead hfatal)).2 hentry
  · rw [hentry] at heffect
    obtain ⟨result, heq⟩ := heffect.refused_of_enter (fun x hx => by
      rcases hturn with ⟨x', hx', hfinished⟩ | hentered
      · rw [hx] at hx'
        cases hx'
        exact hfinished
      · exact absurd hentered (hphased.handshake x hx))
    exact ⟨⟨result, heq⟩, hrefused result heq⟩

/-- A library whose handshake has two messages, and that does not receive a
message that was tampered with. -/
def tampered : Clatter ℕ ℕ where
  isFinished n := .returned (decide (2 ≤ n))
  getNextMessageOverhead n := .returned (.ok (if n = 0 then 32 else 48))
  writeMessage n := (.returned (.ok 32), n + 1)
  readMessage n := (.returned (.ok 0), n + 1)
  getHash _ := .returned (List.replicate 32 0)
  finalize _ := .returned (.ok 0)
  getHandshakeHash _ := .returned (List.replicate 32 0)
  send n := (.returned (.ok 20), n + 1)
  receive n := (.returned (.error .cipher), n + 1)
  rekeySender n := (.returned (.ok ()), n)
  rekeyReceiver n := (.returned (.ok ()), n)

/-- A handshake, and a message that is not received. -/
def tamperedCalls : List (FfiCall ℕ ℕ) :=
  [⟨.handshakeWrite ⟨0, 0, 4096, 64, 8192⟩, false, tampered⟩,
    ⟨.handshakeRead ⟨4096, 48, 12288, 64, 8192⟩, false, tampered⟩,
    ⟨.enterTransport, false, tampered⟩,
    ⟨.transportDecrypt ⟨4096, 20, 12288, 64, 8192⟩, false, tampered⟩]

/-- A transport was entered, a message was not received, and nothing is
encrypted any more. -/
theorem fails_closed_tampered :
    ∃ h₀ h, create (.returned (.ok 0)) 0 0 8 = .ok h₀ ∧ runs step h₀ tamperedCalls = some h
      ∧ Happened Enters h₀ tamperedCalls
      ∧ ¬ h.returnsOk ⟨.transportEncrypt ⟨4096, 4, 12288, 64, 8192⟩, false, tampered⟩ := by
  have hruns : runs step (⟨.handshake 0, false, false⟩ : NoiseHandle ℕ ℕ) tamperedCalls
      = some ⟨.failed, false, false⟩ := by decide +kernel
  have hentered : runs step (⟨.handshake 0, false, false⟩ : NoiseHandle ℕ ℕ)
      (tamperedCalls.take 2) = some ⟨.handshake 2, false, false⟩ := by decide +kernel
  have hreceived : runs step (⟨.handshake 0, false, false⟩ : NoiseHandle ℕ ℕ)
      (tamperedCalls.take 3) = some ⟨.transport 0, false, false⟩ := by decide +kernel
  have hcreate : create (.returned (.ok 0)) 0 0 8
      = .ok (⟨.handshake 0, false, false⟩ : NoiseHandle ℕ ℕ) := rfl
  refine ⟨_, _, hcreate, hruns, ⟨_, _, _, _, rfl, hentered, rfl, ?_⟩, ?_⟩
  · show Ending.result _ = .ok
    decide +kernel
  · refine (fails_closed hcreate hruns _).2.2.1 ⟨_, _, _, _, rfl, hreceived, .inr ?_⟩ (by decide)
    exact ⟨.inr ⟨_, rfl⟩, .cryptoError, by decide +kernel⟩

end NoiseHandle

end Gasoline
