import Gasoline.AddressRanges
import Gasoline.NoiseHandle

/-!
# The buffers of a Noise call

Four entry points of `clatter_ffi` read one buffer, write another and store a
length. Each of them is cut in two at the call of the library it is for: what
comes before is its own validation (`Ffi.untilWriteMessage` and its
siblings), and the entry point is that, followed by the call.

The two entry points of the handshake check all three ranges before they
store anything. The two of the transport only check that the length pointer
is not null, store a zero through it, and compare the input and the output
with each other: whether the length word is aligned and apart from the two
is left to the caller. `buffers_disjoint_iff` says exactly for which
arguments that goes well.
-/

namespace Gasoline

variable {H T α β : Type}

/-! ## The three ranges -/

namespace Buffers

variable (b : Buffers)

/-- What is read. -/
def inputRange : AddressRange := ⟨b.input, b.inputLen⟩

/-- What may be written. -/
def outputRange : AddressRange := ⟨b.output, b.outputCapacity⟩

/-- The word the length is stored in. -/
def lengthWord : AddressRange := ⟨b.outputLen, 8⟩

/-- The length word is apart from both buffers. -/
def WordApart : Prop := b.lengthWord.Apart b.inputRange ∧ b.lengthWord.Apart b.outputRange

/-- The length word is one that can be stored to: it is there, it is aligned
and does not wrap around. -/
def WordPlaced : Prop := b.outputLen ≠ 0 ∧ b.outputLen % 8 = 0 ∧ ¬ b.lengthWord.Wraps

/-- **The arguments are in order**: every range is placed, and no two of them
meet. -/
structure Separated : Prop where
  word : b.WordPlaced
  input : b.inputRange.Placed
  output : b.outputRange.Placed
  buffers : b.inputRange.Apart b.outputRange
  wordApart : b.WordApart

instance : Decidable b.WordApart := inferInstanceAs (Decidable (_ ∧ _))

instance : Decidable b.WordPlaced := inferInstanceAs (Decidable (_ ∧ _ ∧ _))

end Buffers

/-! ## The checks, read as facts on ranges -/

theorem checkedAdd_isNone {a n : UInt64} :
    (checkedAdd a n).isNone = true ↔ (⟨a, n⟩ : AddressRange).Wraps := by
  unfold checkedAdd AddressRange.Wraps
  split <;> simp_all

theorem checkedAdd_of_not_wraps {a n : UInt64} (h : ¬ (⟨a, n⟩ : AddressRange).Wraps) :
    checkedAdd a n = some (a + n) := if_pos (by simpa [AddressRange.Wraps] using h)

/-- What `validate_const_buffer` and `validate_mut_buffer` refuse. -/
theorem buffer_refused_iff {data len : UInt64} :
    (len != 0 && (data == 0 || (checkedAdd data len).isNone)) = true
      ↔ ¬ (⟨data, len⟩ : AddressRange).Placed := by
  unfold AddressRange.Placed
  rw [Bool.and_eq_true, Bool.or_eq_true, checkedAdd_isNone, bne_iff_ne, beq_iff_eq]
  tauto

/-- What `validate_output_parameter` refuses, of a length word. -/
theorem outputParameter_refused_iff {b : Buffers} :
    (b.outputLen == 0 || b.outputLen % 8 != 0 || (checkedAdd b.outputLen 8).isNone) = true
      ↔ ¬ b.WordPlaced := by
  unfold Buffers.WordPlaced Buffers.lengthWord
  rw [Bool.or_eq_true, Bool.or_eq_true, checkedAdd_isNone, bne_iff_ne, beq_iff_eq]
  tauto

/-- **`ranges_overlap`**, of ranges that are placed, tells whether they meet. -/
theorem rangesOverlap_eq_false_iff {r s : AddressRange} (hr : r.Placed) (hs : s.Placed) :
    rangesOverlap r.start r.length s.start s.length = false ↔ r.Apart s := by
  unfold rangesOverlap
  by_cases hlen : r.length = 0 ∨ s.length = 0
  · rw [if_pos (by simpa using hlen), AddressRange.apart_iff]
    tauto
  · rw [if_neg (by simpa using hlen)]
    obtain ⟨hrlen, hslen⟩ := not_or.mp hlen
    rw [checkedAdd_of_not_wraps (hr hrlen).2, checkedAdd_of_not_wraps (hs hslen).2,
      AddressRange.apart_iff_of_not_wraps (hr hrlen).2 (hs hslen).2 hrlen hslen]
    simp only [Bool.and_eq_false_iff, decide_eq_false_iff_not]
    tauto

/-! ## The entry points, cut at the call of the library -/

namespace Ffi

variable (lib : Clatter H T) (null : Bool)

/-- `handshake_write`, as far as `write_message`. -/
def untilWriteMessage (b : Buffers) : Ffi H T H := do
  validateHandshakeBuffers b
  handleRef null
  lock
  let handshake ← theHandshake
  let overhead ← mapErr mapHandshakeError (← ask (lib.getNextMessageOverhead handshake))
  match checkedAdd b.inputLen overhead with
  | none => refuse .oversized
  | some required =>
    refuseIf (decide (maxMessage < required)) .oversized
    refuseIf (decide (b.outputCapacity < required)) .bufferTooSmall
    checkedConstSlice b.input b.inputLen
    checkedMutSlice b.output b.outputCapacity
    return handshake

/-- `handshake_read`, as far as `read_message`. -/
def untilReadMessage (b : Buffers) : Ffi H T H := do
  validateHandshakeBuffers b
  handleRef null
  lock
  let handshake ← theHandshake
  let overhead ← mapErr mapHandshakeError (← ask (lib.getNextMessageOverhead handshake))
  refuseIf (decide (b.inputLen < overhead)) .cryptoError
  refuseIf (decide (b.outputCapacity < b.inputLen - overhead)) .bufferTooSmall
  checkedConstSlice b.input b.inputLen
  checkedMutSlice b.output b.outputCapacity
  return handshake

/-- What `transport_encrypt` and `transport_decrypt` check behind the
sizes. -/
def admission (b : Buffers) : Ffi H T T := do
  refuseIf (rangesOverlap b.input b.inputLen b.output b.outputCapacity) .invalidArgument
  checkedConstSlice b.input b.inputLen
  checkedMutSlice b.output b.outputCapacity
  handleRef null
  lock
  theTransport

/-- `transport_encrypt`, as far as `send`. -/
def untilSend (b : Buffers) : Ffi H T T := do
  refuseIf (b.outputLen == 0) .invalidArgument
  store (.length 0)
  refuseIf (decide (maxPlaintext < b.inputLen) || decide (maxMessage < b.outputCapacity)) .oversized
  refuseIf (decide (b.outputCapacity < b.inputLen + tagSize)) .bufferTooSmall
  admission null b

/-- `transport_decrypt`, as far as `receive`. -/
def untilReceive (b : Buffers) : Ffi H T T := do
  refuseIf (b.outputLen == 0) .invalidArgument
  store (.length 0)
  refuseIf (decide (maxMessage < b.inputLen) || decide (maxPlaintext < b.outputCapacity)) .oversized
  refuseIf (decide (b.inputLen < tagSize)) .invalidArgument
  refuseIf (decide (b.outputCapacity < b.inputLen - tagSize)) .bufferTooSmall
  admission null b

/-- The call of the library in a handshake, and what is left after it. -/
def exchange (answer : H → Outcome (Except HandshakeError UInt64) × H) (handshake : H) :
    Ffi H T Unit := do
  setState (.handshake (answer handshake).2)
  let written ← mapErr mapHandshakeError (← ask (answer handshake).1)
  store (.length written)

/-- `send`, and what is left of `transport_encrypt` after it. -/
def encrypt (transport : T) : Ffi H T Unit := do
  setState (.transport (lib.send transport).2)
  let written ← mapErr mapTransportError (← ask (lib.send transport).1)
  store (.length written)

/-- `receive`, and what is left of `transport_decrypt` after it. -/
def decrypt (transport : T) : Ffi H T Unit := do
  setState (.transport (lib.receive transport).2)
  match ← ask (lib.receive transport).1 with
  | .ok written => store (.length written)
  | .error error =>
    setState .failed
    throw (.failed (mapTransportError error))

theorem handshakeWrite_eq (b : Buffers) :
    handshakeWrite lib null b = untilWriteMessage lib null b >>= exchange lib.writeMessage := by
  unfold handshakeWrite untilWriteMessage exchange
  simp only [bind_assoc]
  refine bind_congr (fun _ => bind_congr (fun _ => bind_congr (fun _ => bind_congr
    (fun handshake => bind_congr (fun _ => bind_congr (fun overhead => ?_))))))
  cases checkedAdd b.inputLen overhead with
  | none => rfl
  | some required => simp only [bind_assoc, pure_bind]

theorem handshakeRead_eq (b : Buffers) :
    handshakeRead lib null b = untilReadMessage lib null b >>= exchange lib.readMessage := by
  unfold handshakeRead untilReadMessage exchange
  simp only [bind_assoc, pure_bind]

theorem transportEncrypt_eq (b : Buffers) :
    transportEncrypt lib null b = untilSend null b >>= encrypt lib := by
  unfold transportEncrypt untilSend admission encrypt
  simp only [bind_assoc]

theorem transportDecrypt_eq (b : Buffers) :
    transportDecrypt lib null b = untilReceive null b >>= decrypt lib := by
  symm
  unfold untilReceive admission
  simp only [bind_assoc]
  rfl

end Ffi

/-! ## What a call has to get past -/

/-- A program returns. -/
def Ffi.ReturnsAt (x : Ffi H T α) (f : Frame H T) : Prop := ∃ a g, x.run f = .ok a g

section ReturnsAt

variable {f : Frame H T} {k : Unit → Ffi H T α} {result : NoiseResult}

theorem returnsAt_refuseIf_bind {c : Bool} :
    Ffi.ReturnsAt (Ffi.refuseIf c result >>= k) f ↔ c = false ∧ Ffi.ReturnsAt (k ()) f := by
  cases c with
  | false =>
    show Ffi.ReturnsAt (k ()) f ↔ _
    simp only [true_and]
  | true =>
    refine ⟨fun h => ?_, fun h => (by cases h.1)⟩
    obtain ⟨a, g, h⟩ := h
    cases h

theorem returnsAt_store_bind {v : Stored} :
    Ffi.ReturnsAt (Ffi.store v >>= k) f ↔ Ffi.ReturnsAt (k ()) { f with stored := some v } :=
  Iff.rfl

theorem returnsAt_lock_bind : Ffi.ReturnsAt (Ffi.lock >>= k) f
    ↔ f.handle.poisoned = false ∧ Ffi.ReturnsAt (k ()) { f with locked := true } := by
  unfold Ffi.lock
  rw [bind_assoc]
  show Ffi.ReturnsAt ((Ffi.refuseIf f.handle.poisoned .internalError >>= fun _ => _) >>= k) f ↔ _
  rw [bind_assoc, returnsAt_refuseIf_bind]
  exact Iff.rfl

theorem returnsAt_getState_bind {k : SessionState H T → Ffi H T α} :
    Ffi.ReturnsAt (Ffi.getState >>= k) f ↔ Ffi.ReturnsAt (k f.handle.state) f := Iff.rfl

theorem returnsAt_theTransport :
    Ffi.ReturnsAt (Ffi.theTransport : Ffi H T T) f ↔ ∃ t, f.handle.state = .transport t := by
  unfold Ffi.theTransport
  rw [returnsAt_getState_bind]
  cases f.handle.state with
  | transport t => exact ⟨fun _ => ⟨t, rfl⟩, fun _ => ⟨t, f, rfl⟩⟩
  | handshake x | failed =>
    constructor
    · rintro ⟨a, g, h⟩
      cases h
    · rintro ⟨t, h⟩
      cases h

end ReturnsAt

/-- An empty buffer passes the check anyway. -/
theorem checkedSlice_eq (data len : UInt64) :
    (if len == 0 then pure () else Ffi.validateBuffer data len : Ffi H T Unit)
      = Ffi.refuseIf (len != 0 && (data == 0 || (checkedAdd data len).isNone)) .invalidArgument := by
  split
  · rename_i hlen
    rw [beq_iff_eq.mp hlen]
    rfl
  · rfl

/-- The sizes `transport_encrypt` takes. -/
def Buffers.EncryptSizes (b : Buffers) : Prop :=
  b.inputLen ≤ maxPlaintext ∧ b.outputCapacity ≤ maxMessage
    ∧ b.inputLen + tagSize ≤ b.outputCapacity

/-- The sizes `transport_decrypt` takes. -/
def Buffers.DecryptSizes (b : Buffers) : Prop :=
  b.inputLen ≤ maxMessage ∧ b.outputCapacity ≤ maxPlaintext ∧ tagSize ≤ b.inputLen
    ∧ b.inputLen - tagSize ≤ b.outputCapacity

/-- What both ask for besides: two buffers that are there and apart, and a
live handle that holds a transport. -/
structure Admitted (null : Bool) (h : NoiseHandle H T) (b : Buffers) : Prop where
  input : b.inputRange.Placed
  output : b.outputRange.Placed
  buffers : b.inputRange.Apart b.outputRange
  handle : null = false
  live : h.poisoned = false
  transport : ∃ t, h.state = .transport t

theorem admission_returnsAt {null : Bool} {b : Buffers} {f : Frame H T} :
    Ffi.ReturnsAt (Ffi.admission null b) f ↔ Admitted null f.handle b := by
  unfold Ffi.admission Ffi.checkedConstSlice Ffi.checkedMutSlice Ffi.validateConstBuffer
    Ffi.validateMutBuffer Ffi.handleRef
  simp only [checkedSlice_eq, returnsAt_refuseIf_bind, returnsAt_lock_bind, returnsAt_theTransport,
    ← Bool.not_eq_true, buffer_refused_iff, not_not]
  constructor
  · rintro ⟨hapart, hinput, houtput, hnull, hlive, htransport⟩
    refine ⟨hinput, houtput, ?_, by simpa using hnull, by simpa using hlive, htransport⟩
    exact (rangesOverlap_eq_false_iff hinput houtput).mp (by simpa using hapart)
  · rintro ⟨hinput, houtput, hapart, hnull, hlive, htransport⟩
    refine ⟨?_, hinput, houtput, by simpa using hnull, by simpa using hlive, htransport⟩
    rw [Bool.not_eq_true]
    exact (rangesOverlap_eq_false_iff hinput houtput).mpr hapart

theorem untilSend_returnsAt {null : Bool} {b : Buffers} {f : Frame H T} :
    Ffi.ReturnsAt (Ffi.untilSend null b) f
      ↔ b.outputLen ≠ 0 ∧ b.EncryptSizes ∧ Admitted null f.handle b := by
  unfold Ffi.untilSend Buffers.EncryptSizes
  rw [returnsAt_refuseIf_bind, returnsAt_store_bind, returnsAt_refuseIf_bind,
    returnsAt_refuseIf_bind, admission_returnsAt]
  simp only [Bool.or_eq_false_iff, decide_eq_false_iff_not, UInt64.not_lt, beq_eq_false_iff_ne,
    and_assoc]

theorem untilReceive_returnsAt {null : Bool} {b : Buffers} {f : Frame H T} :
    Ffi.ReturnsAt (Ffi.untilReceive null b) f
      ↔ b.outputLen ≠ 0 ∧ b.DecryptSizes ∧ Admitted null f.handle b := by
  unfold Ffi.untilReceive Buffers.DecryptSizes
  rw [returnsAt_refuseIf_bind, returnsAt_store_bind, returnsAt_refuseIf_bind,
    returnsAt_refuseIf_bind, returnsAt_refuseIf_bind, admission_returnsAt]
  simp only [Bool.or_eq_false_iff, decide_eq_false_iff_not, UInt64.not_lt, beq_eq_false_iff_ne,
    and_assoc]

/-! ## The calls -/

/-- What a call stored through its output parameter. -/
def NoiseHandle.stored (h : NoiseHandle H T) (c : FfiCall H T) : Option Stored :=
  (h.guard (c.entry.body c.library c.null)).2.2

/-- The entry points that read one buffer and write another. -/
inductive Coder
  | handshakeWrite
  | handshakeRead
  | transportEncrypt
  | transportDecrypt
  deriving DecidableEq, Repr

namespace Coder

variable (lib : Clatter H T) (null : Bool) (h : NoiseHandle H T) (b : Buffers)

/-- The call with these arguments. -/
def call (coder : Coder) : FfiCall H T :=
  { entry := match coder with
      | .handshakeWrite => .handshakeWrite b
      | .handshakeRead => .handshakeRead b
      | .transportEncrypt => .transportEncrypt b
      | .transportDecrypt => .transportDecrypt b
    null := null
    library := lib }

/-- **The call gets past its own validation**, to the operation of the
library. -/
def Reaches : Coder → Prop
  | .handshakeWrite => Ffi.ReturnsAt (Ffi.untilWriteMessage lib null b) ⟨h, false, none⟩
  | .handshakeRead => Ffi.ReturnsAt (Ffi.untilReadMessage lib null b) ⟨h, false, none⟩
  | .transportEncrypt => Ffi.ReturnsAt (Ffi.untilSend null b) ⟨h, false, none⟩
  | .transportDecrypt => Ffi.ReturnsAt (Ffi.untilReceive null b) ⟨h, false, none⟩

/-- **What the buffers of a call are meant to be**: where cryptography runs
the arguments are in order, and a call that ended early stored no length over
a buffer. -/
structure Disjoint (coder : Coder) : Prop where
  reached : coder.Reaches lib null h b → b.Separated
  refused : h.ending (coder.call lib null b) ≠ .ok →
    (h.stored (coder.call lib null b)).isSome → b.WordApart

/-- **What is left to the caller**: nothing in the handshake; in the
transport, where the length pointer is not null, that the length word is
apart from the buffers, and that it is one, if nothing else is wrong with the
call. -/
def LeftToCaller : Coder → Prop
  | .handshakeWrite => True
  | .handshakeRead => True
  | .transportEncrypt => b.outputLen = 0
      ∨ b.WordApart ∧ (b.EncryptSizes ∧ Admitted null h b → b.WordPlaced)
  | .transportDecrypt => b.outputLen = 0
      ∨ b.WordApart ∧ (b.DecryptSizes ∧ Admitted null h b → b.WordPlaced)

end Coder

/-! ## Stores -/

section Stores

variable {f : Frame H T} {Q : Except Abort α → Frame H T → Prop}

theorem before_of_forall {x : Ffi H T α} (h : ∀ r g, Q r g) : Before x Q f := by
  unfold Before
  split
  · exact h _ _
  · exact h _ _

theorem before_refuseIf_bind {c : Bool} {result : NoiseResult} {k : Unit → Ffi H T α}
    (hrefused : c = true → Q (.error (.refused result)) f)
    (hk : c = false → Before (k ()) Q f) : Before (Ffi.refuseIf c result >>= k) Q f := by
  cases c with
  | true => exact hrefused rfl
  | false => exact hk rfl

/-- **What was stored stays stored**, and something was. -/
def Ffi.KeepsStored (x : Ffi H T α) : Prop :=
  ∀ f, f.stored.isSome → Before x (fun _ g => g.stored.isSome) f

namespace Ffi.KeepsStored

theorem bind {x : Ffi H T α} {k : α → Ffi H T β} (hx : x.KeepsStored)
    (hk : ∀ a, (k a).KeepsStored) : (x >>= k).KeepsStored := by
  intro f hf
  rw [before_bind]
  refine (hx f hf).mono (fun r g hg => ?_)
  cases r with
  | ok a => exact hk a g hg
  | error e => exact hg

theorem refuseIf (c : Bool) (result : NoiseResult) :
    (Ffi.refuseIf c result : Ffi H T Unit).KeepsStored := by
  intro f hf
  cases c with
  | true => exact hf
  | false => exact hf

theorem store (v : Stored) : (Ffi.store v : Ffi H T Unit).KeepsStored := fun _ _ => rfl

theorem setState (s : SessionState H T) : (Ffi.setState s).KeepsStored := fun _ hf => hf

theorem throw (e : Abort) : (MonadExcept.throw e : Ffi H T α).KeepsStored := fun _ hf => hf

theorem ask (o : Outcome α) : (Ffi.ask o : Ffi H T α).KeepsStored := by
  intro f hf
  cases o with
  | returned a => exact hf
  | panicked => exact hf

theorem mapErr {E : Type} (m : E → NoiseResult) (o : Except E α) :
    (Ffi.mapErr m o : Ffi H T α).KeepsStored := by
  intro f hf
  cases o with
  | ok a => exact hf
  | error e => exact hf

theorem lock : (Ffi.lock : Ffi H T Unit).KeepsStored := by
  intro f hf
  unfold Ffi.lock
  rw [before_bind, before_get]
  exact before_refuseIf_bind (fun _ => hf) (fun _ => hf)

theorem theTransport : (Ffi.theTransport : Ffi H T T).KeepsStored := by
  intro f hf
  unfold Ffi.theTransport Ffi.getState
  rw [bind_assoc, before_bind, before_get]
  show Before (pure f.handle.state >>= _) _ f
  rw [pure_bind]
  cases f.handle.state with
  | handshake x => exact hf
  | transport t => exact hf
  | failed => exact hf

theorem checkedSlice (data len : UInt64) :
    (if len == 0 then pure () else Ffi.validateBuffer data len : Ffi H T Unit).KeepsStored := by
  rw [checkedSlice_eq]
  exact refuseIf _ _

theorem admission (null : Bool) (b : Buffers) : (Ffi.admission null b : Ffi H T T).KeepsStored :=
  (refuseIf _ _).bind fun _ => (checkedSlice _ _).bind fun _ => (checkedSlice _ _).bind fun _ =>
    (refuseIf _ _).bind fun _ => lock.bind fun _ => theTransport

end Ffi.KeepsStored

end Stores

/-! ## The handshake checks first -/

section Handshake

variable {lib : Clatter H T} {null : Bool} {b : Buffers} {f : Frame H T}

/-- **The arguments of a handshake call are in order** as soon as anything is
stored, and where the checks are passed. -/
theorem validateHandshakeBuffers_separated (hf : f.stored = none) :
    Before (Ffi.validateHandshakeBuffers b)
      (fun r g => g.stored.isSome ∨ r = .ok () → b.Separated) f := by
  have hnothing : ∀ {why : Abort}, f.stored.isSome ∨ (.error why : Except Abort Unit) = .ok () →
      b.Separated := by
    intro why h
    simp [hf] at h
  unfold Ffi.validateHandshakeBuffers Ffi.validateOutputParameter Ffi.validateConstBuffer
    Ffi.validateMutBuffer Ffi.validateBuffer
  refine before_refuseIf_bind (fun _ => hnothing) (fun hword => ?_)
  refine before_refuseIf_bind (fun _ => hnothing) (fun hinput => ?_)
  refine before_refuseIf_bind (fun _ => hnothing) (fun houtput => ?_)
  refine before_refuseIf_bind (fun _ => hnothing) (fun hoverlap => ?_)
  rw [← Bool.not_eq_true, outputParameter_refused_iff, not_not] at hword
  rw [← Bool.not_eq_true, buffer_refused_iff, not_not] at hinput houtput
  simp only [Bool.or_eq_false_iff] at hoverlap
  have hplaced : b.lengthWord.Placed := fun _ => ⟨hword.1, hword.2.2⟩
  have hsep : b.Separated :=
    { word := hword
      input := hinput
      output := houtput
      buffers := (rangesOverlap_eq_false_iff hinput houtput).mp hoverlap.1.1
      wordApart :=
        ⟨((rangesOverlap_eq_false_iff hinput hplaced).mp hoverlap.1.2).symm,
          ((rangesOverlap_eq_false_iff houtput hplaced).mp hoverlap.2).symm⟩ }
  exact before_of_forall (fun _ _ _ => hsep)

/-- So it is with all that comes behind the checks. -/
theorem before_validateHandshakeBuffers_bind {k : Unit → Ffi H T α} (hf : f.stored = none) :
    Before (Ffi.validateHandshakeBuffers b >>= k)
      (fun r g => g.stored.isSome ∨ (∃ a, r = .ok a) → b.Separated) f := by
  rw [before_bind]
  refine (validateHandshakeBuffers_separated hf).mono (fun r g hg => ?_)
  cases r with
  | error why =>
    rintro (hstored | ⟨a, ha⟩)
    · exact hg (.inl hstored)
    · cases ha
  | ok u => exact before_of_forall (fun _ _ _ => hg (.inr rfl))

end Handshake

/-! ## Calls as wholes -/

section Calls

variable {h : NoiseHandle H T} {c : FfiCall H T}

theorem ending_eq_ok_iff :
    h.ending c = .ok ↔ Ffi.ReturnsAt (c.entry.body c.library c.null) ⟨h, false, none⟩ := by
  unfold NoiseHandle.ending NoiseHandle.guard Ffi.ReturnsAt
  cases hrun : (c.entry.body c.library c.null).run ⟨h, false, none⟩ with
  | ok a g => exact ⟨fun _ => ⟨a, g, rfl⟩, fun _ => rfl⟩
  | error why g => exact ⟨fun h => (by cases h), fun ⟨_, _, h⟩ => (by cases h)⟩

theorem stored_of_before {P : Option Stored → Prop}
    (hbody : Before (c.entry.body c.library c.null) (fun _ g => P g.stored) ⟨h, false, none⟩) :
    P (h.stored c) := by
  unfold Before at hbody
  unfold NoiseHandle.stored NoiseHandle.guard
  split at hbody
  · rename_i hrun
    rw [hrun]
    exact hbody
  · rename_i hrun
    rw [hrun]
    exact hbody

end Calls

theorem Ffi.ReturnsAt.left {x : Ffi H T α} {k : α → Ffi H T β} {f : Frame H T}
    (h : Ffi.ReturnsAt (x >>= k) f) : Ffi.ReturnsAt x f := by
  obtain ⟨a, g, hrun⟩ := h
  change EStateM.bind x k f = _ at hrun
  unfold EStateM.bind at hrun
  cases hx : x f with
  | ok a' g' => exact ⟨a', g', hx⟩
  | error e g' =>
    rw [hx] at hrun
    cases hrun

theorem of_returnsAt {x : Ffi H T α} {f : Frame H T} {P : Prop}
    (hx : Before x (fun r g => g.stored.isSome ∨ (∃ a, r = .ok a) → P) f)
    (h : Ffi.ReturnsAt x f) : P := by
  obtain ⟨a, g, hrun⟩ := h
  unfold Before at hx
  rw [hrun] at hx
  exact hx (.inr ⟨a, rfl⟩)

/-! ## Where the buffers are disjoint -/

section Coders

variable (lib : Clatter H T) (null : Bool) (h : NoiseHandle H T) (b : Buffers)

/-- **A handshake call** needs nothing from its caller. -/
theorem disjoint_of_handshake {coder : Coder} {x : Ffi H T H} {k : Unit → Ffi H T H}
    {k' : H → Ffi H T Unit} (hx : x = Ffi.validateHandshakeBuffers b >>= k)
    (hreaches : coder.Reaches lib null h b ↔ Ffi.ReturnsAt x ⟨h, false, none⟩)
    (hbody : (coder.call lib null b).entry.body lib null = x >>= k') :
    coder.Disjoint lib null h b where
  reached hreached := by
    rw [hreaches, hx] at hreached
    exact of_returnsAt (before_validateHandshakeBuffers_bind rfl) hreached
  refused _ hstored := by
    refine Buffers.Separated.wordApart ?_
    revert hstored
    refine stored_of_before (P := fun o => o.isSome → b.Separated) ?_
    show Before ((coder.call lib null b).entry.body lib null) _ _
    rw [hbody, hx, bind_assoc]
    exact (before_validateHandshakeBuffers_bind rfl).mono (fun _ _ hg hs => hg (.inl hs))

/-- **A transport call**, from what its validation lets through. It has
stored a length by then, over whatever was there. -/
theorem disjoint_iff_of_transport {coder : Coder} {x : Ffi H T T} {k : Unit → Ffi H T T}
    {k' : T → Ffi H T Unit} {sizes : Prop}
    (hx : x = Ffi.refuseIf (b.outputLen == 0) .invalidArgument >>= fun _ =>
      Ffi.store (.length 0) >>= k)
    (hreaches : coder.Reaches lib null h b ↔ Ffi.ReturnsAt x ⟨h, false, none⟩)
    (hbody : (coder.call lib null b).entry.body lib null = x >>= k')
    (hreturns : Ffi.ReturnsAt x ⟨h, false, none⟩ ↔ b.outputLen ≠ 0 ∧ sizes ∧ Admitted null h b)
    (hkeeps : (k ()).KeepsStored) (hkeeps' : ∀ t, (k' t).KeepsStored) :
    coder.Disjoint lib null h b
      ↔ b.outputLen = 0 ∨ b.WordApart ∧ (sizes ∧ Admitted null h b → b.WordPlaced) := by
  have hstored : b.outputLen ≠ 0 → (h.stored (coder.call lib null b)).isSome := by
    intro hlen
    refine stored_of_before (P := fun o => o.isSome) ?_
    show Before ((coder.call lib null b).entry.body lib null) _ _
    rw [hbody, hx, bind_assoc]
    refine before_refuseIf_bind (fun h => absurd (by simpa using h) hlen) (fun _ => ?_)
    rw [bind_assoc]
    exact (hkeeps.bind hkeeps') _ rfl
  constructor
  · intro hd
    by_cases hlen : b.outputLen = 0
    · exact .inl hlen
    have hreached : sizes ∧ Admitted null h b → b.Separated := fun ha =>
      hd.reached (hreaches.mpr (hreturns.mpr ⟨hlen, ha⟩))
    refine .inr ⟨?_, fun ha => (hreached ha).word⟩
    by_cases hending : h.ending (coder.call lib null b) = .ok
    · rw [ending_eq_ok_iff] at hending
      change Ffi.ReturnsAt ((coder.call lib null b).entry.body lib null) _ at hending
      rw [hbody] at hending
      exact (hreached (hreturns.mp hending.left).2).wordApart
    · exact hd.refused hending (hstored hlen)
  · intro hc
    refine ⟨fun hreached => ?_, fun _ hs => ?_⟩
    · obtain ⟨hlen, ha⟩ := hreturns.mp (hreaches.mp hreached)
      obtain ⟨hapart, hword⟩ := hc.resolve_left hlen
      exact ⟨hword ha, ha.2.input, ha.2.output, ha.2.buffers, hapart⟩
    · rcases hc with hlen | ⟨hapart, -⟩
      · exfalso
        revert hs
        refine stored_of_before (P := fun o => o.isSome → False) ?_
        show Before ((coder.call lib null b).entry.body lib null) _ _
        rw [hbody, hx, bind_assoc, hlen]
        exact before_refuseIf_bind (fun _ h => (by cases h)) (fun h => (by cases h))
      · exact hapart

theorem encrypt_keepsStored (transport : T) : (Ffi.encrypt lib transport).KeepsStored :=
  (Ffi.KeepsStored.setState _).bind fun _ => (Ffi.KeepsStored.ask _).bind fun _ =>
    (Ffi.KeepsStored.mapErr _ _).bind fun _ => .store _

theorem decrypt_keepsStored (transport : T) : (Ffi.decrypt lib transport).KeepsStored := by
  refine (Ffi.KeepsStored.setState _).bind (fun _ => (Ffi.KeepsStored.ask _).bind (fun o => ?_))
  cases o with
  | ok written => exact .store _
  | error error => exact (Ffi.KeepsStored.setState _).bind (fun _ => .throw _)

theorem transportEncrypt_disjoint_iff : Coder.transportEncrypt.Disjoint lib null h b
    ↔ b.outputLen = 0 ∨ b.WordApart ∧ (b.EncryptSizes ∧ Admitted null h b → b.WordPlaced) := by
  refine disjoint_iff_of_transport lib null h b rfl Iff.rfl (Ffi.transportEncrypt_eq lib null b)
    untilSend_returnsAt ?_ (encrypt_keepsStored lib)
  exact (Ffi.KeepsStored.refuseIf _ _).bind fun _ => (Ffi.KeepsStored.refuseIf _ _).bind fun _ =>
    Ffi.KeepsStored.admission null b

theorem transportDecrypt_disjoint_iff : Coder.transportDecrypt.Disjoint lib null h b
    ↔ b.outputLen = 0 ∨ b.WordApart ∧ (b.DecryptSizes ∧ Admitted null h b → b.WordPlaced) := by
  refine disjoint_iff_of_transport lib null h b rfl Iff.rfl (Ffi.transportDecrypt_eq lib null b)
    untilReceive_returnsAt ?_ (decrypt_keepsStored lib)
  exact (Ffi.KeepsStored.refuseIf _ _).bind fun _ => (Ffi.KeepsStored.refuseIf _ _).bind fun _ =>
    (Ffi.KeepsStored.refuseIf _ _).bind fun _ => Ffi.KeepsStored.admission null b

/-- **When the buffers of a call are disjoint.** Whatever the addresses, the
lengths, the handle and the answers of the library: the two entry points of
the handshake let no arguments through that are not in order, and store
nothing before they know. Of the two of the transport that is so exactly when
the length pointer is null, or the length word is apart from both buffers
and, where nothing else is wrong with the call, aligned and within the
address space. -/
theorem buffers_disjoint_iff (coder : Coder) :
    coder.Disjoint lib null h b ↔ coder.LeftToCaller null h b := by
  cases coder with
  | handshakeWrite =>
    refine iff_of_true ?_ trivial
    exact disjoint_of_handshake lib null h b rfl Iff.rfl (Ffi.handshakeWrite_eq lib null b)
  | handshakeRead =>
    refine iff_of_true ?_ trivial
    exact disjoint_of_handshake lib null h b rfl Iff.rfl (Ffi.handshakeRead_eq lib null b)
  | transportEncrypt => exact transportEncrypt_disjoint_iff lib null h b
  | transportDecrypt => exact transportDecrypt_disjoint_iff lib null h b

end Coders

/-- Eight bytes at `0x1000`, to be encrypted to `0x2000`, with the length
stored over the beginning of the output. -/
def wordInOutput : Buffers := ⟨0x1000, 8, 0x2000, 24, 0x2000⟩

/-- A handle in its transport. -/
def openHandle : NoiseHandle Unit Unit := ⟨.transport (), false, false⟩

/-- A library that answers every message of the transport. -/
def answering : Clatter Unit Unit where
  isFinished _ := .returned true
  getNextMessageOverhead _ := .returned (.error .invalidState)
  writeMessage _ := (.returned (.error .invalidState), ())
  readMessage _ := (.returned (.error .invalidState), ())
  getHash _ := .returned []
  finalize _ := .returned (.error .invalidState)
  getHandshakeHash _ := .returned (List.replicate 32 0)
  send _ := (.returned (.ok 24), ())
  receive _ := (.returned (.ok 8), ())
  rekeySender _ := (.returned (.ok ()), ())
  rekeyReceiver _ := (.returned (.ok ()), ())

/-- **A length word in the output** does not keep `transport_encrypt` from
encrypting, though it keeps `handshake_write` from writing. -/
theorem length_word_in_output :
    Coder.transportEncrypt.Reaches answering false openHandle wordInOutput
      ∧ ¬ wordInOutput.lengthWord.Apart wordInOutput.outputRange
      ∧ ¬ Coder.transportEncrypt.Disjoint answering false openHandle wordInOutput := by
  have hmeet : ¬ wordInOutput.lengthWord.Apart wordInOutput.outputRange := by decide
  refine ⟨⟨(), ⟨openHandle, true, some (.length 0)⟩, rfl⟩, hmeet, fun hd => ?_⟩
  rcases (transportEncrypt_disjoint_iff _ _ _ _).mp hd with hlen | ⟨hapart, -⟩
  · exact absurd hlen (by decide)
  · exact hmeet hapart.2

end Gasoline
