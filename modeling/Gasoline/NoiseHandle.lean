import Gasoline.Runs
import Gasoline.Bytes
import Gasoline.FailingPrograms

/-!
# The Noise handle

`clatter_ffi` puts the Noise library behind a C interface. A handle holds a
mutex over the session: a handshake, a transport, or nothing any more. Each
entry point checks its arguments, takes the mutex, and asks the library; it
returns early with a code, and a panic of the library is caught.

The library is an oracle. A call of an entry point brings the answers the
library gives while it runs (`Clatter`), any answer at all, and what an
answer leaves of the handshake or the transport is part of it. The types of
both are parameters. Memory is not modelled, only the addresses and lengths
that are checked, and what is stored through an output parameter.

A body is a program on a `Frame`, which keeps what it did to the handle
where it fails. Why it failed is kept with the code (`Abort`): whether a
check of the wrapper refused, or the library did.
-/

namespace Gasoline

/-- `gasoline_noise_result`. -/
inductive NoiseResult
  | ok
  | invalidArgument
  | invalidState
  | bufferTooSmall
  | oversized
  | cryptoError
  | panic
  | internalError
  deriving DecidableEq, Repr

/-- `HandshakeError`, as far as it is told apart. -/
inductive HandshakeError
  | invalidState
  | errorState
  | bufferTooSmall
  | invalidMessage
  | other
  deriving DecidableEq, Repr

/-- `TransportError`. -/
inductive TransportError
  | bufferTooSmall
  | tooShort
  | oneWayViolation
  | cipher
  deriving DecidableEq, Repr

/-- `map_handshake_error`. -/
def mapHandshakeError : HandshakeError → NoiseResult
  | .invalidState => .invalidState
  | .errorState => .invalidState
  | .bufferTooSmall => .bufferTooSmall
  | .invalidMessage => .cryptoError
  | .other => .cryptoError

/-- `map_transport_error`. -/
def mapTransportError : TransportError → NoiseResult
  | .bufferTooSmall => .bufferTooSmall
  | .tooShort => .invalidArgument
  | .oneWayViolation => .invalidState
  | .cipher => .cryptoError

/-! ## The library -/

/-- How a function of the library ends. -/
inductive Outcome (α : Type)
  | returned (a : α)
  | panicked
  deriving DecidableEq, Repr

/-- **What the library answers** during one call. A function that takes the
handshake or the transport by mutable reference leaves another one, whatever
it answers. The arguments of a function are those of the call. -/
structure Clatter (H T : Type) where
  isFinished : H → Outcome Bool
  getNextMessageOverhead : H → Outcome (Except HandshakeError UInt64)
  writeMessage : H → Outcome (Except HandshakeError UInt64) × H
  readMessage : H → Outcome (Except HandshakeError UInt64) × H
  /-- `get_state().get_hash()`. -/
  getHash : H → Outcome Bytes
  finalize : H → Outcome (Except HandshakeError T)
  getHandshakeHash : T → Outcome Bytes
  send : T → Outcome (Except TransportError UInt64) × T
  receive : T → Outcome (Except TransportError UInt64) × T
  rekeySender : T → Outcome (Except TransportError Unit) × T
  rekeyReceiver : T → Outcome (Except TransportError Unit) × T

/-! ## Handles -/

/-- `SessionState`. -/
inductive SessionState (H T : Type)
  | handshake (h : H)
  | transport (t : T)
  | failed
  deriving DecidableEq, Repr

/-- `gasoline_noise_handle`: the mutex and what it guards. -/
structure NoiseHandle (H T : Type) where
  state : SessionState H T
  /-- A thread panicked while it held the mutex. -/
  poisoned : Bool
  /-- The handle was destroyed, and must not be used any more. -/
  destroyed : Bool
  deriving DecidableEq, Repr

/-- Why a body ends early. -/
inductive Abort
  /-- A check of the wrapper itself. -/
  | refused (result : NoiseResult)
  /-- An error of the library. -/
  | failed (result : NoiseResult)
  | panicked
  deriving DecidableEq, Repr

/-- What is stored through an output parameter. -/
inductive Stored
  | length (n : UInt64)
  | flag (b : Bool)
  | hash (bytes : Bytes)
  deriving DecidableEq, Repr

/-- **What a body works on.** -/
structure Frame (H T : Type) where
  handle : NoiseHandle H T
  /-- The mutex is held, until the body ends. -/
  locked : Bool
  /-- What was last stored through the output parameter. -/
  stored : Option Stored

/-- A body. -/
abbrev Ffi (H T α : Type) := EStateM Abort (Frame H T) α

variable {H T α : Type}

namespace Ffi

/-- `return Err(result)`, of the wrapper's own. -/
def refuse (result : NoiseResult) : Ffi H T α := throw (.refused result)

/-- A check that refuses. -/
def refuseIf (c : Bool) (result : NoiseResult) : Ffi H T Unit :=
  if c then refuse result else pure ()

/-- The library is asked. -/
def ask : Outcome α → Ffi H T α
  | .returned a => pure a
  | .panicked => throw .panicked

/-- `map_err(f)?`. -/
def mapErr {E : Type} (f : E → NoiseResult) : Except E α → Ffi H T α
  | .ok a => pure a
  | .error e => throw (.failed (f e))

/-- A store through the output parameter. -/
def store (v : Stored) : Ffi H T Unit := modify (fun f => { f with stored := some v })

/-- The guarded state. -/
def getState : Ffi H T (SessionState H T) := do return (← get).handle.state

/-- The guarded state is written. -/
def setState (s : SessionState H T) : Ffi H T Unit :=
  modify (fun f => { f with handle := { f.handle with state := s } })

/-- `state.lock()`: a poisoned mutex is not entered. -/
def lock : Ffi H T Unit := do
  refuseIf (← get).handle.poisoned .internalError
  modify (fun f => { f with locked := true })

/-- `let SessionState::Handshake(handshake) = &mut *state else`. -/
def theHandshake : Ffi H T H := do
  match ← getState with
  | .handshake h => return h
  | _ => refuse .invalidState

/-- `let SessionState::Transport(transport) = &mut *state else`. -/
def theTransport : Ffi H T T := do
  match ← getState with
  | .transport t => return t
  | _ => refuse .invalidState

end Ffi

/-! ## Argument checks -/

/-- `MAX_MESSAGE`. -/
def maxMessage : UInt64 := 65535

/-- `TAG_SIZE`. -/
def tagSize : UInt64 := 16

/-- `MAX_PLAINTEXT`. -/
def maxPlaintext : UInt64 := maxMessage - tagSize

/-- `HASH_SIZE`. -/
def hashSize : UInt64 := 32

/-- `MAX_PROLOGUE`. -/
def maxPrologue : UInt64 := 4096

/-- `checked_add`, of a `usize`. -/
def checkedAdd (a b : UInt64) : Option UInt64 :=
  if a.toNat + b.toNat < 2 ^ 64 then some (a + b) else none

namespace Ffi

/-- A buffer that is not empty is there, and does not wrap around. -/
def validateBuffer (data len : UInt64) : Ffi H T Unit :=
  refuseIf (len != 0 && (data == 0 || (checkedAdd data len).isNone)) .invalidArgument

/-- `validate_const_buffer`. -/
def validateConstBuffer (data len : UInt64) : Ffi H T Unit := validateBuffer data len

/-- `validate_mut_buffer`. -/
def validateMutBuffer (data len : UInt64) : Ffi H T Unit := validateBuffer data len

/-- `validate_output_parameter`, of a type of this size and alignment. -/
def validateOutputParameter (align size data : UInt64) : Ffi H T Unit :=
  refuseIf (data == 0 || data % align != 0 || (checkedAdd data size).isNone) .invalidArgument

/-- The check of `checked_const_slice`. -/
def checkedConstSlice (data len : UInt64) : Ffi H T Unit :=
  if len == 0 then pure () else validateConstBuffer data len

/-- The check of `checked_mut_slice`. -/
def checkedMutSlice (data len : UInt64) : Ffi H T Unit :=
  if len == 0 then pure () else validateMutBuffer data len

/-- `handle_ref`. -/
def handleRef (null : Bool) : Ffi H T Unit := refuseIf null .invalidArgument

end Ffi

/-- `ranges_overlap`. -/
def rangesOverlap (a aLen b bLen : UInt64) : Bool :=
  if aLen == 0 || bLen == 0 then false
  else
    match checkedAdd a aLen, checkedAdd b bLen with
    | some aEnd, some bEnd => decide (a < bEnd) && decide (b < aEnd)
    | _, _ => true

/-! ## The entry points -/

/-- The arguments of a call that reads one buffer and writes another. -/
structure Buffers where
  input : UInt64
  inputLen : UInt64
  output : UInt64
  outputCapacity : UInt64
  outputLen : UInt64
  deriving DecidableEq, Repr

namespace Ffi

variable (lib : Clatter H T) (null : Bool)

/-- The argument checks of `handshake_write` and `handshake_read`. -/
def validateHandshakeBuffers (b : Buffers) : Ffi H T Unit := do
  validateOutputParameter 8 8 b.outputLen
  validateConstBuffer b.input b.inputLen
  validateMutBuffer b.output b.outputCapacity
  refuseIf (rangesOverlap b.input b.inputLen b.output b.outputCapacity
    || rangesOverlap b.input b.inputLen b.outputLen 8
    || rangesOverlap b.output b.outputCapacity b.outputLen 8) .invalidArgument
  store (.length 0)
  refuseIf (decide (maxMessage < b.inputLen) || decide (maxMessage < b.outputCapacity)) .oversized

/-- `gasoline_noise_handshake_write`. -/
def handshakeWrite (b : Buffers) : Ffi H T Unit := do
  validateHandshakeBuffers b
  handleRef null
  lock
  let handshake ← theHandshake
  let overhead ← mapErr mapHandshakeError (← ask (lib.getNextMessageOverhead handshake))
  match checkedAdd b.inputLen overhead with
  | none => refuse .oversized
  | some required =>
    refuseIf (decide (maxMessage < required)) .oversized
    refuseIf (decide (b.outputCapacity < required)) .bufferTooSmall
    checkedConstSlice b.input b.inputLen
    checkedMutSlice b.output b.outputCapacity
    setState (.handshake (lib.writeMessage handshake).2)
    let written ← mapErr mapHandshakeError (← ask (lib.writeMessage handshake).1)
    store (.length written)

/-- `gasoline_noise_handshake_read`. -/
def handshakeRead (b : Buffers) : Ffi H T Unit := do
  validateHandshakeBuffers b
  handleRef null
  lock
  let handshake ← theHandshake
  let overhead ← mapErr mapHandshakeError (← ask (lib.getNextMessageOverhead handshake))
  refuseIf (decide (b.inputLen < overhead)) .cryptoError
  refuseIf (decide (b.outputCapacity < b.inputLen - overhead)) .bufferTooSmall
  checkedConstSlice b.input b.inputLen
  checkedMutSlice b.output b.outputCapacity
  setState (.handshake (lib.readMessage handshake).2)
  let written ← mapErr mapHandshakeError (← ask (lib.readMessage handshake).1)
  store (.length written)

/-- `gasoline_noise_handshake_is_complete`. -/
def handshakeIsComplete (complete : UInt64) : Ffi H T Unit := do
  refuseIf (complete == 0) .invalidArgument
  store (.flag false)
  handleRef null
  lock
  match ← getState with
  | .handshake handshake => store (.flag (← ask (lib.isFinished handshake)))
  | .transport _ => store (.flag true)
  | .failed => refuse .invalidState

/-- `copy_from_slice`, which panics where the lengths differ. -/
def copyFromSlice (hash : Bytes) : Ffi H T Unit :=
  if hash.length = hashSize.toNat then store (.hash hash) else throw .panicked

/-- `gasoline_noise_copy_handshake_hash`. -/
def copyHandshakeHash (output outputCapacity : UInt64) : Ffi H T Unit := do
  refuseIf (decide (outputCapacity < hashSize)) .bufferTooSmall
  checkedMutSlice output hashSize
  handleRef null
  lock
  match ← getState with
  | .handshake handshake =>
    if ← ask (lib.isFinished handshake) then copyFromSlice (← ask (lib.getHash handshake))
    else refuse .invalidState
  | .transport transport => copyFromSlice (← ask (lib.getHandshakeHash transport))
  | .failed => refuse .invalidState

/-- **`gasoline_noise_enter_transport`.** The state is taken out first, and
put back where the wrapper refuses. -/
def enterTransport : Ffi H T Unit := do
  handleRef null
  lock
  let old ← getState
  setState .failed
  match old with
  | .handshake handshake =>
    if !(← ask (lib.isFinished handshake)) then
      setState (.handshake handshake)
      refuse .invalidState
    else
      let transport ← mapErr mapHandshakeError (← ask (lib.finalize handshake))
      setState (.transport transport)
  | old =>
    setState old
    refuse .invalidState

/-- `gasoline_noise_transport_encrypt`. -/
def transportEncrypt (b : Buffers) : Ffi H T Unit := do
  refuseIf (b.outputLen == 0) .invalidArgument
  store (.length 0)
  refuseIf (decide (maxPlaintext < b.inputLen) || decide (maxMessage < b.outputCapacity)) .oversized
  refuseIf (decide (b.outputCapacity < b.inputLen + tagSize)) .bufferTooSmall
  refuseIf (rangesOverlap b.input b.inputLen b.output b.outputCapacity) .invalidArgument
  checkedConstSlice b.input b.inputLen
  checkedMutSlice b.output b.outputCapacity
  handleRef null
  lock
  let transport ← theTransport
  setState (.transport (lib.send transport).2)
  let written ← mapErr mapTransportError (← ask (lib.send transport).1)
  store (.length written)

/-- **`gasoline_noise_transport_decrypt`.** An error of the library is
terminal. -/
def transportDecrypt (b : Buffers) : Ffi H T Unit := do
  refuseIf (b.outputLen == 0) .invalidArgument
  store (.length 0)
  refuseIf (decide (maxMessage < b.inputLen) || decide (maxPlaintext < b.outputCapacity)) .oversized
  refuseIf (decide (b.inputLen < tagSize)) .invalidArgument
  refuseIf (decide (b.outputCapacity < b.inputLen - tagSize)) .bufferTooSmall
  refuseIf (rangesOverlap b.input b.inputLen b.output b.outputCapacity) .invalidArgument
  checkedConstSlice b.input b.inputLen
  checkedMutSlice b.output b.outputCapacity
  handleRef null
  lock
  let transport ← theTransport
  setState (.transport (lib.receive transport).2)
  match ← ask (lib.receive transport).1 with
  | .ok written => store (.length written)
  | .error error =>
    setState .failed
    throw (.failed (mapTransportError error))

/-- What `rekey_sender` and `rekey_receiver` have in common. -/
def rekey (f : T → Outcome (Except TransportError Unit) × T) : Ffi H T Unit := do
  handleRef null
  lock
  let transport ← theTransport
  setState (.transport (f transport).2)
  mapErr mapTransportError (← ask (f transport).1)

/-- `gasoline_noise_rekey_sender`. -/
def rekeySender : Ffi H T Unit := rekey null lib.rekeySender

/-- `gasoline_noise_rekey_receiver`. -/
def rekeyReceiver : Ffi H T Unit := rekey null lib.rekeyReceiver

/-- `gasoline_noise_destroy`. -/
def destroy : Ffi H T Unit :=
  if null then pure ()
  else modify (fun f => { f with handle := { f.handle with destroyed := true } })

end Ffi

/-- The entry points that take a handle. -/
inductive Entry
  | handshakeWrite (b : Buffers)
  | handshakeRead (b : Buffers)
  | handshakeIsComplete (complete : UInt64)
  | copyHandshakeHash (output outputCapacity : UInt64)
  | enterTransport
  | transportEncrypt (b : Buffers)
  | transportDecrypt (b : Buffers)
  | rekeySender
  | rekeyReceiver
  | destroy
  deriving DecidableEq, Repr

namespace Entry

/-- The body of an entry point. -/
def body (lib : Clatter H T) (null : Bool) : Entry → Ffi H T Unit
  | .handshakeWrite b => Ffi.handshakeWrite lib null b
  | .handshakeRead b => Ffi.handshakeRead lib null b
  | .handshakeIsComplete complete => Ffi.handshakeIsComplete lib null complete
  | .copyHandshakeHash output capacity => Ffi.copyHandshakeHash lib null output capacity
  | .enterTransport => Ffi.enterTransport lib null
  | .transportEncrypt b => Ffi.transportEncrypt lib null b
  | .transportDecrypt b => Ffi.transportDecrypt lib null b
  | .rekeySender => Ffi.rekeySender lib null
  | .rekeyReceiver => Ffi.rekeyReceiver lib null
  | .destroy => Ffi.destroy null

/-- The entry points of a handshake. -/
def isHandshake : Entry → Bool
  | .handshakeWrite _ => true
  | .handshakeRead _ => true
  | _ => false

/-- The entry points that only read the session. -/
def isQuery : Entry → Bool
  | .handshakeIsComplete _ => true
  | .copyHandshakeHash _ _ => true
  | _ => false

/-- The entry points of a transport. -/
def isTransport : Entry → Bool
  | .transportEncrypt _ => true
  | .transportDecrypt _ => true
  | .rekeySender => true
  | .rekeyReceiver => true
  | _ => false

end Entry

/-- How a call ended. -/
inductive Ending
  | ok
  | aborted (why : Abort)
  deriving DecidableEq, Repr

/-- The code that is returned. -/
def Ending.result : Ending → NoiseResult
  | .ok => .ok
  | .aborted (.refused result) => result
  | .aborted (.failed result) => result
  | .aborted .panicked => .panic

/-- **A call**: the entry point, whether the handle is the null pointer
instead of this one, and what the library answers. -/
structure FfiCall (H T : Type) where
  entry : Entry
  null : Bool
  library : Clatter H T

/-- The mutex is released. It is poisoned where that is for a panic. -/
def Frame.release (f : Frame H T) (why : Abort) : NoiseHandle H T :=
  { f.handle with poisoned := f.handle.poisoned || (f.locked && why == .panicked) }

namespace NoiseHandle

/-- **`guard`**: run the body, and catch a panic. -/
def guard (h : NoiseHandle H T) (body : Ffi H T Unit) : Ending × NoiseHandle H T × Option Stored :=
  match body.run ⟨h, false, none⟩ with
  | .ok () f => (.ok, f.handle, f.stored)
  | .error why f => (.aborted why, f.release why, f.stored)

/-- How a call ends. -/
def ending (h : NoiseHandle H T) (c : FfiCall H T) : Ending :=
  (h.guard (c.entry.body c.library c.null)).1

/-- The handle after a call. -/
def after (h : NoiseHandle H T) (c : FfiCall H T) : NoiseHandle H T :=
  (h.guard (c.entry.body c.library c.null)).2.1

/-- A call returns `Ok`. -/
def returnsOk (h : NoiseHandle H T) (c : FfiCall H T) : Prop := (h.ending c).result = .ok

/-- Calls on a handle, which must not be used once it was destroyed. -/
def step (h : NoiseHandle H T) (c : FfiCall H T) : Option (NoiseHandle H T) :=
  if h.destroyed then none else some (h.after c)

/-- **`create`**, with what `Handshake::new` answers: a handle at the
beginning of its handshake, or a code. -/
def create (new : Outcome (Except HandshakeError H)) (prologue prologueLen outHandle : UInt64) :
    Except NoiseResult (NoiseHandle H T) :=
  if outHandle = 0 then .error .invalidArgument
  else if maxPrologue < prologueLen then .error .oversized
  else if prologueLen ≠ 0 ∧ (prologue = 0 ∨ (checkedAdd prologue prologueLen).isNone) then
    .error .invalidArgument
  else
    match new with
    | .panicked => .error .panic
    | .returned (.error e) => .error (mapHandshakeError e)
    | .returned (.ok handshake) => .ok ⟨.handshake handshake, false, false⟩

end NoiseHandle

end Gasoline
