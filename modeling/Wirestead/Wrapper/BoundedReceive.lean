import Wirestead.Framer.Builtin

/-! # Bounded receive

`prepare_receive` feeds a clone of the framer in steps that its storage limit allows,
retains every message against the receive budget and commits the clone only when the
whole input went through. A throw unwinds the locals of the call: their charges are
released, what was written to the receive state stays.
-/
namespace Wirestead.Wrapper
open Framer

def sizeMax : ℕ := 18446744073709551615

structure ReceiveLimits where
  maxBytes : ℕ
  maxFrameBytes : ℕ
  maxSessions : ℕ
  maxFrameBytes_pos : 0 < maxFrameBytes
  maxFrameBytes_le : maxFrameBytes ≤ maxBytes
  maxSessions_pos : 0 < maxSessions

inductive ReceiveOverflowReason
  | byteLimit
  | frameLimit
  | sessionLimit
  | allocationFailure
  deriving DecidableEq, Repr

inductive ReceiveFailure
  | overflow (reason : ReceiveOverflowReason)
  | badAlloc
  deriving DecidableEq, Repr

/-- What a call reads and changes: the bytes in use in the budget, the charge in
`state.frame_storage`, the framer and the capacity of its buffer. `owned` are the bytes
of the charges that locals of the call hold, `allocations` counts the allocations. -/
structure Receiver where
  used : ℕ
  frameStorage : Option ℕ
  framer : BuiltinFramer
  capacity : ℕ
  owned : ℕ
  allocations : ℕ

abbrev Receive := EStateM ReceiveFailure Receiver

structure PreparedReceive where
  raw : Option (List UInt8)
  messages : List (List UInt8)
  charged : ℕ

def PreparedReceive.deliver (callback : Bool) (p : PreparedReceive) : List (List UInt8) :=
  if callback then p.messages else []

structure Work where
  framer : BuiltinFramer
  capacity : ℕ
  charge : ℕ

section Calls
variable (limits : ReceiveLimits) (fails : ℕ → Bool) (records : ℕ)

def allocate : Receive Unit := fun s =>
  if fails s.allocations then .error .badAlloc { s with allocations := s.allocations + 1 }
  else .ok () { s with allocations := s.allocations + 1 }

/-- `ReceiveScope::reserve`; `false` is the empty pointer of a refusal. -/
def reserve (bytes : ℕ) : Receive Bool := fun s =>
  if limits.maxBytes - s.used < bytes then .ok false s
  else match allocate fails { s with used := s.used + bytes } with
    | .ok _ s => .ok true { s with owned := s.owned + bytes }
    | .error e s => .error e { s with used := s.used - bytes }

def reserveReceive (bytes : ℕ) : Receive Unit := do
  unless ← reserve limits fails bytes do throw (.overflow .byteLimit)

/-- `retain_received`: the record allowance is charged with the payload, then the
payload is copied. -/
def retainReceived (bytes : List UInt8) : Receive Unit :=
  if sizeMax - records < bytes.length then throw (.overflow .byteLimit)
  else do
    reserveReceive limits fails (bytes.length + records)
    allocate fails

def stageMessages : List (List UInt8) → Receive Unit
  | [] => pure ()
  | m :: ms => do
    retainReceived limits fails records m
    allocate fails
    stageMessages ms

def growthTarget (current needed : ℕ) : ℕ :=
  min limits.maxFrameBytes (max needed
    (if limits.maxFrameBytes / 2 < current then limits.maxFrameBytes else current * 2))

def reserveGrowth (target needed : ℕ) : Receive ℕ := do
  -- when the budget cannot cover the headroom, the exact size is tried
  let next ← (if needed < target then reserve limits fails target else pure false)
  if next then pure target
  else do
    reserveReceive limits fails needed
    pure needed

def growWork (w : Work) (needed : ℕ) : Receive Work :=
  if needed ≤ w.capacity then pure w
  else do
    let target ← reserveGrowth limits fails (growthTarget limits w.capacity needed) needed
    allocate fails
    -- the old charge is given back after the old storage
    modify fun s => { s with used := s.used - w.charge, owned := s.owned - w.charge }
    pure { w with capacity := target, charge := target }

def stageLoop : ℕ → Work → List UInt8 → List (List UInt8) → Receive (Work × List (List UInt8))
  | 0, w, _, out => pure (w,out)
  | fuel + 1, w, rest, out =>
    if rest = [] then pure (w,out)
    else if limits.maxFrameBytes ≤ w.framer.buffer.length then throw (.overflow .frameLimit)
    else do
      let used := w.framer.buffer.length
      let n := min rest.length (min (limits.maxFrameBytes - used) 4096)
      let w ← growWork limits fails w (used + n)
      let r := w.framer.pushBytes (rest.take n)
      stageMessages limits fails records r.2
      stageLoop fuel { w with framer := r.1 } (rest.drop n) (out ++ r.2)

def chargeStorage : Receive Unit := do
  let s ← get
  if limits.maxFrameBytes < s.capacity then throw (.overflow .frameLimit)
  else if s.frameStorage = none ∧ s.capacity ≠ 0 then do
    reserveReceive limits fails s.capacity
    modify fun s => { s with frameStorage := some s.capacity, owned := s.owned - s.capacity }
  else pure ()

def commit (w : Work) (s : Receiver) : Receiver :=
  { s with framer := w.framer, capacity := w.capacity, frameStorage := some w.charge,
           used := s.used - s.frameStorage.getD 0, owned := s.owned - w.charge }

def prepareBody (input : List UInt8) (rawBatch : Bool) : Receive PreparedReceive := do
  (if rawBatch then retainReceived limits fails records input else pure ())
  chargeStorage limits fails
  let s ← get
  reserveReceive limits fails s.framer.buffer.length
  -- the clone and its callback
  allocate fails
  allocate fails
  let r ← stageLoop limits fails records input.length
    ⟨s.framer,s.framer.buffer.length,s.framer.buffer.length⟩ input []
  modify (commit r.1)
  let s ← get
  modify fun s => { s with owned := 0 }
  pure ⟨if rawBatch then some input else none,r.2,s.owned⟩

/-- `prepare_receive` on a built-in framer, with the unwinding of its locals. -/
def prepareReceive (input : List UInt8) (rawBatch : Bool) : Receive PreparedReceive := fun s =>
  match prepareBody limits fails records input rawBatch { s with owned := 0 } with
  | .ok p s => .ok p s
  | .error e s => .error e { s with used := s.used - s.owned, owned := 0 }

/-- `prepare_receive` and `deliver()`: the messages handed to the callback and the
framer afterwards, `none` when it throws. -/
def receiveStaged (callback : Bool) (input : List UInt8) (rawBatch : Bool) (s : Receiver) :
    Option (List (List UInt8) × BuiltinFramer) :=
  match prepareReceive limits fails records input rawBatch s with
  | .ok p s => some (p.deliver callback,s.framer)
  | .error _ _ => none

end Calls
end Wirestead.Wrapper
