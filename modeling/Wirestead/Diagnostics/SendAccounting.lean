import Mathlib

/-! # Totals of accepted sends

The counters live in a commutative ring: the integers for exact totals, the 64-bit
words for those of the machine.
-/
namespace Wirestead.Diagnostics
variable {N : Type*}

@[ext] structure SendRequestTotals (N : Type*) where
  requests : N
  bytes : N
  deriving DecidableEq, Repr

@[ext] structure SendLossTotals (N : Type*) where
  discardedBeforeWrite : SendRequestTotals N
  abortedDuringWrite : SendRequestTotals N
  deriving DecidableEq, Repr

@[ext] structure SendAccounting (N : Type*) where
  accepted : SendRequestTotals N
  written : SendRequestTotals N
  outstanding : SendRequestTotals N
  explicitStop : SendLossTotals N
  connectionLoss : SendLossTotals N
  queuePressure : SendLossTotals N
  sessionExpiry : SendLossTotals N
  confirmedWrittenBytes : N
  deriving DecidableEq, Repr

inductive Cause
  | explicitStop
  | connectionLoss
  | queuePressure
  | sessionExpiry
  deriving DecidableEq, Repr

section Instances
variable [AddCommGroup N]

instance : AddCommGroup (SendRequestTotals N) :=
  (Equiv.mk (fun t => (t.requests,t.bytes)) (fun p : N × N => ⟨p.1,p.2⟩) (fun _ => rfl)
    (fun _ => rfl)).addCommGroup

instance : AddCommGroup (SendLossTotals N) :=
  (Equiv.mk (fun t => (t.discardedBeforeWrite,t.abortedDuringWrite))
    (fun p : SendRequestTotals N × SendRequestTotals N => ⟨p.1,p.2⟩) (fun _ => rfl)
    (fun _ => rfl)).addCommGroup

/-- Addition is `accumulate_send_accounting`, zero the value-initialised record. -/
instance : AddCommGroup (SendAccounting N) :=
  (Equiv.mk (fun t => ((t.accepted,t.written,t.outstanding),(t.explicitStop,t.connectionLoss,
      t.queuePressure,t.sessionExpiry),t.confirmedWrittenBytes))
    (fun p : (SendRequestTotals N × SendRequestTotals N × SendRequestTotals N) ×
        (SendLossTotals N × SendLossTotals N × SendLossTotals N × SendLossTotals N) × N =>
      ⟨p.1.1,p.1.2.1,p.1.2.2,p.2.1.1,p.2.1.2.1,p.2.1.2.2.1,p.2.1.2.2.2,p.2.2⟩) (fun _ => rfl)
    (fun _ => rfl)).addCommGroup

variable (a b : SendRequestTotals N) (l m : SendLossTotals N) (s t : SendAccounting N)

@[simp] theorem requests_add : (a + b).requests = a.requests + b.requests := rfl
@[simp] theorem requests_zero : (0 : SendRequestTotals N).requests = 0 := rfl
@[simp] theorem bytes_add : (a + b).bytes = a.bytes + b.bytes := rfl
@[simp] theorem bytes_zero : (0 : SendRequestTotals N).bytes = 0 := rfl
@[simp] theorem discardedBeforeWrite_add :
    (l + m).discardedBeforeWrite = l.discardedBeforeWrite + m.discardedBeforeWrite := rfl
@[simp] theorem discardedBeforeWrite_zero : (0 : SendLossTotals N).discardedBeforeWrite = 0 := rfl
@[simp] theorem abortedDuringWrite_add :
    (l + m).abortedDuringWrite = l.abortedDuringWrite + m.abortedDuringWrite := rfl
@[simp] theorem abortedDuringWrite_zero : (0 : SendLossTotals N).abortedDuringWrite = 0 := rfl
@[simp] theorem accepted_add : (s + t).accepted = s.accepted + t.accepted := rfl
@[simp] theorem accepted_zero : (0 : SendAccounting N).accepted = 0 := rfl
@[simp] theorem written_add : (s + t).written = s.written + t.written := rfl
@[simp] theorem written_zero : (0 : SendAccounting N).written = 0 := rfl
@[simp] theorem outstanding_add : (s + t).outstanding = s.outstanding + t.outstanding := rfl
@[simp] theorem outstanding_zero : (0 : SendAccounting N).outstanding = 0 := rfl
@[simp] theorem explicitStop_add : (s + t).explicitStop = s.explicitStop + t.explicitStop := rfl
@[simp] theorem explicitStop_zero : (0 : SendAccounting N).explicitStop = 0 := rfl
@[simp] theorem connectionLoss_add :
    (s + t).connectionLoss = s.connectionLoss + t.connectionLoss := rfl
@[simp] theorem connectionLoss_zero : (0 : SendAccounting N).connectionLoss = 0 := rfl
@[simp] theorem queuePressure_add : (s + t).queuePressure = s.queuePressure + t.queuePressure := rfl
@[simp] theorem queuePressure_zero : (0 : SendAccounting N).queuePressure = 0 := rfl
@[simp] theorem sessionExpiry_add : (s + t).sessionExpiry = s.sessionExpiry + t.sessionExpiry := rfl
@[simp] theorem sessionExpiry_zero : (0 : SendAccounting N).sessionExpiry = 0 := rfl
@[simp] theorem confirmedWrittenBytes_add :
    (s + t).confirmedWrittenBytes = s.confirmedWrittenBytes + t.confirmedWrittenBytes := rfl
@[simp] theorem confirmedWrittenBytes_zero : (0 : SendAccounting N).confirmedWrittenBytes = 0 := rfl

end Instances

section Updates
variable [CommRing N]

/-- `add`: one more request of `bytes` bytes. -/
def SendRequestTotals.add (t : SendRequestTotals N) (bytes : ℕ) : SendRequestTotals N :=
  ⟨t.requests + 1,t.bytes + bytes⟩

/-- `remove`. -/
def SendRequestTotals.remove (t : SendRequestTotals N) (bytes : ℕ) : SendRequestTotals N :=
  ⟨t.requests - 1,t.bytes - bytes⟩

namespace SendAccounting
variable (t : SendAccounting N)

/-- What `admit` does to the totals. -/
def admitRequest (bytes : ℕ) : SendAccounting N :=
  { t with accepted := t.accepted.add bytes, outstanding := t.outstanding.add bytes }

/-- What `rollback` does to the totals. -/
def rollback (bytes : ℕ) : SendAccounting N :=
  { t with accepted := t.accepted.remove bytes, outstanding := t.outstanding.remove bytes }

/-- What `complete_locked` does to the totals: a request that is not fully covered was
aborted by the loss of its connection. -/
def complete (bytes confirmedBytes : ℕ) : SendAccounting N :=
  let confirmed := min confirmedBytes bytes
  let t := { t with confirmedWrittenBytes := t.confirmedWrittenBytes + confirmed,
                    outstanding := t.outstanding.remove bytes }
  if confirmed = bytes then { t with written := t.written.add bytes }
  else { t with connectionLoss :=
    { t.connectionLoss with abortedDuringWrite := t.connectionLoss.abortedDuringWrite.add bytes } }

end SendAccounting

def SendLossTotals.lose (l : SendLossTotals N) (active : Bool) (bytes : ℕ) : SendLossTotals N :=
  if active then { l with abortedDuringWrite := l.abortedDuringWrite.add bytes }
  else { l with discardedBeforeWrite := l.discardedBeforeWrite.add bytes }

/-- What `terminate` does to the totals. -/
def SendAccounting.terminate (t : SendAccounting N) (bytes : ℕ) (active : Bool) (cause : Cause) :
    SendAccounting N :=
  let t := { t with outstanding := t.outstanding.remove bytes }
  match cause with
  | .explicitStop => { t with explicitStop := t.explicitStop.lose active bytes }
  | .connectionLoss => { t with connectionLoss := t.connectionLoss.lose active bytes }
  | .sessionExpiry => { t with sessionExpiry := t.sessionExpiry.lose active bytes }
  | .queuePressure => { t with queuePressure := t.queuePressure.lose active bytes }

end Updates
end Wirestead.Diagnostics
