import Wirestead.Diagnostics.SendLedger
import Wirestead.Transport.BpUtils

/-! # The state of a TCP client transport

The members of `TcpClient::Impl` that decide what is sent, together with the strand:
handlers that were posted wait in order, and operations that were started wait for
their completion. User callbacks and other threads run caller steps at the points
where a handler gives way to them; a script fixes what they do there. The trace
records acceptances and writes, the newest first.
-/
namespace Wirestead.Transport.TcpClient
open Diagnostics Sizes

inductive LinkState
  | idle
  | connecting
  | listening
  | connected
  | closed
  | error
  deriving DecidableEq, Repr

def LinkState.terminal : LinkState → Bool
  | .closed => true
  | .error => true
  | _ => false

inductive SendRejection
  | notStarted
  | stopping
  | notReady
  | wouldBlock
  | queueFull
  | tooLarge
  | invalidArgument
  | cancelledWhileWaiting
  deriving DecidableEq, Repr

inductive ErrorCode
  | success
  | operationAborted
  | connectionRefused
  | timedOut
  | connectionReset
  | networkUnreachable
  | hostUnreachable
  | tryAgain
  | noBufferSpace
  | invalidArgument
  | other (value : ℕ)
  deriving DecidableEq, Repr

def isRetryableTcpConnectError : ErrorCode → Bool
  | .success => false
  | .connectionRefused => true
  | .timedOut => true
  | .connectionReset => true
  | .networkUnreachable => true
  | .hostUnreachable => true
  | .tryAgain => true
  | .operationAborted => false
  | _ => true

/-- What the reconnect decision reads of a recorded error. -/
structure ErrorInfo where
  operation : String
  code : ErrorCode
  retryable : Bool
  retryCount : ℕ
  deriving DecidableEq, Repr

inductive IdleTimeoutAction
  | close
  | reconnect
  deriving DecidableEq, Repr

/-- The options with setters that work while the client runs. A policy is a user
function of the last error and the attempts so far; the delays are left out. -/
structure Settings where
  maxRetries : ℤ
  reconnectPolicy : Option (ErrorInfo → ℕ → Bool)
  idleTimeoutMs : ℕ
  idleTimeoutAction : IdleTimeoutAction

/-- The options that stay as they were given; `validate` has accepted the threshold. -/
structure Config where
  backpressureThreshold : ℕ
  enableMemoryPool : Bool
  tlsEnabled : Bool
  threshold_ge : 1024 ≤ backpressureThreshold
  threshold_le : backpressureThreshold ≤ 100 * 2 ^ 20

theorem smallest_ge : 1024 ≤ 1024 := Nat.le_refl _

theorem smallest_le : 1024 ≤ 100 * 2 ^ 20 := by decide

def maxBufferSize : ℕ := 64 * 1024 * 1024

def defaultBackpressureThreshold : ℕ := 1024 * 1024

namespace Config
variable (cfg : Config)

/-- The bounds of `recalculate_backpressure_bounds`. -/
def bpHigh : ℕ := cfg.backpressureThreshold

def bpLow : ℕ :=
  let low := if cfg.bpHigh > 1 then cfg.bpHigh / 2 else cfg.bpHigh
  if low = 0 then 1 else low

def bpLimit : ℕ :=
  let limit := min (max (cfg.bpHigh * 4) defaultBackpressureThreshold) maxBufferSize
  if limit < cfg.bpHigh then cfg.bpHigh else limit

theorem bpLimit_lt : cfg.bpLimit < modulus := by
  have h := cfg.threshold_le
  unfold bpLimit bpHigh maxBufferSize modulus
  dsimp only
  split_ifs <;> omega

end Config

/-- A queued payload with its ledger request. -/
structure TrackedBuffer where
  buffer : List UInt8
  request : ℕ
  deriving DecidableEq, Repr

def TrackedBuffer.size (item : TrackedBuffer) : ℕ := item.buffer.length

/-- One gather write. The client and the completion handler share the batch, so each
has a token of its own. -/
structure WriteBatch where
  token : ℕ
  buffers : List TrackedBuffer
  bytes : ℕ
  deriving DecidableEq, Repr

/-- The wait object of one connection instance. -/
structure TcpWriteWait where
  sequence : ℕ
  endedBy : Option SendRejection
  deriving DecidableEq, Repr

def TcpWriteWait.«end» (w : TcpWriteWait) (reason : SendRejection) : TcpWriteWait :=
  if w.endedBy.isNone then { w with endedBy := some reason } else w

/-- Handlers posted to the strand, with what they captured. -/
inductive Handler
  | write (item : TrackedBuffer) (seq connection : ℕ)
  | tryWrite (item : TrackedBuffer) (seq connection : ℕ)
  | kick (seq connection : ℕ)
  | start (seq : ℕ)
  | stopCleanup
  | failReceive (connection run : ℕ)
  deriving DecidableEq, Repr

/-- Started operations, with what their completion handlers captured. -/
inductive Operation
  | resolve (seq : ℕ)
  | connectTimer (seq : ℕ)
  | connect (seq : ℕ)
  | handshake (seq : ℕ)
  | retryTimer (seq : ℕ)
  | read (seq connection : ℕ)
  | write (seq connection : ℕ) (batch : WriteBatch)
  | idleTimer (seq connection arm : ℕ)
  deriving DecidableEq, Repr

/-- An operation that has not completed, and whether it was cancelled. A cancelled
operation may still deliver the result it had. -/
structure Outstanding where
  operation : Operation
  cancelled : Bool
  deriving DecidableEq, Repr

/-- The allocations of a write call that may fail. -/
structure WriteFaults where
  ledger : Bool
  post : Bool
  deriving DecidableEq, Repr

/-- The plain entry points. A copy first tries a pooled buffer, and each of its two
attempts may meet its own failures. -/
inductive PlainWrite
  | copy (poolFails : Bool) (pooled : WriteFaults) (copyFails : Bool)
  | move
  | shared
  deriving DecidableEq, Repr

inductive TryWrite
  | move
  | shared
  deriving DecidableEq, Repr

/-- What threads outside the strand, and user callbacks on it, may call. -/
inductive CallerOp
  | write (kind : PlainWrite) (data : List UInt8) (expectedConnection : Option ℕ) (faults : WriteFaults)
  | tryWrite (kind : TryWrite) (data : List UInt8) (faults : WriteFaults)
  | stop
  | resetStats
  | failReceive
  | cancelWriteWaits
  | configure (settings : Settings)

/-- What happens at the points where a handler gives way, in order, and which calls
that may throw do so. -/
structure Script where
  callers : List (List CallerOp)
  initiationThrows : Bool
  tlsSetupThrows : Bool

def Script.none : Script := ⟨[],false,false⟩

inductive Event
  | accepted (item : TrackedBuffer) (connection : ℕ) (connected : Bool)
  | asyncWrite (connection : ℕ) (batch : WriteBatch)
  deriving DecidableEq, Repr

structure State (N : Type*) where
  lifecycleSeq : ℕ
  stopSeq : ℕ
  currentSeq : ℕ
  connectionSeq : ℕ
  stopRequested : Bool
  stopping : Bool
  terminalStateNotified : Bool
  reconnectPending : Bool
  connected : Bool
  state : LinkState
  cleanupStarted : Bool
  cleanupFinished : Bool
  cleanupDone : Bool
  retryAttempts : ℕ
  reconnectAttemptCount : ℕ
  lastError : Option ErrorInfo
  settings : Settings
  idleArm : ℕ
  writeWaits : List TcpWriteWait
  counters : Counters
  backpressureActive : Bool
  tx : List TrackedBuffer
  pending : List TrackedBuffer
  activeWrite : Option WriteBatch
  writing : Bool
  nextToken : ℕ
  ledger : Ledger N
  posted : List Handler
  outstanding : List Outstanding
  script : Script
  trace : List Event

namespace State
variable {N : Type*} [CommRing N] (s : State N)

/-- A client that was never started. -/
def init (settings : Settings) : State N where
  lifecycleSeq := 0
  stopSeq := 0
  currentSeq := 0
  connectionSeq := 0
  stopRequested := false
  stopping := false
  terminalStateNotified := false
  reconnectPending := false
  connected := false
  state := .idle
  cleanupStarted := false
  cleanupFinished := false
  cleanupDone := false
  retryAttempts := 0
  reconnectAttemptCount := 0
  lastError := none
  settings := settings
  idleArm := 0
  writeWaits := []
  counters := .zero
  backpressureActive := false
  tx := []
  pending := []
  activeWrite := none
  writing := false
  nextToken := 0
  ledger := .new
  posted := []
  outstanding := []
  script := .none
  trace := []

omit [CommRing N] in
/-- The current wait object is the last one made. -/
def endWriteWait (reason : SendRejection) : State N :=
  { s with writeWaits := s.writeWaits.modify (s.writeWaits.length - 1) (·.end reason) }

/-- `mark_disconnected_locked`: the one boundary at which a connection instance ends. -/
def markDisconnected : State N :=
  if s.connected then
    let s := { s with connected := false, ledger := s.ledger.endAll .connectionLoss }
    let s := s.endWriteWait .notReady
    { s with connectionSeq := s.connectionSeq + 1 }
  else s

/-- Every operation that `p` selects is cancelled. -/
def cancelWhere (p : Operation → Bool) : State N :=
  { s with outstanding := s.outstanding.map (fun o => if p o.operation then { o with cancelled := true } else o) }

def startOperation (operation : Operation) : State N :=
  { s with outstanding := s.outstanding ++ [⟨operation,false⟩] }

def post (handler : Handler) : State N := { s with posted := s.posted ++ [handler] }

def onSocket : Operation → Bool
  | .connect _ => true
  | .handshake _ => true
  | .read _ _ => true
  | .write _ _ _ => true
  | _ => false

def onResolver : Operation → Bool
  | .resolve _ => true
  | _ => false

def onConnectTimer : Operation → Bool
  | .connectTimer _ => true
  | _ => false

def onRetryTimer : Operation → Bool
  | .retryTimer _ => true
  | _ => false

def onIdleTimer : Operation → Bool
  | .idleTimer _ _ _ => true
  | _ => false

def closeSocket : State N := s.cancelWhere onSocket

def recordError (operation : String) (code : ErrorCode) (retryable : Bool) (retryCount : ℕ) : State N :=
  { s with lastError := some ⟨operation,code,retryable,retryCount⟩ }

/-- The attempt counter of the active reconnect mode. -/
def currentAttempts : ℕ :=
  if s.settings.reconnectPolicy.isSome then s.reconnectAttemptCount else s.retryAttempts

/-- The drain of a lost connection. The completion handler of the active write keeps
its own reference to the batch. -/
def discardConnectionWrites : State N :=
  { s with activeWrite := none
           tx := []
           pending := []
           counters := ⟨0,0,s.counters.inflightBytes⟩
           writing := false
           backpressureActive := false }

/-- `transition_to`; `notify` is the state callback. -/
def transitionWith (notify : State N → State N) (next : LinkState) (ec : ErrorCode) : State N :=
  if ec = .operationAborted then s
  else if s.state.terminal ∧ next.terminal then s
  else if next.terminal then
    if s.terminalStateNotified then s
    else notify { s with terminalStateNotified := true, state := next }
  else if s.state = next ∧ ¬ (next = .connecting ∧ s.state = .connecting) then s
  else notify { s with state := next }

/-- The first part of the stop cleanup: timers, resolver and socket. -/
def releaseIo : State N :=
  let s := ((s.cancelWhere onRetryTimer).cancelWhere onConnectTimer).cancelWhere onIdleTimer
  (s.cancelWhere onResolver).closeSocket

def dropWrites : State N :=
  { s with tx := []
           pending := []
           counters := ⟨0,0,s.counters.inflightBytes⟩
           writing := false
           activeWrite := none }

/-- The completion signal of the cleanup: operations still to complete hold it back. -/
def signalCleanup : State N :=
  if s.outstanding.isEmpty then { s with cleanupFinished := true, cleanupDone := true }
  else { s with cleanupFinished := true }

/-- `perform_stop_cleanup`. -/
def stopCleanupWith (notify : State N → State N) : State N :=
  if s.cleanupStarted then s
  else
    let s : State N := { s with cleanupStarted := true }
    let s : State N := { s.releaseIo.dropWrites.markDisconnected with backpressureActive := false }
    (s.transitionWith notify .closed .success).signalCleanup

/-- The flags and counters of a new run. -/
def resetRun : State N :=
  { s with cleanupStarted := false
           cleanupFinished := false
           counters := { s.counters with inflightBytes := 0 }
           cleanupDone := false
           stopRequested := false
           stopping := false
           terminalStateNotified := false
           reconnectPending := false
           retryAttempts := 0
           reconnectAttemptCount := 0 }

/-- `reset_start_state`; `tx_` and the active batch are left to the start handler. -/
def resetStartState : State N :=
  let s := s.resetRun.markDisconnected
  { s with writing := false
           counters := ⟨0,0,s.counters.inflightBytes⟩
           pending := []
           backpressureActive := false
           state := .idle }

/-- `reset_io_objects`: new sockets and timers, and empty queues. -/
def resetIoObjects : State N :=
  { s.cancelWhere (fun _ => true) with
    tx := []
    pending := []
    counters := ⟨0,0,s.counters.inflightBytes⟩
    writing := false
    backpressureActive := false }

/-- `write_connection`. -/
def writeConnection : Option ℕ :=
  if s.stopRequested ∨ ¬ s.connected then none else some s.connectionSeq

end State
end Wirestead.Transport.TcpClient
