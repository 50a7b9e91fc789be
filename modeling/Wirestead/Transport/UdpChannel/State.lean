import Wirestead.Transport.TcpClient.Callers

/-! # The state of a UDP channel

The members of `UdpChannel::Impl` that the write entry points read and change, and the
one transition that ends a channel. What the handler of an accepted write does on the
strand is not looked at here: the hooks stand for it, and for the user's callbacks.
-/
namespace Wirestead.Transport.UdpChannel
open Diagnostics Sizes TcpClient

structure Config where
  backpressureThreshold : ℕ
  enableMemoryPool : Bool
  threshold_ge : 1024 ≤ backpressureThreshold
  threshold_le : backpressureThreshold ≤ 100 * 2 ^ 20

namespace Config
variable (cfg : Config)

def bpHigh : ℕ := cfg.backpressureThreshold

def bpLimit : ℕ :=
  let limit := min (max (cfg.bpHigh * 4) defaultBackpressureThreshold) maxBufferSize
  if limit < cfg.bpHigh then cfg.bpHigh else limit

end Config

structure Endpoint where
  address : ℕ
  port : ℕ
  deriving DecidableEq, Repr

inductive Storage
  | pooled
  | vector
  | shared
  deriving DecidableEq, Repr

structure TxItem where
  buffer : List UInt8
  storage : Storage
  destination : Option Endpoint
  request : ℕ
  session : Option ℕ
  deriving DecidableEq, Repr

/-- The wait object of a run or a session; a tracked one has an accounting group and
counts what it has queued. -/
structure UdpWriteWait where
  sequence : ℕ
  endedBy : Option SendRejection
  accounting : Option ℕ
  queued : ℕ
  deriving DecidableEq, Repr

def UdpWriteWait.«end» (w : UdpWriteWait) (reason : SendRejection) : UdpWriteWait :=
  if w.endedBy.isNone then { w with endedBy := some reason } else w

/-- Handlers posted by the entry points, with the run they captured. -/
inductive Handler
  | enqueue (item : TxItem) (generation : ℕ)
  | tryEnqueue (item : TxItem) (generation : ℕ)
  | oversized (generation : ℕ)
  deriving DecidableEq, Repr

def Handler.item? : Handler → Option TxItem
  | .enqueue item _ => some item
  | .tryEnqueue item _ => some item
  | .oversized _ => none

structure Channel (N : Type*) where
  generation : ℕ
  stopRequested : Bool
  stopping : Bool
  opened : Bool
  connected : Bool
  started : Bool
  cleanupDone : Bool
  state : LinkState
  terminalStateNotified : Bool
  remoteEndpoint : Option Endpoint
  counters : Counters
  backpressureActive : Bool
  tx : List TxItem
  pending : List TxItem
  /-- The datagrams handed to `async_send_to`. -/
  sending : List TxItem
  writeWaits : List UdpWriteWait
  ledger : Ledger N
  posted : List Handler

/-- What the model does not look into: the handlers of accepted writes and the callbacks. -/
structure Hooks (N : Type*) where
  enqueue : TxItem → ℕ → Channel N → Channel N
  tryEnqueue : TxItem → ℕ → Channel N → Channel N
  onBackpressure : Channel N → Channel N
  onState : Channel N → Channel N

namespace Channel
variable {N : Type*} [CommRing N] (s : Channel N)

def Holds (item : TxItem) : Prop :=
  item ∈ s.tx ∨ item ∈ s.pending ∨ item ∈ s.sending ∨ ∃ handler ∈ s.posted, handler.item? = some item

omit [CommRing N] in
def admissionRejection (requireRemote : Bool) (expectedRun : Option ℕ) : Option SendRejection :=
  if s.stopRequested then some (if s.cleanupDone then .notStarted else .stopping)
  else if s.started = false then some .notStarted
  else if (∃ run ∈ expectedRun, run ≠ s.generation) ∨ s.opened = false ∨ s.state = .closed ∨ s.state = .error ∨
      (requireRemote ∧ s.remoteEndpoint.isNone) then some .notReady
  else none

/-- `fail_writes_locked`: a terminal failure of the socket ends every request. -/
def failWrites : Channel N :=
  { s with ledger := s.ledger.endAll .connectionLoss
           opened := false
           connected := false
           writeWaits := s.writeWaits.map (·.end .notReady) }

omit [CommRing N] in
/-- `drain_and_clear_backpressure`: a waiter is told when pressure was on. -/
def drainQueue (hooks : Hooks N) : Channel N :=
  let active := s.backpressureActive
  let s : Channel N := { s with tx := []
                                pending := []
                                counters := ⟨0,0,s.counters.inflightBytes⟩
                                backpressureActive := false }
  if active then hooks.onBackpressure s else s

def transitionTo (hooks : Hooks N) (target : LinkState) : Channel N :=
  if s.state.terminal ∧ target.terminal then s
  else if target.terminal then
    if s.terminalStateNotified then s
    else hooks.onState (Channel.drainQueue { s.failWrites with terminalStateNotified := true, state := target } hooks)
  else if s.state = target then s
  else hooks.onState { s with state := target }

/-- The handler posted for a payload above the queue limit. -/
def onOversized (hooks : Hooks N) (generation : ℕ) : Channel N :=
  if generation ≠ s.generation ∨ s.stopRequested then s else s.transitionTo hooks .error

def runHandler (hooks : Hooks N) : Handler → Channel N
  | .oversized generation => s.onOversized hooks generation
  | .enqueue item generation => hooks.enqueue item generation s
  | .tryEnqueue item generation => hooks.tryEnqueue item generation s

end Channel
end Wirestead.Transport.UdpChannel
