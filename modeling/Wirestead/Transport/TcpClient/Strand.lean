import Wirestead.Transport.TcpClient.Callers

/-! # The handlers of the strand

Posted handlers run in the order of their posting; an operation that was started
completes at any time and with any result. Each handler is one step, except where it
gives way to callers: at user callbacks, and between taking a batch and handing it over.
-/
namespace Wirestead.Transport.TcpClient
open Diagnostics Sizes

def kMaxGatherBuffers : ℕ := 16

def kMaxGatherBytes : ℕ := 256 * 1024

/-- The loop of `take_gather_batch`: the batch, what stays queued, and the byte count. -/
def takeGatherLoop : List TrackedBuffer → ℕ → ℕ → List TrackedBuffer × List TrackedBuffer × ℕ
  | [], _, total => ([],[],total)
  | item :: rest, count, total =>
    if count < kMaxGatherBuffers ∧ total < kMaxGatherBytes then
      let r := takeGatherLoop rest (count + 1) (total + item.size)
      (item :: r.1,r.2)
    else ([],item :: rest,total)

def takeGatherBatch (tx : List TrackedBuffer) : List TrackedBuffer × List TrackedBuffer × ℕ :=
  takeGatherLoop tx 0 0

/-- `decide_reconnect_common`: whether to retry. -/
def decideReconnect (settings : Settings) (info : ErrorInfo) (attemptCount : ℕ) : Bool :=
  if info.retryable = false then false
  else if settings.maxRetries = 0 then false
  else if settings.maxRetries > 0 ∧ (attemptCount : ℤ) ≥ settings.maxRetries then false
  else
    match settings.reconnectPolicy with
    | some policy => policy info attemptCount
    | none => true

/-- The error that `schedule_retry` assumes when none was recorded. -/
def unknownError : ErrorInfo := ⟨"schedule_retry",.other 107,true,0⟩

namespace State
variable {N : Type*} [CommRing N] (cfg : Config) (s : State N)

/-- The state callback is not invoked once stop was requested. -/
def notifyState : State N := if s.stopRequested ∨ s.stopping then s else s.giveWay cfg

def transitionTo (next : LinkState) (ec : ErrorCode) : State N :=
  s.transitionWith (notifyState cfg) next ec

def doResolveConnect (seq : ℕ) : State N := s.startOperation (.resolve seq)

/-- One more attempt in the active reconnect mode. -/
def countAttempt : State N :=
  if s.settings.reconnectPolicy.isSome then
    { s with reconnectAttemptCount := (s.reconnectAttemptCount + 1) % 2 ^ 32 }
  else { s with retryAttempts := s.retryAttempts + 1 }

/-- A new expiry time cancels the wait that was pending on the timer. -/
def armRetry (seq : ℕ) : State N :=
  ((s.countAttempt.transitionTo cfg .connecting .success).cancelWhere onRetryTimer).startOperation
    (.retryTimer seq)

def giveUpRetry : State N := { s.transitionTo cfg .error .success with reconnectPending := false }

def scheduleRetry (seq : ℕ) : State N :=
  let s := s.markDisconnected
  if s.stopRequested ∨ s.stopping then s
  else if s.reconnectPending then s
  else
    let s : State N := { s with reconnectPending := true }
    if decideReconnect s.settings (s.lastError.getD unknownError) s.currentAttempts then
      s.armRetry cfg seq
    else s.giveUpRetry cfg

def recordClose (ec : ErrorCode) : State N :=
  if ec = .success then s
  else s.recordError "handle_close" ec (isRetryableTcpConnectError ec) s.currentAttempts

/-- What ends every connection: no write is active, the timers are cancelled and the
socket is closed. -/
def tearDown : State N :=
  let s : State N := { s with writing := false }
  ((s.cancelWhere onIdleTimer).cancelWhere onConnectTimer).closeSocket

def handleClose (seq : ℕ) (ec : ErrorCode) : State N :=
  if ec = .operationAborted ∨ seq ≠ s.currentSeq then s
  else
    let s := (s.markDisconnected.discardConnectionWrites.recordClose ec).tearDown
    if s.stopRequested ∨ s.stopping ∨ s.state = .closed then s.transitionTo cfg .closed ec
    else (s.transitionTo cfg .connecting ec).scheduleRetry cfg seq

def handleIdleTimeout (seq : ℕ) : State N :=
  if seq ≠ s.currentSeq ∨ s.stopRequested ∨ s.stopping ∨ ¬ s.connected then s
  else
    let s := s.markDisconnected.discardConnectionWrites
    let reconnect := decide (s.settings.idleTimeoutAction = .reconnect)
    let s := (s.recordError "idle_timeout" .timedOut reconnect s.currentAttempts).tearDown
    if reconnect then (s.transitionTo cfg .connecting .timedOut).scheduleRetry cfg seq
    else s.transitionTo cfg .closed .timedOut

def resetIdleTimer (seq : ℕ) : State N :=
  if s.settings.idleTimeoutMs = 0 ∨ ¬ s.connected ∨ s.stopRequested ∨ s.stopping then s
  else
    let s : State N := { s.cancelWhere onIdleTimer with idleArm := s.idleArm + 1 }
    s.startOperation (.idleTimer seq s.connectionSeq s.idleArm)

/-- Traffic in either direction restarts the idle timer. -/
def noteTraffic (seq n : ℕ) : State N := if n > 0 then s.resetIdleTimer seq else s

/-- The batch becomes the active one and is passed to `async_write`. -/
def recordWrite (b : WriteBatch) (ledger : Ledger N) : State N :=
  { s with ledger := ledger
           activeWrite := some b
           nextToken := s.nextToken + 1
           trace := .asyncWrite s.connectionSeq b :: s.trace }

/-- The handover of a batch to the socket. Initiation that throws ends the connection. -/
def initiateWrite (seq : ℕ) (buffers : List TrackedBuffer) (bytes : ℕ) (ledger : Ledger N) : State N :=
  let b : WriteBatch := ⟨s.nextToken,buffers,bytes⟩
  let s := s.recordWrite b ledger
  if s.script.initiationThrows then s.markDisconnected.handleClose cfg seq .noBufferSpace
  else s.startOperation (.write seq s.connectionSeq b)

/-- Between taking the batch and here stop or a loss may have ended its requests; then
the ledger refuses it and it goes back to the front. -/
def handOver (seq : ℕ) (buffers : List TrackedBuffer) (bytes : ℕ) : State N :=
  let begun := s.ledger.beginBatch (buffers.map (·.request))
  if s.stopRequested ∨ begun.2 = false then { s with tx := buffers ++ s.tx, writing := false }
  else s.initiateWrite cfg seq buffers bytes begun.1

/-- `do_write`. When stop was requested the queues are cleared, and the report that
follows returns at once. -/
def doWrite (seq : ℕ) : State N :=
  if s.stopRequested then
    { s with tx := []
             pending := []
             counters := ⟨0,0,s.counters.inflightBytes⟩
             writing := false }
  else if s.connected = false then { s with writing := false }
  else if s.tx = [] ∨ s.state = .closed ∨ s.state = .error then { s with writing := false }
  else
    let batch := takeGatherBatch s.tx
    let s : State N := { s with writing := true, tx := batch.2.1 }
    (s.giveWay cfg).handOver cfg seq batch.1 batch.2.2

def flushPendingIntoTx : ℕ × State N :=
  (s.counters.pendingBytes,{ s with counters := { s.counters with pendingBytes := 0 }
                                    tx := s.tx ++ s.pending
                                    pending := [] })

/-- What the shared state machine sees of the client. -/
def bpFields : BackpressureFields (State N) where
  bpHigh := cfg.bpHigh
  bpLow := cfg.bpLow
  backpressureActive s := s.backpressureActive
  setBackpressureActive b s := { s with backpressureActive := b }
  queueBytes s := s.counters.queueBytes
  setQueueBytes n s := { s with counters := { s.counters with queueBytes := n } }
  onBackpressure _ s := s.giveWay cfg
  flushPendingIntoTx s := s.flushPendingIntoTx
  kickWrite s := if s.writing then s else s.doWrite cfg s.currentSeq

def reportBackpressure (queuedBytes : ℕ) : State N :=
  if s.stopRequested ∨ s.stopping then s
  else Transport.reportBackpressure (bpFields cfg) queuedBytes s

/-- `if (!writing_) do_write(...)`. -/
def writeIfIdle : State N := if s.writing then s else s.doWrite cfg s.currentSeq

def setCounters (counters : Counters) : State N := { s with counters := counters }

def pushTx (item : TrackedBuffer) : State N := { s with tx := s.tx ++ [item] }

def pushPending (item : TrackedBuffer) : State N := { s with pending := s.pending ++ [item] }

/-- The last lines of both routes into `tx_`. -/
def reportThenWrite : State N := (s.reportBackpressure cfg s.counters.queueBytes).writeIfIdle cfg

/-- The defensive branch of the routing. -/
def rejectEnqueued (item : TrackedBuffer) : State N :=
  let s : State N := { s with ledger := s.ledger.discard item.request .queuePressure }
  let s := s.recordError "write" .noBufferSpace false 0
  let s := s.setCounters (releaseReservedLimitBytes s.counters item.size)
  s.reportBackpressure cfg (add s.counters.queueBytes item.size)

/-- `route_enqueued_buffer`. -/
def routeEnqueuedBuffer (item : TrackedBuffer) : State N :=
  if s.stopRequested ∨ s.state = .closed ∨ s.state = .error then
    s.setCounters (releaseReservedLimitBytes s.counters item.size)
  else
    match decideEnqueue s.counters.queueBytes s.counters.pendingBytes s.backpressureActive item.size
        cfg.bpLimit with
    | some .pending =>
      (s.setCounters (commitReservedLimitBytes s.counters .pending item.size)).pushPending item
    | some .immediate =>
      ((s.setCounters (commitReservedLimitBytes s.counters .queue item.size)).pushTx item).reportThenWrite cfg
    | _ => s.rejectEnqueued cfg item

/-- The handler of a nonblocking write pushes straight to `tx_`. -/
def routeTryBuffer (item : TrackedBuffer) : State N :=
  if s.stopRequested ∨ s.state = .closed ∨ s.state = .error then
    s.setCounters (releaseReservedWriteBytes s.counters item.size)
  else (s.pushTx item).reportThenWrite cfg

/-- What the handler of `fail_receive` does. -/
def failReceiveOn (connection run : ℕ) : State N :=
  if run ≠ s.currentSeq ∨ s.writeConnection ≠ some connection then s
  else s.handleClose cfg run .noBufferSpace

/-- On the strand the handler of `fail_receive` is dispatched in place. -/
def failReceiveHere : State N :=
  match s.writeConnection with
  | none => s
  | some connection => s.failReceiveOn cfg connection s.currentSeq

def startRead (seq : ℕ) : State N := s.startOperation (.read seq s.connectionSeq)

def finishConnect (seq : ℕ) : State N :=
  if seq ≠ s.currentSeq ∨ s.stopRequested ∨ s.stopping then s
  else
    let s : State N :=
      { s with writeWaits := s.writeWaits ++ [⟨s.connectionSeq,none⟩], connected := true }
    let connection := s.connectionSeq
    let s := s.transitionTo cfg .connected .success
    ((s.startRead seq).resetIdleTimer seq).post (.kick seq connection)

def handshakeThen (seq : ℕ) : State N :=
  if cfg.tlsEnabled then
    if s.script.tlsSetupThrows then
      (s.recordError "handshake" .invalidArgument false 0).handleClose cfg seq .invalidArgument
    else s.startOperation (.handshake seq)
  else s.finishConnect cfg seq

def onResolve (seq : ℕ) (ec : ErrorCode) : State N :=
  if ec = .operationAborted ∨ seq ≠ s.currentSeq then s
  else if s.stopRequested ∨ s.stopping then s
  else if ec ≠ .success then
    (s.recordError "resolve" ec (isRetryableTcpConnectError ec) s.currentAttempts).scheduleRetry cfg seq
  else ((s.cancelWhere onConnectTimer).startOperation (.connectTimer seq)).startOperation (.connect seq)

def onConnectTimeout (seq : ℕ) (ec : ErrorCode) : State N :=
  if ec = .operationAborted ∨ seq ≠ s.currentSeq then s
  else if ec = .success ∧ ¬ s.stopRequested ∧ ¬ s.stopping then
    (s.recordError "connect" .timedOut (isRetryableTcpConnectError .timedOut)
      s.currentAttempts).handleClose cfg seq .timedOut
  else s

def onConnect (seq : ℕ) (ec : ErrorCode) : State N :=
  if ec = .operationAborted ∨ seq ≠ s.currentSeq then s
  else if s.stopRequested ∨ s.stopping then s.closeSocket.cancelWhere onConnectTimer
  else if ec ≠ .success then
    ((s.cancelWhere onConnectTimer).recordError "connect" ec (isRetryableTcpConnectError ec)
      s.currentAttempts).scheduleRetry cfg seq
  else
    let s : State N := { s.cancelWhere onConnectTimer with retryAttempts := 0
                                                           reconnectAttemptCount := 0 }
    s.handshakeThen cfg seq

def onHandshake (seq : ℕ) (ec : ErrorCode) : State N :=
  if seq ≠ s.currentSeq ∨ s.stopRequested ∨ s.stopping then s
  else if ec ≠ .success then (s.recordError "handshake" ec false 0).handleClose cfg seq ec
  else s.finishConnect cfg seq

def onRetry (seq : ℕ) (ec : ErrorCode) : State N :=
  let s : State N := { s with reconnectPending := false }
  if ec = .operationAborted ∨ seq ≠ s.currentSeq then s
  else if ec = .success ∧ ¬ s.stopRequested ∧ ¬ s.stopping then s.doResolveConnect seq
  else s

/-- The receive callback: it may send, stop, or report an overflow in place. -/
def deliver (overflow : Bool) : State N :=
  let s := s.giveWay cfg
  (if overflow then s.failReceiveHere cfg else s).giveWay cfg

def onRead (seq connection : ℕ) (ec : ErrorCode) (n : ℕ) (overflow : Bool) : State N :=
  if ec = .operationAborted ∨ seq ≠ s.currentSeq ∨ connection ≠ s.connectionSeq then s
  else if s.stopRequested then s
  else if ec ≠ .success then s.handleClose cfg seq ec
  else ((s.noteTraffic seq n).deliver cfg overflow).startRead seq

def onIdle (seq connection arm : ℕ) (ec : ErrorCode) : State N :=
  if ec = .operationAborted ∨ seq ≠ s.currentSeq ∨ connection ≠ s.connectionSeq ∨ arm ≠ s.idleArm then s
  else if ec = .success then s.handleIdleTimeout cfg seq
  else s

/-- A batch that is given up is emptied, also where the client still refers to it. -/
def clearBatch (token : ℕ) : State N :=
  { s with activeWrite :=
      s.activeWrite.map (fun b => if b.token = token then { b with buffers := [] } else b) }

/-- The bytes of a finished write leave the queue, and the level is reported. -/
def releaseWritten (batch : WriteBatch) : State N :=
  let s := s.setCounters (releaseReservedWriteBytes s.counters batch.bytes)
  s.reportBackpressure cfg s.counters.queueBytes

def writeAborted (batch : WriteBatch) : State N :=
  { s.releaseWritten cfg batch with writing := false }

def writeFailed (seq : ℕ) (batch : WriteBatch) (ec : ErrorCode) : State N :=
  let s : State N := { s with tx := batch.buffers ++ s.tx }
  let s : State N := { s.recordError "write" ec false 0 with writing := false }
  s.handleClose cfg seq ec

def writeSucceeded (seq : ℕ) (batch : WriteBatch) (bytesWritten : ℕ) : State N :=
  let s := (s.noteTraffic seq bytesWritten).releaseWritten cfg batch
  if s.stopRequested ∨ s.state = .closed ∨ s.state = .error then { s with writing := false }
  else s.doWrite cfg seq

/-- The ledger learns of every completion; a failure of the present instance ends it. -/
def settleWrite (seq connection : ℕ) (batch : WriteBatch) (ec : ErrorCode) (bytesWritten : ℕ) : State N :=
  let sizes := batch.buffers.map (fun item => (item.request,item.size))
  let s : State N := { s with ledger := s.ledger.completeBatch sizes bytesWritten }
  if connection = s.connectionSeq ∧ ec ≠ .success ∧ ec ≠ .operationAborted ∧ seq = s.currentSeq then
    s.markDisconnected
  else s

/-- The completion of a gather write. -/
def onWrite (seq connection : ℕ) (batch : WriteBatch) (ec : ErrorCode) (bytesWritten : ℕ) : State N :=
  let current := decide (connection = s.connectionSeq)
  let s := s.settleWrite seq connection batch ec bytesWritten
  if current = false then s.clearBatch batch.token
  else
    let s : State N := { s with activeWrite := none }
    if ec = .operationAborted ∨ seq ≠ s.currentSeq then s.writeAborted cfg batch
    else if ec ≠ .success then s.writeFailed cfg seq batch ec
    else s.writeSucceeded cfg seq batch bytesWritten

/-- The handler that `start` dispatches. -/
def startOn (seq : ℕ) : State N :=
  if seq ≤ s.stopSeq then s
  else (s.markDisconnected.resetIoObjects.transitionTo cfg .connecting .success).doResolveConnect seq

/-- The handler that a plain write posted. After its connection the reservation is
released, after its run it was reset. -/
def onPosted (item : TrackedBuffer) (seq connection : ℕ) : State N :=
  if seq ≠ s.currentSeq then s
  else if connection ≠ s.connectionSeq then
    s.setCounters (releaseReservedLimitBytes s.counters item.size)
  else s.routeEnqueuedBuffer cfg item

/-- The handler that a nonblocking write posted. The drain of its connection has
already removed the reservation. -/
def onTryPosted (item : TrackedBuffer) (seq connection : ℕ) : State N :=
  if seq ≠ s.currentSeq then s
  else if connection ≠ s.connectionSeq then s
  else s.routeTryBuffer cfg item

/-- The handler that a new connection posts. -/
def onKick (seq connection : ℕ) : State N :=
  if seq ≠ s.currentSeq ∨ connection ≠ s.connectionSeq then s
  else if s.writing then s
  else s.doWrite cfg seq

def runHandler : Handler → State N
  | .write item seq connection => s.onPosted cfg item seq connection
  | .tryWrite item seq connection => s.onTryPosted cfg item seq connection
  | .kick seq connection => s.onKick cfg seq connection
  | .start seq => s.startOn cfg seq
  | .stopCleanup => s.stopCleanupWith (notifyState cfg)
  | .failReceive connection run => s.failReceiveOn cfg connection run

/-- What a completion delivers. -/
structure Completion where
  ec : ErrorCode
  n : ℕ
  overflow : Bool
  deriving DecidableEq, Repr

def runCompletion (r : Completion) : Operation → State N
  | .resolve seq => s.onResolve cfg seq r.ec
  | .connectTimer seq => s.onConnectTimeout cfg seq r.ec
  | .connect seq => s.onConnect cfg seq r.ec
  | .handshake seq => s.onHandshake cfg seq r.ec
  | .retryTimer seq => s.onRetry seq r.ec
  | .read seq connection => s.onRead cfg seq connection r.ec r.n r.overflow
  | .write seq connection batch => s.onWrite cfg seq connection batch r.ec r.n
  | .idleTimer seq connection arm => s.onIdle cfg seq connection arm r.ec

/-- The end of every completion handler: the last one of a stopped run completes the
cleanup. -/
def ioCompletion : State N :=
  if s.outstanding.isEmpty ∧ s.cleanupFinished then { s with cleanupDone := true } else s

/-- `start`, ignored while the client is active. -/
def start : State N :=
  if s.state = .connecting ∨ s.state = .connected then s
  else
    let s : State N := { s with backpressureActive := false
                                lifecycleSeq := s.lifecycleSeq + 1
                                currentSeq := s.lifecycleSeq + 1 }
    s.resetStartState.post (.start s.currentSeq)

/-- One step: a call, the oldest posted handler, or the completion of any operation. -/
inductive StepOp
  | caller (op : CallerOp)
  | start
  | handler (script : Script)
  | complete (index : ℕ) (result : Completion) (script : Script)

def step : StepOp → State N
  | .caller op => s.callerStep cfg op
  | .start => s.start
  | .handler script =>
    match s.posted with
    | [] => s
    | handler :: rest =>
      let s : State N := { s with posted := rest, script := script }
      s.runHandler cfg handler
  | .complete index result script =>
    match s.outstanding[index]? with
    | none => s
    | some o =>
      let s : State N := { s with outstanding := s.outstanding.eraseIdx index, script := script }
      (s.runCompletion cfg result o.operation).ioCompletion

def run (ops : List StepOp) : State N := ops.foldl (step cfg) s

end State
end Wirestead.Transport.TcpClient
