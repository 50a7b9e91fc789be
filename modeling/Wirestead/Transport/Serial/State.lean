import Wirestead.Transport.TcpClient.Strand

/-! # The serial transport

The members of `Serial::Impl` that decide when the device is open, with the handlers of
its strand. Each handler is one step, and gives way only at user callbacks. Byte counters
and the send ledger are left out: how a buffer is routed, whether the backpressure level
changes, what the calls of the port report and what the callbacks do is told by a script.
A wait of the retry timer that was cancelled reports so: while the transport is not
stopped, only the handler that armed a wait cancels it. Every other completion may bring
any result. The trace keeps what was opened, lost and written, the newest first, and
the calls that open the port are counted.
-/
namespace Wirestead.Transport.Serial
open TcpClient (LinkState TrackedBuffer takeGatherBatch)

inductive ErrorCode
  | success
  | eof
  | operationAborted
  | other (value : ℕ)
  deriving DecidableEq, Repr

inductive PortOption
  | baudRate
  | charSize
  | stopBits
  | parity
  | flowControl
  deriving DecidableEq, Repr

/-- The `where` of `handle_error`. -/
inductive Where
  | opening
  | configuring (option : PortOption)
  | keepDtrOnClose
  | read
  | write
  | writeQueueOverflow
  | rxIdleTimeout
  | receiveLimit
  deriving DecidableEq, Repr

structure Config where
  reopenOnError : Bool
  keepDtrOnClose : Bool
  stopOnCallbackException : Bool
  rxIdleTimeoutMs : ℕ
  deriving DecidableEq, Repr

/-- A buffer with the connection on which it was accepted. -/
structure Tagged where
  item : TrackedBuffer
  connection : ℕ
  deriving DecidableEq, Repr

inductive Handler
  | start (generation : ℕ)
  | write (item : Tagged) (generation : ℕ)
  | tryWrite (item : Tagged) (generation : ℕ)
  | failReceive (connection run : ℕ)
  | stopCleanup
  deriving DecidableEq, Repr

inductive Operation
  | read (connection : ℕ)
  | write (connection : ℕ) (batch : List Tagged) (bytes : ℕ)
  | rxIdle (connection arm : ℕ)
  | retry
  deriving DecidableEq, Repr

structure Outstanding where
  operation : Operation
  cancelled : Bool
  deriving DecidableEq, Repr

/-- What a user callback or another thread may call. -/
inductive CallOp
  | stop
  | write (item : TrackedBuffer)
  | tryWrite (item : TrackedBuffer)
  deriving DecidableEq, Repr

/-- One user callback; it may report a receive overflow in place. -/
structure Turn where
  before : List CallOp
  fails : Bool
  after : List CallOp

/-- What `report_backpressure` finds. -/
inductive Level
  | same
  | rises
  | falls (again : Bool)
  deriving DecidableEq, Repr

/-- What `decide_enqueue` says. A rejection while backpressure is active is quiet. -/
inductive Route
  | immediate
  | pending
  | rejected (quiet : Bool)
  deriving DecidableEq, Repr

/-- What the calls of the port in `open_and_configure` report. -/
structure OpenReport where
  opening : ErrorCode
  configuring : PortOption → ErrorCode
  keepDtrFails : Bool

/-- The options in the order in which they are set. -/
def PortOption.order : List PortOption := [.baudRate,.charSize,.stopBits,.parity,.flowControl]

namespace OpenReport

def ok : OpenReport := ⟨.success,fun _ => .success,false⟩

/-- The first option that is refused. -/
def refused (report : OpenReport) : Option PortOption :=
  PortOption.order.find? (fun option => report.configuring option ≠ .success)

/-- The call that ends the attempt reports `operation_aborted`. -/
def Aborted (report : OpenReport) : Prop :=
  report.opening = .operationAborted ∨
    report.opening = .success ∧ ∃ option ∈ report.refused, report.configuring option = .operationAborted

end OpenReport

structure Script where
  turns : List Turn
  levels : List Level
  route : Route
  opens : OpenReport
  initiationThrows : Bool
  callbackThrows : Bool

def Script.none : Script := ⟨[],[],.immediate,.ok,false,false⟩

inductive Event
  | opened (connection : ℕ)
  | ended (connection : ℕ)
  | asyncWrite (connection : ℕ) (batch : List Tagged)
  deriving DecidableEq, Repr

structure State where
  started : Bool
  stopping : Bool
  generation : ℕ
  connectionSeq : ℕ
  opened : Bool
  portOpen : Bool
  openCalls : ℕ
  state : LinkState
  cleanupStarted : Bool
  cleanupFinished : Bool
  cleanupDone : Bool
  rxIdleArm : ℕ
  lastError : Option (Where × ErrorCode × Bool)
  tx : List Tagged
  pending : List Tagged
  writing : Bool
  posted : List Handler
  outstanding : List Outstanding
  script : Script
  trace : List Event

namespace State
variable (cfg : Config) (s : State)

def init : State where
  started := false
  stopping := false
  generation := 0
  connectionSeq := 0
  opened := false
  portOpen := false
  openCalls := 0
  state := .idle
  cleanupStarted := false
  cleanupFinished := false
  cleanupDone := false
  rxIdleArm := 0
  lastError := none
  tx := []
  pending := []
  writing := false
  posted := []
  outstanding := []
  script := .none
  trace := []

/-- `mark_disconnected_locked`. -/
def markDisconnected : State :=
  if s.opened then
    { s with opened := false, connectionSeq := s.connectionSeq + 1, trace := .ended s.connectionSeq :: s.trace }
  else s

def discardConnectionWrites : State := { s with tx := [], pending := [], writing := false }

def cancelWhere (p : Operation → Bool) : State :=
  { s with outstanding := s.outstanding.map (fun o => if p o.operation then { o with cancelled := true } else o) }

def startOperation (operation : Operation) : State :=
  { s with outstanding := s.outstanding ++ [⟨operation,false⟩] }

def post (handler : Handler) : State := { s with posted := s.posted ++ [handler] }

def onRetryTimer : Operation → Bool
  | .retry => true
  | _ => false

def onRxIdleTimer : Operation → Bool
  | .rxIdle _ _ => true
  | _ => false

def onPort : Operation → Bool
  | .read _ => true
  | .write _ _ _ => true
  | _ => false

def closePort : State := { (s.cancelWhere onRxIdleTimer).cancelWhere onPort with portOpen := false }

/-- `perform_cleanup` up to the notification. No backpressure is active any more when it
is reported. -/
def release : State :=
  let s := (s.cancelWhere onRetryTimer).markDisconnected.discardConnectionWrites.closePort
  { s with opened := false, state := .closed }

def markCleanupDone : State := { s with started := false, cleanupDone := true }

/-- The user is not told while the transport stops. -/
def performStopCleanup : State :=
  if s.cleanupStarted then s
  else
    let s : State := { { s with cleanupStarted := true }.release with cleanupFinished := true }
    if s.outstanding.isEmpty then s.markCleanupDone else s

/-- `stop`, up to the wait for the cleanup. -/
def stop : State :=
  if s.stopping then s
  else
    let s : State := { s with stopping := true }
    if s.generation = 0 then s.performStopCleanup else s.post .stopCleanup

/-- `admission_rejection`, without the reason. -/
def admits : Bool :=
  !s.stopping && s.generation ≠ 0 && s.state ≠ .closed && s.state ≠ .error && s.opened

def call : CallOp → State
  | .stop => s.stop
  | .write item => if s.admits then s.post (.write ⟨item,s.connectionSeq⟩ s.generation) else s
  | .tryWrite item => if s.admits then s.post (.tryWrite ⟨item,s.connectionSeq⟩ s.generation) else s

def calls (ops : List CallOp) : State := ops.foldl call s

/-- A callback after the loss of the connection, where `fail_receive` returns at once. -/
def quietTurn : State :=
  match s.script.turns with
  | [] => s
  | turn :: rest => { s with script.turns := rest }.calls (turn.before ++ turn.after)

def notifyLost : State := if s.stopping then s else s.quietTurn

def performCleanup : State := s.release.notifyLost

def startRead : State :=
  if s.stopping ∨ ¬s.opened then s else s.startOperation (.read s.connectionSeq)

/-- A new expiry time cancels the wait before it. -/
def scheduleRetry : State :=
  if s.stopping then s else (s.cancelWhere onRetryTimer).startOperation .retry

def retryable (place : Where) : Bool := cfg.reopenOnError && place ≠ .keepDtrOnClose

/-- The end of a connection, or of an attempt to open the device. -/
def fail (place : Where) (ec : ErrorCode) : State :=
  let s : State := { s with lastError := some (place,ec,retryable cfg place) }
  let s := s.markDisconnected.discardConnectionWrites.closePort
  if retryable cfg place then { s with state := .connecting }.notifyLost.scheduleRetry
  else { s with state := .error }.notifyLost

def handleError (place : Where) (ec : ErrorCode) : State :=
  if s.stopping then s
  else if ec = .eof ∧ place = .read then s.startRead
  else if ec = .operationAborted then
    if s.state = .error then s
    else if s.state = .connecting then s
    else s.performCleanup
  else s.fail cfg place ec

def writeConnection : Option ℕ := if s.stopping ∨ ¬s.opened then none else some s.connectionSeq

/-- What the handler of `fail_receive` does. -/
def failReceiveOn (connection run : ℕ) : State :=
  if run ≠ s.generation ∨ s.writeConnection ≠ some connection then s
  else s.handleError cfg .receiveLimit (.other 105)

/-- On the strand the handler is dispatched in place. -/
def failReceiveHere : State :=
  match s.writeConnection with
  | none => s
  | some connection => s.failReceiveOn cfg connection s.generation

def failReceive : State :=
  match s.writeConnection with
  | none => s
  | some connection => s.post (.failReceive connection s.generation)

/-- A user callback. -/
def turn : State :=
  match s.script.turns with
  | [] => s
  | turn :: rest =>
    let s := { s with script.turns := rest }.calls turn.before
    (if turn.fails then s.failReceiveHere cfg else s).calls turn.after

def notifyState : State := if s.stopping then s else s.turn cfg

/-- `report_backpressure`. When the level falls the pending buffers move up. -/
def reportBackpressure : State :=
  if s.stopping then s
  else match s.script.levels with
    | [] => s
    | level :: rest =>
      let s : State := { s with script.levels := rest }
      match level with
      | .same => s
      | .rises => s.turn cfg
      | .falls again =>
        let s := { s with tx := s.tx ++ s.pending, pending := [] }.turn cfg
        if again then s.turn cfg else s

/-- The front of the queue that goes into one gather write. -/
def gather : List Tagged × List Tagged × ℕ :=
  let taken := takeGatherBatch (s.tx.map Tagged.item)
  (s.tx.take taken.1.length,s.tx.drop taken.1.length,taken.2.2)

/-- The handover to the port, which may throw. -/
def asyncWrite (batch : List Tagged) (bytes : ℕ) : State :=
  let s : State := { s with trace := .asyncWrite s.connectionSeq batch :: s.trace }
  if s.script.initiationThrows then s.markDisconnected.handleError cfg .write (.other 105)
  else s.startOperation (.write s.connectionSeq batch bytes)

def doWrite : State :=
  if s.stopping ∨ ¬s.opened ∨ s.tx = [] ∨ s.writing then s
  else
    let batch := s.gather
    { s with writing := true, tx := batch.2.1 }.asyncWrite cfg batch.1 batch.2.2

def resetRxIdleTimer : State :=
  if cfg.rxIdleTimeoutMs = 0 ∨ s.stopping then s
  else
    let s : State := { s.cancelWhere onRxIdleTimer with rxIdleArm := s.rxIdleArm + 1 }
    s.startOperation (.rxIdle s.connectionSeq s.rxIdleArm)

/-- The device is open and configured. -/
def establish : State :=
  { s with connectionSeq := s.connectionSeq + 1
           opened := true
           state := .connected
           trace := .opened (s.connectionSeq + 1) :: s.trace }

def serve : State :=
  ((s.establish.startRead.resetRxIdleTimer cfg).notifyState cfg).doWrite cfg

/-- `open_and_configure`. -/
def openAndConfigure : State :=
  if s.stopping then s
  else
    let s : State := { s with openCalls := s.openCalls + 1 }
    if s.script.opens.opening ≠ .success then s.handleError cfg .opening s.script.opens.opening
    else
      let s : State := { s with portOpen := true }
      match s.script.opens.refused with
      | some option => s.handleError cfg (.configuring option) (s.script.opens.configuring option)
      | none =>
        if cfg.keepDtrOnClose ∧ s.script.opens.keepDtrFails then s.handleError cfg .keepDtrOnClose (.other 95)
        else s.serve cfg

def onRead (connection : ℕ) (ec : ErrorCode) (n : ℕ) : State :=
  if s.stopping ∨ connection ≠ s.connectionSeq then s
  else if ec ≠ .success then s.handleError cfg .read ec
  else
    let s := (if n > 0 then s.resetRxIdleTimer cfg else s).turn cfg
    if s.script.callbackThrows ∧ cfg.stopOnCallbackException then s.stop else s.startRead

/-- The completion of a gather write. A short write counts as a reset connection. -/
def onWrite (connection : ℕ) (batch : List Tagged) (bytes : ℕ) (ec : ErrorCode) (written : ℕ) : State :=
  let ec := if ec = .success ∧ written < bytes then .other 104 else ec
  if connection ≠ s.connectionSeq then s
  else
    let s := if ec ≠ .success then s.markDisconnected else s
    let s : State := { s with writing := false }
    if s.stopping then s
    else if ec ≠ .success then { s with tx := batch ++ s.tx }.handleError cfg .write ec
    else (s.reportBackpressure cfg).doWrite cfg

def onRxIdle (connection arm : ℕ) (ec : ErrorCode) : State :=
  if ec ≠ .success ∨ arm ≠ s.rxIdleArm ∨ s.stopping ∨ ¬s.opened ∨ connection ≠ s.connectionSeq then s
  else s.handleError cfg .rxIdleTimeout (.other 110)

def onRetry (ec : ErrorCode) : State :=
  if ec = .success ∧ ¬s.stopping then s.openAndConfigure cfg else s

/-- The last lines of both routes into the queue. -/
def queueThenWrite (item : Tagged) : State :=
  let s := { s with tx := s.tx ++ [item] }.reportBackpressure cfg
  if s.writing then s else s.doWrite cfg

/-- A rejection that was not announced by backpressure is fatal. -/
def routeEnqueuedBuffer (item : Tagged) : State :=
  if s.stopping then s
  else match s.script.route with
    | .rejected true => s
    | .rejected false =>
      let s := (s.reportBackpressure cfg).markDisconnected.discardConnectionWrites
      { s with state := .error }.notifyLost.handleError cfg .writeQueueOverflow (.other 105)
    | .pending => { s with pending := s.pending ++ [item] }
    | .immediate => s.queueThenWrite cfg item

def onPosted (item : Tagged) (generation : ℕ) : State :=
  if generation ≠ s.generation ∨ item.connection ≠ s.connectionSeq then s else s.routeEnqueuedBuffer cfg item

def onTryPosted (item : Tagged) (generation : ℕ) : State :=
  if generation ≠ s.generation ∨ item.connection ≠ s.connectionSeq then s
  else if s.stopping ∨ s.state = .closed ∨ s.state = .error then s
  else s.queueThenWrite cfg item

def startOn (generation : ℕ) : State :=
  if generation ≠ s.generation ∨ s.stopping then s
  else ({ s with state := .connecting }.notifyState cfg).openAndConfigure cfg

def runHandler : Handler → State
  | .start generation => s.startOn cfg generation
  | .write item generation => s.onPosted cfg item generation
  | .tryWrite item generation => s.onTryPosted cfg item generation
  | .failReceive connection run => s.failReceiveOn cfg connection run
  | .stopCleanup => s.performStopCleanup

/-- What a completion delivers. -/
structure Completion where
  ec : ErrorCode
  n : ℕ
  deriving DecidableEq, Repr

def runCompletion (o : Outstanding) (r : Completion) : State :=
  match o.operation with
  | .read connection => s.onRead cfg connection r.ec r.n
  | .write connection batch bytes => s.onWrite cfg connection batch bytes r.ec r.n
  | .rxIdle connection arm => s.onRxIdle cfg connection arm r.ec
  | .retry => s.onRetry cfg (if o.cancelled then .operationAborted else .success)

/-- The last completion of a stopped run ends the cleanup. -/
def ioCompletion : State :=
  if s.outstanding.isEmpty ∧ s.cleanupFinished then s.markCleanupDone else s

def start : State :=
  if s.started then s
  else
    let s : State := { s with generation := s.generation + 1
                              cleanupDone := false
                              cleanupStarted := false
                              cleanupFinished := false
                              stopping := false
                              opened := false
                              state := .idle
                              started := true }
    s.post (.start s.generation)

/-- One step: a call, the oldest posted handler, or the completion of any operation. -/
inductive StepOp
  | start
  | call (op : CallOp)
  | failReceive
  | handler (script : Script)
  | complete (index : ℕ) (result : Completion) (script : Script)

def step : StepOp → State
  | .start => s.start
  | .call op => s.call op
  | .failReceive => s.failReceive
  | .handler script =>
    match s.posted with
    | [] => s
    | handler :: rest => { s with posted := rest, script := script }.runHandler cfg handler
  | .complete index result script =>
    match s.outstanding[index]? with
    | none => s
    | some o =>
      let s : State := { s with outstanding := s.outstanding.eraseIdx index, script := script }
      (s.runCompletion cfg o result).ioCompletion

def run (ops : List StepOp) : State := ops.foldl (step cfg) s

/-- The waits on the retry timer that were not cancelled. -/
def armedRetries : ℕ := s.outstanding.countP (fun o => !o.cancelled && onRetryTimer o.operation)

end State
end Wirestead.Transport.Serial
