import Wirestead.Transport.TcpClient.Sender
import Wirestead.Transport.TcpServer.State

/-! # A session of a stream server

`TcpServerSession`, and `UdsServerSession` where it does the same: what is written goes
through one queue into gather writes, what is read goes to a callback, and the session is
closed once. A handler on the strand is one step; user callbacks, other threads wherever no
lock is held, and completions may call the session meanwhile, as a script tells. The events
keep what has happened, the oldest first.
-/
namespace Wirestead.Transport.ServerSession
open Diagnostics Sizes TcpClient

inductive Kind
  | tcp
  | uds
  deriving DecidableEq, Repr

structure Config extends TcpServer.Config where
  kind : Kind
  idleTimeoutMs : ℤ

def Config.bpLow (cfg : Config) : ℕ :=
  let low := if cfg.bpHigh > 1 then cfg.bpHigh / 2 else cfg.bpHigh
  if low = 0 then 1 else low

/-- The user callbacks of a session. -/
inductive Callback
  | bytes
  | backpressure
  | close
  deriving DecidableEq, Repr

inductive Entry
  | copy
  | move
  | shared
  | tryCopy
  | tryMove
  | tryShared
  deriving DecidableEq, Repr

/-- What is posted to the strand, in order. -/
inductive Post
  | start
  | handshaken (failed : Bool)
  | enqueue (item : TrackedBuffer)
  | tryEnqueue (item : TrackedBuffer)
  | written (bytesToWrite : ℕ) (failed : Bool) (n : ℕ)
  | readDone (failed : Bool) (data : List UInt8)
  | idle
  | setCallback (callback : Callback) (given : Bool)
  | cancel
  | stop
  deriving DecidableEq, Repr

/-- Calls from any thread, and completions of what was started. A null pointer is an empty
payload; `dispatch` runs at once when the caller is on the strand. -/
inductive CallOp
  | write (data : List UInt8) (entry : Entry)
  | start
  | setCallback (callback : Callback) (given onStrand : Bool)
  | cancel (onStrand : Bool)
  | requestStop
  | cancelWriteWait
  | asyncStop
  | resetStats
  | handshakeDone (failed : Bool)
  | writeDone (failed : Bool) (n : ℕ)
  | readDone (failed : Bool) (data : List UInt8)
  | timerExpired
  deriving DecidableEq, Repr

/-- What happens inside a handler: the calls at each place where others may run, whether
`async_write` throws, whether the idle timer was armed again before its expiry ran, and
whether the receiver gives up on the client. -/
structure Script where
  turns : List (List CallOp)
  initiationThrows : Bool
  rearmed : Bool
  failsReceive : Bool

inductive Event
  | accepted (plain : Bool) (item : TrackedBuffer)
  | handed (batch : List TrackedBuffer)
  | connected
  | bytes (data : List UInt8)
  | backpressure (queuedBytes : ℕ)
  | closed
  | stopped
  deriving DecidableEq, Repr

structure Session (N : Type*) where
  alive : Bool
  closing : Bool
  cleanupDone : Bool
  waitEndedBy : Option SendRejection
  counters : Counters
  backpressureActive : Bool
  tx : List TrackedBuffer
  pending : List TrackedBuffer
  currentWriteBatch : List TrackedBuffer
  writing : Bool
  ledger : Ledger N
  callbacks : Callback → Bool
  idleArmed : Bool
  /-- The handshakes, reads and the write that have not completed. -/
  handshakes : ℕ
  reads : ℕ
  writeOp : Option ℕ
  queue : List Post
  script : Script
  events : List Event

namespace Session
variable {N : Type*} [CommRing N] (cfg : Config) (s : Session N)

/-- A session that has been constructed. -/
def new : Session N where
  alive := false
  closing := false
  cleanupDone := false
  waitEndedBy := none
  counters := .zero
  backpressureActive := false
  tx := []
  pending := []
  currentWriteBatch := []
  writing := false
  ledger := .new
  callbacks := fun _ => false
  idleArmed := false
  handshakes := 0
  reads := 0
  writeOp := none
  queue := []
  script := ⟨[],false,false,false⟩
  events := []

omit [CommRing N] in
def isOpen : Bool := s.alive && !s.closing

omit [CommRing N] in
def post (post : Post) : Session N := { s with queue := s.queue ++ [post] }

omit [CommRing N] in
/-- `poll_write_wait`; `none` where the caller has to wait. -/
def pollWriteWait : Option WriteOutcome :=
  match s.waitEndedBy with
  | some reason => some (.reject reason)
  | none =>
    if s.isOpen = false then some (.reject .notReady)
    else if s.backpressureActive = false then some .accept
    else none

section Admission
variable (data : List UInt8)

omit [CommRing N] in
/-- The checks of every write, in their order. -/
def refusal : Option SendRejection :=
  if s.isOpen = false then some .notReady
  else if data = [] then some .invalidArgument
  else if data.length > maxBufferSize then some .tooLarge
  else none

/-- The request gets an id and its handler is posted. -/
def accept (counters : Counters) (plain : Bool) : Session N × WriteOutcome :=
  let admitted := s.ledger.admitRequest data.length none
  let item : TrackedBuffer := ⟨data,admitted.2⟩
  ({ s with counters := counters
            ledger := admitted.1
            queue := s.queue ++ [if plain then .enqueue item else .tryEnqueue item]
            events := s.events ++ [.accepted plain item] },.accept)

/-- A plain write reserves bytes in flight. -/
def reservePlain : Session N × WriteOutcome :=
  match s.refusal data with
  | some reason => (s,.reject reason)
  | none =>
    match tryReserveLimitBytes s.counters data.length cfg.bpLimit with
    | some (true,counters) => s.accept data counters true
    | _ => (s,.reject .wouldBlock)

/-- A nonblocking write reserves room in the queue. -/
def reserveTry : Session N × WriteOutcome :=
  match s.refusal data with
  | some reason => (s,.reject reason)
  | none =>
    if s.backpressureActive ∨ add s.counters.queueBytes data.length > cfg.bpHigh ∨
        add (add s.counters.queueBytes s.counters.pendingBytes) data.length > cfg.bpLimit then
      (s,.reject .wouldBlock)
    else
      match tryReserveWriteBytesLocked s.counters s.backpressureActive data.length cfg.bpHigh cfg.bpLimit with
      | some (true,counters) => s.accept data counters false
      | _ => (s,.reject .wouldBlock)

/-- The copy, pooled or not, holds the bytes of the caller. -/
def writeCopy : Session N × WriteOutcome := s.reservePlain cfg data

def writeMove : Session N × WriteOutcome := s.reservePlain cfg data

def writeShared : Session N × WriteOutcome := s.reservePlain cfg data

def tryWriteMove : Session N × WriteOutcome := s.reserveTry cfg data

def tryWriteShared : Session N × WriteOutcome := s.reserveTry cfg data

/-- The size is checked before the session is. -/
def tryWriteCopy : Session N × WriteOutcome :=
  if data = [] then (s,.reject .invalidArgument)
  else if data.length > maxBufferSize then (s,.reject .tooLarge)
  else s.tryWriteMove cfg data

def write : Entry → Session N × WriteOutcome
  | .copy => s.writeCopy cfg data
  | .move => s.writeMove cfg data
  | .shared => s.writeShared cfg data
  | .tryCopy => s.tryWriteCopy cfg data
  | .tryMove => s.tryWriteMove cfg data
  | .tryShared => s.tryWriteShared cfg data

end Admission

/-- `start_with_notification`. Only the TCP session looks whether it has started. -/
def start : Session N :=
  if cfg.kind = .tcp ∧ s.alive then s else { s with alive := true }.post .start

omit [CommRing N] in
/-- The handler of a setter. Only the TCP session looks at `cleanup_done_`. -/
def onSetCallback (callback : Callback) (given : Bool) : Session N :=
  if s.closing ∨ (cfg.kind = .tcp ∧ s.cleanupDone) then s
  else { s with callbacks := Function.update s.callbacks callback given }

omit [CommRing N] in
/-- The socket is closed; what is outstanding completes. -/
def onCancel : Session N := { s with idleArmed := false }

omit [CommRing N] in
/-- The first reason stays. -/
def endWait (reason : SendRejection) : Session N :=
  if s.waitEndedBy.isNone then { s with waitEndedBy := some reason } else s

def requestStop : Session N :=
  { s with ledger := s.ledger.endAll .explicitStop, closing := true }.endWait .cancelledWhileWaiting

def asyncStop : Session N :=
  ({ s with ledger := s.ledger.endAll .explicitStop, closing := true }.endWait .notReady).post .stop

def call : CallOp → Session N
  | .write data entry => (s.write cfg data entry).1
  | .start => s.start cfg
  | .setCallback callback given onStrand =>
    if onStrand then s.onSetCallback cfg callback given else s.post (.setCallback callback given)
  | .cancel onStrand => if onStrand then s.onCancel else s.post .cancel
  | .requestStop => s.requestStop
  | .cancelWriteWait => s.endWait .cancelledWhileWaiting
  | .asyncStop => s.asyncStop
  | .resetStats => { s with ledger := s.ledger.reset }
  | .handshakeDone failed =>
    if s.handshakes = 0 then s else { s with handshakes := s.handshakes - 1 }.post (.handshaken failed)
  | .writeDone failed n =>
    match s.writeOp with
    | none => s
    | some bytesToWrite => { s with writeOp := none }.post (.written bytesToWrite failed n)
  | .readDone failed data => if s.reads = 0 then s else { s with reads := s.reads - 1 }.post (.readDone failed data)
  | .timerExpired => if s.idleArmed then { s with idleArmed := false }.post .idle else s

def calls (ops : List CallOp) : Session N := ops.foldl (call cfg) s

/-- A place where others may run. -/
def turn : Session N :=
  match s.script.turns with
  | [] => s
  | ops :: rest => { s with script := { s.script with turns := rest } }.calls cfg ops

omit [CommRing N] in
def emit (event : Event) : Session N := { s with events := s.events ++ [event] }

/-- A user callback, if it is set. -/
def invoke (callback : Callback) (event : Event) : Session N :=
  if s.callbacks callback then (s.emit event).turn cfg else s

omit [CommRing N] in
def resetIdleTimer : Session N := if cfg.idleTimeoutMs ≤ 0 then s else { s with idleArmed := true }

omit [CommRing N] in
def startRead : Session N := if s.isOpen = false then s else { s with reads := s.reads + 1 }

/-- The queues are dropped and a waiter is told when pressure was on. -/
def drain : Session N :=
  let active := s.backpressureActive
  let s : Session N := { s with tx := []
                                pending := []
                                counters := ⟨0,0,s.counters.inflightBytes⟩
                                backpressureActive := false }
  if active then s.invoke cfg .backpressure (.backpressure 0) else s

/-- `do_close`. -/
def doClose : Session N :=
  if s.cleanupDone then s
  else
    let announce := s.callbacks .close
    let s : Session N := { s with cleanupDone := true
                                  ledger := s.ledger.endAll .connectionLoss
                                  alive := false
                                  closing := true }.endWait .notReady
    let s : Session N := { s with callbacks := Function.update s.callbacks .close false
                                  writing := if cfg.kind = .uds then false else s.writing }
    let s := s.drain cfg
    let s : Session N := { s with callbacks := fun _ => false, idleArmed := false }
    if announce then (s.emit .closed).turn cfg else s

/-- `fail_receive` of the server, which a callback calls on the strand. -/
def failReceive : Session N := if s.script.failsReceive then s.doClose cfg else s

omit [CommRing N] in
/-- `flush_pending_into_tx`: the bytes moved and the state after. -/
def flushPendingIntoTx : ℕ × Session N :=
  (s.counters.pendingBytes,
    { s with tx := s.tx ++ s.pending
             pending := []
             counters.pendingBytes := 0 })

/-- The references and hooks of `report_backpressure`. -/
def bpFields (kick : Session N → Session N) : BackpressureFields (Session N) where
  bpHigh := cfg.bpHigh
  bpLow := cfg.bpLow
  backpressureActive s := s.backpressureActive
  setBackpressureActive b s := { s with backpressureActive := b }
  queueBytes s := s.counters.queueBytes
  setQueueBytes n s := { s with counters.queueBytes := n }
  onBackpressure n s := s.invoke cfg .backpressure (.backpressure n)
  flushPendingIntoTx s := s.flushPendingIntoTx
  kickWrite s := if s.writing then s else kick s

def reportBackpressure (kick : Session N → Session N) (queuedBytes : ℕ) : Session N :=
  if s.isOpen = false then s else Transport.reportBackpressure (bpFields cfg kick) queuedBytes s

/-- The handover of a batch, which may throw; no lock is held. -/
def handOver (bytesToWrite : ℕ) : Session N :=
  if s.script.initiationThrows then
    ({ s with ledger := s.ledger.endAll .connectionLoss, closing := true }.endWait .notReady).doClose cfg
  else { s with writeOp := some bytesToWrite, events := s.events ++ [.handed s.currentWriteBatch] }

def doWrite : Session N :=
  let s := s.turn cfg
  if s.isOpen = false ∨ s.tx = [] ∨ s.writing then s
  else
    let batch := takeGatherBatch s.tx
    let s : Session N := { s with writing := true
                                  tx := batch.2.1
                                  currentWriteBatch := batch.1
                                  ledger := (s.ledger.beginBatch (batch.1.map TrackedBuffer.request)).1 }
    (s.turn cfg).handOver cfg batch.2.2

def report (queuedBytes : ℕ) : Session N := s.reportBackpressure cfg (doWrite cfg) queuedBytes

omit [CommRing N] in
def kick (f : Session N → Session N) : Session N := if s.writing then s else f s

/-- `route_enqueued_buffer`. -/
def routeEnqueuedBuffer (item : TrackedBuffer) : Session N :=
  match decideEnqueue s.counters.queueBytes s.counters.pendingBytes s.backpressureActive item.size cfg.bpLimit with
  | some .pending =>
    let s := s.turn cfg
    { s with counters := commitReservedLimitBytes s.counters .pending item.size, pending := s.pending ++ [item] }
  | some .immediate =>
    let s := s.turn cfg
    let s : Session N :=
      { s with counters := commitReservedLimitBytes s.counters .queue item.size, tx := s.tx ++ [item] }
    (s.report cfg s.counters.queueBytes).kick (doWrite cfg)
  | _ =>
    let s : Session N := { s with ledger := s.ledger.discard item.request .queuePressure
                                  counters := releaseReservedLimitBytes s.counters item.size }
    s.report cfg (add s.counters.queueBytes item.size)

/-- The handler of a plain write. -/
def onEnqueue (item : TrackedBuffer) : Session N :=
  if s.isOpen = false then { s with counters := releaseReservedLimitBytes s.counters item.size }
  else (s.turn cfg).routeEnqueuedBuffer cfg item

/-- The handler of a nonblocking write. -/
def onTryEnqueue (item : TrackedBuffer) : Session N :=
  if s.isOpen = false then { s with counters := releaseReservedWriteBytes s.counters item.size }
  else
    let s : Session N := { s with tx := s.tx ++ [item] }
    (s.report cfg s.counters.queueBytes).kick (doWrite cfg)

/-- The bytes of a completed write are released and the next one starts. -/
def afterWrite (bytesToWrite : ℕ) : Session N :=
  let s : Session N := { s with counters := releaseReservedWriteBytes s.counters bytesToWrite }
  let s : Session N := { s.report cfg s.counters.queueBytes with writing := false }
  match cfg.kind with
  | .tcp => if s.isOpen = false then s else (s.resetIdleTimer cfg).doWrite cfg
  | .uds => s.doWrite cfg

/-- The completion of a write. A short one counts as failed. -/
def onWritten (bytesToWrite : ℕ) (failed : Bool) (n : ℕ) : Session N :=
  if s.isOpen = false then { s with currentWriteBatch := [] }
  else
    let failed := failed || n ≠ bytesToWrite
    let batch := s.currentWriteBatch.map (fun item => (item.request,item.size))
    let s : Session N := { s with ledger := s.ledger.completeBatch batch (min n bytesToWrite), currentWriteBatch := [] }
    if failed then
      ({ s with ledger := s.ledger.endAll .connectionLoss, closing := true }.endWait .notReady).doClose cfg
    else (s.turn cfg).afterWrite cfg bytesToWrite

/-- A session that starts tells the server, and reads after its handshake or at once. -/
def onStart : Session N :=
  if s.isOpen = false then s
  else
    match cfg.kind with
    | .tcp =>
      let s : Session N := { s.resetIdleTimer cfg with handshakes := s.handshakes + 1 }
      ((s.emit .connected).turn cfg).failReceive cfg
    | .uds =>
      let s := ((s.emit .connected).turn cfg).failReceive cfg
      if s.isOpen = false then s else (s.resetIdleTimer cfg).startRead

def onHandshaken (failed : Bool) : Session N :=
  if s.isOpen = false then s
  else if failed then s.doClose cfg
  else (s.resetIdleTimer cfg).startRead

/-- The callback of what was read. -/
def invokeBytes (data : List UInt8) : Session N :=
  if s.callbacks .bytes then ((s.emit (.bytes data)).turn cfg).failReceive cfg else s

/-- What was read goes to the callback before the next read starts. -/
def onReadDone (failed : Bool) (data : List UInt8) : Session N :=
  if s.isOpen = false then s
  else if failed then s.doClose cfg
  else
    match cfg.kind with
    | .tcp => ((s.resetIdleTimer cfg).invokeBytes cfg data).startRead
    | .uds =>
      let s := s.invokeBytes cfg data
      if s.isOpen = false then s else (s.resetIdleTimer cfg).startRead

/-- An expiry that was queued before the timer was armed again is stale. -/
def onIdle : Session N :=
  if s.idleArmed ∧ s.script.rearmed then s
  else if s.isOpen = false then s
  else s.doClose cfg

/-- The handler of `async_stop`; the callbacks are dropped first. -/
def onStop : Session N :=
  (({ s with callbacks := fun _ => false, idleArmed := false }.doClose cfg).emit .stopped).turn cfg

def runPost : Post → Session N
  | .start => s.onStart cfg
  | .handshaken failed => s.onHandshaken cfg failed
  | .enqueue item => s.onEnqueue cfg item
  | .tryEnqueue item => s.onTryEnqueue cfg item
  | .written bytesToWrite failed n => s.onWritten cfg bytesToWrite failed n
  | .readDone failed data => s.onReadDone cfg failed data
  | .idle => s.onIdle cfg
  | .setCallback callback given => s.onSetCallback cfg callback given
  | .cancel => s.onCancel
  | .stop => s.onStop cfg

/-- One step: a call from any thread, or the oldest handler. -/
inductive StepOp
  | call (op : CallOp)
  | handler (script : Script)

def step : StepOp → Session N
  | .call op => s.call cfg op
  | .handler script =>
    match s.queue with
    | [] => s
    | post :: rest => { s with queue := rest, script := script }.runPost cfg post

def run (ops : List StepOp) : Session N := ops.foldl (step cfg) s

end Session
end Wirestead.Transport.ServerSession
