import Wirestead.Transport.TcpClient.Strand

/-! # The UDS client transport

The members of `UdsClient::Impl` that decide when the client connects, gives up and is
connected, with the handlers of its strand. Byte counters, backpressure and the send
ledger are left out: whether the ledger takes a batch is open. A user callback may stop
the client; a script says at which ones it does.
-/
namespace Wirestead.Transport.UdsClient
open TcpClient (LinkState ErrorCode ErrorInfo SendRejection TrackedBuffer TcpWriteWait takeGatherBatch)

def isRetryableUdsConnectError : ErrorCode → Bool
  | .success => false
  | .connectionRefused => true
  | .timedOut => true
  | .tryAgain => true
  | .operationAborted => false
  | _ => true

structure Settings where
  maxRetries : ℤ
  reconnectPolicy : Option (ErrorInfo → ℕ → Bool)

/-- `decide_reconnect_uds` is the shared decider. -/
def decideReconnectUds (settings : Settings) (info : ErrorInfo) (attemptCount : ℕ) : Bool :=
  TcpClient.decideReconnect ⟨settings.maxRetries,settings.reconnectPolicy,0,.close⟩ info attemptCount

/-- What `do_connect` finds about the socket path. -/
inductive PathCheck
  | ok
  | invalid
  | tooLong
  deriving DecidableEq, Repr

inductive Handler
  | start (seq : ℕ)
  | write (item : TrackedBuffer) (seq connection : ℕ)
  | failReceive (connection run : ℕ)
  | stopCleanup
  deriving DecidableEq, Repr

inductive Operation
  | connectTimer (seq : ℕ)
  | connect (seq : ℕ)
  | retryTimer (seq : ℕ)
  | read (seq connection : ℕ)
  | write (seq connection : ℕ) (buffers : List TrackedBuffer) (bytes : ℕ)
  deriving DecidableEq, Repr

structure Outstanding where
  operation : Operation
  cancelled : Bool
  deriving DecidableEq, Repr

/-- Which user callbacks stop the client, in order, whether the ledger refuses a batch and
whether the start of a write throws. -/
structure Script where
  stops : List Bool
  ledgerRefuses : Bool
  initiationThrows : Bool
  deriving DecidableEq, Repr

def Script.none : Script := ⟨[],false,false⟩

structure State where
  currentSeq : ℕ
  connectionSeq : ℕ
  stopRequested : Bool
  stopping : Bool
  connected : Bool
  state : LinkState
  retryAttempts : ℕ
  reconnectAttemptCount : ℕ
  lastError : Option ErrorInfo
  settings : Settings
  writeWaits : List TcpWriteWait
  tx : List TrackedBuffer
  writing : Bool
  posted : List Handler
  outstanding : List Outstanding
  script : Script

namespace State
variable (path : PathCheck) (s : State)

def init (settings : Settings) : State where
  currentSeq := 0
  connectionSeq := 0
  stopRequested := false
  stopping := false
  connected := false
  state := .idle
  retryAttempts := 0
  reconnectAttemptCount := 0
  lastError := none
  settings := settings
  writeWaits := []
  tx := []
  writing := false
  posted := []
  outstanding := []
  script := .none

def endWriteWait (reason : SendRejection) : State :=
  { s with writeWaits := s.writeWaits.modify (s.writeWaits.length - 1) (·.end reason) }

/-- `mark_disconnected_locked`. -/
def markDisconnected : State :=
  if s.connected then
    let s := { s with connected := false }.endWriteWait .notReady
    { s with connectionSeq := s.connectionSeq + 1 }
  else s

def cancelWhere (p : Operation → Bool) : State :=
  { s with outstanding := s.outstanding.map (fun o => if p o.operation then { o with cancelled := true } else o) }

def startOperation (operation : Operation) : State :=
  { s with outstanding := s.outstanding ++ [⟨operation,false⟩] }

def post (handler : Handler) : State := { s with posted := s.posted ++ [handler] }

def onSocket : Operation → Bool
  | .connect _ => true
  | .read _ _ => true
  | .write _ _ _ _ => true
  | _ => false

def onConnectTimer : Operation → Bool
  | .connectTimer _ => true
  | _ => false

def onRetryTimer : Operation → Bool
  | .retryTimer _ => true
  | _ => false

def closeSocket : State := s.cancelWhere onSocket

def recordError (operation : String) (code : ErrorCode) (retryable : Bool) : State :=
  { s with lastError := some ⟨operation,code,retryable,s.reconnectAttemptCount⟩ }

def performStopCleanup : State :=
  let s := ((s.cancelWhere onRetryTimer).cancelWhere onConnectTimer).closeSocket
  { s with tx := [], writing := false, connected := false, state := .idle }

def stop : State :=
  if s.stopRequested then s
  else
    let s := { s with stopRequested := true }.endWriteWait .cancelledWhileWaiting
    let s := { s with stopping := true, connected := false }
    if s.currentSeq = 0 then s.performStopCleanup else s.post .stopCleanup

/-- A user callback. -/
def giveWay : State :=
  match s.script.stops with
  | [] => s
  | stops :: rest =>
    let s := { s with script.stops := rest }
    if stops then s.stop else s

/-- `transition_to` always sets the state and tells the user. -/
def transitionTo (next : LinkState) : State := { s with state := next }.giveWay

def writeConnection : Option ℕ := if s.stopRequested ∨ ¬s.connected then none else some s.connectionSeq

/-- The waits on the connect timer and the connect itself begin together. -/
def doConnect (seq : ℕ) : State :=
  if s.stopRequested ∨ s.stopping ∨ seq ≠ s.currentSeq then s
  else match path with
    | .invalid => (s.recordError "connect" .invalidArgument false).transitionTo .error
    | .tooLong => (s.recordError "connect" (.other 36) false).transitionTo .error
    | .ok => ((s.cancelWhere onConnectTimer).startOperation (.connectTimer seq)).startOperation (.connect seq)

/-- The error that `schedule_retry` makes up. -/
def dummyError : ErrorInfo := ⟨"connect",.success,true,0⟩

/-- The user may stop the client while it is told of the retry. -/
def armRetry (seq : ℕ) : State :=
  let s := s.transitionTo .connecting
  if s.stopRequested ∨ s.stopping then s
  else
    let s : State := { s with reconnectAttemptCount := (s.reconnectAttemptCount + 1) % 2 ^ 32 }
    (s.cancelWhere onRetryTimer).startOperation (.retryTimer seq)

def scheduleRetry (seq : ℕ) : State :=
  if s.stopRequested ∨ s.stopping then s
  else if decideReconnectUds s.settings dummyError s.reconnectAttemptCount then s.armRetry seq
  else s.transitionTo .error

def recordClose (ec : ErrorCode) : State :=
  if ec ≠ .success ∧ ec ≠ .timedOut then s.recordError "connection" ec true else s

def discardConnectionWrites : State := { s with tx := [], writing := false }

def handleClose (seq : ℕ) (ec : ErrorCode) : State :=
  if ec = .operationAborted ∨ seq ≠ s.currentSeq then s
  else
    let s := (s.recordClose ec).markDisconnected.discardConnectionWrites.closeSocket
    let s := (s.cancelWhere onRetryTimer).cancelWhere onConnectTimer
    if s.stopRequested then s.transitionTo .idle else s.scheduleRetry seq

def startRead (seq : ℕ) : State :=
  if s.stopRequested ∨ seq ≠ s.currentSeq ∨ ¬s.connected then s
  else s.startOperation (.read seq s.connectionSeq)

def initiateWrite (seq : ℕ) (buffers : List TrackedBuffer) (bytes : ℕ) : State :=
  if s.script.initiationThrows then s.markDisconnected.handleClose seq .noBufferSpace
  else s.startOperation (.write seq s.connectionSeq buffers bytes)

def doWrite (seq : ℕ) : State :=
  if s.stopRequested ∨ seq ≠ s.currentSeq ∨ ¬s.connected ∨ s.tx = [] ∨ s.writing then s
  else
    let batch := takeGatherBatch s.tx
    if s.script.ledgerRefuses then s
    else { s with tx := batch.2.1, writing := true }.initiateWrite seq batch.1 batch.2.2

/-- A connection is made: a new instance, and counters at zero. -/
def establish : State :=
  { s with connectionSeq := s.connectionSeq + 1
           writeWaits := s.writeWaits ++ [⟨s.connectionSeq + 1,none⟩]
           connected := true
           reconnectAttemptCount := 0
           retryAttempts := 0 }

def onConnect (seq : ℕ) (ec : ErrorCode) : State :=
  let s := s.cancelWhere onConnectTimer
  if ec = .operationAborted ∨ seq ≠ s.currentSeq then s
  else if s.stopRequested ∨ s.stopping then s.closeSocket
  else if ec ≠ .success then (s.recordError "connect" ec (isRetryableUdsConnectError ec)).scheduleRetry seq
  else
    let s := (s.establish.transitionTo .connected).startRead seq
    { s with writing := false }.doWrite seq

def onConnectTimeout (seq : ℕ) (ec : ErrorCode) : State :=
  if ec = .operationAborted ∨ seq ≠ s.currentSeq then s
  else if ec = .success then (s.recordError "connect" .timedOut true).handleClose seq .timedOut
  else s

def onRetry (seq : ℕ) (ec : ErrorCode) : State :=
  if ec = .operationAborted ∨ seq ≠ s.currentSeq then s else s.doConnect path seq

/-- What the handler of `fail_receive` does. -/
def failReceiveOn (connection run : ℕ) : State :=
  if run ≠ s.currentSeq ∨ s.writeConnection ≠ some connection then s
  else s.handleClose run .noBufferSpace

/-- On the strand the handler is dispatched in place. -/
def failReceiveHere : State :=
  match s.writeConnection with
  | none => s
  | some connection => s.failReceiveOn connection s.currentSeq

def failReceive : State :=
  match s.writeConnection with
  | none => s
  | some connection => s.post (.failReceive connection s.currentSeq)

/-- The receive callback. -/
def deliver (overflow : Bool) : State :=
  let s := s.giveWay
  if overflow then s.failReceiveHere else s

def onRead (seq connection : ℕ) (ec : ErrorCode) (overflow : Bool) : State :=
  if ec = .operationAborted ∨ seq ≠ s.currentSeq ∨ connection ≠ s.connectionSeq ∨ s.stopRequested then s
  else if ec ≠ .success then s.handleClose seq ec
  else (s.deliver overflow).startRead seq

/-- The completion of a gather write. A short write counts as a reset connection. -/
def onWrite (seq connection : ℕ) (buffers : List TrackedBuffer) (bytes : ℕ) (ec : ErrorCode) (written : ℕ) :
    State :=
  let ec := if ec = .success ∧ written < bytes then .connectionReset else ec
  let current := decide (connection = s.connectionSeq)
  let s := if current ∧ ec ≠ .success then s.markDisconnected else s
  if current = false then s
  else
    let s : State := { s with writing := false }
    if s.stopRequested ∨ seq ≠ s.currentSeq then s
    else if ec ≠ .success then { s with tx := buffers ++ s.tx }.handleClose seq ec
    else s.giveWay.doWrite seq

/-- The handlers that write calls posted; the payload is queued. -/
def onPosted (item : TrackedBuffer) (seq connection : ℕ) : State :=
  if seq ≠ s.currentSeq ∨ connection ≠ s.connectionSeq then s
  else if s.stopRequested ∨ s.state = .closed ∨ s.state = .error then s
  else
    let s := { s with tx := s.tx ++ [item] }.giveWay
    if s.writing then s else s.doWrite s.currentSeq

def startOn (seq : ℕ) : State :=
  if s.stopRequested ∨ seq ≠ s.currentSeq then s else (s.transitionTo .connecting).doConnect path seq

def runHandler : Handler → State
  | .start seq => s.startOn path seq
  | .write item seq connection => s.onPosted item seq connection
  | .failReceive connection run => s.failReceiveOn connection run
  | .stopCleanup => s.performStopCleanup

/-- What a completion delivers. -/
structure Completion where
  ec : ErrorCode
  n : ℕ
  overflow : Bool
  deriving DecidableEq, Repr

def runCompletion (r : Completion) : Operation → State
  | .connectTimer seq => s.onConnectTimeout seq r.ec
  | .connect seq => s.onConnect seq r.ec
  | .retryTimer seq => s.onRetry path seq r.ec
  | .read seq connection => s.onRead seq connection r.ec r.overflow
  | .write seq connection buffers bytes => s.onWrite seq connection buffers bytes r.ec r.n

/-- `start`. The attempt counters stay as they were. -/
def start : State :=
  if s.state = .connecting ∨ s.state = .connected then s
  else
    let s : State := { s with stopRequested := false, stopping := false, currentSeq := s.currentSeq + 1 }
    s.post (.start s.currentSeq)

/-- A write call that is accepted. -/
def submit (item : TrackedBuffer) : State :=
  if s.stopRequested ∨ s.currentSeq = 0 ∨ s.state = .closed ∨ s.state = .error ∨ ¬s.connected then s
  else s.post (.write item s.currentSeq s.connectionSeq)

inductive StepOp
  | start
  | stop
  | submit (item : TrackedBuffer)
  | failReceive
  | cancelWriteWaits
  | configure (settings : Settings)
  | handler (script : Script)
  | complete (index : ℕ) (result : Completion) (script : Script)

def step : StepOp → State
  | .start => s.start
  | .stop => s.stop
  | .submit item => s.submit item
  | .failReceive => s.failReceive
  | .cancelWriteWaits => s.endWriteWait .cancelledWhileWaiting
  | .configure settings => { s with settings := settings }
  | .handler script =>
    match s.posted with
    | [] => s
    | handler :: rest => { s with posted := rest, script := script }.runHandler path handler
  | .complete index result script =>
    match s.outstanding[index]? with
    | none => s
    | some o =>
      let s : State := { s with outstanding := s.outstanding.eraseIdx index, script := script }
      s.runCompletion path result o.operation

end State
end Wirestead.Transport.UdsClient
