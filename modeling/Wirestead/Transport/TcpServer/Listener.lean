import Wirestead.Transport.TcpServer.Totals

/-! # The listening socket of a TCP server

`Server` has the sessions; the rest of `TcpServer::Impl` is what brings them: the binding
with its retries, the accept operations, the limit of the clients, and what the callbacks
are told. A handler of the management strand that waits for a timer is one that has not
run yet. The handlers run in any order, but none runs while the callback does that the
binding announces, nor before the session of an accepted connection is published. The
first job on the strand of a session tells of the connection. Two things are left out: a
start while a handler of the binding runs, which would see the new generation, and a
session that `fail_receive` closes inside its own callback of the connection.
-/
namespace Wirestead.Transport.TcpServer
open Diagnostics TcpClient

/-- The options of the listening socket. No connections at all means that there is no limit. -/
structure ListenerConfig where
  enablePortRetry : Bool
  maxPortRetries : ℕ
  maxConnections : ℕ
  retries_le : maxPortRetries ≤ 1000
  connections_le : maxConnections ≤ 10000

inductive ErrorCategory
  | configuration
  | system
  | connection
  deriving DecidableEq, Repr

inductive Operation
  | start
  | bind
  | openAcceptor
  | listen
  | accept
  deriving DecidableEq, Repr

structure ErrorInfo where
  category : ErrorCategory
  operation : Operation
  retryable : Bool
  retryCount : ℕ
  deriving DecidableEq, Repr

structure Attempt where
  addressValid : Bool
  opens : Bool
  binds : Bool
  listens : Bool

inductive Accept
  | pending (generation : ℕ)
  | waiting (generation : ℕ)
  deriving DecidableEq, Repr

def Accept.generation : Accept → ℕ
  | .pending generation => generation
  | .waiting generation => generation

/-- Attempts to bind and calls of the callbacks. A connection over the limit is refused. -/
inductive Event
  | attempt (generation retryCount : ℕ)
  | state (state : LinkState)
  | connect (client : ℕ)
  | refused
  | disconnect (client : ℕ)
  deriving DecidableEq, Repr

/-- The posted binding of `core` is the attempt of this run, which has the count
`retryCount`. The sessions `unstarted` have not told of their connection; `connecting` and
`disconnecting` are those whose callbacks run, and `connected` those whose change of the
state is posted. -/
structure Listener (N : Type*) where
  core : Server N
  clientLimitEnabled : Bool
  maxClients : ℕ
  acceptorOpen : Bool
  retryCount : ℕ
  announcing : Bool
  accepts : List Accept
  currentSession : Option ℕ
  unstarted : List ℕ
  connecting : List ℕ
  connected : List ℕ
  disconnecting : List ℕ
  stopRequests : List ℕ
  lastError : Option ErrorInfo
  events : List Event

/-- Calls of other threads and of the callbacks, jobs of the strands of the sessions, and
the handlers of the management strand. -/
inductive ListenerOp
  | start (tlsFails : Bool)
  | stop
  | requestStop
  | setClientLimit (max : ℕ)
  | resetStats
  | write (client : ℕ) (op : LedgerOp) (counters : Counters) (backpressureActive : Bool)
  | lose (client : ℕ)
  | connect (client : ℕ)
  | connectReturns (client : ℕ)
  | close (client : ℕ)
  | disconnectReturns (client : ℕ)
  | finishStop (index : ℕ)
  | stateReturns
  | publish
  | handler (index : ℕ) (attempt : Attempt) (pick : ℕ)
  | accepted (index : ℕ) (ec : ErrorCode)
  | retryAccept (index : ℕ)
  | connected (index : ℕ)
  | runStop (index : ℕ)

namespace Listener
variable {N : Type*} [CommRing N] (l : Listener N)

def init (cfg : ListenerConfig) : Listener N where
  core := .init
  clientLimitEnabled := 0 < cfg.maxConnections
  maxClients := cfg.maxConnections
  acceptorOpen := false
  retryCount := 0
  announcing := false
  accepts := []
  currentSession := none
  unstarted := []
  connecting := []
  connected := []
  disconnecting := []
  stopRequests := []
  lastError := none
  events := []

def emit (event : Event) : Listener N := { l with events := l.events ++ [event] }

def notifyState : Listener N := if l.core.stopping then l else l.emit (.state l.core.state)

def setState (state : LinkState) : Listener N := { l with core := { l.core with state := state } }

def recordError (category : ErrorCategory) (operation : Operation) (retryable : Bool) (retryCount : ℕ) : Listener N :=
  { l with lastError := some ⟨category,operation,retryable,retryCount⟩ }

def fail (category : ErrorCategory) (operation : Operation) : Listener N :=
  ((l.recordError category operation false l.retryCount).setState .error).notifyState

def start (tlsFails : Bool) : Listener N :=
  if Server.active l.core.state then l
  else
    let l : Listener N := { l with core := l.core.start tlsFails, retryCount := 0 }
    if tlsFails then l.fail .configuration .start else l

def performCleanup : Listener N :=
  if l.core.cleanupStarted then l
  else { l with core := l.core.performCleanup, acceptorOpen := false, currentSession := none }

def stop : Listener N :=
  if l.core.stopping then l
  else
    let core : Server N := { l.core with stopping := true }.modifyAll l.core.sessions Session.requestStop
    if core.runDispatched then { l with core := core.post .cleanup }
    else { l with core := core }.performCleanup

def requestStop : Listener N :=
  if l.core.stopping then l else { l with stopRequests := l.stopRequests ++ [l.core.generation] }

def setClientLimit (max : ℕ) : Listener N :=
  if 10000 < max then l else { l with maxClients := max, clientLimitEnabled := max ≠ 0 }

def doAccept : Listener N :=
  if l.core.stopping ∨ l.acceptorOpen = false then l
  else { l with accepts := l.accepts ++ [.pending l.core.generation] }

/-- `attempt_port_binding`. The callback of the new state runs before the first accept. -/
def attemptPortBinding (cfg : ListenerConfig) (attempt : Attempt) : Listener N :=
  let l := l.emit (.attempt l.core.generation l.retryCount)
  if attempt.addressValid = false then l.fail .configuration .bind
  else if l.acceptorOpen = false ∧ attempt.opens = false then l.fail .system .openAcceptor
  else
    let l : Listener N := { l with acceptorOpen := true }
    if attempt.binds = false then
      if cfg.enablePortRetry ∧ l.retryCount < cfg.maxPortRetries then
        { l with core := l.core.post (.bind l.core.generation), retryCount := l.retryCount + 1 }
      else l.fail .connection .bind
    else if attempt.listens = false then l.fail .connection .listen
    else ({ l with announcing := true }.setState .listening).notifyState

def onBind (cfg : ListenerConfig) (generation : ℕ) (attempt : Attempt) : Listener N :=
  if l.core.stopping ∨ l.core.generation ≠ generation then l else l.attemptPortBinding cfg attempt

/-- The session is published, and its strand will tell of the connection. -/
def publish : Listener N :=
  if l.core.accepting then
    ({ l with core := l.core.publish
              currentSession := some l.core.objects.length
              unstarted := l.unstarted ++ [l.core.objects.length] } : Listener N).doAccept
  else l

def overLimit : Bool := l.clientLimitEnabled && l.maxClients ≤ l.core.sessions.length

def acceptLater (generation : ℕ) : Listener N :=
  if l.core.state = .closed then l else { l with accepts := l.accepts ++ [.waiting generation] }

/-- The handler of an accept operation, up to the publication of a session. -/
def onAccept (generation : ℕ) (ec : ErrorCode) : Listener N :=
  if l.core.stopping ∨ l.core.generation ≠ generation then l
  else if ec = .operationAborted then l.acceptLater generation
  else if ec ≠ .success then (l.recordError .connection .accept true 0).acceptLater generation
  else if l.overLimit then (l.emit .refused).doAccept
  else { l with core := { l.core with accepting := true } }

def onTimer (generation : ℕ) : Listener N :=
  if l.core.stopping ∨ l.core.generation ≠ generation then l else l.doAccept

/-- The map begins with any of its sessions. -/
def pickSession (sessions : List ℕ) (pick : ℕ) : Option ℕ := sessions[pick % sessions.length]?

/-- A closed session leaves the map. When it was the current one, another one takes its place. -/
def onClosed (client generation pick : ℕ) : Listener N :=
  if l.core.stopping ∨ l.core.generation ≠ generation then l
  else
    let core := l.core.onClosed client generation
    if l.currentSession = some client then
      (({ l with core := core, currentSession := pickSession core.sessions pick } : Listener N).setState
        .listening).notifyState
    else { l with core := core }

/-- Before its callback has returned a session has posted nothing. -/
def runHandler (cfg : ListenerConfig) (index : ℕ) (attempt : Attempt) (pick : ℕ) : Handler → Listener N
  | .bind generation =>
    { l with core := { l.core with posted := l.core.posted.eraseIdx index } }.onBind cfg generation attempt
  | .closed client generation =>
    if client ∈ l.disconnecting then l
    else { l with core := { l.core with posted := l.core.posted.eraseIdx index } }.onClosed client generation pick
  | .cleanup => { l with core := { l.core with posted := l.core.posted.eraseIdx index } }.performCleanup
  | .retired client => { l with core := { l.core with posted := l.core.posted.eraseIdx index }.onRetired client }

def busy (client : ℕ) : Bool := client ∈ l.unstarted || client ∈ l.connecting || client ∈ l.disconnecting

def connect (client : ℕ) : Listener N :=
  if client ∈ l.unstarted then
    let l : Listener N := { l with unstarted := l.unstarted.erase client }
    match l.core.objects[client]? with
    | none => l
    | some v =>
      if v.isOpen = false ∨ l.core.stopping ∨ l.core.generation ≠ v.generation then l
      else { l with connecting := l.connecting ++ [client] }.emit (.connect client)
  else l

def connectReturns (client : ℕ) : Listener N :=
  if client ∈ l.connecting then
    { l with connecting := l.connecting.erase client, connected := l.connected ++ [client] }
  else l

/-- `do_close` of a session, with the callback that the server gave it. -/
def close (client : ℕ) : Listener N :=
  match l.core.objects[client]? with
  | none => l
  | some v =>
    if v.cleanupDone ∨ l.busy client then l
    else
      let l : Listener N := { l with core := l.core.close client }
      if l.core.stopping ∨ l.core.generation ≠ v.generation then l
      else { l with disconnecting := l.disconnecting ++ [client] }.emit (.disconnect client)

/-- The handler that the callback of a connection is followed by. -/
def onConnected (client : ℕ) : Listener N :=
  match l.core.objects[client]? with
  | none => l
  | some v =>
    if l.core.stopping ∨ l.core.generation ≠ v.generation then l
    else if client ∈ l.core.sessions then (l.setState .connected).notifyState
    else l

def handle (cfg : ListenerConfig) : ListenerOp → Listener N
  | .handler index attempt pick =>
    match l.core.posted[index]? with
    | none => l
    | some handler => l.runHandler cfg index attempt pick handler
  | .accepted index ec =>
    match l.accepts[index]? with
    | some (.pending generation) => { l with accepts := l.accepts.eraseIdx index }.onAccept generation ec
    | _ => l
  | .retryAccept index =>
    match l.accepts[index]? with
    | some (.waiting generation) => { l with accepts := l.accepts.eraseIdx index }.onTimer generation
    | _ => l
  | .connected index =>
    match l.connected[index]? with
    | none => l
    | some client => { l with connected := l.connected.eraseIdx index }.onConnected client
  | .runStop index =>
    match l.stopRequests[index]? with
    | none => l
    | some generation =>
      let l : Listener N := { l with stopRequests := l.stopRequests.eraseIdx index }
      if l.core.generation = generation then l.stop else l
  | _ => l

def step (cfg : ListenerConfig) : ListenerOp → Listener N
  | .start tlsFails => l.start tlsFails
  | .stop => l.stop
  | .requestStop => l.requestStop
  | .setClientLimit max => l.setClientLimit max
  | .resetStats => { l with core := l.core.resetStats }
  | .write client op counters backpressureActive =>
    { l with core := l.core.step (.write client op counters backpressureActive) }
  | .lose client => if l.busy client then l else { l with core := l.core.step (.lose client) }
  | .connect client => l.connect client
  | .connectReturns client => l.connectReturns client
  | .close client => l.close client
  | .disconnectReturns client => { l with disconnecting := l.disconnecting.erase client }
  | .finishStop index =>
    match l.core.stops[index]? with
    | none => l
    | some client => if l.busy client then l else { l with core := l.core.step (.finishStop index) }
  | .stateReturns => if l.announcing then { l with announcing := false }.doAccept else l
  | .publish => l.publish
  | op => if l.announcing || l.core.accepting then l else l.handle cfg op

def run (cfg : ListenerConfig) (ops : List ListenerOp) : Listener N := ops.foldl (step · cfg) l

/-- A start is called when no stop is unfinished. -/
def Serial (cfg : ListenerConfig) : Listener N → List ListenerOp → Prop
  | _, [] => True
  | l, op :: ops =>
    (∀ tlsFails, op = .start tlsFails → l.core.stopping = true → l.core.cleanupDone = true) ∧
      Serial cfg (l.step cfg op) ops

end Listener
end Wirestead.Transport.TcpServer
