import Wirestead.Diagnostics.LedgerConservation
import Wirestead.Transport.TcpClient.Callers

/-! # The sessions of a TCP server

A client id counts the accepted sessions, so it is the index of its session. A session
is a target while it is in `sessions_`; a stop moves the targets to
`retiring_sessions_`, and the totals of a session that has gone are kept by the server.
What a session writes is told by the operations on its ledger. The UDS server has the
same sessions.
-/
namespace Wirestead.Transport.TcpServer
open Diagnostics TcpClient

structure Config where
  backpressureThreshold : ℕ
  threshold_ge : 1024 ≤ backpressureThreshold
  threshold_le : backpressureThreshold ≤ 100 * 2 ^ 20

def Config.bpHigh (cfg : Config) : ℕ := cfg.backpressureThreshold

def Config.bpLimit (cfg : Config) : ℕ :=
  min (max (cfg.bpHigh * 4) defaultBackpressureThreshold) maxBufferSize

/-- A session. The history of its ledger has every reset of the statistics, also those
that come when the session has gone; nothing reads it. -/
structure Session (N : Type*) where
  generation : ℕ
  alive : Bool
  closing : Bool
  cleanupDone : Bool
  counters : Counters
  backpressureActive : Bool
  ledger : Ledger N
  posted : List TrackedBuffer
  history : List LedgerOp

namespace Session
variable {N : Type*} [CommRing N] (v : Session N)

/-- A session that has just been published, with the run that accepted it. -/
def new (generation : ℕ) : Session N := ⟨generation,true,false,false,.zero,false,.new,[],[]⟩

def isOpen : Bool := v.alive && !v.closing

def apply (op : LedgerOp) : Session N :=
  { v with ledger := (v.ledger.step op).1, history := v.history ++ [op] }

/-- `request_stop`, and the first lines of `async_stop`. -/
def requestStop : Session N := { v.apply (.endAll .explicitStop) with closing := true }

/-- A failed write ends the session before it is closed. -/
def lose : Session N := { v.apply (.endAll .connectionLoss) with closing := true }

def doClose : Session N :=
  if v.cleanupDone then v
  else { v.apply (.endAll .connectionLoss) with alive := false
                                                closing := true
                                                cleanupDone := true
                                                counters := ⟨0,0,v.counters.inflightBytes⟩
                                                backpressureActive := false }

def snapshot : SendAccounting N := v.ledger.books.snapshot

def measured : SendAccounting N := (Ledger.new.run v.history).1.books.snapshot

end Session

inductive Handler
  | bind (generation : ℕ)
  | closed (client generation : ℕ)
  | cleanup
  | retired (client : ℕ)
  deriving DecidableEq, Repr

/-- While `accepting`, the handler of an accepted connection has checked `stopping_` and
is to publish the session. `absorbed` are the sessions whose totals the server keeps,
`base` is the number of sessions at the last start; nothing reads them. -/
structure Server (N : Type*) where
  state : LinkState
  generation : ℕ
  stopping : Bool
  runDispatched : Bool
  cleanupStarted : Bool
  cleanupDone : Bool
  accepting : Bool
  objects : List (Session N)
  sessions : List ℕ
  retiring : List ℕ
  remaining : ℕ
  closedSendAccounting : SendAccounting N
  posted : List Handler
  /-- The handlers of `async_stop`, on the strands of the sessions. -/
  stops : List ℕ
  absorbed : List ℕ
  base : ℕ

inductive ServerOp
  | start (tlsFails : Bool)
  | stop
  | resetStats
  | accept
  | publish
  | write (client : ℕ) (op : LedgerOp) (counters : Counters) (backpressureActive : Bool)
  | lose (client : ℕ)
  | close (client : ℕ)
  | fireClose (client : ℕ)
  | finishStop (index : ℕ)
  | handler (index : ℕ) (bound retries : Bool)

def writes : LedgerOp → Bool
  | .admitRequest _ _ => true
  | .begin _ => true
  | .beginBatch _ => true
  | .complete _ _ => true
  | .completeBatch _ _ => true
  | .discard _ _ => true
  | .rollback _ => true
  | _ => false

namespace Server
variable {N : Type*} [CommRing N] (s : Server N)

def init : Server N where
  state := .idle
  generation := 0
  stopping := false
  runDispatched := false
  cleanupStarted := false
  cleanupDone := false
  accepting := false
  objects := []
  sessions := []
  retiring := []
  remaining := 0
  closedSendAccounting := 0
  posted := []
  stops := []
  absorbed := []
  base := 0

def modify (client : ℕ) (f : Session N → Session N) : Server N :=
  { s with objects := s.objects.modify client f }

def modifyAll (clients : List ℕ) (f : Session N → Session N) : Server N :=
  clients.foldl (fun s client => s.modify client f) s

def post (handler : Handler) : Server N := { s with posted := s.posted ++ [handler] }

def absorbSession (client : ℕ) : Server N :=
  match s.objects[client]? with
  | none => s
  | some v => { s with closedSendAccounting := s.closedSendAccounting + v.snapshot
                       absorbed := s.absorbed ++ [client] }

def active : LinkState → Bool
  | .listening => true
  | .connected => true
  | .connecting => true
  | _ => false

/-- `start`. Without its certificate the server does not come up. -/
def start (tlsFails : Bool) : Server N :=
  if active s.state then s
  else
    let s : Server N := { s with generation := s.generation + 1
                                 runDispatched := false
                                 stopping := false
                                 cleanupStarted := false
                                 cleanupDone := false
                                 closedSendAccounting := 0
                                 absorbed := []
                                 base := s.objects.length }
    if tlsFails then { s with state := .error }
    else { s with runDispatched := true }.post (.bind s.generation)

def finishCleanup : Server N := { s with state := .closed, cleanupDone := true }

def retire : Server N := { s with cleanupStarted := true, retiring := s.sessions, sessions := s.retiring }

/-- `perform_cleanup`. Each session is told to stop and answers on the strand. -/
def performCleanup : Server N :=
  if s.cleanupStarted then s
  else if s.retire.retiring = [] then s.retire.finishCleanup
  else { s.retire.modifyAll s.retire.retiring Session.requestStop with
         remaining := s.retire.retiring.length
         stops := s.stops ++ s.retire.retiring }

def stop : Server N :=
  if s.stopping then s
  else
    let s : Server N := { s with stopping := true }.modifyAll s.sessions Session.requestStop
    if s.runDispatched then s.post .cleanup else s.performCleanup

/-- `reset_stats` resets what is in the maps; in the histories it stands for all. -/
def resetStats : Server N :=
  { s with closedSendAccounting := 0
           objects := s.objects.mapIdx (fun client v =>
             let v : Session N := { v with history := v.history ++ [.reset] }
             if client ∈ s.sessions ∨ client ∈ s.retiring then { v with ledger := v.ledger.reset } else v) }

/-- The handler of an accepted connection, up to the publication of the session. -/
def accept : Server N :=
  if s.stopping ∨ active s.state = false ∨ s.accepting = true then s else { s with accepting := true }

/-- The session is published, also when a stop has begun since the check. -/
def publish : Server N :=
  if s.accepting then
    { s with accepting := false
             objects := s.objects ++ [.new s.generation]
             sessions := s.sessions ++ [s.objects.length] }
  else s

def onClose (client generation : ℕ) : Server N :=
  if s.stopping ∨ s.generation ≠ generation then s else s.post (.closed client generation)

def close (client : ℕ) : Server N :=
  match s.objects[client]? with
  | none => s
  | some v => if v.cleanupDone then s else (s.modify client Session.doClose).onClose client v.generation

/-- The session of a client that was closed leaves the targets. -/
def onClosed (client generation : ℕ) : Server N :=
  if s.stopping ∨ s.generation ≠ generation then s
  else if client ∈ s.sessions then
    { s.absorbSession client with sessions := s.sessions.filter (· ≠ client) }
  else s

def release (client : ℕ) : Server N :=
  if client ∈ s.retiring then
    { s.absorbSession client with retiring := s.retiring.filter (· ≠ client) }
  else s

def countDown : Server N :=
  if s.remaining - 1 = 0 then { s with remaining := s.remaining - 1 }.finishCleanup
  else { s with remaining := s.remaining - 1 }

def onRetired (client : ℕ) : Server N := (s.release client).countDown

def attemptPortBinding (generation : ℕ) (bound retries : Bool) : Server N :=
  if s.stopping ∨ s.generation ≠ generation then s
  else if bound then { s with state := .listening }
  else if retries then s.post (.bind generation)
  else { s with state := .error }

def runHandler (bound retries : Bool) : Handler → Server N
  | .bind generation => s.attemptPortBinding generation bound retries
  | .closed client generation => s.onClosed client generation
  | .cleanup => s.performCleanup
  | .retired client => s.onRetired client

def step : ServerOp → Server N
  | .start tlsFails => s.start tlsFails
  | .stop => s.stop
  | .resetStats => s.resetStats
  | .accept => s.accept
  | .publish => s.publish
  | .write client op counters backpressureActive =>
    match s.objects[client]? with
    | none => s
    | some v =>
      if v.isOpen && writes op then
        s.modify client (fun v => { v.apply op with counters := counters, backpressureActive := backpressureActive })
      else s
  | .lose client =>
    match s.objects[client]? with
    | none => s
    | some v => if v.isOpen then s.modify client Session.lose else s
  | .close client => s.close client
  | .fireClose client =>
    match s.objects[client]? with
    | none => s
    | some v => if v.cleanupDone then s.onClose client v.generation else s
  | .finishStop index =>
    match s.stops[index]? with
    | none => s
    | some client =>
      ({ s with stops := s.stops.eraseIdx index }.modify client Session.doClose).post (.retired client)
  | .handler index bound retries =>
    if s.accepting then s
    else
      match s.posted[index]? with
      | none => s
      | some handler => { s with posted := s.posted.eraseIdx index }.runHandler bound retries handler

def run (ops : List ServerOp) : Server N := ops.foldl step s

def stats : SendAccounting N :=
  let snapshots := fun clients : List ℕ =>
    (clients.map (fun client => ((s.objects[client]?).map Session.snapshot).getD 0)).sum
  s.closedSendAccounting + snapshots s.sessions + snapshots s.retiring

end Server
end Wirestead.Transport.TcpServer
