import Wirestead.Transport.UdpChannel.Admission

/-! # The strand of an open UDP channel

The handlers that route, send and complete the datagrams of any number of sessions, and
`expire_session`. A handler is one step; user callbacks inside it, and other threads
between the two looks at the ledger, may call the channel, as a script tells. The events
keep what was admitted, expired and handed to `async_send_to`, the oldest first.
-/
namespace Wirestead.Transport.UdpChannel
open Diagnostics Sizes TcpClient

def Config.bpLow (cfg : Config) : ℕ :=
  let low := if cfg.bpHigh > 1 then cfg.bpHigh / 2 else cfg.bpHigh
  if low = 0 then 1 else low

def TxItem.size (item : TxItem) : ℕ := item.buffer.length

inductive Post
  | write (handler : Handler)
  | expire (session generation : ℕ)
  deriving DecidableEq, Repr

inductive CallOp
  | captureWriteWait (requireRemote trackSession : Bool)
  | write (data : List UInt8) (expectedRun : Option ℕ) (entry : Channel.Entry)
  | expireSession (session : ℕ)
  | endWriteWait (session : ℕ) (reason : SendRejection)
  | cancelWriteWaits
  deriving DecidableEq, Repr

def entrySession : Channel.Entry → Option ℕ
  | .writeTo _ session _ => session
  | .tryWriteTo _ session => session
  | _ => none

/-- What happens inside a handler: the calls at each place where others may run, and
whether `async_send_to` throws. -/
structure Script where
  turns : List (List CallOp)
  initiationThrows : Bool

inductive Event
  | admitted (handler : Handler)
  | expired (session : ℕ)
  | handed (item : TxItem)
  deriving DecidableEq, Repr

/-- The channel and what its strand adds: `posted` of the channel only carries a handler
from the entry point to the queue, and `parked` counts the pending bytes of a session. -/
structure Strand (N : Type*) where
  channel : Channel N
  queue : List Post
  writing : Bool
  parked : ℕ → ℕ
  script : Script
  events : List Event

namespace Strand
variable {N : Type*} [CommRing N] (cfg : Config) (s : Strand N)

def opened (generation : ℕ) (remote : Option Endpoint) : Strand N where
  channel :=
    { generation := generation
      stopRequested := false
      stopping := false
      opened := true
      connected := remote.isSome
      started := true
      cleanupDone := false
      state := if remote.isSome then .connected else .listening
      terminalStateNotified := false
      remoteEndpoint := remote
      counters := .zero
      backpressureActive := false
      tx := []
      pending := []
      sending := []
      writeWaits := []
      ledger := .new
      posted := [] }
  queue := []
  writing := false
  parked := fun _ => 0
  script := ⟨[],false⟩
  events := []

omit [CommRing N] in
def collect (channel : Channel N) : Strand N :=
  let added := channel.posted.drop s.channel.posted.length
  { s with channel := { channel with posted := s.channel.posted }
           queue := s.queue ++ added.map .write
           events := s.events ++ (added.filter (·.item?.isSome)).map .admitted }

omit [CommRing N] in
/-- `capture_write_wait`; a tracked session gets an accounting group of its own. -/
def captureWriteWait (requireRemote trackSession : Bool) : Strand N :=
  match s.channel.admissionRejection requireRemote none with
  | some _ => s
  | none =>
    let group := if trackSession then some s.channel.writeWaits.length else none
    { s with channel.writeWaits := s.channel.writeWaits ++ [⟨s.channel.generation,none,group,0⟩] }

/-- `expire_session`; what an untracked session has queued still goes out. -/
def expireSession (session : ℕ) : Strand N :=
  match s.channel.writeWaits[session]? with
  | none => s
  | some wait =>
    let s : Strand N := { s with channel.writeWaits := s.channel.writeWaits.modify session (·.end .notReady) }
    match wait.accounting with
    | none => s
    | some group =>
      { s with channel.ledger := s.channel.ledger.discardWaiting (some group) .sessionExpiry
               queue := s.queue ++ [.expire session s.channel.generation]
               events := s.events ++ [.expired session] }

omit [CommRing N] in
def endWriteWait (session : ℕ) (reason : SendRejection) : Strand N :=
  { s with channel.writeWaits := s.channel.writeWaits.modify session (·.end reason) }

omit [CommRing N] in
def cancelWriteWaits : Strand N :=
  { s with channel.writeWaits := s.channel.writeWaits.map (·.end .cancelledWhileWaiting) }

omit [CommRing N] in
def knows (entry : Channel.Entry) : Bool := (entrySession entry).all (· < s.channel.writeWaits.length)

def call : CallOp → Strand N
  | .captureWriteWait requireRemote trackSession => s.captureWriteWait requireRemote trackSession
  | .write data expectedRun entry =>
    if s.knows entry then s.collect (s.channel.call cfg data expectedRun entry).1 else s
  | .expireSession session => s.expireSession session
  | .endWriteWait session reason => s.endWriteWait session reason
  | .cancelWriteWaits => s.cancelWriteWaits

def calls (ops : List CallOp) : Strand N := ops.foldl (call cfg) s

/-- A user callback, or a place where other threads may run. -/
def turn : Strand N :=
  match s.script.turns with
  | [] => s
  | ops :: rest => { s with script.turns := rest }.calls cfg ops

omit [CommRing N] in
def tallyQueued (session : Option ℕ) (f : ℕ → ℕ) : Strand N :=
  match session with
  | none => s
  | some index =>
    { s with channel.writeWaits := s.channel.writeWaits.modify index (fun w =>
        if w.accounting.isSome then { w with queued := f w.queued } else w) }

omit [CommRing N] in
def tallyParked (session : Option ℕ) (f : ℕ → ℕ) : Strand N :=
  match session with
  | none => s
  | some index => { s with parked := Function.update s.parked index (f (s.parked index)) }

omit [CommRing N] in
/-- A datagram that is no longer in `tx_` gives its bytes back on both levels. -/
def dropQueued (item : TxItem) : Strand N :=
  tallyQueued { s with channel.counters := releaseReservedWriteBytes s.channel.counters item.size } item.session
    (release · item.size)

omit [CommRing N] in
def dropParked (item : TxItem) : Strand N :=
  tallyParked { s with channel.counters.pendingBytes := release s.channel.counters.pendingBytes item.size } item.session
    (release · item.size)

omit [CommRing N] in
def discardSessionQueue (session : ℕ) : Strand N :=
  let gone := s.channel.tx.filter (·.session = some session)
  let s := gone.foldl dropQueued { s with channel.tx := s.channel.tx.filter (·.session ≠ some session) }
  let gone := s.channel.pending.filter (·.session = some session)
  gone.foldl dropParked { s with channel.pending := s.channel.pending.filter (·.session ≠ some session) }

omit [CommRing N] in
def releaseSessions : Strand N :=
  let s := s.channel.tx.foldl (fun s item => s.tallyQueued item.session (release · item.size)) s
  s.channel.pending.foldl (fun s item => s.tallyParked item.session (release · item.size)) s

/-- `drain_queue_and_clear_backpressure`. -/
def drain : Strand N :=
  let active := s.channel.backpressureActive
  let s := s.releaseSessions
  let s : Strand N := { s with channel.tx := []
                               channel.pending := []
                               channel.counters := ⟨0,0,s.channel.counters.inflightBytes⟩
                               channel.backpressureActive := false }
  if active then s.turn cfg else s

def transitionToError : Strand N :=
  if s.channel.state.terminal then s
  else if s.channel.terminalStateNotified then s
  else
    let channel := { s.channel.failWrites with terminalStateNotified := true, state := .error }
    ({ s with channel := channel }.drain cfg).turn cfg

omit [CommRing N] in
/-- The checks of the handlers before they look at a request. -/
def closed : Bool :=
  s.channel.stopRequested || s.channel.stopping || s.channel.state = .closed || s.channel.state = .error

omit [CommRing N] in
def moveUp (item : TxItem) : Strand N :=
  (s.tallyParked item.session (release · item.size)).tallyQueued item.session (· + item.size)

omit [CommRing N] in
/-- `flush_pending_into_tx`: the bytes moved and the state after. -/
def flushPendingIntoTx : ℕ × Strand N :=
  let moved := s.channel.pending.foldl moveUp s
  (s.channel.counters.pendingBytes,
    { moved with channel.tx := s.channel.tx ++ s.channel.pending
                 channel.pending := []
                 channel.counters.pendingBytes := 0 })

def bpFields (kick : Strand N → Strand N) : BackpressureFields (Strand N) where
  bpHigh := cfg.bpHigh
  bpLow := cfg.bpLow
  backpressureActive s := s.channel.backpressureActive
  setBackpressureActive b s := { s with channel.backpressureActive := b }
  queueBytes s := s.channel.counters.queueBytes
  setQueueBytes n s := { s with channel.counters.queueBytes := n }
  onBackpressure _ s := s.turn cfg
  flushPendingIntoTx s := s.flushPendingIntoTx
  kickWrite s := if s.writing then s else kick s

def reportBackpressure (kick : Strand N → Strand N) (queuedBytes : ℕ) : Strand N :=
  if s.channel.stopRequested then s else Transport.reportBackpressure (bpFields cfg kick) queuedBytes s

omit [CommRing N] in
def dropDead : Strand N :=
  let dead := s.channel.tx.takeWhile (fun item => !s.channel.ledger.contains item.request)
  dead.foldl dropQueued
    { s with channel.tx := s.channel.tx.dropWhile (fun item => !s.channel.ledger.contains item.request) }

/-- The handover to the socket, which may throw. -/
def send (current : TxItem) (ledger : Ledger N) : Strand N :=
  let s : Strand N := { s with channel.ledger := ledger, writing := true }
  if s.script.initiationThrows then
    let s := s.tallyQueued current.session (release · current.size)
    transitionToError cfg { s with channel := s.channel.failWrites, writing := false }
  else { s with channel.sending := [current], events := s.events ++ [.handed current] }

/-- `do_write`; each call of itself finds fewer datagrams. -/
def doWriteLoop : ℕ → Strand N → Strand N
  | 0, s => s
  | n + 1, s =>
    if s.writing ∨ s.channel.tx = [] then s
    else if s.closed then { s with writing := false }.drain cfg
    else if s.channel.stopRequested ∨ s.channel.opened = false then s
    else
      let s := s.dropDead
      match s.channel.tx with
      | [] => s.reportBackpressure cfg (doWriteLoop n) s.channel.counters.queueBytes
      | current :: rest =>
        let s := s.turn cfg
        let s : Strand N := { s with channel.tx := rest }
        match current.destination.or s.channel.remoteEndpoint with
        | none =>
          let s : Strand N := { s with channel.ledger := s.channel.ledger.discard current.request .connectionLoss }
          doWriteLoop n { s.dropQueued current with writing := false }
        | some _ =>
          let begun := s.channel.ledger.beginLocked current.request
          if begun.2 then s.send cfg current begun.1 else doWriteLoop n (s.dropQueued current)

def doWrite : Strand N := s.doWriteLoop cfg (s.channel.tx.length + s.channel.pending.length)

def report (queuedBytes : ℕ) : Strand N := s.reportBackpressure cfg (doWrite cfg) queuedBytes

def enqueueBuffer (item : TxItem) : Strand N × Bool :=
  let released : Strand N := { s with channel.counters := releaseReservedLimitBytes s.channel.counters item.size }
  if s.closed then (released,false)
  else if s.channel.ledger.contains item.request = false then
    (released.report cfg released.channel.counters.queueBytes,false)
  else
    match decideEnqueue s.channel.counters.queueBytes s.channel.counters.pendingBytes s.channel.backpressureActive
      item.size cfg.bpLimit with
    | some .pending =>
      let s : Strand N := { s with channel.counters := commitReservedLimitBytes s.channel.counters .pending item.size }
      let s := s.tallyParked item.session (· + item.size)
      ({ s with channel.pending := s.channel.pending ++ [item] },true)
    | some .immediate =>
      let s : Strand N := { s with channel.counters := commitReservedLimitBytes s.channel.counters .queue item.size }
      let s := s.tallyQueued item.session (· + item.size)
      let s : Strand N := { s with channel.tx := s.channel.tx ++ [item] }
      (s.report cfg s.channel.counters.queueBytes,true)
    | _ =>
      let s : Strand N := { released with
        channel.ledger := s.channel.ledger.discard item.request .queuePressure }
      (s.report cfg (add s.channel.counters.queueBytes item.size),false)

def onWrite (item : TxItem) (generation : ℕ) : Strand N :=
  if generation ≠ s.channel.generation then s
  else
    let enqueued := s.enqueueBuffer cfg item
    if enqueued.2 then enqueued.1.doWrite cfg else enqueued.1

def onTryWriteTo (item : TxItem) (generation : ℕ) : Strand N :=
  if generation ≠ s.channel.generation then s
  else if s.closed then s.dropQueued item
  else if s.channel.ledger.contains item.request = false then
    let s := s.dropQueued item
    s.report cfg s.channel.counters.queueBytes
  else
    let s : Strand N := { s with channel.tx := s.channel.tx ++ [item] }
    (s.report cfg s.channel.counters.queueBytes).doWrite cfg

/-- The handler of a nonblocking write to the remote; it does not ask the ledger. -/
def onTryWrite (item : TxItem) (generation : ℕ) : Strand N :=
  if generation ≠ s.channel.generation then s
  else if s.closed ∨ s.channel.remoteEndpoint.isNone then s.dropQueued item
  else
    let s : Strand N := { s with channel.tx := s.channel.tx ++ [item] }
    (s.report cfg s.channel.counters.queueBytes).doWrite cfg

def onOversized (generation : ℕ) : Strand N :=
  if generation ≠ s.channel.generation ∨ s.channel.stopRequested then s else s.transitionToError cfg

def onExpire (session generation : ℕ) : Strand N :=
  if generation ≠ s.channel.generation then s
  else
    let s := s.discardSessionQueue session
    (s.report cfg s.channel.counters.queueBytes).doWrite cfg

def runPost : Post → Strand N
  | .write (.enqueue item generation) => s.onWrite cfg item generation
  | .write (.tryEnqueue item generation) =>
    if item.destination.isSome then s.onTryWriteTo cfg item generation else s.onTryWrite cfg item generation
  | .write (.oversized generation) => s.onOversized cfg generation
  | .expire session generation => s.onExpire cfg session generation

/-- The completion of a send. A short one counts as an error. -/
def onSent (item : TxItem) (failed : Bool) (written : ℕ) : Strand N :=
  let ec := failed || written ≠ item.size
  let s : Strand N := { s with channel.ledger := s.channel.ledger.completeLocked item.request written }
  let s : Strand N := if ec ∧ ¬s.channel.stopRequested then { s with channel := s.channel.failWrites } else s
  let s := s.dropQueued item
  let s := s.report cfg s.channel.counters.queueBytes
  if s.closed then { s with writing := false }.drain cfg
  else if ec then { s.transitionToError cfg with writing := false }.drain cfg
  else { s with writing := false }.doWrite cfg

/-- One step: a call from any thread, the oldest handler, or the completion of the send. -/
inductive StepOp
  | call (op : CallOp)
  | handler (script : Script)
  | sent (failed : Bool) (written : ℕ) (script : Script)

def step : StepOp → Strand N
  | .call op => s.call cfg op
  | .handler script =>
    match s.queue with
    | [] => s
    | post :: rest => { s with queue := rest, script := script }.runPost cfg post
  | .sent failed written script =>
    match s.channel.sending with
    | [] => s
    | item :: rest => { s with channel.sending := rest, script := script }.onSent cfg item failed written

def run (ops : List StepOp) : Strand N := ops.foldl (step cfg) s

end Strand
end Wirestead.Transport.UdpChannel
