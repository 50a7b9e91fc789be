import Wirestead.Transport.UdpChannel.State

/-! # The sessions of the UDP server

A session is made by the first datagram of an endpoint. Three maps tell of it, and they
are filled one after the other with the framer factory called in between. The handlers
run on the strand of the socket; a stop that waits finds them finished. How long a
session has been silent is not modelled, so the reaper may find any session due.
-/
namespace Wirestead.Wrapper.UdpServer
open Transport.TcpClient Transport.UdpChannel

/-- `SessionEntry`. The wait is an index into the waits of the channel, and the framer is
told by the generation that its callback captured. -/
structure SessionEntry (E : Type*) where
  endpoint : E
  wait : Option ℕ
  framer : Option ℕ

structure ChannelRun where
  generation : ℕ
  opened : Bool
  stopRequested : Bool
  waits : List UdpWriteWait
  deriving DecidableEq, Repr

def ChannelRun.fresh : ChannelRun := ⟨0,false,false,[]⟩

/-- What the framer factory does, and what is called between the insertions. -/
inductive FactoryOutcome
  | framer
  | noFramer
  | badAlloc
  | throws
  deriving DecidableEq, Repr

inductive PrepareOutcome
  | ok
  | overflow
  | badAlloc
  deriving DecidableEq, Repr

structure Datagram where
  scopeOpens : Bool
  factory : FactoryOutcome
  prepare : PrepareOutcome
  messages : List (List UInt8)

structure Settings where
  maxClients : Option ℕ
  factoryManaged : Bool

/-- The server. The batch of a session is told by the generation that made it. What was
announced since the ids began again, the endpoints heard in this run, the messages that
were passed on and a failed lookup are kept; nothing reads them. -/
structure Server (E : Type*) where
  started : Bool
  gateOpen : Bool
  generation : ℕ
  channel : ChannelRun
  nextClientId : ℕ
  endpointToId : AList (fun _ : E => ℕ)
  sessions : AList (fun _ : ℕ => SessionEntry E)
  batches : AList (fun _ : ℕ => ℕ)
  announced : List ℕ
  heard : List E
  passedOn : List (ℕ × ℕ × List UInt8)
  lookupFailed : Bool

inductive ServerOp (E : Type*)
  | start
  | stop (requestOnly : Bool)
  | datagram (endpoint : E) (d : Datagram)
  | reap (due : List ℕ)

def emplace {K : Type*} [DecidableEq K] {V : Type*} (m : AList (fun _ : K => V)) (k : K) (v : V) :
    AList (fun _ : K => V) :=
  if (m.lookup k).isSome then m else m.insert k v

namespace Server
variable {E : Type*} [DecidableEq E] (s : Server E)

def init : Server E where
  started := false
  gateOpen := false
  generation := 0
  channel := .fresh
  nextClientId := 1
  endpointToId := ∅
  sessions := ∅
  batches := ∅
  announced := []
  heard := []
  passedOn := []
  lookupFailed := false

def captureWriteWait : Server E × Option ℕ :=
  if s.channel.stopRequested ∨ s.channel.opened = false then (s,none)
  else
    let wait : UdpWriteWait := ⟨s.channel.generation,none,some s.channel.waits.length,0⟩
    ({ s with channel := { s.channel with waits := s.channel.waits ++ [wait] } },some s.channel.waits.length)

/-- What both catch clauses do to a session that was not announced. -/
def forget (endpoint : E) (id : ℕ) : Server E :=
  { s with endpointToId := s.endpointToId.erase endpoint
           sessions := s.sessions.erase id
           batches := s.batches.erase id }

/-- The callback of the framer, which asks the gate with its own generation. -/
def deliver (id : ℕ) (messages : List (List UInt8)) : Server E :=
  match (s.sessions.lookup id).bind SessionEntry.framer with
  | none => s
  | some generation =>
    if s.gateOpen ∧ generation = s.generation then
      { s with passedOn := s.passedOn ++ messages.map (fun m => (generation,id,m)) }
    else s

def receive (endpoint : E) (id : ℕ) (isNew : Bool) (d : Datagram) : Server E :=
  match d.prepare with
  | .ok => (if isNew then { s with announced := s.announced ++ [id] } else s).deliver id d.messages
  | _ => if isNew then s.forget endpoint id else s

/-- The insertions for a new endpoint, with the factory between them. Only two kinds of
exception are caught. -/
def create (endpoint : E) (d : Datagram) : Server E :=
  let id := s.nextClientId
  let s : Server E := { s with nextClientId := id + 1
                               endpointToId := emplace s.endpointToId endpoint id
                               batches := emplace s.batches id s.generation }
  let captured := s.captureWriteWait
  let enter := fun framer : Option ℕ =>
    ({ captured.1 with sessions := emplace s.sessions id ⟨endpoint,captured.2,framer⟩ } : Server E).receive
      endpoint id true d
  match d.factory with
  | .framer => enter (some s.generation)
  | .noFramer => enter none
  | .badAlloc => captured.1.forget endpoint id
  | .throws => captured.1

def admits (cfg : Settings) : Bool := cfg.maxClients.all (fun n => s.sessions.entries.length < n)

def datagram (cfg : Settings) (endpoint : E) (d : Datagram) : Server E :=
  if s.gateOpen = false ∨ s.started = false then s
  else
    let s : Server E := { s with heard := s.heard ++ [endpoint] }
    match s.endpointToId.lookup endpoint with
    | none => if s.admits cfg && d.scopeOpens then s.create endpoint d else s
    | some id =>
      match s.batches.lookup id, s.sessions.lookup id with
      | some _, some _ => s.receive endpoint id false d
      | _, _ => { s with lookupFailed := true }

def expire (id : ℕ) : Server E :=
  match s.sessions.lookup id with
  | none => s
  | some entry =>
    let s : Server E := match entry.wait with
      | none => s
      | some wait => { s with channel := { s.channel with waits := s.channel.waits.modify wait (·.end .notReady) } }
    { s with endpointToId := s.endpointToId.erase entry.endpoint
             batches := s.batches.erase id
             sessions := s.sessions.erase id }

def runReaper (due : List ℕ) : Server E :=
  if s.gateOpen = false ∨ s.started = false then s else due.foldl expire s

def start : Server E :=
  if s.started then s
  else { s with started := true
                gateOpen := true
                generation := s.generation + 1
                channel := { s.channel with generation := s.channel.generation + 1
                                            opened := true
                                            stopRequested := false }
                heard := [] }

/-- What every `stop` does: the gate is closed and the waits are ended. -/
def requestStop : Server E :=
  { s with gateOpen := false
           started := false
           channel := { s.channel with opened := false
                                       stopRequested := true
                                       waits := s.channel.waits.map (·.end .cancelledWhileWaiting) } }

/-- `stop`. A caller that the shutdown needs only requests it. -/
def stop (cfg : Settings) (requestOnly : Bool) : Server E :=
  if requestOnly then s.requestStop
  else { s.requestStop with batches := ∅
                            endpointToId := ∅
                            sessions := ∅
                            nextClientId := 1
                            announced := []
                            channel := if cfg.factoryManaged then .fresh else s.requestStop.channel }

def step (cfg : Settings) : ServerOp E → Server E
  | .start => s.start
  | .stop requestOnly => s.stop cfg requestOnly
  | .datagram endpoint d => s.datagram cfg endpoint d
  | .reap due => s.runReaper due

def run (cfg : Settings) (ops : List (ServerOp E)) : Server E := ops.foldl (step · cfg) s

def waitRejection (entry : SessionEntry E) : Option SendRejection :=
  match entry.wait.bind (s.channel.waits[·]?) with
  | none => none
  | some w => if w.endedBy.isSome ∨ w.sequence ≠ s.channel.generation then some .notReady else none

end Server
end Wirestead.Wrapper.UdpServer
