import Wirestead.Diagnostics.LedgerLive
import Wirestead.Transport.TcpClient.Strand

/-! # The sender inside the client

The members of the client that sending depends on, and the moves they make. Between two
moves other threads may act; what the running handler has in hand meanwhile is kept
beside the state. The moves that keep the promises of sending only by luck are marked
with the flaw they carry.
-/
namespace Wirestead.Transport.TcpClient
open Diagnostics Sizes

/-- The run of an operation. -/
def Operation.seq : Operation → ℕ
  | .resolve seq => seq
  | .connectTimer seq => seq
  | .connect seq => seq
  | .handshake seq => seq
  | .retryTimer seq => seq
  | .read seq _ => seq
  | .write seq _ _ => seq
  | .idleTimer seq _ _ => seq

/-- The batch that a write owns. -/
def Operation.batch? : Operation → Option WriteBatch
  | .write _ _ b => some b
  | _ => none

/-- The buffer that a posted write handler owns. -/
def Handler.item? : Handler → Option TrackedBuffer
  | .write item _ _ => some item
  | .tryWrite item _ _ => some item
  | _ => none

/-- The run that a start handler begins. -/
def Handler.start? : Handler → Option ℕ
  | .start seq => some seq
  | _ => none

structure Sender (N : Type*) where
  lifecycleSeq : ℕ
  currentSeq : ℕ
  connectionSeq : ℕ
  stopRequested : Bool
  stopping : Bool
  connected : Bool
  state : LinkState
  counters : Counters
  backpressureActive : Bool
  tx : List TrackedBuffer
  pending : List TrackedBuffer
  activeWrite : Option WriteBatch
  writing : Bool
  nextToken : ℕ
  ledger : Ledger N
  posted : List Handler
  outstanding : List Outstanding
  script : Script
  trace : List Event

def State.sender {N : Type*} (s : State N) : Sender N :=
  ⟨s.lifecycleSeq,s.currentSeq,s.connectionSeq,s.stopRequested,s.stopping,s.connected,s.state,s.counters,
    s.backpressureActive,s.tx,s.pending,s.activeWrite,s.writing,s.nextToken,s.ledger,s.posted,s.outstanding,
    s.script,s.trace⟩

/-- A write that has not completed, with its run and its connection. -/
structure Flight where
  seq : ℕ
  connection : ℕ
  batch : WriteBatch
  deriving DecidableEq, Repr

def Operation.flight? : Operation → Option Flight
  | .write seq connection b => some ⟨seq,connection,b⟩
  | _ => none

/-- The writes among the started operations. -/
def writes (ops : List Outstanding) : List Flight := ops.filterMap (fun o => o.operation.flight?)

def totalBytes (items : List TrackedBuffer) : ℕ := (items.map TrackedBuffer.size).sum

@[simp]
theorem totalBytes_nil : totalBytes [] = 0 := rfl

@[simp]
theorem totalBytes_cons (item : TrackedBuffer) (items : List TrackedBuffer) :
    totalBytes (item :: items) = item.size + totalBytes items := by
  unfold totalBytes
  rw [List.map_cons, List.sum_cons]

@[simp]
theorem totalBytes_append (l r : List TrackedBuffer) : totalBytes (l ++ r) = totalBytes l + totalBytes r := by
  unfold totalBytes
  rw [List.map_append, List.sum_append]

/-- What is taken from the queue, what stays, and the count of what is taken. -/
theorem takeGatherBatch_append (tx : List TrackedBuffer) :
    (takeGatherBatch tx).1 ++ (takeGatherBatch tx).2.1 = tx ∧
    (takeGatherBatch tx).2.2 = totalBytes (takeGatherBatch tx).1 := by
  have hloop : ∀ (tx : List TrackedBuffer) (count total : ℕ),
      (takeGatherLoop tx count total).1 ++ (takeGatherLoop tx count total).2.1 = tx ∧
      (takeGatherLoop tx count total).2.2 = total + totalBytes (takeGatherLoop tx count total).1 := by
    intro tx
    induction tx with
    | nil => exact fun _ _ => ⟨rfl,rfl⟩
    | cons item rest ih =>
      intro count total
      unfold takeGatherLoop
      split
      · dsimp only
        obtain ⟨happend,hsum⟩ := ih (count + 1) (total + item.size)
        refine ⟨by rw [List.cons_append, happend],?_⟩
        rw [hsum, totalBytes, totalBytes, List.map_cons, List.sum_cons, Nat.add_assoc]
      · exact ⟨rfl,rfl⟩
  obtain ⟨happend,hsum⟩ := hloop tx 0 0
  exact ⟨happend,hsum.trans (Nat.zero_add _)⟩

theorem takeGatherBatch_ne_nil {tx : List TrackedBuffer} (h : tx ≠ []) : (takeGatherBatch tx).1 ≠ [] := by
  cases tx with
  | nil => exact absurd rfl h
  | cons item rest =>
    unfold takeGatherBatch takeGatherLoop
    rw [if_pos ⟨by decide,by decide⟩]
    exact List.cons_ne_nil _ _

/-- What the running handler has in hand: nothing, an entry that it has queued and will
look after, the end of a write, or a batch taken from the queue. -/
inductive Hand
  | empty
  | queued
  | finishing
  | batch (buffers : List TrackedBuffer)

namespace Hand

def front : Hand → List TrackedBuffer
  | .batch buffers => buffers
  | _ => []

/-- The handler may enter `do_write`. -/
def MayWrite (writing : Bool) : Hand → Prop
  | .empty => writing = false
  | .queued => writing = false
  | .finishing => True
  | .batch _ => False

end Hand

/-- How a run can break a promise of sending: bytes stay reserved after a failed call, a
nonblocking write overtakes parked ones, a lost connection leaves its queues behind, and
an aborted write ends the writer. -/
inductive Flaw
  | leak
  | overtake
  | strand
  | abort
  deriving DecidableEq, Repr

namespace Sender
variable {N : Type*} [CommRing N] (a : Sender N)

def disconnect : Sender N :=
  if a.connected then
    { a with connected := false
             ledger := a.ledger.endAll .connectionLoss
             connectionSeq := a.connectionSeq + 1 }
  else a

@[simp]
theorem disconnect_currentSeq : a.disconnect.currentSeq = a.currentSeq := by
  unfold disconnect
  split <;> rfl

@[simp]
theorem disconnect_script : a.disconnect.script = a.script := by
  unfold disconnect
  split <;> rfl

/-- The queues and their counters are emptied, and pressure is off. -/
def clear : Sender N :=
  { a with tx := []
           pending := []
           counters := ⟨0,0,a.counters.inflightBytes⟩
           writing := false
           backpressureActive := false }

/-- A connection ends with what was queued for it. -/
def lose : Sender N := { a.disconnect.clear with activeWrite := none }

@[simp]
theorem disconnect_posted : a.disconnect.posted = a.posted := by
  unfold disconnect
  split <;> rfl

@[simp]
theorem disconnect_lifecycleSeq : a.disconnect.lifecycleSeq = a.lifecycleSeq := by
  unfold disconnect
  split <;> rfl

theorem disconnect_connected : a.disconnect.connected = false := by
  unfold disconnect
  split
  · rfl
  · rename_i hc
    simpa using hc

theorem lose_connected : a.lose.connected = false := a.disconnect_connected

theorem lose_currentSeq : a.lose.currentSeq = a.currentSeq := a.disconnect_currentSeq

theorem lose_lifecycleSeq : a.lose.lifecycleSeq = a.lifecycleSeq := a.disconnect_lifecycleSeq

theorem lose_posted : a.lose.posted = a.posted := a.disconnect_posted

theorem lose_script : a.lose.script = a.script := a.disconnect_script

/-- OFF: the parked requests go to the queue. -/
def relieve (cfg : Config) : Sender N :=
  if ¬ (a.stopRequested ∨ a.stopping) ∧ a.backpressureActive = true ∧ a.counters.queueBytes ≤ cfg.bpLow then
    { a with counters := ⟨add a.counters.queueBytes a.counters.pendingBytes,0,a.counters.inflightBytes⟩
             tx := a.tx ++ a.pending
             pending := []
             backpressureActive := false }
  else a

omit [CommRing N] in
@[simp]
theorem relieve_frame (cfg : Config) : (a.relieve cfg).lifecycleSeq = a.lifecycleSeq ∧
    (a.relieve cfg).currentSeq = a.currentSeq ∧ (a.relieve cfg).posted = a.posted := by
  unfold relieve
  split <;> exact ⟨rfl,rfl,rfl⟩

/-- Something the ledger was told that leaves its live requests as they are. -/
def Relabels (c d : Ledger N) : Prop :=
  c.Valid → d.Valid ∧ c.nextId ≤ d.nextId ∧ ∀ id, d.contains id = c.contains id

/-- The request and the posted handler of an admission. -/
def accept (data : List UInt8) (handler : TrackedBuffer → Handler) : Sender N :=
  { a with ledger := (a.ledger.admitRequest data.length none).1
           posted := a.posted ++ [handler ⟨data,a.ledger.nextId + 1⟩]
           trace := .accepted ⟨data,a.ledger.nextId + 1⟩ a.connectionSeq a.connected :: a.trace }

/-- A batch that the ledger has let through becomes the active one. -/
def record (buffers : List TrackedBuffer) (bytes : ℕ) : Sender N :=
  { a with ledger := (a.ledger.beginBatch (buffers.map (·.request))).1
           activeWrite := some ⟨a.nextToken,buffers,bytes⟩
           nextToken := a.nextToken + 1
           trace := .asyncWrite a.connectionSeq ⟨a.nextToken,buffers,bytes⟩ :: a.trace }

/-- The ledger learns how far a batch got. -/
def settle (b : WriteBatch) (bytesWritten : ℕ) : Sender N :=
  { a with ledger := a.ledger.completeBatch (b.buffers.map (fun item => (item.request,item.size))) bytesWritten }

/-- A new run. -/
def restart : Sender N :=
  let d := Sender.disconnect { a with lifecycleSeq := a.lifecycleSeq + 1
                                      currentSeq := a.lifecycleSeq + 1
                                      stopRequested := false
                                      stopping := false
                                      counters := { a.counters with inflightBytes := 0 } }
  { d with writing := false
           counters := ⟨0,0,d.counters.inflightBytes⟩
           pending := []
           backpressureActive := false
           state := .idle
           posted := d.posted ++ [.start d.currentSeq] }

end Sender

/-- No stop was requested and the link is not in a terminal state. -/
def Sender.Open {N : Type*} (a : Sender N) : Prop :=
  a.stopRequested = false ∧ a.state ≠ .closed ∧ a.state ≠ .error

/-- A write of the payload may be admitted. -/
structure Sender.Admits {N : Type*} (a : Sender N) (data : List UInt8) : Prop where
  running : a.Open
  connected : a.connected = true
  started : a.currentSeq ≠ 0
  positive : 0 < data.length

section Moves
variable {N : Type*} [CommRing N] (cfg : Config) (allow : Flaw → Prop)

inductive Move : Hand × Sender N → Hand × Sender N → Prop
  | turn (h) (a : Sender N) (script) : Move (h,a) (h,{ a with script := script })
  -- the lifecycle
  | operate (a : Sender N) (o) : writes o = writes a.outstanding → Move (.empty,a) (.empty,{ a with outstanding := o })
  | pop (a : Sender N) (handler rest) : a.posted = handler :: rest → handler.item? = none →
      Move (.empty,a) (.empty,{ a with posted := rest })
  | enter (a : Sender N) (next) : a.connected = false → Move (.empty,a) (.empty,{ a with state := next })
  | connect (a : Sender N) : a.stopRequested = false →
      Move (.empty,a) (.empty,{ a with connected := true, state := .connected })
  | lose (a : Sender N) : Move (.empty,a) (.empty,a.lose)
  | strand (a : Sender N) : allow .strand → Move (.empty,a) (.empty,a.disconnect)
  | purge (a : Sender N) : a.connected = false → Move (.empty,a) (.empty,a.clear)
  | rest (a : Sender N) : a.connected = false → Move (.empty,a) (.empty,{ a with writing := false })
  | restart (a : Sender N) : a.state ≠ .connected → Move (.empty,a) (.empty,a.restart)
  -- calls from outside
  | post (h) (a : Sender N) (handler : Handler) : handler.item? = none → handler.start? = none →
      Move (h,a) (h,{ a with posted := a.posted ++ [handler] })
  | plain (h) (a : Sender N) (data : List UInt8) : a.Admits data →
      a.counters.total + data.length ≤ cfg.bpLimit →
      Move (h,a) (h,{ a with counters := { a.counters with
          inflightBytes := a.counters.inflightBytes + data.length } }.accept data
        (fun item => .write item a.currentSeq a.connectionSeq))
  | tryPlain (h) (a : Sender N) (data : List UInt8) : a.Admits data →
      a.backpressureActive = false → a.counters.total + data.length ≤ cfg.bpLimit →
      Move (h,a) (h,{ a with counters := { a.counters with
          queueBytes := a.counters.queueBytes + data.length } }.accept data
        (fun item => .tryWrite item a.currentSeq a.connectionSeq))
  | leak (h) (a : Sender N) (counters : Counters) (ledger) : allow .leak →
      counters.pendingBytes = a.counters.pendingBytes → a.counters.queueBytes ≤ counters.queueBytes →
      a.counters.inflightBytes ≤ counters.inflightBytes → counters.total ≤ cfg.bpLimit →
      Sender.Relabels a.ledger ledger → Move (h,a) (h,{ a with counters := counters, ledger := ledger })
  | relabel (h) (a : Sender N) (ledger) : Sender.Relabels a.ledger ledger →
      Move (h,a) (h,{ a with ledger := ledger })
  | stop (h) (a : Sender N) :
      Move (h,a) (h,{ a with stopRequested := true, stopping := true, ledger := a.ledger.endAll .explicitStop })
  -- the writer
  | queue (a) : Move (.empty,a) (.queued,a)
  | written (a) : a.writing = true → Move (.queued,a) (.empty,a)
  | take (h : Hand) (a : Sender N) (buffers rest) : h.MayWrite a.writing → a.Open → a.connected = true →
      a.tx = buffers ++ rest → buffers ≠ [] →
      Move (h,a) (.batch buffers,{ a with writing := true, tx := rest })
  | putBack (a : Sender N) (buffers) :
      a.stopRequested = true ∨ (a.ledger.beginBatch (buffers.map (·.request))).2 = false →
      Move (.batch buffers,a) (.empty,{ a with tx := buffers ++ a.tx, writing := false })
  | write (a : Sender N) (buffers o) : a.stopRequested = false →
      (a.ledger.beginBatch (buffers.map (·.request))).2 = true →
      writes o = writes a.outstanding ++
        [⟨a.currentSeq,a.connectionSeq,⟨a.nextToken,buffers,totalBytes buffers⟩⟩] →
      Move (.batch buffers,a) (.empty,{ a.record buffers (totalBytes buffers) with outstanding := o })
  | writeThrows (a : Sender N) (buffers) : a.stopRequested = false →
      (a.ledger.beginBatch (buffers.map (·.request))).2 = true →
      Move (.batch buffers,a) (.empty,(a.record buffers (totalBytes buffers)).lose)
  | idle (h : Hand) (a : Sender N) : h.MayWrite a.writing →
      a.connected = false ∨ a.tx = [] ∨ ¬ a.Open → Move (h,a) (.empty,{ a with writing := false })
  | halt (h : Hand) (a : Sender N) : h.MayWrite a.writing → a.stopRequested = true →
      Move (h,a) (.empty,{ a with tx := [], pending := [], counters := ⟨0,0,a.counters.inflightBytes⟩
                                  writing := false })
  | on (h) (a : Sender N) : a.backpressureActive = false → cfg.bpHigh ≤ a.counters.queueBytes →
      Move (h,a) (h,{ a with backpressureActive := true })
  | relieve (a : Sender N) : Move (.queued,a) (.queued,a.relieve cfg)
  -- the handlers of posted writes
  | route (a : Sender N) (item rest) : a.posted = .write item a.currentSeq a.connectionSeq :: rest → a.Open →
      a.backpressureActive = false →
      Move (.empty,a) (.queued,{ a with posted := rest, tx := a.tx ++ [item]
                                        counters := commitReservedLimitBytes a.counters .queue item.size })
  | park (a : Sender N) (item rest) : a.posted = .write item a.currentSeq a.connectionSeq :: rest → a.Open →
      a.backpressureActive = true →
      Move (.empty,a) (.empty,{ a with posted := rest, pending := a.pending ++ [item]
                                       counters := commitReservedLimitBytes a.counters .pending item.size })
  | drop (a : Sender N) (handler rest) (item : TrackedBuffer) (seq connection : ℕ) : a.posted = handler :: rest →
      handler = .write item seq connection ∧ seq ≠ a.currentSeq ∨
        handler = .tryWrite item seq connection ∧ (seq ≠ a.currentSeq ∨ connection ≠ a.connectionSeq) →
      Move (.empty,a) (.empty,{ a with posted := rest })
  | unreserve (a : Sender N) (item rest) (connection : ℕ) :
      a.posted = .write item a.currentSeq connection :: rest → connection ≠ a.connectionSeq ∨ ¬ a.Open →
      Move (.empty,a) (.empty,{ a with posted := rest
                                       counters := releaseReservedLimitBytes a.counters item.size })
  | routeTry (a : Sender N) (item rest) : a.posted = .tryWrite item a.currentSeq a.connectionSeq :: rest →
      a.Open → a.pending = [] ∨ allow .overtake →
      Move (.empty,a) (.queued,{ a with posted := rest, tx := a.tx ++ [item] })
  | unreserveTry (a : Sender N) (item rest) :
      a.posted = .tryWrite item a.currentSeq a.connectionSeq :: rest → ¬ a.Open →
      Move (.empty,a) (.empty,{ a with posted := rest
                                       counters := releaseReservedWriteBytes a.counters item.size })
  -- the completions of writes
  | complete (a : Sender N) (l r o seq) (b : WriteBatch) (n : ℕ) :
      writes a.outstanding = l ++ ⟨seq,a.connectionSeq,b⟩ :: r → writes o = l ++ r →
      Move (.empty,a) (.finishing,Sender.relieve { a.settle b n with
        outstanding := o, activeWrite := none, counters := releaseReservedWriteBytes a.counters b.bytes } cfg)
  | completeStale (a : Sender N) (l r o seq) (connection : ℕ) (b : WriteBatch) (n : ℕ) :
      writes a.outstanding = l ++ ⟨seq,connection,b⟩ :: r → connection ≠ a.connectionSeq → writes o = l ++ r →
      Move (.empty,a) (.empty,{ a.settle b n with outstanding := o
                                                  activeWrite := a.activeWrite.map (fun c =>
                                                    if c.token = b.token then { c with buffers := [] } else c) })
  | fail (a : Sender N) (l r o seq) (b : WriteBatch) (n : ℕ) :
      writes a.outstanding = l ++ ⟨seq,a.connectionSeq,b⟩ :: r → writes o = l ++ r →
      Move (.empty,a) (.empty,({ a.settle b n with outstanding := o } : Sender N).lose)
  | giveUp (a : Sender N) : allow .abort → Move (.finishing,a) (.empty,{ a with writing := false })

/-- A sequence of moves. -/
def Moves : Hand × Sender N → Hand × Sender N → Prop := Relation.ReflTransGen (Move cfg allow)

/-- What every move keeps, a sequence of moves keeps. -/
theorem Moves.keeps {cfg : Config} {allow : Flaw → Prop} {J : Hand → Sender N → Prop}
    (hmove : ∀ {h a h' a'}, Move cfg allow (h,a) (h',a') → J h a → J h' a') {h h' : Hand} {a a' : Sender N}
    (hm : Moves cfg allow (h,a) (h',a')) (hj : J h a) : J h' a' := by
  have hgen : ∀ {p q : Hand × Sender N}, Moves cfg allow p q → J p.1 p.2 → J q.1 q.2 := by
    intro p q hpq hp
    induction hpq with
    | refl => exact hp
    | tail _ hlast ih => exact hmove hlast ih
  exact hgen hm hj

end Moves
end Wirestead.Transport.TcpClient
