import Wirestead.Transport.ServerSession.State
import Mathlib.Logic.Relation

/-! # The moves that the handlers of a session are made of

A handler takes up a write, a batch or a completion, and calls fall between its moves. A
move says all that one step can change and what the handler has looked at before; the
handlers are paths of moves.
-/
namespace Wirestead.Transport.ServerSession
open Diagnostics Sizes TcpClient

/-- What a handler has taken up: a write from the strand, a batch that is to be handed to
the socket, a completed write before and after the ledger knows, or the session that it
closes. -/
inductive Hand
  | empty
  | plain (item : TrackedBuffer)
  | tried (item : TrackedBuffer)
  | batch (buffers : List TrackedBuffer)
  | sent (bytesToWrite : ℕ)
  | confirmed (buffers : List TrackedBuffer)
  | done
  | leaving (announce : Bool)
  deriving DecidableEq, Repr

def Post.hand : Post → Hand
  | .enqueue item => .plain item
  | .tryEnqueue item => .tried item
  | .written bytesToWrite _ _ => .sent bytesToWrite
  | _ => .empty

namespace Session
variable {N : Type*} [CommRing N] (cfg : Config)

/-- A write has failed or could not be started. -/
def lost (s : Session N) : Session N :=
  { s with ledger := s.ledger.endAll .connectionLoss, closing := true }.endWait .notReady

/-- `do_close` before its callbacks. -/
def shut (s : Session N) : Session N :=
  let s : Session N := { s with cleanupDone := true
                                ledger := s.ledger.endAll .connectionLoss
                                alive := false
                                closing := true }.endWait .notReady
  { s with callbacks := Function.update s.callbacks .close false
           writing := if cfg.kind = .uds then false else s.writing
           tx := []
           pending := []
           counters := ⟨0,0,s.counters.inflightBytes⟩
           backpressureActive := false }

/-- The OFF transition before its callback. -/
def relieved (s : Session N) : Session N :=
  let flushed := s.flushPendingIntoTx
  { flushed.2 with counters.queueBytes := add flushed.2.counters.queueBytes flushed.1
                   backpressureActive := false }

/-- A batch is taken from the queue. -/
def begun (s : Session N) : Session N :=
  let batch := takeGatherBatch s.tx
  { s with writing := true
           tx := batch.2.1
           currentWriteBatch := batch.1
           ledger := (s.ledger.beginBatch (batch.1.map TrackedBuffer.request)).1 }

/-- The ledger is told what a write has confirmed. -/
def settled (s : Session N) (confirmed : ℕ) : Session N :=
  { s with
    ledger := s.ledger.completeBatch (s.currentWriteBatch.map (fun item => (item.request,item.size))) confirmed
    currentWriteBatch := [] }

/-- What a call can change, in one look at the session. -/
inductive Grow : Session N → Session N → Prop
  | accept (s : Session N) (data : List UInt8) (plain : Bool) (counters : Counters) (hopen : s.isOpen = true)
      (hdata : data ≠ []) (hroom : if plain then
        tryReserveLimitBytes s.counters data.length cfg.bpLimit = some (true,counters)
        else tryReserveWriteBytesLocked s.counters s.backpressureActive data.length cfg.bpHigh cfg.bpLimit =
          some (true,counters)) :
    Grow s (s.accept data counters plain).1
  | wake (s : Session N) : Grow s { s with alive := true }
  | halt (s : Session N) (reason : SendRejection) :
    Grow s ({ s with ledger := s.ledger.endAll .explicitStop, closing := true }.endWait reason)
  | endWait (s : Session N) (reason : SendRejection) : Grow s (s.endWait reason)
  | reset (s : Session N) : Grow s { s with ledger := s.ledger.reset }
  | post (s : Session N) (post : Post) (hhand : post.hand = .empty) : Grow s (s.post post)
  | complete (s : Session N) (bytesToWrite : ℕ) (failed : Bool) (n : ℕ) (hop : s.writeOp = some bytesToWrite) :
    Grow s ({ s with writeOp := none }.post (.written bytesToWrite failed n))
  | set (s : Session N) (callbacks : Callback → Bool) (hopen : s.closing = false) :
    Grow s { s with callbacks := callbacks }
  | aside (s : Session N) (idleArmed : Bool) (handshakes reads : ℕ) (script : Script) :
    Grow s { s with idleArmed := idleArmed, handshakes := handshakes, reads := reads, script := script }

/-- An event that a callback shows, where the handlers show it. -/
def Shows (s : Session N) (h : Hand) : Event → Prop
  | .connected => s.isOpen = true
  | .bytes _ => s.callbacks .bytes = true
  | .backpressure _ => s.callbacks .backpressure = true
  | .stopped => h = .empty ∧ s.cleanupDone = true ∧ ∀ c, s.callbacks c = false
  | _ => False

/-- A step of a handler, or a call between two steps. -/
inductive Move : Session N × Hand → Session N × Hand → Prop
  | grow (s t : Session N) (h : Hand) (hgrow : Grow cfg s t) : Move (s,h) (t,h)
  | take (s : Session N) (post : Post) (rest : List Post) (hqueue : s.queue = post :: rest) :
    Move (s,.empty) ({ s with queue := rest },post.hand)
  | emit (s : Session N) (h : Hand) (event : Event) (hshows : s.Shows h event) : Move (s,h) (s.emit event,h)
  | dropCallbacks (s : Session N) (h : Hand) : Move (s,h) ({ s with callbacks := fun _ => false },h)
  | forget (s : Session N) (item : TrackedBuffer) (hclosing : s.closing = true) :
    Move (s,.plain item) ({ s with counters := releaseReservedLimitBytes s.counters item.size },.empty)
  | forgetTried (s : Session N) (item : TrackedBuffer) (hclosing : s.closing = true) :
    Move (s,.tried item) ({ s with counters := releaseReservedWriteBytes s.counters item.size },.empty)
  | refuse (s : Session N) (item : TrackedBuffer) (hfull : decideEnqueue s.counters.queueBytes
      s.counters.pendingBytes s.backpressureActive item.size cfg.bpLimit = some .rejected) :
    Move (s,.plain item) ({ s with ledger := s.ledger.discard item.request .queuePressure
                                   counters := releaseReservedLimitBytes s.counters item.size },.empty)
  | park (s : Session N) (item : TrackedBuffer) (hclean : s.cleanupDone = false)
      (hactive : s.backpressureActive = true) :
    Move (s,.plain item) ({ s with counters := commitReservedLimitBytes s.counters .pending item.size
                                   pending := s.pending ++ [item] },.empty)
  | enqueue (s : Session N) (item : TrackedBuffer) (hclean : s.cleanupDone = false)
      (hactive : s.backpressureActive = false) :
    Move (s,.plain item) ({ s with counters := commitReservedLimitBytes s.counters .queue item.size
                                   tx := s.tx ++ [item] },.empty)
  | enqueueTried (s : Session N) (item : TrackedBuffer) (hclean : s.cleanupDone = false) :
    Move (s,.tried item) ({ s with tx := s.tx ++ [item] },.empty)
  | activate (s : Session N) (h : Hand) (hhigh : cfg.bpHigh ≤ s.counters.queueBytes ∨ s.isOpen = true) :
    Move (s,h) ({ s with backpressureActive := true },h)
  | relieve (s : Session N) (h : Hand) (hactive : s.backpressureActive = true) : Move (s,h) (s.relieved,h)
  | begin (s : Session N) (hopen : s.isOpen = true) (htx : s.tx ≠ []) (hwriting : s.writing = false) :
    Move (s,.empty) (s.begun,.batch (takeGatherBatch s.tx).1)
  | handOver (s : Session N) (buffers : List TrackedBuffer) (hbatch : s.currentWriteBatch = buffers) :
    Move (s,.batch buffers)
      ({ s with writeOp := some (totalBytes buffers), events := s.events ++ [.handed buffers] },.empty)
  | throwing (s : Session N) (buffers : List TrackedBuffer) : Move (s,.batch buffers) (s.lost,.empty)
  | ignore (s : Session N) (bytesToWrite : ℕ) (hclosing : s.closing = true) :
    Move (s,.sent bytesToWrite) ({ s with currentWriteBatch := [] },.empty)
  | confirm (s : Session N) (bytesToWrite confirmed : ℕ) (hopen : s.isOpen = true)
      (hbytes : bytesToWrite = totalBytes s.currentWriteBatch) :
    Move (s,.sent bytesToWrite) (s.settled confirmed,.confirmed s.currentWriteBatch)
  | fail (s : Session N) (bytesToWrite confirmed : ℕ) (hopen : s.isOpen = true) :
    Move (s,.sent bytesToWrite) ((s.settled confirmed).lost,.empty)
  | release (s : Session N) (buffers : List TrackedBuffer) :
    Move (s,.confirmed buffers)
      ({ s with counters := releaseReservedWriteBytes s.counters (totalBytes buffers) },.done)
  | rest (s : Session N) : Move (s,.done) ({ s with writing := false },.empty)
  | shut (s : Session N) (hclean : s.cleanupDone = false) : Move (s,.empty) (s.shut cfg,.leaving (s.callbacks .close))
  | leave (s : Session N) (announce : Bool) (hnone : ∀ c, s.callbacks c = false) :
    Move (s,.leaving announce) ({ s with events := s.events ++ if announce then [.closed] else [] },.empty)

/-- What any number of calls can change. -/
abbrev Growth : Session N → Session N → Prop := Relation.ReflTransGen (Grow cfg)

/-- A path of moves. -/
abbrev Path : Session N × Hand → Session N × Hand → Prop := Relation.ReflTransGen (Move cfg)

variable {cfg} {s t : Session N} {h : Hand}

theorem Grow.growth (g : Grow cfg s t) : Growth cfg s t := .single g

theorem Move.path {p q : Session N × Hand} (m : Move cfg p q) : Path cfg p q := .single m

theorem Growth.path (g : Growth cfg s t) : Path cfg (s,h) (t,h) := by
  induction g with
  | refl => exact .refl
  | tail _ g ih => exact ih.tail (.grow _ _ h g)

/-- What every move keeps holds at the end of a path. -/
theorem Path.induct {I : Session N × Hand → Prop} (hmove : ∀ p q, I p → Move cfg p q → I q) {p q : Session N × Hand}
    (hp : I p) (m : Path cfg p q) : I q := by
  induction m with
  | refl => exact hp
  | tail _ m ih => exact hmove _ _ ih m

omit [CommRing N] in
theorem endWait_eq (s : Session N) (reason : SendRejection) :
    s.endWait reason = { s with waitEndedBy := s.waitEndedBy.or (some reason) } := by
  unfold endWait
  cases hwait : s.waitEndedBy with
  | none => rfl
  | some r =>
    have hself : s = { s with waitEndedBy := some r } := by rw [← hwait]
    exact hself

theorem lost_eq (s : Session N) : s.lost = { s with
    ledger := s.ledger.endAll .connectionLoss
    closing := true
    waitEndedBy := s.waitEndedBy.or (some .notReady) } := by
  rw [lost, endWait_eq]

theorem shut_eq (s : Session N) : s.shut cfg = { s with
    cleanupDone := true
    ledger := s.ledger.endAll .connectionLoss
    alive := false
    closing := true
    waitEndedBy := s.waitEndedBy.or (some .notReady)
    callbacks := Function.update s.callbacks .close false
    writing := if cfg.kind = .uds then false else s.writing
    tx := []
    pending := []
    counters := ⟨0,0,s.counters.inflightBytes⟩
    backpressureActive := false } := by
  rw [shut, endWait_eq]

omit [CommRing N] in
theorem relieved_eq (s : Session N) : s.relieved = { s with
    tx := s.tx ++ s.pending
    pending := []
    counters := ⟨add s.counters.queueBytes s.counters.pendingBytes,0,s.counters.inflightBytes⟩
    backpressureActive := false } := rfl

/-- The write of the next admission. -/
def newItem (s : Session N) (data : List UInt8) : TrackedBuffer := ⟨data,s.ledger.nextId + 1⟩

theorem accept_eq (s : Session N) (data : List UInt8) (counters : Counters) (plain : Bool) :
    (s.accept data counters plain).1 = { s with
      counters := counters
      ledger := (s.ledger.admitRequest data.length none).1
      queue := s.queue ++ [if plain then .enqueue (s.newItem data) else .tryEnqueue (s.newItem data)]
      events := s.events ++ [.accepted plain (s.newItem data)] } := rfl

/-- What no call touches: a handler finds the queues as it left them. -/
structure Kept (s t : Session N) : Prop where
  tx : t.tx = s.tx
  pending : t.pending = s.pending
  batch : t.currentWriteBatch = s.currentWriteBatch
  writing : t.writing = s.writing
  active : t.backpressureActive = s.backpressureActive
  cleanupDone : t.cleanupDone = s.cleanupDone
  alive : s.alive = true → t.alive = true
  closing : s.closing = true → t.closing = true
  callbacks : s.closing = true → t.callbacks = s.callbacks
  queue : s.queue <+: t.queue

omit [CommRing N] in
theorem Kept.refl (s : Session N) : Kept s s := ⟨rfl,rfl,rfl,rfl,rfl,rfl,id,id,fun _ => rfl,List.prefix_rfl⟩

omit [CommRing N] in
theorem Kept.trans {u : Session N} (h : Kept s t) (k : Kept t u) : Kept s u where
  tx := k.tx.trans h.tx
  pending := k.pending.trans h.pending
  batch := k.batch.trans h.batch
  writing := k.writing.trans h.writing
  active := k.active.trans h.active
  cleanupDone := k.cleanupDone.trans h.cleanupDone
  alive := k.alive ∘ h.alive
  closing := k.closing ∘ h.closing
  callbacks := fun hc => (k.callbacks (h.closing hc)).trans (h.callbacks hc)
  queue := h.queue.trans k.queue

theorem Grow.kept (g : Grow cfg s t) : Kept s t := by
  have hposts : ∀ post, s.queue <+: s.queue ++ [post] := fun post => List.prefix_append _ _
  cases g with
  | accept => exact ⟨rfl,rfl,rfl,rfl,rfl,rfl,id,id,fun _ => rfl,hposts _⟩
  | wake => exact ⟨rfl,rfl,rfl,rfl,rfl,rfl,fun _ => rfl,id,fun _ => rfl,List.prefix_rfl⟩
  | halt =>
    rw [endWait_eq]
    exact ⟨rfl,rfl,rfl,rfl,rfl,rfl,id,fun _ => rfl,fun _ => rfl,List.prefix_rfl⟩
  | endWait =>
    rw [endWait_eq]
    exact ⟨rfl,rfl,rfl,rfl,rfl,rfl,id,id,fun _ => rfl,List.prefix_rfl⟩
  | reset | aside => exact ⟨rfl,rfl,rfl,rfl,rfl,rfl,id,id,fun _ => rfl,List.prefix_rfl⟩
  | post | complete => exact ⟨rfl,rfl,rfl,rfl,rfl,rfl,id,id,fun _ => rfl,hposts _⟩
  | set callbacks hopen =>
    refine ⟨rfl,rfl,rfl,rfl,rfl,rfl,id,id,fun hclosing => ?_,List.prefix_rfl⟩
    rw [hopen] at hclosing
    cases hclosing

theorem Growth.kept (g : Growth cfg s t) : Kept s t := by
  induction g with
  | refl => exact .refl s
  | tail _ g ih => exact ih.trans g.kept

section Calls
variable {data : List UInt8}

omit [CommRing N] in
theorem refusal_eq_none (h : s.refusal data = none) : s.isOpen = true ∧ data ≠ [] := by
  unfold refusal at h
  split_ifs at h with hopen hdata hsize
  exact ⟨by simpa using hopen,hdata⟩

theorem reservePlain_growth : Growth cfg s (s.reservePlain cfg data).1 := by
  unfold reservePlain
  split
  · exact .refl
  · rename_i hrefusal
    obtain ⟨hopen,hdata⟩ := refusal_eq_none hrefusal
    split
    · rename_i counters hroom
      exact (Grow.accept s data true counters hopen hdata hroom).growth
    · exact .refl

theorem reserveTry_growth : Growth cfg s (s.reserveTry cfg data).1 := by
  unfold reserveTry
  split
  · exact .refl
  · rename_i hrefusal
    obtain ⟨hopen,hdata⟩ := refusal_eq_none hrefusal
    split
    · exact .refl
    · split
      · rename_i counters hroom
        exact (Grow.accept s data false counters hopen hdata hroom).growth
      · exact .refl

theorem write_growth (entry : Entry) : Growth cfg s (s.write cfg data entry).1 := by
  cases entry with
  | copy | move | shared => exact reservePlain_growth
  | tryMove | tryShared => exact reserveTry_growth
  | tryCopy =>
    change Growth cfg s (s.tryWriteCopy cfg data).1
    unfold tryWriteCopy
    split_ifs
    · exact .refl
    · exact .refl
    · exact reserveTry_growth

end Calls

theorem post_growth (post : Post) (hhand : post.hand = .empty) : Growth cfg s (s.post post) :=
  (Grow.post s post hhand).growth

theorem aside_growth (idleArmed : Bool) (handshakes reads : ℕ) :
    Growth cfg s { s with idleArmed := idleArmed, handshakes := handshakes, reads := reads } :=
  (Grow.aside s idleArmed handshakes reads s.script).growth

theorem onSetCallback_growth (callback : Callback) (given : Bool) :
    Growth cfg s (s.onSetCallback cfg callback given) := by
  unfold onSetCallback
  split_ifs with hclosing
  · exact .refl
  · exact (Grow.set s _ (by simpa using (not_or.mp hclosing).1)).growth

theorem call_growth (op : CallOp) : Growth cfg s (s.call cfg op) := by
  cases op with
  | write data entry => exact write_growth entry
  | start =>
    change Growth cfg s (s.start cfg)
    unfold start
    split_ifs
    · exact .refl
    · exact (Grow.wake s).growth.trans (post_growth .start rfl)
  | setCallback callback given onStrand =>
    cases onStrand with
    | true => exact onSetCallback_growth callback given
    | false => exact post_growth _ rfl
  | cancel onStrand =>
    cases onStrand with
    | true => exact aside_growth _ _ _
    | false => exact post_growth _ rfl
  | requestStop => exact (Grow.halt s _).growth
  | cancelWriteWait => exact (Grow.endWait s _).growth
  | asyncStop => exact (Grow.halt s _).growth.trans (post_growth .stop rfl)
  | resetStats => exact (Grow.reset s).growth
  | handshakeDone failed =>
    change Growth cfg s (if s.handshakes = 0 then s else _)
    split_ifs
    · exact .refl
    · exact (aside_growth _ _ _).trans (post_growth _ rfl)
  | writeDone failed n =>
    cases hop : s.writeOp with
    | none =>
      simp only [call, hop]
      exact .refl
    | some bytesToWrite =>
      simp only [call, hop]
      exact (Grow.complete s bytesToWrite failed n hop).growth
  | readDone failed data =>
    change Growth cfg s (if s.reads = 0 then s else _)
    split_ifs
    · exact .refl
    · exact (aside_growth _ _ _).trans (post_growth _ rfl)
  | timerExpired =>
    change Growth cfg s (if s.idleArmed then _ else s)
    split_ifs
    · exact (aside_growth _ _ _).trans (post_growth _ rfl)
    · exact .refl

theorem calls_growth (ops : List CallOp) : Growth cfg s (s.calls cfg ops) := by
  induction ops generalizing s with
  | nil => exact .refl
  | cons op ops ih => exact (call_growth op).trans ih

theorem turn_growth : Growth cfg s (s.turn cfg) := by
  unfold turn
  split
  · exact .refl
  · exact (Grow.aside s _ _ _ _).growth.trans (calls_growth _)

end Session
end Wirestead.Transport.ServerSession
