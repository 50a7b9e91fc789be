import Wirestead.Transport.Bounds

/-! # The backpressure hysteresis over runs

The strand calls the shared state machine with the flush hook of the transports, routes
new buffers, and hands batches to the socket. The counters are shared with admission, so
other threads may change them before every step and during the callbacks.
-/
namespace Wirestead.Transport
open Sizes

/-- The write queue of a transport. The events are what the callback saw, with the flag
at that time; what was routed and what was written are kept as histories. -/
structure WriteQueue (B : Type*) where
  tx : List B
  pending : List B
  batch : List B
  counters : Counters
  backpressureActive : Bool
  events : List (Bool × ℕ)
  backpressureEvents : ℕ
  routed : List B
  written : List B

namespace WriteQueue
variable {B : Type*}

def new : WriteQueue B := ⟨[],[],[],.zero,false,[],0,[],[]⟩

/-- `while (!pending_.empty())`: the front of the parked buffers goes to the end of `tx_`. -/
def flushLoop : List B → List B → List B
  | tx, [] => tx
  | tx, x :: pending => flushLoop (tx ++ [x]) pending

/-- The flush hook: the bytes that `pending_bytes_.exchange(0)` gave, and the buffers. -/
def flushPendingIntoTx (s : WriteQueue B) : ℕ × WriteQueue B :=
  (s.counters.pendingBytes,
    { s with counters := { s.counters with pendingBytes := 0 }
             tx := flushLoop s.tx s.pending
             pending := [] })

/-- A write takes buffers from the front; how many is up to the transport. -/
def takeBatch (taken : ℕ) (s : WriteQueue B) : WriteQueue B :=
  { s with batch := s.batch ++ s.tx.take taken, tx := s.tx.drop taken }

/-- The fields of `report_backpressure`. During a callback `others` happens to the
counters; the kick takes a batch if no write is going on. -/
def fields (b : Bounds) (others : Counters → Counters) (taken : ℕ) : BackpressureFields (WriteQueue B) where
  bpHigh := b.bpHigh
  bpLow := b.bpLow
  backpressureActive s := s.backpressureActive
  setBackpressureActive active s := { s with backpressureActive := active }
  queueBytes s := s.counters.queueBytes
  setQueueBytes n s := { s with counters := { s.counters with queueBytes := n } }
  onBackpressure n s :=
    { s with events := s.events ++ [(s.backpressureActive,n)]
             backpressureEvents := s.backpressureEvents + 1
             counters := others s.counters }
  flushPendingIntoTx := flushPendingIntoTx
  kickWrite s := if s.batch.isEmpty then s.takeBatch taken else s

def report (b : Bounds) (others : Counters → Counters) (taken : ℕ) (s : WriteQueue B) : WriteQueue B :=
  reportBackpressure (fields b others taken) s.counters.queueBytes s

/-- `route_enqueued_buffer` up to its report. -/
def routeEnqueuedBuffer (b : Bounds) (size : B → ℕ) (buf : B) (s : WriteQueue B) : WriteQueue B :=
  match decideEnqueue s.counters.queueBytes s.counters.pendingBytes s.backpressureActive (size buf)
      b.bpLimit with
  | some .immediate =>
    { s with counters := commitReservedLimitBytes s.counters .queue (size buf)
             tx := s.tx ++ [buf], routed := s.routed ++ [buf] }
  | some .pending =>
    { s with counters := commitReservedLimitBytes s.counters .pending (size buf)
             pending := s.pending ++ [buf], routed := s.routed ++ [buf] }
  | _ => { s with counters := releaseReservedLimitBytes s.counters (size buf) }

/-- A write is over: its bytes are released. -/
def releaseBatch (size : B → ℕ) (s : WriteQueue B) : WriteQueue B :=
  { s with counters := releaseReservedWriteBytes s.counters (s.batch.map size).sum
           written := s.written ++ s.batch, batch := [] }

/-- A write failed: its buffers go back to the front. -/
def returnBatch (s : WriteQueue B) : WriteQueue B := { s with tx := s.batch ++ s.tx, batch := [] }

end WriteQueue

/-- A step of the strand, or a change of the counters by other threads. -/
inductive QueueOp (B : Type*)
  | report (others : Counters → Counters) (taken : ℕ)
  | commit (others : Counters → Counters)
  | route (buf : B)
  | write (taken : ℕ)
  | written
  | writeFailed

namespace WriteQueue
variable {B : Type*} (b : Bounds) (size : B → ℕ)

def step (s : WriteQueue B) : QueueOp B → WriteQueue B
  | .report others taken => s.report b others taken
  | .commit others => { s with counters := others s.counters }
  | .route buf => s.routeEnqueuedBuffer b size buf
  | .write taken => s.takeBatch taken
  | .written => s.releaseBatch size
  | .writeFailed => s.returnBatch

def run (s : WriteQueue B) (ops : List (QueueOp B)) : WriteQueue B := ops.foldl (step b size) s

/-- The events alternate and start with ON, their values are beyond the bounds, the flag
and the counter say which was the last. Buffers are parked only under backpressure, and
all that were routed are there in order. -/
structure Regular (s : WriteQueue B) : Prop where
  kinds : ∀ i (h : i < s.events.length), s.events[i].1 = decide (i % 2 = 0)
  values : ∀ e ∈ s.events, if e.1 then b.bpHigh ≤ e.2 else e.2 ≤ b.bpLow
  active : s.backpressureActive = decide (s.events.length % 2 = 1)
  counted : s.backpressureEvents = s.events.length
  parked : s.pending ≠ [] → s.backpressureActive = true
  order : s.written ++ s.batch ++ s.tx ++ s.pending = s.routed

variable {b size} {s : WriteQueue B}

theorem flushLoop_eq (tx pending : List B) : flushLoop tx pending = tx ++ pending := by
  induction pending generalizing tx with
  | nil => simp [flushLoop]
  | cons x pending ih => simp [flushLoop, ih]

/-- An event of the other kind than the last one. -/
theorem Regular.event (h : Regular b s) (active : Bool) (hactive : s.backpressureActive = !active) {n : ℕ}
    (hn : if active then b.bpHigh ≤ n else n ≤ b.bpLow) (hpending : active = false → s.pending = [])
    (others : Counters → Counters) (taken : ℕ) :
    Regular b ((fields b others taken).onBackpressure n
      ((fields b others taken).setBackpressureActive active s)) where
  kinds i hi := by
    change (s.events ++ [(active,n)])[i].1 = decide (i % 2 = 0)
    change i < (s.events ++ [(active,n)]).length at hi
    rw [List.length_append, List.length_singleton] at hi
    by_cases hlast : i < s.events.length
    · rw [List.getElem_append_left hlast]
      exact h.kinds i hlast
    · have hlen : i = s.events.length := by omega
      have hflag := h.active
      rw [hactive] at hflag
      rw [List.getElem_append_right (by omega), List.getElem_singleton]
      subst hlen
      change active = _
      cases active <;> simp at hflag ⊢ <;> omega
  values e he := by
    change e ∈ s.events ++ [(active,n)] at he
    obtain he | he := List.mem_append.mp he
    · exact h.values e he
    · rw [List.mem_singleton.mp he]
      exact hn
  active := by
    have hflag := h.active
    rw [hactive] at hflag
    change active = decide ((s.events ++ [(active,n)]).length % 2 = 1)
    rw [List.length_append, List.length_singleton]
    cases active <;> simp at hflag ⊢ <;> omega
  counted := by
    change s.backpressureEvents + 1 = (s.events ++ [(active,n)]).length
    rw [h.counted, List.length_append, List.length_singleton]
  parked hp := by
    change s.pending ≠ [] at hp
    change active = true
    cases active with
    | false => exact absurd (hpending rfl) hp
    | true => rfl
  order := h.order

/-- The counters do not matter. -/
theorem Regular.counters (h : Regular b s) (c : Counters) : Regular b { s with counters := c } :=
  ⟨h.kinds,h.values,h.active,h.counted,h.parked,h.order⟩

theorem takeBatch_order (s : WriteQueue B) (taken : ℕ) :
    (s.takeBatch taken).batch ++ (s.takeBatch taken).tx = s.batch ++ s.tx := by
  simp [WriteQueue.takeBatch]

theorem Regular.takeBatch (h : Regular b s) (taken : ℕ) : Regular b (s.takeBatch taken) where
  kinds := h.kinds
  values := h.values
  active := h.active
  counted := h.counted
  parked := h.parked
  order := by
    have htake := s.takeBatch_order taken
    have horder := h.order
    rw [List.append_assoc s.written, ← htake, ← List.append_assoc s.written] at horder
    exact horder

/-- The parked buffers go behind the others, the counters keep their sum. -/
theorem Regular.flush (h : Regular b s) (n : ℕ) :
    let t : WriteQueue B := { s.flushPendingIntoTx.2 with counters := ⟨n,0,s.counters.inflightBytes⟩ }
    t.pending = [] ∧ t.tx = s.tx ++ s.pending ∧ Regular b t where
  left := rfl
  right.left := flushLoop_eq s.tx s.pending
  right.right :=
    { kinds := h.kinds
      values := h.values
      active := h.active
      counted := h.counted
      parked := fun hp => absurd rfl hp
      order := by
        have horder := h.order
        change s.written ++ s.batch ++ flushLoop s.tx s.pending ++ [] = s.routed
        rw [flushLoop_eq, List.append_nil, ← List.append_assoc]
        exact horder }

/-- The queue right after the OFF event. -/
def afterOff (others : Counters → Counters) (s : WriteQueue B) : WriteQueue B :=
  { s with
    counters := others ⟨add s.counters.queueBytes s.counters.pendingBytes,0,s.counters.inflightBytes⟩
    tx := flushLoop s.tx s.pending
    pending := []
    backpressureActive := false
    events := s.events ++ [(false,s.counters.queueBytes)]
    backpressureEvents := s.backpressureEvents + 1 }

/-- The queue right after an ON event. -/
def afterOn (others : Counters → Counters) (s : WriteQueue B) : WriteQueue B :=
  { s with
    counters := others s.counters
    backpressureActive := true
    events := s.events ++ [(true,s.counters.queueBytes)]
    backpressureEvents := s.backpressureEvents + 1 }

def kick (taken : ℕ) (s : WriteQueue B) : WriteQueue B :=
  if s.batch.isEmpty then s.takeBatch taken else s

theorem report_eq (b : Bounds) (others : Counters → Counters) (taken : ℕ) (s : WriteQueue B) :
    s.report b others taken =
      if s.backpressureActive = false ∧ b.bpHigh ≤ s.counters.queueBytes then s.afterOn others
      else if s.backpressureActive = true ∧ s.counters.queueBytes ≤ b.bpLow then
        (if b.bpHigh ≤ (s.afterOff others).counters.queueBytes then (s.afterOff others).afterOn others
          else s.afterOff others).kick taken
      else s := rfl

/-- What a call does: ON, OFF and perhaps ON again, or nothing. -/
theorem report_cases (b : Bounds) (others : Counters → Counters) (taken : ℕ) (s : WriteQueue B) :
    (s.backpressureActive = false ∧ b.bpHigh ≤ s.counters.queueBytes ∧
      s.report b others taken = s.afterOn others) ∨
    (s.backpressureActive = true ∧ s.counters.queueBytes ≤ b.bpLow ∧
      b.bpHigh ≤ (s.afterOff others).counters.queueBytes ∧
      s.report b others taken = ((s.afterOff others).afterOn others).kick taken) ∨
    (s.backpressureActive = true ∧ s.counters.queueBytes ≤ b.bpLow ∧
      s.report b others taken = (s.afterOff others).kick taken) ∨
    (¬(s.backpressureActive = true ∧ s.counters.queueBytes ≤ b.bpLow) ∧ s.report b others taken = s) := by
  rw [report_eq]
  by_cases hon : s.backpressureActive = false ∧ b.bpHigh ≤ s.counters.queueBytes
  · exact .inl ⟨hon.1,hon.2,if_pos hon⟩
  · rw [if_neg hon]
    by_cases hoff : s.backpressureActive = true ∧ s.counters.queueBytes ≤ b.bpLow
    · rw [if_pos hoff]
      by_cases hagain : b.bpHigh ≤ (s.afterOff others).counters.queueBytes
      · exact .inr (.inl ⟨hoff.1,hoff.2,hagain,congrArg (kick taken) (if_pos hagain)⟩)
      · exact .inr (.inr (.inl ⟨hoff.1,hoff.2,congrArg (kick taken) (if_neg hagain)⟩))
    · exact .inr (.inr (.inr ⟨hoff,if_neg hoff⟩))

theorem Regular.afterOn (h : Regular b s) (hactive : s.backpressureActive = false)
    (hhigh : b.bpHigh ≤ s.counters.queueBytes) (others : Counters → Counters) :
    Regular b (s.afterOn others) :=
  h.event true hactive hhigh (fun h => absurd h (by decide)) others 0

theorem Regular.afterOff (h : Regular b s) (hactive : s.backpressureActive = true)
    (hlow : s.counters.queueBytes ≤ b.bpLow) (others : Counters → Counters) :
    Regular b (s.afterOff others) := by
  obtain ⟨hpending,-,hflush⟩ := h.flush (add s.counters.queueBytes s.counters.pendingBytes)
  exact hflush.event false hactive hlow (fun _ => hpending) others 0

theorem Regular.kick (h : Regular b s) (taken : ℕ) : Regular b (s.kick taken) := by
  unfold WriteQueue.kick
  split
  · exact h.takeBatch taken
  · exact h

theorem Regular.report (h : Regular b s) (others : Counters → Counters) (taken : ℕ) :
    Regular b (s.report b others taken) := by
  obtain ⟨hactive,hhigh,he⟩ | ⟨hactive,hlow,hagain,he⟩ | ⟨hactive,hlow,he⟩ | ⟨-,he⟩ :=
    s.report_cases b others taken
  · rw [he]
    exact h.afterOn hactive hhigh others
  · rw [he]
    exact ((h.afterOff hactive hlow others).afterOn rfl hagain others).kick taken
  · rw [he]
    exact (h.afterOff hactive hlow others).kick taken
  · rw [he]
    exact h

/-- The flag alone decides where an accepted buffer goes. -/
theorem decideEnqueue_active {queued pending added limit : ℕ} {active : Bool} {d : EnqueueDecision}
    (h : decideEnqueue queued pending active added limit = some d) :
    (d = .immediate → active = false) ∧ (d = .pending → active = true) := by
  rw [decideEnqueue_eq] at h
  cases h
  cases active <;> split <;> simp

/-- Where a buffer is parked the flag is set, where it is queued nothing is parked. -/
theorem Regular.routeEnqueuedBuffer (h : Regular b s) (buf : B) :
    Regular b (s.routeEnqueuedBuffer b size buf) := by
  unfold WriteQueue.routeEnqueuedBuffer
  split
  · rename_i hd
    have hactive := (decideEnqueue_active hd).1 rfl
    have hpending : s.pending = [] := by
      by_contra hp
      exact absurd (hactive.symm.trans (h.parked hp)) (by decide)
    refine ⟨h.kinds,h.values,h.active,h.counted,h.parked,?_⟩
    have horder := h.order
    rw [hpending, List.append_nil] at horder
    change s.written ++ s.batch ++ (s.tx ++ [buf]) ++ s.pending = s.routed ++ [buf]
    rw [hpending, List.append_nil, ← List.append_assoc, horder]
  · rename_i hd
    refine ⟨h.kinds,h.values,h.active,h.counted,fun _ => (decideEnqueue_active hd).2 rfl,?_⟩
    change s.written ++ s.batch ++ s.tx ++ (s.pending ++ [buf]) = s.routed ++ [buf]
    rw [← List.append_assoc, h.order]
  · exact h.counters _

theorem Regular.step (h : Regular b s) (op : QueueOp B) : Regular b (s.step b size op) := by
  cases op with
  | report others taken => exact h.report others taken
  | commit others => exact h.counters _
  | route buf => exact h.routeEnqueuedBuffer buf
  | write taken => exact h.takeBatch taken
  | written =>
    refine ⟨h.kinds,h.values,h.active,h.counted,h.parked,?_⟩
    have horder := h.order
    change s.written ++ s.batch ++ [] ++ s.tx ++ s.pending = s.routed
    rw [List.append_nil]
    exact horder
  | writeFailed =>
    refine ⟨h.kinds,h.values,h.active,h.counted,h.parked,?_⟩
    have horder := h.order
    change s.written ++ [] ++ (s.batch ++ s.tx) ++ s.pending = s.routed
    rw [List.append_nil, ← List.append_assoc]
    exact horder

theorem regular_new : Regular b (new : WriteQueue B) where
  kinds _ h := absurd h (Nat.not_lt_zero _)
  values _ h := absurd h List.not_mem_nil
  active := rfl
  counted := rfl
  parked h := absurd rfl h
  order := rfl

theorem Regular.run (h : Regular b s) (ops : List (QueueOp B)) : Regular b (s.run b size ops) := by
  induction ops generalizing s with
  | nil => exact h
  | cons op ops ih => exact ih (h.step op)

/-- The flag is that of the last event. -/
theorem Regular.last (h : Regular b s) :
    s.backpressureActive = (s.events.getLast?.map Prod.fst).getD false := by
  rw [h.active]
  cases he : s.events.getLast? with
  | none =>
    rw [List.getLast?_eq_none_iff] at he
    simp [he]
  | some e =>
    rw [List.getLast?_eq_getElem?, List.getElem?_eq_some_iff] at he
    obtain ⟨hi,rfl⟩ := he
    rw [Option.map_some, Option.getD_some, h.kinds _ hi]
    congr 1
    apply propext
    omega

/-- After any run: the events alternate from ON, lie beyond the bounds and agree with the
flag and the counter; buffers are parked only under backpressure, and the routed ones
are all there in order. The next OFF step moves what is parked behind the others and
keeps the sum of the counters. -/
theorem hysteresis_regular (b : Bounds) (size : B → ℕ) (ops : List (QueueOp B)) :
    let s := (new : WriteQueue B).run b size ops
    (∀ i (h : i < s.events.length), s.events[i].1 = decide (i % 2 = 0)) ∧
    (∀ e ∈ s.events, if e.1 then b.bpHigh ≤ e.2 else e.2 ≤ b.bpLow) ∧
    s.backpressureActive = (s.events.getLast?.map Prod.fst).getD false ∧
    s.backpressureEvents = s.events.length ∧
    (s.pending ≠ [] → s.backpressureActive = true) ∧
    s.written ++ s.batch ++ s.tx ++ s.pending = s.routed ∧
    (s.backpressureActive = true → s.counters.queueBytes ≤ b.bpLow → ∀ others taken,
      let t := s.step b size (.report others taken)
      t.pending = [] ∧ t.written = s.written ∧ t.batch ++ t.tx = s.batch ++ s.tx ++ s.pending ∧
      (others = id → add t.counters.queueBytes t.counters.pendingBytes =
        add s.counters.queueBytes s.counters.pendingBytes)) := by
  intro s
  have h : Regular b s := regular_new.run ops
  refine ⟨h.kinds,h.values,h.last,h.counted,h.parked,h.order,fun hactive hlow others taken => ?_⟩
  -- the kick and a second ON leave the buffers in their order and the counters alone
  have hkick : ∀ t : WriteQueue B, (t.kick taken).pending = t.pending ∧ (t.kick taken).written = t.written ∧
      (t.kick taken).batch ++ (t.kick taken).tx = t.batch ++ t.tx ∧ (t.kick taken).counters = t.counters := by
    intro t
    unfold kick
    split
    · exact ⟨rfl,rfl,t.takeBatch_order taken,rfl⟩
    · exact ⟨rfl,rfl,rfl,rfl⟩
  have htx : s.batch ++ (s.afterOff others).tx = s.batch ++ s.tx ++ s.pending := by
    change s.batch ++ flushLoop s.tx s.pending = _
    rw [flushLoop_eq, ← List.append_assoc]
  have hsum : add (add s.counters.queueBytes s.counters.pendingBytes) 0 =
      add s.counters.queueBytes s.counters.pendingBytes := by
    simp [add]
  change (s.report b others taken).pending = [] ∧ (s.report b others taken).written = _ ∧
    (s.report b others taken).batch ++ (s.report b others taken).tx = _ ∧ (_ →
    add (s.report b others taken).counters.queueBytes (s.report b others taken).counters.pendingBytes = _)
  obtain ⟨hno,-,-⟩ | ⟨-,-,-,he⟩ | ⟨-,-,he⟩ | ⟨hno,-⟩ := s.report_cases b others taken
  · exact absurd (hactive.symm.trans hno) (by decide)
  · obtain ⟨h1,h2,h3,h4⟩ := hkick ((s.afterOff others).afterOn others)
    rw [he, h1, h2, h3, h4]
    refine ⟨rfl,rfl,htx,?_⟩
    rintro rfl
    exact hsum
  · obtain ⟨h1,h2,h3,h4⟩ := hkick (s.afterOff others)
    rw [he, h1, h2, h3, h4]
    refine ⟨rfl,rfl,htx,?_⟩
    rintro rfl
    exact hsum
  · exact absurd ⟨hactive,hlow⟩ hno

end WriteQueue
end Wirestead.Transport
