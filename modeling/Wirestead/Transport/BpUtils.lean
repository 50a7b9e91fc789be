import Wirestead.Sizes.Checked

/-! # Write reservations and the backpressure state machine

The shared helpers of the transports: admission reserves bytes against the hard limit,
the strand commits or releases them. The reservation mutex makes each helper one step.
`none` stands for a subtraction that wrapped.
-/
namespace Wirestead.Transport
open Sizes

structure Counters where
  queueBytes : ℕ
  pendingBytes : ℕ
  inflightBytes : ℕ
  deriving DecidableEq, Repr

def Counters.zero : Counters := ⟨0,0,0⟩

def Counters.total (c : Counters) : ℕ := c.queueBytes + c.pendingBytes + c.inflightBytes

/-- The loop of `try_reserve_write_bytes` at its last turn: `queue` is the value that the
compare-exchange replaces. The flag is what the relaxed load saw. -/
def tryReserveWriteBytes (queue pending : ℕ) (backpressureActive : Bool)
    (bytes bpHigh bpLimit : ℕ) : Option (Bool × ℕ) :=
  if bytes = 0 ∨ bytes > bpLimit ∨ backpressureActive then some (false,queue)
  else
    (exceeds bpHigh [queue,bytes]).bind fun overHigh =>
      if overHigh then some (false,queue)
      else (exceeds bpLimit [queue,pending,bytes]).map fun overLimit =>
        if overLimit then (false,queue) else (true,add queue bytes)

/-- The overload that takes the reservation mutex: posts not yet routed count too. -/
def tryReserveWriteBytesLocked (c : Counters) (backpressureActive : Bool)
    (bytes bpHigh bpLimit : ℕ) : Option (Bool × Counters) :=
  if c.inflightBytes > bpLimit then some (false,c)
  else
    (sub bpLimit c.inflightBytes).bind fun limit =>
      (tryReserveWriteBytes c.queueBytes c.pendingBytes backpressureActive bytes bpHigh limit).map
        fun r => (r.1,{ c with queueBytes := r.2 })

def releaseReservedWriteBytes (c : Counters) (bytes : ℕ) : Counters :=
  { c with queueBytes := release c.queueBytes bytes }

def tryReserveLimitBytes (c : Counters) (added bpLimit : ℕ) : Option (Bool × Counters) :=
  if added = 0 ∨ added > bpLimit then some (false,c)
  else
    (exceeds bpLimit [c.queueBytes,c.pendingBytes,c.inflightBytes,added]).map fun exceeded =>
      if exceeded then (false,c) else (true,{ c with inflightBytes := add c.inflightBytes added })

def releaseReservedLimitBytes (c : Counters) (bytes : ℕ) : Counters :=
  { c with inflightBytes := release c.inflightBytes bytes }

/-- The counter that a reservation is promoted into. -/
inductive Counter
  | queue
  | pending
  deriving DecidableEq, Repr

def commitReservedLimitBytes (c : Counters) (counter : Counter) (bytes : ℕ) : Counters :=
  match counter with
  | .queue => ⟨add c.queueBytes bytes,c.pendingBytes,release c.inflightBytes bytes⟩
  | .pending => ⟨c.queueBytes,add c.pendingBytes bytes,release c.inflightBytes bytes⟩

inductive EnqueueDecision
  | immediate
  | pending
  | rejected
  deriving DecidableEq, Repr

/-- `decide_enqueue` on the values that its three loads gave. -/
def decideEnqueue (queued pending : ℕ) (backpressureActive : Bool) (added bpLimit : ℕ) :
    Option EnqueueDecision :=
  (exceeds bpLimit [queued,pending,added]).map fun exceeded =>
    if exceeded then .rejected else if backpressureActive then .pending else .immediate

/-- What `report_backpressure` reads and changes in a transport `S`: the references of
`BackpressureFields`, the callback, and the two hooks. -/
structure BackpressureFields (S : Type*) where
  bpHigh : ℕ
  bpLow : ℕ
  backpressureActive : S → Bool
  setBackpressureActive : Bool → S → S
  queueBytes : S → ℕ
  setQueueBytes : ℕ → S → S
  onBackpressure : ℕ → S → S
  flushPendingIntoTx : S → ℕ × S
  kickWrite : S → S

/-- ON, OFF with the flush of the parked requests, and ON again. -/
def reportBackpressure {S : Type*} (f : BackpressureFields S) (queuedBytes : ℕ) (s : S) : S :=
  if f.backpressureActive s = false ∧ f.bpHigh ≤ queuedBytes then
    f.onBackpressure queuedBytes (f.setBackpressureActive true s)
  else if f.backpressureActive s = true ∧ queuedBytes ≤ f.bpLow then
    let flushed := f.flushPendingIntoTx s
    let s := f.setQueueBytes (add (f.queueBytes flushed.2) flushed.1) flushed.2
    let s := f.onBackpressure queuedBytes (f.setBackpressureActive false s)
    let postFlush := f.queueBytes s
    let s := if f.bpHigh ≤ postFlush then
        f.onBackpressure postFlush (f.setBackpressureActive true s)
      else s
    f.kickWrite s
  else s

/-- A preorder that every hook respects is respected by the state machine. -/
theorem reportBackpressure_respects {S : Type*} (f : BackpressureFields S) {R : S → S → Prop}
    (refl : ∀ s, R s s) (trans : ∀ {s t u}, R s t → R t u → R s u)
    (active : ∀ b s, R s (f.setBackpressureActive b s)) (queue : ∀ n s, R s (f.setQueueBytes n s))
    (callback : ∀ n s, R s (f.onBackpressure n s)) (flush : ∀ s, R s (f.flushPendingIntoTx s).2)
    (kick : ∀ s, R s (f.kickWrite s)) (queuedBytes : ℕ) (s : S) :
    R s (reportBackpressure f queuedBytes s) := by
  have on : ∀ b n s, R s (f.onBackpressure n (f.setBackpressureActive b s)) :=
    fun b n s => trans (active b s) (callback n _)
  unfold reportBackpressure
  split_ifs
  · exact on true _ s
  · dsimp only
    have hoff := trans (trans (flush s) (queue (add (f.queueBytes (f.flushPendingIntoTx s).2)
      (f.flushPendingIntoTx s).1) _)) (on false queuedBytes _)
    split_ifs
    · exact trans hoff (trans (on true _ _) (kick _))
    · exact trans hoff (kick _)
  · exact refl s

section Specs
variable {c : Counters} {active : Bool} {bytes bpHigh bpLimit : ℕ}

/-- A reservation fits beside everything that was reserved before. -/
theorem tryReserveLimitBytes_eq (h : bpLimit < modulus) :
    tryReserveLimitBytes c bytes bpLimit =
      some (if 0 < bytes ∧ c.total + bytes ≤ bpLimit then
        (true,{ c with inflightBytes := c.inflightBytes + bytes }) else (false,c)) := by
  unfold tryReserveLimitBytes Counters.total
  have hsum : [c.queueBytes,c.pendingBytes,c.inflightBytes,bytes].sum =
      c.queueBytes + c.pendingBytes + c.inflightBytes + bytes := by simp [Nat.add_assoc]
  by_cases h1 : bytes = 0 ∨ bytes > bpLimit
  · rw [if_pos h1, if_neg (by omega)]
  · rw [if_neg h1]
    by_cases h2 : c.queueBytes + c.pendingBytes + c.inflightBytes + bytes ≤ bpLimit
    · rw [exceeds_of_le (hsum.le.trans h2), if_pos (by omega), Option.map_some]
      simp only [Bool.false_eq_true, if_false]
      rw [add_eq (by omega)]
    · rw [exceeds_of_lt (by omega), if_neg (by omega)]
      rfl

theorem tryReserveWriteBytes_eq {queue pending : ℕ} (h : bpLimit < modulus) :
    tryReserveWriteBytes queue pending active bytes bpHigh bpLimit =
      some (if 0 < bytes ∧ active = false ∧ queue + bytes ≤ bpHigh ∧
          queue + pending + bytes ≤ bpLimit then (true,queue + bytes) else (false,queue)) := by
  unfold tryReserveWriteBytes
  have hhigh : [queue,bytes].sum = queue + bytes := by simp
  have hlimit : [queue,pending,bytes].sum = queue + pending + bytes := by simp [Nat.add_assoc]
  by_cases h1 : bytes = 0 ∨ bytes > bpLimit ∨ active
  · rw [if_pos h1, if_neg (by rintro ⟨h2,rfl,h3,h4⟩; simp at h1; omega)]
  · rw [if_neg h1]
    by_cases h2 : queue + bytes ≤ bpHigh
    · rw [exceeds_of_le (hhigh.le.trans h2)]
      by_cases h3 : queue + pending + bytes ≤ bpLimit
      · rw [exceeds_of_le (hlimit.le.trans h3), if_pos ⟨by omega,by simp_all,h2,h3⟩]
        simp only [Option.bind_some, Option.map_some, Bool.false_eq_true, if_false]
        rw [add_eq (by omega)]
      · rw [exceeds_of_lt (by omega), if_neg (by omega)]
        rfl
    · rw [exceeds_of_lt (by omega), if_neg (by omega)]
      rfl

theorem tryReserveWriteBytesLocked_eq (h : bpLimit < modulus) :
    tryReserveWriteBytesLocked c active bytes bpHigh bpLimit =
      some (if 0 < bytes ∧ active = false ∧ c.queueBytes + bytes ≤ bpHigh ∧
          c.total + bytes ≤ bpLimit then
        (true,{ c with queueBytes := c.queueBytes + bytes }) else (false,c)) := by
  unfold tryReserveWriteBytesLocked Counters.total
  by_cases hi : c.inflightBytes > bpLimit
  · rw [if_pos hi, if_neg (by omega)]
  · rw [if_neg hi, sub, if_pos (not_lt.mp hi), Option.bind_some,
      tryReserveWriteBytes_eq (by omega), Option.map_some]
    congr 1
    by_cases h1 : 0 < bytes ∧ active = false ∧ c.queueBytes + bytes ≤ bpHigh ∧
        c.queueBytes + c.pendingBytes + bytes ≤ bpLimit - c.inflightBytes
    · rw [if_pos h1, if_pos ⟨h1.1,h1.2.1,h1.2.2.1,by omega⟩]
    · rw [if_neg h1, if_neg (fun h2 => h1 ⟨h2.1,h2.2.1,h2.2.2.1,by omega⟩)]

theorem decideEnqueue_eq (queued pending added : ℕ) :
    decideEnqueue queued pending active added bpLimit =
      some (if bpLimit < queued + pending + added then .rejected
        else if active then .pending else .immediate) := by
  unfold decideEnqueue
  have hsum : [queued,pending,added].sum = queued + pending + added := by simp [Nat.add_assoc]
  by_cases h : bpLimit < queued + pending + added
  · rw [exceeds_of_lt (by omega), if_pos h]
    rfl
  · rw [exceeds_of_le (by omega), if_neg h]
    rfl

end Specs
end Wirestead.Transport
