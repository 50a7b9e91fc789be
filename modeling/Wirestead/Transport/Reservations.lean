import Wirestead.Transport.BpUtils

/-! # The reservation protocol keeps the hard limit

Beside the counters stand the sizes they are made of: plain requests that were
reserved and not yet routed, requests in `tx_` or being written or reserved by a
nonblocking write, and requests parked in `pending_`. Senders and the strand take
steps in any order; a commit or a release is made only for sizes that are there.
-/
namespace Wirestead.Transport
open Sizes

/-- The thresholds of one transport. -/
structure Limits where
  bpHigh : ℕ
  bpLow : ℕ
  bpLimit : ℕ
  bpLimit_lt : bpLimit < modulus

/-- The counters are the sums of the sizes behind them, and all of them fit. -/
structure Accounts (limit : ℕ) (c : Counters) (queued parked reserved : Multiset ℕ) : Prop where
  queue : c.queueBytes = queued.sum
  pending : c.pendingBytes = parked.sum
  inflight : c.inflightBytes = reserved.sum
  within : c.total ≤ limit

namespace Accounts
variable {limit : ℕ} {c : Counters} {queued parked reserved : Multiset ℕ}

theorem zero (limit : ℕ) : Accounts limit .zero 0 0 0 := ⟨rfl,rfl,rfl,Nat.zero_le _⟩

theorem sum_erase_add {sizes : Multiset ℕ} {bytes : ℕ} (h : bytes ∈ sizes) :
    (sizes.erase bytes).sum + bytes = sizes.sum := by
  conv_rhs => rw [← Multiset.cons_erase h, Multiset.sum_cons]
  omega

theorem reserveLimit (h : Accounts limit c queued parked reserved) {bytes : ℕ}
    (hfits : c.total + bytes ≤ limit) :
    Accounts limit { c with inflightBytes := c.inflightBytes + bytes } queued parked
      (bytes ::ₘ reserved) := by
  refine ⟨h.queue,h.pending,?_,?_⟩
  · rw [Multiset.sum_cons, ← h.inflight, Nat.add_comm]
  · unfold Counters.total at *
    dsimp only
    omega

theorem reserveWrite (h : Accounts limit c queued parked reserved) {bytes : ℕ}
    (hfits : c.total + bytes ≤ limit) :
    Accounts limit { c with queueBytes := c.queueBytes + bytes } (bytes ::ₘ queued) parked
      reserved := by
  refine ⟨?_,h.pending,h.inflight,?_⟩
  · rw [Multiset.sum_cons, ← h.queue, Nat.add_comm]
  · unfold Counters.total at *
    dsimp only
    omega

/-- A reservation is never larger than what is counted in flight. -/
theorem le_inflight (h : Accounts limit c queued parked reserved) {bytes : ℕ}
    (hb : bytes ∈ reserved) : bytes ≤ c.inflightBytes :=
  h.inflight ▸ Multiset.le_sum_of_mem hb

theorem commit_queue (h : Accounts limit c queued parked reserved) (hl : limit < modulus)
    {bytes : ℕ} (hb : bytes ∈ reserved) :
    Accounts limit (commitReservedLimitBytes c .queue bytes) (bytes ::ₘ queued) parked
      (reserved.erase bytes) := by
  have hle := h.le_inflight hb
  have hsum := sum_erase_add hb
  have hw := h.within
  unfold Counters.total at hw
  have hadd : add c.queueBytes bytes = c.queueBytes + bytes := add_eq (by omega)
  refine ⟨?_,h.pending,?_,?_⟩
  · rw [commitReservedLimitBytes, Multiset.sum_cons, ← h.queue]
    dsimp only
    omega
  · rw [commitReservedLimitBytes, release_eq, h.inflight]
    dsimp only
    omega
  · rw [commitReservedLimitBytes, release_eq, hadd]
    unfold Counters.total
    dsimp only
    omega

theorem commit_pending (h : Accounts limit c queued parked reserved) (hl : limit < modulus)
    {bytes : ℕ} (hb : bytes ∈ reserved) :
    Accounts limit (commitReservedLimitBytes c .pending bytes) queued (bytes ::ₘ parked)
      (reserved.erase bytes) := by
  have hle := h.le_inflight hb
  have hsum := sum_erase_add hb
  have hw := h.within
  unfold Counters.total at hw
  have hadd : add c.pendingBytes bytes = c.pendingBytes + bytes := add_eq (by omega)
  refine ⟨h.queue,?_,?_,?_⟩
  · rw [commitReservedLimitBytes, Multiset.sum_cons, ← h.pending]
    dsimp only
    omega
  · rw [commitReservedLimitBytes, release_eq, h.inflight]
    dsimp only
    omega
  · rw [commitReservedLimitBytes, release_eq, hadd]
    unfold Counters.total
    dsimp only
    omega

theorem releaseLimit (h : Accounts limit c queued parked reserved) {bytes : ℕ}
    (hb : bytes ∈ reserved) :
    Accounts limit (releaseReservedLimitBytes c bytes) queued parked (reserved.erase bytes) := by
  have hsum := sum_erase_add hb
  have hw := h.within
  unfold Counters.total at hw
  refine ⟨h.queue,h.pending,?_,?_⟩
  · rw [releaseReservedLimitBytes, release_eq, h.inflight]
    dsimp only
    omega
  · rw [releaseReservedLimitBytes, release_eq]
    unfold Counters.total
    dsimp only
    omega

theorem releaseWrite (h : Accounts limit c queued parked reserved) {batch : Multiset ℕ}
    (hb : batch ≤ queued) :
    Accounts limit (releaseReservedWriteBytes c batch.sum) (queued - batch) parked reserved := by
  have hsum : (queued - batch).sum + batch.sum = queued.sum := by
    rw [← Multiset.sum_add, Multiset.sub_add_cancel hb]
  have hw := h.within
  unfold Counters.total at hw
  refine ⟨?_,h.pending,h.inflight,?_⟩
  · rw [releaseReservedWriteBytes, release_eq, h.queue]
    dsimp only
    omega
  · rw [releaseReservedWriteBytes, release_eq]
    unfold Counters.total
    dsimp only
    omega

/-- The flush moves the parked sizes; their sum does not change. -/
theorem flush (h : Accounts limit c queued parked reserved) (hl : limit < modulus) :
    Accounts limit ⟨add c.queueBytes c.pendingBytes,0,c.inflightBytes⟩ (queued + parked) 0
      reserved := by
  have hw := h.within
  unfold Counters.total at hw
  have hadd : add c.queueBytes c.pendingBytes = c.queueBytes + c.pendingBytes := add_eq (by omega)
  refine ⟨?_,rfl,h.inflight,?_⟩
  · rw [hadd, Multiset.sum_add, ← h.queue, ← h.pending]
  · unfold Counters.total
    dsimp only
    omega

/-- A reserved request finds its room, whatever the flag says. -/
theorem decideEnqueue (h : Accounts limit c queued parked reserved) {bytes : ℕ}
    (hb : bytes ∈ reserved) (active : Bool) :
    decideEnqueue c.queueBytes c.pendingBytes active bytes limit =
      some (if active then .pending else .immediate) := by
  have hle := h.le_inflight hb
  have hw := h.within
  unfold Counters.total at hw
  rw [decideEnqueue_eq, if_neg (by omega)]

end Accounts

structure Reservations where
  counters : Counters
  backpressureActive : Bool
  queued : Multiset ℕ
  parked : Multiset ℕ
  reserved : Multiset ℕ

inductive ReservationOp
  | tryReserveLimit (added : ℕ)
  | tryReserveWrite (bytes : ℕ) (observedActive : Bool)
  | commit (counter : Counter) (bytes : ℕ)
  | releaseLimit (bytes : ℕ)
  | releaseWrite (batch : Multiset ℕ)
  | reportBackpressure (queuedBytes : ℕ)

/-- The steps that senders take while the strand is in the middle of a handler. -/
def ReservationOp.FromSender : ReservationOp → Prop
  | .tryReserveLimit _ => True
  | .tryReserveWrite _ _ => True
  | _ => False

namespace Reservations

def initial : Reservations := ⟨.zero,false,0,0,0⟩

/-- The references and hooks that `report_backpressure` gets; here the flush moves the
parked sizes and the callbacks do nothing. -/
def bpFields (l : Limits) : BackpressureFields Reservations where
  bpHigh := l.bpHigh
  bpLow := l.bpLow
  backpressureActive s := s.backpressureActive
  setBackpressureActive b s := { s with backpressureActive := b }
  queueBytes s := s.counters.queueBytes
  setQueueBytes n s := { s with counters.queueBytes := n }
  onBackpressure _ s := s
  flushPendingIntoTx s :=
    (s.counters.pendingBytes,{ s with counters.pendingBytes := 0
                                      queued := s.queued + s.parked
                                      parked := 0 })
  kickWrite s := s

/-- One operation; `none` if a subtraction of its checks wraps. Nothing happens when
the bytes of a commit or a release were not reserved. -/
def step (l : Limits) (s : Reservations) : ReservationOp → Option Reservations
  | .tryReserveLimit added =>
    (tryReserveLimitBytes s.counters added l.bpLimit).map fun r =>
      { s with counters := r.2
               reserved := if r.1 then added ::ₘ s.reserved else s.reserved }
  | .tryReserveWrite bytes observedActive =>
    (tryReserveWriteBytesLocked s.counters observedActive bytes l.bpHigh l.bpLimit).map fun r =>
      { s with counters := r.2
               queued := if r.1 then bytes ::ₘ s.queued else s.queued }
  | .commit counter bytes => some (
    if bytes ∈ s.reserved then
      { s with counters := commitReservedLimitBytes s.counters counter bytes
               reserved := s.reserved.erase bytes
               queued := match counter with
                 | .queue => bytes ::ₘ s.queued
                 | .pending => s.queued
               parked := match counter with
                 | .queue => s.parked
                 | .pending => bytes ::ₘ s.parked }
    else s)
  | .releaseLimit bytes => some (
    if bytes ∈ s.reserved then
      { s with counters := releaseReservedLimitBytes s.counters bytes
               reserved := s.reserved.erase bytes }
    else s)
  | .releaseWrite batch => some (
    if batch ≤ s.queued then
      { s with counters := releaseReservedWriteBytes s.counters batch.sum
               queued := s.queued - batch }
    else s)
  | .reportBackpressure queuedBytes => some (reportBackpressure (bpFields l) queuedBytes s)

def run (l : Limits) (s : Reservations) : List ReservationOp → Option Reservations
  | [] => some s
  | op :: ops => (step l s op).bind (fun t => run l t ops)

def Balanced (l : Limits) (s : Reservations) : Prop :=
  Accounts l.bpLimit s.counters s.queued s.parked s.reserved

variable {l : Limits} {s : Reservations}

/-- No step wraps, and every step keeps the accounts. -/
theorem Balanced.step (h : s.Balanced l) (op : ReservationOp) :
    ∃ t, s.step l op = some t ∧ t.Balanced l := by
  unfold Reservations.step
  cases op with
  | tryReserveLimit added =>
    dsimp only
    rw [tryReserveLimitBytes_eq l.bpLimit_lt, Option.map_some]
    refine ⟨_,rfl,?_⟩
    by_cases hfits : 0 < added ∧ s.counters.total + added ≤ l.bpLimit
    · rw [if_pos hfits]
      exact h.reserveLimit hfits.2
    · rw [if_neg hfits]
      exact h
  | tryReserveWrite bytes active =>
    dsimp only
    rw [tryReserveWriteBytesLocked_eq l.bpLimit_lt, Option.map_some]
    refine ⟨_,rfl,?_⟩
    by_cases hfits : 0 < bytes ∧ active = false ∧ s.counters.queueBytes + bytes ≤ l.bpHigh ∧
        s.counters.total + bytes ≤ l.bpLimit
    · rw [if_pos hfits]
      exact h.reserveWrite hfits.2.2.2
    · rw [if_neg hfits]
      exact h
  | commit counter bytes =>
    refine ⟨_,rfl,?_⟩
    split_ifs with hb
    · cases counter with
      | queue => exact h.commit_queue l.bpLimit_lt hb
      | pending => exact h.commit_pending l.bpLimit_lt hb
    · exact h
  | releaseLimit bytes =>
    refine ⟨_,rfl,?_⟩
    split_ifs with hb
    · exact h.releaseLimit hb
    · exact h
  | releaseWrite batch =>
    refine ⟨_,rfl,?_⟩
    split_ifs with hb
    · exact h.releaseWrite hb
    · exact h
  | reportBackpressure queuedBytes =>
    refine ⟨_,rfl,?_⟩
    unfold Transport.reportBackpressure bpFields
    dsimp only
    have hflush := h.flush l.bpLimit_lt
    split_ifs
    · exact h
    · exact hflush
    · exact hflush
    · exact h

theorem Balanced.run (h : s.Balanced l) (ops : List ReservationOp) :
    ∃ t, s.run l ops = some t ∧ t.Balanced l := by
  induction ops generalizing s with
  | nil => exact ⟨s,rfl,h⟩
  | cons op ops ih =>
    obtain ⟨t,ht,hb⟩ := h.step op
    obtain ⟨u,hu,hc⟩ := ih hb
    exact ⟨u,by rw [Reservations.run, ht, Option.bind_some, hu],hc⟩

/-- Senders do not touch the parked requests. -/
theorem run_pendingBytes {t : Reservations} {ops : List ReservationOp}
    (hops : ∀ op ∈ ops, op.FromSender) (h : s.run l ops = some t) :
    t.counters.pendingBytes = s.counters.pendingBytes := by
  induction ops generalizing s with
  | nil => cases h; rfl
  | cons op ops ih =>
    have hop := hops op List.mem_cons_self
    rw [Reservations.run] at h
    obtain ⟨u,hu,ht⟩ := Option.bind_eq_some_iff.mp h
    rw [ih (fun op hm => hops op (List.mem_cons_of_mem _ hm)) ht]
    cases op with
    | tryReserveLimit added =>
      rw [Reservations.step, tryReserveLimitBytes_eq l.bpLimit_lt, Option.map_some] at hu
      cases hu
      dsimp only
      split <;> rfl
    | tryReserveWrite bytes active =>
      rw [Reservations.step, tryReserveWriteBytesLocked_eq l.bpLimit_lt, Option.map_some] at hu
      cases hu
      dsimp only
      split <;> rfl
    | commit counter bytes => exact hop.elim
    | releaseLimit bytes => exact hop.elim
    | releaseWrite batch => exact hop.elim
    | reportBackpressure queuedBytes => exact hop.elim

/-- Any interleaving of the protocol: no check wraps, the counters are the sums of what is
reserved, queued and parked, together they keep the limit, and a reserved plain
request is not rejected, although senders may take steps between the load of
`queue_bytes` and that of `pending_bytes`. -/
theorem run_within_limit (l : Limits) (ops : List ReservationOp) :
    ∃ s, initial.run l ops = some s ∧
      s.counters.queueBytes + s.counters.pendingBytes + s.counters.inflightBytes ≤ l.bpLimit ∧
      s.counters = ⟨s.queued.sum,s.parked.sum,s.reserved.sum⟩ ∧
      ∀ senders : List ReservationOp, (∀ op ∈ senders, op.FromSender) →
        ∃ t, s.run l senders = some t ∧ ∀ bytes ∈ s.reserved, ∀ active,
          decideEnqueue s.counters.queueBytes t.counters.pendingBytes active bytes l.bpLimit =
            some (if active then .pending else .immediate) := by
  have hinit : initial.Balanced l := Accounts.zero l.bpLimit
  obtain ⟨s,hs,hb⟩ := hinit.run ops
  refine ⟨s,hs,hb.within,?_,fun senders hsenders => ?_⟩
  · rw [← hb.queue, ← hb.pending, ← hb.inflight]
  · obtain ⟨t,ht,-⟩ := hb.run senders
    refine ⟨t,ht,fun bytes hbytes active => ?_⟩
    rw [run_pendingBytes hsenders ht]
    exact hb.decideEnqueue hbytes active

end Reservations
end Wirestead.Transport
