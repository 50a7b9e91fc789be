import Wirestead.Transport.TcpServer.State
import Wirestead.Transport.UdpChannel.State

/-! # The backpressure bounds of the transports

Every transport computes its bounds from the threshold on its own. The clients and the
datagram channel raise the limit to the threshold; the server sessions and the serial
port do not.
-/
namespace Wirestead.Transport
open Sizes TcpClient

structure Bounds where
  bpHigh : ℕ
  bpLow : ℕ
  bpLimit : ℕ
  deriving DecidableEq, Repr

namespace Bounds

def minBackpressureThreshold : ℕ := 1024

def maxBackpressureThreshold : ℕ := 100 <<< 20

/-- The product of two sizes. -/
def mul (a b : ℕ) : ℕ := a * b % modulus

def limitOf (threshold : ℕ) : ℕ :=
  min (max (mul threshold 4) defaultBackpressureThreshold) maxBufferSize

def lowOf (threshold : ℕ) : ℕ :=
  let low := if threshold > 1 then threshold / 2 else threshold
  if low = 0 then 1 else low

/-- The limit is not below the threshold. -/
def raiseLimit (b : Bounds) : Bounds := if b.bpLimit < b.bpHigh then { b with bpLimit := b.bpHigh } else b

/-- `TcpClient::Impl::recalculate_backpressure_bounds`. -/
def tcpClient (threshold : ℕ) : Bounds := raiseLimit ⟨threshold,lowOf threshold,limitOf threshold⟩

/-- `TcpServerSession::TcpServerSession`. -/
def tcpServerSession (threshold : ℕ) : Bounds := ⟨threshold,lowOf threshold,limitOf threshold⟩

/-- `UdsClient::Impl::recalculate_backpressure_bounds`. -/
def udsClient (threshold : ℕ) : Bounds := raiseLimit ⟨threshold,lowOf threshold,limitOf threshold⟩

/-- `UdsServerSession::UdsServerSession`: the low bound is not checked for zero. -/
def udsServerSession (threshold : ℕ) : Bounds :=
  ⟨threshold,if threshold > 1 then threshold / 2 else threshold,limitOf threshold⟩

/-- `UdpChannel::Impl::init`. -/
def udpChannel (threshold : ℕ) : Bounds := raiseLimit ⟨threshold,lowOf threshold,limitOf threshold⟩

/-- `Serial::Impl::init`. -/
def serial (threshold : ℕ) : Bounds := ⟨threshold,lowOf threshold,limitOf threshold⟩

/-- The transports with a write queue. -/
def all (threshold : ℕ) : List Bounds :=
  [tcpClient threshold,tcpServerSession threshold,udsClient threshold,udsServerSession threshold,
    udpChannel threshold,serial threshold]

variable {b : Bounds}

/-- A plain write that reaches the strand before backpressure: it is reserved, routed
to the queue and committed there. -/
def plainWrite (b : Bounds) (c : Counters) (size : ℕ) : Option Counters :=
  (tryReserveLimitBytes c size b.bpLimit).bind fun r =>
    if r.1 then
      (decideEnqueue r.2.queueBytes r.2.pendingBytes false size b.bpLimit).bind fun decision =>
        if decision = .immediate then some (commitReservedLimitBytes r.2 .queue size) else none
    else none

def plainWrites (b : Bounds) (c : Counters) : List ℕ → Option Counters
  | [] => some c
  | size :: sizes => (b.plainWrite c size).bind fun c => b.plainWrites c sizes

/-- Plain writes that are all admitted fill the empty queue up to the high bound. -/
def OnReachable (b : Bounds) : Prop :=
  ∃ sizes c, (∀ size ∈ sizes, size ≤ maxBufferSize) ∧ b.plainWrites .zero sizes = some c ∧
    b.bpHigh ≤ c.queueBytes

def Ordered (b : Bounds) : Prop := 1 ≤ b.bpLow ∧ b.bpLow < b.bpHigh ∧ b.bpHigh ≤ b.bpLimit

/-- The product does not wrap, and all transports have the same ordered bounds under
which backpressure sets in. -/
def WellFormed (threshold : ℕ) : Prop :=
  threshold * 4 < modulus ∧ (∀ b ∈ all threshold, ∀ d ∈ all threshold, b = d) ∧
    ∀ b ∈ all threshold, b.Ordered ∧ b.OnReachable

theorem plainWrite_eq (h : b.bpLimit < modulus) {n size : ℕ} :
    b.plainWrite ⟨n,0,0⟩ size =
      if 0 < size ∧ n + size ≤ b.bpLimit then some ⟨n + size,0,0⟩ else none := by
  have hreserve : tryReserveLimitBytes ⟨n,0,0⟩ size b.bpLimit =
      some (if 0 < size ∧ n + size ≤ b.bpLimit then (true,⟨n,0,size⟩) else (false,⟨n,0,0⟩)) := by
    simp [tryReserveLimitBytes_eq h, Counters.total]
  unfold plainWrite
  rw [hreserve, Option.bind_some]
  by_cases hfit : 0 < size ∧ n + size ≤ b.bpLimit
  · have hroute : decideEnqueue n 0 false size b.bpLimit = some .immediate := by
      rw [decideEnqueue_eq, if_neg (by omega)]
      rfl
    have hcommit : commitReservedLimitBytes ⟨n,0,size⟩ .queue size = ⟨n + size,0,0⟩ := by
      simp [commitReservedLimitBytes, release_eq, add_eq (show n + size < modulus by omega)]
    simp [hfit, hroute, hcommit]
  · simp [hfit]

/-- Admitted writes stay below the limit. -/
theorem plainWrites_le (h : b.bpLimit < modulus) {sizes : List ℕ} {n : ℕ} {c : Counters}
    (hn : n ≤ b.bpLimit) (hw : b.plainWrites ⟨n,0,0⟩ sizes = some c) : c.queueBytes ≤ b.bpLimit := by
  induction sizes generalizing n with
  | nil =>
    cases hw
    exact hn
  | cons size sizes ih =>
    unfold plainWrites at hw
    rw [plainWrite_eq h] at hw
    split at hw
    · rename_i hfit
      exact ih hfit.2 hw
    · cases hw

/-- Bytes are admitted one by one up to the limit. -/
theorem plainWrites_replicate (h : b.bpLimit < modulus) {n k : ℕ} (hk : n + k ≤ b.bpLimit) :
    b.plainWrites ⟨n,0,0⟩ (List.replicate k 1) = some ⟨n + k,0,0⟩ := by
  induction k generalizing n with
  | zero => rfl
  | succ k ih =>
    rw [List.replicate_succ, plainWrites, plainWrite_eq h, if_pos (by omega), Option.bind_some,
      ih (by omega)]
    congr 2
    omega

/-- Backpressure sets in exactly if the limit leaves room for the high bound. -/
theorem onReachable_iff (h : b.bpLimit < modulus) : b.OnReachable ↔ b.bpHigh ≤ b.bpLimit := by
  constructor
  · rintro ⟨sizes,c,-,hw,hc⟩
    exact hc.trans (plainWrites_le h (Nat.zero_le _) hw)
  · intro hle
    refine ⟨List.replicate b.bpHigh 1,⟨0 + b.bpHigh,0,0⟩,?_,plainWrites_replicate h (by omega),?_⟩
    · intro size hsize
      rw [List.eq_of_mem_replicate hsize]
      decide
    · exact (Nat.zero_add _).ge

theorem raiseLimit_eq (b : Bounds) : b.raiseLimit =
    ⟨b.bpHigh,b.bpLow,if b.bpLimit < b.bpHigh then b.bpHigh else b.bpLimit⟩ := by
  unfold raiseLimit
  by_cases h : b.bpLimit < b.bpHigh <;> simp [h]

variable {threshold : ℕ}

/-- The product never wraps for an accepted threshold. -/
theorem limitOf_eq (h : threshold ≤ maxBackpressureThreshold) :
    limitOf threshold = min (max (threshold * 4) defaultBackpressureThreshold) maxBufferSize := by
  have hmul : mul threshold 4 = threshold * 4 := by
    apply Nat.mod_eq_of_lt
    simp only [maxBackpressureThreshold, modulus] at h ⊢
    omega
  rw [limitOf, hmul]

theorem lowOf_eq (h : minBackpressureThreshold ≤ threshold) : lowOf threshold = threshold / 2 := by
  simp only [minBackpressureThreshold] at h
  have hlow : (if threshold > 1 then threshold / 2 else threshold) = threshold / 2 := if_pos (by omega)
  unfold lowOf
  rw [hlow]
  exact if_neg (by omega)

/-- All transports agree on the bounds, and these are ordered, exactly for thresholds up
to the maximal buffer size. -/
theorem wellFormed_iff (hmin : minBackpressureThreshold ≤ threshold)
    (hmax : threshold ≤ maxBackpressureThreshold) : WellFormed threshold ↔ threshold ≤ maxBufferSize := by
  have hlimit : limitOf threshold ≤ maxBufferSize := min_le_right _ _
  constructor
  · rintro ⟨-,-,hall⟩
    have hserial := (hall (serial threshold) (by simp [all])).1
    exact hserial.2.2.trans hlimit
  · intro hle
    have hhigh : threshold ≤ limitOf threshold := by
      rw [limitOf_eq hmax]
      apply le_min _ hle
      exact le_max_of_le_left (Nat.le_mul_of_pos_right _ (by decide))
    have hraise : raiseLimit ⟨threshold,threshold / 2,limitOf threshold⟩ =
        ⟨threshold,threshold / 2,limitOf threshold⟩ := if_neg (Nat.not_lt.mpr hhigh)
    have hsame : ∀ b ∈ all threshold, b = ⟨threshold,threshold / 2,limitOf threshold⟩ := by
      have huds : (if threshold > 1 then threshold / 2 else threshold) = threshold / 2 := by
        simp only [minBackpressureThreshold] at hmin
        exact if_pos (by omega)
      simp [all, tcpClient, tcpServerSession, udsClient, udsServerSession, udpChannel, serial, hraise,
        lowOf_eq hmin, huds]
    simp only [minBackpressureThreshold, maxBackpressureThreshold] at hmin hmax
    refine ⟨?_,fun b hb d hd => (hsame b hb).trans (hsame d hd).symm,fun b hb => ?_⟩
    · simp only [modulus]
      omega
    · rw [hsame b hb]
      refine ⟨⟨?_,?_,hhigh⟩,(onReachable_iff ?_).mpr hhigh⟩
      · change 1 ≤ threshold / 2
        omega
      · change threshold / 2 < threshold
        omega
      · exact hlimit.trans_lt (by decide)

theorem wellFormed_default : WellFormed defaultBackpressureThreshold :=
  (wellFormed_iff (by decide) (by decide)).mpr (by decide)

/-- Above the maximal buffer size the sessions and the serial port have a limit below
the threshold. -/
theorem not_wellFormed_max : ¬WellFormed maxBackpressureThreshold := by
  intro h
  exact absurd (h.2.2 (serial maxBackpressureThreshold) (by simp [all])).1.2.2 (by decide)

end Bounds

/-- The models of the transports use these bounds. -/
theorem TcpClient.Config.bounds_eq (cfg : TcpClient.Config) :
    (⟨cfg.bpHigh,cfg.bpLow,cfg.bpLimit⟩ : Bounds) = Bounds.tcpClient cfg.backpressureThreshold := by
  unfold Bounds.tcpClient
  rw [Bounds.raiseLimit_eq, Bounds.limitOf_eq cfg.threshold_le]
  rfl

theorem UdpChannel.Config.bpLimit_eq (cfg : UdpChannel.Config) :
    cfg.bpLimit = (Bounds.udpChannel cfg.backpressureThreshold).bpLimit := by
  unfold Bounds.udpChannel
  rw [Bounds.raiseLimit_eq, Bounds.limitOf_eq cfg.threshold_le]
  rfl

theorem TcpServer.Config.bpLimit_eq (cfg : TcpServer.Config) :
    cfg.bpLimit = (Bounds.tcpServerSession cfg.backpressureThreshold).bpLimit :=
  (Bounds.limitOf_eq cfg.threshold_le).symm

end Wirestead.Transport
