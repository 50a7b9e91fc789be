import Wirestead.Transport.TcpClient.Lifecycle

/-! # A run begins without a connection

Handlers and completions carry the number of their run. Until the start handler of the
present run has run, whatever is still to complete belongs to an earlier run and brings
no connection up.
-/
namespace Wirestead.Transport.TcpClient
open Diagnostics

/-- The start handlers that wait, in their order. -/
def starts (posted : List Handler) : List ℕ := posted.filterMap Handler.start?

namespace Sender
variable {N : Type*}

/-- No operation of the present run is under way, and no connection is up. -/
structure Blank (a : Sender N) : Prop where
  connected : a.connected = false
  outstanding : ∀ o ∈ a.outstanding, o.operation.seq ≠ a.currentSeq

/-- A part of a handler that leaves the run blank. -/
structure Waits (a b : Sender N) : Prop where
  blank : b.Blank
  currentSeq : b.currentSeq = a.currentSeq

theorem Blank.congr {a b : Sender N} (ha : a.Blank) (hc : b.connected = a.connected)
    (ho : b.outstanding = a.outstanding) (hseq : b.currentSeq = a.currentSeq) : a.Waits b := by
  refine ⟨⟨hc.trans ha.connected,?_⟩,hseq⟩
  rw [ho, hseq]
  exact ha.outstanding

end Sender

namespace State
variable {N : Type*} [CommRing N] {cfg : Config} {s t u : State N}

/-- What leaves a blank run blank. -/
def Waits (s t : State N) : Prop := s.sender.Blank → s.sender.Waits t.sender

omit [CommRing N] in
theorem waits_of_eq (hc : t.connected = s.connected) (ho : t.outstanding = s.outstanding)
    (hseq : t.currentSeq = s.currentSeq) : s.Waits t := fun hs => hs.congr hc ho hseq

omit [CommRing N] in
theorem Waits.refl (s : State N) : s.Waits s := waits_of_eq rfl rfl rfl

omit [CommRing N] in
theorem Waits.trans (hst : s.Waits t) (htu : t.Waits u) : s.Waits u := by
  intro hs
  have ht := hst hs
  have hu := htu ht.blank
  exact ⟨hu.blank,hu.currentSeq.trans ht.currentSeq⟩

omit [CommRing N] in
theorem cancelWhere_waits (s : State N) (p : Operation → Bool) : s.Waits (s.cancelWhere p) := by
  intro hs
  refine ⟨⟨hs.connected,?_⟩,rfl⟩
  intro o ho
  obtain ⟨o',ho',rfl⟩ := List.mem_map.mp ho
  have hne := hs.outstanding o' ho'
  split <;> exact hne

theorem waits_framed : Framed (Waits : State N → State N → Prop) where
  refl := .refl
  trans := .trans
  set ht := waits_of_eq (congrArg Sender.connected ht) (congrArg Sender.outstanding ht)
    (congrArg Sender.currentSeq ht)
  cancelWhere := cancelWhere_waits
  enter _ _ ht := waits_of_eq (congrArg Sender.connected ht) (congrArg Sender.outstanding ht)
    (congrArg Sender.currentSeq ht)
  lose {s t} ht hs := by
    have hdown : s.sender.disconnect = s.sender := by
      rw [Sender.disconnect, hs.connected]
      rfl
    rw [ht, Sender.lose, hdown]
    exact hs.congr rfl rfl rfl
  frame := waits_of_eq

/-- Without a connection the writer starts nothing. -/
theorem doWrite_waits (s : State N) (seq : ℕ) : s.Waits (s.doWrite cfg seq) := by
  intro hs
  have hdown : s.connected = false := hs.connected
  unfold doWrite
  split_ifs
  · exact hs.congr rfl rfl rfl
  · exact hs.congr rfl rfl rfl

section Handlers

omit [CommRing N] in
theorem startOperation_waits (s : State N) {operation : Operation} (h : operation.seq ≠ s.currentSeq) :
    s.Waits (s.startOperation operation) := by
  intro hs
  refine ⟨⟨hs.connected,?_⟩,rfl⟩
  intro o ho
  rcases List.mem_append.mp ho with ho | ho
  · exact hs.outstanding o ho
  · rw [List.mem_singleton.mp ho]
    exact h

/-- The start handler of an earlier run resolves for that run only. -/
theorem startOn_waits (s : State N) {seq : ℕ} (h : seq ≠ s.currentSeq) : s.Waits (s.startOn cfg seq) := by
  intro hs
  have hdown : s.connected = false := hs.connected
  have hreset : s.Waits s.resetIoObjects :=
    (s.cancelWhere_waits (fun _ => true)).trans (waits_of_eq rfl rfl rfl)
  have hnext : s.Waits (s.resetIoObjects.transitionTo cfg .connecting .success) :=
    hreset.trans
      (waits_framed.toCleanup.transitionWith waits_framed.notifyState s.resetIoObjects .connecting .success hdown)
  unfold startOn
  split
  · exact Waits.refl s hs
  rw [markDisconnected_eq hdown]
  refine hnext.trans (startOperation_waits _ ?_) hs
  exact fun heq => h (heq.trans (hnext hs).currentSeq)

theorem failReceiveOn_waits (s : State N) (connection run : ℕ) :
    s.Waits (s.failReceiveOn cfg connection run) := by
  intro hs
  have hdown : s.connected = false := hs.connected
  unfold failReceiveOn writeConnection
  rw [if_pos (.inr (by simp [hdown]))]
  exact Waits.refl s hs

/-- Handlers leave a blank run blank, except the one that begins it. -/
theorem runHandler_waits (s : State N) {handler : Handler} (h : handler ≠ .start s.currentSeq) :
    s.Waits (s.runHandler cfg handler) := by
  cases handler with
  | write item seq connection => exact waits_framed.onPosted (fun t => t.doWrite_waits _) s item seq connection
  | tryWrite item seq connection => exact waits_framed.onTryPosted (fun t => t.doWrite_waits _) s item seq connection
  | kick seq connection => exact waits_framed.onKick (fun t => t.doWrite_waits _) s seq connection
  | start seq => exact s.startOn_waits (fun heq => h (congrArg Handler.start heq))
  | stopCleanup => exact waits_framed.toCleanup.stopCleanupWith waits_framed.notifyState s
  | failReceive connection run => exact s.failReceiveOn_waits connection run

theorem onWrite_waits (s : State N) {seq : ℕ} (connection : ℕ) (batch : WriteBatch) (ec : ErrorCode) (n : ℕ)
    (h : seq ≠ s.currentSeq) : s.Waits (s.onWrite cfg seq connection batch ec n) := by
  obtain ⟨ledger,hsettle⟩ : ∃ ledger, s.settleWrite seq connection batch ec n = { s with ledger := ledger } :=
    ⟨_,if_neg (fun hn => h hn.2.2.2)⟩
  unfold onWrite
  rw [hsettle]
  dsimp only
  split
  · exact waits_of_eq rfl rfl rfl
  · rw [if_pos (.inr h)]
    have hset : ∀ t : State N, t.connected = s.connected → t.outstanding = s.outstanding →
        t.currentSeq = s.currentSeq → s.Waits (t.writeAborted cfg batch) := by
      intro t hc ho hseq
      have ht : s.Waits t := waits_of_eq hc ho hseq
      exact ht.trans (waits_framed.writeAborted (fun u => u.doWrite_waits _) t batch)
    refine hset _ ?_ ?_ ?_ <;> rfl

/-- Completions of earlier runs leave a blank run blank. -/
theorem runCompletion_waits (s : State N) (r : Completion) {operation : Operation}
    (h : operation.seq ≠ s.currentSeq) : s.Waits (s.runCompletion cfg r operation) := by
  cases operation with
  | resolve seq =>
    change s.Waits (s.onResolve cfg seq r.ec)
    rw [onResolve, if_pos (.inr h)]
    exact .refl s
  | connectTimer seq =>
    change s.Waits (s.onConnectTimeout cfg seq r.ec)
    rw [onConnectTimeout, if_pos (.inr h)]
    exact .refl s
  | connect seq =>
    change s.Waits (s.onConnect cfg seq r.ec)
    rw [onConnect, if_pos (.inr h)]
    exact .refl s
  | handshake seq =>
    change s.Waits (s.onHandshake cfg seq r.ec)
    rw [onHandshake, if_pos (.inl h)]
    exact .refl s
  | retryTimer seq =>
    change s.Waits (s.onRetry seq r.ec)
    unfold onRetry
    dsimp only
    rw [if_pos (.inr h)]
    exact waits_of_eq rfl rfl rfl
  | read seq connection =>
    change s.Waits (s.onRead cfg seq connection r.ec r.n r.overflow)
    rw [onRead, if_pos (.inr (.inl h))]
    exact .refl s
  | write seq connection batch => exact s.onWrite_waits connection batch r.ec r.n h
  | idleTimer seq connection arm =>
    change s.Waits (s.onIdle cfg seq connection arm r.ec)
    rw [onIdle, if_pos (.inr (.inl h))]
    exact .refl s

theorem completed_waits (s : State N) (r : Completion) {operation : Operation}
    (h : operation.seq ≠ s.currentSeq) : s.Waits (s.runCompletion cfg r operation).ioCompletion := by
  have hio : ∀ t : State N, t.Waits t.ioCompletion := by
    intro t
    unfold ioCompletion
    split
    · exact waits_of_eq rfl rfl rfl
    · exact .refl t
  exact (s.runCompletion_waits r h).trans (hio _)

end Handlers
section Bounds

/-- No operation belongs to a run after the present one. -/
structure Within (k : ℕ) (a : Sender N) : Prop where
  currentSeq : a.currentSeq = k
  outstanding : ∀ o ∈ a.outstanding, o.operation.seq ≤ k

def Bounded (k : ℕ) (s t : State N) : Prop := Within k s.sender → Within k t.sender

variable {k : ℕ}

omit [CommRing N] in
theorem Within.congr {a b : Sender N} (ha : Within k a) (ho : b.outstanding = a.outstanding)
    (hseq : b.currentSeq = a.currentSeq) : Within k b := by
  refine ⟨hseq.trans ha.currentSeq,?_⟩
  rw [ho]
  exact ha.outstanding

theorem bounded_framed : Framed (Bounded k : State N → State N → Prop) where
  refl _ hs := hs
  trans hst htu hs := htu (hst hs)
  set ht hs := hs.congr (congrArg Sender.outstanding ht) (congrArg Sender.currentSeq ht)
  cancelWhere s p hs := by
    refine ⟨hs.currentSeq,fun o ho => ?_⟩
    obtain ⟨o',ho',rfl⟩ := List.mem_map.mp ho
    have hle := hs.outstanding o' ho'
    split <;> exact hle
  enter _ _ ht hs := by
    rw [ht]
    exact hs.congr rfl rfl
  lose {s t} ht hs := by
    rw [ht]
    refine hs.congr ?_ s.sender.lose_currentSeq
    unfold Sender.lose Sender.disconnect
    split <;> rfl
  frame _ ho hseq hs := hs.congr ho hseq

omit [CommRing N] in
theorem startOperation_bounded (s : State N) {operation : Operation} (h : operation.seq ≤ k) :
    Bounded k s (s.startOperation operation) := by
  intro hs
  refine ⟨hs.currentSeq,fun o ho => ?_⟩
  rcases List.mem_append.mp ho with ho | ho
  · exact hs.outstanding o ho
  · rw [List.mem_singleton.mp ho]
    exact h

theorem markDisconnected_bounded (s : State N) : Bounded k s s.markDisconnected := by
  intro hs
  rw [markDisconnected_sender]
  refine hs.congr ?_ s.sender.disconnect_currentSeq
  unfold Sender.disconnect
  split <;> rfl

theorem bounded_lifecycle : Lifecycle True (· ≤ k) (Bounded k : State N → State N → Prop) where
  toCleanup := bounded_framed.toCleanup
  startOperation s _ _ hq := s.startOperation_bounded hq
  post _ _ _ := bounded_framed.frame rfl rfl rfl
  connect _ ht hs := by
    rw [ht]
    exact hs.congr rfl rfl
  strand _ := markDisconnected_bounded
  purge _ ht hs := by
    rw [ht]
    exact hs.congr rfl rfl
  rest _ ht hs := by
    rw [ht]
    exact hs.congr rfl rfl

theorem handOver_bounded (s : State N) {seq : ℕ} (hq : seq ≤ k) (buffers : List TrackedBuffer) (bytes : ℕ) :
    Bounded k s (s.handOver cfg seq buffers bytes) := by
  unfold handOver
  dsimp only
  split
  · exact bounded_framed.frame rfl rfl rfl
  unfold initiateWrite
  dsimp only
  set r := s.recordWrite ⟨s.nextToken,buffers,bytes⟩ (s.ledger.beginBatch (buffers.map (·.request))).1
  have hrecord : Bounded k s r := bounded_framed.frame rfl rfl rfl
  split
  · exact bounded_framed.trans (bounded_framed.trans hrecord r.markDisconnected_bounded)
      (bounded_lifecycle.handleClose bounded_framed.giveWay _ hq _)
  · exact bounded_framed.trans hrecord (startOperation_bounded _ hq)

theorem doWrite_bounded (s : State N) {seq : ℕ} (hq : seq ≤ k) : Bounded k s (s.doWrite cfg seq) := by
  unfold doWrite
  split_ifs
  · exact bounded_framed.frame rfl rfl rfl
  · exact bounded_framed.frame rfl rfl rfl
  · exact bounded_framed.frame rfl rfl rfl
  · dsimp only
    have htake : Bounded k s { s with writing := true, tx := (takeGatherBatch s.tx).2.1 } :=
      bounded_framed.frame rfl rfl rfl
    exact bounded_framed.trans (bounded_framed.trans htake (bounded_framed.giveWay _)) (handOver_bounded _ hq _ _)

theorem doWrite_bounded_current (s : State N) : Bounded k s (s.doWrite cfg s.currentSeq) :=
  fun hs => s.doWrite_bounded hs.currentSeq.le hs

theorem runHandler_bounded (s : State N) {handler : Handler} (h : ∀ seq, handler = .start seq → seq ≤ k) :
    Bounded k s (s.runHandler cfg handler) := by
  cases handler with
  | write item seq connection => exact bounded_framed.onPosted doWrite_bounded_current s item seq connection
  | tryWrite item seq connection => exact bounded_framed.onTryPosted doWrite_bounded_current s item seq connection
  | kick seq connection => exact bounded_framed.onKick doWrite_bounded_current s seq connection
  | start seq => exact bounded_lifecycle.startOn bounded_framed.giveWay s (h seq rfl) (.inl trivial)
  | stopCleanup => exact bounded_framed.toCleanup.stopCleanupWith bounded_framed.notifyState s
  | failReceive connection run =>
    intro hs
    by_cases hrun : run = s.currentSeq
    · exact bounded_lifecycle.failReceiveOn bounded_framed.giveWay s connection (hrun.trans hs.currentSeq).le hs
    · change Within k (s.failReceiveOn cfg connection run).sender
      rw [failReceiveOn, if_pos (.inl hrun)]
      exact hs

theorem writeFailed_bounded (s : State N) {seq : ℕ} (hq : seq ≤ k) (batch : WriteBatch) (ec : ErrorCode) :
    Bounded k s (s.writeFailed cfg seq batch ec) := by
  have hset : Bounded k s { ({ s with tx := batch.buffers ++ s.tx } : State N).recordError "write" ec false 0
      with writing := false } := bounded_framed.frame rfl rfl rfl
  exact bounded_framed.trans hset (bounded_lifecycle.handleClose bounded_framed.giveWay _ hq ec)

theorem writeSucceeded_bounded (s : State N) {seq : ℕ} (hq : seq ≤ k) (batch : WriteBatch) (n : ℕ) :
    Bounded k s (s.writeSucceeded cfg seq batch n) := by
  have hrelease : Bounded k s ((s.noteTraffic seq n).releaseWritten cfg batch) :=
    bounded_framed.trans (bounded_lifecycle.noteTraffic s hq n)
      (bounded_framed.releaseWritten doWrite_bounded_current _ batch)
  unfold writeSucceeded
  dsimp only
  split
  · exact bounded_framed.trans hrelease (bounded_framed.frame rfl rfl rfl)
  · exact bounded_framed.trans hrelease (doWrite_bounded _ hq)

theorem onWrite_bounded (s : State N) {seq : ℕ} (hq : seq ≤ k) (connection : ℕ) (batch : WriteBatch)
    (ec : ErrorCode) (n : ℕ) : Bounded k s (s.onWrite cfg seq connection batch ec n) := by
  have hsettle : Bounded k s (s.settleWrite seq connection batch ec n) := by
    have hledger : ∀ ledger, Bounded k s { s with ledger := ledger } := fun _ => bounded_framed.frame rfl rfl rfl
    unfold settleWrite
    dsimp only
    split
    · exact bounded_framed.trans (hledger _) (markDisconnected_bounded _)
    · exact hledger _
  unfold onWrite
  dsimp only
  generalize s.settleWrite seq connection batch ec n = t at hsettle ⊢
  have hactive : Bounded k s { t with activeWrite := none } :=
    bounded_framed.trans hsettle (bounded_framed.frame rfl rfl rfl)
  split
  · exact bounded_framed.trans hsettle (bounded_framed.frame rfl rfl rfl)
  split_ifs
  · exact bounded_framed.trans hactive (bounded_framed.writeAborted doWrite_bounded_current _ batch)
  · exact bounded_framed.trans hactive (writeFailed_bounded _ hq batch ec)
  · exact bounded_framed.trans hactive (writeSucceeded_bounded _ hq batch n)

/-- Completions start operations of their own run. -/
theorem runCompletion_bounded (s : State N) (r : Completion) {operation : Operation}
    (h : operation.seq ≤ k) : Bounded k s (s.runCompletion cfg r operation) := by
  cases hop : operation.batch? with
  | none => exact bounded_lifecycle.runCompletion bounded_framed.giveWay s r h hop (fun _ _ => .inl trivial)
  | some b =>
    cases operation with
    | write seq connection batch => exact s.onWrite_bounded h connection batch r.ec r.n
    | _ => cases hop

end Bounds
end State
end Wirestead.Transport.TcpClient
