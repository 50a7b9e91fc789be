import Wirestead.Transport.TcpClient.Sender

/-! # What the lifecycle can do

Connecting, losing a connection, retrying, reading and stopping are built from a few
moves. A relation that is a preorder and that every move respects is respected by each
handler of the lifecycle, so an invariant only has to be checked on the moves.
-/
namespace Wirestead.Transport.TcpClient
open Diagnostics

namespace State
variable {N : Type*} [CommRing N]

/-- The moves of the stop cleanup. -/
structure Cleanup (R : State N → State N → Prop) : Prop where
  refl : ∀ s, R s s
  trans : ∀ {s t u}, R s t → R t u → R s u
  set : ∀ {s t}, t.sender = s.sender → R s t
  cancelWhere : ∀ s p, R s (s.cancelWhere p)
  enter : ∀ {s t} next, s.connected = false → t.sender = { s.sender with state := next } → R s t
  lose : ∀ {s t}, t.sender = s.sender.lose → R s t

/-- The moves of the lifecycle, for runs that `own` selects. The queues of a connection
go with it, except where a failed attempt finds a connection up; `strands` says whether
that may happen. -/
structure Lifecycle (strands : Prop) (own : ℕ → Prop) (R : State N → State N → Prop) : Prop extends Cleanup R where
  startOperation : ∀ s {operation : Operation}, operation.batch? = none → own operation.seq →
    R s (s.startOperation operation)
  post : ∀ s seq connection, R s (s.post (.kick seq connection))
  connect : ∀ {s t}, s.stopRequested = false →
    t.sender = { s.sender with connected := true, state := .connected } → R s t
  strand : strands → ∀ s, R s s.markDisconnected
  purge : ∀ {s t}, s.connected = false → t.sender = s.sender.clear → R s t
  rest : ∀ {s t}, s.connected = false → t.sender = { s.sender with writing := false } → R s t

theorem markDisconnected_sender (s : State N) : s.markDisconnected.sender = s.sender.disconnect := by
  unfold markDisconnected Sender.disconnect
  by_cases h : s.connected
  · rw [if_pos h, if_pos (show s.sender.connected = true from h)]
    rfl
  · rw [if_neg h, if_neg (show ¬ s.sender.connected = true from h)]

theorem markDisconnected_connected (s : State N) : s.markDisconnected.connected = false := by
  unfold markDisconnected
  split
  · rfl
  · rename_i h
    simpa using h

theorem markDisconnected_eq {s : State N} (h : s.connected = false) : s.markDisconnected = s := by
  unfold markDisconnected
  rw [if_neg (by simp [h])]

/-- The cleanup drops the writes first, which makes no difference. -/
theorem dropWrites_markDisconnected (s : State N) :
    s.dropWrites.markDisconnected = s.markDisconnected.dropWrites := by
  unfold markDisconnected
  by_cases h : s.connected
  · rw [if_pos h, if_pos (show s.dropWrites.connected = true from h)]
    rfl
  · rw [if_neg h, if_neg (show ¬ s.dropWrites.connected = true from h)]

omit [CommRing N] in
theorem tearDown_connected (s : State N) : s.tearDown.connected = s.connected := rfl

omit [CommRing N] in
theorem recordClose_connected (s : State N) (ec : ErrorCode) :
    (s.recordClose ec).connected = s.connected := by
  unfold recordClose
  split <;> rfl

/-- If the attempt has failed, there is no connection. -/
def failsAlone (s : State N) (seq : ℕ) (ec : ErrorCode) : Prop :=
  ¬ (ec = .operationAborted ∨ seq ≠ s.currentSeq) → ¬ (s.stopRequested ∨ s.stopping) → ec ≠ .success →
    s.connected = false

namespace Cleanup
variable {R : State N → State N → Prop} (h : Cleanup R)
include h

theorem closeSocket (s : State N) : R s s.closeSocket := h.cancelWhere s onSocket

theorem transitionWith {notify : State N → State N} (hn : ∀ t, R t (notify t)) (s : State N)
    (next : LinkState) (ec : ErrorCode) (hs : s.connected = false) :
    R s (s.transitionWith notify next ec) := by
  have henter : ∀ b, R s { s with terminalStateNotified := b, state := next } :=
    fun b => h.enter next hs rfl
  unfold State.transitionWith
  split_ifs
  · exact h.refl s
  · exact h.refl s
  · exact h.refl s
  · exact h.trans (henter true) (hn _)
  · exact h.refl s
  · exact h.trans (henter s.terminalStateNotified) (hn _)

theorem releaseIo (s : State N) : R s s.releaseIo := by
  apply h.trans (h.trans (h.trans (h.cancelWhere s _) (h.cancelWhere _ _)) (h.cancelWhere _ _))
  exact h.trans (h.cancelWhere _ _) (h.closeSocket _)

theorem signalCleanup (s : State N) : R s s.signalCleanup := by
  unfold State.signalCleanup
  split <;> exact h.set rfl

theorem stopCleanupWith {notify : State N → State N} (hn : ∀ t, R t (notify t)) (s : State N) :
    R s (s.stopCleanupWith notify) := by
  unfold State.stopCleanupWith
  split
  · exact h.refl s
  have hbegin : R s { s with cleanupStarted := true } := h.set rfl
  have hio := h.trans hbegin (h.releaseIo _)
  dsimp only
  rw [dropWrites_markDisconnected]
  generalize State.releaseIo { s with cleanupStarted := true } = t at hio ⊢
  have hlose : R t { t.markDisconnected.dropWrites with backpressureActive := false } := by
    apply h.lose
    unfold Sender.lose
    rw [← markDisconnected_sender]
    rfl
  apply h.trans (h.trans hio hlose)
  exact h.trans (h.transitionWith hn _ .closed .success t.markDisconnected_connected) (h.signalCleanup _)

end Cleanup

/-- A relation that only looks at the connection, the operations and the run. -/
structure Framed (R : State N → State N → Prop) : Prop extends Cleanup R where
  frame : ∀ {s t}, t.connected = s.connected → t.outstanding = s.outstanding →
    t.currentSeq = s.currentSeq → R s t

namespace Framed
variable {R : State N → State N → Prop} (h : Framed R) {cfg : Config}
include h

theorem submit (s : State N) (data : List UInt8) (faults : WriteFaults) (handler : TrackedBuffer → Handler) :
    R s (s.submit data faults handler).1 := by
  unfold State.submit
  split_ifs <;> exact h.frame rfl rfl rfl

theorem stop (s : State N) : R s s.stop := by
  unfold State.stop
  split
  · exact h.refl s
  dsimp only
  have hmark : ∀ t : State N, t.connected = s.connected → t.outstanding = s.outstanding →
      t.currentSeq = s.currentSeq → R s (t.stopCleanupWith id) ∧ R s (t.post .stopCleanup) := by
    intro t hc ho hseq
    have ht : R s t := h.frame hc ho hseq
    exact ⟨h.trans ht (h.toCleanup.stopCleanupWith h.refl t),h.trans ht (h.frame rfl rfl rfl)⟩
  split_ifs
  · refine (hmark _ ?_ ?_ ?_).1 <;> rfl
  · refine (hmark _ ?_ ?_ ?_).2 <;> rfl

theorem callerStep (s : State N) (op : CallerOp) : R s (s.callerStep cfg op) := by
  have hcounters : ∀ (t : State N) counters, R t { t with counters := counters } :=
    fun t _ => h.frame rfl rfl rfl
  cases op with
  | write kind data expectedConnection faults =>
    refine write_respects (P := fun _ => True) h.refl h.trans (fun _ => trivial) kind faults
      (fun t f _ _ => ⟨trivial,?_⟩)
    unfold submitPlain
    split
    · exact h.trans (hcounters t _) (h.submit _ data f _)
    · exact h.refl t
  | tryWrite kind data faults =>
    refine tryWrite_respects h.refl kind faults fun _ => ?_
    unfold submitTry
    split_ifs
    · exact h.refl s
    · split
      · exact h.trans (hcounters s _) (h.submit _ data faults _)
      · exact h.refl s
  | stop => exact h.stop s
  | resetStats => exact h.frame rfl rfl rfl
  | failReceive =>
    change R s s.failReceive
    unfold State.failReceive
    split
    · exact h.refl s
    · exact h.frame rfl rfl rfl
  | cancelWriteWaits => exact h.frame rfl rfl rfl
  | configure settings => exact h.frame rfl rfl rfl

theorem giveWay (s : State N) : R s (s.giveWay cfg) :=
  giveWay_respects h.refl h.trans (fun _ _ => h.frame rfl rfl rfl) h.callerStep

theorem notifyState (s : State N) : R s (s.notifyState cfg) := by
  unfold State.notifyState
  split
  · exact h.refl s
  · exact h.giveWay s

section Writer
variable (hw : ∀ t : State N, R t (t.doWrite cfg t.currentSeq))
include hw

theorem writeIfIdle (s : State N) : R s (s.writeIfIdle cfg) := by
  unfold State.writeIfIdle
  split
  · exact h.refl s
  · exact hw s

theorem reportBackpressure (s : State N) (n : ℕ) : R s (s.reportBackpressure cfg n) := by
  unfold State.reportBackpressure
  split
  · exact h.refl s
  · exact reportBackpressure_respects (bpFields cfg) h.refl h.trans (fun _ t => h.frame rfl rfl rfl)
      (fun _ t => h.frame rfl rfl rfl) (fun _ t => h.giveWay t) (fun t => h.frame rfl rfl rfl)
      (h.writeIfIdle hw) n s

theorem reportThenWrite (s : State N) : R s (s.reportThenWrite cfg) :=
  h.trans (h.reportBackpressure hw s _) (h.writeIfIdle hw _)

theorem onPosted (s : State N) (item : TrackedBuffer) (seq connection : ℕ) :
    R s (s.onPosted cfg item seq connection) := by
  have hset : ∀ counters, R s (s.setCounters counters) := fun _ => h.frame rfl rfl rfl
  unfold State.onPosted
  split_ifs
  · exact h.refl s
  · exact hset _
  · unfold routeEnqueuedBuffer
    split
    · exact hset _
    · split
      · exact h.frame rfl rfl rfl
      · have hpush : R s ((s.setCounters (commitReservedLimitBytes s.counters .queue item.size)).pushTx item) :=
          h.frame rfl rfl rfl
        exact h.trans hpush (h.reportThenWrite hw _)
      · unfold rejectEnqueued
        have hreject : ∀ t : State N, t.connected = s.connected → t.outstanding = s.outstanding →
            t.currentSeq = s.currentSeq → ∀ n, R s (t.reportBackpressure cfg n) :=
          fun t hc ho hseq n => h.trans (h.frame hc ho hseq) (h.reportBackpressure hw t n)
        refine hreject _ ?_ ?_ ?_ _ <;> rfl

theorem onTryPosted (s : State N) (item : TrackedBuffer) (seq connection : ℕ) :
    R s (s.onTryPosted cfg item seq connection) := by
  unfold State.onTryPosted
  split_ifs
  · exact h.refl s
  · exact h.refl s
  · unfold routeTryBuffer
    split
    · exact h.frame rfl rfl rfl
    · have hpush : R s (s.pushTx item) := h.frame rfl rfl rfl
      exact h.trans hpush (h.reportThenWrite hw _)

theorem onKick (s : State N) (seq connection : ℕ) : R s (s.onKick cfg seq connection) := by
  unfold State.onKick
  split_ifs with hstale
  · exact h.refl s
  · exact h.refl s
  · obtain ⟨hseq,-⟩ := not_or.mp hstale
    rw [not_not.mp hseq]
    exact hw s

theorem releaseWritten (s : State N) (batch : WriteBatch) : R s (s.releaseWritten cfg batch) := by
  have hset : R s (s.setCounters (releaseReservedWriteBytes s.counters batch.bytes)) := h.frame rfl rfl rfl
  exact h.trans hset (h.reportBackpressure hw _ _)

theorem writeAborted (s : State N) (batch : WriteBatch) : R s (s.writeAborted cfg batch) :=
  h.trans (h.releaseWritten hw s batch) (h.frame rfl rfl rfl)

end Writer
end Framed

section Calls
variable {cfg : Config} {s : State N}

theorem down_framed : Framed (fun s t : State N => s.connected = false → t.connected = false) where
  refl _ hs := hs
  trans hst htu hs := htu (hst hs)
  set ht hs := (congrArg Sender.connected ht).trans hs
  cancelWhere _ _ hs := hs
  enter _ _ ht hs := (congrArg Sender.connected ht).trans hs
  lose ht _ := (congrArg Sender.connected ht).trans (Sender.lose_connected _)
  frame hc _ _ hs := hc.trans hs

/-- No call brings a connection up. -/
theorem transitionTo_down (hs : s.connected = false) (next : LinkState) (ec : ErrorCode) :
    (s.transitionTo cfg next ec).connected = false :=
  down_framed.toCleanup.transitionWith down_framed.notifyState s next ec hs hs

theorem seq_framed : Framed (fun s t : State N => t.currentSeq = s.currentSeq) where
  refl _ := rfl
  trans hst htu := htu.trans hst
  set ht := congrArg Sender.currentSeq ht
  cancelWhere _ _ := rfl
  enter _ _ ht := congrArg Sender.currentSeq ht
  lose ht := (congrArg Sender.currentSeq ht).trans (Sender.lose_currentSeq _)
  frame _ _ hseq := hseq

/-- No call begins a run. -/
theorem giveWay_currentSeq (s : State N) : (s.giveWay cfg).currentSeq = s.currentSeq := seq_framed.giveWay s

omit [CommRing N] in
theorem noteTraffic_currentSeq (s : State N) (seq n : ℕ) : (s.noteTraffic seq n).currentSeq = s.currentSeq := by
  unfold noteTraffic resetIdleTimer
  split_ifs <;> rfl

end Calls

namespace Lifecycle
variable {strands : Prop} {own : ℕ → Prop} {R : State N → State N → Prop} (h : Lifecycle strands own R)
include h

/-- The moves are those of a coarser preorder too. -/
theorem mono {R' : State N → State N → Prop} (sub : ∀ {s t}, R s t → R' s t)
    (trans : ∀ {s t u}, R' s t → R' t u → R' s u) : Lifecycle strands own R' where
  refl s := sub (h.refl s)
  trans := trans
  set ht := sub (h.set ht)
  cancelWhere s p := sub (h.cancelWhere s p)
  enter next hs ht := sub (h.enter next hs ht)
  lose ht := sub (h.lose ht)
  startOperation s _ ho hq := sub (h.startOperation s ho hq)
  post s seq connection := sub (h.post s seq connection)
  connect hs ht := sub (h.connect hs ht)
  strand hs s := sub (h.strand hs s)
  purge hs ht := sub (h.purge hs ht)
  rest hs ht := sub (h.rest hs ht)

theorem countAttempt (s : State N) : R s s.countAttempt := by
  unfold State.countAttempt
  split <;> exact h.set rfl

theorem recordError (s : State N) (operation : String) (code : ErrorCode) (retryable : Bool)
    (retryCount : ℕ) : R s (s.recordError operation code retryable retryCount) := h.set rfl

theorem recordClose (s : State N) (ec : ErrorCode) : R s (s.recordClose ec) := by
  unfold State.recordClose
  split
  · exact h.refl s
  · exact h.recordError s _ _ _ _

theorem tearDown (s : State N) (hs : s.connected = false) : R s s.tearDown := by
  have hset : R s { s with writing := false } := h.rest hs rfl
  exact h.trans (h.trans hset (h.cancelWhere _ _)) (h.trans (h.cancelWhere _ _) (h.toCleanup.closeSocket _))

theorem loseConnection (s : State N) : R s s.markDisconnected.discardConnectionWrites := by
  apply h.lose
  unfold Sender.lose
  rw [← markDisconnected_sender]
  rfl

theorem resetIdleTimer (s : State N) {seq : ℕ} (hq : own seq) : R s (s.resetIdleTimer seq) := by
  unfold State.resetIdleTimer
  split
  · exact h.refl s
  · have hset : R (s.cancelWhere onIdleTimer) { s.cancelWhere onIdleTimer with idleArm := s.idleArm + 1 } :=
      h.set rfl
    exact h.trans (h.trans (h.cancelWhere s _) hset) (h.startOperation _ rfl hq)

theorem noteTraffic (s : State N) {seq : ℕ} (hq : own seq) (n : ℕ) : R s (s.noteTraffic seq n) := by
  unfold State.noteTraffic
  split
  · exact h.resetIdleTimer s hq
  · exact h.refl s

theorem onRetry (s : State N) {seq : ℕ} (hq : own seq) (ec : ErrorCode) : R s (s.onRetry seq ec) := by
  have hset : R s { s with reconnectPending := false } := h.set rfl
  unfold State.onRetry
  dsimp only
  split_ifs
  · exact hset
  · exact h.trans hset (h.startOperation _ rfl hq)
  · exact hset

theorem ioCompletion (s : State N) : R s s.ioCompletion := by
  unfold State.ioCompletion
  split
  · exact h.set rfl
  · exact h.refl s

section Callbacks
variable {cfg : Config} (hg : ∀ t : State N, R t (t.giveWay cfg))
include hg

theorem notifyState (s : State N) : R s (s.notifyState cfg) := by
  unfold State.notifyState
  split
  · exact h.refl s
  · exact hg s

theorem transitionTo (s : State N) (next : LinkState) (ec : ErrorCode)
    (hs : s.connected = false) : R s (s.transitionTo cfg next ec) :=
  h.toCleanup.transitionWith (h.notifyState hg) s next ec hs

theorem armRetry (s : State N) {seq : ℕ} (hq : own seq) (hs : s.connected = false) : R s (s.armRetry cfg seq) := by
  have hc : s.countAttempt.connected = false := by
    unfold State.countAttempt
    split <;> exact hs
  have hcount := h.trans (h.countAttempt s) (h.transitionTo hg _ .connecting .success hc)
  exact h.trans (h.trans hcount (h.cancelWhere _ _)) (h.startOperation _ rfl hq)

theorem giveUpRetry (s : State N) (hs : s.connected = false) : R s (s.giveUpRetry cfg) :=
  h.trans (h.transitionTo hg s .error .success hs) (h.set rfl)

theorem scheduleRetry (s : State N) {seq : ℕ} (hq : own seq) (hs : strands ∨ s.connected = false) :
    R s (s.scheduleRetry cfg seq) := by
  have hlost : R s s.markDisconnected := by
    rcases hs with hs | hs
    · exact h.strand hs s
    · rw [markDisconnected_eq hs]
      exact h.refl s
  apply h.trans hlost
  have hc := s.markDisconnected_connected
  unfold State.scheduleRetry
  generalize s.markDisconnected = t at hc ⊢
  have hset : R t { t with reconnectPending := true } := h.set rfl
  dsimp only
  split_ifs
  · exact h.refl t
  · exact h.refl t
  · exact h.trans hset (h.armRetry hg _ hq hc)
  · exact h.trans hset (h.giveUpRetry hg _ hc)

theorem retryAfter (s : State N) (ec : ErrorCode) {seq : ℕ} (hq : own seq) (hs : s.connected = false) :
    R s ((s.transitionTo cfg .connecting ec).scheduleRetry cfg seq) :=
  h.trans (h.transitionTo hg s .connecting ec hs)
    (h.scheduleRetry hg _ hq (.inr (transitionTo_down hs .connecting ec)))

/-- What follows when the connection is down and its writes are discarded. -/
theorem afterClose {s : State N} {seq : ℕ} (hq : own seq) {ec : ErrorCode}
    (hs : ¬ (ec = .operationAborted ∨ seq ≠ s.currentSeq)) :
    R s.markDisconnected.discardConnectionWrites (s.handleClose cfg seq ec) := by
  unfold State.handleClose
  rw [if_neg hs]
  have hc : s.markDisconnected.discardConnectionWrites.connected = false := s.markDisconnected_connected
  dsimp only
  generalize s.markDisconnected.discardConnectionWrites = t at hc ⊢
  have hdown := h.trans (h.recordClose t ec) (h.tearDown _ ((t.recordClose_connected ec).trans hc))
  have hc : (t.recordClose ec).tearDown.connected = false := by
    rw [tearDown_connected, recordClose_connected, hc]
  generalize (t.recordClose ec).tearDown = u at hdown hc ⊢
  split_ifs
  · exact h.trans hdown (h.transitionTo hg _ .closed ec hc)
  · exact h.trans hdown (h.retryAfter hg _ ec hq hc)

theorem handleClose (s : State N) {seq : ℕ} (hq : own seq) (ec : ErrorCode) : R s (s.handleClose cfg seq ec) := by
  by_cases hs : ec = .operationAborted ∨ seq ≠ s.currentSeq
  · unfold State.handleClose
    rw [if_pos hs]
    exact h.refl s
  · exact h.trans (h.loseConnection s) (h.afterClose hg hq hs)

theorem handleIdleTimeout (s : State N) {seq : ℕ} (hq : own seq) : R s (s.handleIdleTimeout cfg seq) := by
  unfold State.handleIdleTimeout
  split
  · exact h.refl s
  have hlost := h.loseConnection s
  have hc : s.markDisconnected.discardConnectionWrites.connected = false := s.markDisconnected_connected
  dsimp only
  generalize s.markDisconnected.discardConnectionWrites = t at hlost hc ⊢
  have hdown := h.trans (h.trans hlost (h.recordError t "idle_timeout" .timedOut
    (decide (t.settings.idleTimeoutAction = .reconnect)) t.currentAttempts)) (h.tearDown _ hc)
  split_ifs
  · exact h.trans hdown (h.retryAfter hg _ .timedOut hq hc)
  · exact h.trans hdown (h.transitionTo hg _ .closed .timedOut hc)

theorem failReceiveOn (s : State N) (connection : ℕ) {run : ℕ} (hq : own run) :
    R s (s.failReceiveOn cfg connection run) := by
  unfold State.failReceiveOn
  split
  · exact h.refl s
  · exact h.handleClose hg s hq _

/-- The state callback of a new connection runs once the link state is set. -/
theorem enterConnected {s t : State N} (hs : s.stopRequested = false)
    (ht : t.sender = { s.sender with connected := true }) :
    R s (t.transitionTo cfg .connected .success) := by
  have hconnect : ∀ u : State N, u.sender = { t.sender with state := .connected } → R s u := by
    intro u hu
    apply h.connect hs
    rw [hu, ht]
  unfold State.transitionTo State.transitionWith
  rw [if_neg (by decide), if_neg (fun hn => by cases hn.2), if_neg (by decide)]
  split
  · rename_i hstate
    apply hconnect
    rw [← hstate.1]
    rfl
  · exact h.trans (hconnect _ rfl) (h.notifyState hg _)

theorem finishConnect (s : State N) {seq : ℕ} (hq : own seq) : R s (s.finishConnect cfg seq) := by
  unfold State.finishConnect
  split
  · exact h.refl s
  rename_i hrun
  have hs : s.stopRequested = false := Bool.not_eq_true _ |>.mp (fun hr => hrun (.inr (.inl hr)))
  have hconnect : R s (State.transitionTo cfg
      { s with writeWaits := s.writeWaits ++ [⟨s.connectionSeq,none⟩], connected := true }
      .connected .success) := h.enterConnected hg hs rfl
  have hread : ∀ t : State N, R t (t.startRead seq) := fun t => h.startOperation t rfl hq
  exact h.trans (h.trans (h.trans hconnect (hread _)) (h.resetIdleTimer _ hq)) (h.post _ _ _)

theorem handshakeThen (s : State N) {seq : ℕ} (hq : own seq) : R s (s.handshakeThen cfg seq) := by
  unfold State.handshakeThen
  split_ifs
  · exact h.trans (h.recordError s _ _ _ _) (h.handleClose hg _ hq _)
  · exact h.startOperation s rfl hq
  · exact h.finishConnect hg s hq

theorem onResolve (s : State N) {seq : ℕ} (hq : own seq) (ec : ErrorCode) (hs : strands ∨ s.failsAlone seq ec) :
    R s (s.onResolve cfg seq ec) := by
  unfold State.onResolve
  split_ifs with h1 h2 h3
  · exact h.refl s
  · exact h.refl s
  · exact h.trans (h.recordError s _ _ _ _) (h.scheduleRetry hg _ hq (hs.imp id (fun hf => hf h1 h2 h3)))
  · have htimer : ∀ t : State N, R t (t.startOperation (.connectTimer seq)) := fun t => h.startOperation t rfl hq
    exact h.trans (h.trans (h.cancelWhere s _) (htimer _)) (h.startOperation _ rfl hq)

theorem onConnectTimeout (s : State N) {seq : ℕ} (hq : own seq) (ec : ErrorCode) :
    R s (s.onConnectTimeout cfg seq ec) := by
  unfold State.onConnectTimeout
  split_ifs
  · exact h.refl s
  · exact h.trans (h.recordError s _ _ _ _) (h.handleClose hg _ hq _)
  · exact h.refl s

theorem onConnect (s : State N) {seq : ℕ} (hq : own seq) (ec : ErrorCode) (hs : strands ∨ s.failsAlone seq ec) :
    R s (s.onConnect cfg seq ec) := by
  have hcancel := h.cancelWhere s onConnectTimer
  unfold State.onConnect
  split_ifs with h1 h2 h3
  · exact h.refl s
  · exact h.trans (h.toCleanup.closeSocket s) (h.cancelWhere _ _)
  · exact h.trans (h.trans hcancel (h.recordError _ _ _ _ _))
      (h.scheduleRetry hg _ hq (hs.imp id (fun hf => hf h1 h2 h3)))
  · have hset : R (s.cancelWhere onConnectTimer) { s.cancelWhere onConnectTimer with
        retryAttempts := 0, reconnectAttemptCount := 0 } := h.set rfl
    exact h.trans (h.trans hcancel hset) (h.handshakeThen hg _ hq)

theorem onHandshake (s : State N) {seq : ℕ} (hq : own seq) (ec : ErrorCode) : R s (s.onHandshake cfg seq ec) := by
  unfold State.onHandshake
  split_ifs
  · exact h.refl s
  · exact h.trans (h.recordError s _ _ _ _) (h.handleClose hg _ hq _)
  · exact h.finishConnect hg s hq

theorem deliver (s : State N) (hq : own s.currentSeq) (overflow : Bool) : R s (s.deliver cfg overflow) := by
  have hover : ∀ t : State N, t.currentSeq = s.currentSeq →
      R t (if overflow then t.failReceiveHere cfg else t) := by
    intro t ht
    split
    · unfold State.failReceiveHere
      split
      · exact h.refl t
      · exact h.failReceiveOn hg t _ (ht ▸ hq)
    · exact h.refl t
  exact h.trans (h.trans (hg s) (hover _ s.giveWay_currentSeq)) (hg _)

theorem onRead (s : State N) {seq : ℕ} (hq : own seq) (connection : ℕ) (ec : ErrorCode) (n : ℕ) (overflow : Bool) :
    R s (s.onRead cfg seq connection ec n overflow) := by
  unfold State.onRead
  split_ifs with hstale
  · exact h.refl s
  · exact h.refl s
  · exact h.handleClose hg s hq ec
  · have hseq : seq = (s.noteTraffic seq n).currentSeq := by
      rw [noteTraffic_currentSeq]
      exact not_not.mp (not_or.mp (not_or.mp hstale).2).1
    exact h.trans (h.trans (h.noteTraffic s hq n) (h.deliver hg _ (hseq ▸ hq) overflow))
      (h.startOperation _ rfl hq)

theorem onIdle (s : State N) {seq : ℕ} (hq : own seq) (connection arm : ℕ) (ec : ErrorCode) :
    R s (s.onIdle cfg seq connection arm ec) := by
  unfold State.onIdle
  split_ifs
  · exact h.refl s
  · exact h.handleIdleTimeout hg s hq
  · exact h.refl s

theorem startOn (s : State N) {seq : ℕ} (hq : own seq) (hs : strands ∨ s.connected = false) :
    R s (s.startOn cfg seq) := by
  unfold State.startOn
  split
  · exact h.refl s
  have hlost : R s s.markDisconnected := by
    rcases hs with hs | hs
    · exact h.strand hs s
    · rw [markDisconnected_eq hs]
      exact h.refl s
  have hc := s.markDisconnected_connected
  generalize s.markDisconnected = t at hc hlost ⊢
  have hreset : R (t.cancelWhere (fun _ => true)) t.resetIoObjects := h.purge hc rfl
  have hclean := h.trans (h.trans hlost (h.cancelWhere t _)) hreset
  exact h.trans (h.trans hclean (h.transitionTo hg _ .connecting .success hc)) (h.startOperation _ rfl hq)

/-- Every completion but that of a write belongs to the lifecycle. -/
theorem runCompletion (s : State N) (r : Completion) {operation : Operation}
    (hq : own operation.seq) (ho : operation.batch? = none)
    (hs : ∀ seq, operation = .resolve seq ∨ operation = .connect seq → strands ∨ s.failsAlone seq r.ec) :
    R s (s.runCompletion cfg r operation) := by
  cases operation with
  | resolve seq => exact h.onResolve hg s hq r.ec (hs seq (.inl rfl))
  | connectTimer seq => exact h.onConnectTimeout hg s hq r.ec
  | connect seq => exact h.onConnect hg s hq r.ec (hs seq (.inr rfl))
  | handshake seq => exact h.onHandshake hg s hq r.ec
  | retryTimer seq => exact h.onRetry s hq r.ec
  | read seq connection => exact h.onRead hg s hq connection r.ec r.n r.overflow
  | write seq connection batch => cases ho
  | idleTimer seq connection arm => exact h.onIdle hg s hq connection arm r.ec

end Callbacks
end Lifecycle
end State
end Wirestead.Transport.TcpClient
