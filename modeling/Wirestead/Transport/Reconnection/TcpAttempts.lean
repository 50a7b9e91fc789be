import Wirestead.Transport.TcpClient.Lifecycle
import Wirestead.Transport.Reconnection.Outcomes

/-! # The decisions of the TCP client

Every outcome of an attempt ends in `schedule_retry`, with the error that was recorded
about it. The verdicts of a run are those of a client that only counts.
-/
namespace Wirestead.Transport
open TcpClient (ErrorCode ErrorInfo TrackedBuffer WriteBatch isRetryableTcpConnectError decideReconnect)

namespace TcpClient.State
variable {N : Type*} [CommRing N] {cfg : Config} {seq n : ℕ} {settings : Settings} {s : State N}

omit [CommRing N] in
/-- What a decision depends on, apart from the link itself. -/
def core (s : State N) : ℕ × Bool × Bool × Bool × Bool × Settings × ℕ × ℕ :=
  (s.currentSeq,s.stopRequested,s.stopping,s.terminalStateNotified,s.reconnectPending,s.settings,s.retryAttempts,
    s.reconnectAttemptCount)

/-- A run that is not stopped and has no retry pending, after `n` counted attempts. -/
structure Running (s : State N) (seq n : ℕ) (settings : Settings) : Prop where
  currentSeq : s.currentSeq = seq
  stopRequested : s.stopRequested = false
  stopping : s.stopping = false
  terminalStateNotified : s.terminalStateNotified = false
  reconnectPending : s.reconnectPending = false
  settings_eq : s.settings = settings
  attempts : s.currentAttempts = n

/-- An attempt is under way. -/
structure Attempting (s : State N) (seq n : ℕ) (settings : Settings) : Prop extends Running s seq n settings where
  connected : s.connected = false
  state : s.state = .connecting

/-- `schedule_retry` is about to decide. -/
structure Deciding (s : State N) (seq n : ℕ) (settings : Settings) (info : ErrorInfo) : Prop
    extends Attempting s seq n settings where
  script : s.script.callers = []
  lastError : s.lastError = some info

section Frames
variable {t : State N}

omit [CommRing N] in
theorem Running.of_core (h : s.Running seq n settings) (ht : t.core = s.core) : t.Running seq n settings := by
  simp only [core, Prod.mk.injEq] at ht
  obtain ⟨h1,h2,h3,h4,h5,h6,h7,h8⟩ := ht
  refine ⟨h1.trans h.currentSeq,h2.trans h.stopRequested,h3.trans h.stopping,h4.trans h.terminalStateNotified,
    h5.trans h.reconnectPending,h6.trans h.settings_eq,?_⟩
  rw [← h.attempts]
  unfold currentAttempts
  rw [h6, h7, h8]

omit [CommRing N] in
theorem Attempting.of_core (h : s.Attempting seq n settings) (ht : t.core = s.core) (hc : t.connected = s.connected)
    (hs : t.state = s.state) : t.Attempting seq n settings :=
  ⟨h.toRunning.of_core ht,hc.trans h.connected,hs.trans h.state⟩

omit [CommRing N] in
theorem Attempting.ioCompletion (h : s.Attempting seq n settings) : s.ioCompletion.Attempting seq n settings := by
  unfold State.ioCompletion
  split
  · exact h.of_core rfl rfl rfl
  · exact h

omit [CommRing N] in
theorem Attempting.take (h : s.Attempting seq n settings) (o : Operation) : (s.take o).Attempting seq n settings :=
  h.of_core rfl rfl rfl

omit [CommRing N] in
theorem Attempting.cancelWhere (h : s.Attempting seq n settings) (p : Operation → Bool) :
    (s.cancelWhere p).Attempting seq n settings :=
  h.of_core rfl rfl rfl

omit [CommRing N] in
theorem Attempting.startOperation (h : s.Attempting seq n settings) (o : Operation) :
    (s.startOperation o).Attempting seq n settings :=
  h.of_core rfl rfl rfl

theorem markDisconnected_core (s : State N) : s.markDisconnected.core = s.core := by
  unfold State.markDisconnected
  split <;> rfl

end Frames

section Quiet
variable (hs : s.script.callers = [])

include hs

/-- Without user callbacks a transition only sets the state. -/
theorem transitionTo_quiet (next : LinkState) (ec : ErrorCode) :
    s.transitionTo cfg next ec = s.transitionWith id next ec := by
  have hnotify : ∀ t : State N, t.script.callers = [] → t.notifyState cfg = t := by
    intro t ht
    unfold State.notifyState State.giveWay
    split
    · rfl
    · rw [ht]
  unfold State.transitionTo State.transitionWith
  split_ifs
  · rfl
  · rfl
  · rfl
  · exact hnotify _ hs
  · rfl
  · exact hnotify _ hs

theorem transitionTo_connecting {ec : ErrorCode} (hec : ec ≠ .operationAborted) :
    s.transitionTo cfg .connecting ec = { s with state := .connecting } := by
  rw [transitionTo_quiet hs]
  unfold State.transitionWith
  rw [if_neg hec, if_neg (fun h => by cases h.2), if_neg (by decide), if_neg (fun h => h.2 ⟨rfl,h.1⟩)]
  rfl

theorem transitionTo_connected (cfg : Config) (h : s.state = .connecting) :
    s.transitionTo cfg .connected .success = { s with state := .connected } := by
  rw [transitionTo_quiet hs]
  unfold State.transitionWith
  rw [if_neg (by decide), if_neg (fun h => by cases h.2), if_neg (by decide),
    if_neg (fun h' => by rw [h] at h'; cases h'.1)]
  rfl

theorem transitionTo_error (cfg : Config) (h : s.state = .connecting) (hn : s.terminalStateNotified = false) :
    s.transitionTo cfg .error .success = { s with terminalStateNotified := true, state := .error } := by
  rw [transitionTo_quiet hs]
  unfold State.transitionWith
  rw [if_neg (by decide), if_neg (fun h' => by rw [h] at h'; cases h'.1),
    if_pos (show LinkState.error.terminal = true from rfl), if_neg (by rw [hn]; decide)]
  rfl

end Quiet

theorem Attempting.resolved (h : s.Attempting seq n settings) (cfg : Config) :
    (s.resolved cfg seq).Attempting seq n settings := by
  unfold State.resolved State.completes
  refine Attempting.ioCompletion ?_
  change ((s.take (.resolve seq)).onResolve cfg seq .success).Attempting seq n settings
  unfold State.onResolve
  rw [if_neg (by simp [State.take, h.currentSeq]), if_neg (by simp [State.take, h.stopRequested, h.stopping]),
    if_neg (not_not.mpr rfl)]
  exact (((h.take _).cancelWhere _).startOperation _).startOperation _

theorem Attempting.resume (h : ({ s with reconnectPending := false } : State N).Attempting seq n settings) :
    (s.resume cfg seq).Attempting seq n settings := by
  unfold State.resume State.completes
  refine Attempting.ioCompletion ?_
  change ((s.take (.retryTimer seq)).onRetry seq .success).Attempting seq n settings
  have hseq : s.currentSeq = seq := h.currentSeq
  have hreq : s.stopRequested = false := h.stopRequested
  have hstop : s.stopping = false := h.stopping
  unfold State.onRetry
  dsimp only
  rw [if_neg (by simp [State.take, hseq]), if_pos (by simp [State.take, hreq, hstop])]
  exact h.of_core rfl rfl rfl

/-- The attempts after one more. -/
def nextAttempt (settings : Settings) (n : ℕ) : ℕ :=
  if settings.reconnectPolicy.isSome then (n + 1) % 2 ^ 32 else n + 1

theorem Deciding.scheduleRetry_eq {info : ErrorInfo} (h : s.Deciding seq n settings info) :
    s.scheduleRetry cfg seq =
      if decideReconnect settings info n then ({ s with reconnectPending := true } : State N).armRetry cfg seq
      else ({ s with reconnectPending := true } : State N).giveUpRetry cfg := by
  have hinfo : decideReconnect s.settings (s.lastError.getD unknownError) s.currentAttempts =
      decideReconnect settings info n := by
    rw [h.settings_eq, h.lastError, h.attempts]
    rfl
  unfold State.scheduleRetry
  rw [markDisconnected_eq h.connected]
  dsimp only
  rw [if_neg (by simp [h.stopRequested, h.stopping]), if_neg (by simp [h.reconnectPending]), ← hinfo]
  rfl

theorem Deciding.armed {info : ErrorInfo} (h : s.Deciding seq n settings info) (cfg : Config)
    (hd : decideReconnect settings info n = true) :
    (s.scheduleRetry cfg seq).decision = .armed ∧
      ({ s.scheduleRetry cfg seq with reconnectPending := false } : State N).Attempting seq
        (nextAttempt settings n) settings := by
  rw [h.scheduleRetry_eq, if_pos hd]
  unfold State.armRetry
  rw [transitionTo_connecting (by unfold State.countAttempt; split <;> exact h.script) (by decide)]
  refine ⟨?_,?_⟩
  · simp [State.decision, State.startOperation, State.cancelWhere, State.onRetryTimer]
  · have hn := h.attempts
    unfold State.countAttempt State.currentAttempts nextAttempt at *
    rw [h.settings_eq] at hn
    split
    · rename_i hp
      replace hp : settings.reconnectPolicy.isSome = true := by rw [← h.settings_eq]; exact hp
      rw [if_pos hp] at hn ⊢
      refine ⟨⟨h.currentSeq,h.stopRequested,h.stopping,h.terminalStateNotified,rfl,h.settings_eq,?_⟩,h.connected,rfl⟩
      simp [State.currentAttempts, State.startOperation, State.cancelWhere, h.settings_eq, hp, hn]
    · rename_i hp
      replace hp : ¬settings.reconnectPolicy.isSome = true := by rw [← h.settings_eq]; exact hp
      rw [if_neg hp] at hn ⊢
      refine ⟨⟨h.currentSeq,h.stopRequested,h.stopping,h.terminalStateNotified,rfl,h.settings_eq,?_⟩,h.connected,rfl⟩
      simp [State.currentAttempts, State.startOperation, State.cancelWhere, h.settings_eq, hp, hn]

theorem Deciding.gaveUp {info : ErrorInfo} (h : s.Deciding seq n settings info)
    (hd : decideReconnect settings info n = false) : (s.scheduleRetry cfg seq).decision = .gaveUp := by
  have htrans := transitionTo_error (s := { s with reconnectPending := true }) h.script cfg h.state
    h.terminalStateNotified
  rw [h.scheduleRetry_eq, if_neg (by rw [hd]; decide)]
  unfold State.giveUpRetry
  rw [htrans]
  rfl

/-- The error that the client records about a failure. -/
def report : Outcome → ℕ → ErrorInfo
  | .refused e, n => ⟨"connect",e.code,isRetryableTcpConnectError e.code,n⟩
  | o, n => ⟨"handle_close",o.code,isRetryableTcpConnectError o.code,n⟩

/-- What is left of a connection when it is torn down. -/
theorem tearDown_frame (s : State N) (ec : ErrorCode) :
    (s.markDisconnected.discardConnectionWrites.recordClose ec).tearDown.core = s.core ∧
      (s.markDisconnected.discardConnectionWrites.recordClose ec).tearDown.state = s.state ∧
      (s.markDisconnected.discardConnectionWrites.recordClose ec).tearDown.script = s.script ∧
      (s.markDisconnected.discardConnectionWrites.recordClose ec).tearDown.connected = false := by
  have hstate : s.markDisconnected.state = s.state ∧ s.markDisconnected.script = s.script := by
    unfold State.markDisconnected
    split <;> exact ⟨rfl,rfl⟩
  have hclose : ∀ t : State N, (t.recordClose ec).tearDown.core = t.core ∧
      (t.recordClose ec).tearDown.state = t.state ∧ (t.recordClose ec).tearDown.script = t.script ∧
      (t.recordClose ec).tearDown.connected = t.connected := by
    intro t
    unfold State.recordClose
    split <;> simp [State.tearDown, State.closeSocket, State.cancelWhere, State.recordError, core]
  obtain ⟨h1,h2,h3,h4⟩ := hclose s.markDisconnected.discardConnectionWrites
  exact ⟨h1.trans (markDisconnected_core s),h2.trans hstate.1,h3.trans hstate.2,
    h4.trans (markDisconnected_connected s)⟩

theorem Running.handleClose_eq (h : s.Running seq n settings) (hstate : s.state ≠ .closed) {ec : ErrorCode}
    (hec : ec ≠ .operationAborted) : s.handleClose cfg seq ec = (s.closing cfg ec).scheduleRetry cfg seq := by
  obtain ⟨hcore,hst,-,-⟩ := tearDown_frame s ec
  have ht := h.of_core hcore
  unfold State.handleClose
  rw [if_neg (by simp [hec, h.currentSeq])]
  dsimp only
  rw [if_neg (by simp [ht.stopRequested, ht.stopping, hst, hstate])]
  rfl

theorem Running.closing (h : s.Running seq n settings) (hs : s.script.callers = []) {ec : ErrorCode}
    (hec : ec ≠ .operationAborted) (he : ec ≠ .success) :
    (s.closing cfg ec).Deciding seq n settings ⟨"handle_close",ec,isRetryableTcpConnectError ec,n⟩ := by
  obtain ⟨hcore,-,hscript,hconn⟩ := tearDown_frame s ec
  have ht := h.of_core hcore
  unfold State.closing
  rw [transitionTo_connecting (by rw [hscript, hs]) hec]
  refine ⟨⟨ht.of_core rfl,hconn,rfl⟩,by rw [← hs, ← hscript],?_⟩
  change ((s.markDisconnected.discardConnectionWrites.recordClose ec).tearDown).lastError = _
  have hn : s.markDisconnected.discardConnectionWrites.currentAttempts = n :=
    (h.of_core (t := s.markDisconnected.discardConnectionWrites) (markDisconnected_core s)).attempts
  unfold State.recordClose
  rw [if_neg he, ← hn]
  rfl

/-- A connection is up, and its attempts were reset. -/
structure Serving (s : State N) (seq : ℕ) (settings : Settings) : Prop extends Running s seq 0 settings where
  connected : s.connected = true
  state : s.state = .connected

omit [CommRing N] in
theorem Serving.of_core {t : State N} (h : s.Serving seq settings) (ht : t.core = s.core)
    (hc : t.connected = s.connected) (hs : t.state = s.state) : t.Serving seq settings :=
  ⟨h.toRunning.of_core ht,hc.trans h.connected,hs.trans h.state⟩

omit [CommRing N] in
theorem Serving.take (h : s.Serving seq settings) (o : Operation) : (s.take o).Serving seq settings :=
  h.of_core rfl rfl rfl

omit [CommRing N] in
theorem Serving.startOperation (h : s.Serving seq settings) (o : Operation) :
    (s.startOperation o).Serving seq settings :=
  h.of_core rfl rfl rfl

omit [CommRing N] in
theorem Serving.resetIdleTimer (h : s.Serving seq settings) (seq' : ℕ) :
    (s.resetIdleTimer seq').Serving seq settings := by
  unfold State.resetIdleTimer
  split
  · exact h
  · exact h.of_core rfl rfl rfl

theorem Attempting.finishConnect (h : s.Attempting seq 0 settings) (hs : s.script.callers = []) :
    (s.finishConnect cfg seq).Serving seq settings := by
  have hup := transitionTo_connected
    (s := { s with writeWaits := s.writeWaits ++ [⟨s.connectionSeq,none⟩], connected := true }) hs cfg h.state
  unfold State.finishConnect
  rw [if_neg (by simp [h.currentSeq, h.stopRequested, h.stopping])]
  dsimp only
  rw [hup]
  have hserving : State.Serving { s with writeWaits := s.writeWaits ++ [⟨s.connectionSeq,none⟩]
                                         connected := true
                                         state := .connected } seq settings :=
    ⟨h.toRunning.of_core rfl,rfl,rfl⟩
  exact ((hserving.startOperation _).resetIdleTimer seq).of_core rfl rfl rfl

theorem Attempting.onConnect (h : s.Attempting seq n settings) (hs : s.script.callers = [])
    (htls : cfg.tlsEnabled = false) : (s.onConnect cfg seq .success).Serving seq settings := by
  unfold State.onConnect
  rw [if_neg (by simp [h.currentSeq]), if_neg (by simp [h.stopRequested, h.stopping]), if_neg (not_not.mpr rfl)]
  dsimp only
  unfold State.handshakeThen
  rw [if_neg (by rw [htls]; decide)]
  have hreset : State.Attempting
      { s.cancelWhere onConnectTimer with retryAttempts := 0, reconnectAttemptCount := 0 } seq 0 settings :=
    ⟨⟨h.currentSeq,h.stopRequested,h.stopping,h.terminalStateNotified,h.reconnectPending,h.settings_eq,
      by simp [State.currentAttempts]⟩,h.connected,h.state⟩
  exact hreset.finishConnect hs

theorem Attempting.established (h : s.Attempting seq n settings) (htls : cfg.tlsEnabled = false) :
    (s.established cfg seq).Serving seq settings := by
  have hserving := ((h.resolved cfg).take (.connect seq)).onConnect rfl htls
  unfold State.established State.completes State.ioCompletion
  split
  · exact hserving.of_core rfl rfl rfl
  · exact hserving

theorem Attempting.onConnect_eq (h : s.Attempting seq n settings) (e : Failure) :
    s.onConnect cfg seq e.code = ((s.cancelWhere onConnectTimer).recordError "connect" e.code
      (isRetryableTcpConnectError e.code) s.currentAttempts).scheduleRetry cfg seq := by
  unfold State.onConnect
  rw [if_neg (by simp [h.currentSeq, e.code_ne_aborted]), if_neg (by simp [h.stopRequested, h.stopping]),
    if_pos e.code_ne_success]

theorem Attempting.onConnectTimeout_eq (h : s.Attempting seq n settings) :
    s.onConnectTimeout cfg seq .success = ((s.recordError "connect" .timedOut
      (isRetryableTcpConnectError .timedOut) s.currentAttempts).closing cfg .timedOut).scheduleRetry cfg seq := by
  have hrec : (s.recordError "connect" .timedOut (isRetryableTcpConnectError .timedOut)
      s.currentAttempts).Attempting seq n settings := h.of_core rfl rfl rfl
  unfold State.onConnectTimeout
  rw [if_neg (by simp [h.currentSeq]), if_pos (by simp [h.stopRequested, h.stopping]),
    hrec.toRunning.handleClose_eq (by rw [hrec.state]; decide) (by decide)]

theorem Serving.onRead_eq (h : s.Serving seq settings) (e : Failure) :
    s.onRead cfg seq s.connectionSeq e.code 0 false = (s.closing cfg e.code).scheduleRetry cfg seq := by
  unfold State.onRead
  rw [if_neg (by simp [h.currentSeq, e.code_ne_aborted]), if_neg (by simp [h.stopRequested]),
    if_pos e.code_ne_success, h.toRunning.handleClose_eq (by rw [h.state]; decide) e.code_ne_aborted]

theorem Serving.failWrite (h : s.Serving seq settings) (batch : WriteBatch) (e : Failure) (written : ℕ) :
    (s.failWrite seq batch e.code written).Running seq 0 settings ∧
      (s.failWrite seq batch e.code written).state = .connected ∧
      (s.failWrite seq batch e.code written).script = s.script := by
  have hsettle : (s.settleWrite seq s.connectionSeq batch e.code written).core = s.core ∧
      (s.settleWrite seq s.connectionSeq batch e.code written).state = s.state ∧
      (s.settleWrite seq s.connectionSeq batch e.code written).script = s.script := by
    unfold State.settleWrite
    dsimp only
    split
    · unfold State.markDisconnected
      split <;> exact ⟨rfl,rfl,rfl⟩
    · exact ⟨rfl,rfl,rfl⟩
  exact ⟨h.toRunning.of_core hsettle.1,hsettle.2.1.trans h.state,hsettle.2.2⟩

theorem Serving.onWrite_eq (h : s.Serving seq settings) (batch : WriteBatch) (e : Failure) (written : ℕ) :
    s.onWrite cfg seq s.connectionSeq batch e.code written =
      ((s.failWrite seq batch e.code written).closing cfg e.code).scheduleRetry cfg seq := by
  obtain ⟨hrun,hstate,-⟩ := h.failWrite batch e written
  have hseq : (s.settleWrite seq s.connectionSeq batch e.code written).currentSeq = seq := hrun.currentSeq
  rw [← hrun.handleClose_eq (by rw [hstate]; decide) e.code_ne_aborted]
  unfold State.onWrite
  dsimp only
  rw [if_neg (by simp), if_neg (by simp [hseq, e.code_ne_aborted]), if_pos e.code_ne_success]
  rfl

/-- Every outcome ends in a decision about the failure that it met. -/
theorem Attempting.decides (h : s.Attempting seq n settings) (htls : cfg.tlsEnabled = false) (o : Outcome) :
    (s.atDecision cfg seq o).Deciding seq (o.attempts n) settings (report o (o.attempts n)) ∧
      s.attempt cfg seq o = ((s.atDecision cfg seq o).scheduleRetry cfg seq).ioCompletion := by
  have hserving := h.established htls
  cases o with
  | refused e =>
    have hr := (h.resolved cfg).take (.connect seq)
    refine ⟨⟨(hr.cancelWhere onConnectTimer).of_core rfl rfl rfl,rfl,?_⟩,congrArg State.ioCompletion (hr.onConnect_eq e)⟩
    exact congrArg (fun k => some (ErrorInfo.mk "connect" e.code (isRetryableTcpConnectError e.code) k)) hr.attempts
  | timedOut =>
    have hr := (h.resolved cfg).take (.connectTimer seq)
    have hrec := hr.of_core (t := State.recordError ((s.resolved cfg seq).take (.connectTimer seq)) "connect" .timedOut
      (isRetryableTcpConnectError .timedOut) (State.currentAttempts ((s.resolved cfg seq).take (.connectTimer seq))))
      rfl rfl rfl
    exact ⟨hrec.toRunning.closing rfl (by decide) (by decide),congrArg State.ioCompletion hr.onConnectTimeout_eq⟩
  | lost e loss =>
    cases loss with
    | read =>
      have hread := hserving.take (.read seq (s.established cfg seq).connectionSeq)
      exact ⟨hread.toRunning.closing rfl e.code_ne_aborted e.code_ne_success,
        congrArg State.ioCompletion (hread.onRead_eq e)⟩
    | write buffers bytes written =>
      have hwrite := hserving.take (.write seq (s.established cfg seq).connectionSeq
        ⟨(s.established cfg seq).nextToken,buffers,bytes⟩)
      obtain ⟨hrun,-,hscript⟩ := hwrite.failWrite ⟨(s.established cfg seq).nextToken,buffers,bytes⟩ e written
      exact ⟨hrun.closing (by rw [hscript]; rfl) e.code_ne_aborted e.code_ne_success,
        congrArg State.ioCompletion (hwrite.onWrite_eq _ e written)⟩

omit [CommRing N] in
theorem decision_ioCompletion (s : State N) : s.ioCompletion.decision = s.decision := by
  unfold State.ioCompletion
  split <;> rfl

theorem verdicts_eq (h : s.Attempting seq n settings) (htls : cfg.tlsEnabled = false) (outcomes : List Outcome) :
    s.verdicts cfg seq outcomes = decisions settings report (nextAttempt settings) n outcomes := by
  induction outcomes generalizing s n with
  | nil => rfl
  | cons o outcomes ih =>
    obtain ⟨hdec,heq⟩ := h.decides htls o
    have hcall : (s.atDecision cfg seq o).policyCall = policyCalled settings.maxRetries settings.reconnectPolicy
        (report o (o.attempts n)) (o.attempts n) := by
      unfold State.policyCall
      rw [hdec.settings_eq, hdec.lastError, hdec.attempts]
      rfl
    unfold State.verdicts decisions
    dsimp only
    rw [heq, decision_ioCompletion, hcall]
    cases hd : decideReconnect settings (report o (o.attempts n)) (o.attempts n) with
    | false =>
      rw [hdec.gaveUp hd]
      rfl
    | true =>
      obtain ⟨harmed,hnext⟩ := hdec.armed cfg hd
      have hresume : (State.resume cfg seq ((s.atDecision cfg seq o).scheduleRetry cfg seq).ioCompletion).Attempting
          seq (nextAttempt settings (o.attempts n)) settings := by
        refine Attempting.resume ?_
        unfold State.ioCompletion
        split
        · exact hnext.of_core rfl rfl rfl
        · exact hnext
      rw [harmed, if_pos rfl, if_pos rfl, if_pos rfl, ih hresume]

theorem Running.startOn (h : s.Running seq n settings) (hs : s.script.callers = []) (hc : s.connected = false)
    (hlt : s.stopSeq < seq) : (s.startOn cfg seq).Attempting seq n settings := by
  unfold State.startOn
  rw [if_neg (by omega), markDisconnected_eq hc, transitionTo_connecting (s := s.resetIoObjects) hs (by decide)]
  exact ⟨h.of_core rfl,hc,rfl⟩

theorem started_attempting (cfg : Config) (settings : Settings) :
    (started cfg settings : State N).Attempting 1 0 settings := by
  have hrun : State.Running { (init settings : State N).start with posted := [], script := .none } 1 0 settings := by
    refine ⟨rfl,rfl,rfl,rfl,rfl,rfl,?_⟩
    unfold State.currentAttempts
    split <;> rfl
  exact hrun.startOn rfl rfl Nat.zero_lt_one

end TcpClient.State

end Wirestead.Transport
