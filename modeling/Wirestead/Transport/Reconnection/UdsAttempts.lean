import Wirestead.Transport.Reconnection.Outcomes

/-! # The decisions of the UDS client

The same for the UDS client, whose `schedule_retry` makes up the error it decides about.
-/
namespace Wirestead.Transport
open TcpClient (ErrorCode ErrorInfo TrackedBuffer WriteBatch isRetryableTcpConnectError decideReconnect)
open UdsClient (isRetryableUdsConnectError)

namespace UdsClient.State
variable {seq n : ℕ} {settings : Settings} {s : State}

/-- What a decision depends on. -/
def core (s : State) : ℕ × Bool × Bool × Settings × ℕ :=
  (s.currentSeq,s.stopRequested,s.stopping,s.settings,s.reconnectAttemptCount)

/-- A run that is not stopped, after `n` counted attempts. -/
structure Running (s : State) (seq n : ℕ) (settings : Settings) : Prop where
  currentSeq : s.currentSeq = seq
  stopRequested : s.stopRequested = false
  stopping : s.stopping = false
  settings_eq : s.settings = settings
  attempts : s.reconnectAttemptCount = n

theorem Running.of_core {t : State} (h : s.Running seq n settings) (ht : t.core = s.core) :
    t.Running seq n settings := by
  simp only [core, Prod.mk.injEq] at ht
  obtain ⟨h1,h2,h3,h4,h5⟩ := ht
  exact ⟨h1.trans h.currentSeq,h2.trans h.stopRequested,h3.trans h.stopping,h4.trans h.settings_eq,
    h5.trans h.attempts⟩

theorem Running.take (h : s.Running seq n settings) (o : Operation) : (s.take o).Running seq n settings :=
  h.of_core rfl

theorem transitionTo_quiet (hs : s.script.stops = []) (next : TcpClient.LinkState) :
    s.transitionTo next = { s with state := next } := by
  unfold State.transitionTo State.giveWay
  rw [hs]

theorem Running.armed (h : s.Running seq n settings) (hs : s.script.stops = [])
    (hd : decideReconnectUds settings dummyError n = true) :
    (s.scheduleRetry seq).decision = .armed ∧ (s.scheduleRetry seq).Running seq ((n + 1) % 2 ^ 32) settings := by
  unfold State.scheduleRetry
  rw [if_neg (by simp [h.stopRequested, h.stopping]), h.settings_eq, h.attempts, if_pos hd]
  unfold State.armRetry
  rw [transitionTo_quiet hs]
  dsimp only
  rw [if_neg (by simp [h.stopRequested, h.stopping])]
  refine ⟨?_,⟨h.currentSeq,h.stopRequested,h.stopping,h.settings_eq,?_⟩⟩
  · simp [State.decision, State.startOperation, State.cancelWhere, State.onRetryTimer]
  · rw [← h.attempts]
    rfl

theorem Running.gaveUp (h : s.Running seq n settings) (hs : s.script.stops = [])
    (hd : decideReconnectUds settings dummyError n = false) : (s.scheduleRetry seq).decision = .gaveUp := by
  unfold State.scheduleRetry
  rw [if_neg (by simp [h.stopRequested, h.stopping]), h.settings_eq, h.attempts, if_neg (by rw [hd]; decide),
    transitionTo_quiet hs]
  rfl

theorem closing_frame (s : State) (ec : ErrorCode) :
    (s.closing ec).core = s.core ∧ (s.closing ec).script = s.script := by
  have hclose : (s.recordClose ec).core = s.core ∧ (s.recordClose ec).script = s.script := by
    unfold State.recordClose
    split <;> exact ⟨rfl,rfl⟩
  have hmark : ∀ t : State, t.markDisconnected.core = t.core ∧ t.markDisconnected.script = t.script := by
    intro t
    unfold State.markDisconnected
    split <;> exact ⟨rfl,rfl⟩
  have hrest : ∀ t : State,
      (((t.discardConnectionWrites.closeSocket).cancelWhere onRetryTimer).cancelWhere onConnectTimer).core = t.core ∧
      (((t.discardConnectionWrites.closeSocket).cancelWhere onRetryTimer).cancelWhere onConnectTimer).script =
        t.script := fun _ => ⟨rfl,rfl⟩
  unfold State.closing
  obtain ⟨h1,h2⟩ := hrest (s.recordClose ec).markDisconnected
  obtain ⟨h3,h4⟩ := hmark (s.recordClose ec)
  exact ⟨(h1.trans h3).trans hclose.1,(h2.trans h4).trans hclose.2⟩

theorem Running.handleClose_eq (h : s.Running seq n settings) {ec : ErrorCode} (hec : ec ≠ .operationAborted) :
    s.handleClose seq ec = (s.closing ec).scheduleRetry seq := by
  have ht := h.of_core (closing_frame s ec).1
  unfold State.handleClose
  rw [if_neg (by simp [hec, h.currentSeq])]
  dsimp only
  rw [if_neg]
  · rfl
  · change ¬(s.closing ec).stopRequested = true
    rw [ht.stopRequested]
    decide

theorem Running.startRead (h : s.Running seq n settings) : (s.startRead seq).Running seq n settings := by
  unfold State.startRead
  split
  · exact h
  · exact h.of_core rfl

theorem Running.doWrite (h : s.Running seq n settings) (hs : s.script = .none) :
    (s.doWrite seq).Running seq n settings := by
  unfold State.doWrite
  split
  · exact h
  · dsimp only
    rw [if_neg (by rw [hs]; decide)]
    unfold State.initiateWrite
    rw [if_neg (by rw [hs]; decide)]
    exact h.of_core rfl

theorem Running.onConnect (h : s.Running seq n settings) (hs : s.script = .none) :
    (s.onConnect seq .success).Running seq 0 settings := by
  unfold State.onConnect
  dsimp only
  have ht : (s.cancelWhere onConnectTimer).Running seq n settings := h.of_core rfl
  rw [if_neg (by simp [ht.currentSeq]), if_neg (by simp [ht.stopRequested, ht.stopping]),
    if_neg (not_not.mpr rfl), transitionTo_quiet (s := (s.cancelWhere onConnectTimer).establish)
      (show s.script.stops = [] by rw [hs]; rfl)]
  have hup : State.Running { (s.cancelWhere onConnectTimer).establish with state := .connected } seq 0 settings :=
    ⟨h.currentSeq,h.stopRequested,h.stopping,h.settings_eq,rfl⟩
  have hread := hup.startRead
  refine Running.doWrite (hread.of_core rfl) ?_
  change (State.startRead { (s.cancelWhere onConnectTimer).establish with state := .connected } seq).script = .none
  unfold State.startRead
  split <;> exact hs

theorem Running.onConnect_eq (h : s.Running seq n settings) (e : Failure) :
    s.onConnect seq e.code = ((s.cancelWhere onConnectTimer).recordError "connect" e.code
      (isRetryableUdsConnectError e.code)).scheduleRetry seq := by
  have ht : (s.cancelWhere onConnectTimer).Running seq n settings := h.of_core rfl
  unfold State.onConnect
  dsimp only
  rw [if_neg (by simp [ht.currentSeq, Failure.code_ne_aborted]),
    if_neg (by simp [ht.stopRequested, ht.stopping]), if_pos e.code_ne_success]

theorem Running.onConnectTimeout_eq (h : s.Running seq n settings) :
    s.onConnectTimeout seq .success =
      ((s.recordError "connect" .timedOut true).closing .timedOut).scheduleRetry seq := by
  have hrec : (s.recordError "connect" .timedOut true).Running seq n settings := h.of_core rfl
  unfold State.onConnectTimeout
  rw [if_neg (by simp [h.currentSeq]), if_pos rfl, hrec.handleClose_eq (by decide)]

theorem Running.onRead_eq (h : s.Running seq n settings) (e : Failure) :
    s.onRead seq s.connectionSeq e.code false = (s.closing e.code).scheduleRetry seq := by
  unfold State.onRead
  rw [if_neg (by simp [h.currentSeq, h.stopRequested, Failure.code_ne_aborted]),
    if_pos e.code_ne_success, h.handleClose_eq e.code_ne_aborted]

theorem Running.markDisconnected (h : s.Running seq n settings) :
    s.markDisconnected.Running seq n settings ∧ s.markDisconnected.script = s.script := by
  unfold State.markDisconnected
  split
  · exact ⟨h.of_core rfl,rfl⟩
  · exact ⟨h,rfl⟩

theorem Running.onWrite_eq (h : s.Running seq n settings) (buffers : List TrackedBuffer) (bytes : ℕ) (e : Failure)
    (written : ℕ) : s.onWrite seq s.connectionSeq buffers bytes e.code written =
      (State.closing { s.markDisconnected with tx := buffers ++ s.markDisconnected.tx, writing := false }
        e.code).scheduleRetry seq := by
  have hm := h.markDisconnected.1
  have hf : State.Running { s.markDisconnected with tx := buffers ++ s.markDisconnected.tx, writing := false }
      seq n settings := hm.of_core rfl
  have hne := e.code_ne_success
  have hec : (if e.code = .success ∧ written < bytes then ErrorCode.connectionReset else e.code) = e.code :=
    if_neg (fun h' => hne h'.1)
  have hcur : decide (s.connectionSeq = s.connectionSeq) = true := decide_eq_true rfl
  unfold State.onWrite
  dsimp only
  rw [hec, hcur, if_neg (show ¬true = false by decide), if_pos (show true = true ∧ e.code ≠ .success from ⟨rfl,hne⟩),
    if_neg (by simp [hm.stopRequested, hm.currentSeq]), if_pos hne, ← hf.handleClose_eq e.code_ne_aborted]

theorem Running.decides (h : s.Running seq n settings) (o : Outcome) :
    (s.atDecision seq o).Running seq (o.attempts n) settings ∧ (s.atDecision seq o).script.stops = [] ∧
      s.attempt seq o = (s.atDecision seq o).scheduleRetry seq := by
  have hserving : (s.established seq).Running seq 0 settings := (h.take (.connect seq)).onConnect rfl
  have hclosing : ∀ {t : State} {k : ℕ} (ec : ErrorCode), t.Running seq k settings → t.script.stops = [] →
      (t.closing ec).Running seq k settings ∧ (t.closing ec).script.stops = [] := by
    intro t k ec ht hs
    exact ⟨ht.of_core (closing_frame t ec).1,by rw [(closing_frame t ec).2, hs]⟩
  cases o with
  | refused e =>
    have ht := h.take (.connect seq)
    exact ⟨ht.of_core rfl,rfl,ht.onConnect_eq e⟩
  | timedOut =>
    have ht := h.take (.connectTimer seq)
    have hrec : ((s.take (.connectTimer seq)).recordError "connect" .timedOut true).Running seq n settings :=
      ht.of_core rfl
    obtain ⟨hc,hs⟩ := hclosing .timedOut hrec rfl
    exact ⟨hc,hs,ht.onConnectTimeout_eq⟩
  | lost e loss =>
    cases loss with
    | read =>
      have ht := hserving.take (.read seq (s.established seq).connectionSeq)
      obtain ⟨hc,hs⟩ := hclosing e.code ht rfl
      exact ⟨hc,hs,ht.onRead_eq e⟩
    | write buffers bytes written =>
      have ht := hserving.take (.write seq (s.established seq).connectionSeq buffers bytes)
      obtain ⟨hm,hscript⟩ := ht.markDisconnected
      have hf := hm.of_core (t := { State.markDisconnected ((s.established seq).take
        (.write seq (s.established seq).connectionSeq buffers bytes)) with
          tx := buffers ++ (State.markDisconnected ((s.established seq).take
            (.write seq (s.established seq).connectionSeq buffers bytes))).tx
          writing := false }) rfl
      obtain ⟨hc,hs⟩ := hclosing e.code hf (congrArg Script.stops hscript)
      exact ⟨hc,hs,ht.onWrite_eq buffers bytes e written⟩

theorem Running.resume (h : s.Running seq n settings) : (s.resume seq).Running seq n settings := by
  have ht := h.take (.retryTimer seq)
  change ((s.take (.retryTimer seq)).onRetry .ok seq .success).Running seq n settings
  unfold State.onRetry State.doConnect
  rw [if_neg (by simp [ht.currentSeq]), if_neg (by simp [ht.stopRequested, ht.stopping, ht.currentSeq])]
  exact ht.of_core rfl

theorem verdicts_eq (h : s.Running seq n settings) (outcomes : List Outcome) :
    s.verdicts seq outcomes = decisions ⟨settings.maxRetries,settings.reconnectPolicy,0,.close⟩
      (fun _ _ => dummyError) (fun n => (n + 1) % 2 ^ 32) n outcomes := by
  induction outcomes generalizing s n with
  | nil => rfl
  | cons o outcomes ih =>
    obtain ⟨hdec,hs,heq⟩ := h.decides o
    have hcall : (s.atDecision seq o).policyCall =
        policyCalled settings.maxRetries settings.reconnectPolicy dummyError (o.attempts n) := by
      unfold State.policyCall
      rw [hdec.settings_eq, hdec.attempts]
    unfold State.verdicts decisions
    dsimp only
    rw [heq, hcall]
    cases hd : decideReconnectUds settings dummyError (o.attempts n) with
    | false =>
      unfold decideReconnectUds at hd
      rw [hdec.gaveUp hs hd, hd]
      rfl
    | true =>
      obtain ⟨harmed,hnext⟩ := hdec.armed hs hd
      unfold decideReconnectUds at hd
      rw [harmed, hd, if_pos rfl, if_pos rfl, if_pos rfl, ih hnext.resume]

theorem started_running (settings : Settings) : (started settings).Running 1 0 settings := ⟨rfl,rfl,rfl,rfl,rfl⟩

end UdsClient.State

end Wirestead.Transport
