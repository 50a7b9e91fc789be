import Wirestead.Transport.TcpServer.Listener

/-! # What a step of the listener can do

The steps are told apart once, by `Listener.Move`. A step of the listener is at most one
step of its server, apart from the active state that it tells. So what holds of the places
of the sessions and of the totals, over every run of a server, holds of the listener too.
-/
namespace Wirestead.Transport.TcpServer
open Diagnostics TcpClient

/-- The attempt listens. -/
def Attempt.succeeds (attempt : Attempt) (isOpen : Bool) : Bool :=
  attempt.addressValid && (isOpen || attempt.opens) && attempt.binds && attempt.listens

/-- The attempt sets the timer of the next one. -/
def Attempt.retries (attempt : Attempt) (isOpen : Bool) (cfg : ListenerConfig) (retryCount : ℕ) : Bool :=
  attempt.addressValid && (isOpen || attempt.opens) && !attempt.binds && cfg.enablePortRetry &&
    decide (retryCount < cfg.maxPortRetries)

namespace Server
variable {N : Type*} {s t : Server N}

theorem Phased.tell (h : s.Phased) {state : LinkState} (hs : active state = active s.state) :
    ({ s with state := state } : Server N).Phased where
  before := h.before
  after := h.after
  running := h.running
  cleanup := h.cleanup
  single := h.single
  done := h.done
  idle hi := h.idle (hs.symm.trans hi)
  binding hm := hs.trans (h.binding hm)
  one := h.one
  bounded := h.bounded
  dispatched hd := h.dispatched (hd.imp_left hs.symm.trans)
  accepting ha := ⟨hs.trans (h.accepting ha).1,(h.accepting ha).2⟩

variable [CommRing N]

theorem Kept.tell (h : s.Kept) (state : LinkState) : ({ s with state := state } : Server N).Kept :=
  ⟨h.base_le,h.places,h.faithful,h.closed,h.shut,h.gone,h.told,h.answered⟩

/-- The server takes at most one step, and then may tell another state of the same activity. -/
def Follows (s t : Server N) : Prop :=
  ∃ ops, ops.length ≤ 1 ∧ Serial s ops ∧
    ∃ state, active state = active (s.run ops).state ∧ t = { s.run ops with state := state }

namespace Follows

theorem refl (s : Server N) : s.Follows s := ⟨[],Nat.zero_le 1,trivial,s.state,rfl,rfl⟩

/-- One step that is no start. -/
theorem step (s : Server N) (op : ServerOp) (hop : ∀ tlsFails, op ≠ .start tlsFails) : s.Follows (s.step op) :=
  ⟨[op],le_rfl,⟨fun tlsFails heq => absurd heq (hop tlsFails),trivial⟩,(s.step op).state,rfl,rfl⟩

theorem tell (h : s.Follows t) {state : LinkState} (hs : active state = active t.state) :
    s.Follows { t with state := state } := by
  obtain ⟨ops,hone,hserial,st,hst,rfl⟩ := h
  exact ⟨ops,hone,hserial,state,hs.trans hst,rfl⟩

theorem sound (h : s.Follows t) (hk : s.Kept) (hp : s.Phased) : t.Kept ∧ t.Phased := by
  obtain ⟨ops,-,hserial,state,hstate,rfl⟩ := h
  obtain ⟨hkept,hphased⟩ := hk.run hp hserial
  exact ⟨hkept.tell state,hphased.tell hstate⟩

end Follows

omit [CommRing N] in
/-- The listener does not ask whether the server is active, but it accepts only then. -/
theorem accept_eq (hs : s.stopping = false) (ha : active s.state = true) (hn : s.accepting = false) :
    s.accept = { s with accepting := true } := by
  simp [accept, hs, ha, hn]

end Server

namespace Listener
variable {N : Type*} {l : Listener N}

@[simp] theorem notifyState_core (l : Listener N) : l.notifyState.core = l.core := by
  unfold notifyState
  split <;> rfl

@[simp] theorem fail_core (l : Listener N) (category : ErrorCategory) (operation : Operation) :
    (l.fail category operation).core = { l.core with state := .error } := by
  simp [fail, setState, recordError]

@[simp] theorem acceptLater_core (l : Listener N) (generation : ℕ) : (l.acceptLater generation).core = l.core := by
  unfold acceptLater
  split <;> rfl

@[simp] theorem doAccept_core (l : Listener N) : l.doAccept.core = l.core := by
  unfold doAccept
  split <;> rfl

theorem onBind_core (l : Listener N) (cfg : ListenerConfig) (generation : ℕ) (attempt : Attempt) :
    (l.onBind cfg generation attempt).core = l.core.attemptPortBinding generation (attempt.succeeds l.acceptorOpen)
      (attempt.retries l.acceptorOpen cfg l.retryCount) := by
  unfold onBind Server.attemptPortBinding
  split
  · rfl
  · rename_i hrun
    have hg : l.core.generation = generation := by simpa using (not_or.mp hrun).2
    subst hg
    unfold attemptPortBinding
    obtain ⟨valid,opens,binds,listens⟩ := attempt
    cases valid
    · simp [Attempt.succeeds, Attempt.retries, emit]
    · cases ho : (l.acceptorOpen || opens) with
      | false =>
        obtain ⟨hopen,hopens⟩ := Bool.or_eq_false_iff.mp ho
        simp [Attempt.succeeds, Attempt.retries, emit, hopen, hopens]
      | true =>
        have hfail : ¬ (l.acceptorOpen = false ∧ opens = false) := by
          rintro ⟨hopen,hopens⟩
          simp [hopen, hopens] at ho
        cases binds
        · by_cases hretry : cfg.enablePortRetry = true ∧ l.retryCount < cfg.maxPortRetries
          · simp [Attempt.succeeds, Attempt.retries, emit, ho, hfail, hretry]
          · simp [Attempt.succeeds, Attempt.retries, emit, ho, hfail, hretry]
        · cases listens <;> simp [Attempt.succeeds, Attempt.retries, emit, setState, ho, hfail]

variable [CommRing N]

theorem publish_core (l : Listener N) : l.publish.core = l.core.publish := by
  unfold publish Server.publish
  split
  · exact doAccept_core _
  · rfl

omit [CommRing N] in
/-- The first job of a session does nothing to its server. -/
theorem connect_cases (l : Listener N) (client : ℕ) : ∃ unstarted connecting events,
    (events = [] ∨ events = [.connect client]) ∧
      l.connect client = { l with unstarted := unstarted
                                  connecting := connecting
                                  events := l.events ++ events } := by
  have hsilent : ∀ unstarted connecting, ({ l with unstarted := unstarted, connecting := connecting } : Listener N) =
      { l with unstarted := unstarted, connecting := connecting, events := l.events ++ [] } := by
    intro unstarted connecting
    rw [List.append_nil]
  unfold connect
  split
  · dsimp only
    split
    · exact ⟨_,l.connecting,[],.inl rfl,hsilent _ _⟩
    · split
      · exact ⟨_,l.connecting,[],.inl rfl,hsilent _ _⟩
      · exact ⟨_,_,[.connect client],.inr rfl,rfl⟩
  · exact ⟨l.unstarted,l.connecting,[],.inl rfl,hsilent _ _⟩

/-- A session that closes closes in its server. -/
theorem close_cases (l : Listener N) (client : ℕ) : l.close client = l ∨ ∃ disconnecting events,
    (events = [] ∨ events = [.disconnect client]) ∧
      l.close client = { l with core := l.core.close client
                                disconnecting := disconnecting
                                events := l.events ++ events } := by
  unfold close
  split
  · exact .inl rfl
  · split
    · exact .inl rfl
    · dsimp only
      split
      · exact .inr ⟨l.disconnecting,[],.inl rfl,by rw [List.append_nil]⟩
      · exact .inr ⟨_,[.disconnect client],.inr rfl,rfl⟩

theorem performCleanup_core (l : Listener N) : l.performCleanup.core = l.core.performCleanup := by
  by_cases hc : l.core.cleanupStarted <;> simp [performCleanup, Server.performCleanup, hc]

theorem start_core (l : Listener N) (tlsFails : Bool) : (l.start tlsFails).core = l.core.start tlsFails := by
  cases ha : Server.active l.core.state with
  | true => simp [start, Server.start, ha]
  | false => cases tlsFails <;> simp [start, Server.start, ha]

theorem stop_core (l : Listener N) : l.stop.core = l.core.stop := by
  unfold stop Server.stop
  split
  · rfl
  · dsimp only
    split
    · rfl
    · exact performCleanup_core _

/-- A closed session leaves, and the state that is told is an active one. -/
theorem onClosed_core (l : Listener N) (client generation pick : ℕ) :
    (l.onClosed client generation pick).core = l.core.onClosed client generation ∨
      l.currentSession = some client ∧
        (l.onClosed client generation pick).core = { l.core.onClosed client generation with state := .listening } := by
  unfold onClosed
  split
  · rename_i hrun
    exact .inl (by simp [Server.onClosed, hrun])
  · dsimp only
    split
    · rename_i hcur
      exact .inr ⟨hcur,by simp [setState]⟩
    · exact .inl rfl

/-- The management strand runs no handler. -/
structure Resting (l : Listener N) : Prop where
  announcing : l.announcing = false
  accepting : l.core.accepting = false

/-- What other threads and the strands of the sessions do to the server. The strand of a
session that is busy does nothing else. -/
def Works (l : Listener N) : ServerOp → Prop
  | .resetStats => True
  | .write _ _ _ _ => True
  | .lose client => ¬l.busy client
  | .finishStop index => ∀ client, l.core.stops[index]? = some client → ¬l.busy client
  | _ => False

/-- What a step comes to. -/
inductive Move (cfg : ListenerConfig) (l : Listener N) (op : ListenerOp) : Listener N → Prop
  | idle : Move cfg l op l
  | aside (stopRequests connecting connected disconnecting : List ℕ) :
      Move cfg l op { l with stopRequests := stopRequests
                             connecting := connecting
                             connected := connected
                             disconnecting := disconnecting }
  | start (tlsFails : Bool) (hop : op = .start tlsFails) : Move cfg l op (l.start tlsFails)
  | stop (stopRequests : List ℕ) : Move cfg l op ({ l with stopRequests := stopRequests } : Listener N).stop
  | limit (max : ℕ) (hop : op = .setClientLimit max) :
      Move cfg l op { l with maxClients := max, clientLimitEnabled := max ≠ 0 }
  | work (work : ServerOp) (hw : l.Works work) : Move cfg l op { l with core := l.core.step work }
  | connect (client : ℕ) : Move cfg l op (l.connect client)
  | close (client : ℕ) : Move cfg l op (l.close client)
  | publish : Move cfg l op l.publish
  | returned (ha : l.announcing = true) : Move cfg l op ({ l with announcing := false } : Listener N).doAccept
  | handler (index : ℕ) (attempt : Attempt) (pick : ℕ) (handler : Handler) (hr : l.Resting)
      (hi : l.core.posted[index]? = some handler) : Move cfg l op (l.runHandler cfg index attempt pick handler)
  | accepted (index generation : ℕ) (ec : ErrorCode) (hr : l.Resting)
      (hi : l.accepts[index]? = some (.pending generation)) :
      Move cfg l op (({ l with accepts := l.accepts.eraseIdx index } : Listener N).onAccept generation ec)
  | timer (index generation : ℕ) (hr : l.Resting) (hi : l.accepts[index]? = some (.waiting generation)) :
      Move cfg l op (({ l with accepts := l.accepts.eraseIdx index } : Listener N).onTimer generation)
  | connected (connected : List ℕ) (client : ℕ) :
      Move cfg l op (({ l with connected := connected } : Listener N).onConnected client)

theorem handle_move (cfg : ListenerConfig) (op op' : ListenerOp) (hr : l.Resting) :
    l.Move cfg op (l.handle cfg op') := by
  unfold handle
  split
  · split
    · exact .idle
    · rename_i hi
      exact .handler _ _ _ _ hr hi
  · split
    · rename_i hi
      exact .accepted _ _ _ hr hi
    · exact .idle
  · split
    · rename_i hi
      exact .timer _ _ hr hi
    · exact .idle
  · split
    · exact .idle
    · exact .connected _ _
  · split
    · exact .idle
    · dsimp only
      split
      · exact .stop _
      · exact .aside _ l.connecting l.connected l.disconnecting
  · exact .idle

/-- Every step is one of the moves. -/
theorem step_move (l : Listener N) (cfg : ListenerConfig) (op : ListenerOp) : l.Move cfg op (l.step cfg op) := by
  cases op with
  | start tlsFails => exact .start tlsFails rfl
  | stop => exact .stop l.stopRequests
  | requestStop =>
    unfold step requestStop
    dsimp only
    split
    · exact .idle
    · exact .aside _ l.connecting l.connected l.disconnecting
  | setClientLimit max =>
    unfold step setClientLimit
    dsimp only
    split
    · exact .idle
    · exact .limit max rfl
  | resetStats => exact .work .resetStats trivial
  | write client op counters active => exact .work (.write client op counters active) trivial
  | lose client =>
    unfold step
    dsimp only
    split
    · exact .idle
    · rename_i hb
      exact .work (.lose client) hb
  | connect client => exact .connect client
  | connectReturns client =>
    unfold step connectReturns
    dsimp only
    split
    · exact .aside l.stopRequests _ _ l.disconnecting
    · exact .idle
  | close client => exact .close client
  | disconnectReturns client => exact .aside l.stopRequests l.connecting l.connected _
  | finishStop index =>
    unfold step
    dsimp only
    split
    · exact .idle
    · rename_i client hi
      split
      · exact .idle
      · rename_i hb
        refine .work (.finishStop index) (fun other ho => ?_)
        rw [hi] at ho
        exact Option.some.inj ho ▸ hb
  | stateReturns =>
    unfold step
    dsimp only
    split
    · rename_i ha
      exact .returned ha
    · exact .idle
  | publish => exact .publish
  | handler | accepted | retryAccept | connected | runStop =>
    unfold step
    dsimp only
    split
    · exact .idle
    · rename_i hr
      obtain ⟨ha,hc⟩ := not_or.mp (fun h => hr (by simpa using h))
      exact handle_move cfg _ _ ⟨by simpa using ha,by simpa using hc⟩

end Listener
end Wirestead.Transport.TcpServer
