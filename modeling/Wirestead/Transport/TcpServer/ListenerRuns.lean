import Wirestead.Transport.TcpServer.Accepting

/-! # The runs of the listener

Every step keeps the sessions in their places, the phases of the server and the chain of
the accept operations.
-/
namespace Wirestead.Transport.TcpServer
open Diagnostics TcpClient

namespace Server
variable {N : Type*} {s : Server N}

/-- A server with a session is active. -/
theorem Phased.active_of_mem (h : s.Phased) {client : ℕ} (hc : client ∈ s.sessions) : active s.state = true := by
  cases ha : active s.state with
  | true => rfl
  | false => simp [(h.idle ha).1] at hc

theorem onClosed_eq [CommRing N] (s : Server N) (client generation : ℕ) : ∃ closed absorbed sessions,
    s.onClosed client generation =
      { s with closedSendAccounting := closed, absorbed := absorbed, sessions := sessions } := by
  unfold onClosed
  split
  · exact ⟨_,_,_,rfl⟩
  · obtain ⟨closed,absorbed,heq⟩ := s.absorbSession_eq client
    split
    · exact ⟨closed,absorbed,_,by rw [heq]⟩
    · exact ⟨_,_,_,rfl⟩

end Server

namespace Listener
variable {N : Type*} [CommRing N] {l : Listener N}

structure Sound (l : Listener N) : Prop where
  kept : l.core.Kept
  phased : l.core.Phased
  chain : Chain l.core l.acceptorOpen l.announcing l.accepts l.currentSession

theorem sound_init (cfg : ListenerConfig) : (init cfg : Listener N).Sound := by
  refine ⟨Server.kept_init,Server.phased_init,?_⟩
  constructor <;> simp [init, Server.init, Server.active, operations]

theorem onAccept_follows (h : l.Sound) (hr : l.Resting) {index : ℕ} {generation : ℕ}
    (hi : l.accepts[index]? = some (.pending generation)) (ec : ErrorCode) :
    l.core.Follows (({ l with accepts := l.accepts.eraseIdx index } : Listener N).onAccept generation ec).core := by
  unfold onAccept
  split
  · exact .refl _
  · rename_i hrun
    obtain ⟨hs,hg⟩ := not_or.mp hrun
    have hs : l.core.stopping = false := by simpa using hs
    have hg : l.core.generation = generation := by simpa using hg
    split
    · rw [acceptLater_core]
      exact .refl _
    · split
      · rw [acceptLater_core]
        exact .refl _
      · split
        · rw [doAccept_core]
          exact .refl _
        · have ha := (h.chain.take hi hs hg).1
          have hstep := Server.Follows.step l.core .accept (fun _ => by simp)
          rwa [Server.step, Server.accept_eq hs ha hr.accepting] at hstep

theorem runHandler_follows (h : l.Sound) (hr : l.Resting) (cfg : ListenerConfig) {index : ℕ} {handler : Handler}
    (hi : l.core.posted[index]? = some handler) (attempt : Attempt) (pick : ℕ) :
    l.core.Follows (l.runHandler cfg index attempt pick handler).core := by
  have hstep : ∀ bound retries, l.core.Follows
      (({ l.core with posted := l.core.posted.eraseIdx index } : Server N).runHandler bound retries handler) := by
    intro bound retries
    have hstep := Server.Follows.step l.core (.handler index bound retries) (fun _ => by simp)
    rw [Server.step, if_neg (by simp [hr.accepting]), hi] at hstep
    exact hstep
  cases handler with
  | bind generation =>
    rw [runHandler, onBind_core]
    exact hstep _ _
  | cleanup =>
    rw [runHandler, performCleanup_core]
    exact hstep false false
  | retired client => exact hstep false false
  | closed client generation =>
    unfold runHandler
    dsimp only
    split
    · exact .refl _
    · obtain heq | ⟨hcur,heq⟩ := onClosed_core
        ({ l with core := { l.core with posted := l.core.posted.eraseIdx index } } : Listener N) client generation pick
      · rw [heq]
        exact hstep false false
      · rw [heq]
        refine (hstep false false).tell ?_
        obtain ⟨closed,absorbed,sessions,hclosed⟩ := Server.onClosed_eq
          ({ l.core with posted := l.core.posted.eraseIdx index } : Server N) client generation
        rw [Server.runHandler, hclosed]
        exact (h.phased.active_of_mem (h.chain.current client hcur)).symm

theorem onConnected_follows (h : l.Sound) (connected : List ℕ) (client : ℕ) :
    l.core.Follows (({ l with connected := connected } : Listener N).onConnected client).core := by
  unfold onConnected
  split
  · exact .refl _
  · split
    · exact .refl _
    · split
      · rename_i hm
        rw [notifyState_core]
        exact (Server.Follows.refl l.core).tell (h.phased.active_of_mem hm).symm
      · exact .refl _

/-- A step of the listener is at most one step of its server, apart from the active state
that is told. -/
theorem step_follows (h : l.Sound) (cfg : ListenerConfig) {op : ListenerOp}
    (hs : ∀ tlsFails, op = .start tlsFails → l.core.stopping = true → l.core.cleanupDone = true) :
    l.core.Follows (l.step cfg op).core := by
  have hmove := l.step_move cfg op
  generalize l.step cfg op = m at hmove ⊢
  cases hmove with
  | idle => exact .refl _
  | aside => exact .refl _
  | start tlsFails hop =>
    refine ⟨[.start tlsFails],le_rfl,⟨fun tls heq => hs tls ?_,trivial⟩,_,rfl,start_core l tlsFails⟩
    cases heq
    exact hop
  | stop stopRequests =>
    rw [stop_core]
    exact Server.Follows.step l.core .stop (fun _ => by simp)
  | limit => exact .refl _
  | work work hw =>
    refine Server.Follows.step l.core work (fun tlsFails heq => ?_)
    rw [heq] at hw
    exact hw
  | connect client =>
    obtain ⟨unstarted,connecting,events,-,heq⟩ := l.connect_cases client
    rw [heq]
    exact .refl _
  | close client =>
    obtain heq | ⟨disconnecting,events,-,heq⟩ := l.close_cases client
    · rw [heq]
      exact .refl _
    · rw [heq]
      exact Server.Follows.step l.core (.close client) (fun _ => by simp)
  | publish =>
    rw [publish_core]
    exact Server.Follows.step l.core .publish (fun _ => by simp)
  | returned =>
    rw [doAccept_core]
    exact .refl _
  | handler index attempt pick handler hr hi => exact runHandler_follows h hr cfg hi attempt pick
  | accepted index generation ec hr hi => exact onAccept_follows h hr hi ec
  | timer index generation hr hi =>
    unfold onTimer
    split
    · exact .refl _
    · rw [doAccept_core]
      exact .refl _
  | connected connected client => exact onConnected_follows h connected client

/-- The chain of a listener. -/
def Chained (l : Listener N) : Prop := Chain l.core l.acceptorOpen l.announcing l.accepts l.currentSession

omit [CommRing N] in
@[simp] theorem chained_notifyState (l : Listener N) : l.notifyState.Chained ↔ l.Chained := by
  unfold notifyState
  split <;> exact Iff.rfl

omit [CommRing N] in
theorem chained_fail {category : ErrorCategory} {operation : Operation} (hc : l.Chained)
    (hi : Server.active l.core.state = false) : (l.fail category operation).Chained := by
  rw [fail, chained_notifyState]
  exact Chain.tell hc hi.symm

theorem start_chained (h : l.Sound) (tlsFails : Bool) : (l.start tlsFails).Chained := by
  have hchain := h.chain.start h.phased tlsFails
  unfold start
  split
  · exact h.chain
  · rename_i hi
    dsimp only
    split
    · rename_i htls
      refine chained_fail hchain ?_
      have hstate : (l.core.start tlsFails).state = .error := by simp [Server.start, htls, hi]
      change Server.active (l.core.start tlsFails).state = false
      rw [hstate]
      rfl
    · exact hchain

theorem performCleanup_chained (hc : l.Chained) (hs : l.core.stopping = true) (ha : l.announcing = false)
    (hr : l.core.cleanupStarted = false → l.core.retiring = []) : l.performCleanup.Chained := by
  unfold performCleanup
  split
  · exact hc
  · rename_i hstarted
    have hstarted : l.core.cleanupStarted = false := by simpa using hstarted
    exact Chain.performCleanup hc hs ha hstarted (hr hstarted)

theorem stop_chained (h : l.Sound) : l.stop.Chained := by
  unfold stop
  split
  · exact h.chain
  · rename_i hs
    have hs : l.core.stopping = false := by simpa using hs
    obtain ⟨objects,heq⟩ :=
      ({ l.core with stopping := true } : Server N).modifyAll_eq l.core.sessions Session.requestStop
    dsimp only
    rw [heq]
    split
    · exact h.chain.stop objects
    · rename_i hd
      have ha : l.announcing = false := by
        cases ha : l.announcing with
        | false => rfl
        | true => exact absurd (h.phased.dispatched (.inl (h.chain.announced ha).1)) hd
      have hstopped : Chain ({ l.core with stopping := true, objects := objects } : Server N) l.acceptorOpen
          l.announcing l.accepts l.currentSession :=
        ⟨h.chain.bounded,h.chain.one,fun hf => by simp at hf,fun hf => by simp at hf,h.chain.announced,
          h.chain.current,h.chain.nobody⟩
      exact performCleanup_chained (l := { l with core := { l.core with stopping := true, objects := objects } })
        hstopped rfl ha (fun hc => (h.phased.before hc).1)

theorem onBind_chained (h : l.Sound) (cfg : ListenerConfig) {index generation : ℕ}
    (hi : l.core.posted[index]? = some (.bind generation)) (attempt : Attempt) :
    (({ l with core := { l.core with posted := l.core.posted.eraseIdx index } } : Listener N).onBind cfg generation
      attempt).Chained := by
  have hpop := h.chain.pop index
  unfold onBind
  split
  · exact hpop
  · rename_i hrun
    obtain ⟨hs,hg⟩ := not_or.mp hrun
    have hs : l.core.stopping = false := by simpa using hs
    have hg : l.core.generation = generation := by simpa using hg
    subst hg
    have hm := List.mem_of_getElem? hi
    have hidle := h.phased.binding hm
    have hlast := List.count_eq_zero.mpr (not_mem_eraseIdx hi h.phased.one)
    have ha := h.phased.not_accepting (.inl hidle)
    have hopened := fun isOpen => hpop.acceptor hidle isOpen
    unfold attemptPortBinding
    dsimp only
    split
    · exact chained_fail hpop hidle
    · split
      · exact chained_fail hpop hidle
      · split
        · split
          · exact (hopened true).rebind hs hidle ha hlast
          · exact chained_fail (hopened true) hidle
        · split
          · exact chained_fail (hopened true) hidle
          · rw [chained_notifyState]
            exact hpop.announce hs hidle ha hlast (h.phased.running hs).1

theorem onAccept_chained (h : l.Sound) {index generation : ℕ} (hi : l.accepts[index]? = some (.pending generation))
    (ec : ErrorCode) :
    (({ l with accepts := l.accepts.eraseIdx index } : Listener N).onAccept generation ec).Chained := by
  unfold onAccept
  split
  · rename_i hrun
    exact h.chain.drop hi (hrun.imp_left (by simp))
  · rename_i hrun
    obtain ⟨hs,hg⟩ := not_or.mp hrun
    have hs : l.core.stopping = false := by simpa using hs
    have hg : l.core.generation = generation := by simpa using hg
    obtain ⟨hactive,hopen,-⟩ := h.chain.take hi hs hg
    have hnext : ∀ b : Accept, b.generation = l.core.generation →
        Chain l.core l.acceptorOpen l.announcing (l.accepts.eraseIdx index ++ [b]) l.currentSession :=
      fun b hb => h.chain.next hi hs hg hb
    have hlater : ∀ m : Listener N, m.core = l.core → m.acceptorOpen = l.acceptorOpen →
        m.announcing = l.announcing → m.accepts = l.accepts.eraseIdx index → m.currentSession = l.currentSession →
        (m.acceptLater generation).Chained := by
      intro m hcore hopen hann haccepts hcur
      have hclosed : l.core.state ≠ .closed := by
        intro hclosed
        simp [hclosed, Server.active] at hactive
      rw [acceptLater, hcore, if_neg hclosed]
      simpa [Chained, hcore, hopen, hann, haccepts, hcur] using hnext (.waiting generation) hg.symm
    split
    · exact hlater _ rfl rfl rfl rfl rfl
    · split
      · exact hlater _ rfl rfl rfl rfl rfl
      · split
        · unfold doAccept
          rw [if_neg (by simp [emit, hs, hopen])]
          exact hnext (.pending l.core.generation) rfl
        · exact h.chain.accepted hi hs hg

theorem publish_chained (h : l.Sound) : l.publish.Chained := by
  unfold publish
  split
  · rename_i ha
    obtain ⟨hstopped,hrunning⟩ := Chain.publish h.chain ha (h.phased.accepting ha).1
    have hcore : l.core.publish.stopping = l.core.stopping ∧ l.core.publish.generation = l.core.generation := by
      rw [Server.publish, if_pos ha]
      exact ⟨rfl,rfl⟩
    unfold doAccept
    cases hs : l.core.stopping with
    | true =>
      rw [if_pos (.inl (hcore.1.trans hs))]
      exact hstopped hs
    | false =>
      obtain ⟨hopen,hchain⟩ := hrunning hs
      rw [if_neg (by simp [hcore, hs, hopen])]
      rw [← hcore.2] at hchain
      exact hchain
  · exact h.chain

theorem onTimer_chained (h : l.Sound) {index generation : ℕ} (hi : l.accepts[index]? = some (.waiting generation)) :
    (({ l with accepts := l.accepts.eraseIdx index } : Listener N).onTimer generation).Chained := by
  unfold onTimer
  split
  · rename_i hrun
    exact h.chain.drop hi (hrun.imp_left (by simp))
  · rename_i hrun
    obtain ⟨hs,hg⟩ := not_or.mp hrun
    have hs : l.core.stopping = false := by simpa using hs
    have hg : l.core.generation = generation := by simpa using hg
    obtain ⟨-,hopen,-⟩ := h.chain.take hi hs hg
    unfold doAccept
    rw [if_neg (by simp [hs, hopen])]
    exact h.chain.next hi hs hg rfl

theorem pickSession_spec (sessions : List ℕ) (pick : ℕ) :
    (∀ client, pickSession sessions pick = some client → client ∈ sessions) ∧
      (pickSession sessions pick = none → sessions = []) := by
  refine ⟨fun client hc => List.mem_of_getElem? hc,fun hn => ?_⟩
  have hle := List.getElem?_eq_none_iff.mp hn
  by_contra hne
  have hpos := List.length_pos_of_ne_nil hne
  exact absurd hle (Nat.not_le.mpr (Nat.mod_lt pick hpos))

theorem onClosed_chained (hc : l.Chained) (hp : l.core.Phased) (client generation pick : ℕ) :
    (l.onClosed client generation pick).Chained := by
  unfold onClosed
  split
  · exact hc
  · rename_i hrun
    obtain ⟨closed,absorbed,sessions,heq⟩ := Server.onClosed_eq l.core client generation
    have hsessions : sessions = l.core.sessions.filter (· ≠ client) := by
      have hs := congrArg Server.sessions heq
      unfold Server.onClosed at hs
      rw [if_neg hrun] at hs
      split at hs
      · exact hs.symm
      · rename_i hm
        rw [show sessions = l.core.sessions from hs.symm]
        refine (List.filter_eq_self.mpr (fun x hx => ?_)).symm
        have hne : x ≠ client := fun heq => hm (heq ▸ hx)
        simpa using hne
    dsimp only
    rw [heq]
    split
    · rename_i hcur
      rw [chained_notifyState]
      obtain ⟨hmem,hnone⟩ := pickSession_spec sessions pick
      exact (Chain.sessions hc hmem hnone).tell (hp.active_of_mem (hc.current client hcur)).symm
    · rename_i hcur
      refine Chain.sessions hc (fun other hother => ?_) (fun hnone => ?_)
      · rw [hsessions]
        refine List.mem_filter.mpr ⟨hc.current other hother,?_⟩
        have hne : other ≠ client := fun heq => hcur (heq ▸ hother)
        simpa using hne
      · rw [hsessions, hc.nobody hnone]
        rfl

theorem runHandler_chained (h : l.Sound) (ha : l.announcing = false) (cfg : ListenerConfig) {index : ℕ}
    {handler : Handler} (hi : l.core.posted[index]? = some handler) (attempt : Attempt) (pick : ℕ) :
    (l.runHandler cfg index attempt pick handler).Chained := by
  have hpop := h.chain.pop index
  have hm := List.mem_of_getElem? hi
  cases handler with
  | bind generation => exact onBind_chained h cfg hi attempt
  | closed client generation =>
    unfold runHandler
    dsimp only
    split
    · exact h.chain
    · exact onClosed_chained (by exact hpop) (h.phased.pop hi rfl) client generation pick
  | cleanup =>
    have hs : l.core.stopping = true := by
      cases hs : l.core.stopping with
      | true => rfl
      | false => exact absurd hm (h.phased.running hs).2
    exact performCleanup_chained (by exact hpop) hs ha (fun hc => (h.phased.before hc).1)
  | retired client =>
    -- an answer is on its way only after the cleanup began, so the server stops
    have hanswer : client ∈ l.core.answers := List.mem_filterMap.mpr ⟨_,hm,rfl⟩
    have hs : l.core.stopping = true := by
      cases hs : l.core.stopping with
      | true => rfl
      | false =>
        rw [(h.phased.before (h.phased.running hs).1).2.2] at hanswer
        cases hanswer
    exact hpop.onRetired hs ha client

theorem stateReturns_chained (h : l.Sound) (ha : l.announcing = true) :
    ({ l with announcing := false } : Listener N).doAccept.Chained := by
  have hchain := h.chain
  rw [ha] at hchain
  unfold doAccept
  split
  · rename_i hs
    obtain hs | hopen := hs
    · exact hchain.hush hs
    · cases hs : l.core.stopping with
      | true => exact hchain.hush hs
      | false =>
        rw [show l.acceptorOpen = false from hopen] at hchain
        exact absurd (hchain.accept hs).1 (by simp)
  · rename_i hs
    have hs : l.core.stopping = false := by simpa using (not_or.mp hs).1
    exact (hchain.accept hs).2

theorem onConnected_chained (h : l.Sound) (connected : List ℕ) (client : ℕ) :
    (({ l with connected := connected } : Listener N).onConnected client).Chained := by
  unfold onConnected
  split
  · exact h.chain
  · split
    · exact h.chain
    · split
      · rename_i hm
        rw [chained_notifyState]
        exact h.chain.tell (h.phased.active_of_mem hm).symm
      · exact h.chain

/-- What is done beside the management strand neither binds nor accepts. -/
theorem Works.alike {work : ServerOp} (hw : l.Works work) : l.core.Alike (l.core.step work) := by
  cases work with
  | resetStats => exact .resetStats _
  | write client op counters active => exact .write _ client op counters active
  | lose client => exact .lose _ client
  | finishStop index => exact .finishStop _ index
  | _ => exact hw.elim

theorem step_chained (h : l.Sound) (cfg : ListenerConfig) (op : ListenerOp) : (l.step cfg op).Chained := by
  have hmove := l.step_move cfg op
  generalize l.step cfg op = m at hmove ⊢
  cases hmove with
  | idle => exact h.chain
  | aside => exact h.chain
  | start tlsFails => exact start_chained h tlsFails
  | stop stopRequests => exact stop_chained (l := { l with stopRequests := stopRequests }) ⟨h.kept,h.phased,h.chain⟩
  | limit => exact h.chain
  | work work hw => exact h.chain.alike hw.alike
  | connect client =>
    obtain ⟨unstarted,connecting,events,-,heq⟩ := l.connect_cases client
    rw [heq]
    exact h.chain
  | close client =>
    obtain heq | ⟨disconnecting,events,-,heq⟩ := l.close_cases client
    · rw [heq]
      exact h.chain
    · rw [heq]
      exact h.chain.alike (.close _ client)
  | publish => exact publish_chained h
  | returned ha => exact stateReturns_chained h ha
  | handler index attempt pick handler hr hi => exact runHandler_chained h hr.announcing cfg hi attempt pick
  | accepted index generation ec hr hi => exact onAccept_chained h hi ec
  | timer index generation hr hi => exact onTimer_chained h hi
  | connected connected client => exact onConnected_chained h connected client

theorem Sound.step (h : l.Sound) (cfg : ListenerConfig) {op : ListenerOp}
    (hs : ∀ tlsFails, op = .start tlsFails → l.core.stopping = true → l.core.cleanupDone = true) :
    (l.step cfg op).Sound := by
  obtain ⟨hkept,hphased⟩ := (step_follows h cfg hs).sound h.kept h.phased
  exact ⟨hkept,hphased,step_chained h cfg op⟩

theorem Sound.run (h : l.Sound) (cfg : ListenerConfig) {ops : List ListenerOp} (hs : l.Serial cfg ops) :
    (l.run cfg ops).Sound := by
  induction ops generalizing l with
  | nil => exact h
  | cons op ops ih => exact ih (h.step cfg hs.1) hs.2

/-- One retry and one connection. -/
def sampleConfig : ListenerConfig where
  enablePortRetry := true
  maxPortRetries := 1
  maxConnections := 1
  retries_le := by decide
  connections_le := by decide

/-- The port is bound at the second attempt. An accept operation fails, the next one brings
a client, and the one after it is over the limit. -/
def sampleOps : List ListenerOp :=
  [.start false,.handler 0 ⟨true,true,false,true⟩ 0,.handler 0 ⟨true,true,true,true⟩ 0,.stateReturns,
    .accepted 0 .connectionReset,.retryAccept 0,.accepted 0 .success,.publish,.connect 0,.accepted 0 .success]

theorem sampleOps_serial : (init sampleConfig : Listener ℤ).Serial sampleConfig sampleOps := by
  refine ⟨?_,?_,?_,?_,?_,?_,?_,?_,?_,?_,trivial⟩
  · intro _ _ hs
    cases hs
  all_goals
    intro _ heq
    cases heq

/-- While the server is up its acceptor is open, and one accept operation is on its way,
or one timer, or the callback that the first one follows, or a handler that is to publish
a session. A run never has two of them, nor one beside an attempt to bind. -/
theorem run_accepting (cfg : ListenerConfig) (ops : List ListenerOp)
    (h : (init cfg : Listener N).Serial cfg ops) :
    let l := (init cfg : Listener N).run cfg ops
    l.core.posted.count (.bind l.core.generation) + l.announcing.toNat + l.core.accepting.toNat +
        operations l.accepts l.core.generation ≤ 1 ∧
      (l.core.stopping = false → Server.active l.core.state = true →
        l.acceptorOpen = true ∧
          l.announcing.toNat + l.core.accepting.toNat + operations l.accepts l.core.generation = 1) := by
  have hsound := (sound_init cfg).run cfg h
  exact ⟨hsound.chain.one,hsound.chain.running⟩

theorem run_accepting_sample :
    let l : Listener ℤ := (init sampleConfig).run sampleConfig sampleOps
    l.acceptorOpen = true ∧
      l.announcing.toNat + l.core.accepting.toNat + operations l.accepts l.core.generation = 1 :=
  (run_accepting sampleConfig sampleOps sampleOps_serial).2 (by decide +kernel) (by decide +kernel)

/-- The current session is published, and there is one as long as any is. -/
theorem run_current (cfg : ListenerConfig) (ops : List ListenerOp) (h : (init cfg : Listener N).Serial cfg ops) :
    let l := (init cfg : Listener N).run cfg ops
    (∀ client, l.currentSession = some client → client ∈ l.core.sessions) ∧
      (l.currentSession = none ↔ l.core.sessions = []) := by
  have hsound := (sound_init cfg).run cfg h
  refine ⟨hsound.chain.current,hsound.chain.nobody,fun hnil => ?_⟩
  rw [Option.eq_none_iff_forall_not_mem]
  intro client hc
  have hm := hsound.chain.current client hc
  rw [hnil] at hm
  cases hm

theorem run_current_sample :
    let l : Listener ℤ := (init sampleConfig).run sampleConfig sampleOps
    (∀ client, l.currentSession = some client → client ∈ l.core.sessions) ∧
      (l.currentSession = none ↔ l.core.sessions = []) :=
  run_current sampleConfig sampleOps sampleOps_serial

/-- The sessions that the listener brings are counted once each, and its next step is at
most one step of the server and another state that is as active. -/
theorem run_follows_server (cfg : ListenerConfig) (ops : List ListenerOp)
    (h : (init cfg : Listener ℤ).Serial cfg ops) :
    let l := (init cfg : Listener ℤ).run cfg ops
    l.core.CountsOnce ∧ l.core.stats.Balanced ∧ ∀ op,
      (∀ tlsFails, op = .start tlsFails → l.core.stopping = true → l.core.cleanupDone = true) →
        l.core.Follows (l.step cfg op).core := by
  have hsound := (sound_init cfg).run cfg h
  exact ⟨hsound.kept.countsOnce,Server.stats_balanced hsound.kept,fun op hs => step_follows hsound cfg hs⟩

theorem run_follows_server_sample :
    let l : Listener ℤ := (init sampleConfig).run sampleConfig sampleOps
    l.core.CountsOnce ∧ l.core.stats.Balanced ∧ ∀ op,
      (∀ tlsFails, op = .start tlsFails → l.core.stopping = true → l.core.cleanupDone = true) →
        l.core.Follows (l.step sampleConfig op).core :=
  run_follows_server sampleConfig sampleOps sampleOps_serial

end Listener
end Wirestead.Transport.TcpServer
