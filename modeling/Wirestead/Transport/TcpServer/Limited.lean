import Wirestead.Transport.TcpServer.Retrying

/-! # The limit of the clients

Sessions are added one at a time, and only below the limit, so their number never passes a
bound that every limit keeps to.
-/
namespace Wirestead.Transport.TcpServer
open Diagnostics TcpClient

namespace Listener
variable {N : Type*} {l m : Listener N}

/-- No session is added or accepted, and the limit stays. -/
structure Shrinks (l m : Listener N) : Prop where
  sessions : m.core.sessions.length ≤ l.core.sessions.length
  accepting : m.core.accepting = true → l.core.accepting = true
  enabled : m.clientLimitEnabled = l.clientLimitEnabled
  maxClients : m.maxClients = l.maxClients

namespace Shrinks

theorem refl (l : Listener N) : l.Shrinks l := ⟨le_rfl,id,rfl,rfl⟩

theorem trans {n : Listener N} (h : l.Shrinks m) (h' : m.Shrinks n) : l.Shrinks n where
  sessions := h'.sessions.trans h.sessions
  accepting ha := h.accepting (h'.accepting ha)
  enabled := h'.enabled.trans h.enabled
  maxClients := h'.maxClients.trans h.maxClients

theorem core (l : Listener N) (core : Server N) (hs : core.sessions.length ≤ l.core.sessions.length)
    (ha : core.accepting = true → l.core.accepting = true) : l.Shrinks { l with core := core } := ⟨hs,ha,rfl,rfl⟩

theorem alike (l : Listener N) {core : Server N} (hs : l.core.Alike core) : l.Shrinks { l with core := core } :=
  ⟨(congrArg List.length hs.sessions).le,hs.accepting.symm.trans,rfl,rfl⟩

theorem notifyState (l : Listener N) : l.Shrinks l.notifyState := by
  unfold Listener.notifyState
  split <;> exact ⟨le_rfl,id,rfl,rfl⟩

theorem fail (l : Listener N) (category : ErrorCategory) (operation : Operation) :
    l.Shrinks (l.fail category operation) := by
  unfold Listener.fail
  refine .trans ?_ (notifyState _)
  exact ⟨le_rfl,id,rfl,rfl⟩

theorem doAccept (l : Listener N) : l.Shrinks l.doAccept := by
  unfold Listener.doAccept
  split <;> exact ⟨le_rfl,id,rfl,rfl⟩

theorem acceptLater (l : Listener N) (generation : ℕ) : l.Shrinks (l.acceptLater generation) := by
  unfold Listener.acceptLater
  split <;> exact ⟨le_rfl,id,rfl,rfl⟩

theorem onConnected (l : Listener N) (client : ℕ) : l.Shrinks (l.onConnected client) := by
  unfold Listener.onConnected
  split
  · exact refl l
  · split
    · exact refl l
    · split
      · refine .trans ?_ (notifyState _)
        exact ⟨le_rfl,id,rfl,rfl⟩
      · exact refl l

theorem onBind (l : Listener N) (cfg : ListenerConfig) (generation : ℕ) (attempt : Attempt) :
    l.Shrinks (l.onBind cfg generation attempt) := by
  unfold Listener.onBind attemptPortBinding
  split
  · exact refl l
  · have hmade : ∀ isOpen events, l.Shrinks { l with acceptorOpen := isOpen, events := events } :=
      fun _ _ => ⟨le_rfl,id,rfl,rfl⟩
    dsimp only
    split
    · exact (hmade l.acceptorOpen _).trans (fail _ _ _)
    · split
      · exact (hmade l.acceptorOpen _).trans (fail _ _ _)
      · split
        · split
          · exact ⟨le_rfl,id,rfl,rfl⟩
          · exact (hmade true _).trans (fail _ _ _)
        · split
          · exact (hmade true _).trans (fail _ _ _)
          · refine .trans ?_ (notifyState _)
            exact ⟨le_rfl,id,rfl,rfl⟩

variable [CommRing N]

theorem start (l : Listener N) (tlsFails : Bool) : l.Shrinks (l.start tlsFails) := by
  have hcore : (l.core.start tlsFails).sessions = l.core.sessions ∧
      (l.core.start tlsFails).accepting = l.core.accepting := by
    unfold Server.start
    split
    · exact ⟨rfl,rfl⟩
    · dsimp only
      split <;> exact ⟨rfl,rfl⟩
  have hstarted : l.Shrinks { l with core := l.core.start tlsFails, retryCount := 0 } :=
    ⟨(congrArg List.length hcore.1).le,hcore.2.symm.trans,rfl,rfl⟩
  unfold Listener.start
  split
  · exact refl l
  · dsimp only
    split
    · exact hstarted.trans (fail _ _ _)
    · exact hstarted

/-- The sessions retire, and nobody was retiring before. -/
theorem performCleanup (l : Listener N) (hr : l.core.cleanupStarted = false → l.core.retiring = []) :
    l.Shrinks l.performCleanup := by
  unfold Listener.performCleanup
  split
  · exact refl l
  · rename_i hc
    have hr := hr (by simpa using hc)
    have hnil : l.core.performCleanup.sessions = [] ∧ l.core.performCleanup.accepting = l.core.accepting := by
      unfold Server.performCleanup
      rw [if_neg hc]
      split
      · exact ⟨hr,rfl⟩
      · obtain ⟨objects,heq⟩ := l.core.retire.modifyAll_eq l.core.retire.retiring Session.requestStop
        rw [heq]
        exact ⟨hr,rfl⟩
    exact ⟨by simp [hnil.1],hnil.2.symm.trans,rfl,rfl⟩

theorem stop (l : Listener N) (hr : l.core.cleanupStarted = false → l.core.retiring = []) : l.Shrinks l.stop := by
  unfold Listener.stop
  split
  · exact refl l
  · obtain ⟨objects,heq⟩ :=
      ({ l.core with stopping := true } : Server N).modifyAll_eq l.core.sessions Session.requestStop
    dsimp only
    rw [heq]
    split
    · exact ⟨le_rfl,id,rfl,rfl⟩
    · refine .trans ?_ (performCleanup _ hr)
      exact ⟨le_rfl,id,rfl,rfl⟩

theorem onClosed (l : Listener N) (client generation pick : ℕ) : l.Shrinks (l.onClosed client generation pick) := by
  have hcore : (l.core.onClosed client generation).sessions.length ≤ l.core.sessions.length := by
    unfold Server.onClosed
    split
    · exact le_rfl
    · split
      · exact List.length_filter_le _ _
      · exact le_rfl
  have hacc : (l.core.onClosed client generation).accepting = l.core.accepting := by
    obtain ⟨closed,absorbed,sessions,heq⟩ := Server.onClosed_eq l.core client generation
    rw [heq]
  unfold Listener.onClosed
  split
  · exact refl l
  · dsimp only
    split
    · refine .trans ?_ (notifyState _)
      exact ⟨hcore,hacc.symm.trans,rfl,rfl⟩
    · exact core l _ hcore hacc.symm.trans

theorem onRetired (l : Listener N) (index client : ℕ) :
    l.Shrinks { l with core := { l.core with posted := l.core.posted.eraseIdx index }.onRetired client } := by
  refine core l _ ?_ ?_
  all_goals
    unfold Server.onRetired Server.countDown Server.release
    obtain ⟨closed,absorbed,heq⟩ :=
      ({ l.core with posted := l.core.posted.eraseIdx index } : Server N).absorbSession_eq client
    rw [heq]
    split <;> split <;> simp [Server.finishCleanup]

theorem runHandler (l : Listener N) (cfg : ListenerConfig) (index : ℕ) (attempt : Attempt) (pick : ℕ)
    (handler : Handler) (hr : l.core.cleanupStarted = false → l.core.retiring = []) :
    l.Shrinks (l.runHandler cfg index attempt pick handler) := by
  have hpop : l.Shrinks { l with core := { l.core with posted := l.core.posted.eraseIdx index } } := ⟨le_rfl,id,rfl,rfl⟩
  cases handler with
  | bind generation => exact hpop.trans (onBind _ _ _ _)
  | closed client generation =>
    unfold Listener.runHandler
    dsimp only
    split
    · exact refl l
    · exact hpop.trans (onClosed _ _ _ _)
  | cleanup => exact hpop.trans (performCleanup _ hr)
  | retired client => exact onRetired l index client

end Shrinks

/-- The limit is on and keeps to the bound, and so do the sessions, with the one that is
to be published. -/
structure Capped (bound : ℕ) (l : Listener N) : Prop where
  enabled : l.clientLimitEnabled = true
  maxClients : l.maxClients ≤ bound
  sessions : l.core.sessions.length ≤ bound
  room : l.core.accepting = true → l.core.sessions.length < bound

theorem Capped.shrinks {bound : ℕ} (h : l.Capped bound) (hm : l.Shrinks m) : m.Capped bound where
  enabled := hm.enabled.trans h.enabled
  maxClients := hm.maxClients.trans_le h.maxClients
  sessions := hm.sessions.trans h.sessions
  room ha := hm.sessions.trans_lt (h.room (hm.accepting ha))

variable [CommRing N]

omit [CommRing N] in
/-- A connection is accepted only below the limit. -/
theorem Capped.onAccept {bound : ℕ} (h : l.Capped bound) (generation : ℕ) (ec : ErrorCode) :
    (l.onAccept generation ec).Capped bound := by
  unfold Listener.onAccept
  split
  · exact h
  · split
    · exact h.shrinks (.acceptLater _ _)
    · split
      · refine h.shrinks (.trans ?_ (.acceptLater _ _))
        exact ⟨le_rfl,id,rfl,rfl⟩
      · split
        · refine h.shrinks (.trans ?_ (.doAccept _))
          exact ⟨le_rfl,id,rfl,rfl⟩
        · rename_i hunder
          have hlt : l.core.sessions.length < l.maxClients := by
            simpa [overLimit, h.enabled] using hunder
          exact ⟨h.enabled,h.maxClients,h.sessions,fun _ => hlt.trans_le h.maxClients⟩

theorem Capped.publish {bound : ℕ} (h : l.Capped bound) : l.publish.Capped bound := by
  unfold Listener.publish
  split
  · rename_i ha
    have hpublished : l.core.publish.sessions.length ≤ bound ∧ l.core.publish.accepting = false := by
      rw [Server.publish, if_pos ha]
      exact ⟨by simpa using h.room ha,rfl⟩
    have hcapped : ({ l with core := l.core.publish
                             currentSession := some l.core.objects.length
                             unstarted := l.unstarted ++ [l.core.objects.length] } : Listener N).Capped bound :=
      ⟨h.enabled,h.maxClients,hpublished.1,fun hf => by simp [hpublished.2] at hf⟩
    exact hcapped.shrinks (.doAccept _)
  · exact h

theorem Capped.step {bound : ℕ} (h : l.Capped bound) (hs : l.Sound) (cfg : ListenerConfig) {op : ListenerOp}
    (hop : ∀ max, op = .setClientLimit max → 0 < max ∧ max ≤ bound) : (l.step cfg op).Capped bound := by
  have hr : l.core.cleanupStarted = false → l.core.retiring = [] := fun hc => (hs.phased.before hc).1
  have hsame : ∀ m : Listener N, m.core = l.core → m.clientLimitEnabled = l.clientLimitEnabled →
      m.maxClients = l.maxClients → m.Capped bound :=
    fun m hcore henabled hmax => h.shrinks ⟨by rw [hcore],by rw [hcore]; exact id,henabled,hmax⟩
  have hmove := l.step_move cfg op
  generalize l.step cfg op = m at hmove ⊢
  cases hmove with
  | idle => exact h
  | aside => exact hsame _ rfl rfl rfl
  | start tlsFails => exact h.shrinks (.start l tlsFails)
  | stop stopRequests =>
    refine h.shrinks (.trans ?_ (.stop _ hr))
    exact ⟨le_rfl,id,rfl,rfl⟩
  | limit max hmax =>
    obtain ⟨hpos,hle⟩ := hop max hmax
    exact ⟨by simpa using hpos.ne',hle,h.sessions,h.room⟩
  | work work hw => exact h.shrinks (.alike l hw.alike)
  | connect client =>
    obtain ⟨unstarted,connecting,events,-,heq⟩ := l.connect_cases client
    rw [heq]
    exact hsame _ rfl rfl rfl
  | close client =>
    obtain heq | ⟨disconnecting,events,-,heq⟩ := l.close_cases client
    · rw [heq]
      exact h
    · rw [heq]
      refine h.shrinks (.trans (.alike l (.close _ client)) ?_)
      exact ⟨le_rfl,id,rfl,rfl⟩
  | publish => exact h.publish
  | returned =>
    refine h.shrinks (.trans ?_ (.doAccept _))
    exact ⟨le_rfl,id,rfl,rfl⟩
  | handler index attempt pick handler => exact h.shrinks (.runHandler l cfg index attempt pick handler hr)
  | accepted index generation ec =>
    have haccepts := hsame { l with accepts := l.accepts.eraseIdx index } rfl rfl rfl
    exact haccepts.onAccept generation ec
  | timer index generation =>
    have haccepts := hsame { l with accepts := l.accepts.eraseIdx index } rfl rfl rfl
    unfold Listener.onTimer
    split
    · exact haccepts
    · exact haccepts.shrinks (.doAccept _)
  | connected connected client =>
    have hconnected := hsame { l with connected := connected } rfl rfl rfl
    exact hconnected.shrinks (.onConnected _ client)

theorem Capped.run {bound : ℕ} (h : l.Capped bound) (hs : l.Sound) (cfg : ListenerConfig) {ops : List ListenerOp}
    (hserial : l.Serial cfg ops) (hops : ∀ max, .setClientLimit max ∈ ops → 0 < max ∧ max ≤ bound) :
    (l.run cfg ops).Capped bound := by
  induction ops generalizing l with
  | nil => exact h
  | cons op ops ih =>
    refine ih (h.step hs cfg (fun max heq => hops max ?_)) (hs.step cfg hserial.1) hserial.2 (fun max hm => hops max ?_)
    · rw [heq]
      exact List.mem_cons_self
    · exact List.mem_cons_of_mem _ hm

/-- A server whose limit is on from the start, and is never raised above a bound or turned
off, never has more sessions than that. -/
theorem run_limited (cfg : ListenerConfig) (bound : ℕ) (ops : List ListenerOp)
    (h : (init cfg : Listener N).Serial cfg ops) (hpos : 0 < cfg.maxConnections) (hle : cfg.maxConnections ≤ bound)
    (hops : ∀ max, .setClientLimit max ∈ ops → 0 < max ∧ max ≤ bound) :
    ((init cfg : Listener N).run cfg ops).core.sessions.length ≤ bound := by
  have hcapped : (init cfg : Listener N).Capped bound := ⟨by simpa [init] using hpos,hle,Nat.zero_le _,nofun⟩
  exact (hcapped.run (sound_init cfg) cfg h hops).sessions

theorem run_limited_sample :
    ((init sampleConfig : Listener ℤ).run sampleConfig sampleOps).core.sessions.length ≤ 1 :=
  run_limited sampleConfig 1 sampleOps sampleOps_serial (by decide) (by decide) (by simp [sampleOps])

end Listener
end Wirestead.Transport.TcpServer
