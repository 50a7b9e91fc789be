import Wirestead.Transport.TcpServer.ListenerRuns

/-! # The attempts to bind

The attempts of a run count up from zero. There are no more of them than the options
allow, whatever happens between two of them.
-/
namespace Wirestead.Transport.TcpServer
open Diagnostics TcpClient

/-- The count of an attempt of a run. -/
def Event.retryCount? (generation : ℕ) : Event → Option ℕ
  | .attempt g retryCount => if g = generation then some retryCount else none
  | _ => none

/-- The counts of the attempts of a run. -/
def attempts (events : List Event) (generation : ℕ) : List ℕ := events.filterMap (Event.retryCount? generation)

/-- How often a port is tried again at most. -/
def ListenerConfig.retries (cfg : ListenerConfig) : ℕ := if cfg.enablePortRetry then cfg.maxPortRetries else 0

namespace Listener
variable {N : Type*} {l m : Listener N}

/-- No attempt is made, and none is posted. -/
structure Steady (l m : Listener N) : Prop where
  generation : m.core.generation = l.core.generation
  posted : ∀ g, .bind g ∈ m.core.posted → .bind g ∈ l.core.posted
  retryCount : m.retryCount = l.retryCount
  attempts : ∀ g, attempts m.events g = attempts l.events g

namespace Steady

theorem refl (l : Listener N) : l.Steady l := ⟨rfl,fun _ => id,rfl,fun _ => rfl⟩

theorem trans {n : Listener N} (h : l.Steady m) (h' : m.Steady n) : l.Steady n where
  generation := h'.generation.trans h.generation
  posted g hm := h.posted g (h'.posted g hm)
  retryCount := h'.retryCount.trans h.retryCount
  attempts g := (h'.attempts g).trans (h.attempts g)

theorem emit (l : Listener N) {event : Event} (h : ∀ g, event.retryCount? g = none) : l.Steady (l.emit event) where
  generation := rfl
  posted _ := id
  retryCount := rfl
  attempts g := by simp [Listener.emit, TcpServer.attempts, h g]

theorem notifyState (l : Listener N) : l.Steady l.notifyState := by
  unfold Listener.notifyState
  split
  · exact refl l
  · exact emit l (fun _ => rfl)

theorem fail (l : Listener N) (category : ErrorCategory) (operation : Operation) :
    l.Steady (l.fail category operation) := by
  unfold Listener.fail
  refine .trans ?_ (notifyState _)
  exact ⟨rfl,fun _ => id,rfl,fun _ => rfl⟩

theorem doAccept (l : Listener N) : l.Steady l.doAccept := by
  unfold Listener.doAccept
  split
  · exact refl l
  · exact ⟨rfl,fun _ => id,rfl,fun _ => rfl⟩

theorem acceptLater (l : Listener N) (generation : ℕ) : l.Steady (l.acceptLater generation) := by
  unfold Listener.acceptLater
  split
  · exact refl l
  · exact ⟨rfl,fun _ => id,rfl,fun _ => rfl⟩

/-- A step of the server that posts no binding. -/
theorem core (l : Listener N) (core : Server N) (hg : core.generation = l.core.generation)
    (hp : ∀ g, .bind g ∈ core.posted → .bind g ∈ l.core.posted) : l.Steady { l with core := core } :=
  ⟨hg,hp,rfl,fun _ => rfl⟩

variable [CommRing N]

theorem publish (l : Listener N) : l.Steady l.publish := by
  unfold Listener.publish
  split
  · refine .trans ?_ (doAccept _)
    refine ⟨?_,fun g => ?_,rfl,fun _ => rfl⟩
    all_goals
      unfold Server.publish
      split <;> simp
  · exact refl l

omit [CommRing N] in
theorem onAccept (l : Listener N) (generation : ℕ) (ec : ErrorCode) : l.Steady (l.onAccept generation ec) := by
  unfold Listener.onAccept
  split
  · exact refl l
  · split
    · exact acceptLater l generation
    · split
      · refine .trans ?_ (acceptLater _ generation)
        exact ⟨rfl,fun _ => id,rfl,fun _ => rfl⟩
      · split
        · exact (emit l (fun _ => rfl)).trans (doAccept _)
        · exact core l _ rfl (fun _ => id)

theorem performCleanup (l : Listener N) : l.Steady l.performCleanup := by
  unfold Listener.performCleanup
  split
  · exact refl l
  · refine .trans (core l l.core.performCleanup ?_ ?_) ⟨rfl,fun _ => id,rfl,fun _ => rfl⟩
    all_goals
      unfold Server.performCleanup
      split
      · simp
      · split
        · simp [Server.finishCleanup, Server.retire]
        · obtain ⟨objects,heq⟩ := l.core.retire.modifyAll_eq l.core.retire.retiring Session.requestStop
          rw [heq]
          simp [Server.retire]

theorem stop (l : Listener N) : l.Steady l.stop := by
  unfold Listener.stop
  split
  · exact refl l
  · obtain ⟨objects,heq⟩ :=
      ({ l.core with stopping := true } : Server N).modifyAll_eq l.core.sessions Session.requestStop
    dsimp only
    rw [heq]
    split
    · refine core l _ rfl (fun g hm => ?_)
      simpa [Server.post] using hm
    · refine .trans ?_ (performCleanup _)
      exact core l _ rfl (fun _ => id)

theorem onClosed (l : Listener N) (client generation pick : ℕ) : l.Steady (l.onClosed client generation pick) := by
  unfold Listener.onClosed
  split
  · exact refl l
  · obtain ⟨closed,absorbed,sessions,heq⟩ := Server.onClosed_eq l.core client generation
    dsimp only
    rw [heq]
    split
    · refine .trans ?_ (notifyState _)
      exact ⟨rfl,fun _ => id,rfl,fun _ => rfl⟩
    · exact core l _ rfl (fun _ => id)

omit [CommRing N] in
theorem onConnected (l : Listener N) (client : ℕ) : l.Steady (l.onConnected client) := by
  unfold Listener.onConnected
  split
  · exact refl l
  · split
    · exact refl l
    · split
      · refine .trans ?_ (notifyState _)
        exact ⟨rfl,fun _ => id,rfl,fun _ => rfl⟩
      · exact refl l

theorem work (l : Listener N) {work : ServerOp} (hw : l.Works work) :
    l.Steady { l with core := l.core.step work } := by
  refine core l _ hw.alike.generation (fun g => ?_)
  cases work with
  | resetStats => exact id
  | write client op counters active =>
    unfold Server.step
    dsimp only
    split
    · exact id
    · split <;> exact id
  | lose client =>
    unfold Server.step
    dsimp only
    split
    · exact id
    · split <;> exact id
  | finishStop index =>
    unfold Server.step
    dsimp only
    split
    · exact id
    · simp [Server.post, Server.modify]
  | _ => exact hw.elim

omit [CommRing N] in
theorem connect (l : Listener N) (client : ℕ) : l.Steady (l.connect client) := by
  obtain ⟨unstarted,connecting,events,he,heq⟩ := l.connect_cases client
  rw [heq]
  refine ⟨rfl,fun _ => id,rfl,fun g => ?_⟩
  obtain rfl | rfl := he <;> simp [TcpServer.attempts, Event.retryCount?]

theorem close (l : Listener N) (client : ℕ) : l.Steady (l.close client) := by
  have hposted : ∀ g, Handler.bind g ∈ (l.core.close client).posted → .bind g ∈ l.core.posted := by
    intro g
    unfold Server.close
    split
    · exact id
    · split
      · exact id
      · unfold Server.onClose
        split
        · exact id
        · simp [Server.post, Server.modify]
  obtain heq | ⟨disconnecting,events,he,heq⟩ := l.close_cases client
  · rw [heq]
    exact refl l
  · rw [heq]
    refine ⟨(Server.Alike.close _ _).generation,hposted,rfl,fun g => ?_⟩
    obtain rfl | rfl := he <;> simp [TcpServer.attempts, Event.retryCount?]

theorem onRetired (l : Listener N) (index client : ℕ) :
    l.Steady { l with core := { l.core with posted := l.core.posted.eraseIdx index }.onRetired client } := by
  refine core l _ ?_ (fun g => ?_)
  all_goals
    unfold Server.onRetired Server.countDown Server.release
    obtain ⟨closed,absorbed,heq⟩ :=
      ({ l.core with posted := l.core.posted.eraseIdx index } : Server N).absorbSession_eq client
    rw [heq]
    split <;> split <;> simp [Server.finishCleanup]
  all_goals exact (l.core.posted.eraseIdx_sublist index).mem

end Steady

/-- The attempts of every run count up from zero, and the attempt that is posted is the next one. -/
structure Tried (cfg : ListenerConfig) (l : Listener N) : Prop where
  counted : ∀ g, ∃ n, attempts l.events g = List.range n ∧ n ≤ cfg.retries + 1
  later : ∀ g, l.core.generation < g → attempts l.events g = []
  posted : .bind l.core.generation ∈ l.core.posted →
    attempts l.events l.core.generation = List.range l.retryCount ∧ l.retryCount ≤ cfg.retries

theorem Tried.steady {cfg : ListenerConfig} (h : l.Tried cfg) (hm : l.Steady m) : m.Tried cfg where
  counted g := by
    rw [hm.attempts]
    exact h.counted g
  later g hg := by
    rw [hm.attempts]
    exact h.later g (hm.generation ▸ hg)
  posted hp := by
    rw [hm.generation] at hp ⊢
    rw [hm.attempts, hm.retryCount]
    exact h.posted (hm.posted _ hp)

variable [CommRing N]

theorem Tried.start {cfg : ListenerConfig} (h : l.Tried cfg) (hs : l.Sound) (tlsFails : Bool) :
    (l.start tlsFails).Tried cfg := by
  have hlater := h.later (l.core.generation + 1) (Nat.lt_succ_self _)
  have hb : .bind (l.core.generation + 1) ∉ l.core.posted :=
    fun hm => absurd (hs.phased.bounded _ hm) (by omega)
  unfold Listener.start
  split
  · exact h
  · rename_i hi
    have hstarted : ({ l with core := l.core.start tlsFails, retryCount := 0 } : Listener N).Tried cfg := by
      have hgen : (l.core.start tlsFails).generation = l.core.generation + 1 := by
        cases tlsFails <;> simp [Server.start, hi, Server.post]
      constructor
      · exact h.counted
      · exact fun g hg => h.later g (by rw [hgen] at hg; omega)
      · intro _
        rw [hgen, hlater]
        exact ⟨rfl,Nat.zero_le _⟩
    dsimp only
    split
    · exact hstarted.steady (.fail _ _ _)
    · exact hstarted

/-- An attempt is counted, and only the timer of the next one posts another. -/
theorem Tried.onBind {cfg : ListenerConfig} (h : l.Tried cfg) (hs : l.Sound) {index generation : ℕ}
    (hi : l.core.posted[index]? = some (.bind generation)) (attempt : Attempt) :
    (({ l with core := { l.core with posted := l.core.posted.eraseIdx index } } : Listener N).onBind cfg generation
      attempt).Tried cfg := by
  have hsub := l.core.posted.eraseIdx_sublist index
  unfold Listener.onBind
  split
  · exact h.steady (.core l _ rfl (fun g hm => hsub.mem hm))
  · rename_i hrun
    have hg : l.core.generation = generation := by simpa using (not_or.mp hrun).2
    subst hg
    obtain ⟨hrange,hle⟩ := h.posted (List.mem_of_getElem? hi)
    have hlast := not_mem_eraseIdx hi hs.phased.one
    have hother : ∀ g, l.core.generation ≠ g →
        attempts (l.events ++ [.attempt l.core.generation l.retryCount]) g = attempts l.events g := by
      intro g hg
      simp [attempts, Event.retryCount?, hg]
    have hthis : attempts (l.events ++ [.attempt l.core.generation l.retryCount]) l.core.generation =
        List.range (l.retryCount + 1) := by
      rw [List.range_succ, ← hrange]
      simp [attempts, Event.retryCount?]
    have hcounted : ∀ g, ∃ n, attempts (l.events ++ [.attempt l.core.generation l.retryCount]) g = List.range n ∧
        n ≤ cfg.retries + 1 := by
      intro g
      by_cases hg : l.core.generation = g
      · exact ⟨l.retryCount + 1,hg ▸ hthis,by omega⟩
      · rw [hother g hg]
        exact h.counted g
    have hlater : ∀ g, l.core.generation < g →
        attempts (l.events ++ [.attempt l.core.generation l.retryCount]) g = [] := by
      intro g hg
      rw [hother g hg.ne]
      exact h.later g hg
    -- until a timer is set nothing is posted
    have hmade : ∀ isOpen, ({ l with core := { l.core with posted := l.core.posted.eraseIdx index }
                                     acceptorOpen := isOpen
                                     events := l.events ++ [.attempt l.core.generation l.retryCount] } :
        Listener N).Tried cfg :=
      fun _ => ⟨hcounted,hlater,fun hm => absurd hm hlast⟩
    unfold Listener.attemptPortBinding
    dsimp only
    split
    · exact (hmade l.acceptorOpen).steady (.fail _ _ _)
    · split
      · exact (hmade l.acceptorOpen).steady (.fail _ _ _)
      · split
        · split
          · rename_i hretry
            have hretries : l.retryCount + 1 ≤ cfg.retries := by
              rw [ListenerConfig.retries, if_pos hretry.1]
              exact hretry.2
            exact ⟨hcounted,hlater,fun _ => ⟨hthis,hretries⟩⟩
          · exact (hmade true).steady (.fail _ _ _)
        · split
          · exact (hmade true).steady (.fail _ _ _)
          · refine (hmade true).steady (.trans ?_ (.notifyState _))
            exact ⟨rfl,fun _ => id,rfl,fun _ => rfl⟩

theorem Tried.runHandler {cfg : ListenerConfig} (h : l.Tried cfg) (hs : l.Sound) {index : ℕ} {handler : Handler}
    (hi : l.core.posted[index]? = some handler) (attempt : Attempt) (pick : ℕ) :
    (l.runHandler cfg index attempt pick handler).Tried cfg := by
  have hpop : ({ l with core := { l.core with posted := l.core.posted.eraseIdx index } } : Listener N).Tried cfg :=
    h.steady (.core l _ rfl (fun g hm => (l.core.posted.eraseIdx_sublist index).mem hm))
  cases handler with
  | bind generation => exact h.onBind hs hi attempt
  | closed client generation =>
    unfold Listener.runHandler
    dsimp only
    split
    · exact h
    · exact hpop.steady (.onClosed _ _ _ _)
  | cleanup => exact hpop.steady (.performCleanup _)
  | retired client => exact h.steady (.onRetired l index client)

theorem Tried.step {cfg : ListenerConfig} (h : l.Tried cfg) (hs : l.Sound) (op : ListenerOp) :
    (l.step cfg op).Tried cfg := by
  have hmove := l.step_move cfg op
  have hsame : ∀ m : Listener N, m.core = l.core → m.retryCount = l.retryCount → m.events = l.events →
      l.Steady m := by
    intro m hcore hretry hevents
    exact ⟨by rw [hcore],fun g => by rw [hcore]; exact id,hretry,fun g => by rw [hevents]⟩
  generalize l.step cfg op = m at hmove ⊢
  cases hmove with
  | idle => exact h
  | aside => exact h.steady (hsame _ rfl rfl rfl)
  | start tlsFails => exact h.start hs tlsFails
  | stop =>
    refine h.steady (.trans ?_ (.stop _))
    exact hsame _ rfl rfl rfl
  | limit => exact h.steady (hsame _ rfl rfl rfl)
  | work work hw => exact h.steady (.work l hw)
  | connect client => exact h.steady (.connect l client)
  | close client => exact h.steady (.close l client)
  | publish => exact h.steady (.publish l)
  | returned =>
    refine h.steady (.trans ?_ (.doAccept _))
    exact hsame _ rfl rfl rfl
  | handler index attempt pick handler hr hi => exact h.runHandler hs hi attempt pick
  | accepted index generation ec =>
    refine h.steady (.trans ?_ (.onAccept _ generation ec))
    exact hsame _ rfl rfl rfl
  | timer index generation =>
    unfold Listener.onTimer
    split
    · exact h.steady (hsame _ rfl rfl rfl)
    · refine h.steady (.trans ?_ (.doAccept _))
      exact hsame _ rfl rfl rfl
  | connected connected client =>
    refine h.steady (.trans ?_ (.onConnected _ client))
    exact hsame _ rfl rfl rfl

theorem Tried.run {cfg : ListenerConfig} (h : l.Tried cfg) (hs : l.Sound) {ops : List ListenerOp}
    (hserial : l.Serial cfg ops) : (l.run cfg ops).Tried cfg := by
  induction ops generalizing l with
  | nil => exact h
  | cons op ops ih => exact ih (h.step hs op) (hs.step cfg hserial.1) hserial.2

/-- A run of the listener makes its attempts to bind one after the other, counting up from
zero, and at most one more than it may retry. -/
theorem run_attempts (cfg : ListenerConfig) (ops : List ListenerOp) (h : (init cfg : Listener N).Serial cfg ops)
    (generation : ℕ) : ∃ n, attempts ((init cfg : Listener N).run cfg ops).events generation = List.range n ∧
      n ≤ cfg.retries + 1 := by
  have htried : (init cfg : Listener N).Tried cfg := by
    refine ⟨fun g => ⟨0,rfl,Nat.zero_le _⟩,fun _ _ => rfl,fun hm => ?_⟩
    simp [init, Server.init] at hm
  exact (htried.run (sound_init cfg) h).counted generation

theorem run_attempts_sample : ∃ n,
    attempts ((init sampleConfig : Listener ℤ).run sampleConfig sampleOps).events 1 = List.range n ∧
      n ≤ sampleConfig.retries + 1 :=
  run_attempts sampleConfig sampleOps sampleOps_serial 1

end Listener
end Wirestead.Transport.TcpServer
