import Wirestead.Transport.TcpServer.Listening

/-! # One accept operation at a time

A run of the listener has one thing on its way that keeps it going: the attempt to bind,
then the callback that hears of it, then an accept operation, the handler that publishes
what it brings, or the timer of the next one. It is never lost while the server listens,
and no failure makes a second one of it.
-/
namespace Wirestead.Transport.TcpServer
open Diagnostics TcpClient

/-- How many accept operations and timers a run has. -/
def operations (accepts : List Accept) (generation : ℕ) : ℕ := accepts.countP (·.generation = generation)

@[simp] theorem operations_append (accepts : List Accept) (a : Accept) (generation : ℕ) :
    operations (accepts ++ [a]) generation =
      operations accepts generation + if a.generation = generation then 1 else 0 := by
  simp [operations, List.countP_append, List.countP_cons]

theorem operations_eraseIdx {accepts : List Accept} {index : ℕ} {a : Accept} (hi : accepts[index]? = some a)
    (generation : ℕ) : operations accepts generation =
      operations (accepts.eraseIdx index) generation + if a.generation = generation then 1 else 0 := by
  have hperm := (perm_cons_eraseIdx hi).countP_eq (fun x : Accept => decide (x.generation = generation))
  simpa [operations, List.countP_cons] using hperm.symm

theorem operations_eq_zero {accepts : List Accept} {generation : ℕ}
    (h : ∀ a ∈ accepts, a.generation < generation) : operations accepts generation = 0 := by
  simpa [operations] using fun a ha => (h a ha).ne

/-- A run binds first and accepts then. It never has two operations for that, and while it
is active and not stopped it has one. The current session is one of the sessions. -/
structure Chain {N : Type*} (s : Server N) (acceptorOpen announcing : Bool) (accepts : List Accept)
    (currentSession : Option ℕ) : Prop where
  bounded : ∀ a ∈ accepts, a.generation ≤ s.generation
  one : s.posted.count (.bind s.generation) + announcing.toNat + s.accepting.toNat +
    operations accepts s.generation ≤ 1
  running : s.stopping = false → Server.active s.state = true →
    acceptorOpen = true ∧ announcing.toNat + s.accepting.toNat + operations accepts s.generation = 1
  dormant : s.stopping = false → Server.active s.state = false →
    announcing = false ∧ operations accepts s.generation = 0
  announced : announcing = true → Server.active s.state = true ∧ s.cleanupStarted = false
  current : ∀ client, currentSession = some client → client ∈ s.sessions
  nobody : currentSession = none → s.sessions = []

namespace Server
variable {N : Type*} {s t : Server N}

/-- The run, its activity, its binding and its sessions are the same. -/
structure Alike (s t : Server N) : Prop where
  state : active t.state = active s.state
  stopping : t.stopping = s.stopping
  accepting : t.accepting = s.accepting
  generation : t.generation = s.generation
  cleanupStarted : t.cleanupStarted = s.cleanupStarted
  binding : t.posted.count (.bind s.generation) = s.posted.count (.bind s.generation)
  sessions : t.sessions = s.sessions

namespace Alike

theorem refl (s : Server N) : s.Alike s := ⟨rfl,rfl,rfl,rfl,rfl,rfl,rfl⟩

theorem trans {u : Server N} (h : s.Alike t) (h' : t.Alike u) : s.Alike u where
  state := h'.state.trans h.state
  stopping := h'.stopping.trans h.stopping
  accepting := h'.accepting.trans h.accepting
  generation := h'.generation.trans h.generation
  cleanupStarted := h'.cleanupStarted.trans h.cleanupStarted
  binding := by
    rw [← h.binding, ← h.generation]
    exact h'.binding
  sessions := h'.sessions.trans h.sessions

theorem modify (s : Server N) (client : ℕ) (f : Session N → Session N) : s.Alike (s.modify client f) :=
  ⟨rfl,rfl,rfl,rfl,rfl,rfl,rfl⟩

theorem post (s : Server N) (handler : Handler) (hb : ∀ g, handler ≠ .bind g) : s.Alike (s.post handler) where
  state := rfl
  stopping := rfl
  accepting := rfl
  generation := rfl
  cleanupStarted := rfl
  binding := by
    simp only [Server.post, List.count_append, List.count_singleton, Nat.add_eq_left]
    simp [hb]
  sessions := rfl

theorem onClose (s : Server N) (client generation : ℕ) : s.Alike (s.onClose client generation) := by
  unfold Server.onClose
  split
  · exact refl s
  · exact post s _ (fun g => by simp)

variable [CommRing N]

theorem close (s : Server N) (client : ℕ) : s.Alike (s.close client) := by
  unfold Server.close
  split
  · exact refl s
  · split
    · exact refl s
    · exact (modify s _ _).trans (onClose _ _ _)

theorem resetStats (s : Server N) : s.Alike s.resetStats := ⟨rfl,rfl,rfl,rfl,rfl,rfl,rfl⟩

theorem write (s : Server N) (client : ℕ) (op : LedgerOp) (counters : Counters) (backpressureActive : Bool) :
    s.Alike (s.step (.write client op counters backpressureActive)) := by
  unfold Server.step
  dsimp only
  split
  · exact refl s
  · split
    · exact modify s _ _
    · exact refl s

theorem lose (s : Server N) (client : ℕ) : s.Alike (s.step (.lose client)) := by
  unfold Server.step
  dsimp only
  split
  · exact refl s
  · split
    · exact modify s _ _
    · exact refl s

theorem finishStop (s : Server N) (index : ℕ) : s.Alike (s.step (.finishStop index)) := by
  unfold Server.step
  dsimp only
  split
  · exact refl s
  · exact ⟨rfl,rfl,rfl,rfl,rfl,(post s (.retired _) (fun g => by simp)).binding,rfl⟩

end Alike
end Server

namespace Chain
variable {N : Type*} {s t : Server N} {isOpen announcing : Bool} {accepts : List Accept} {cur : Option ℕ}

theorem alike (h : Chain s isOpen announcing accepts cur) (ht : s.Alike t) : Chain t isOpen announcing accepts cur where
  bounded := by
    rw [ht.generation]
    exact h.bounded
  one := by
    rw [ht.generation, ht.binding, ht.accepting]
    exact h.one
  running hs ha := by
    rw [ht.generation, ht.accepting]
    exact h.running (ht.stopping.symm.trans hs) (ht.state.symm.trans ha)
  dormant hs ha := by
    rw [ht.generation]
    exact h.dormant (ht.stopping.symm.trans hs) (ht.state.symm.trans ha)
  announced ha := by
    rw [ht.state, ht.cleanupStarted]
    exact h.announced ha
  current := by
    rw [ht.sessions]
    exact h.current
  nobody := by
    rw [ht.sessions]
    exact h.nobody

/-- Only an active run announces. -/
theorem silent (h : Chain s isOpen announcing accepts cur) (hs : Server.active s.state = false) :
    announcing = false := by
  cases ha : announcing with
  | false => rfl
  | true => simp [(h.announced ha).1] at hs

/-- A posted binding may go. -/
theorem pop (h : Chain s isOpen announcing accepts cur) (index : ℕ) :
    Chain { s with posted := s.posted.eraseIdx index } isOpen announcing accepts cur where
  bounded := h.bounded
  one := by
    have hle := (s.posted.eraseIdx_sublist index).count_le (.bind s.generation)
    have hone := h.one
    dsimp only
    omega
  running := h.running
  dormant := h.dormant
  announced := h.announced
  current := h.current
  nobody := h.nobody

/-- An operation of an earlier run is over. -/
theorem drop (h : Chain s isOpen announcing accepts cur) {index : ℕ} {a : Accept} (hi : accepts[index]? = some a)
    (hs : s.stopping = true ∨ s.generation ≠ a.generation) :
    Chain s isOpen announcing (accepts.eraseIdx index) cur where
  bounded b hb := h.bounded b (List.mem_of_mem_eraseIdx hb)
  one := by
    have hone := h.one
    rw [operations_eraseIdx hi] at hone
    omega
  running hr ha := by
    have hne := hs.resolve_left (by simp [hr])
    have hrun := h.running hr ha
    rwa [operations_eraseIdx hi, if_neg hne.symm, Nat.add_zero] at hrun
  dormant hr ha := by
    obtain ⟨hann,hzero⟩ := h.dormant hr ha
    rw [operations_eraseIdx hi] at hzero
    exact ⟨hann,by omega⟩
  announced := h.announced
  current := h.current
  nobody := h.nobody

/-- The operation of a run that is not stopped is the only one, and the run is active. -/
theorem take (h : Chain s isOpen announcing accepts cur) {index : ℕ} {a : Accept} (hi : accepts[index]? = some a)
    (hs : s.stopping = false) (hg : s.generation = a.generation) :
    Server.active s.state = true ∧ isOpen = true ∧ announcing = false ∧ s.accepting = false ∧
      s.posted.count (.bind s.generation) = 0 ∧ operations (accepts.eraseIdx index) s.generation = 0 := by
  have hone := h.one
  have hops := operations_eraseIdx hi s.generation
  rw [if_pos hg.symm] at hops
  have ha : Server.active s.state = true := by
    cases ha : Server.active s.state with
    | true => rfl
    | false =>
      have hzero := (h.dormant hs ha).2
      omega
  have hann : announcing = false := by
    cases hann : announcing with
    | false => rfl
    | true =>
      rw [hann, Bool.toNat_true] at hone
      omega
  have hacc : s.accepting = false := by
    cases hacc : s.accepting with
    | false => rfl
    | true =>
      rw [hacc, Bool.toNat_true] at hone
      omega
  exact ⟨ha,(h.running hs ha).1,hann,hacc,by omega,by omega⟩

/-- One operation comes after another. -/
theorem next (h : Chain s isOpen announcing accepts cur) {index : ℕ} {a : Accept} (hi : accepts[index]? = some a)
    (hs : s.stopping = false) (hg : s.generation = a.generation) {b : Accept} (hb : b.generation = s.generation) :
    Chain s isOpen announcing (accepts.eraseIdx index ++ [b]) cur := by
  obtain ⟨ha,hopen,hann,hacc,hbind,hops⟩ := h.take hi hs hg
  constructor
  · intro c hc
    obtain hc | hc := List.mem_append.mp hc
    · exact h.bounded c (List.mem_of_mem_eraseIdx hc)
    · rw [List.mem_singleton.mp hc, hb]
  · simp [hbind, hann, hacc, hops, hb]
  · intro _ _
    simp [hopen, hann, hacc, hops, hb]
  · intro _ hi
    simp [ha] at hi
  · exact h.announced
  · exact h.current
  · exact h.nobody

/-- The operation has brought a connection that is to be published. -/
theorem accepted (h : Chain s isOpen announcing accepts cur) {index : ℕ} {a : Accept} (hi : accepts[index]? = some a)
    (hs : s.stopping = false) (hg : s.generation = a.generation) :
    Chain { s with accepting := true } isOpen announcing (accepts.eraseIdx index) cur := by
  obtain ⟨ha,hopen,hann,-,hbind,hops⟩ := h.take hi hs hg
  constructor
  · exact fun c hc => h.bounded c (List.mem_of_mem_eraseIdx hc)
  · simp [hbind, hann, hops]
  · intro _ _
    simp [hopen, hann, hops]
  · intro _ hi
    simp [ha] at hi
  · exact h.announced
  · exact h.current
  · exact h.nobody

/-- The new session is the current one. A server that was stopped accepts no other. -/
theorem publish [CommRing N] (h : Chain s isOpen announcing accepts cur) (ha : s.accepting = true)
    (hactive : Server.active s.state = true) :
    (s.stopping = true → Chain s.publish isOpen announcing accepts (some s.objects.length)) ∧
      (s.stopping = false → isOpen = true ∧
        Chain s.publish isOpen announcing (accepts ++ [.pending s.generation]) (some s.objects.length)) := by
  have hone := h.one
  rw [ha, Bool.toNat_true] at hone
  have hbind : s.posted.count (.bind s.generation) = 0 := by omega
  have hops : operations accepts s.generation = 0 := by omega
  have hann : announcing = false := by
    cases hann : announcing with
    | false => rfl
    | true =>
      rw [hann, Bool.toNat_true] at hone
      omega
  unfold Server.publish
  rw [if_pos ha]
  refine ⟨fun hs => ?_,fun hs => ?_⟩
  · constructor
    · exact h.bounded
    · simp [hbind, hann, hops]
    · exact fun hf => by simp [hs] at hf
    · exact fun hf => by simp [hs] at hf
    · simp [hann]
    · simp
    · simp
  · have hopen := (h.running hs hactive).1
    refine ⟨hopen,?_⟩
    constructor
    · intro c hc
      obtain hc | hc := List.mem_append.mp hc
      · exact h.bounded c hc
      · rw [List.mem_singleton.mp hc]
        exact le_rfl
    · simp [hbind, hann, hops, Accept.generation]
    · simp [hopen, hann, hops, Accept.generation]
    · intro _ hi
      rw [show Server.active s.state = false from hi] at hactive
      cases hactive
    · simp [hann]
    · simp
    · simp

/-- Another session is the current one. -/
theorem sessions (h : Chain s isOpen announcing accepts cur) {objects : List (Session N)} {sessions : List ℕ}
    {closed : Diagnostics.SendAccounting N} {absorbed : List ℕ} {cur' : Option ℕ}
    (hc : ∀ client, cur' = some client → client ∈ sessions) (hn : cur' = none → sessions = []) :
    Chain { s with objects := objects
                   sessions := sessions
                   closedSendAccounting := closed
                   absorbed := absorbed } isOpen announcing accepts cur' :=
  ⟨h.bounded,h.one,h.running,h.dormant,h.announced,hc,hn⟩

/-- Another active state is told. -/
theorem tell (h : Chain s isOpen announcing accepts cur) {state : LinkState}
    (hs : Server.active state = Server.active s.state) :
    Chain { s with state := state } isOpen announcing accepts cur :=
  h.alike ⟨hs,rfl,rfl,rfl,rfl,rfl,rfl⟩

/-- A run that is not active does not use its acceptor. -/
theorem acceptor (h : Chain s isOpen announcing accepts cur) (hi : Server.active s.state = false) (isOpen' : Bool) :
    Chain s isOpen' announcing accepts cur :=
  ⟨h.bounded,h.one,fun _ ha => by simp [hi] at ha,h.dormant,h.announced,h.current,h.nobody⟩

/-- The timer of the next attempt. -/
theorem rebind (h : Chain s isOpen announcing accepts cur) (hs : s.stopping = false)
    (hi : Server.active s.state = false) (ha : s.accepting = false) (hb : s.posted.count (.bind s.generation) = 0) :
    Chain (s.post (.bind s.generation)) isOpen announcing accepts cur where
  bounded := h.bounded
  one := by
    obtain ⟨hann,hops⟩ := h.dormant hs hi
    simp [Server.post, hb, hann, ha, hops]
  running := h.running
  dormant := h.dormant
  announced := h.announced
  current := h.current
  nobody := h.nobody

/-- The port is bound, and the callback is told before the first accept operation. -/
theorem announce (h : Chain s isOpen announcing accepts cur) (hs : s.stopping = false)
    (hi : Server.active s.state = false) (ha : s.accepting = false) (hb : s.posted.count (.bind s.generation) = 0)
    (hc : s.cleanupStarted = false) : Chain { s with state := .listening } true true accepts cur where
  bounded := h.bounded
  one := by
    have hops := (h.dormant hs hi).2
    simp [hb, ha, hops]
  running _ _ := by
    have hops := (h.dormant hs hi).2
    simp [ha, hops]
  dormant _ ha := by simp [Server.active] at ha
  announced _ := ⟨rfl,hc⟩
  current := h.current
  nobody := h.nobody

/-- After the callback. -/
theorem accept (h : Chain s isOpen true accepts cur) (hs : s.stopping = false) :
    isOpen = true ∧ Chain s isOpen false (accepts ++ [.pending s.generation]) cur := by
  obtain ⟨ha,hc⟩ := h.announced rfl
  obtain ⟨hopen,hops⟩ := h.running hs ha
  have hone := h.one
  rw [Bool.toNat_true] at hone hops
  have hbind : s.posted.count (.bind s.generation) = 0 := by omega
  have hacc : s.accepting.toNat = 0 := by omega
  have hops : operations accepts s.generation = 0 := by omega
  refine ⟨hopen,?_⟩
  constructor
  · intro b hb
    obtain hb | hb := List.mem_append.mp hb
    · exact h.bounded b hb
    · rw [List.mem_singleton.mp hb]
      exact le_rfl
  · simp [hbind, hops, hacc, Accept.generation]
  · simp [hopen, hops, hacc, Accept.generation]
  · intro _ hi
    simp [ha] at hi
  · simp
  · exact h.current
  · exact h.nobody

/-- The callback of a server that was stopped is not followed by an accept operation. -/
theorem hush (h : Chain s isOpen announcing accepts cur) (hs : s.stopping = true) :
    Chain s isOpen false accepts cur where
  bounded := h.bounded
  one := by
    have hone := h.one
    rw [Bool.toNat_false]
    omega
  running hr := by simp [hs] at hr
  dormant hr := by simp [hs] at hr
  announced ha := by simp at ha
  current := h.current
  nobody := h.nobody

/-- A stop begins, and its cleanup is posted. -/
theorem stop (h : Chain s isOpen announcing accepts cur) (objects : List (Session N)) :
    Chain { s with stopping := true, objects := objects, posted := s.posted ++ [.cleanup] } isOpen announcing accepts
      cur where
  bounded := h.bounded
  one := by simpa [List.count_append] using h.one
  running hs := by simp at hs
  dormant hs := by simp at hs
  announced := h.announced
  current := h.current
  nobody := h.nobody

/-- A server that stops has no sessions left when its cleanup begins. -/
theorem performCleanup [CommRing N] (h : Chain s isOpen announcing accepts cur) (hs : s.stopping = true)
    (ha : announcing = false) (hc : s.cleanupStarted = false) (hr : s.retiring = []) :
    Chain s.performCleanup false announcing accepts none := by
  unfold Server.performCleanup
  rw [if_neg (by simp [hc])]
  split
  · constructor
    · exact h.bounded
    · exact h.one
    · exact fun hf => by simp [Server.finishCleanup, Server.retire, hs] at hf
    · exact fun hf => by simp [Server.finishCleanup, Server.retire, hs] at hf
    · simp [ha]
    · simp
    · exact fun _ => hr
  · obtain ⟨objects,heq⟩ := s.retire.modifyAll_eq s.retire.retiring Session.requestStop
    rw [heq]
    constructor
    · exact h.bounded
    · exact h.one
    · exact fun hf => by simp [Server.retire, hs] at hf
    · exact fun hf => by simp [Server.retire, hs] at hf
    · simp [ha]
    · simp
    · exact fun _ => hr

/-- The answers of the sessions come while the server stops. -/
theorem onRetired [CommRing N] (h : Chain s isOpen announcing accepts cur) (hs : s.stopping = true)
    (ha : announcing = false) (client : ℕ) : Chain (s.onRetired client) isOpen announcing accepts cur := by
  have hrelease : ∃ closed absorbed retiring, s.release client =
      { s with closedSendAccounting := closed, absorbed := absorbed, retiring := retiring } := by
    unfold Server.release
    obtain ⟨closed,absorbed,heq⟩ := s.absorbSession_eq client
    split
    · exact ⟨closed,absorbed,_,by rw [heq]⟩
    · exact ⟨_,_,_,rfl⟩
  obtain ⟨closed,absorbed,retiring,heq⟩ := hrelease
  unfold Server.onRetired Server.countDown
  rw [heq]
  split
  · constructor
    · exact h.bounded
    · exact h.one
    · exact fun hf => by simp [Server.finishCleanup, hs] at hf
    · exact fun hf => by simp [Server.finishCleanup, hs] at hf
    · simp [ha]
    · exact h.current
    · exact h.nobody
  · exact ⟨h.bounded,h.one,h.running,h.dormant,h.announced,h.current,h.nobody⟩

/-- A run that is not stopped has a state again, and its one operation. -/
theorem start [CommRing N] (h : Chain s isOpen announcing accepts cur) (hp : s.Phased) (tlsFails : Bool) :
    Chain (s.start tlsFails) isOpen announcing accepts cur := by
  unfold Server.start
  split
  · exact h
  · rename_i hi
    have hi : Server.active s.state = false := by simpa using hi
    have hann := h.silent hi
    have hacc := hp.not_accepting (.inl hi)
    have hb : s.posted.count (.bind (s.generation + 1)) = 0 :=
      List.count_eq_zero.mpr (fun hm => absurd (hp.bounded _ hm) (by omega))
    have hops : operations accepts (s.generation + 1) = 0 :=
      operations_eq_zero (fun a ha => Nat.lt_succ_of_le (h.bounded a ha))
    dsimp only
    split
    · constructor
      · exact fun a ha => (h.bounded a ha).trans (Nat.le_succ _)
      · simp [hb, hann, hacc, hops]
      · exact fun _ ha => by simp [Server.active] at ha
      · exact fun _ _ => ⟨hann,hops⟩
      · simp [hann]
      · exact h.current
      · exact h.nobody
    · constructor
      · exact fun a ha => (h.bounded a ha).trans (Nat.le_succ _)
      · simp [Server.post, hb, hann, hacc, hops]
      · intro _ ha
        rw [show Server.active s.state = true from ha] at hi
        cases hi
      · exact fun _ _ => ⟨hann,hops⟩
      · simp [hann]
      · exact h.current
      · exact h.nobody

end Chain
end Wirestead.Transport.TcpServer
