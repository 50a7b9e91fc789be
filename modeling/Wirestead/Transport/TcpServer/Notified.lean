import Wirestead.Transport.TcpServer.Limited

/-! # What the callbacks are told of the clients

A client is told to connect at most once and to disconnect at most once, and it connects
first. A session whose connection was not told belongs to a run that is over, or is open
and has not taken the first job of its strand.
-/
namespace Wirestead.Transport.TcpServer
open Diagnostics TcpClient

/-- The client that a callback is told of. -/
def Event.client? : Event → Option ℕ
  | .connect client => some client
  | .disconnect client => some client
  | _ => none

/-- Every client that disconnects has connected before. -/
def InOrder (events : List Event) : Prop :=
  ∀ i client, events[i]? = some (.disconnect client) → .connect client ∈ events.take i

theorem InOrder.snoc {events : List Event} (h : InOrder events) {event : Event}
    (he : ∀ client, event = .disconnect client → .connect client ∈ events) : InOrder (events ++ [event]) := by
  intro i client hi
  obtain hlt | hge := Nat.lt_or_ge i events.length
  · rw [List.getElem?_append_left hlt] at hi
    rw [List.take_append_of_le_length hlt.le]
    exact h i client hi
  · rw [List.getElem?_append_right hge] at hi
    obtain ⟨hi,heq⟩ := List.getElem?_eq_some_iff.mp hi
    have hi : i - events.length = 0 := by simpa using hi
    rw [show i = events.length by omega, List.take_left]
    refine he client ?_
    simpa [hi] using heq

namespace Server
variable {N : Type*} {s t : Server N}

/-- The sessions of the run stay, and while the server does not stop the sessions of a list
stay open. -/
structure Keeps (quiet : List ℕ) (s t : Server N) : Prop where
  length : t.objects.length = s.objects.length
  object : ∀ (client : ℕ) w, t.objects[client]? = some w → ∃ v, s.objects[client]? = some v ∧
    w.generation = v.generation ∧ (v.cleanupDone = true → w.cleanupDone = true) ∧
    (t.stopping = false → client ∈ quiet → v.isOpen = true → w.isOpen = true)
  generation : t.generation = s.generation
  stopping : s.stopping = true → t.stopping = true

namespace Keeps
variable {quiet : List ℕ}

theorem same (hobjects : t.objects = s.objects) (hg : t.generation = s.generation)
    (hs : s.stopping = true → t.stopping = true) : s.Keeps quiet t where
  length := congrArg List.length hobjects
  object client w hw := by
    rw [hobjects] at hw
    exact ⟨w,hw,rfl,id,fun _ _ => id⟩
  generation := hg
  stopping := hs

theorem refl (s : Server N) : s.Keeps quiet s := same rfl rfl id

theorem trans {u : Server N} (h : s.Keeps quiet t) (h' : t.Keeps quiet u) : s.Keeps quiet u where
  length := h'.length.trans h.length
  object client x hx := by
    obtain ⟨w,hw,hwg,hwd,hwo⟩ := h'.object client x hx
    obtain ⟨v,hv,hvg,hvd,hvo⟩ := h.object client w hw
    refine ⟨v,hv,hwg.trans hvg,fun hd => hwd (hvd hd),fun hs hq ho => hwo hs hq (hvo ?_ hq ho)⟩
    cases ht : t.stopping with
    | false => rfl
    | true => simp [h'.stopping ht] at hs
  generation := h'.generation.trans h.generation
  stopping hs := h'.stopping (h.stopping hs)

/-- A step of one session. It stays open when it is one of the list. -/
theorem modify (s : Server N) (client : ℕ) {f : Session N → Session N} (hg : ∀ v, (f v).generation = v.generation)
    (hd : ∀ v, v.cleanupDone = true → (f v).cleanupDone = true)
    (ho : s.stopping = false → client ∈ quiet → ∀ v, v.isOpen = true → (f v).isOpen = true) :
    s.Keeps quiet (s.modify client f) where
  length := by simp [Server.modify]
  object k w hw := by
    simp only [Server.modify, List.getElem?_modify] at hw
    obtain ⟨v,hv,rfl⟩ := Option.map_eq_some_iff.mp hw
    by_cases hk : client = k
    · subst hk
      simpa [hv, hg] using ⟨hd v,fun hs hq => ho hs hq v⟩
    · simp [hv, hk]
  generation := rfl
  stopping := id

theorem modifyAll (s : Server N) (clients : List ℕ) {f : Session N → Session N}
    (hg : ∀ v, (f v).generation = v.generation) (hd : ∀ v, v.cleanupDone = true → (f v).cleanupDone = true)
    (hs : s.stopping = true) : s.Keeps quiet (s.modifyAll clients f) := by
  unfold Server.modifyAll
  induction clients generalizing s with
  | nil => exact refl s
  | cons client clients ih =>
    exact (modify s client hg hd (fun hf => by simp [hs] at hf)).trans (ih (s.modify client f) hs)

theorem onClose (s : Server N) (client generation : ℕ) : s.Keeps quiet (s.onClose client generation) := by
  unfold Server.onClose
  split
  · exact refl s
  · exact same rfl rfl id

variable [CommRing N]

theorem write (s : Server N) (client : ℕ) (op : LedgerOp) (counters : Counters) (backpressureActive : Bool) :
    s.Keeps quiet (s.step (.write client op counters backpressureActive)) := by
  unfold Server.step
  dsimp only
  split
  · exact refl s
  · split
    · exact modify s client (fun _ => rfl) (fun _ => id) (fun _ _ _ => id)
    · exact refl s

theorem lose (s : Server N) {client : ℕ} (hq : client ∉ quiet) : s.Keeps quiet (s.step (.lose client)) := by
  unfold Server.step
  dsimp only
  split
  · exact refl s
  · split
    · exact modify s client (fun _ => rfl) (fun _ => id) (fun _ hm => absurd hm hq)
    · exact refl s

theorem generation_doClose (v : Session N) : v.doClose.generation = v.generation := by
  unfold Session.doClose
  split <;> rfl

theorem doClose (s : Server N) {client : ℕ} (hq : client ∉ quiet) : s.Keeps quiet (s.modify client Session.doClose) :=
  modify s client generation_doClose (fun v _ => Session.doClose_cleanupDone v) (fun _ hm => absurd hm hq)

theorem close (s : Server N) {client : ℕ} (hq : client ∉ quiet) : s.Keeps quiet (s.close client) := by
  unfold Server.close
  split
  · exact refl s
  · split
    · exact refl s
    · exact (doClose s hq).trans (onClose _ _ _)

theorem finishStop (s : Server N) {index client : ℕ} (hi : s.stops[index]? = some client) (hq : client ∉ quiet) :
    s.Keeps quiet (s.step (.finishStop index)) := by
  simp only [Server.step, hi]
  have hpop : s.Keeps quiet { s with stops := s.stops.eraseIdx index } := same rfl rfl id
  refine (hpop.trans (doClose _ hq)).trans ?_
  exact same rfl rfl id

theorem resetStats (s : Server N) : s.Keeps quiet s.resetStats where
  length := by simp [Server.resetStats]
  object k w hw := by
    simp only [Server.resetStats, List.getElem?_mapIdx] at hw
    obtain ⟨v,hv,rfl⟩ := Option.map_eq_some_iff.mp hw
    refine ⟨v,hv,?_⟩
    by_cases hm : k ∈ s.sessions ∨ k ∈ s.retiring
    · simp [hm, Session.isOpen]
    · simp [hm, Session.isOpen]
  generation := rfl
  stopping := id

theorem performCleanup (s : Server N) (hs : s.stopping = true) : s.Keeps quiet s.performCleanup := by
  have hretire : s.Keeps quiet s.retire := same rfl rfl id
  unfold Server.performCleanup
  split
  · exact refl s
  · split
    · exact hretire.trans (same rfl rfl id)
    · have hall : s.retire.Keeps quiet (s.retire.modifyAll s.retire.retiring Session.requestStop) :=
        modifyAll s.retire s.retire.retiring (fun _ => rfl) (fun _ => id) hs
      exact (hretire.trans hall).trans (same rfl rfl id)

theorem stop (s : Server N) : s.Keeps quiet s.stop := by
  unfold Server.stop
  split
  · exact refl s
  · have hstopping : s.Keeps quiet { s with stopping := true } := same rfl rfl (fun _ => rfl)
    have hall : ({ s with stopping := true } : Server N).Keeps quiet
        (({ s with stopping := true } : Server N).modifyAll s.sessions Session.requestStop) :=
      modifyAll _ s.sessions (fun _ => rfl) (fun _ => id) rfl
    dsimp only
    split
    · exact (hstopping.trans hall).trans (same rfl rfl id)
    · exact (hstopping.trans hall).trans (performCleanup _ (hall.stopping rfl))

theorem onClosed (s : Server N) (client generation : ℕ) : s.Keeps quiet (s.onClosed client generation) := by
  obtain ⟨closed,absorbed,sessions,heq⟩ := s.onClosed_eq client generation
  rw [heq]
  exact same rfl rfl id

theorem onRetired (s : Server N) (client : ℕ) : s.Keeps quiet (s.onRetired client) := by
  unfold Server.onRetired Server.countDown Server.release
  obtain ⟨closed,absorbed,heq⟩ := s.absorbSession_eq client
  rw [heq]
  split <;> split <;> exact same rfl rfl id

end Keeps

theorem Shut.keeps {quiet : List ℕ} {client : ℕ} (h : s.Shut client) (hk : s.Keeps quiet t) : t.Shut client := by
  obtain ⟨v,hv,hdone⟩ := h
  have hlt : client < t.objects.length := by
    rw [hk.length]
    exact (List.getElem?_eq_some_iff.mp hv).1
  obtain ⟨u,hu,-,hd,-⟩ := hk.object client _ (List.getElem?_eq_getElem hlt)
  rw [hv] at hu
  exact ⟨_,List.getElem?_eq_getElem hlt,hd (Option.some.inj hu ▸ hdone)⟩

end Server

namespace Listener
variable {N : Type*} {l m : Listener N}

/-- No callback of a client is called. -/
structure Mute (l m : Listener N) : Prop where
  unstarted : m.unstarted = l.unstarted
  events : ∃ extra, m.events = l.events ++ extra ∧ ∀ e ∈ extra, e.client? = none
  core : l.core.Keeps l.unstarted m.core

namespace Mute

/-- What is told is the same. -/
theorem same (hu : m.unstarted = l.unstarted) (he : m.events = l.events) (hk : l.core.Keeps l.unstarted m.core) :
    l.Mute m := ⟨hu,⟨[],by simp [he],by simp⟩,hk⟩

theorem refl (l : Listener N) : l.Mute l := same rfl rfl (.refl _)

theorem trans {n : Listener N} (h : l.Mute m) (h' : m.Mute n) : l.Mute n where
  unstarted := h'.unstarted.trans h.unstarted
  events := by
    obtain ⟨extra,he,hm⟩ := h.events
    obtain ⟨extra',he',hm'⟩ := h'.events
    refine ⟨extra ++ extra',by rw [he', he, List.append_assoc],fun e hmem => ?_⟩
    exact (List.mem_append.mp hmem).elim (hm e) (hm' e)
  core := by
    have hk := h'.core
    rw [h.unstarted] at hk
    exact h.core.trans hk

theorem emit (l : Listener N) {event : Event} (he : event.client? = none) : l.Mute (l.emit event) :=
  ⟨rfl,⟨[event],rfl,by simpa using he⟩,.refl _⟩

theorem notifyState (l : Listener N) : l.Mute l.notifyState := by
  unfold Listener.notifyState
  split
  · exact refl l
  · exact emit l rfl

theorem setState (l : Listener N) (state : LinkState) : l.Mute (l.setState state) :=
  same rfl rfl (.same rfl rfl id)

theorem fail (l : Listener N) (category : ErrorCategory) (operation : Operation) :
    l.Mute (l.fail category operation) := by
  have hrecord : l.Mute (l.recordError category operation false l.retryCount) := same rfl rfl (.refl _)
  exact (hrecord.trans (setState _ _)).trans (notifyState _)

theorem doAccept (l : Listener N) : l.Mute l.doAccept := by
  unfold Listener.doAccept
  split
  · exact refl l
  · exact same rfl rfl (.refl _)

theorem acceptLater (l : Listener N) (generation : ℕ) : l.Mute (l.acceptLater generation) := by
  unfold Listener.acceptLater
  split
  · exact refl l
  · exact same rfl rfl (.refl _)

theorem onConnected (l : Listener N) (client : ℕ) : l.Mute (l.onConnected client) := by
  unfold Listener.onConnected
  split
  · exact refl l
  · split
    · exact refl l
    · split
      · exact (setState l _).trans (notifyState _)
      · exact refl l

theorem onBind (l : Listener N) (cfg : ListenerConfig) (generation : ℕ) (attempt : Attempt) :
    l.Mute (l.onBind cfg generation attempt) := by
  unfold Listener.onBind attemptPortBinding
  split
  · exact refl l
  · have hmade : l.Mute (l.emit (.attempt l.core.generation l.retryCount)) := emit l rfl
    have hopen : l.Mute { l.emit (.attempt l.core.generation l.retryCount) with acceptorOpen := true } :=
      hmade.trans (same rfl rfl (.refl _))
    dsimp only
    split
    · exact hmade.trans (fail _ _ _)
    · split
      · exact hmade.trans (fail _ _ _)
      · split
        · split
          · exact hopen.trans (same rfl rfl (.same rfl rfl id))
          · exact hopen.trans (fail _ _ _)
        · split
          · exact hopen.trans (fail _ _ _)
          · refine (hopen.trans ?_).trans (notifyState _)
            exact same rfl rfl (.same rfl rfl id)

variable [CommRing N]

theorem performCleanup (l : Listener N) (hs : l.core.stopping = true) : l.Mute l.performCleanup := by
  unfold Listener.performCleanup
  split
  · exact refl l
  · exact same rfl rfl (.performCleanup _ hs)

theorem stop (l : Listener N) : l.Mute l.stop := by
  refine same ?_ ?_ (by rw [stop_core]; exact .stop _)
  all_goals
    unfold Listener.stop Listener.performCleanup
    split
    · rfl
    · dsimp only
      split
      · rfl
      · split <;> rfl

theorem onClosed (l : Listener N) (client generation pick : ℕ) : l.Mute (l.onClosed client generation pick) := by
  have hcore : l.core.Keeps l.unstarted (l.core.onClosed client generation) := .onClosed _ _ _
  unfold Listener.onClosed
  split
  · exact refl l
  · dsimp only
    split
    · have hpicked : l.Mute { l with core := l.core.onClosed client generation
                                     currentSession := pickSession (l.core.onClosed client generation).sessions pick } :=
        same rfl rfl hcore
      exact (hpicked.trans (setState _ _)).trans (notifyState _)
    · exact same rfl rfl hcore

theorem runHandler (l : Listener N) (cfg : ListenerConfig) (index : ℕ) (attempt : Attempt) (pick : ℕ)
    (handler : Handler) (hs : handler = .cleanup → l.core.stopping = true) :
    l.Mute (l.runHandler cfg index attempt pick handler) := by
  have hpop : l.Mute { l with core := { l.core with posted := l.core.posted.eraseIdx index } } :=
    same rfl rfl (.same rfl rfl id)
  cases handler with
  | bind generation => exact hpop.trans (onBind _ _ _ _)
  | closed client generation =>
    unfold Listener.runHandler
    dsimp only
    split
    · exact refl l
    · exact hpop.trans (onClosed _ _ _ _)
  | cleanup => exact hpop.trans (performCleanup _ (hs rfl))
  | retired client => exact hpop.trans (same rfl rfl (.onRetired _ client))

end Mute

/-- What was told of the clients, and what is known of those that were not told of. -/
structure Told (l : Listener N) : Prop where
  nodup : l.unstarted.Nodup
  known : ∀ client ∈ l.unstarted, client < l.core.objects.length
  once : ∀ client, l.events.count (.connect client) ≤ 1
  fresh : ∀ client, client ∈ l.unstarted ∨ l.core.objects.length ≤ client → .connect client ∉ l.events
  gone : ∀ client, l.events.count (.disconnect client) ≤ 1
  shut : ∀ client, .disconnect client ∈ l.events → l.core.Shut client
  order : InOrder l.events
  generations : ∀ (client : ℕ) v, l.core.objects[client]? = some v → v.generation ≤ l.core.generation
  quiet : ∀ (client : ℕ) v, l.core.objects[client]? = some v → l.core.stopping = false →
    l.core.generation = v.generation → client ∈ l.unstarted → v.isOpen = true
  told : ∀ (client : ℕ) v, l.core.objects[client]? = some v → l.core.stopping = false →
    l.core.generation = v.generation → client ∉ l.unstarted → .connect client ∈ l.events

namespace Told

theorem count_mute {extra : List Event} (he : ∀ e ∈ extra, e.client? = none) {event : Event}
    (hc : event.client? ≠ none) : extra.count event = 0 :=
  List.count_eq_zero.mpr (fun hm => hc (he event hm))

theorem order_mute {events extra : List Event} (h : InOrder events) (he : ∀ e ∈ extra, e.client? = none) :
    InOrder (events ++ extra) := by
  induction extra generalizing events with
  | nil => simpa using h
  | cons e extra ih =>
    rw [List.append_cons]
    refine ih (h.snoc (fun client heq => ?_)) (fun x hx => he x (List.mem_cons_of_mem _ hx))
    have hnone := he e List.mem_cons_self
    simp [heq, Event.client?] at hnone

theorem mute (h : l.Told) (hm : l.Mute m) : m.Told := by
  obtain ⟨extra,hevents,hextra⟩ := hm.events
  have hk := hm.core
  have hnot : ∀ event : Event, event.client? ≠ none → event ∈ m.events → event ∈ l.events := by
    intro event hc hmem
    rw [hevents] at hmem
    exact (List.mem_append.mp hmem).resolve_right (fun hx => hc (hextra event hx))
  have hcount : ∀ event : Event, event.client? ≠ none → m.events.count event = l.events.count event := by
    intro event hc
    rw [hevents, List.count_append, count_mute hextra hc, Nat.add_zero]
  have hstopping : m.core.stopping = false → l.core.stopping = false := by
    intro hs
    cases hl : l.core.stopping with
    | false => rfl
    | true => simp [hk.stopping hl] at hs
  constructor
  · rw [hm.unstarted]
    exact h.nodup
  · rw [hm.unstarted, hk.length]
    exact h.known
  · intro client
    rw [hcount _ (by simp [Event.client?])]
    exact h.once client
  · intro client hc hmem
    rw [hm.unstarted, hk.length] at hc
    exact h.fresh client hc (hnot _ (by simp [Event.client?]) hmem)
  · intro client
    rw [hcount _ (by simp [Event.client?])]
    exact h.gone client
  · intro client hmem
    exact (h.shut client (hnot _ (by simp [Event.client?]) hmem)).keeps hk
  · rw [hevents]
    exact order_mute h.order hextra
  · intro client w hw
    obtain ⟨v,hv,hg,-⟩ := hk.object client w hw
    rw [hg, hk.generation]
    exact h.generations client v hv
  · intro client w hw hs hg hc
    obtain ⟨v,hv,hvg,-,ho⟩ := hk.object client w hw
    rw [hm.unstarted] at hc
    rw [hk.generation, hvg] at hg
    exact ho hs hc (h.quiet client v hv (hstopping hs) hg hc)
  · intro client w hw hs hg hc
    obtain ⟨v,hv,hvg,-⟩ := hk.object client w hw
    rw [hm.unstarted] at hc
    rw [hk.generation, hvg] at hg
    rw [hevents]
    exact List.mem_append_left _ (h.told client v hv (hstopping hs) hg hc)

theorem not_mem_of_erase {others : List ℕ} {client other : ℕ} (ho : other ∉ others.erase client)
    (hne : other ≠ client) : other ∉ others :=
  fun hm => ho ((List.mem_erase_of_ne hne).mpr hm)

/-- The first job of a session whose run is over, or that is no longer open. -/
theorem unstart (h : l.Told) {client : ℕ} {v : Session N} (hv : l.core.objects[client]? = some v)
    (hmem : client ∈ l.unstarted)
    (hquiet : v.isOpen = false ∨ l.core.stopping = true ∨ l.core.generation ≠ v.generation) :
    ({ l with unstarted := l.unstarted.erase client } : Listener N).Told where
  nodup := h.nodup.erase client
  known other ho := h.known other (List.mem_of_mem_erase ho)
  once := h.once
  fresh other ho := h.fresh other (ho.imp_left List.mem_of_mem_erase)
  gone := h.gone
  shut := h.shut
  order := h.order
  generations := h.generations
  quiet other w hw hs hg ho := h.quiet other w hw hs hg (List.mem_of_mem_erase ho)
  told other w hw hs hg ho := by
    by_cases heq : other = client
    · subst heq
      have hvw : w = v := Option.some.inj (hw.symm.trans hv)
      have hopen := h.quiet other w hw hs hg hmem
      rw [hvw] at hg hopen
      -- an unstarted session of a run that is not over is open
      obtain hclosed | hstop | hgen := hquiet
      · simp [hclosed] at hopen
      · exact absurd hstop (by simpa using hs)
      · exact absurd hg hgen
    · exact h.told other w hw hs hg (not_mem_of_erase ho heq)

/-- The first job of a session tells of the connection. -/
theorem tell_connect (h : l.Told) {client : ℕ} (hmem : client ∈ l.unstarted) (connecting : List ℕ) :
    (({ l with unstarted := l.unstarted.erase client, connecting := connecting } : Listener N).emit
      (.connect client)).Told where
  nodup := h.nodup.erase client
  known other ho := h.known other (List.mem_of_mem_erase ho)
  once other := by
    by_cases heq : other = client
    · subst heq
      simp [emit, List.count_append, List.count_eq_zero.mpr (h.fresh other (.inl hmem))]
    · have hne : ¬client = other := fun hx => heq hx.symm
      simpa [emit, List.count_append, List.count_singleton, hne] using h.once other
  fresh other ho hm := by
    have hother : other ≠ client := by
      rintro rfl
      exact ho.elim h.nodup.not_mem_erase (fun hle => absurd (h.known other hmem) (Nat.not_lt.mpr hle))
    exact h.fresh other (ho.imp_left List.mem_of_mem_erase) (by simpa [emit, hother] using hm)
  gone other := by simpa [emit, List.count_append, List.count_singleton] using h.gone other
  shut other hm := h.shut other (by simpa [emit] using hm)
  order := h.order.snoc (fun other heq => by simp at heq)
  generations := h.generations
  quiet other w hw hs hg ho := h.quiet other w hw hs hg (List.mem_of_mem_erase ho)
  told other w hw hs hg ho := by
    by_cases heq : other = client
    · subst heq
      simp [emit]
    · exact List.mem_append_left _ (h.told other w hw hs hg (not_mem_of_erase ho heq))

/-- A closed session that has told of its connection tells of its end. -/
theorem tell_disconnect (h : l.Told) {client : ℕ} (hconnect : .connect client ∈ l.events)
    (hnone : .disconnect client ∉ l.events) (hshut : l.core.Shut client) : (l.emit (.disconnect client)).Told where
  nodup := h.nodup
  known := h.known
  once other := by simpa [emit, List.count_append, List.count_singleton] using h.once other
  fresh other ho hm := h.fresh other ho (by simpa [emit] using hm)
  gone other := by
    by_cases heq : other = client
    · subst heq
      simp [emit, List.count_append, List.count_eq_zero.mpr hnone]
    · have hne : ¬client = other := fun hx => heq hx.symm
      simpa [emit, List.count_append, List.count_singleton, hne] using h.gone other
  shut other hm := by
    by_cases heq : other = client
    · subst heq
      exact hshut
    · exact h.shut other (by simpa [emit, heq] using hm)
  order := by
    refine h.order.snoc (fun other heq => ?_)
    rw [← Event.disconnect.inj heq]
    exact hconnect
  generations := h.generations
  quiet := h.quiet
  told other w hw hs hg ho := List.mem_append_left _ (h.told other w hw hs hg ho)

theorem connect (h : l.Told) (client : ℕ) : (l.connect client).Told := by
  unfold Listener.connect
  split
  · rename_i hmem
    have hget := List.getElem?_eq_getElem (h.known client hmem)
    dsimp only
    rw [hget]
    dsimp only
    split
    · rename_i hquiet
      exact h.unstart hget hmem hquiet
    · exact h.tell_connect hmem _
  · exact h

variable [CommRing N]

/-- A new session has told nothing. -/
theorem published (h : l.Told) (accepting : Bool) (currentSession : Option ℕ) :
    ({ l with core := { l.core with accepting := accepting
                                    objects := l.core.objects ++ [.new l.core.generation]
                                    sessions := l.core.sessions ++ [l.core.objects.length] }
              currentSession := currentSession
              unstarted := l.unstarted ++ [l.core.objects.length] } : Listener N).Told := by
  have hnew : ∀ {client : ℕ} {w : Session N}, (l.core.objects ++ [Session.new l.core.generation])[client]? = some w →
      l.core.objects[client]? = some w ∨ client = l.core.objects.length ∧ w = .new l.core.generation := by
    intro client w hw
    obtain hlt | hge := Nat.lt_or_ge client l.core.objects.length
    · exact .inl (by simpa [List.getElem?_append_left hlt] using hw)
    · rw [List.getElem?_append_right hge] at hw
      obtain ⟨hi,heq⟩ := List.getElem?_eq_some_iff.mp hw
      have hi : client - l.core.objects.length = 0 := by simpa using hi
      exact .inr ⟨by omega,by simpa [hi] using heq.symm⟩
  constructor
  · refine List.Nodup.append h.nodup (List.nodup_singleton _) ?_
    intro client hc heq
    rw [List.mem_singleton] at heq
    exact absurd (h.known client hc) (by omega)
  · intro client hc
    rw [List.length_append, List.length_singleton]
    obtain hc | hc := List.mem_append.mp hc
    · exact Nat.lt_succ_of_lt (h.known client hc)
    · rw [List.mem_singleton.mp hc]
      exact Nat.lt_succ_self _
  · exact h.once
  · intro client hc
    refine h.fresh client ?_
    obtain hc | hc := hc
    · refine (List.mem_append.mp hc).imp_right (fun hm => ?_)
      exact (List.mem_singleton.mp hm).ge
    · refine .inr ?_
      rw [List.length_append, List.length_singleton] at hc
      omega
  · exact h.gone
  · intro client hmem
    obtain ⟨v,hv,hdone⟩ := h.shut client hmem
    have hlt := (List.getElem?_eq_some_iff.mp hv).1
    refine ⟨v,?_,hdone⟩
    rwa [List.getElem?_append_left hlt]
  · exact h.order
  · intro client w hw
    obtain hold | ⟨-,rfl⟩ := hnew hw
    · exact h.generations client w hold
    · exact le_rfl
  · intro client w hw hs hg hc
    obtain hold | ⟨-,rfl⟩ := hnew hw
    · refine h.quiet client w hold hs hg ((List.mem_append.mp hc).resolve_right (fun hm => ?_))
      have hlt := (List.getElem?_eq_some_iff.mp hold).1
      rw [List.mem_singleton.mp hm] at hlt
      exact absurd hlt (lt_irrefl _)
    · rfl
  · intro client w hw hs hg hc
    obtain hold | ⟨rfl,-⟩ := hnew hw
    · exact h.told client w hold hs hg (fun hm => hc (List.mem_append_left _ hm))
    · exact absurd (List.mem_append_right _ (List.mem_singleton_self _)) hc

theorem publish (h : l.Told) : l.publish.Told := by
  unfold Listener.publish
  split
  · rename_i ha
    rw [Server.publish, if_pos ha]
    exact (h.published false _).mute (.doAccept _)
  · exact h

/-- A session that closes has told of its connection, unless its run is over. -/
theorem close (h : l.Told) (client : ℕ) : (l.close client).Told := by
  unfold Listener.close
  split
  · exact h
  · rename_i v hv
    split
    · exact h
    · rename_i hopen
      obtain ⟨hdone,hbusy⟩ := not_or.mp hopen
      have hout : client ∉ l.unstarted := fun hm => hbusy (by simp [busy, hm])
      have hkeeps : l.core.Keeps l.unstarted (l.core.close client) := .close _ hout
      have hshut : (l.core.close client).Shut client := by
        unfold Server.close
        simp only [hv, hdone]
        have hkept : (l.core.modify client Session.doClose).Keeps []
            ((l.core.modify client Session.doClose).onClose client v.generation) := .onClose _ _ _
        exact (Server.Kept.shut_doClose hv).keeps hkept
      dsimp only
      split
      · exact h.mute (.same rfl rfl hkeeps)
      · rename_i hrun
        obtain ⟨hs,hg⟩ := not_or.mp hrun
        have hs : (l.core.close client).stopping = false := by simpa using hs
        have hg : (l.core.close client).generation = v.generation := by simpa using hg
        have hstopping : l.core.stopping = false := by
          cases hl : l.core.stopping with
          | false => rfl
          | true => simp [hkeeps.stopping hl] at hs
        have hconnect := h.told client v hv hstopping (hkeeps.generation.symm.trans hg) hout
        have hnone : .disconnect client ∉ l.events := by
          intro hm
          obtain ⟨w,hw,hwdone⟩ := h.shut client hm
          rw [hv] at hw
          exact hdone (Option.some.inj hw ▸ hwdone)
        have hdisconnecting : ({ l with core := l.core.close client
                                        disconnecting := l.disconnecting ++ [client] } : Listener N).Told :=
          h.mute (.same rfl rfl hkeeps)
        exact hdisconnecting.tell_disconnect hconnect hnone hshut

/-- The sessions of the earlier runs are not told of any more. -/
theorem start (h : l.Told) (tlsFails : Bool) : (l.start tlsFails).Told := by
  unfold Listener.start
  split
  · exact h
  · rename_i hi
    have hobjects : (l.core.start tlsFails).objects = l.core.objects := by
      cases tlsFails <;> simp [Server.start, hi, Server.post]
    have hgen : (l.core.start tlsFails).generation = l.core.generation + 1 := by
      cases tlsFails <;> simp [Server.start, hi, Server.post]
    have hpast : ∀ (client : ℕ) v, (l.core.start tlsFails).objects[client]? = some v →
        v.generation < (l.core.start tlsFails).generation := by
      intro client v hv
      rw [hobjects] at hv
      rw [hgen]
      exact Nat.lt_succ_of_le (h.generations client v hv)
    have hstarted : ({ l with core := l.core.start tlsFails, retryCount := 0 } : Listener N).Told := by
      constructor
      · exact h.nodup
      · rw [hobjects]
        exact h.known
      · exact h.once
      · rw [hobjects]
        exact h.fresh
      · exact h.gone
      · intro client hm
        obtain ⟨v,hv,hdone⟩ := h.shut client hm
        exact ⟨v,by rw [hobjects]; exact hv,hdone⟩
      · exact h.order
      · exact fun client v hv => (hpast client v hv).le
      · exact fun client v hv _ hg => absurd hg (hpast client v hv).ne'
      · exact fun client v hv _ hg => absurd hg (hpast client v hv).ne'
    dsimp only
    split
    · exact hstarted.mute (.fail _ _ _)
    · exact hstarted

omit [CommRing N] in
theorem onAccept (h : l.Told) (generation : ℕ) (ec : ErrorCode) : (l.onAccept generation ec).Told := by
  unfold Listener.onAccept
  split
  · exact h
  · split
    · exact h.mute (.acceptLater _ _)
    · split
      · have hrecord : l.Mute (l.recordError .connection .accept true 0) := .same rfl rfl (.refl _)
        exact h.mute (hrecord.trans (.acceptLater _ _))
      · split
        · exact h.mute ((Mute.emit l rfl).trans (.doAccept _))
        · exact h.mute (.same rfl rfl (.same rfl rfl id))

theorem work (h : l.Told) {work : ServerOp} (hw : l.Works work) :
    ({ l with core := l.core.step work } : Listener N).Told := by
  have hout : ∀ client, ¬l.busy client = true → client ∉ l.unstarted :=
    fun client hb hm => hb (by simp [busy, hm])
  refine h.mute (.same rfl rfl ?_)
  cases work with
  | resetStats => exact .resetStats _
  | write client op counters active => exact .write _ client op counters active
  | lose client => exact .lose _ (hout client hw)
  | finishStop index =>
    cases hi : l.core.stops[index]? with
    | none =>
      simp only [Server.step, hi]
      exact .refl _
    | some client => exact .finishStop _ hi (hout client (hw client hi))
  | _ => exact hw.elim

theorem step (h : l.Told) (hs : l.Sound) (cfg : ListenerConfig) (op : ListenerOp) : (l.step cfg op).Told := by
  have hsame : ∀ m : Listener N, m.core = l.core → m.unstarted = l.unstarted → m.events = l.events → m.Told :=
    fun m hcore hu he => h.mute (.same hu he (hcore ▸ .refl _))
  have hmove := l.step_move cfg op
  generalize l.step cfg op = m at hmove ⊢
  cases hmove with
  | idle => exact h
  | aside => exact hsame _ rfl rfl rfl
  | start tlsFails => exact h.start tlsFails
  | stop stopRequests =>
    have hrequests := hsame { l with stopRequests := stopRequests } rfl rfl rfl
    exact hrequests.mute (.stop _)
  | limit => exact hsame _ rfl rfl rfl
  | work work hw => exact h.work hw
  | connect client => exact h.connect client
  | close client => exact h.close client
  | publish => exact h.publish
  | returned =>
    have hreturned := hsame { l with announcing := false } rfl rfl rfl
    exact hreturned.mute (.doAccept _)
  | handler index attempt pick handler hr hi =>
    refine h.mute (.runHandler l cfg index attempt pick handler (fun heq => ?_))
    have hm := List.mem_of_getElem? hi
    rw [heq] at hm
    cases hstop : l.core.stopping with
    | true => rfl
    | false => exact absurd hm (hs.phased.running hstop).2
  | accepted index generation ec =>
    have haccepts := hsame { l with accepts := l.accepts.eraseIdx index } rfl rfl rfl
    exact haccepts.onAccept generation ec
  | timer index generation =>
    have haccepts := hsame { l with accepts := l.accepts.eraseIdx index } rfl rfl rfl
    unfold Listener.onTimer
    split
    · exact haccepts
    · exact haccepts.mute (.doAccept _)
  | connected connected client =>
    have hconnected := hsame { l with connected := connected } rfl rfl rfl
    exact hconnected.mute (.onConnected _ client)

theorem run (h : l.Told) (hs : l.Sound) (cfg : ListenerConfig) {ops : List ListenerOp}
    (hserial : l.Serial cfg ops) : (l.run cfg ops).Told := by
  induction ops generalizing l with
  | nil => exact h
  | cons op ops ih => exact ih (h.step hs cfg op) (hs.step cfg hserial.1) hserial.2

end Told

variable [CommRing N]

theorem told_init (cfg : ListenerConfig) : (init cfg : Listener N).Told := by
  constructor <;> simp [init, Server.init, InOrder]

/-- The callbacks are told at most once that a client connects and at most once that it
disconnects, and never that it disconnects before they were told that it connects. While the
server runs they were told of every session of the run that has taken its first job. -/
theorem run_notified (cfg : ListenerConfig) (ops : List ListenerOp) (h : (init cfg : Listener N).Serial cfg ops)
    (client : ℕ) :
    let l := (init cfg : Listener N).run cfg ops
    l.events.count (.connect client) ≤ 1 ∧ l.events.count (.disconnect client) ≤ 1 ∧
      (∀ i : ℕ, l.events[i]? = some (.disconnect client) → .connect client ∈ l.events.take i) ∧
      ∀ v, l.core.objects[client]? = some v → l.core.stopping = false → l.core.generation = v.generation →
        client ∈ l.unstarted ∨ .connect client ∈ l.events := by
  have htold := (told_init cfg).run (sound_init cfg) cfg h
  refine ⟨htold.once client,htold.gone client,fun i => htold.order i client,fun v hv hs hg => ?_⟩
  by_cases hm : client ∈ ((init cfg : Listener N).run cfg ops).unstarted
  · exact .inl hm
  · exact .inr (htold.told client v hv hs hg hm)

/-- The client of the sample disconnects. -/
def closingOps : List ListenerOp := sampleOps ++ [.connectReturns 0,.close 0]

theorem closingOps_serial : (init sampleConfig : Listener ℤ).Serial sampleConfig closingOps := by
  refine ⟨?_,?_,?_,?_,?_,?_,?_,?_,?_,?_,?_,?_,trivial⟩
  · intro _ _ hs
    cases hs
  all_goals
    intro _ heq
    cases heq

theorem run_notified_sample :
    let l : Listener ℤ := (init sampleConfig).run sampleConfig closingOps
    l.events.count (.connect 0) ≤ 1 ∧ l.events.count (.disconnect 0) ≤ 1 ∧
      (∀ i : ℕ, l.events[i]? = some (.disconnect 0) → .connect 0 ∈ l.events.take i) ∧
      ∀ v, l.core.objects[0]? = some v → l.core.stopping = false → l.core.generation = v.generation →
        0 ∈ l.unstarted ∨ .connect 0 ∈ l.events :=
  run_notified sampleConfig closingOps closingOps_serial 0

end Listener
end Wirestead.Transport.TcpServer
