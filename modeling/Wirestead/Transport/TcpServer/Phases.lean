import Wirestead.Transport.TcpServer.State

/-! # Where the server stands

The sessions of a run retire together, once, after the targets were told to stop. Each
is then on its way to the strand of the server, and the last answer ends the cleanup. A
server that is not active has no sessions.
-/
namespace Wirestead.Transport.TcpServer
open Diagnostics TcpClient

theorem perm_filter_ne {l : List ℕ} {c : ℕ} (hn : l.Nodup) (hc : c ∈ l) : l.Perm (c :: l.filter (· ≠ c)) := by
  have hfilter : l.erase c = l.filter (· ≠ c) := by
    rw [hn.erase_eq_filter]
    exact List.filter_congr (fun x _ => by simp [bne, beq_eq_decide])
  rw [← hfilter]
  exact List.perm_cons_erase hc

theorem perm_cons_eraseIdx {α : Type*} {l : List α} {x : α} {index : ℕ} (hi : l[index]? = some x) :
    (x :: l.eraseIdx index).Perm l := by
  obtain ⟨hlt,hget⟩ := List.getElem?_eq_some_iff.mp hi
  rw [← hget]
  exact List.getElem_cons_eraseIdx_perm hlt

theorem not_mem_eraseIdx {l : List Handler} {x : Handler} {index : ℕ} (hi : l[index]? = some x)
    (hc : l.count x ≤ 1) : x ∉ l.eraseIdx index := by
  rw [← (perm_cons_eraseIdx hi).count_eq, List.count_cons_self] at hc
  exact List.count_eq_zero.mp (by omega)

/-- The session of an answer. -/
def Handler.client? : Handler → Option ℕ
  | .retired client => some client
  | _ => none

namespace Server
variable {N : Type*} {s : Server N}

/-- The sessions whose answers are on their way to the strand. -/
def answers (s : Server N) : List ℕ := s.posted.filterMap Handler.client?

/-- Where the server stands between start and the end of the cleanup. -/
structure Phased (s : Server N) : Prop where
  before : s.cleanupStarted = false → s.retiring = [] ∧ s.stops = [] ∧ s.answers = []
  after : s.cleanupStarted = true → s.sessions = [] ∧ s.retiring.Perm (s.stops ++ s.answers) ∧
    (s.retiring ≠ [] → s.remaining = s.retiring.length)
  running : s.stopping = false → s.cleanupStarted = false ∧ .cleanup ∉ s.posted
  cleanup : .cleanup ∈ s.posted → s.cleanupStarted = false
  single : s.posted.count .cleanup ≤ 1
  done : s.cleanupDone = true → s.cleanupStarted = true
  idle : active s.state = false → s.sessions = [] ∧ s.retiring = []
  binding : .bind s.generation ∈ s.posted → active s.state = false
  one : s.posted.count (.bind s.generation) ≤ 1
  bounded : ∀ g, .bind g ∈ s.posted → g ≤ s.generation
  dispatched : active s.state = true ∨ .bind s.generation ∈ s.posted → s.runDispatched = true
  accepting : s.accepting = true → active s.state = true ∧ s.cleanupStarted = false

theorem modifyAll_eq (s : Server N) (clients : List ℕ) (f : Session N → Session N) :
    ∃ objects, s.modifyAll clients f = { s with objects := objects } := by
  induction clients generalizing s with
  | nil => exact ⟨s.objects,rfl⟩
  | cons client clients ih => exact ih (s.modify client f)

theorem absorbSession_eq [CommRing N] (s : Server N) (client : ℕ) : ∃ closed absorbed,
    s.absorbSession client = { s with closedSendAccounting := closed, absorbed := absorbed } := by
  unfold absorbSession
  split
  · exact ⟨_,_,rfl⟩
  · exact ⟨_,_,rfl⟩

namespace Phased

/-- Neither the objects nor the totals tell where the server stands. -/
theorem totals (h : s.Phased) (objects : List (Session N)) (closed : SendAccounting N) (absorbed : List ℕ)
    (base : ℕ) : ({ s with objects := objects
                           closedSendAccounting := closed
                           absorbed := absorbed
                           base := base } : Server N).Phased :=
  ⟨h.before,h.after,h.running,h.cleanup,h.single,h.done,h.idle,h.binding,h.one,h.bounded,h.dispatched,h.accepting⟩

theorem objects (h : s.Phased) (objects : List (Session N)) : ({ s with objects := objects } : Server N).Phased :=
  h.totals objects s.closedSendAccounting s.absorbed s.base

/-- A change of what is posted that leaves the answers and posts neither a cleanup nor a
binding. -/
theorem repost (h : s.Phased) {posted : List Handler}
    (ha : (posted.filterMap Handler.client?).Perm s.answers)
    (hc : posted.count .cleanup ≤ s.posted.count .cleanup)
    (hb : ∀ g, posted.count (.bind g) ≤ s.posted.count (.bind g)) : ({ s with posted := posted } : Server N).Phased := by
  have hcm : .cleanup ∈ posted → .cleanup ∈ s.posted := by
    intro hm
    exact List.count_pos_iff.mp ((List.count_pos_iff.mpr hm).trans_le hc)
  have hbm : ∀ g, .bind g ∈ posted → .bind g ∈ s.posted := by
    intro g hm
    exact List.count_pos_iff.mp ((List.count_pos_iff.mpr hm).trans_le (hb g))
  constructor
  · intro hs
    obtain ⟨hr,hst,hans⟩ := h.before hs
    rw [hans] at ha
    exact ⟨hr,hst,ha.eq_nil⟩
  · intro hs
    obtain ⟨hse,hperm,hlen⟩ := h.after hs
    exact ⟨hse,hperm.trans (ha.symm.append_left _),hlen⟩
  · intro hs
    exact ⟨(h.running hs).1,fun hm => (h.running hs).2 (hcm hm)⟩
  · exact fun hm => h.cleanup (hcm hm)
  · exact hc.trans h.single
  · exact h.done
  · exact h.idle
  · exact fun hm => h.binding (hbm _ hm)
  · exact (hb _).trans h.one
  · exact fun g hm => h.bounded g (hbm g hm)
  · exact fun hd => h.dispatched (hd.imp_right (hbm _))
  · exact h.accepting

theorem post_closed (h : s.Phased) (client generation : ℕ) : (s.post (.closed client generation)).Phased := by
  refine h.repost ?_ ?_ (fun g => ?_)
  · rw [List.filterMap_append, List.filterMap_cons_none rfl, List.filterMap_nil, List.append_nil]
    exact .refl _
  · simp
  · simp

theorem pop (h : s.Phased) {index : ℕ} {handler : Handler} (hi : s.posted[index]? = some handler)
    (hn : handler.client? = none) : ({ s with posted := s.posted.eraseIdx index } : Server N).Phased := by
  have hperm := perm_cons_eraseIdx hi
  refine h.repost ?_ ?_ (fun g => ?_)
  · have hmap := hperm.filterMap Handler.client?
    rwa [List.filterMap_cons_none hn] at hmap
  · exact (s.posted.eraseIdx_sublist index).count_le _
  · exact (s.posted.eraseIdx_sublist index).count_le _

/-- No connection is accepted once the cleanup has begun. -/
theorem not_accepting (h : s.Phased) (hs : active s.state = false ∨ s.cleanupStarted = true) :
    s.accepting = false := by
  cases ha : s.accepting with
  | false => rfl
  | true =>
    obtain ⟨hactive,hc⟩ := h.accepting ha
    rcases hs with hs | hs
    · rw [hs] at hactive
      cases hactive
    · rw [hs] at hc
      cases hc

theorem finishCleanup (h : s.Phased) (hc : s.cleanupStarted = true) (hr : s.retiring = []) : s.finishCleanup.Phased where
  before := h.before
  after := h.after
  running := h.running
  cleanup := h.cleanup
  single := h.single
  done _ := hc
  idle _ := ⟨(h.after hc).1,hr⟩
  binding _ := rfl
  one := h.one
  bounded := h.bounded
  dispatched hd := h.dispatched (.inr (hd.resolve_left nofun))
  accepting ha := absurd (h.not_accepting (.inr hc)) (by rw [show s.accepting = true from ha]; exact nofun)

/-- A start that is not refused finds every place empty. -/
theorem empty_of_idle (h : s.Phased) (hi : active s.state = false) : s.stops = [] ∧ s.answers = [] := by
  cases hc : s.cleanupStarted with
  | false => exact (h.before hc).2
  | true =>
    have hperm := (h.after hc).2.1
    rw [(h.idle hi).2] at hperm
    exact List.append_eq_nil_iff.mp hperm.symm.eq_nil

/-- Targets that leave. -/
theorem leave (h : s.Phased) (p : ℕ → Bool) : ({ s with sessions := s.sessions.filter p } : Server N).Phased where
  before := h.before
  after hc := by
    refine ⟨?_,(h.after hc).2⟩
    change s.sessions.filter p = []
    rw [(h.after hc).1]
    rfl
  running := h.running
  cleanup := h.cleanup
  single := h.single
  done := h.done
  idle hi := by
    refine ⟨?_,(h.idle hi).2⟩
    change s.sessions.filter p = []
    rw [(h.idle hi).1]
    rfl
  binding := h.binding
  one := h.one
  bounded := h.bounded
  dispatched := h.dispatched
  accepting := h.accepting

/-- Other handlers were posted before the last one. -/
theorem posted_of_ne {handler x : Handler} (hm : x ∈ s.posted ++ [handler]) (hne : x ≠ handler) : x ∈ s.posted :=
  (List.mem_append.mp hm).resolve_right (fun hx => hne (List.mem_singleton.mp hx))

/-- The binding of a run is posted while none is on its way. -/
theorem post_bind (h : s.Phased) (hi : active s.state = false) (hb : .bind s.generation ∉ s.posted)
    (hd : s.runDispatched = true) : (s.post (.bind s.generation)).Phased := by
  have hanswers : (s.post (.bind s.generation)).answers = s.answers := by
    change (s.posted ++ [Handler.bind s.generation]).filterMap Handler.client? = _
    rw [List.filterMap_append, List.filterMap_cons_none rfl, List.filterMap_nil, List.append_nil]
    rfl
  constructor
  · intro hc
    rw [hanswers]
    exact h.before hc
  · intro hc
    rw [hanswers]
    exact h.after hc
  · exact fun hs => ⟨(h.running hs).1,fun hm => (h.running hs).2 (posted_of_ne hm (by simp))⟩
  · exact fun hm => h.cleanup (posted_of_ne hm (by simp))
  · change (s.posted ++ [Handler.bind s.generation]).count .cleanup ≤ 1
    rw [List.count_append]
    exact h.single
  · exact h.done
  · exact h.idle
  · exact fun _ => hi
  · change (s.posted ++ [Handler.bind s.generation]).count (.bind s.generation) ≤ 1
    rw [List.count_append, List.count_eq_zero.mpr hb, List.count_singleton_self]
  · intro g hm
    by_cases hg : g = s.generation
    · exact hg.le
    · exact h.bounded g (posted_of_ne hm (by simp [hg]))
  · exact fun _ => hd
  · exact h.accepting

theorem attemptPortBinding (h : s.Phased) {index g : ℕ} (bound retries : Bool)
    (hi : s.posted[index]? = some (.bind g)) (ha : s.accepting = false) :
    (({ s with posted := s.posted.eraseIdx index } : Server N).attemptPortBinding g bound retries).Phased := by
  have hpop := h.pop hi rfl
  unfold Server.attemptPortBinding
  split
  · exact hpop
  · rename_i hs
    obtain ⟨hstop,hg⟩ := not_or.mp hs
    have hg : s.generation = g := by simpa using hg
    subst hg
    have hm := List.mem_of_getElem? hi
    have hidle := h.binding hm
    have hd := h.dispatched (.inr hm)
    have hnone : s.accepting = true → False := by
      rw [ha]
      exact nofun
    -- it was the only binding of this run
    have hlast := not_mem_eraseIdx hi h.one
    split
    · exact ⟨hpop.before,hpop.after,hpop.running,hpop.cleanup,hpop.single,hpop.done,nofun,
        fun hm => absurd hm hlast,hpop.one,hpop.bounded,fun _ => hd,fun ha => (hnone ha).elim⟩
    · split
      · exact hpop.post_bind hidle hlast hd
      · exact ⟨hpop.before,hpop.after,hpop.running,hpop.cleanup,hpop.single,hpop.done,
          fun _ => h.idle hidle,fun _ => rfl,hpop.one,hpop.bounded,fun _ => hd,fun ha => (hnone ha).elim⟩

theorem accept (h : s.Phased) : s.accept.Phased := by
  unfold Server.accept
  split
  · exact h
  · rename_i hs
    obtain ⟨hstop,hs⟩ := not_or.mp hs
    have hactive : active s.state = true := by simpa using (not_or.mp hs).1
    have hc := (h.running (by simpa using hstop)).1
    exact ⟨h.before,h.after,h.running,h.cleanup,h.single,h.done,h.idle,h.binding,h.one,h.bounded,h.dispatched,
      fun _ => ⟨hactive,hc⟩⟩

/-- The cleanup of a stop that has begun since waits for the handler. -/
theorem publish [CommRing N] (h : s.Phased) : s.publish.Phased := by
  unfold Server.publish
  split
  · rename_i ha
    obtain ⟨hactive,hc⟩ := h.accepting ha
    constructor
    · exact h.before
    · intro hcs
      rw [show s.cleanupStarted = true from hcs] at hc
      cases hc
    · exact h.running
    · exact h.cleanup
    · exact h.single
    · exact h.done
    · intro hidle
      rw [show active s.state = false from hidle] at hactive
      cases hactive
    · exact h.binding
    · exact h.one
    · exact h.bounded
    · exact h.dispatched
    · exact nofun
  · exact h

theorem stops_subset (h : s.Phased) {client : ℕ} (hc : client ∈ s.stops) :
    client ∈ s.sessions ∨ client ∈ s.retiring := by
  cases hs : s.cleanupStarted with
  | false =>
    rw [(h.before hs).2.1] at hc
    cases hc
  | true => exact .inr ((h.after hs).2.1.mem_iff.mpr (List.mem_append_left _ hc))

theorem onClose (h : s.Phased) (client generation : ℕ) : (s.onClose client generation).Phased := by
  unfold Server.onClose
  split
  · exact h
  · exact h.post_closed client generation

variable [CommRing N]

theorem performCleanup (h : s.Phased) (hs : s.stopping = true) (hp : .cleanup ∉ s.posted)
    (ha : s.accepting = false) : s.performCleanup.Phased := by
  have hnone : s.accepting = true → False := by
    rw [ha]
    exact nofun
  unfold Server.performCleanup
  split
  · exact h
  · rename_i hc
    have hc : s.cleanupStarted = false := by simpa using hc
    obtain ⟨hr,hst,hans⟩ := h.before hc
    -- the targets retire; before that nobody was retiring
    split
    · rename_i hempty
      have hempty : s.sessions = [] := hempty
      constructor
      · exact nofun
      · intro _
        refine ⟨hr,?_,fun hne => absurd hempty hne⟩
        change s.sessions.Perm (s.stops ++ s.answers)
        rw [hempty, hst, hans]
        exact .refl _
      · intro hf
        rw [show s.stopping = false from hf] at hs
        cases hs
      · exact fun hm => absurd hm hp
      · exact h.single
      · exact fun _ => rfl
      · exact fun _ => ⟨hr,hempty⟩
      · exact fun _ => rfl
      · exact h.one
      · exact h.bounded
      · exact fun hd => h.dispatched (.inr (hd.resolve_left nofun))
      · exact fun ha => (hnone ha).elim
    · rename_i hne
      have hne : s.sessions ≠ [] := hne
      obtain ⟨objects,heq⟩ := s.retire.modifyAll_eq s.retire.retiring Session.requestStop
      rw [heq]
      constructor
      · exact nofun
      · intro _
        refine ⟨hr,?_,fun _ => rfl⟩
        change s.sessions.Perm (s.stops ++ s.sessions ++ s.answers)
        rw [hst, hans, List.nil_append, List.append_nil]
      · intro hf
        rw [show s.stopping = false from hf] at hs
        cases hs
      · exact fun hm => absurd hm hp
      · exact h.single
      · exact fun _ => rfl
      · exact fun hidle => absurd (h.idle hidle).1 hne
      · exact h.binding
      · exact h.one
      · exact h.bounded
      · exact h.dispatched
      · exact fun ha => (hnone ha).elim

theorem stop (h : s.Phased) : s.stop.Phased := by
  unfold Server.stop
  split
  · exact h
  · rename_i hs
    have hs : s.stopping = false := by simpa using hs
    obtain ⟨hc,hp⟩ := h.running hs
    have hstopping : ({ s with stopping := true } : Server N).Phased :=
      ⟨h.before,h.after,nofun,h.cleanup,h.single,h.done,h.idle,h.binding,h.one,h.bounded,h.dispatched,h.accepting⟩
    obtain ⟨objects,heq⟩ := ({ s with stopping := true } : Server N).modifyAll_eq s.sessions Session.requestStop
    dsimp only
    rw [heq]
    have h := hstopping.objects objects
    split
    · constructor
      · intro hcs
        refine ⟨(h.before hcs).1,(h.before hcs).2.1,?_⟩
        change (s.posted ++ [Handler.cleanup]).filterMap Handler.client? = []
        rw [List.filterMap_append, List.filterMap_cons_none rfl, List.filterMap_nil, List.append_nil]
        exact (h.before hcs).2.2
      · intro hcs
        rw [show s.cleanupStarted = true from hcs] at hc
        cases hc
      · exact nofun
      · exact fun _ => hc
      · change (s.posted ++ [Handler.cleanup]).count .cleanup ≤ 1
        rw [List.count_append, List.count_eq_zero.mpr hp]
        exact le_rfl
      · exact h.done
      · exact h.idle
      · intro hm
        refine h.binding ?_
        obtain hm | hm := List.mem_append.mp hm
        · exact hm
        · cases List.mem_singleton.mp hm
      · change (s.posted ++ [Handler.cleanup]).count (.bind s.generation) ≤ 1
        rw [List.count_append]
        exact h.one
      · intro g hm
        refine h.bounded g ?_
        obtain hm | hm := List.mem_append.mp hm
        · exact hm
        · cases List.mem_singleton.mp hm
      · exact fun hd => h.dispatched (hd.imp_right (fun hm => posted_of_ne hm (by simp)))
      · exact h.accepting
    · rename_i hd
      refine h.performCleanup rfl hp (h.not_accepting (.inl ?_))
      cases hactive : active s.state with
      | false => rfl
      | true => exact absurd (h.dispatched (.inl hactive)) hd

theorem onClosed (h : s.Phased) (client generation : ℕ) : (s.onClosed client generation).Phased := by
  unfold Server.onClosed
  split
  · exact h
  · split
    · obtain ⟨closed,absorbed,heq⟩ := s.absorbSession_eq client
      rw [heq]
      exact (h.totals s.objects closed absorbed s.base).leave _
    · exact h

theorem start (h : s.Phased) (tlsFails : Bool) (hs : s.stopping = true → s.cleanupDone = true) :
    (s.start tlsFails).Phased := by
  unfold Server.start
  split
  · exact h
  · rename_i hi
    have hi : active s.state = false := by simpa using hi
    obtain ⟨hst,hans⟩ := h.empty_of_idle hi
    obtain ⟨hse,hr⟩ := h.idle hi
    have hp : .cleanup ∉ s.posted := by
      intro hm
      cases hstop : s.stopping with
      | false => exact (h.running hstop).2 hm
      | true =>
        have hc := h.cleanup hm
        rw [h.done (hs hstop)] at hc
        cases hc
    have hb : .bind (s.generation + 1) ∉ s.posted := fun hm => absurd (h.bounded _ hm) (by omega)
    -- what is common to a start that comes up and one that does not
    have ha : s.accepting = false := h.not_accepting (.inl hi)
    have hrun : ∀ state dispatched, active state = false →
        ({ s with state := state
                  generation := s.generation + 1
                  runDispatched := dispatched
                  stopping := false
                  cleanupStarted := false
                  cleanupDone := false
                  closedSendAccounting := 0
                  absorbed := []
                  base := s.objects.length } : Server N).Phased := by
      intro state dispatched hstate
      constructor
      · exact fun _ => ⟨hr,hst,hans⟩
      · exact nofun
      · exact fun _ => ⟨rfl,hp⟩
      · exact fun _ => rfl
      · exact h.single
      · exact nofun
      · exact fun _ => ⟨hse,hr⟩
      · exact fun _ => hstate
      · change s.posted.count (.bind (s.generation + 1)) ≤ 1
        rw [List.count_eq_zero.mpr hb]
        omega
      · exact fun g hm => (h.bounded g hm).trans (Nat.le_succ _)
      · intro hd
        obtain hd | hd := hd
        · rw [show active state = true from hd] at hstate
          cases hstate
        · exact absurd hd hb
      · intro haccepting
        rw [show s.accepting = true from haccepting] at ha
        cases ha
    dsimp only
    split
    · exact hrun .error false rfl
    · exact (hrun s.state true hi).post_bind hi hb rfl

/-- An answer takes its session from the retiring ones; the last one ends the cleanup. -/
theorem onRetired (h : s.Phased) (hn : s.retiring.Nodup) {index client : ℕ}
    (hi : s.posted[index]? = some (.retired client)) :
    (({ s with posted := s.posted.eraseIdx index } : Server N).onRetired client).Phased := by
  have hperm := perm_cons_eraseIdx hi
  have hanswers : (client :: (s.posted.eraseIdx index).filterMap Handler.client?).Perm s.answers := by
    have hsome : (Handler.retired client).client? = some client := rfl
    have hmap := hperm.filterMap Handler.client?
    rwa [List.filterMap_cons_some hsome] at hmap
  have hsub := s.posted.eraseIdx_sublist index
  have hc : s.cleanupStarted = true := by
    cases hc : s.cleanupStarted with
    | true => rfl
    | false =>
      rw [(h.before hc).2.2] at hanswers
      cases hanswers.eq_nil
  obtain ⟨hse,hretiring,hlen⟩ := h.after hc
  have hretiring := hretiring.trans ((hanswers.symm.append_left s.stops).trans List.perm_middle)
  have hmem : client ∈ s.retiring := hretiring.mem_iff.mpr List.mem_cons_self
  have hsplit := perm_filter_ne hn hmem
  have hrest := (List.perm_cons client).mp (hsplit.symm.trans hretiring)
  have hcount : s.remaining - 1 = (s.retiring.filter (· ≠ client)).length := by
    rw [hlen (List.ne_nil_of_mem hmem), hsplit.length_eq]
    rfl
  obtain ⟨closed,absorbed,heq⟩ :=
    ({ s with posted := s.posted.eraseIdx index } : Server N).absorbSession_eq client
  have hafter : ({ s with posted := s.posted.eraseIdx index
                          closedSendAccounting := closed
                          absorbed := absorbed
                          retiring := s.retiring.filter (· ≠ client)
                          remaining := s.remaining - 1 } : Server N).Phased := by
    constructor
    · intro hf
      rw [show s.cleanupStarted = false from hf] at hc
      cases hc
    · exact fun _ => ⟨hse,hrest,fun _ => hcount⟩
    · exact fun hs => ⟨(h.running hs).1,fun hm => (h.running hs).2 (hsub.mem hm)⟩
    · exact fun hm => h.cleanup (hsub.mem hm)
    · exact (hsub.count_le _).trans h.single
    · exact h.done
    · refine fun hidle => ⟨(h.idle hidle).1,?_⟩
      change s.retiring.filter (· ≠ client) = []
      rw [(h.idle hidle).2]
      rfl
    · exact fun hm => h.binding (hsub.mem hm)
    · exact (hsub.count_le _).trans h.one
    · exact fun g hm => h.bounded g (hsub.mem hm)
    · exact fun hd => h.dispatched (hd.imp_right hsub.mem)
    · exact h.accepting
  unfold Server.onRetired Server.release Server.countDown
  rw [if_pos hmem, heq]
  split
  · rename_i hzero
    refine hafter.finishCleanup hc (List.eq_nil_of_length_eq_zero ?_)
    rw [← hcount]
    exact hzero
  · exact hafter

/-- A session that was told to stop answers. -/
theorem finishStop (h : s.Phased) {index client : ℕ} (hi : s.stops[index]? = some client) :
    ((({ s with stops := s.stops.eraseIdx index } : Server N).modify client Session.doClose).post
      (.retired client)).Phased := by
  have hperm := perm_cons_eraseIdx hi
  have hc : s.cleanupStarted = true := by
    cases hc : s.cleanupStarted with
    | true => rfl
    | false =>
      rw [(h.before hc).2.1] at hperm
      cases hperm.eq_nil
  constructor
  · intro hf
    rw [show s.cleanupStarted = false from hf] at hc
    cases hc
  · intro _
    obtain ⟨hse,hretiring,hlen⟩ := h.after hc
    refine ⟨hse,hretiring.trans ?_,hlen⟩
    change (s.stops ++ s.answers).Perm (s.stops.eraseIdx index ++
      (s.posted ++ [Handler.retired client]).filterMap Handler.client?)
    rw [List.filterMap_append, ← List.append_assoc]
    exact (hperm.symm.append_right _).trans (List.perm_append_singleton client _).symm
  · exact fun hs => ⟨(h.running hs).1,fun hm => (h.running hs).2 (posted_of_ne hm (by simp))⟩
  · exact fun hm => h.cleanup (posted_of_ne hm (by simp))
  · change (s.posted ++ [Handler.retired client]).count .cleanup ≤ 1
    rw [List.count_append]
    exact h.single
  · exact h.done
  · exact h.idle
  · exact fun hm => h.binding (posted_of_ne hm (by simp))
  · change (s.posted ++ [Handler.retired client]).count (.bind s.generation) ≤ 1
    rw [List.count_append]
    exact h.one
  · exact fun g hm => h.bounded g (posted_of_ne hm (by simp))
  · exact fun hd => h.dispatched (hd.imp_right (fun hm => posted_of_ne hm (by simp)))
  · exact h.accepting

theorem handler (h : s.Phased) (hn : s.retiring.Nodup) {index : ℕ} {handler : Handler}
    (hi : s.posted[index]? = some handler) (ha : s.accepting = false) (bound retries : Bool) :
    (({ s with posted := s.posted.eraseIdx index } : Server N).runHandler bound retries handler).Phased := by
  have hm := List.mem_of_getElem? hi
  cases handler with
  | bind g => exact h.attemptPortBinding bound retries hi ha
  | closed client g => exact (h.pop hi rfl).onClosed client g
  | retired client => exact h.onRetired hn hi
  | cleanup =>
    have hc := h.cleanup hm
    have hs : s.stopping = true := by
      cases hs : s.stopping with
      | true => rfl
      | false => exact absurd hm (h.running hs).2
    exact (h.pop hi rfl).performCleanup hs (not_mem_eraseIdx hi h.single) ha

/-- Every step of a caller that starts a server only when no stop is unfinished. -/
theorem step (h : s.Phased) (hn : s.retiring.Nodup) {op : ServerOp}
    (hs : ∀ tlsFails, op = .start tlsFails → s.stopping = true → s.cleanupDone = true) : (s.step op).Phased := by
  cases op with
  | start tlsFails => exact h.start tlsFails (hs tlsFails rfl)
  | stop => exact h.stop
  | resetStats => exact h.totals _ _ _ _
  | accept => exact h.accept
  | publish => exact h.publish
  | write client op counters active =>
    unfold Server.step
    dsimp only
    split
    · exact h
    · split
      · exact h.objects _
      · exact h
  | lose client =>
    unfold Server.step
    dsimp only
    split
    · exact h
    · split
      · exact h.objects _
      · exact h
  | close client =>
    unfold Server.step Server.close
    dsimp only
    split
    · exact h
    · rename_i v _
      split
      · exact h
      · exact (h.objects _).onClose client v.generation
  | fireClose client =>
    unfold Server.step
    dsimp only
    split
    · exact h
    · rename_i v _
      split
      · exact h.onClose client v.generation
      · exact h
  | finishStop index =>
    unfold Server.step
    dsimp only
    split
    · exact h
    · rename_i client hi
      exact h.finishStop hi
  | handler index bound retries =>
    unfold Server.step
    dsimp only
    split
    · exact h
    · rename_i ha
      split
      · exact h
      · rename_i handler hi
        exact h.handler hn hi (by simpa using ha) bound retries

end Phased
end Server
end Wirestead.Transport.TcpServer
