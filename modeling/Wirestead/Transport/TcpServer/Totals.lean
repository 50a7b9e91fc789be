import Wirestead.Diagnostics.LedgerGrowth
import Wirestead.Transport.TcpServer.Phases

/-! # Every session counts once

A session that was accepted since the last start is a target, is retiring, or has been
absorbed, and only one of these. Its ledger does not change after it was absorbed. So
the totals of the server are the sums over the sessions.
-/
namespace Wirestead.Transport.TcpServer
open Diagnostics TcpClient

namespace Session
variable {N : Type*} [CommRing N] {v : Session N}

/-- The ledger is that of the history. -/
def Faithful (v : Session N) : Prop := v.ledger = (Ledger.new.run v.history).1

theorem Faithful.measured (h : v.Faithful) : v.measured = v.snapshot := by
  unfold Session.measured
  rw [← h]
  rfl

theorem Faithful.apply (h : v.Faithful) (op : LedgerOp) : (v.apply op).Faithful := by
  change (v.ledger.step op).1 = (Ledger.new.run (v.history ++ [op])).1
  rw [Ledger.run_concat, ← h]

/-- What a step does to a session: it does not open again, and the ledger keeps to the
history. -/
structure Onward (v w : Session N) : Prop where
  cleanupDone : v.cleanupDone = true → w.cleanupDone = true
  shut : v.isOpen = false → w.isOpen = false
  faithful : v.Faithful → w.Faithful

theorem onward_apply (op : LedgerOp) (counters : Counters) (active : Bool) :
    v.Onward { v.apply op with counters := counters, backpressureActive := active } :=
  ⟨id,id,fun h => h.apply op⟩

theorem onward_end (cause : Cause) : v.Onward { v.apply (.endAll cause) with closing := true } where
  cleanupDone := id
  shut _ := Bool.and_false _
  faithful h := h.apply _

theorem onward_doClose : v.Onward v.doClose := by
  unfold doClose
  split
  · exact ⟨id,id,id⟩
  · exact ⟨fun _ => rfl,fun _ => rfl,fun h => h.apply _⟩

theorem doClose_shut : v.doClose.cleanupDone = true ∧ (v.cleanupDone = true → v.isOpen = false) →
    v.doClose.isOpen = false := by
  rintro ⟨-,hv⟩
  unfold doClose
  split
  · rename_i hd
    exact hv hd
  · rfl

theorem doClose_cleanupDone (v : Session N) : v.doClose.cleanupDone = true := by
  unfold doClose
  split
  · rename_i hd
    exact hd
  · rfl

end Session

namespace Server
variable {N : Type*} [CommRing N] {s : Server N}

def measuredAt (s : Server N) (client : ℕ) : SendAccounting N :=
  ((s.objects[client]?).map Session.measured).getD 0

/-- The session has been closed. -/
def Shut (s : Server N) (client : ℕ) : Prop := ∃ v, s.objects[client]? = some v ∧ v.cleanupDone = true

/-- Where the sessions are, and what is known of each place. -/
structure Kept (s : Server N) : Prop where
  base_le : s.base ≤ s.objects.length
  places : (s.sessions ++ s.retiring ++ s.absorbed).Perm (List.range' s.base (s.objects.length - s.base))
  faithful : ∀ client v, s.objects[client]? = some v → client ∈ s.sessions ∨ client ∈ s.retiring → v.Faithful
  closed : s.closedSendAccounting = (s.absorbed.map s.measuredAt).sum
  shut : ∀ (client : ℕ) v, s.objects[client]? = some v → v.cleanupDone = true → v.isOpen = false
  gone : ∀ client ∈ s.absorbed, s.Shut client
  told : ∀ client g, .closed client g ∈ s.posted → s.Shut client
  answered : ∀ client, .retired client ∈ s.posted → s.Shut client

/-- A start is called when no stop is unfinished. -/
def Serial : Server N → List ServerOp → Prop
  | _, [] => True
  | s, op :: ops => (∀ tlsFails, op = .start tlsFails → s.stopping = true → s.cleanupDone = true) ∧
      Serial (s.step op) ops

namespace Kept

theorem nodup (h : s.Kept) : (s.sessions ++ s.retiring ++ s.absorbed).Nodup :=
  h.places.nodup_iff.mpr List.nodup_range'

theorem lt (h : s.Kept) {client : ℕ} (hc : client ∈ s.sessions ++ s.retiring ++ s.absorbed) :
    s.base ≤ client ∧ client < s.objects.length := by
  have hm := List.mem_range'.mp (h.places.mem_iff.mp hc)
  have hb := h.base_le
  omega

/-- An open session, or one still in a map, has not been absorbed. -/
theorem not_absorbed_of_mem (h : s.Kept) {client : ℕ} (hc : client ∈ s.sessions ∨ client ∈ s.retiring) :
    client ∉ s.absorbed := by
  have hd := List.disjoint_of_nodup_append h.nodup
  exact hd (List.mem_append.mpr hc)

theorem not_absorbed_of_open (h : s.Kept) {client : ℕ} {v : Session N} (hv : s.objects[client]? = some v)
    (hd : v.cleanupDone = false) : client ∉ s.absorbed := by
  intro hm
  obtain ⟨w,hw,hdone⟩ := h.gone client hm
  rw [hv] at hw
  cases hw
  rw [hdone] at hd
  cases hd

omit [CommRing N] in
theorem modify_getElem? (client k : ℕ) (f : Session N → Session N) :
    (s.modify client f).objects[k]? = (s.objects[k]?).map (fun v => if client = k then f v else v) := by
  change (s.objects.modify client f)[k]? = _
  rw [List.getElem?_modify]
  by_cases hk : client = k
  · simp [hk]
  · simp [hk]

/-- A step of one session that was not absorbed. -/
theorem modify (h : s.Kept) {client : ℕ} {f : Session N → Session N} (hc : client ∉ s.absorbed)
    (hf : ∀ v, s.objects[client]? = some v → v.Onward (f v))
    (hshut : ∀ v, s.objects[client]? = some v → (f v).cleanupDone = true → (f v).isOpen = false) :
    (s.modify client f).Kept := by
  have hcase : ∀ k w, (s.modify client f).objects[k]? = some w →
      (k ≠ client ∧ s.objects[k]? = some w) ∨ k = client ∧ ∃ v, s.objects[client]? = some v ∧ w = f v := by
    intro k w hw
    rw [modify_getElem?] at hw
    obtain ⟨v,hv,rfl⟩ := Option.map_eq_some_iff.mp hw
    by_cases hk : client = k
    · subst hk
      rw [if_pos rfl]
      exact .inr ⟨rfl,v,hv,rfl⟩
    · rw [if_neg hk]
      exact .inl ⟨Ne.symm hk,hv⟩
  have hgone : ∀ k, s.Shut k → (s.modify client f).Shut k := by
    rintro k ⟨v,hv,hd⟩
    refine ⟨_,by rw [modify_getElem?, hv, Option.map_some],?_⟩
    split
    · rename_i hk
      exact (hf v (hk ▸ hv)).cleanupDone hd
    · exact hd
  have hlen : (s.modify client f).objects.length = s.objects.length := List.length_modify ..
  constructor
  · rw [hlen]
    exact h.base_le
  · rw [hlen]
    exact h.places
  · intro k w hw hm
    obtain ⟨-,hv⟩ | ⟨rfl,v,hv,rfl⟩ := hcase k w hw
    · exact h.faithful k w hv hm
    · exact (hf v hv).faithful (h.faithful k v hv hm)
  · change s.closedSendAccounting = _
    rw [h.closed]
    refine congrArg List.sum (List.map_congr_left (fun k hk => ?_))
    have hk : ¬ client = k := fun hck => hc (hck ▸ hk)
    unfold measuredAt
    rw [modify_getElem?]
    simp [hk]
  · intro k w hw hd
    obtain ⟨-,hv⟩ | ⟨rfl,v,hv,rfl⟩ := hcase k w hw
    · exact h.shut k w hv hd
    · exact hshut v hv hd
  · exact fun k hk => hgone k (h.gone k hk)
  · exact fun k g hk => hgone k (h.told k g hk)
  · exact fun k hk => hgone k (h.answered k hk)

theorem requestStop (h : s.Kept) {client : ℕ} (hc : client ∉ s.absorbed) :
    (s.modify client Session.requestStop).Kept :=
  h.modify hc (fun v _ => v.onward_end _) (fun _ _ _ => Bool.and_false _)

theorem requestStopAll (h : s.Kept) {clients : List ℕ} (hc : ∀ client ∈ clients, client ∉ s.absorbed) :
    (s.modifyAll clients Session.requestStop).Kept := by
  induction clients generalizing s with
  | nil => exact h
  | cons client clients ih =>
    refine ih (h.requestStop (hc client List.mem_cons_self)) ?_
    exact fun k hk => hc k (List.mem_cons_of_mem _ hk)

theorem doClose (h : s.Kept) (client : ℕ) : (s.modify client Session.doClose).Kept := by
  cases hv : s.objects[client]? with
  | none =>
    refine h.modify (fun hm => ?_) (fun w hw => ?_) (fun w hw => ?_)
    · obtain ⟨w,hw,-⟩ := h.gone client hm
      rw [hv] at hw
      cases hw
    · rw [hv] at hw
      cases hw
    · rw [hv] at hw
      cases hw
  | some v =>
    cases hd : v.cleanupDone with
    | false =>
      refine h.modify (h.not_absorbed_of_open hv hd) (fun v _ => v.onward_doClose) ?_
      exact fun w hw _ => w.doClose_shut ⟨w.doClose_cleanupDone,h.shut client w hw⟩
    | true =>
      -- a session that is closed already stays as it is
      have hsame : s.objects.modify client Session.doClose = s.objects := by
        refine List.ext_getElem? (fun k => ?_)
        rw [List.getElem?_modify]
        by_cases hk : client = k
        · subst hk
          simp [hv, Session.doClose, hd]
        · simp [hk]
      unfold Server.modify
      rw [hsame]
      exact h

/-- What is posted does not matter, as long as it tells of closed sessions. -/
theorem repost (h : s.Kept) {posted : List Handler} (htold : ∀ client g, .closed client g ∈ posted → s.Shut client)
    (hanswered : ∀ client, .retired client ∈ posted → s.Shut client) :
    ({ s with posted := posted } : Server N).Kept :=
  ⟨h.base_le,h.places,h.faithful,h.closed,h.shut,h.gone,htold,hanswered⟩

theorem pop (h : s.Kept) (index : ℕ) : ({ s with posted := s.posted.eraseIdx index } : Server N).Kept :=
  h.repost (fun client g hm => h.told client g (List.mem_of_mem_eraseIdx hm))
    (fun client hm => h.answered client (List.mem_of_mem_eraseIdx hm))

/-- A session is posted only when it has been closed. -/
theorem post (h : s.Kept) {handler : Handler} (htold : ∀ client g, handler = .closed client g → s.Shut client)
    (hanswered : ∀ client, handler = .retired client → s.Shut client) : (s.post handler).Kept := by
  refine h.repost (fun client g hm => ?_) (fun client hm => ?_)
  · obtain hm | hm := List.mem_append.mp hm
    · exact h.told client g hm
    · exact htold client g (List.mem_singleton.mp hm).symm
  · obtain hm | hm := List.mem_append.mp hm
    · exact h.answered client hm
    · exact hanswered client (List.mem_singleton.mp hm).symm

theorem finishCleanup (h : s.Kept) : s.finishCleanup.Kept :=
  ⟨h.base_le,h.places,h.faithful,h.closed,h.shut,h.gone,h.told,h.answered⟩

theorem retire (h : s.Kept) : s.retire.Kept where
  base_le := h.base_le
  places := (List.perm_append_comm.append_right s.absorbed).trans h.places
  faithful client v hv hm := h.faithful client v hv hm.symm
  closed := h.closed
  shut := h.shut
  gone := h.gone
  told := h.told
  answered := h.answered

theorem performCleanup (h : s.Kept) : s.performCleanup.Kept := by
  unfold Server.performCleanup
  split
  · exact h
  · split
    · exact h.retire.finishCleanup
    · have hstop := h.retire.requestStopAll (fun client hc => h.retire.not_absorbed_of_mem (.inr hc))
      exact ⟨hstop.base_le,hstop.places,hstop.faithful,hstop.closed,hstop.shut,hstop.gone,hstop.told,hstop.answered⟩

theorem stop (h : s.Kept) : s.stop.Kept := by
  unfold Server.stop
  split
  · exact h
  · have hstopping : ({ s with stopping := true } : Server N).Kept :=
      ⟨h.base_le,h.places,h.faithful,h.closed,h.shut,h.gone,h.told,h.answered⟩
    have hstop := hstopping.requestStopAll (fun client hc => h.not_absorbed_of_mem (.inl hc))
    dsimp only
    split
    · exact hstop.post nofun nofun
    · exact hstop.performCleanup

/-- The places are empty, so the sessions count from here on. -/
theorem start (h : s.Kept) (hp : s.Phased) (tlsFails : Bool) : (s.start tlsFails).Kept := by
  unfold Server.start
  split
  · exact h
  · rename_i hi
    obtain ⟨hse,hr⟩ := hp.idle (by simpa using hi)
    have hrun : ∀ state dispatched,
        ({ s with state := state
                  generation := s.generation + 1
                  runDispatched := dispatched
                  stopping := false
                  cleanupStarted := false
                  cleanupDone := false
                  closedSendAccounting := 0
                  absorbed := []
                  base := s.objects.length } : Server N).Kept := by
      intro state dispatched
      constructor
      · exact le_rfl
      · change (s.sessions ++ s.retiring ++ []).Perm (List.range' s.objects.length (s.objects.length - s.objects.length))
        rw [hse, hr, Nat.sub_self]
        exact .refl _
      · exact h.faithful
      · rfl
      · exact h.shut
      · exact nofun
      · exact h.told
      · exact h.answered
    dsimp only
    split
    · exact hrun .error false
    · exact (hrun s.state true).post nofun nofun

theorem accept (h : s.Kept) : s.accept.Kept := by
  unfold Server.accept
  split
  · exact h
  · exact ⟨h.base_le,h.places,h.faithful,h.closed,h.shut,h.gone,h.told,h.answered⟩

theorem publish (h : s.Kept) : s.publish.Kept := by
  unfold Server.publish
  split
  · have hb := h.base_le
    have hget : ∀ k v, (s.objects ++ [Session.new s.generation])[k]? = some v →
        s.objects[k]? = some v ∨ k = s.objects.length ∧ v = .new s.generation := by
      intro k v hv
      rw [List.getElem?_append] at hv
      split at hv
      · exact .inl hv
      · rename_i hk
        have hk' : k - s.objects.length = 0 := by
          have hlt := (List.getElem?_eq_some_iff.mp hv).1
          simpa using hlt
        rw [hk'] at hv
        exact .inr ⟨by omega,(Option.some.inj hv).symm⟩
    have hshut : ∀ client, s.Shut client →
        ({ s with objects := s.objects ++ [.new s.generation] } : Server N).Shut client := by
      rintro client ⟨v,hv,hd⟩
      refine ⟨v,?_,hd⟩
      change (s.objects ++ [Session.new s.generation])[client]? = some v
      rw [List.getElem?_append_left (List.getElem?_eq_some_iff.mp hv).1]
      exact hv
    constructor
    · change s.base ≤ (s.objects ++ [Session.new s.generation]).length
      rw [List.length_append]
      omega
    · change (s.sessions ++ [s.objects.length] ++ s.retiring ++ s.absorbed).Perm
        (List.range' s.base ((s.objects ++ [Session.new s.generation]).length - s.base))
      have hlen : (s.objects ++ [Session.new s.generation]).length - s.base = s.objects.length - s.base + 1 := by
        rw [List.length_append, List.length_singleton]
        omega
      have hlast : s.base + (s.objects.length - s.base) = s.objects.length := by omega
      rw [hlen, List.range'_1_concat, hlast, List.append_assoc, List.append_assoc, List.singleton_append]
      refine List.perm_middle.trans ((List.Perm.cons _ ?_).trans (List.perm_append_singleton _ _).symm)
      rw [← List.append_assoc]
      exact h.places
    · intro k v hv hm
      obtain hv | ⟨rfl,rfl⟩ := hget k v hv
      · refine h.faithful k v hv (hm.imp_left (fun hk => ?_))
        have hlt := (List.getElem?_eq_some_iff.mp hv).1
        obtain hk | hk := List.mem_append.mp hk
        · exact hk
        · rw [List.mem_singleton.mp hk] at hlt
          exact absurd hlt (lt_irrefl _)
      · rfl
    · change s.closedSendAccounting = _
      rw [h.closed]
      refine congrArg List.sum (List.map_congr_left (fun k hk => ?_))
      have hlt := (h.lt (List.mem_append_right _ hk)).2
      unfold measuredAt
      change _ = (((s.objects ++ [Session.new s.generation])[k]?).map Session.measured).getD 0
      rw [List.getElem?_append_left hlt]
    · intro k v hv hd
      obtain hv | ⟨rfl,rfl⟩ := hget k v hv
      · exact h.shut k v hv hd
      · cases hd
    · exact fun client hc => hshut client (h.gone client hc)
    · exact fun client g hc => hshut client (h.told client g hc)
    · exact fun client hc => hshut client (h.answered client hc)
  · exact h

/-- A closed session leaves its map, and the server keeps the totals. -/
theorem absorb (h : s.Kept) {client : ℕ} {sessions retiring : List ℕ} (hshut : s.Shut client)
    (hperm : (s.sessions ++ s.retiring).Perm (client :: (sessions ++ retiring))) :
    ({ s.absorbSession client with sessions := sessions, retiring := retiring } : Server N).Kept := by
  obtain ⟨v,hv,hd⟩ := hshut
  have hmem : ∀ k, k ∈ sessions ∨ k ∈ retiring → k ∈ s.sessions ∨ k ∈ s.retiring := by
    intro k hk
    exact List.mem_append.mp (hperm.mem_iff.mpr (List.mem_cons_of_mem _ (List.mem_append.mpr hk)))
  have hclient : client ∈ s.sessions ∨ client ∈ s.retiring :=
    List.mem_append.mp (hperm.mem_iff.mpr List.mem_cons_self)
  have heq : s.absorbSession client =
      { s with closedSendAccounting := s.closedSendAccounting + v.snapshot, absorbed := s.absorbed ++ [client] } := by
    unfold Server.absorbSession
    rw [hv]
  rw [heq]
  constructor
  · exact h.base_le
  · refine List.Perm.trans ?_ h.places
    change (sessions ++ retiring ++ (s.absorbed ++ [client])).Perm _
    rw [← List.append_assoc]
    exact (List.perm_append_singleton _ _).trans (hperm.symm.append_right s.absorbed)
  · exact fun k w hw hk => h.faithful k w hw (hmem k hk)
  · change s.closedSendAccounting + v.snapshot = ((s.absorbed ++ [client]).map s.measuredAt).sum
    rw [List.map_append, List.sum_append, ← h.closed, List.map_singleton, List.sum_singleton, measuredAt, hv]
    exact congrArg _ (h.faithful client v hv hclient).measured.symm
  · exact h.shut
  · intro k hk
    obtain hk | hk := List.mem_append.mp hk
    · exact h.gone k hk
    · rw [List.mem_singleton.mp hk]
      exact ⟨v,hv,hd⟩
  · exact h.told
  · exact h.answered

theorem onClosed (h : s.Kept) {client : ℕ} (generation : ℕ) (hshut : s.Shut client) :
    (s.onClosed client generation).Kept := by
  unfold Server.onClosed
  split
  · exact h
  · split
    · rename_i hm
      have hn : s.sessions.Nodup := (List.nodup_append.mp (List.nodup_append.mp h.nodup).1).1
      have hkept := h.absorb hshut ((perm_filter_ne hn hm).append_right s.retiring)
      obtain ⟨closed,absorbed,heq⟩ := s.absorbSession_eq client
      rw [heq] at hkept ⊢
      exact hkept
    · exact h

theorem release (h : s.Kept) {client : ℕ} (hshut : s.Shut client) : (s.release client).Kept := by
  unfold Server.release
  split
  · rename_i hm
    have hn : s.retiring.Nodup := (List.nodup_append.mp (List.nodup_append.mp h.nodup).1).2.1
    have hkept := h.absorb hshut (((perm_filter_ne hn hm).append_left s.sessions).trans List.perm_middle)
    obtain ⟨closed,absorbed,heq⟩ := s.absorbSession_eq client
    rw [heq] at hkept ⊢
    exact hkept
  · exact h

theorem countDown (h : s.Kept) : s.countDown.Kept := by
  unfold Server.countDown
  split
  · exact ⟨h.base_le,h.places,h.faithful,h.closed,h.shut,h.gone,h.told,h.answered⟩
  · exact ⟨h.base_le,h.places,h.faithful,h.closed,h.shut,h.gone,h.told,h.answered⟩

theorem attemptPortBinding (h : s.Kept) (g : ℕ) (bound retries : Bool) :
    (s.attemptPortBinding g bound retries).Kept := by
  unfold Server.attemptPortBinding
  split
  · exact h
  · split
    · exact ⟨h.base_le,h.places,h.faithful,h.closed,h.shut,h.gone,h.told,h.answered⟩
    · split
      · exact h.post nofun nofun
      · exact ⟨h.base_le,h.places,h.faithful,h.closed,h.shut,h.gone,h.told,h.answered⟩

theorem resetStats (h : s.Kept) : s.resetStats.Kept := by
  have hget : ∀ k w, s.resetStats.objects[k]? = some w → ∃ v, s.objects[k]? = some v ∧
      w.cleanupDone = v.cleanupDone ∧ w.isOpen = v.isOpen ∧ w.history = v.history ++ [.reset] ∧
      (k ∈ s.sessions ∨ k ∈ s.retiring → w.ledger = v.ledger.reset) := by
    intro k w hw
    change (s.objects.mapIdx _)[k]? = some w at hw
    rw [List.getElem?_mapIdx] at hw
    obtain ⟨v,hv,rfl⟩ := Option.map_eq_some_iff.mp hw
    refine ⟨v,hv,?_⟩
    dsimp only
    split
    · exact ⟨rfl,rfl,rfl,fun _ => rfl⟩
    · rename_i hk
      exact ⟨rfl,rfl,rfl,fun hm => absurd hm hk⟩
  have hlen : s.resetStats.objects.length = s.objects.length := List.length_mapIdx
  have hshut : ∀ k, s.Shut k → s.resetStats.Shut k := by
    rintro k ⟨v,hv,hd⟩
    have hlt := (List.getElem?_eq_some_iff.mp hv).1
    have hw := List.getElem?_eq_getElem (hlen ▸ hlt)
    obtain ⟨v',hv',hdone,-⟩ := hget k _ hw
    rw [hv] at hv'
    cases hv'
    exact ⟨_,hw,hdone.trans hd⟩
  constructor
  · rw [hlen]
    exact h.base_le
  · rw [hlen]
    exact h.places
  · intro k w hw hm
    obtain ⟨v,hv,-,-,hhist,hledger⟩ := hget k w hw
    have hfaithful := (h.faithful k v hv hm).apply .reset
    unfold Session.Faithful at hfaithful ⊢
    rw [hhist, hledger hm]
    exact hfaithful
  · refine (List.sum_eq_zero ?_).symm
    intro x hx
    obtain ⟨k,-,rfl⟩ := List.mem_map.mp hx
    unfold measuredAt
    cases hw : s.resetStats.objects[k]? with
    | none => rfl
    | some w =>
      obtain ⟨v,-,-,-,hhist,-⟩ := hget k w hw
      change w.measured = 0
      unfold Session.measured
      rw [hhist, Ledger.run_concat]
      rfl
  · intro k w hw hd
    obtain ⟨v,hv,hdone,hopen,-⟩ := hget k w hw
    rw [hopen]
    exact h.shut k v hv (hdone ▸ hd)
  · exact fun k hk => hshut k (h.gone k hk)
  · exact fun k g hk => hshut k (h.told k g hk)
  · exact fun k hk => hshut k (h.answered k hk)

theorem onClose (h : s.Kept) {client : ℕ} (generation : ℕ) (hshut : s.Shut client) :
    (s.onClose client generation).Kept := by
  unfold Server.onClose
  split
  · exact h
  · refine h.post (fun c g hc => ?_) nofun
    cases hc
    exact hshut

theorem shut_doClose {client : ℕ} {v : Session N} (hv : s.objects[client]? = some v) :
    (s.modify client Session.doClose).Shut client := by
  refine ⟨_,by rw [modify_getElem?, hv, Option.map_some],?_⟩
  rw [if_pos rfl]
  exact v.doClose_cleanupDone

theorem close (h : s.Kept) (client : ℕ) : (s.close client).Kept := by
  unfold Server.close
  split
  · exact h
  · rename_i v hv
    split
    · exact h
    · exact (h.doClose client).onClose v.generation (shut_doClose hv)

theorem finishStop (h : s.Kept) {index client : ℕ} (hc : client ∈ s.sessions ∨ client ∈ s.retiring) :
    ((({ s with stops := s.stops.eraseIdx index } : Server N).modify client Session.doClose).post
      (.retired client)).Kept := by
  have hlt := (h.lt (List.mem_append_left s.absorbed (List.mem_append.mpr hc))).2
  have hkept : ({ s with stops := s.stops.eraseIdx index } : Server N).Kept :=
    ⟨h.base_le,h.places,h.faithful,h.closed,h.shut,h.gone,h.told,h.answered⟩
  refine (hkept.doClose client).post nofun (fun c hpost => ?_)
  cases hpost
  exact shut_doClose (List.getElem?_eq_getElem hlt)

/-- The handlers of the strand. -/
theorem handler (h : s.Kept) {index : ℕ} {handler : Handler} (hi : s.posted[index]? = some handler)
    (bound retries : Bool) :
    (({ s with posted := s.posted.eraseIdx index } : Server N).runHandler bound retries handler).Kept := by
  have hm := List.mem_of_getElem? hi
  cases handler with
  | bind g => exact (h.pop index).attemptPortBinding g bound retries
  | closed client g => exact (h.pop index).onClosed g (h.told client g hm)
  | cleanup => exact (h.pop index).performCleanup
  | retired client => exact ((h.pop index).release (h.answered client hm)).countDown

/-- Every step keeps the sessions in their places. -/
theorem step (h : s.Kept) (hp : s.Phased) (op : ServerOp) : (s.step op).Kept := by
  cases op with
  | start tlsFails => exact h.start hp tlsFails
  | stop => exact h.stop
  | resetStats => exact h.resetStats
  | accept => exact h.accept
  | publish => exact h.publish
  | write client op counters active =>
    unfold Server.step
    dsimp only
    split
    · exact h
    · rename_i v hv
      split
      · rename_i hopen
        obtain ⟨hopen,-⟩ := (Bool.and_eq_true _ _).mp hopen
        have hd : v.cleanupDone = false := by
          refine Bool.eq_false_iff.mpr (fun hd => ?_)
          rw [h.shut client v hv hd] at hopen
          cases hopen
        refine h.modify (h.not_absorbed_of_open hv hd) (fun w _ => w.onward_apply op counters active) ?_
        exact fun w hw => h.shut client w hw
      · exact h
  | lose client =>
    unfold Server.step
    dsimp only
    split
    · exact h
    · rename_i v hv
      split
      · rename_i hopen
        have hd : v.cleanupDone = false := by
          refine Bool.eq_false_iff.mpr (fun hd => ?_)
          rw [h.shut client v hv hd] at hopen
          cases hopen
        exact h.modify (h.not_absorbed_of_open hv hd) (fun w _ => w.onward_end _) (fun _ _ _ => Bool.and_false _)
      · exact h
  | close client => exact h.close client
  | fireClose client =>
    unfold Server.step
    dsimp only
    split
    · exact h
    · rename_i v hv
      split
      · rename_i hd
        exact h.onClose v.generation ⟨v,hv,hd⟩
      · exact h
  | finishStop index =>
    unfold Server.step
    dsimp only
    split
    · exact h
    · rename_i client hi
      exact h.finishStop (hp.stops_subset (List.mem_of_getElem? hi))
  | handler index bound retries =>
    unfold Server.step
    dsimp only
    split
    · exact h
    · split
      · exact h
      · rename_i handler hi
        exact h.handler hi bound retries

theorem run (h : s.Kept) (hp : s.Phased) {ops : List ServerOp} (hs : Serial s ops) :
    (s.run ops).Kept ∧ (s.run ops).Phased := by
  induction ops generalizing s with
  | nil => exact ⟨h,hp⟩
  | cons op ops ih =>
    have hn : s.retiring.Nodup := (List.nodup_append.mp (List.nodup_append.mp h.nodup).1).2.1
    exact ih (h.step hp op) (hp.step hn hs.1) hs.2

end Kept

theorem kept_init : (init : Server N).Kept :=
  ⟨le_rfl,.refl _,nofun,rfl,nofun,nofun,nofun,nofun⟩

theorem phased_init : (init : Server N).Phased :=
  ⟨fun _ => ⟨rfl,rfl,rfl⟩,nofun,fun _ => ⟨rfl,nofun⟩,nofun,Nat.zero_le _,nofun,fun _ => ⟨rfl,rfl⟩,nofun,
    Nat.zero_le _,nofun,nofun,nofun⟩

/-- The sessions since the last start. -/
def accepted (s : Server N) : List ℕ := List.range' s.base (s.objects.length - s.base)

/-- Every session is in one of the three places, and the totals are the sums over the
sessions. -/
structure CountsOnce (s : Server N) : Prop where
  places : (s.sessions ++ s.retiring ++ s.absorbed).Perm s.accepted
  live : ∀ client v, s.objects[client]? = some v → client ∈ s.sessions ∨ client ∈ s.retiring →
    v.snapshot = v.measured
  closed : s.closedSendAccounting = (s.absorbed.map s.measuredAt).sum
  sum : s.stats = (s.accepted.map s.measuredAt).sum

theorem Kept.countsOnce (h : s.Kept) : s.CountsOnce := by
  refine ⟨h.places,fun client v hv hm => (h.faithful client v hv hm).measured.symm,h.closed,?_⟩
  have hplace : ∀ clients : List ℕ, (∀ client ∈ clients, client ∈ s.sessions ∨ client ∈ s.retiring) →
      (clients.map (fun client => ((s.objects[client]?).map Session.snapshot).getD 0)).sum =
        (clients.map s.measuredAt).sum := by
    intro clients hc
    refine congrArg List.sum (List.map_congr_left (fun client hm => ?_))
    unfold measuredAt
    cases hv : s.objects[client]? with
    | none => rfl
    | some v => exact (h.faithful client v hv (hc client hm)).measured.symm
  unfold stats accepted
  dsimp only
  rw [hplace s.sessions (fun _ => .inl), hplace s.retiring (fun _ => .inr), h.closed]
  rw [← (h.places.map s.measuredAt).sum_eq, List.map_append, List.map_append, List.sum_append, List.sum_append]
  abel

/-- The operation neither resets the totals nor takes an admission back. -/
def keepsTotals : ServerOp → Bool
  | .start _ => false
  | .resetStats => false
  | .write _ op _ _ => op.keepsCounts
  | _ => true

/-- The counts of every session grow, and sessions are only added. -/
structure Extends (s t : Server ℤ) : Prop where
  base : t.base = s.base
  length : s.objects.length ≤ t.objects.length
  grows : ∀ client, (s.measuredAt client).Grows (t.measuredAt client)

end Server

namespace Session

theorem measured_apply (v : Session ℤ) {op : LedgerOp} (h : op.keepsCounts = true) :
    v.measured.Grows (v.apply op).measured := by
  have hrun := Ledger.Valid.step_grows (Ledger.valid_new.run v.history).1.valid h
  rw [← Ledger.run_concat] at hrun
  exact hrun

theorem measured_doClose (v : Session ℤ) : v.measured.Grows v.doClose.measured := by
  unfold doClose
  split
  · exact .refl _
  · exact v.measured_apply rfl

end Session

namespace Server
variable {s t : Server ℤ}

namespace Extends

theorem refl (s : Server ℤ) : s.Extends s := ⟨rfl,le_rfl,fun _ => .refl _⟩

theorem trans {u : Server ℤ} (h : s.Extends t) (h' : t.Extends u) : s.Extends u where
  base := h'.base.trans h.base
  length := h.length.trans h'.length
  grows client := (h.grows client).trans (h'.grows client)

theorem of_eq (hb : t.base = s.base) (ho : t.objects = s.objects) : s.Extends t := by
  refine ⟨hb,ho ▸ le_rfl,fun client => ?_⟩
  unfold measuredAt
  rw [ho]
  exact .refl _

theorem modify (s : Server ℤ) (client : ℕ) {f : Session ℤ → Session ℤ}
    (hf : ∀ v : Session ℤ, v.measured.Grows (f v).measured) : s.Extends (s.modify client f) := by
  refine ⟨rfl,le_of_eq (List.length_modify ..).symm,fun k => ?_⟩
  unfold measuredAt
  rw [Kept.modify_getElem?]
  cases hv : s.objects[k]? with
  | none => exact .refl _
  | some v =>
    change v.measured.Grows (if client = k then f v else v).measured
    split
    · exact hf v
    · exact .refl _

theorem requestStopAll (s : Server ℤ) (clients : List ℕ) : s.Extends (s.modifyAll clients Session.requestStop) := by
  induction clients generalizing s with
  | nil => exact .refl s
  | cons client clients ih =>
    have hfirst : s.Extends (s.modify client Session.requestStop) := modify s client (fun v => v.measured_apply rfl)
    exact hfirst.trans (ih _)

theorem performCleanup (s : Server ℤ) : s.Extends s.performCleanup := by
  unfold Server.performCleanup
  split
  · exact .refl s
  · have hretire : s.Extends s.retire := of_eq rfl rfl
    split
    · exact hretire.trans (of_eq rfl rfl)
    · exact hretire.trans ((requestStopAll s.retire s.retire.retiring).trans (of_eq rfl rfl))

theorem stop (s : Server ℤ) : s.Extends s.stop := by
  unfold Server.stop
  split
  · exact .refl s
  · have hstopping : s.Extends { s with stopping := true } := of_eq rfl rfl
    have hstop := hstopping.trans (requestStopAll _ s.sessions)
    dsimp only
    split
    · exact hstop.trans (of_eq rfl rfl)
    · exact hstop.trans (performCleanup _)

theorem accept (s : Server ℤ) : s.Extends s.accept := by
  unfold Server.accept
  split
  · exact .refl s
  · exact of_eq rfl rfl

theorem publish (s : Server ℤ) : s.Extends s.publish := by
  unfold Server.publish
  split
  · refine ⟨rfl,by simp,fun k => ?_⟩
    -- the new session has no counts yet
    have hnew : (((s.objects ++ [Session.new s.generation])[k]?).map Session.measured).getD 0 = s.measuredAt k := by
      unfold measuredAt
      rw [List.getElem?_append]
      split
      · rfl
      · rename_i hk
        rw [List.getElem?_eq_none (not_lt.mp hk)]
        cases k - s.objects.length with
        | zero => rfl
        | succ _ => rfl
    change (s.measuredAt k).Grows (((s.objects ++ [Session.new s.generation])[k]?).map Session.measured |>.getD 0)
    rw [hnew]
    exact .refl _
  · exact .refl s

theorem absorbSession (s : Server ℤ) (client : ℕ) : s.Extends (s.absorbSession client) := by
  obtain ⟨closed,absorbed,heq⟩ := s.absorbSession_eq client
  rw [heq]
  exact of_eq rfl rfl

theorem onClose (s : Server ℤ) (client generation : ℕ) : s.Extends (s.onClose client generation) := by
  unfold Server.onClose
  split
  · exact .refl s
  · exact of_eq rfl rfl

theorem handler (s : Server ℤ) (bound retries : Bool) (handler : Handler) :
    s.Extends (s.runHandler bound retries handler) := by
  cases handler with
  | bind g =>
    unfold Server.runHandler Server.attemptPortBinding
    dsimp only
    split
    · exact .refl s
    · split
      · exact of_eq rfl rfl
      · split
        · exact of_eq rfl rfl
        · exact of_eq rfl rfl
  | closed client g =>
    unfold Server.runHandler Server.onClosed
    dsimp only
    split
    · exact .refl s
    · split
      · exact (absorbSession s client).trans (of_eq rfl rfl)
      · exact .refl s
  | cleanup => exact performCleanup s
  | retired client =>
    have hrelease : s.Extends (s.release client) := by
      unfold Server.release
      split
      · exact (absorbSession s client).trans (of_eq rfl rfl)
      · exact .refl s
    refine hrelease.trans ?_
    change (s.release client).Extends (s.release client).countDown
    unfold Server.countDown
    split
    · exact of_eq rfl rfl
    · exact of_eq rfl rfl

theorem step (s : Server ℤ) {op : ServerOp} (h : keepsTotals op = true) : s.Extends (s.step op) := by
  cases op with
  | start tlsFails => cases h
  | resetStats => cases h
  | stop => exact stop s
  | accept => exact accept s
  | publish => exact publish s
  | write client op counters active =>
    unfold Server.step
    dsimp only
    split
    · exact .refl s
    · split
      · exact modify s client (fun v => v.measured_apply h)
      · exact .refl s
  | lose client =>
    unfold Server.step
    dsimp only
    split
    · exact .refl s
    · split
      · exact modify s client (fun v => v.measured_apply rfl)
      · exact .refl s
  | close client =>
    unfold Server.step Server.close
    dsimp only
    split
    · exact .refl s
    · split
      · exact .refl s
      · exact (modify s client Session.measured_doClose).trans (onClose _ _ _)
  | fireClose client =>
    unfold Server.step
    dsimp only
    split
    · exact .refl s
    · split
      · exact onClose s _ _
      · exact .refl s
  | finishStop index =>
    unfold Server.step
    dsimp only
    split
    · exact .refl s
    · rename_i client _
      have hpop : s.Extends { s with stops := s.stops.eraseIdx index } := of_eq rfl rfl
      exact (hpop.trans (modify _ client Session.measured_doClose)).trans (of_eq rfl rfl)
  | handler index bound retries =>
    unfold Server.step
    dsimp only
    split
    · exact .refl s
    · split
      · exact .refl s
      · rename_i handler _
        have hpop : s.Extends { s with posted := s.posted.eraseIdx index } := of_eq rfl rfl
        exact hpop.trans (Extends.handler _ bound retries handler)

/-- Sessions that are not there yet have no counts. -/
theorem stats_grows (h : s.Extends t) (hs : s.Kept) (ht : t.Kept) : s.stats.Grows t.stats := by
  have hsum : ∀ clients : List ℕ, ((clients.map s.measuredAt).sum).Grows (clients.map t.measuredAt).sum := by
    intro clients
    induction clients with
    | nil => exact .refl _
    | cons client clients ih => exact (h.grows client).add ih
  have hmore : (t.accepted.map s.measuredAt).sum = (s.accepted.map s.measuredAt).sum := by
    have hb := hs.base_le
    have hl := h.length
    have hrange : t.accepted = s.accepted ++ List.range' s.objects.length (t.objects.length - s.objects.length) := by
      unfold accepted
      have hmid : s.base + (s.objects.length - s.base) = s.objects.length := by omega
      have happ := List.range'_append_1 (s := s.base) (m := s.objects.length - s.base)
        (n := t.objects.length - s.objects.length)
      rw [hmid] at happ
      rw [h.base, happ]
      congr 1
      omega
    rw [hrange, List.map_append, List.sum_append, add_eq_left]
    refine List.sum_eq_zero (fun x hx => ?_)
    obtain ⟨k,hk,rfl⟩ := List.mem_map.mp hx
    unfold measuredAt
    have hk := (List.mem_range'_1.mp hk).1
    rw [List.getElem?_eq_none hk]
    rfl
  rw [hs.countsOnce.sum, ht.countsOnce.sum, ← hmore]
  exact hsum t.accepted

end Extends

theorem stats_balanced (h : s.Kept) : s.stats.Balanced := by
  rw [h.countsOnce.sum]
  induction s.accepted with
  | nil => exact SendAccounting.balanced_zero
  | cons client clients ih =>
    refine SendAccounting.Balanced.add ?_ ih
    unfold measuredAt
    cases s.objects[client]? with
    | none => exact SendAccounting.balanced_zero
    | some v => exact Ledger.run_balanced v.history

/-- The send statistics of a server count every session exactly once. They balance, and
apart from a start, a reset and an admission that is taken back they only grow. -/
theorem stats_count_sessions_once (ops : List ServerOp) (h : Serial (init : Server ℤ) ops) :
    ((init : Server ℤ).run ops).CountsOnce ∧ ((init : Server ℤ).run ops).stats.Balanced ∧
      ∀ op, keepsTotals op = true →
        ((init : Server ℤ).run ops).stats.Grows (((init : Server ℤ).run ops).step op).stats := by
  obtain ⟨hkept,hphased⟩ := kept_init.run phased_init h
  refine ⟨hkept.countsOnce,stats_balanced hkept,fun op hop => ?_⟩
  exact (Extends.step _ hop).stats_grows hkept (hkept.step hphased op)

/-- One session is closed, another one is published after the stop began, and the server starts again. -/
def restartOps : List ServerOp :=
  [.start false,.handler 0 true false,.accept,.publish,.write 0 (.admitRequest 3 none) .zero false,.close 0,
    .handler 0 true false,.accept,.stop,.publish,.write 1 (.admitRequest 5 none) .zero false,.handler 0 true false,
    .finishStop 0,.handler 0 true false,.start false]

theorem stats_count_sessions_restart :
    Serial (init : Server ℤ) restartOps ∧ ((init : Server ℤ).run restartOps).stats.Balanced := by
  have hserial : Serial (init : Server ℤ) restartOps :=
    ⟨nofun,nofun,nofun,nofun,nofun,nofun,nofun,nofun,nofun,nofun,nofun,nofun,nofun,nofun,fun _ _ _ => by decide,trivial⟩
  exact ⟨hserial,(stats_count_sessions_once _ hserial).2.1⟩

end Server
end Wirestead.Transport.TcpServer
