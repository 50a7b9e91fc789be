import Wirestead.Diagnostics.LedgerBatch
import Wirestead.Diagnostics.LedgerLive

/-! # What the ledger knows of one request

A caller sees the ledger through the ids it holds. Each operation is described by the
request that an id stands for afterwards; the ring and the map do not show any more.
-/
namespace Wirestead.Diagnostics

theorem lookup_cons_eq (q : ℕ × Request) (m : List (ℕ × Request)) (id : ℕ) :
    (q :: m).lookup id = if id = q.1 then some q.2 else m.lookup id := by
  by_cases hid : id = q.1
  · rw [if_pos hid, hid]
    exact List.lookup_cons_self
  · have hne : (id == q.1) = false := beq_false_of_ne hid
    rw [if_neg hid, List.lookup_cons, hne]

theorem lookup_filter_values {p : Request → Bool} {m : List (ℕ × Request)} (h : (m.map Prod.fst).Nodup) (id : ℕ) :
    (m.filter (fun q => p q.2)).lookup id = (m.lookup id).filter p := by
  induction m with
  | nil => rfl
  | cons q m ih =>
    obtain ⟨hq,hm⟩ := List.nodup_cons.mp h
    rw [List.filter_cons, lookup_cons_eq]
    by_cases hid : id = q.1
    · -- no other request has the id of the first one
      have hnone : m.lookup id = none := by
        rw [List.lookup_eq_none_iff]
        intro r hr
        have hne : id ≠ r.1 := fun he => hq (hid ▸ he ▸ List.mem_map_of_mem hr)
        simpa using hne
      cases hp : p q.2 with
      | true => simp only [if_true, lookup_cons_eq, hid, Option.filter_some, hp]
      | false =>
        rw [if_neg Bool.false_ne_true, ih hm, hnone, if_pos hid, Option.filter_some, hp]
        rfl
    · rw [if_neg hid, ← ih hm]
      split
      · rw [lookup_cons_eq, if_neg hid]
      · rfl

theorem lookup_alterKey (m : List (ℕ × Request)) (id : ℕ) (f : Request → Request) (k : ℕ) :
    (alterKey m id f).lookup k = if k = id then (m.lookup id).map f else m.lookup k := by
  unfold alterKey
  induction m with
  | nil => simp
  | cons q m ih =>
    rw [List.map_cons, List.lookup_cons, List.lookup_cons, List.lookup_cons, ih]
    by_cases hq : q.1 = id
    · subst hq
      by_cases hk : k = q.1
      · simp [hk]
      · have hne : (k == q.1) = false := beq_false_of_ne hk
        simp [hk, hne]
    · have hid : (id == q.1) = false := beq_false_of_ne (Ne.symm hq)
      by_cases hk : k = id
      · simp [hq, hk, hid]
      · simp [hq, hk]

namespace Ledger
variable {N : Type*} (c : Ledger N)

/-- `begin` tells whether the request was outstanding. -/
theorem beginLocked_eq_contains (id : ℕ) : (c.beginLocked id).2 = c.contains id := by
  rw [contains_eq, beginLocked]
  cases c.find id <;> rfl

/-- The request behind an id, as long as it is outstanding. -/
def request? (id : ℕ) : Option Request := c.toMap.requests.lookup id

variable {c}

theorem Valid.contains_request (h : c.Valid) (id : ℕ) : c.contains id = (c.request? id).isSome := by
  rw [← h.contains_toMap]
  rfl

theorem Valid.nodup_keys (h : c.Valid) : (c.toMap.requests.map Prod.fst).Nodup := by
  have hkeys : c.toMap.requests.map Prod.fst =
      c.sparse.map Prod.fst ++ (liveFrom c.base c.ring.toList).map Prod.fst := by
    rw [toMap, forget, entries, List.map_map, List.map_append]
    rfl
  rw [hkeys, List.nodup_append]
  refine ⟨h.sparse_nodup,nodup_liveFrom _ _,?_⟩
  intro id hs k hl heq
  obtain ⟨p,hp,rfl⟩ := List.mem_map.mp hs
  obtain ⟨q,hq,rfl⟩ := List.mem_map.mp hl
  have hlt := h.sparse_lt p hp
  have hle := (mem_liveFrom hq).1
  omega

/-- A request was issued. -/
theorem Valid.request_le (h : c.Valid) {id : ℕ} {r : Request} (hr : c.request? id = some r) : id ≤ c.nextId := by
  have hlive : c.contains id = true := by
    rw [h.contains_request, hr]
    rfl
  have hids := h.ids
  rw [contains_eq, Option.isSome_iff_exists] at hlive
  obtain ⟨e,he⟩ := hlive
  by_cases hb : id < c.base
  · omega
  · have hslot := (find_slot hb he).1
    omega

theorem Matches.request {d : Ledger N} {a : LedgerMap N} (h : Matches d a) (id : ℕ) :
    d.request? id = a.requests.lookup id := by
  rw [request?, h.toMap]

theorem Matches.nextId {d : Ledger N} {a : LedgerMap N} (h : Matches d a) : d.nextId = a.nextId :=
  congrArg LedgerMap.nextId h.toMap

/-- A request that is settled is gone, the others are as they were. -/
theorem lookup_finish (a : LedgerMap N) (id : ℕ) (settle : Request → SendAccounting N → SendAccounting N) (k : ℕ) :
    (a.finish id settle).requests.lookup k = if k = id then none else a.requests.lookup k := by
  unfold LedgerMap.finish
  cases hl : a.requests.lookup id with
  | none =>
    dsimp only
    split_ifs with hk
    · rw [hk, hl]
    · rfl
  | some r =>
    dsimp only
    split_ifs with hk
    · rw [hk, List.lookup_eq_none_iff]
      intro p hp
      have hne := of_decide_eq_true (List.mem_filter.mp hp).2
      simpa using Ne.symm hne
    · exact LedgerMap.lookup_eraseKey hk

section Operations
variable [CommRing N]

theorem Valid.admitRequest_request (h : c.Valid) (bytes : ℕ) (group : Option ℕ) :
    ∃ epoch, ∀ id, (c.admitRequest bytes group).1.request? id =
      if id = c.nextId + 1 then some ⟨bytes,epoch,false,group⟩ else c.request? id := by
  obtain ⟨hm,-⟩ := h.matches_admitRequest bytes group
  refine ⟨(c.books.joinGroup group).epoch,fun id => ?_⟩
  rw [hm.request, LedgerMap.admitRequest]
  dsimp only
  rw [List.lookup_append]
  split_ifs with hid
  · have hnone : c.toMap.requests.lookup id = none := by
      cases hl : c.toMap.requests.lookup id with
      | none => rfl
      | some r =>
        have hle := h.request_le hl
        omega
    subst hid
    rw [hnone, Option.none_or]
    exact List.lookup_cons_self
  · have hne : (id == c.toMap.nextId + 1) = false := beq_false_of_ne hid
    rw [List.lookup_cons, hne, List.lookup_nil, Option.or_none]
    rfl

omit [CommRing N] in
theorem Valid.beginLocked_request (h : c.Valid) (id : ℕ) :
    (c.beginLocked id).1.Valid ∧ (c.beginLocked id).1.nextId = c.nextId ∧
    (c.beginLocked id).2 = (c.request? id).isSome ∧
    ∀ k, (c.beginLocked id).1.request? k =
      if k = id then (c.request? id).map (fun r => { r with active := true }) else c.request? k := by
  obtain ⟨hm,hb⟩ := h.matches_begin id
  refine ⟨hm.valid,hm.nextId,hb,fun k => ?_⟩
  rw [hm.request, LedgerMap.begin, LedgerMap.activate]
  dsimp only
  rw [lookup_alterKey]
  rfl

theorem Valid.completeLocked_request (h : c.Valid) (id n : ℕ) :
    (c.completeLocked id n).Valid ∧ (c.completeLocked id n).nextId = c.nextId ∧
    ∀ k, (c.completeLocked id n).request? k = if k = id then none else c.request? k := by
  have hm := h.matches_complete id n
  refine ⟨hm.valid,?_,fun k => (hm.request k).trans (lookup_finish _ _ _ _)⟩
  exact hm.nextId.trans (LedgerMap.shrinks_finish _ _ _).nextId

/-- The requests of a batch are gone, whatever was confirmed. -/
theorem Valid.completeBatch_request (h : c.Valid) (batch : List (ℕ × ℕ)) (n : ℕ) :
    (c.completeBatch batch n).Valid ∧ (c.completeBatch batch n).nextId = c.nextId ∧
    ∀ k, (c.completeBatch batch n).request? k = if k ∈ batch.map Prod.fst then none else c.request? k := by
  induction batch generalizing c n with
  | nil => exact ⟨h,rfl,fun k => (if_neg List.not_mem_nil).symm⟩
  | cons p batch ih =>
    obtain ⟨hvalid,hnext,hfirst⟩ := h.completeLocked_request p.1 (min n p.2)
    obtain ⟨hdone,hid,hrest⟩ := ih hvalid (n - min n p.2)
    refine ⟨hdone,hid.trans hnext,fun k => (hrest k).trans ?_⟩
    rw [hfirst, List.map_cons]
    by_cases hk : k = p.1
    · simp [hk]
    · simp only [List.mem_cons, hk, false_or, if_false]

theorem Valid.discard_request (h : c.Valid) (id : ℕ) (cause : Cause) :
    (c.discard id cause).Valid ∧ (c.discard id cause).nextId = c.nextId ∧
    ∀ k, (c.discard id cause).request? k = if k = id then none else c.request? k := by
  have hm := h.matches_discard id cause
  refine ⟨hm.valid,?_,fun k => (hm.request k).trans (lookup_finish _ _ _ _)⟩
  exact hm.nextId.trans (LedgerMap.shrinks_finish _ _ _).nextId

/-- What a group has not handed over is gone. -/
theorem Valid.discardWaiting_request (h : c.Valid) (g : ℕ) (cause : Cause) :
    (c.discardWaiting (some g) cause).Valid ∧ (c.discardWaiting (some g) cause).nextId = c.nextId ∧
    ∀ k, (c.discardWaiting (some g) cause).request? k = (c.request? k).filter (fun r => !waits g r) := by
  have hm := h.matches_discardWaiting (some g) cause
  refine ⟨hm.valid,hm.nextId,fun k => ?_⟩
  rw [hm.request, LedgerMap.discardWaiting, LedgerMap.terminateAll]
  exact lookup_filter_values (p := fun r => !waits g r) h.nodup_keys k

theorem endAll_request (cause : Cause) :
    (c.endAll cause).Valid ∧ (c.endAll cause).nextId = c.nextId ∧ ∀ k, (c.endAll cause).request? k = none := by
  have hm := matches_endAll (c := c) cause
  refine ⟨hm.valid,hm.nextId,fun k => ?_⟩
  rw [hm.request, LedgerMap.endAll, LedgerMap.terminateAll]
  simp

/-- The cause does not matter where no request is live. -/
theorem Valid.endAll_cause (h : c.Valid) (hnone : ∀ id, c.contains id = false) (cause cause' : Cause) :
    c.endAll cause = c.endAll cause' := by
  have hrequests : c.toMap.requests = [] := by
    rw [List.eq_nil_iff_forall_not_mem]
    intro p hp
    have hlive := (h.live_iff p.1).mpr (List.mem_map_of_mem hp)
    rw [hnone] at hlive
    cases hlive
  have hbooks : ∀ cause, (c.endAll cause).books = c.books := by
    intro cause
    have hmap := congrArg LedgerMap.books (matches_endAll (c := c) cause).toMap
    rw [LedgerMap.endAll, LedgerMap.terminateAll, hrequests] at hmap
    exact hmap
  have hrest : ∀ cause, c.endAll cause = { c.endAll cause' with books := (c.endAll cause).books } := by
    intro cause
    have hring := c.ring.sweep_window
      (f := fun (b : Books N) e => (default,if e.live then b.terminate e.toRequest cause else b))
      (g := fun (b : Books N) e => (default,if e.live then b.terminate e.toRequest cause' else b))
      (fun _ _ _ => rfl) (c.sparse.foldl (fun b p => b.terminate p.2.toRequest cause) c.books)
      (c.sparse.foldl (fun b p => b.terminate p.2.toRequest cause') c.books)
    unfold endAll
    dsimp only
    rw [hring]
  rw [hrest cause, hbooks cause, ← hbooks cause']

end Operations
end Ledger
end Wirestead.Diagnostics
