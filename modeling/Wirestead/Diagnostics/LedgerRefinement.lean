import Wirestead.Diagnostics.LedgerStore

/-! # The ledger refines the map

Every operation keeps the stores valid, acts on their map as the abstract operation
does and returns the same. Compaction, growth and promotion leave the map as it is.
-/
namespace Wirestead.Diagnostics
open Slots
namespace Ledger
variable {N : Type*} {c : Ledger N}

/-- The stores were moved around. -/
structure Moved (c d : Ledger N) : Prop where
  valid : d.Valid
  entries : d.entries = c.entries
  nextId : d.nextId = c.nextId
  books : d.books = c.books

theorem Moved.toMap {d : Ledger N} (h : Moved c d) : d.toMap = c.toMap := by
  rw [Ledger.toMap, h.entries, h.nextId, h.books]
  rfl

theorem Valid.moved_compactLoop (h : c.Valid) (n : ℕ) : Moved c (compactLoop n c) := by
  induction n generalizing c with
  | zero => exact ⟨h,rfl,rfl,rfl⟩
  | succ n ih =>
    unfold compactLoop
    split
    · rename_i hc
      have hcount := Nat.pos_of_ne_zero hc.1
      have hids := h.ids
      have hpop := ih (c := { c with ring := c.ring.popFront, base := c.base + 1 })
        ⟨show c.base + 1 + (c.ring.count - 1) = c.nextId + 1 by omega,
          fun p hp => Nat.lt_succ_of_lt (h.sparse_lt p hp),h.sparse_nodup⟩
      refine ⟨hpop.valid,hpop.entries.trans ?_,hpop.nextId,hpop.books⟩
      unfold Ledger.entries
      rw [c.ring.slot_popFront_zero hcount, liveFrom_dead hc.2]
    · exact ⟨h,rfl,rfl,rfl⟩

theorem Valid.moved_compact (h : c.Valid) : Moved c c.compact := h.moved_compactLoop _

theorem Valid.moved_makeRoom (h : c.Valid) :
    Moved c c.makeRoom ∧ c.makeRoom.ring.count < c.makeRoom.ring.slots.length := by
  have hids := h.ids
  unfold makeRoom
  split
  · rename_i hr
    obtain ⟨-,-,-,hlen⟩ := c.ring.sweep_eq (fun (_ : Unit) _ => (default,())) ()
    have hpro := promote_eq h.sparse_lt c.ring.toList
    refine ⟨⟨⟨rfl,?_,?_⟩,?_,rfl,rfl⟩,?_⟩
    · dsimp only
      rw [hpro]
      intro p hp
      rcases List.mem_append.mp hp with hp | hp
      · have := h.sparse_lt p hp
        omega
      · obtain ⟨-,h2,-⟩ := mem_liveFrom hp
        rw [Window.length_toList] at h2
        omega
    · dsimp only
      rw [hpro, List.map_append]
      refine List.nodup_append.mpr ⟨h.sparse_nodup,nodup_liveFrom _ _,?_⟩
      intro a ha b hb
      obtain ⟨p,hp,rfl⟩ := List.mem_map.mp ha
      obtain ⟨q,hq,rfl⟩ := List.mem_map.mp hb
      have h1 := h.sparse_lt p hp
      have h2 := (mem_liveFrom hq).1
      omega
    · unfold Ledger.entries
      dsimp only
      rw [hpro, Window.toList_restart, liveFrom, List.append_nil]
    · change 0 < (c.ring.sweep _ ()).1.slots.length
      rw [hlen]
      exact List.length_pos_iff.mpr hr.1
  · refine ⟨⟨⟨hids,h.sparse_lt,h.sparse_nodup⟩,?_,rfl,rfl⟩,c.ring.count_lt_grow⟩
    unfold Ledger.entries
    dsimp only
    rw [c.ring.toList_grow]

theorem retire_live (e : Entry) : (retire e).live = false := rfl

/-- Erasing a request that was found takes its id out of the map. -/
theorem Valid.erase (h : c.Valid) (id : ℕ) {e : Entry} (he : c.find id = some e) :
    (c.erase id).Valid ∧ (c.erase id).toMap = { c.toMap with requests := eraseKey c.toMap.requests id } := by
  have hmap : ∀ d : Ledger N, d.entries = c.entries.filter (fun p => p.1 ≠ id) →
      d.nextId = c.nextId → d.books = c.books →
      d.toMap = { c.toMap with requests := eraseKey c.toMap.requests id } := by
    intro d h1 h2 h3
    rw [Ledger.toMap, h1, h2, h3, forget_filter c.entries (fun k _ => decide (k ≠ id))]
    rfl
  unfold Ledger.erase
  split
  · rename_i hid
    refine ⟨⟨h.ids,fun p hp => h.sparse_lt p (List.mem_filter.mp hp).1,?_⟩,hmap _ ?_ rfl rfl⟩
    · exact h.sparse_nodup.sublist (List.filter_sublist.map _)
    · unfold entries
      dsimp only
      rw [List.filter_append, filter_liveFrom hid]
  · rename_i hid
    obtain ⟨hc,-⟩ := find_slot hid he
    have hm := (h.modify id retire).moved_compact
    have hmod : c.modify id retire =
        { c with ring := c.ring.setSlot (id - c.base) (retire (c.ring.slot (id - c.base))) } :=
      if_neg hid
    refine ⟨hm.valid,hmap _ (hm.entries.trans ?_) (hm.nextId.trans ?_) (hm.books.trans ?_)⟩
    · unfold entries
      rw [hmod]
      dsimp only
      rw [c.ring.toList_setSlot hc, liveFrom_set_dead _ _ _ (retire_live _),
        show c.base + (id - c.base) = id by omega, List.filter_append]
      congr 1
      refine (List.filter_eq_self.mpr (fun p hp => ?_)).symm
      have := h.sparse_lt p hp
      exact decide_eq_true (by omega)
    · rw [hmod]
    · rw [hmod]

/-- Both ledgers are left by an operation in matching states. -/
structure Matches (d : Ledger N) (a : LedgerMap N) : Prop where
  valid : d.Valid
  toMap : d.toMap = a

theorem Valid.matches_toMap (h : c.Valid) : Matches c c.toMap := ⟨h,rfl⟩

/-- Taking a request out and settling it. -/
theorem Valid.matches_finish (h : c.Valid) (id : ℕ)
    (settle : Request → SendAccounting N → SendAccounting N) :
    Matches (match c.find id with
      | none => c
      | some e => { c with books := c.books.update e.toRequest (settle e.toRequest) }.erase id)
      (c.toMap.finish id settle) := by
  rw [LedgerMap.finish, h.lookup_toMap]
  cases he : c.find id with
  | none => exact ⟨h,rfl⟩
  | some e =>
    have hd : ({ c with books := c.books.update e.toRequest (settle e.toRequest) } : Ledger N).Valid :=
      ⟨h.ids,h.sparse_lt,h.sparse_nodup⟩
    obtain ⟨h1,h2⟩ := hd.erase id he
    exact ⟨h1,h2⟩

section Operations
variable [CommRing N]

theorem Valid.matches_complete (h : c.Valid) (id n : ℕ) :
    Matches (c.completeLocked id n) (c.toMap.complete id n) :=
  h.matches_finish id (fun r t => t.complete r.bytes n)

theorem Valid.matches_discard (h : c.Valid) (id : ℕ) (cause : Cause) :
    Matches (c.discard id cause) (c.toMap.discard id cause) :=
  h.matches_finish id (fun r t => t.terminate r.bytes r.active cause)

theorem Valid.matches_rollback (h : c.Valid) (id : ℕ) :
    Matches (c.rollback id) (c.toMap.rollback id) :=
  h.matches_finish id (fun r t => t.rollback r.bytes)

theorem Valid.matches_completeBatch (h : c.Valid) (batch : List (ℕ × ℕ)) (n : ℕ) :
    Matches (c.completeBatch batch n) (c.toMap.completeBatch batch n) := by
  induction batch generalizing c n with
  | nil => exact h.matches_toMap
  | cons p batch ih =>
    obtain ⟨h1,h2⟩ := h.matches_complete p.1 (min n p.2)
    have := ih h1 (n - min n p.2)
    rw [h2] at this
    exact this

omit [CommRing N] in
/-- A request that is not found is not activated in the map either. -/
theorem Valid.matches_begin (h : c.Valid) (id : ℕ) :
    Matches (c.beginLocked id).1 (c.toMap.begin id).1 ∧
    (c.beginLocked id).2 = (c.toMap.begin id).2 := by
  have hcon : (c.toMap.begin id).2 = (c.find id).isSome := by
    rw [LedgerMap.begin, h.contains_toMap, contains_eq]
  rw [hcon]
  unfold beginLocked
  cases he : c.find id with
  | none =>
    refine ⟨⟨h,?_⟩,rfl⟩
    have hl := h.lookup_toMap id
    rw [he, Option.map_none, List.lookup_eq_none_iff] at hl
    have hsame : alterKey c.toMap.requests id (fun r => { r with active := true }) =
        c.toMap.requests := by
      refine (List.map_congr_left (fun p hp => ?_)).trans (List.map_id _)
      have := hl p hp
      exact if_neg (fun hk => by simp [hk] at this)
    rw [LedgerMap.begin, LedgerMap.activate, hsame]
  | some e =>
    refine ⟨?_,rfl⟩
    dsimp only
    refine ⟨h.modify _ _,?_⟩
    have hent := h.modify_entries he (f := fun e => { e with active := true }) (fun _ => rfl)
    have hrest : ∀ f, (c.modify id f).nextId = c.nextId ∧ (c.modify id f).books = c.books := by
      intro f
      unfold Ledger.modify
      split <;> exact ⟨rfl,rfl⟩
    rw [Ledger.toMap, hent, (hrest _).1, (hrest _).2, LedgerMap.begin, LedgerMap.activate, alterKey,
      Ledger.toMap, forget, forget, List.map_map, List.map_map]
    dsimp only
    congr 1
    refine List.map_congr_left (fun p _ => ?_)
    simp only [Function.comp_apply]
    split <;> rfl

omit [CommRing N] in
theorem Valid.matches_beginBatch (h : c.Valid) (ids : List ℕ) :
    Matches (c.beginBatch ids).1 (c.toMap.beginBatch ids).1 ∧
    (c.beginBatch ids).2 = (c.toMap.beginBatch ids).2 := by
  have hfold : ∀ (ids : List ℕ) (d : Ledger N), d.Valid →
      Matches (ids.foldl (fun c id => (c.beginLocked id).1) d)
        (ids.foldl LedgerMap.activate d.toMap) := by
    intro ids
    induction ids with
    | nil => exact fun d hd => hd.matches_toMap
    | cons id ids ih =>
      intro d hd
      obtain ⟨h1,h2⟩ := (hd.matches_begin id).1
      have := ih _ h1
      rw [h2] at this
      exact this
  have hany : ids.any (fun id => (c.find id).isNone) = !ids.all c.toMap.contains := by
    rw [List.not_all_eq_any_not]
    congr 1
    funext id
    rw [h.contains_toMap, contains_eq, Option.not_isSome]
  rw [beginBatch, LedgerMap.beginBatch, hany]
  cases ids.all c.toMap.contains with
  | true => exact ⟨hfold ids c h,rfl⟩
  | false => exact ⟨h.matches_toMap,rfl⟩

theorem Valid.matches_admitRequest (h : c.Valid) (bytes : ℕ) (group : Option ℕ) :
    Matches (c.admitRequest bytes group).1 (c.toMap.admitRequest bytes group).1 ∧
    (c.admitRequest bytes group).2 = (c.toMap.admitRequest bytes group).2 := by
  refine ⟨?_,rfl⟩
  unfold admitRequest LedgerMap.admitRequest
  dsimp only
  have hroom : ∃ d, (if c.ring.count = c.ring.slots.length then c.makeRoom else c) = d ∧ Moved c d ∧
      d.ring.count < d.ring.slots.length := by
    refine ⟨_,rfl,?_⟩
    split
    · exact h.moved_makeRoom
    · have := c.ring.count_le
      exact ⟨⟨h,rfl,rfl,rfl⟩,by omega⟩
  obtain ⟨d,hd,hm,hlt⟩ := hroom
  rw [hd]
  have hids := hm.valid.ids
  have hcount : ∀ e, (d.ring.push e).count = d.ring.count + 1 := by
    intro e
    rw [← Window.length_toList, d.ring.toList_push e hlt, List.length_append, Window.length_toList]
    rfl
  refine ⟨⟨?_,hm.valid.sparse_lt,hm.valid.sparse_nodup⟩,?_⟩
  · dsimp only
    rw [hcount, ← hm.nextId]
    omega
  · unfold Ledger.toMap Ledger.entries
    dsimp only
    rw [d.ring.toList_push _ hlt, liveFrom_append, ← List.append_assoc]
    have hent := hm.entries
    unfold Ledger.entries at hent
    rw [hent, liveFrom_live rfl, Window.length_toList, show d.base + d.ring.count = c.nextId + 1 by
      rw [← hm.nextId]; exact hids, forget, List.map_append]
    rfl

omit [CommRing N] in
/-- Filtering both stores. -/
theorem forget_entries_filter (p : Request → Bool) :
    forget (c.sparse.filter (fun q => p q.2.toRequest) ++
      (liveFrom c.base c.ring.toList).filter (fun q => p q.2.toRequest)) =
    c.toMap.requests.filter (fun q => p q.2) := by
  rw [← List.filter_append]
  exact forget_filter _ (fun _ r => p r)

theorem Valid.matches_discardWaiting (h : c.Valid) (group : Option ℕ) (cause : Cause) :
    Matches (c.discardWaiting group cause) (c.toMap.discardWaiting group cause) := by
  cases group with
  | none => exact h.matches_toMap
  | some g =>
    unfold discardWaiting LedgerMap.discardWaiting LedgerMap.terminateAll
    dsimp only
    set books := c.sparse.foldl (fun b p =>
      if waits g p.2.toRequest then b.terminate p.2.toRequest cause else b) c.books with hb
    obtain ⟨h1,h2,h3,-⟩ := c.ring.sweep_eq (fun (b : Books N) e =>
      if e.live && waits g e.toRequest then (retire e,b.terminate e.toRequest cause) else (e,b)) books
    obtain ⟨h4,h5⟩ := liveFrom_sweep (fun (b : Books N) e => b.terminate e.toRequest cause)
      (fun e => waits g e.toRequest) c.base c.ring.toList books
    set swept := c.ring.sweep (fun (b : Books N) e =>
      if e.live && waits g e.toRequest then (retire e,b.terminate e.toRequest cause) else (e,b)) books
    have hv : ({ c with sparse := c.sparse.filter (fun p => !waits g p.2.toRequest)
                        ring := swept.1, books := swept.2 } : Ledger N).Valid :=
      ⟨by dsimp only; rw [h3]; exact h.ids,fun p hp => h.sparse_lt p (List.mem_filter.mp hp).1,
        h.sparse_nodup.sublist (List.filter_sublist.map _)⟩
    have hm := hv.moved_compact
    refine ⟨hm.valid,hm.toMap.trans ?_⟩
    have hreq := forget_entries_filter (c := c) (fun r => !waits g r)
    have hbooks : swept.2 = (c.toMap.requests.filter (fun q => waits g q.2)).foldl
        (fun b q => b.terminate q.2 cause) c.books := by
      rw [h2, h5, ← forget_entries_filter, foldl_forget (fun b r => Books.terminate b r cause),
        List.foldl_append, hb]
      congr 1
      exact List.foldl_filter.symm
    unfold Ledger.toMap Ledger.entries at hreq ⊢
    dsimp only at hreq ⊢
    rw [h1, h4, hreq, hbooks]
    rfl

theorem matches_endAll (cause : Cause) :
    Matches (c.endAll cause) (c.toMap.endAll cause) := by
  unfold endAll LedgerMap.endAll LedgerMap.terminateAll
  dsimp only
  set books := c.sparse.foldl (fun b p => b.terminate p.2.toRequest cause) c.books with hb
  obtain ⟨-,h2,-,-⟩ := c.ring.sweep_eq (fun (b : Books N) e =>
    (default,if e.live then b.terminate e.toRequest cause else b)) books
  have h5 := sweep_clear (fun (b : Books N) e => b.terminate e.toRequest cause) c.base c.ring.toList
    books
  refine ⟨⟨rfl,fun p hp => (List.not_mem_nil hp).elim,List.nodup_nil⟩,?_⟩
  have hbooks : (c.toMap.requests).foldl (fun b q => b.terminate q.2 cause) c.books =
      (liveFrom c.base c.ring.toList).foldl (fun b q => b.terminate q.2.toRequest cause) books := by
    rw [Ledger.toMap, foldl_forget (fun b r => Books.terminate b r cause), entries, List.foldl_append]
  rw [Ledger.toMap]
  dsimp only
  rw [h2, h5, ← hbooks]
  simp [entries, liveFrom, forget, Ledger.toMap]

/-- One operation: the same answer, and matching ledgers afterwards. -/
theorem Valid.step (h : c.Valid) (op : LedgerOp) :
    Matches (c.step op).1 (c.toMap.step op).1 ∧ (c.step op).2 = (c.toMap.step op).2 := by
  cases op with
  | admitRequest bytes group =>
    obtain ⟨h1,h2⟩ := h.matches_admitRequest bytes group
    exact ⟨h1,congrArg LedgerResult.request h2⟩
  | «begin» id =>
    obtain ⟨h1,h2⟩ := h.matches_begin id
    exact ⟨h1,congrArg LedgerResult.bool h2⟩
  | beginBatch ids =>
    obtain ⟨h1,h2⟩ := h.matches_beginBatch ids
    exact ⟨h1,congrArg LedgerResult.bool h2⟩
  | complete id n => exact ⟨h.matches_complete id n,rfl⟩
  | completeBatch batch n => exact ⟨h.matches_completeBatch batch n,rfl⟩
  | discard id cause => exact ⟨h.matches_discard id cause,rfl⟩
  | discardWaiting group cause => exact ⟨h.matches_discardWaiting group cause,rfl⟩
  | rollback id => exact ⟨h.matches_rollback id,rfl⟩
  | endAll cause => exact ⟨matches_endAll cause,rfl⟩
  | reset => exact ⟨⟨⟨h.ids,h.sparse_lt,h.sparse_nodup⟩,rfl⟩,rfl⟩
  | contains id => exact ⟨h.matches_toMap,congrArg LedgerResult.bool (h.contains_toMap id).symm⟩
  | snapshot => exact ⟨h.matches_toMap,rfl⟩
  | groupSnapshot group => exact ⟨h.matches_toMap,rfl⟩

theorem Valid.run (h : c.Valid) (ops : List LedgerOp) :
    Matches (c.run ops).1 (c.toMap.run ops).1 ∧ (c.run ops).2 = (c.toMap.run ops).2 := by
  induction ops generalizing c with
  | nil => exact ⟨h.matches_toMap,rfl⟩
  | cons op ops ih =>
    obtain ⟨⟨h1,h2⟩,h3⟩ := h.step op
    obtain ⟨h4,h5⟩ := ih h1
    rw [h2] at h4 h5
    exact ⟨h4,by rw [Ledger.run, LedgerMap.run, h3, h5]⟩

end Operations
end Ledger

namespace LedgerMap
variable {N : Type*}

/-- No id is new, and none was issued. -/
structure Shrinks (a b : LedgerMap N) : Prop where
  keys : (b.requests.map Prod.fst).Sublist (a.requests.map Prod.fst)
  nextId : b.nextId = a.nextId

theorem Shrinks.refl (a : LedgerMap N) : a.Shrinks a := ⟨List.Sublist.refl _,rfl⟩

theorem Shrinks.trans {a b d : LedgerMap N} (h : a.Shrinks b) (h' : b.Shrinks d) : a.Shrinks d :=
  ⟨h'.keys.trans h.keys,h'.nextId.trans h.nextId⟩

theorem shrinks_activate (a : LedgerMap N) (id : ℕ) : a.Shrinks (a.activate id) := by
  refine ⟨?_,rfl⟩
  rw [activate, alterKey]
  dsimp only
  rw [List.map_map]
  have hk : ∀ p ∈ a.requests, (Prod.fst ∘ fun p : ℕ × Request =>
      if p.1 = id then (p.1,{ p.2 with active := true }) else p) p = p.1 := by
    intro p _
    simp only [Function.comp_apply]
    split <;> rfl
  rw [List.map_congr_left hk]

variable [CommRing N]

omit [CommRing N] in
theorem shrinks_finish (a : LedgerMap N) (id : ℕ)
    (settle : Request → SendAccounting N → SendAccounting N) : a.Shrinks (a.finish id settle) := by
  unfold finish
  split
  · exact .refl a
  · exact ⟨List.filter_sublist.map _,rfl⟩

theorem shrinks_completeBatch (a : LedgerMap N) (batch : List (ℕ × ℕ)) (n : ℕ) :
    a.Shrinks (a.completeBatch batch n) := by
  induction batch generalizing a n with
  | nil => exact .refl a
  | cons p batch ih => exact (a.shrinks_finish _ _).trans (ih _ _)

theorem shrinks_terminateAll (a : LedgerMap N) (p : Request → Bool) (cause : Cause) :
    a.Shrinks (a.terminateAll p cause) := ⟨List.filter_sublist.map _,rfl⟩

omit [CommRing N] in
theorem shrinks_beginBatch (a : LedgerMap N) (ids : List ℕ) : a.Shrinks (a.beginBatch ids).1 := by
  unfold beginBatch
  split
  · dsimp only
    clear * -
    induction ids generalizing a with
    | nil => exact .refl a
    | cons id ids ih => exact (a.shrinks_activate id).trans (ih _)
  · exact .refl a

/-- Only an admission issues an id: the next one. -/
theorem step_cases (a : LedgerMap N) (op : LedgerOp) :
    (a.Shrinks (a.step op).1 ∧ ∀ id, (a.step op).2 ≠ .request id) ∨
    ((a.step op).1.requests.map Prod.fst = a.requests.map Prod.fst ++ [a.nextId + 1] ∧
      (a.step op).1.nextId = a.nextId + 1 ∧ (a.step op).2 = .request (a.nextId + 1)) := by
  cases op with
  | admitRequest bytes group => exact .inr ⟨by simp [step, admitRequest],rfl,rfl⟩
  | «begin» id => exact .inl ⟨a.shrinks_activate id,fun _ h => nomatch h⟩
  | beginBatch ids => exact .inl ⟨a.shrinks_beginBatch ids,fun _ h => nomatch h⟩
  | complete id n => exact .inl ⟨a.shrinks_finish _ _,fun _ h => nomatch h⟩
  | completeBatch batch n => exact .inl ⟨a.shrinks_completeBatch batch n,fun _ h => nomatch h⟩
  | discard id cause => exact .inl ⟨a.shrinks_finish _ _,fun _ h => nomatch h⟩
  | discardWaiting group cause =>
    refine .inl ⟨?_,fun _ h => nomatch h⟩
    cases group with
    | none => exact .refl a
    | some g => exact a.shrinks_terminateAll _ _
  | rollback id => exact .inl ⟨a.shrinks_finish _ _,fun _ h => nomatch h⟩
  | endAll cause =>
    exact .inl ⟨a.shrinks_terminateAll (fun _ => true) cause,fun _ h => nomatch h⟩
  | reset => exact .inl ⟨⟨List.Sublist.refl _,rfl⟩,fun _ h => nomatch h⟩
  | contains id => exact .inl ⟨.refl a,fun _ h => nomatch h⟩
  | snapshot => exact .inl ⟨.refl a,fun _ h => nomatch h⟩
  | groupSnapshot group => exact .inl ⟨.refl a,fun _ h => nomatch h⟩

omit [CommRing N] in
theorem contains_iff (a : LedgerMap N) (id : ℕ) :
    a.contains id = true ↔ id ∈ a.requests.map Prod.fst := by
  rw [contains, List.lookup_isSome_iff]
  simp

/-- An id that was issued and is not live stays so. -/
theorem run_retired (a : LedgerMap N) (ops : List LedgerOp) {id : ℕ} (hid : id ≤ a.nextId)
    (h : a.contains id = false) : (a.run ops).1.contains id = false := by
  induction ops generalizing a with
  | nil => exact h
  | cons op ops ih =>
    rw [← Bool.not_eq_true, contains_iff] at h
    rw [run]
    obtain ⟨hs,-⟩ | ⟨hk,hn,-⟩ := a.step_cases op
    · refine ih _ (by rw [hs.nextId]; exact hid) ?_
      rw [← Bool.not_eq_true, contains_iff]
      exact fun hm => h (hs.keys.subset hm)
    · refine ih _ (by omega) ?_
      rw [← Bool.not_eq_true, contains_iff, hk, List.mem_append, List.mem_singleton]
      rintro (hm | hm)
      · exact h hm
      · omega

/-- The ids a run returned from its admissions. -/
def issued (out : List (LedgerResult N)) : List ℕ :=
  out.filterMap (fun r => match r with
    | .request id => some id
    | _ => none)

theorem run_issued (a : LedgerMap N) (ops : List LedgerOp) :
    (issued (a.run ops).2).Pairwise (· < ·) ∧ ∀ id ∈ issued (a.run ops).2, a.nextId < id := by
  induction ops generalizing a with
  | nil => exact ⟨List.Pairwise.nil,fun id h => nomatch h⟩
  | cons op ops ih =>
    obtain ⟨h1,h2⟩ := ih (a.step op).1
    rw [run, issued, List.filterMap_cons]
    obtain ⟨hs,hr⟩ | ⟨-,hn,hr⟩ := a.step_cases op
    · have hnone : (match (a.step op).2 with
          | .request id => some id
          | _ => none) = (none : Option ℕ) := by
        split
        · rename_i id he
          exact absurd he (hr id)
        · rfl
      rw [hnone]
      exact ⟨h1,fun id h => by rw [← hs.nextId]; exact h2 id h⟩
    · rw [hr]
      dsimp only
      refine ⟨List.Pairwise.cons (fun id h => ?_) h1,?_⟩
      · have := h2 id h
        omega
      · intro id h
        rcases List.mem_cons.mp h with rfl | h
        · omega
        · have := h2 id h
          omega

end LedgerMap

namespace Ledger
variable {N : Type*} [CommRing N] (c : Ledger N)

/-- How many detached entries hold the id, and how many live slots do. -/
def sparsePlaces (id : ℕ) : ℕ := (c.sparse.map Prod.fst).count id

def ringPlaces (id : ℕ) : ℕ := ((liveFrom c.base c.ring.toList).map Prod.fst).count id

variable {c}

omit [CommRing N] in
theorem Valid.places (h : c.Valid) (id : ℕ) :
    c.sparsePlaces id = (if c.toMap.contains id ∧ id < c.base then 1 else 0) ∧
    c.ringPlaces id = (if c.toMap.contains id ∧ c.base ≤ id then 1 else 0) := by
  have hkeys : c.toMap.requests.map Prod.fst =
      c.sparse.map Prod.fst ++ (liveFrom c.base c.ring.toList).map Prod.fst := by
    rw [toMap, forget, List.map_map, entries, List.map_append]
    rfl
  have hs : id ∈ c.sparse.map Prod.fst → id < c.base := by
    intro hm
    obtain ⟨p,hp,rfl⟩ := List.mem_map.mp hm
    exact h.sparse_lt p hp
  have hr : id ∈ (liveFrom c.base c.ring.toList).map Prod.fst → c.base ≤ id := by
    intro hm
    obtain ⟨p,hp,rfl⟩ := List.mem_map.mp hm
    exact (mem_liveFrom hp).1
  have hmem : c.toMap.contains id = true ↔ id ∈ c.sparse.map Prod.fst ∨
      id ∈ (liveFrom c.base c.ring.toList).map Prod.fst := by
    rw [c.toMap.contains_iff, hkeys, List.mem_append]
  constructor
  · rw [sparsePlaces, h.sparse_nodup.count]
    refine if_congr ⟨fun hm => ⟨hmem.mpr (.inl hm),hs hm⟩,?_⟩ rfl rfl
    rintro ⟨hm,hlt⟩
    exact (hmem.mp hm).resolve_right (fun hm => Nat.not_lt.mpr (hr hm) hlt)
  · rw [ringPlaces, (nodup_liveFrom _ _).count]
    refine if_congr ⟨fun hm => ⟨hmem.mpr (.inr hm),hr hm⟩,?_⟩ rfl rfl
    rintro ⟨hm,hle⟩
    exact (hmem.mp hm).resolve_left (fun hm => Nat.not_lt.mpr hle (hs hm))

theorem valid_new : (new : Ledger N).Valid where
  ids := rfl
  sparse_lt _ hp := nomatch hp
  sparse_nodup := List.nodup_nil

/-- The ledger refines the map: every run returns the same, a live id has one place,
in the window exactly when it is not below the base, and ids neither come back nor
repeat. -/
theorem run_refines (ops : List LedgerOp) :
    let c := (new : Ledger N).run ops
    let a := (LedgerMap.new : LedgerMap N).run ops
    c.2 = a.2 ∧ c.1.base + c.1.ring.count = c.1.nextId + 1 ∧
    (∀ id, (c.1.find id).map (·.toRequest) = a.1.requests.lookup id) ∧
    (∀ id, c.1.sparsePlaces id = (if a.1.contains id ∧ id < c.1.base then 1 else 0) ∧
      c.1.ringPlaces id = (if a.1.contains id ∧ c.1.base ≤ id then 1 else 0)) ∧
    (∀ id, id ≤ c.1.nextId → c.1.contains id = false →
      ∀ more, (c.1.run more).1.contains id = false) ∧
    (LedgerMap.issued c.2).Pairwise (· < ·) := by
  intro c a
  obtain ⟨⟨hv,hm⟩,hout⟩ := valid_new.run (N := N) ops
  have hmap : c.1.toMap = a.1 := hm
  have hres : c.2 = a.2 := hout
  refine ⟨hres,hv.ids,fun id => ?_,fun id => ?_,fun id hid hc more => ?_,?_⟩
  · rw [← hmap, hv.lookup_toMap]
  · rw [← hmap]
    exact hv.places id
  · obtain ⟨⟨hv',hm'⟩,-⟩ := hv.run more
    rw [← hv'.contains_toMap, hm']
    exact LedgerMap.run_retired _ more hid (by rw [hv.contains_toMap]; exact hc)
  · rw [hres]
    exact (LedgerMap.run_issued _ ops).1

end Ledger
end Wirestead.Diagnostics
