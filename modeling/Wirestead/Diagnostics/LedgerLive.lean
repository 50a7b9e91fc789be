import Wirestead.Diagnostics.LedgerRefinement

/-! # Which requests are live

A transport only asks whether a request is still outstanding. Each operation is
described here by what it does to that question, and by the ids it has issued.
-/
namespace Wirestead.Diagnostics.Ledger
variable {N : Type*} [CommRing N] {c : Ledger N}

omit [CommRing N] in
theorem Valid.live_iff (h : c.Valid) (id : ℕ) :
    c.contains id = true ↔ id ∈ c.toMap.requests.map Prod.fst := by
  rw [← h.contains_toMap, LedgerMap.contains_iff]

omit [CommRing N] in
/-- A live request has an id that was issued. -/
theorem Valid.live_le (h : c.Valid) {id : ℕ} (hid : c.contains id = true) : id ≤ c.nextId := by
  have hids := h.ids
  rw [contains_eq, Option.isSome_iff_exists] at hid
  obtain ⟨e,he⟩ := hid
  by_cases hb : id < c.base
  · omega
  · have hslot := (find_slot hb he).1
    omega

/-- No id becomes live and none is issued. -/
structure Retires (c d : Ledger N) : Prop where
  valid : d.Valid
  live : ∀ id, d.contains id = true → c.contains id = true
  nextId : d.nextId = c.nextId

omit [CommRing N] in
theorem Matches.retires {d : Ledger N} {a : LedgerMap N} (h : c.Valid) (hm : Matches d a)
    (hs : c.toMap.Shrinks a) : c.Retires d := by
  refine ⟨hm.valid,fun id hd => ?_,?_⟩
  · rw [hm.valid.live_iff, hm.toMap] at hd
    exact (h.live_iff id).mpr (hs.keys.subset hd)
  · have hn := hs.nextId
    rw [← hm.toMap] at hn
    exact hn

theorem Valid.retires_discard (h : c.Valid) (id : ℕ) (cause : Cause) :
    c.Retires (c.discard id cause) :=
  (h.matches_discard id cause).retires h (LedgerMap.shrinks_finish _ _ _)

theorem Valid.retires_completeBatch (h : c.Valid) (batch : List (ℕ × ℕ)) (n : ℕ) :
    c.Retires (c.completeBatch batch n) :=
  (h.matches_completeBatch batch n).retires h (LedgerMap.shrinks_completeBatch _ _ _)

omit [CommRing N] in
theorem Valid.retires_beginBatch (h : c.Valid) (ids : List ℕ) :
    c.Retires (c.beginBatch ids).1 :=
  (h.matches_beginBatch ids).1.retires h (LedgerMap.shrinks_beginBatch _ _)

theorem Valid.retires_reset (h : c.Valid) : c.Retires c.reset := by
  have hv : c.reset.Valid := ⟨h.ids,h.sparse_lt,h.sparse_nodup⟩
  exact ⟨hv,fun _ hd => hd,rfl⟩

theorem retires_endAll (h : c.Valid) (cause : Cause) : c.Retires (c.endAll cause) :=
  (matches_endAll cause).retires h (LedgerMap.shrinks_terminateAll _ _ _)

/-- After `end` nothing is live. -/
theorem contains_endAll (cause : Cause) (id : ℕ) : (c.endAll cause).contains id = false := by
  have hm := matches_endAll (c := c) cause
  rw [← Bool.not_eq_true, hm.valid.live_iff, hm.toMap, LedgerMap.endAll, LedgerMap.terminateAll]
  simp

omit [CommRing N] in
/-- A batch is handed over only if all its requests are live. -/
theorem Valid.beginBatch_live (h : c.Valid) {ids : List ℕ} (hb : (c.beginBatch ids).2 = true) :
    ∀ id ∈ ids, c.contains id = true := by
  intro id hid
  rw [(h.matches_beginBatch ids).2, LedgerMap.beginBatch] at hb
  split at hb
  · rename_i hall
    rw [← h.contains_toMap]
    exact List.all_eq_true.mp hall id hid
  · simp at hb

omit [CommRing N] in
/-- And it is handed over if they all are. -/
theorem Valid.beginBatch_of_live (h : c.Valid) {ids : List ℕ} (hall : ∀ id ∈ ids, c.contains id = true) :
    (c.beginBatch ids).2 = true := by
  rw [(h.matches_beginBatch ids).2, LedgerMap.beginBatch, if_pos]
  rw [List.all_eq_true]
  intro id hid
  rw [h.contains_toMap]
  exact hall id hid

/-- Completing a batch leaves the other requests alone. -/
theorem Valid.completeBatch_live (h : c.Valid) {batch : List (ℕ × ℕ)} (n : ℕ) {id : ℕ}
    (hid : id ∉ batch.map Prod.fst) : (c.completeBatch batch n).contains id = c.contains id := by
  have hfinish : ∀ (a : LedgerMap N) (k m : ℕ), id ≠ k →
      (id ∈ (a.complete k m).requests.map Prod.fst ↔ id ∈ a.requests.map Prod.fst) := by
    intro a k m hne
    unfold LedgerMap.complete LedgerMap.finish
    split
    · exact Iff.rfl
    · simp only [eraseKey, List.mem_map, List.mem_filter, decide_eq_true_eq]
      constructor
      · rintro ⟨p,⟨hp,-⟩,rfl⟩
        exact ⟨p,hp,rfl⟩
      · rintro ⟨p,hp,rfl⟩
        exact ⟨p,⟨hp,hne⟩,rfl⟩
  have hbatch : ∀ (rest : List (ℕ × ℕ)) (a : LedgerMap N) (m : ℕ), id ∉ rest.map Prod.fst →
      (id ∈ (a.completeBatch rest m).requests.map Prod.fst ↔ id ∈ a.requests.map Prod.fst) := by
    intro rest
    induction rest with
    | nil => exact fun _ _ _ => Iff.rfl
    | cons p rest ih =>
      intro a m hp
      rw [List.map_cons, List.mem_cons, not_or] at hp
      exact (ih _ _ hp.2).trans (hfinish a p.1 _ hp.1)
  have hm := h.matches_completeBatch batch n
  rw [Bool.eq_iff_iff, hm.valid.live_iff, hm.toMap, h.live_iff]
  exact hbatch batch _ n hid

omit [CommRing N] in
/-- Handing a batch over ends no request. -/
theorem Valid.contains_beginBatch (h : c.Valid) (ids : List ℕ) (id : ℕ) :
    (c.beginBatch ids).1.contains id = c.contains id := by
  have hactivate : ∀ (a : LedgerMap N) k, (a.activate k).requests.map Prod.fst = a.requests.map Prod.fst := by
    intro a k
    rw [LedgerMap.activate, alterKey, List.map_map]
    apply List.map_congr_left
    intro p _
    simp only [Function.comp_apply]
    split <;> rfl
  have hfold : ∀ (a : LedgerMap N), (ids.foldl LedgerMap.activate a).requests.map Prod.fst =
      a.requests.map Prod.fst := by
    induction ids with
    | nil => exact fun _ => rfl
    | cons k ids ih => exact fun a => (ih _).trans (hactivate a k)
  have hm := (h.matches_beginBatch ids).1
  rw [Bool.eq_iff_iff, hm.valid.live_iff, hm.toMap, h.live_iff, LedgerMap.beginBatch]
  split
  · rw [hfold]
  · exact Iff.rfl

/-- An admission issues the next id and makes it live. -/
theorem Valid.admitRequest_live (h : c.Valid) (bytes : ℕ) (group : Option ℕ) :
    (c.admitRequest bytes group).1.Valid ∧ (c.admitRequest bytes group).2 = c.nextId + 1 ∧
    (c.admitRequest bytes group).1.nextId = c.nextId + 1 ∧
    ∀ id, (c.admitRequest bytes group).1.contains id = true ↔
      c.contains id = true ∨ id = c.nextId + 1 := by
  obtain ⟨hm,-⟩ := h.matches_admitRequest bytes group
  refine ⟨hm.valid,rfl,?_,fun id => ?_⟩
  · exact congrArg LedgerMap.nextId hm.toMap
  · rw [hm.valid.live_iff, hm.toMap, h.live_iff, LedgerMap.admitRequest]
    simp only [List.map_append, List.mem_append, List.map_cons, List.map_nil, List.mem_singleton]
    rfl

/-- A rolled back admission leaves the live requests as they were. -/
theorem Valid.rollback_live (h : c.Valid) (id : ℕ) :
    c.Retires (c.rollback id) ∧
    ∀ id', (c.rollback id).contains id' = true ↔ c.contains id' = true ∧ id' ≠ id := by
  have hm := h.matches_rollback id
  refine ⟨hm.retires h (LedgerMap.shrinks_finish _ _ _),fun id' => ?_⟩
  rw [hm.valid.live_iff, hm.toMap, h.live_iff, LedgerMap.rollback, LedgerMap.finish]
  cases hl : c.toMap.requests.lookup id with
  | none =>
    rw [List.lookup_eq_none_iff] at hl
    simp only [List.mem_map, iff_self_and]
    rintro ⟨p,hp,rfl⟩ heq
    exact absurd (hl p hp) (by simp [heq])
  | some r =>
    simp only [eraseKey, List.mem_map, List.mem_filter, decide_eq_true_eq]
    constructor
    · rintro ⟨p,⟨hp,hne⟩,rfl⟩
      exact ⟨⟨p,hp,rfl⟩,hne⟩
    · rintro ⟨⟨p,hp,rfl⟩,hne⟩
      exact ⟨p,⟨hp,hne⟩,rfl⟩

end Wirestead.Diagnostics.Ledger
