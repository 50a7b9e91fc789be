import Wirestead.Diagnostics.LedgerMap

/-! # The two stores of the ledger as one map

The map of a ledger is its sparse store followed by the live slots of the ring under
their ids. Detached ids precede the window, so each id has one place.
-/
namespace Wirestead.Diagnostics
open Slots

/-- The live slots of a window that begins at id `b`. -/
def liveFrom : ℕ → List Entry → List (ℕ × Entry)
  | _, [] => []
  | b, e :: es => if e.live then (b,e) :: liveFrom (b + 1) es else liveFrom (b + 1) es

theorem liveFrom_live {b : ℕ} {e : Entry} {es : List Entry} (h : e.live = true) :
    liveFrom b (e :: es) = (b,e) :: liveFrom (b + 1) es := if_pos h

theorem liveFrom_dead {b : ℕ} {e : Entry} {es : List Entry} (h : e.live = false) :
    liveFrom b (e :: es) = liveFrom (b + 1) es := if_neg (by simp [h])

theorem liveFrom_append (b : ℕ) (es fs : List Entry) :
    liveFrom b (es ++ fs) = liveFrom b es ++ liveFrom (b + es.length) fs := by
  induction es generalizing b with
  | nil => rfl
  | cons e es ih =>
    simp only [List.cons_append, liveFrom, ih, List.length_cons]
    rw [show b + 1 + es.length = b + (es.length + 1) by omega]
    split <;> rfl

theorem mem_liveFrom {b : ℕ} {es : List Entry} {p : ℕ × Entry} (h : p ∈ liveFrom b es) :
    b ≤ p.1 ∧ p.1 < b + es.length ∧ p.2.live = true := by
  induction es generalizing b with
  | nil => cases h
  | cons e es ih =>
    rw [List.length_cons]
    unfold liveFrom at h
    split at h
    · rename_i hl
      rcases List.mem_cons.mp h with rfl | h
      · exact ⟨le_rfl,by omega,hl⟩
      · obtain ⟨h1,h2,h3⟩ := ih h
        exact ⟨by omega,by omega,h3⟩
    · obtain ⟨h1,h2,h3⟩ := ih h
      exact ⟨by omega,by omega,h3⟩

theorem nodup_liveFrom (b : ℕ) (es : List Entry) : ((liveFrom b es).map Prod.fst).Nodup := by
  induction es generalizing b with
  | nil => exact List.nodup_nil
  | cons e es ih =>
    unfold liveFrom
    split
    · rw [List.map_cons, List.nodup_cons]
      refine ⟨fun h => ?_,ih (b + 1)⟩
      obtain ⟨p,hp,he⟩ := List.mem_map.mp h
      have := (mem_liveFrom hp).1
      omega
    · exact ih (b + 1)

theorem lookup_liveFrom (b : ℕ) (es : List Entry) (id : ℕ) :
    (liveFrom b es).lookup id = if b ≤ id then es[id - b]?.filter (·.live) else none := by
  induction es generalizing b with
  | nil => simp [liveFrom]
  | cons e es ih =>
    by_cases hb : id = b
    · subst hb
      rw [if_pos le_rfl, Nat.sub_self, List.getElem?_cons_zero]
      by_cases hl : e.live = true
      · simp [liveFrom_live hl, Option.filter, hl]
      · rw [liveFrom_dead (Bool.not_eq_true _ ▸ hl), ih, if_neg (by omega)]
        simp [Option.filter, hl]
    · have hcons : (liveFrom b (e :: es)).lookup id = (liveFrom (b + 1) es).lookup id := by
        by_cases hl : e.live = true
        · rw [liveFrom_live hl, List.lookup_cons, beq_false_of_ne hb]
        · rw [liveFrom_dead (Bool.not_eq_true _ ▸ hl)]
      rw [hcons, ih]
      by_cases hle : b ≤ id
      · rw [if_pos hle, if_pos (by omega), show id - b = (id - (b + 1)) + 1 by omega,
          List.getElem?_cons_succ]
      · rw [if_neg hle, if_neg (by omega)]

theorem filter_liveFrom {b k : ℕ} (hk : k < b) (es : List Entry) :
    (liveFrom b es).filter (fun p => p.1 ≠ k) = liveFrom b es := by
  refine List.filter_eq_self.mpr (fun p hp => ?_)
  have := (mem_liveFrom hp).1
  exact decide_eq_true (by omega)

/-- Killing a slot takes its id out. -/
theorem liveFrom_set_dead (b i : ℕ) (es : List Entry) {e : Entry} (he : e.live = false) :
    liveFrom b (es.set i e) = (liveFrom b es).filter (fun p => p.1 ≠ b + i) := by
  induction es generalizing b i with
  | nil => rfl
  | cons x es ih =>
    have hfree := filter_liveFrom (show b < b + 1 by omega) es
    have h := ih (b + 1) (i - 1)
    cases i with
    | zero =>
      simp only [List.set_cons_zero, liveFrom_dead he, Nat.add_zero]
      by_cases hl : x.live = true
      · rw [liveFrom_live hl, List.filter_cons, if_neg (by simp), hfree]
      · rw [liveFrom_dead (Bool.not_eq_true _ ▸ hl), hfree]
    | succ i =>
      rw [Nat.add_sub_cancel, show b + 1 + i = b + (i + 1) by omega] at h
      rw [List.set_cons_succ]
      by_cases hl : x.live = true
      · rw [liveFrom_live hl, liveFrom_live hl, h, List.filter_cons, if_pos (by simp)]
      · rw [liveFrom_dead (Bool.not_eq_true _ ▸ hl), liveFrom_dead (Bool.not_eq_true _ ▸ hl), h]

/-- Changing a slot changes what is stored under its id. -/
theorem liveFrom_set (b : ℕ) {i : ℕ} {es : List Entry} {x : Entry} (hx : es[i]? = some x)
    {f : Entry → Entry} (hf : ∀ e, (f e).live = e.live) :
    liveFrom b (es.set i (f x)) =
      (liveFrom b es).map (fun p => if p.1 = b + i then (p.1,f p.2) else p) := by
  induction es generalizing b i with
  | nil => simp at hx
  | cons y es ih =>
    cases i with
    | zero =>
      rw [List.getElem?_cons_zero, Option.some.injEq] at hx
      subst hx
      have hkeep : (liveFrom (b + 1) es).map (fun p => if p.1 = b then (p.1,f p.2) else p) =
          liveFrom (b + 1) es := by
        refine (List.map_congr_left (fun p hp => ?_)).trans (List.map_id _)
        have := (mem_liveFrom hp).1
        exact if_neg (by omega)
      simp only [List.set_cons_zero, Nat.add_zero]
      cases hl : y.live with
      | true => rw [liveFrom_live ((hf y).trans hl), liveFrom_live hl, List.map_cons, hkeep, if_pos rfl]
      | false => rw [liveFrom_dead ((hf y).trans hl), liveFrom_dead hl, hkeep]
    | succ i =>
      rw [List.getElem?_cons_succ] at hx
      have h := ih (b + 1) hx
      rw [show b + 1 + i = b + (i + 1) by omega] at h
      rw [List.set_cons_succ]
      cases hl : y.live with
      | true => rw [liveFrom_live hl, liveFrom_live hl, h, List.map_cons, if_neg (by dsimp only; omega)]
      | false => rw [liveFrom_dead hl, liveFrom_dead hl, h]

section Sweep
variable {σ : Type*} (f : σ → Entry → σ)

/-- The loop that takes out the slots that `p` selects and folds over them. -/
theorem liveFrom_sweep (p : Entry → Bool) (b : ℕ) (es : List Entry) (acc : σ) :
    let r := Window.sweepList
      (fun acc e => if e.live && p e then (Ledger.retire e,f acc e) else (e,acc)) es acc
    liveFrom b r.1 = (liveFrom b es).filter (fun q => !p q.2) ∧
    r.2 = ((liveFrom b es).filter (fun q => p q.2)).foldl (fun acc q => f acc q.2) acc := by
  induction es generalizing b acc with
  | nil => exact ⟨rfl,rfl⟩
  | cons e es ih =>
    cases hl : e.live with
    | false =>
      obtain ⟨h1,h2⟩ := ih (b + 1) acc
      simp only [Window.sweepList, hl, Bool.false_and, Bool.false_eq_true, if_false,
        liveFrom_dead hl]
      exact ⟨h1,h2⟩
    | true =>
      cases hp : p e with
      | true =>
        obtain ⟨h1,h2⟩ := ih (b + 1) (f acc e)
        simp only [Window.sweepList, hl, hp, Bool.and_self, if_true, liveFrom_live hl]
        rw [liveFrom_dead rfl, List.filter_cons, List.filter_cons, if_neg (by simp [hp]),
          if_pos (by simpa using hp), List.foldl_cons]
        exact ⟨h1,h2⟩
      | false =>
        obtain ⟨h1,h2⟩ := ih (b + 1) acc
        simp only [Window.sweepList, hl, hp, Bool.and_false, Bool.false_eq_true, if_false]
        rw [liveFrom_live hl, liveFrom_live hl, List.filter_cons, List.filter_cons,
          if_pos (by simp [hp]), if_neg (by simp [hp]), h1]
        exact ⟨rfl,h2⟩

/-- The loop that clears every slot and folds over the live ones. -/
theorem sweep_clear (b : ℕ) (es : List Entry) (acc : σ) :
    (Window.sweepList (fun acc e => (default,if e.live then f acc e else acc)) es acc).2 =
      (liveFrom b es).foldl (fun acc q => f acc q.2) acc := by
  induction es generalizing b acc with
  | nil => rfl
  | cons e es ih =>
    cases hl : e.live with
    | false =>
      rw [liveFrom_dead hl, ← ih]
      simp only [Window.sweepList, hl, Bool.false_eq_true, if_false]
    | true =>
      rw [liveFrom_live hl, List.foldl_cons, ← ih]
      simp only [Window.sweepList, hl, if_true]

end Sweep

theorem promote_eq {m : List (ℕ × Entry)} {b : ℕ} (hm : ∀ p ∈ m, p.1 < b) (es : List Entry) :
    promote m b es = m ++ liveFrom b es := by
  induction es generalizing m b with
  | nil => rw [promote, liveFrom, List.append_nil]
  | cons e es ih =>
    unfold promote liveFrom
    split
    · have hnone : m.lookup b = none := by
        rw [List.lookup_eq_none_iff]
        intro p hp
        have := hm p hp
        simp
        omega
      rw [emplace, hnone, ih (b := b + 1)]
      · simp
      · intro p hp
        simp only [Option.isSome_none, Bool.false_eq_true, if_false, List.mem_append,
          List.mem_singleton] at hp
        rcases hp with hp | rfl
        · have := hm p hp
          omega
        · exact Nat.lt_succ_self b
    · exact ih (fun p hp => Nat.lt_succ_of_lt (hm p hp))

/-- What the abstract ledger keeps of a store. -/
def forget (m : List (ℕ × Entry)) : List (ℕ × Request) := m.map (fun p => (p.1,p.2.toRequest))

theorem lookup_forget (m : List (ℕ × Entry)) (id : ℕ) :
    (forget m).lookup id = (m.lookup id).map (·.toRequest) := by
  induction m with
  | nil => rfl
  | cons p m ih =>
    rw [forget, List.map_cons, List.lookup_cons, List.lookup_cons]
    split
    · rfl
    · exact ih

theorem forget_filter (m : List (ℕ × Entry)) (p : ℕ → Request → Bool) :
    forget (m.filter (fun q => p q.1 q.2.toRequest)) = (forget m).filter (fun q => p q.1 q.2) := by
  rw [forget, forget, List.filter_map]
  rfl

theorem foldl_forget {σ : Type*} (f : σ → Request → σ) (m : List (ℕ × Entry)) (acc : σ) :
    (forget m).foldl (fun acc q => f acc q.2) acc =
      m.foldl (fun acc q => f acc q.2.toRequest) acc := by
  rw [forget, List.foldl_map]

namespace Ledger
variable {N : Type*} (c : Ledger N)

/-- Both stores as one association list. -/
def entries : List (ℕ × Entry) := c.sparse ++ liveFrom c.base c.ring.toList

def toMap : LedgerMap N := ⟨forget c.entries,c.nextId,c.books⟩

/-- The ids of the window end at the last one issued, the detached ones precede it. -/
structure Valid : Prop where
  ids : c.base + c.ring.count = c.nextId + 1
  sparse_lt : ∀ p ∈ c.sparse, p.1 < c.base
  sparse_nodup : (c.sparse.map Prod.fst).Nodup

variable {c}

theorem Valid.lookup_sparse (h : c.Valid) {id : ℕ} (hid : c.base ≤ id) : c.sparse.lookup id = none := by
  rw [List.lookup_eq_none_iff]
  intro p hp
  have := h.sparse_lt p hp
  simp
  omega

/-- Looking in the one store that can hold the id is looking in both. -/
theorem Valid.find_eq (h : c.Valid) (id : ℕ) : c.find id = c.entries.lookup id := by
  rw [entries, List.lookup_append, lookup_liveFrom, find]
  by_cases hid : id < c.base
  · rw [if_pos hid, if_neg (by omega), Option.or_none]
  · have hle : c.base ≤ id := by omega
    rw [if_neg hid, if_pos hle, h.lookup_sparse hle, Option.none_or]
    by_cases hc : c.ring.count ≤ id - c.base
    · rw [if_pos hc, List.getElem?_eq_none (by simpa using hc)]
      rfl
    · rw [if_neg hc, c.ring.getElem?_toList (by omega)]
      cases hl : (c.ring.slot (id - c.base)).live <;> simp [Option.filter, hl]

theorem contains_eq (id : ℕ) : c.contains id = (c.find id).isSome := by
  unfold contains find
  split
  · rfl
  · by_cases hc : c.ring.count ≤ id - c.base
    · rw [if_pos hc]
      simp [hc]
    · rw [if_neg hc]
      cases (c.ring.slot (id - c.base)).live <;> simp [Nat.not_le.mp hc]

theorem Valid.lookup_toMap (h : c.Valid) (id : ℕ) :
    c.toMap.requests.lookup id = (c.find id).map (·.toRequest) := by
  rw [toMap, lookup_forget, h.find_eq]

theorem Valid.contains_toMap (h : c.Valid) (id : ℕ) : c.toMap.contains id = c.contains id := by
  rw [LedgerMap.contains, h.lookup_toMap, contains_eq, Option.isSome_map]

/-- A found request of the window is one of its slots. -/
theorem find_slot {id : ℕ} {e : Entry} (hid : ¬id < c.base) (h : c.find id = some e) :
    id - c.base < c.ring.count ∧ c.ring.slot (id - c.base) = e := by
  unfold find at h
  rw [if_neg hid] at h
  split at h
  · cases h
  · split at h
    · cases h
      exact ⟨by omega,rfl⟩
    · cases h

theorem Valid.modify (h : c.Valid) (id : ℕ) (f : Entry → Entry) : (c.modify id f).Valid := by
  unfold Ledger.modify
  split
  · refine ⟨h.ids,?_,?_⟩
    · intro p hp
      obtain ⟨q,hq,rfl⟩ := List.mem_map.mp hp
      have := h.sparse_lt q hq
      dsimp only
      split <;> exact this
    · have hk : (c.sparse.map (fun p => if p.1 = id then (p.1,f p.2) else p)).map Prod.fst =
          c.sparse.map Prod.fst := by
        rw [List.map_map]
        refine List.map_congr_left (fun p _ => ?_)
        simp only [Function.comp_apply]
        split <;> rfl
      dsimp only
      rw [hk]
      exact h.sparse_nodup
  · exact ⟨h.ids,h.sparse_lt,h.sparse_nodup⟩

theorem Valid.modify_entries (h : c.Valid) {id : ℕ} {e : Entry} (he : c.find id = some e)
    {f : Entry → Entry} (hf : ∀ e, (f e).live = e.live) :
    (c.modify id f).entries = c.entries.map (fun p => if p.1 = id then (p.1,f p.2) else p) := by
  unfold Ledger.modify entries
  rw [List.map_append]
  split
  · rename_i hid
    congr 1
    refine ((List.map_congr_left (fun p hp => ?_)).trans (List.map_id _)).symm
    have hp : c.base ≤ p.1 := (mem_liveFrom hp).1
    exact if_neg (by omega)
  · rename_i hid
    obtain ⟨hc,hs⟩ := find_slot hid he
    dsimp only
    rw [c.ring.toList_setSlot hc, liveFrom_set _ (c.ring.getElem?_toList hc) hf,
      show c.base + (id - c.base) = id by omega]
    congr 1
    refine ((List.map_congr_left (fun p hp => ?_)).trans (List.map_id _)).symm
    have := h.sparse_lt p hp
    exact if_neg (by omega)

end Ledger
end Wirestead.Diagnostics
