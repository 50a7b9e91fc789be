import Mathlib

/-! # A window that slides over a ring of slots

The ring has a power-of-two number of slots, or none at all, and is indexed with a
mask. Slot `i` of the window is the `i`-th one after the head. Everything about the
ring is stated through the list of its window.
-/
namespace Wirestead.Slots
variable {α σ : Type*} [Inhabited α]

/-- Slots outside the window may hold anything. -/
structure Window (α : Type*) where
  slots : List α
  head : ℕ
  count : ℕ
  count_le : count ≤ slots.length
  pow_two : slots = [] ∨ ∃ k, slots.length = 2 ^ k

namespace Window

def empty : Window α := ⟨[],0,0,le_rfl,.inl rfl⟩

def index (r : Window α) (i : ℕ) : ℕ := (r.head + i) &&& (r.slots.length - 1)

def slot (r : Window α) (i : ℕ) : α := r.slots.getD (r.index i) default

/-- The slots of the window, from the head on. -/
def toList (r : Window α) : List α := (List.range r.count).map r.slot

def setSlot (r : Window α) (i : ℕ) (x : α) : Window α where
  slots := r.slots.set (r.index i) x
  head := r.head
  count := r.count
  count_le := by rw [List.length_set]; exact r.count_le
  pow_two := by
    rcases r.pow_two with h | h
    · exact .inl (by rw [h, List.set_nil])
    · exact .inr (by rwa [List.length_set])

/-- One more slot at the end of the window, if there is room for it. -/
def push (r : Window α) (x : α) : Window α :=
  if h : r.count < r.slots.length then
    { slots := r.slots.set (r.index r.count) x
      head := r.head
      count := r.count + 1
      count_le := by rw [List.length_set]; exact h
      pow_two := (r.setSlot r.count x).pow_two }
  else r

/-- The window without its first slot. -/
def popFront (r : Window α) : Window α where
  slots := r.slots
  head := (r.head + 1) &&& (r.slots.length - 1)
  count := r.count - 1
  count_le := (Nat.sub_le _ _).trans r.count_le
  pow_two := r.pow_two

/-- The empty window on the same slots. -/
def restart (r : Window α) : Window α := ⟨r.slots,0,0,Nat.zero_le _,r.pow_two⟩

/-- The window moved to a ring of twice the size, 16 for the first one. -/
def grow (r : Window α) : Window α where
  slots := r.toList ++ List.replicate ((if r.slots = [] then 16 else r.slots.length * 2) - r.count)
    default
  head := 0
  count := r.count
  count_le := by simp [toList]
  pow_two := by
    have hc := r.count_le
    refine .inr ?_
    simp only [toList, List.length_append, List.length_map, List.length_range, List.length_replicate]
    rcases r.pow_two with h | ⟨k,h⟩
    · refine ⟨4,?_⟩
      rw [h, List.length_nil] at hc
      rw [if_pos h]
      omega
    · refine ⟨k + 1,?_⟩
      have h0 : r.slots ≠ [] := by
        rintro h0
        rw [h0, List.length_nil] at h
        exact absurd h.symm (Nat.two_pow_pos k).ne'
      rw [if_neg h0, pow_succ]
      omega

/-- A loop over the window that may replace each slot it visits. -/
def sweep (f : σ → α → α × σ) (r : Window α) (acc : σ) : Window α × σ :=
  (List.range r.count).foldl
    (fun p i => (p.1.setSlot i (f p.2 (p.1.slot i)).1,(f p.2 (p.1.slot i)).2)) (r,acc)

/-- The same loop over a list. -/
def sweepList (f : σ → α → α × σ) : List α → σ → List α × σ
  | [], acc => ([],acc)
  | x :: xs, acc => ((f acc x).1 :: (sweepList f xs (f acc x).2).1,(sweepList f xs (f acc x).2).2)

omit [Inhabited α] in
theorem index_eq_mod (r : Window α) (i : ℕ) (h : r.slots ≠ []) :
    r.index i = (r.head + i) % r.slots.length := by
  obtain ⟨k,hk⟩ := r.pow_two.resolve_left h
  rw [index, hk, Nat.and_two_pow_sub_one_eq_mod]

omit [Inhabited α] in
theorem index_lt (r : Window α) (i : ℕ) (h : r.slots ≠ []) : r.index i < r.slots.length := by
  rw [r.index_eq_mod i h]
  exact Nat.mod_lt _ (List.length_pos_iff.mpr h)

omit [Inhabited α] in
/-- Different places of the window are different slots. -/
theorem index_injective (r : Window α) {i j : ℕ} (hi : i < r.slots.length) (hj : j < r.slots.length)
    (h : r.index i = r.index j) : i = j := by
  have hne : r.slots ≠ [] := List.length_pos_iff.mp (by omega)
  rw [r.index_eq_mod i hne, r.index_eq_mod j hne] at h
  have hmod : i % r.slots.length = j % r.slots.length := Nat.ModEq.add_left_cancel' r.head h
  rwa [Nat.mod_eq_of_lt hi, Nat.mod_eq_of_lt hj] at hmod

@[simp] theorem length_toList (r : Window α) : r.toList.length = r.count := by simp [toList]

theorem getElem_toList (r : Window α) {i : ℕ} (h : i < r.toList.length) : r.toList[i] = r.slot i := by
  simp [toList]

theorem getElem?_toList (r : Window α) {i : ℕ} (h : i < r.count) : r.toList[i]? = some (r.slot i) := by
  rw [List.getElem?_eq_getElem (by simpa using h), getElem_toList]

@[simp] theorem toList_empty : (empty : Window α).toList = [] := rfl

@[simp] theorem toList_restart (r : Window α) : r.restart.toList = [] := rfl

omit [Inhabited α] in
@[simp] theorem length_slots_setSlot (r : Window α) (i : ℕ) (x : α) :
    (r.setSlot i x).slots.length = r.slots.length := List.length_set

omit [Inhabited α] in
@[simp] theorem count_setSlot (r : Window α) (i : ℕ) (x : α) : (r.setSlot i x).count = r.count := rfl

omit [Inhabited α] in
theorem index_setSlot (r : Window α) (i j : ℕ) (x : α) : (r.setSlot i x).index j = r.index j := by
  rw [index, index, length_slots_setSlot]
  rfl

/-- Writing one place of the window and reading any. -/
theorem slot_setSlot (r : Window α) {i j : ℕ} (hi : i < r.slots.length) (hj : j < r.slots.length)
    (x : α) : (r.setSlot i x).slot j = if i = j then x else r.slot j := by
  have hne : r.slots ≠ [] := List.length_pos_iff.mp (by omega)
  rw [slot, index_setSlot, setSlot, List.getD_eq_getElem?_getD, List.getElem?_set]
  by_cases h : i = j
  · rw [if_pos (by rw [h]), if_pos (r.index_lt i hne), if_pos h]
    rfl
  · rw [if_neg (fun he => h (r.index_injective hi hj he)), if_neg h, slot, List.getD_eq_getElem?_getD]

theorem toList_setSlot (r : Window α) {i : ℕ} (hi : i < r.count) (x : α) :
    (r.setSlot i x).toList = r.toList.set i x := by
  have hc := r.count_le
  refine List.ext_getElem (by simp) (fun j h1 h2 => ?_)
  rw [length_toList] at h1
  rw [getElem_toList, List.getElem_set, r.slot_setSlot (by omega) (by
    rw [count_setSlot] at h1
    omega), getElem_toList]

theorem toList_push (r : Window α) (x : α) (h : r.count < r.slots.length) :
    (r.push x).toList = r.toList ++ [x] := by
  have hcount : (r.push x).count = r.count + 1 := by rw [push, dif_pos h]
  have hset : ∀ j, (r.push x).slot j = (r.setSlot r.count x).slot j := by
    intro j
    rw [push, dif_pos h]
    rfl
  rw [toList, hcount, List.range_succ, List.map_append, List.map_singleton, hset,
    r.slot_setSlot h h, if_pos rfl]
  congr 1
  refine List.map_congr_left (fun j hj => ?_)
  rw [List.mem_range] at hj
  rw [hset, r.slot_setSlot h (by omega), if_neg (by omega)]

theorem toList_popFront (r : Window α) : r.popFront.toList = r.toList.tail := by
  refine List.ext_getElem ?_ (fun j h1 h2 => ?_)
  · rw [length_toList, List.length_tail, length_toList]
    rfl
  · rw [length_toList] at h1
    have hc := r.count_le
    change j < r.count - 1 at h1
    have hne : r.slots ≠ [] := List.length_pos_iff.mp (by omega)
    rw [getElem_toList, List.getElem_tail, getElem_toList, slot, slot]
    congr 1
    rw [r.popFront.index_eq_mod j hne, r.index_eq_mod (j + 1) hne]
    change ((r.head + 1) &&& (r.slots.length - 1)) + j ≡ r.head + (j + 1) [MOD r.slots.length]
    have h1 := r.index_eq_mod 1 hne
    rw [index] at h1
    rw [h1, ← Nat.add_assoc, Nat.add_right_comm]
    exact Nat.ModEq.add_right j (Nat.mod_modEq _ _)

theorem slot_popFront_zero (r : Window α) (h : 0 < r.count) :
    r.toList = r.slot 0 :: r.popFront.toList := by
  rw [toList_popFront]
  have hl : r.toList ≠ [] := List.length_pos_iff.mp (by simpa using h)
  cases hr : r.toList with
  | nil => exact absurd hr hl
  | cons x xs =>
    have h0 := r.getElem_toList (i := 0) (by simpa using h)
    simp only [hr, List.getElem_cons_zero] at h0
    rw [h0, List.tail_cons]

theorem toList_grow (r : Window α) : r.grow.toList = r.toList := by
  refine List.ext_getElem (by rw [length_toList, length_toList]; rfl) (fun j h1 h2 => ?_)
  rw [length_toList] at h2
  have hgl := r.grow.count_le
  have hne : r.grow.slots ≠ [] := List.length_pos_iff.mp (by
    change r.count ≤ _ at hgl
    omega)
  rw [getElem_toList, slot, r.grow.index_eq_mod j hne]
  change r.grow.slots.getD ((0 + j) % r.grow.slots.length) default = _
  rw [Nat.zero_add, Nat.mod_eq_of_lt (lt_of_lt_of_le h2 hgl), grow]
  dsimp only
  rw [List.getD_append _ _ _ _ (by simpa using h2), List.getD_eq_getElem _ _ (by simpa using h2)]

theorem count_lt_grow (r : Window α) : r.grow.count < r.grow.slots.length := by
  change r.count < _
  have hc := r.count_le
  simp only [grow, List.length_append, length_toList, List.length_replicate]
  split
  · rename_i h
    rw [h, List.length_nil] at hc
    omega
  · rename_i h
    have := List.length_pos_iff.mpr h
    omega

omit [Inhabited α] in
theorem length_sweepList (f : σ → α → α × σ) (xs : List α) (acc : σ) :
    (sweepList f xs acc).1.length = xs.length := by
  induction xs generalizing acc with
  | nil => rfl
  | cons x xs ih => simp [sweepList, ih]

omit [Inhabited α] in
theorem sweepList_append (f : σ → α → α × σ) (xs ys : List α) (acc : σ) :
    sweepList f (xs ++ ys) acc =
      ((sweepList f xs acc).1 ++ (sweepList f ys (sweepList f xs acc).2).1,
        (sweepList f ys (sweepList f xs acc).2).2) := by
  induction xs generalizing acc with
  | nil => rfl
  | cons x xs ih => simp [sweepList, ih]

/-- The slots that a loop writes do not depend on what it accumulates. -/
theorem sweep_window {τ : Type*} {f : σ → α → α × σ} {g : τ → α → α × τ}
    (hfg : ∀ acc acc' x, (f acc x).1 = (g acc' x).1) (r : Window α) (acc : σ) (acc' : τ) :
    (r.sweep f acc).1 = (r.sweep g acc').1 := by
  have h : ∀ (is : List ℕ) (r : Window α) (acc : σ) (acc' : τ),
      (is.foldl (fun p i => (p.1.setSlot i (f p.2 (p.1.slot i)).1,(f p.2 (p.1.slot i)).2)) (r,acc)).1 =
      (is.foldl (fun p i => (p.1.setSlot i (g p.2 (p.1.slot i)).1,(g p.2 (p.1.slot i)).2)) (r,acc')).1 := by
    intro is
    induction is with
    | nil => exact fun _ _ _ => rfl
    | cons i is ih =>
      intro r acc acc'
      rw [List.foldl_cons, List.foldl_cons, ih _ _ (g acc' (r.slot i)).2]
      dsimp only
      rw [hfg acc acc']
  exact h _ r acc acc'

/-- The loop over the ring does what the loop over its window does. -/
theorem sweep_eq (f : σ → α → α × σ) (r : Window α) (acc : σ) :
    (r.sweep f acc).1.toList = (sweepList f r.toList acc).1 ∧
    (r.sweep f acc).2 = (sweepList f r.toList acc).2 ∧
    (r.sweep f acc).1.count = r.count ∧ (r.sweep f acc).1.slots.length = r.slots.length := by
  -- after `n` turns the first `n` places are done and the others untouched
  have h : ∀ n ≤ r.count, ∀ p, p = (List.range n).foldl
      (fun p i => (p.1.setSlot i (f p.2 (p.1.slot i)).1,(f p.2 (p.1.slot i)).2)) (r,acc) →
      p.1.toList = (sweepList f (r.toList.take n) acc).1 ++ r.toList.drop n ∧
      p.2 = (sweepList f (r.toList.take n) acc).2 ∧ p.1.count = r.count ∧
      p.1.slots.length = r.slots.length := by
    intro n
    induction n with
    | zero =>
      rintro - p rfl
      simp [sweepList]
    | succ n ih =>
      rintro hn p rfl
      rw [List.range_succ, List.foldl_append]
      obtain ⟨h1,h2,h3,h4⟩ := ih (by omega) _ rfl
      generalize (List.range n).foldl _ (r,acc) = q at h1 h2 h3 h4 ⊢
      have hlen : n < r.toList.length := by rw [length_toList]; omega
      have htake : ((sweepList f (r.toList.take n) acc).1).length = n := by
        rw [length_sweepList, List.length_take]
        omega
      have hslot : q.1.slot n = r.toList[n] := by
        rw [← q.1.getElem_toList (i := n) (by rw [length_toList]; omega)]
        simp only [h1]
        rw [List.getElem_append_right (by omega)]
        simp [htake]
      rw [List.take_succ_eq_append_getElem hlen, sweepList_append]
      simp only [List.foldl_cons, List.foldl_nil, sweepList, count_setSlot, length_slots_setSlot]
      refine ⟨?_,by rw [hslot, h2],h3,h4⟩
      rw [q.1.toList_setSlot (by omega), h1, hslot, h2,
        List.set_append_right _ _ (by omega), htake, Nat.sub_self,
        List.drop_eq_getElem_cons hlen, List.set_cons_zero, List.append_assoc]
      rfl
  obtain ⟨h1,h2,h3,h4⟩ := h r.count le_rfl _ rfl
  rw [show r.toList.take r.count = r.toList from List.take_of_length_le (by simp),
    show r.toList.drop r.count = [] from List.drop_of_length_le (by simp), List.append_nil] at h1
  rw [show r.toList.take r.count = r.toList from List.take_of_length_le (by simp)] at h2
  exact ⟨h1,h2,h3,h4⟩

end Window
end Wirestead.Slots
