import Wirestead.Slots.Window

/-! # The slots outside a window

Every slot of the ring is one place counted from the head. A property of the slots
outside the window survives the operations that only write inside it.
-/
namespace Wirestead.Slots.Window
variable {α σ : Type*} [Inhabited α] {p : α → Prop} {r : Window α}

/-- The places after the window up to the size of the ring. -/
def Outside (p : α → Prop) (r : Window α) : Prop :=
  ∀ j, r.count ≤ j → j < r.slots.length → p (r.slot j)

omit [Inhabited α] in
/-- Each slot is some place. -/
theorem exists_index (r : Window α) {i : ℕ} (hi : i < r.slots.length) :
    ∃ j, j < r.slots.length ∧ r.index j = i := by
  have hne : r.slots ≠ [] := List.length_pos_iff.mp (by omega)
  have hmaps : Set.MapsTo r.index (Finset.range r.slots.length) (Finset.range r.slots.length) := by
    intro j _
    simpa using r.index_lt j hne
  have hinj : Set.InjOn r.index (Finset.range r.slots.length) := by
    intro j hj k hk h
    exact r.index_injective (by simpa using hj) (by simpa using hk) h
  obtain ⟨j,hj,hji⟩ := Finset.surjOn_of_injOn_of_card_le r.index hmaps hinj le_rfl
    (show i ∈ (Finset.range r.slots.length : Set ℕ) by simpa using hi)
  exact ⟨j,by simpa using hj,hji⟩

theorem slot_eq (r : Window α) {i j : ℕ} (hi : i < r.slots.length) (h : r.index j = i) :
    r.slot j = r.slots[i] := by
  subst h
  exact List.getD_eq_getElem _ _ hi

/-- Outside means at no place of the window. -/
theorem outside_iff : r.Outside p ↔
    ∀ i (h : i < r.slots.length), (∀ j < r.count, r.index j ≠ i) → p r.slots[i] := by
  constructor
  · intro hout i hi hno
    obtain ⟨j,hj,hji⟩ := r.exists_index hi
    rw [← r.slot_eq hi hji]
    exact hout j (Nat.le_of_not_lt (fun hlt => hno j hlt hji)) hj
  · intro hno j hcj hj
    have hne : r.slots ≠ [] := List.length_pos_iff.mp (by omega)
    have hi := r.index_lt j hne
    rw [r.slot_eq hi rfl]
    apply hno
    intro k hk he
    have := r.index_injective (by omega) hj he
    omega

/-- Outside and inside are all slots. -/
theorem Outside.forall_slots (h : r.Outside p) (hin : ∀ x ∈ r.toList, p x) : ∀ x ∈ r.slots, p x := by
  intro x hx
  obtain ⟨i,hi,rfl⟩ := List.mem_iff_getElem.mp hx
  obtain ⟨j,hj,hji⟩ := r.exists_index hi
  rw [← r.slot_eq hi hji]
  by_cases hc : j < r.count
  · apply hin
    simp only [toList, List.mem_map, List.mem_range]
    exact ⟨j,hc,rfl⟩
  · exact h j (by omega) hj

theorem outside_of_forall (h : ∀ x ∈ r.slots, p x) : r.Outside p := by
  intro j _ hj
  have hne : r.slots ≠ [] := List.length_pos_iff.mp (by omega)
  rw [r.slot_eq (r.index_lt j hne) rfl]
  exact h _ (List.getElem_mem _)

theorem outside_empty : (empty : Window α).Outside p := fun j _ hj => absurd hj (Nat.not_lt_zero j)

theorem Outside.setSlot (h : r.Outside p) {i : ℕ} (hi : i < r.count) (x : α) :
    (r.setSlot i x).Outside p := by
  have hc := r.count_le
  intro j hcj hj
  simp only [count_setSlot, length_slots_setSlot] at hcj hj
  rw [r.slot_setSlot (by omega) hj, if_neg (by omega)]
  exact h j hcj hj

theorem Outside.push (h : r.Outside p) (x : α) : (r.push x).Outside p := by
  by_cases hroom : r.count < r.slots.length
  · have hslot : ∀ j, (r.push x).slot j = (r.setSlot r.count x).slot j := by
      intro j
      rw [Window.push, dif_pos hroom]
      rfl
    have hcount : (r.push x).count = r.count + 1 := by rw [Window.push, dif_pos hroom]
    have hlen : (r.push x).slots.length = r.slots.length := by
      rw [Window.push, dif_pos hroom]
      exact List.length_set
    intro j hcj hj
    rw [hcount] at hcj
    rw [hlen] at hj
    rw [hslot, r.slot_setSlot hroom hj, if_neg (by omega)]
    exact h j (by omega) hj
  · rw [Window.push, dif_neg hroom]
    exact h

omit [Inhabited α] in
theorem length_slots_push (r : Window α) (x : α) : (r.push x).slots.length = r.slots.length := by
  unfold push
  split
  · exact List.length_set
  · rfl

/-- The slot that leaves the window is the last one outside. -/
theorem Outside.popFront (h : r.Outside p) (hcount : r.count ≠ 0) (h0 : p (r.slot 0)) :
    r.popFront.Outside p := by
  have hc := r.count_le
  have hne : r.slots ≠ [] := List.length_pos_iff.mp (by omega)
  have hslot : ∀ j, r.popFront.slot j = r.slot (j + 1) := by
    intro j
    simp only [slot]
    congr 1
    rw [r.popFront.index_eq_mod j hne, r.index_eq_mod (j + 1) hne]
    have h1 := r.index_eq_mod 1 hne
    simp only [index] at h1
    simp only [Window.popFront, h1]
    rw [Nat.mod_add_mod, Nat.add_assoc, Nat.add_comm 1 j]
  intro j hcj hj
  change r.count - 1 ≤ j at hcj
  change j < r.slots.length at hj
  rw [hslot]
  by_cases hlast : j + 1 < r.slots.length
  · exact h (j + 1) (by omega) hlast
  · have hwrap : r.slot (j + 1) = r.slot 0 := by
      simp only [slot]
      congr 1
      rw [r.index_eq_mod _ hne, r.index_eq_mod _ hne, show j + 1 = r.slots.length by omega,
        Nat.add_zero, Nat.add_mod_right]
    rw [hwrap]
    exact h0

theorem length_slots_grow (r : Window α) :
    r.grow.slots.length = if r.slots = [] then 16 else r.slots.length * 2 := by
  have hc := r.count_le
  simp only [grow, List.length_append, length_toList, List.length_replicate]
  split
  · rename_i h
    simp only [h, List.length_nil] at hc
    omega
  · omega

/-- A larger ring is filled up with the default. -/
theorem outside_grow (hdefault : p default) : r.grow.Outside p := by
  intro j hcj hj
  change r.count ≤ j at hcj
  have hne : r.grow.slots ≠ [] := List.length_pos_iff.mp (by omega)
  have hidx : r.grow.index j = j := by
    rw [r.grow.index_eq_mod j hne]
    change (0 + j) % _ = j
    rw [Nat.zero_add, Nat.mod_eq_of_lt hj]
  rw [r.grow.slot_eq hj hidx]
  simp only [grow]
  rw [List.getElem_append_right (by simpa using hcj), List.getElem_replicate]
  exact hdefault

theorem Outside.sweep (h : r.Outside p) (f : σ → α → α × σ) (acc : σ) :
    (r.sweep f acc).1.Outside p := by
  have hfold : ∀ (is : List ℕ) (q : Window α × σ), (∀ i ∈ is, i < q.1.count) → q.1.Outside p →
      (is.foldl (fun q i => (q.1.setSlot i (f q.2 (q.1.slot i)).1,(f q.2 (q.1.slot i)).2)) q).1.Outside p := by
    intro is
    induction is with
    | nil => exact fun _ _ h => h
    | cons i is ih =>
      intro q hlt hq
      apply ih
      · exact fun k hk => hlt k (List.mem_cons_of_mem _ hk)
      · exact hq.setSlot (hlt i List.mem_cons_self) _
  exact hfold _ _ (fun i hi => List.mem_range.mp hi) h

/-- A ring whose window is cleared has nothing else in it. -/
theorem Outside.clear (h : r.Outside p) (hdefault : p default) {f : σ → α → α × σ}
    (hf : ∀ acc x, (f acc x).1 = default) (acc : σ) : (r.sweep f acc).1.restart.Outside p := by
  have hlist : ∀ (xs : List α) (acc : σ), ∀ x ∈ (sweepList f xs acc).1, p x := by
    intro xs
    induction xs with
    | nil => exact fun _ x hx => absurd hx List.not_mem_nil
    | cons y ys ih =>
      intro acc x hx
      obtain rfl | hx := List.mem_cons.mp hx
      · rw [hf]
        exact hdefault
      · exact ih _ x hx
  apply outside_of_forall
  apply (h.sweep f acc).forall_slots
  rw [(r.sweep_eq f acc).1]
  exact hlist _ acc

end Wirestead.Slots.Window
