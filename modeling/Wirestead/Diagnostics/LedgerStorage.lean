import Wirestead.Slots.Outside
import Wirestead.Diagnostics.LedgerUnobserved

/-! # The storage of the ledger

The ring only grows while it is full and more than half of it is live, so its size is
bounded by the requests that were live at one time. Slots outside the window are free.
-/
namespace Wirestead.Diagnostics
open Slots
namespace Ledger

/-- The slots outside the window hold no live request. -/
def Vacant (r : Window Entry) : Prop := r.Outside (fun e => e.live = false)

/-- The size of the ring stays, and what is outside the window stays free. -/
structure KeepsRing (r q : Window Entry) : Prop where
  size : q.slots.length = r.slots.length
  vacant : Vacant r → Vacant q

theorem KeepsRing.refl (r : Window Entry) : KeepsRing r r := ⟨rfl,id⟩

theorem KeepsRing.trans {r q s : Window Entry} (h : KeepsRing r q) (h' : KeepsRing q s) : KeepsRing r s :=
  ⟨h'.size.trans h.size,fun hv => h'.vacant (h.vacant hv)⟩

variable {N : Type} {c : Ledger N}

theorem keepsRing_modify {id : ℕ} {e : Entry} (h : c.find id = some e) (f : Entry → Entry) :
    KeepsRing c.ring (c.modify id f).ring := by
  unfold Ledger.modify
  by_cases hid : id < c.base
  · simp only [if_pos hid]
    exact .refl _
  · simp only [if_neg hid]
    exact ⟨Window.length_slots_setSlot _ _ _,fun hv => hv.setSlot (find_slot hid h).1 _⟩

theorem keepsRing_compactLoop (n : ℕ) (c : Ledger N) : KeepsRing c.ring (compactLoop n c).ring := by
  induction n generalizing c with
  | zero => exact .refl _
  | succ n ih =>
    unfold compactLoop
    split
    · rename_i h
      apply KeepsRing.trans _ (ih _)
      exact ⟨rfl,fun hv => hv.popFront h.1 h.2⟩
    · exact .refl _

theorem keepsRing_compact (c : Ledger N) : KeepsRing c.ring c.compact.ring := keepsRing_compactLoop _ c

theorem keepsRing_erase {id : ℕ} {e : Entry} (h : c.find id = some e) :
    KeepsRing c.ring (c.erase id).ring := by
  unfold Ledger.erase
  split
  · exact .refl _
  · exact (keepsRing_modify h retire).trans (keepsRing_compact _)

/-- A request is finished, however it is settled. -/
theorem keepsRing_finish (c : Ledger N) (id : ℕ) (f : Entry → Books N) :
    KeepsRing c.ring (match c.find id with
      | none => c
      | some e => { c with books := f e }.erase id).ring := by
  cases he : c.find id with
  | none => exact .refl _
  | some e => exact keepsRing_erase (c := { c with books := f e }) he

theorem keepsRing_beginLocked (c : Ledger N) (id : ℕ) : KeepsRing c.ring (c.beginLocked id).1.ring := by
  unfold Ledger.beginLocked
  cases he : c.find id with
  | none => exact .refl _
  | some e => exact keepsRing_modify he _

theorem keepsRing_beginBatch (c : Ledger N) (ids : List ℕ) : KeepsRing c.ring (c.beginBatch ids).1.ring := by
  have hfold : ∀ (ids : List ℕ) (c : Ledger N),
      KeepsRing c.ring (ids.foldl (fun c id => (c.beginLocked id).1) c).ring := by
    intro ids
    induction ids with
    | nil => exact fun c => .refl _
    | cons id ids ih => exact fun c => (keepsRing_beginLocked c id).trans (ih _)
  unfold Ledger.beginBatch
  split
  · exact .refl _
  · exact hfold ids c

variable [CommRing N]

theorem keepsRing_completeBatch (c : Ledger N) (batch : List (ℕ × ℕ)) (n : ℕ) :
    KeepsRing c.ring (c.completeBatch batch n).ring := by
  induction batch generalizing c n with
  | nil => exact .refl _
  | cons p batch ih => exact (keepsRing_finish c p.1 _).trans (ih _ _)

theorem keepsRing_discardWaiting (c : Ledger N) (group : Option ℕ) (cause : Cause) :
    KeepsRing c.ring (c.discardWaiting group cause).ring := by
  cases group with
  | none => exact .refl _
  | some g =>
    unfold Ledger.discardWaiting
    apply KeepsRing.trans _ (keepsRing_compact _)
    exact ⟨(Window.sweep_eq _ _ _).2.2.2,fun hv => hv.sweep _ _⟩

theorem keepsRing_endAll (c : Ledger N) (cause : Cause) : KeepsRing c.ring (c.endAll cause).ring := by
  refine ⟨(Window.sweep_eq _ _ _).2.2.2,fun hv => ?_⟩
  apply hv.clear
  · rfl
  · exact fun _ _ => rfl

omit [CommRing N] in
/-- The ring grows only while more than half of it is live. -/
theorem makeRoom_ring (c : Ledger N) (hfull : c.ring.count = c.ring.slots.length) :
    (Vacant c.ring → Vacant c.makeRoom.ring) ∧
    (c.makeRoom.ring.slots.length = c.ring.slots.length ∨
      c.makeRoom.ring.slots.length ≤ max 16 (4 * c.ring.toList.countP (·.live))) := by
  unfold makeRoom
  split
  · refine ⟨fun hv => ?_,.inl (Window.sweep_eq _ _ _).2.2.2⟩
    apply hv.clear
    · rfl
    · exact fun _ _ => rfl
  · rename_i hlive
    refine ⟨fun _ => Window.outside_grow rfl,.inr ?_⟩
    dsimp only
    rw [Window.length_slots_grow]
    split
    · exact le_max_left _ _
    · rename_i hne
      have hmany : c.ring.count / 2 < c.ring.toList.countP (·.live) := by
        by_contra hle
        exact hlive ⟨hne,Nat.le_of_not_lt hle⟩
      apply le_max_of_le_right
      omega

/-- How many requests are live, in the map and in the window. -/
def liveCount (c : Ledger N) : ℕ := c.sparse.length + c.ring.toList.countP (·.live)

omit [CommRing N] in
theorem liveCount_eq (c : Ledger N) : c.liveCount = c.toMap.requests.length := by
  have hlive : ∀ (es : List Entry) (b : ℕ), (liveFrom b es).length = es.countP (·.live) := by
    intro es
    induction es with
    | nil => exact fun _ => rfl
    | cons e es ih =>
      intro b
      unfold liveFrom
      cases he : e.live <;> simp [he, ih]
  simp [liveCount, toMap, forget, entries, hlive]

/-- The storage for at most `m` requests that were live at one time. -/
structure Storage (m : ℕ) (c : Ledger N) : Prop where
  vacant : Vacant c.ring
  size : c.ring.slots.length ≤ max 16 (4 * m)

omit [CommRing N] in
theorem Storage.mono {m k : ℕ} (h : Storage m c) (hk : m ≤ k) : Storage k c :=
  ⟨h.vacant,h.size.trans (max_le_max le_rfl (Nat.mul_le_mul_left 4 hk))⟩

omit [CommRing N] in
theorem Storage.keeps {m : ℕ} {d : Ledger N} (h : Storage m c) (hk : KeepsRing c.ring d.ring) :
    Storage m d := ⟨hk.vacant h.vacant,hk.size ▸ h.size⟩

theorem Storage.admitRequest {m : ℕ} (h : Storage m c) (hlive : c.liveCount ≤ m) (bytes : ℕ)
    (group : Option ℕ) : Storage m (c.admitRequest bytes group).1 := by
  have hwindow : c.ring.toList.countP (·.live) ≤ m := (Nat.le_add_left _ _).trans hlive
  have hroom : Storage m (if c.ring.count = c.ring.slots.length then c.makeRoom else c) := by
    split
    · rename_i hfull
      obtain ⟨hv,hs⟩ := c.makeRoom_ring hfull
      refine ⟨hv h.vacant,?_⟩
      obtain hs | hs := hs
      · exact hs ▸ h.size
      · exact hs.trans (max_le_max le_rfl (Nat.mul_le_mul_left 4 hwindow))
    · exact h
  refine ⟨hroom.vacant.push _,?_⟩
  change (Window.push _ _).slots.length ≤ _
  rw [Window.length_slots_push]
  exact hroom.size

theorem Storage.step {m : ℕ} (h : Storage m c) (hlive : c.liveCount ≤ m) (op : LedgerOp) :
    Storage m (c.step op).1 := by
  cases op with
  | admitRequest bytes group => exact h.admitRequest hlive bytes group
  | «begin» id => exact h.keeps (keepsRing_beginLocked c id)
  | beginBatch ids => exact h.keeps (keepsRing_beginBatch c ids)
  | complete id n => exact h.keeps (keepsRing_finish c id _)
  | completeBatch batch n => exact h.keeps (keepsRing_completeBatch c batch n)
  | discard id cause => exact h.keeps (keepsRing_finish c id _)
  | discardWaiting group cause => exact h.keeps (keepsRing_discardWaiting c group cause)
  | rollback id => exact h.keeps (keepsRing_finish c id _)
  | endAll cause => exact h.keeps (keepsRing_endAll c cause)
  | reset => exact h.keeps (.refl _)
  | contains id => exact h
  | snapshot => exact h
  | groupSnapshot group => exact h

/-- The operations that took place: a call that throws is none. -/
def effective (c : Ledger N) : List LedgerCall → List LedgerOp
  | [] => []
  | .op op :: xs => op :: (c.call (.op op)).1.effective xs
  | .tryAdmit fails bytes group :: xs =>
    if (c.tryAdmit fails bytes group).2.isSome then
      .admitRequest bytes group :: (c.call (.tryAdmit fails bytes group)).1.effective xs
    else (c.call (.tryAdmit fails bytes group)).1.effective xs

end Ledger

/-- The largest number of requests that were live at one time of a run. -/
def LedgerMap.peak {N : Type} [CommRing N] (a : LedgerMap N) : List LedgerOp → ℕ
  | [] => a.requests.length
  | op :: ops => max a.requests.length ((a.step op).1.peak ops)

theorem LedgerMap.length_le_peak {N : Type} [CommRing N] (a : LedgerMap N) (ops : List LedgerOp) :
    a.requests.length ≤ a.peak ops := by
  cases ops with
  | nil => exact le_rfl
  | cons op ops => exact le_max_left _ _

namespace Ledger
variable {N : Type} [CommRing N] {c d : Ledger N}

theorem Indistinct.requests (h : Indistinct c d) : c.toMap.requests = d.toMap.requests := by
  have := h.agree.requests
  simpa using this

/-- A ledger whose admissions may throw beside one that makes the other calls only. -/
theorem Indistinct.effective (h : Indistinct c d) {m : ℕ} (hs : Storage m c) (xs : List LedgerCall) :
    Indistinct (c.calls xs).1 (d.run (c.effective xs)).1 ∧
    Storage (max m (d.toMap.peak (c.effective xs))) (c.calls xs).1 := by
  induction xs generalizing c d m with
  | nil => exact ⟨h,hs.mono (le_max_left _ _)⟩
  | cons x xs ih =>
    -- the requests before the call are as many as those of the other ledger
    have hlive : ∀ ops, c.liveCount ≤ max m (d.toMap.peak ops) := by
      intro ops
      rw [c.liveCount_eq, h.requests]
      exact (d.toMap.length_le_peak ops).trans (le_max_right _ _)
    have hstep : ∀ op, (c.call x).1 = (c.step op).1 →
        c.effective (x :: xs) = op :: (c.call x).1.effective xs →
        Indistinct (c.calls (x :: xs)).1 (d.run (c.effective (x :: xs))).1 ∧
        Storage (max m (d.toMap.peak (c.effective (x :: xs)))) (c.calls (x :: xs)).1 := by
      intro op hcall heff
      obtain ⟨h1,-⟩ := h.step op
      have hlater := ih (hcall ▸ h1) (hcall ▸ (hs.mono (le_max_left _ _)).step (hlive (c.effective (x :: xs))) op)
      have hmap : (d.step op).1.toMap = (d.toMap.step op).1 := (h.right.valid.step op).1.2
      rw [hmap] at hlater
      refine ⟨?_,hlater.2.mono ?_⟩
      · rw [heff]
        exact hlater.1
      · apply max_le le_rfl
        rw [heff]
        exact (le_max_right _ _).trans (le_max_right _ _)
    cases x with
    | op op => exact hstep op rfl rfl
    | tryAdmit fails bytes group =>
      obtain ht | ht := c.tryAdmit_cases fails bytes group
      · apply hstep (.admitRequest bytes group)
        · change (c.tryAdmit fails bytes group).1 = _
          rw [ht]
          rfl
        · exact if_pos (by rw [ht]; rfl)
      · have hcall : (c.call (.tryAdmit fails bytes group)).1 = { c with books := c.books.joinGroup group } := by
          change (c.tryAdmit fails bytes group).1 = _
          rw [ht]
        have heff : c.effective (.tryAdmit fails bytes group :: xs) =
            (c.call (.tryAdmit fails bytes group)).1.effective xs := if_neg (by rw [ht]; simp)
        rw [heff, Ledger.calls, hcall]
        exact ih (h.symm.joinGroup group).symm (hs.keeps (.refl _))

/-- After any calls the ring is empty or a power of two, the slots outside the window
are free, and there are at most four slots for each request that was live at one time,
16 at least. The map holds the live requests below the base, each once. -/
theorem storage_bounded (calls : List LedgerCall) :
    let c := ((new : Ledger N).calls calls).1
    let ops := (new : Ledger N).effective calls
    let a := (LedgerMap.new : LedgerMap N)
    (c.ring.slots.length = 0 ∨ ∃ k, c.ring.slots.length = 2 ^ k) ∧
    c.ring.count ≤ c.ring.slots.length ∧
    (∀ i (h : i < c.ring.slots.length), (∀ j < c.ring.count, c.ring.index j ≠ i) →
      c.ring.slots[i].live = false) ∧
    c.ring.slots.length ≤ max 16 (4 * a.peak ops) ∧
    (c.sparse.map Prod.fst).Nodup ∧
    ∀ id, id ∈ c.sparse.map Prod.fst ↔ (a.run ops).1.contains id = true ∧ id < c.base := by
  intro c ops a
  have hnew : Indistinct (new : Ledger N) new :=
    ⟨reached_new,reached_new,.refl _,⟨LedgerMap.Sound.new,LedgerMap.Sound.new,rfl,fun _ _ => rfl,rfl,
      fun _ _ h => by simp at h,fun _ _ h => by simp at h,Books.Alike.refl _⟩⟩
  have hs : Storage 0 (new : Ledger N) := ⟨Window.outside_empty,Nat.zero_le _⟩
  obtain ⟨h,hstorage⟩ := hnew.effective hs calls
  rw [Nat.zero_max] at hstorage
  refine ⟨c.ring.pow_two.imp (fun h => by rw [h]; rfl) id,c.ring.count_le,
    Window.outside_iff.mp hstorage.vacant,hstorage.size,h.left.valid.sparse_nodup,fun id => ?_⟩
  have hmap : ((new : Ledger N).run ops).1.toMap = (a.run ops).1 := (valid_new.run ops).1.2
  have hcontains : c.toMap.contains id = (a.run ops).1.contains id := by
    rw [← hmap]
    exact h.agree.contains rfl
  have hplaces : (c.sparse.map Prod.fst).count id = if c.toMap.contains id ∧ id < c.base then 1 else 0 :=
    (h.left.valid.places id).1
  rw [← List.count_pos_iff, hplaces, hcontains]
  split
  · rename_i hlive
    simpa using hlive
  · rename_i hlive
    simpa using hlive

end Ledger
end Wirestead.Diagnostics
