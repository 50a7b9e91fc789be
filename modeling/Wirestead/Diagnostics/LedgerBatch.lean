import Wirestead.Diagnostics.LedgerEpochs

/-! # Gathered completions

The confirmed prefix of a batch is counted byte by byte: each byte belongs to one item,
and a byte of a request that is no longer live, or of an older epoch, counts for none.
-/
namespace Wirestead.Diagnostics

/-- The bytes of a batch in the order of the wire, each under the id of its request. -/
def batchBytes (batch : List (ℕ × ℕ)) : List ℕ := batch.flatMap (fun p => List.replicate p.2 p.1)

/-- The items up to the `i`-th one are covered by `n` bytes; an empty item always is. -/
def Covers (batch : List (ℕ × ℕ)) (n i : ℕ) : Prop :=
  ((batch.take (i + 1)).map Prod.snd).sum ≤ n ∨ (batch.map Prod.snd)[i]? = some 0

instance (batch : List (ℕ × ℕ)) (n i : ℕ) : Decidable (Covers batch n i) :=
  inferInstanceAs (Decidable (_ ∨ _))

section Totals
variable {N : Type} [CommRing N]

/-- One outstanding request is written, or aborted by the loss of its connection. -/
def itemTotals (bytes : ℕ) (written : Prop) [Decidable written] : SendAccounting N :=
  if written then { (0 : SendAccounting N) with written := one bytes, outstanding := ⟨-1,-bytes⟩ }
  else { (0 : SendAccounting N) with connectionLoss := lost bytes true, outstanding := ⟨-1,-bytes⟩ }

def confirmedTotals (bytes : ℕ) : SendAccounting N :=
  { (0 : SendAccounting N) with confirmedWrittenBytes := bytes }

/-- What the completion of a batch adds for the requests that `sel` selects. -/
def batchTotals (sel : ℕ → Bool) (batch : List (ℕ × ℕ)) (n : ℕ) : SendAccounting N :=
  ∑ i : Fin batch.length, (if sel batch[i].1 then itemTotals batch[i].2 (Covers batch n i) else 0) +
    confirmedTotals (((batchBytes batch).take n).countP sel)

theorem confirmedTotals_add (m n : ℕ) :
    (confirmedTotals (m + n) : SendAccounting N) = confirmedTotals m + confirmedTotals n := by
  ext <;> simp [confirmedTotals]

theorem confirmedTotals_zero : (confirmedTotals 0 : SendAccounting N) = 0 := by
  ext <;> simp [confirmedTotals]

/-- A completed request is written or lost, and its share of the prefix is confirmed. -/
theorem settling_completed (q : Request) (n : ℕ) :
    (settling q (.completed (min n q.bytes)) : SendAccounting N) =
      itemTotals q.bytes (q.bytes ≤ n ∨ q.bytes = 0) + confirmedTotals (min n q.bytes) := by
  rw [settling, sub_eq_iff_eq_add]
  by_cases h : q.bytes ≤ n
  · ext <;> simp [contribution, itemTotals, confirmedTotals, h, one]
  · have hmin : min n q.bytes = n := Nat.min_eq_left (Nat.not_le.mp h).le
    have hzero : q.bytes ≠ 0 := by omega
    ext <;> simp [contribution, itemTotals, confirmedTotals, h, hmin, hzero, one, lost]

end Totals

section Prefix
variable {id size n : ℕ} {rest : List (ℕ × ℕ)}

/-- The first item takes its bytes, what remains is spread over the others. -/
theorem take_batchBytes_cons : (batchBytes ((id,size) :: rest)).take n =
    List.replicate (min n size) id ++ (batchBytes rest).take (n - min n size) := by
  have hcons : batchBytes ((id,size) :: rest) = List.replicate size id ++ batchBytes rest := rfl
  rw [hcons, List.take_append, List.take_replicate, List.length_replicate]
  congr 2
  omega

theorem covers_zero : Covers ((id,size) :: rest) n 0 ↔ size ≤ n ∨ size = 0 := by
  simp [Covers]

theorem covers_succ (i : ℕ) (hi : i < rest.length) :
    Covers ((id,size) :: rest) n (i + 1) ↔ Covers rest (n - min n size) i := by
  have hpos : (rest.map Prod.snd)[i]? ≠ some 0 → 0 < ((rest.take (i + 1)).map Prod.snd).sum := by
    intro hne
    rw [List.take_succ_eq_append_getElem hi, List.map_append, List.sum_append]
    have : rest[i].2 ≠ 0 := fun h0 => hne (by simp [hi, h0])
    simp
    omega
  simp only [Covers, List.take_succ_cons, List.map_cons, List.sum_cons, List.getElem?_cons_succ]
  by_cases hempty : (rest.map Prod.snd)[i]? = some 0
  · simp [hempty]
  · have := hpos hempty
    simp only [hempty, or_false]
    omega

theorem mem_batchBytes {batch : List (ℕ × ℕ)} {k : ℕ} (h : k ∈ batchBytes batch) :
    ∃ p ∈ batch, p.1 = k := by
  obtain ⟨p,hp,hk⟩ := List.mem_flatMap.mp h
  exact ⟨p,hp,(List.eq_of_mem_replicate hk).symm⟩

variable {N : Type} [CommRing N]

theorem batchTotals_cons (sel : ℕ → Bool) :
    (batchTotals sel ((id,size) :: rest) n : SendAccounting N) =
      (if sel id then itemTotals size (size ≤ n ∨ size = 0) + confirmedTotals (min n size) else 0) +
        batchTotals sel rest (n - min n size) := by
  have hitems : (∑ i : Fin ((id,size) :: rest).length,
      (if sel ((id,size) :: rest)[i].1 then
        itemTotals ((id,size) :: rest)[i].2 (Covers ((id,size) :: rest) n i) else 0) : SendAccounting N) =
      (if sel id then itemTotals size (size ≤ n ∨ size = 0) else 0) +
        ∑ i : Fin rest.length,
          if sel rest[i].1 then itemTotals rest[i].2 (Covers rest (n - min n size) i) else 0 := by
    refine (Fin.sum_univ_succ (n := rest.length) _).trans ?_
    congr 1
    · simp [itemTotals, covers_zero]
    · apply Finset.sum_congr rfl
      intro i _
      simp [itemTotals, covers_succ (i : ℕ) i.2]
  unfold batchTotals
  rw [hitems, take_batchBytes_cons, List.countP_append, confirmedTotals_add, List.countP_replicate]
  cases sel id
  · simp [confirmedTotals_zero]
  · simp only [if_true]
    abel

theorem batchTotals_congr {sel sel' : ℕ → Bool} {batch : List (ℕ × ℕ)}
    (h : ∀ p ∈ batch, sel p.1 = sel' p.1) (n : ℕ) :
    (batchTotals sel batch n : SendAccounting N) = batchTotals sel' batch n := by
  unfold batchTotals
  congr 1
  · apply Finset.sum_congr rfl
    intro i _
    rw [h batch[i] (List.getElem_mem i.2)]
  · congr 1
    apply List.countP_congr
    intro k hk
    obtain ⟨p,hp,rfl⟩ := mem_batchBytes (List.mem_of_mem_take hk)
    rw [h p hp]

end Prefix

namespace LedgerMap
variable {N : Type} [CommRing N] {a : LedgerMap N}

/-- A live request of the current epoch that `sel` selects. -/
def current (a : LedgerMap N) (sel : Request → Bool) (id : ℕ) : Bool :=
  (a.requests.lookup id).any (fun q => decide (q.epoch = a.books.epoch) && sel q)

omit [CommRing N] in
theorem lookup_eraseKey {m : List (ℕ × Request)} {id k : ℕ} (h : k ≠ id) :
    (eraseKey m id).lookup k = m.lookup k := by
  unfold eraseKey
  induction m with
  | nil => rfl
  | cons p m ih =>
    by_cases hp : p.1 = id
    · rw [List.filter_cons_of_neg (by simpa using hp), List.lookup_cons, ih,
        beq_false_of_ne (by omega)]
    · rw [List.filter_cons_of_pos (by simpa using hp), List.lookup_cons, List.lookup_cons, ih]

omit [CommRing N] in
theorem eraseKey_of_lookup_eq_none {m : List (ℕ × Request)} {id : ℕ} (h : m.lookup id = none) :
    eraseKey m id = m := by
  rw [List.lookup_eq_none_iff] at h
  apply List.filter_eq_self.mpr
  intro p hp
  have := h p hp
  simp at this ⊢
  omega

omit [CommRing N] in
theorem requests_finish (a : LedgerMap N) (id : ℕ) (f : Request → SendAccounting N → SendAccounting N) :
    (a.finish id f).requests = eraseKey a.requests id := by
  unfold finish
  split
  · rename_i h
    exact (eraseKey_of_lookup_eq_none h).symm
  · rfl

/-- Completing one item: what the ledger shows, and what a group shows. -/
theorem books_complete (h : a.Sound) {id size : ℕ}
    (hsize : ∀ q, a.requests.lookup id = some q → q.bytes = size) (n : ℕ) :
    (a.complete id (min n size)).books.epoch = a.books.epoch ∧
    (a.complete id (min n size)).books.totals = a.books.totals +
      (if a.current (fun _ => true) id then
        itemTotals size (size ≤ n ∨ size = 0) + confirmedTotals (min n size) else 0) ∧
    ∀ g, (a.complete id (min n size)).books.groupSnapshot (some g) = a.books.groupSnapshot (some g) +
      (if a.current (fun q => decide (q.group = some g)) id then
        itemTotals size (size ≤ n ∨ size = 0) + confirmedTotals (min n size) else 0) := by
  unfold complete finish current
  cases hl : a.requests.lookup id with
  | none => simp
  | some q =>
    have hq : q.bytes = size := hsize q hl
    subst hq
    have hmem : (id,q) ∈ a.requests := by
      obtain ⟨xs,ys,hxs,-⟩ := List.lookup_eq_some_iff.mp hl
      simp [hxs]
    have hjoined : a.books.Joined q := h.joined _ hmem
    dsimp only
    refine ⟨(a.books.update_epochs q _).1,?_,fun g => ?_⟩
    · by_cases he : q.epoch = a.books.epoch
      · have htotals : (a.books.update q (fun t => t.complete q.bytes (min n q.bytes))).totals =
            a.books.totals.complete q.bytes (min n q.bytes) := by
          unfold Books.update
          rw [if_pos he]
          split <;> rfl
        rw [htotals, complete_eq, settling_completed]
        simp [he]
      · rw [Books.update_stale he]
        simp [he]
    · rw [Books.groupSnapshot_update hjoined, complete_eq, settling_completed]
      by_cases hsel : q.epoch = a.books.epoch ∧ q.group = some g
      · simp [hsel]
      · have : ¬(q.epoch = a.books.epoch ∧ q.group = some g) := hsel
        rw [if_neg hsel, if_neg (by simpa using hsel), add_zero]

/-- A whole batch: each item is completed once, with its share of the prefix. -/
theorem completeBatch_spec (h : a.Sound) {batch : List (ℕ × ℕ)} (hn : (batch.map Prod.fst).Nodup)
    (hsize : ∀ p ∈ batch, ∀ q, a.requests.lookup p.1 = some q → q.bytes = p.2) (n : ℕ) :
    (a.completeBatch batch n).requests = a.requests.filter (fun q => q.1 ∉ batch.map Prod.fst) ∧
    (a.completeBatch batch n).books.totals = a.books.totals +
      batchTotals (a.current (fun _ => true)) batch n ∧
    ∀ g, (a.completeBatch batch n).books.groupSnapshot (some g) = a.books.groupSnapshot (some g) +
      batchTotals (a.current (fun q => decide (q.group = some g))) batch n := by
  induction batch generalizing a n with
  | nil =>
    simp [completeBatch, batchTotals, batchBytes, confirmedTotals_zero]
  | cons p batch ih =>
    obtain ⟨id,size⟩ := p
    rw [List.map_cons, List.nodup_cons] at hn
    have hother : ∀ p ∈ batch, p.1 ≠ id := fun p hp he => hn.1 (List.mem_map.mpr ⟨p,hp,he⟩)
    obtain ⟨hepoch,htotals,hgroups⟩ := books_complete h (hsize (id,size) List.mem_cons_self) n
    dsimp only at hepoch htotals hgroups
    set b := a.complete id (min n size) with hb
    have hsound : b.Sound := h.finish id _
    have hrequests : b.requests = eraseKey a.requests id := a.requests_finish id _
    have hlookup : ∀ p ∈ batch, b.requests.lookup p.1 = a.requests.lookup p.1 := by
      intro p hp
      rw [hrequests, lookup_eraseKey (hother p hp)]
    have hcurrent : ∀ sel, ∀ p ∈ batch, b.current sel p.1 = a.current sel p.1 := by
      intro sel p hp
      unfold current
      rw [hlookup p hp, hepoch]
    obtain ⟨h1,h2,h3⟩ := ih hsound hn.2
      (fun p hp q hq => hsize p (List.mem_cons_of_mem _ hp) q (hlookup p hp ▸ hq)) (n - min n size)
    change (b.completeBatch batch (n - min n size)).requests = _ ∧
      (b.completeBatch batch (n - min n size)).books.totals = _ ∧
      ∀ g, (b.completeBatch batch (n - min n size)).books.groupSnapshot (some g) = _
    refine ⟨?_,?_,fun g => ?_⟩
    · rw [h1, hrequests, eraseKey, List.filter_filter]
      apply List.filter_congr
      intro q _
      simp only [List.map_cons, List.mem_cons, decide_not, Bool.decide_or, Bool.not_or]
      exact Bool.and_comm _ _
    · rw [h2, htotals, batchTotals_cons, batchTotals_congr (hcurrent _), add_assoc]
    · rw [h3 g, hgroups g, batchTotals_cons, batchTotals_congr (hcurrent _), add_assoc]

end LedgerMap

namespace Ledger
variable {N : Type} [CommRing N] {c : Ledger N}

/-- A live request of the current epoch that `sel` selects. -/
def current (c : Ledger N) (sel : Request → Bool) (id : ℕ) : Bool :=
  (c.find id).any (fun e => decide (e.epoch = c.books.epoch) && sel e.toRequest)

omit [CommRing N] in
theorem Valid.current_toMap (h : c.Valid) (sel : Request → Bool) : c.toMap.current sel = c.current sel := by
  funext id
  unfold LedgerMap.current current
  rw [h.lookup_toMap]
  cases c.find id <;> rfl

/-- A batch of requests that are gone is consumed without effect. -/
theorem completeBatch_of_find_eq_none {batch : List (ℕ × ℕ)} (h : ∀ p ∈ batch, c.find p.1 = none) (n : ℕ) :
    c.completeBatch batch n = c := by
  induction batch generalizing n with
  | nil => rfl
  | cons p batch ih =>
    have hsame : ∀ k, c.completeLocked p.1 k = c := by
      intro k
      unfold completeLocked
      rw [h p List.mem_cons_self]
    unfold completeBatch
    dsimp only
    rw [hsame]
    exact ih (fun q hq => h q (List.mem_cons_of_mem _ hq)) _

/-- A batch of distinct requests with their sizes: each live one is settled once with
its share of the prefix, no other request changes, and a second completion does nothing. -/
theorem completeBatch_attributes (calls : List LedgerCall) (batch : List (ℕ × ℕ)) (n : ℕ) :
    let c := ((new : Ledger N).calls calls).1
    let d := c.completeBatch batch n
    (batch.map Prod.fst).Nodup → (∀ p ∈ batch, ∀ e, c.find p.1 = some e → e.bytes = p.2) →
    d.books.snapshot = c.books.snapshot + batchTotals (c.current (fun _ => true)) batch n ∧
    (∀ g, d.books.groupSnapshot (some g) = c.books.groupSnapshot (some g) +
      batchTotals (c.current (fun q => decide (q.group = some g))) batch n) ∧
    (∀ p ∈ batch, d.find p.1 = none) ∧
    (∀ id, id ∉ batch.map Prod.fst → (d.find id).map (·.toRequest) = (c.find id).map (·.toRequest)) ∧
    ∀ m, d.completeBatch batch m = d := by
  intro c d hn hsize
  have hc : c.Reached := reached_new.calls calls
  have hd : d.Reached := hc.step (.completeBatch batch n)
  have hmap : d.toMap = c.toMap.completeBatch batch n := (hc.valid.step (.completeBatch batch n)).1.2
  have hsize' : ∀ p ∈ batch, ∀ q, c.toMap.requests.lookup p.1 = some q → q.bytes = p.2 := by
    intro p hp q hq
    rw [hc.valid.lookup_toMap, Option.map_eq_some_iff] at hq
    obtain ⟨e,he,rfl⟩ := hq
    exact hsize p hp e he
  obtain ⟨hrequests,htotals,hgroups⟩ := LedgerMap.completeBatch_spec hc.sound hn hsize' n
  simp only [← hmap, hc.valid.current_toMap] at hrequests htotals hgroups
  have hlookup : ∀ id, (d.find id).map (·.toRequest) =
      (c.toMap.requests.filter (fun q => q.1 ∉ batch.map Prod.fst)).lookup id := by
    intro id
    rw [← hd.valid.lookup_toMap, hrequests]
  have hgone : ∀ p ∈ batch, d.find p.1 = none := by
    intro p hp
    rw [← Option.map_eq_none_iff (f := fun e : Entry => e.toRequest), hlookup, List.lookup_eq_none_iff]
    intro q hq
    have hnot := (List.mem_filter.mp hq).2
    simp only [decide_eq_true_eq] at hnot
    simp only [ne_eq, bne_iff_ne]
    intro he
    exact hnot (he ▸ List.mem_map_of_mem hp)
  refine ⟨htotals,hgroups,hgone,fun id hid => ?_,completeBatch_of_find_eq_none hgone⟩
  rw [hlookup, ← hc.valid.lookup_toMap]
  induction c.toMap.requests with
  | nil => rfl
  | cons q qs ih =>
    rw [List.filter_cons, List.lookup_cons, ← ih]
    split
    · rw [List.lookup_cons]
    · rename_i hmem
      have hne : id ≠ q.1 := by
        rintro rfl
        exact hmem (by simpa using hid)
      rw [beq_false_of_ne hne]

/-- A retired request, one of an older epoch and a current one that the prefix reaches. -/
theorem completeBatch_attributes_partial :
    let c := ((new : Ledger ℤ).calls [.op (.admitRequest 4 (some 0)),.op (.discard 1 .queuePressure),
      .op (.admitRequest 7 (some 0)),.op .reset,.op (.admitRequest 9 (some 0))]).1
    (c.completeBatch [(1,4),(2,7),(3,9)] 13).books.snapshot =
      c.books.snapshot + batchTotals (c.current (fun _ => true)) [(1,4),(2,7),(3,9)] 13 :=
  (completeBatch_attributes [.op (.admitRequest 4 (some 0)),.op (.discard 1 .queuePressure),
    .op (.admitRequest 7 (some 0)),.op .reset,.op (.admitRequest 9 (some 0))] [(1,4),(2,7),(3,9)] 13
    (by decide)
    (by
      intro p hp e he
      simp only [List.mem_cons, List.not_mem_nil, or_false] at hp
      obtain rfl | rfl | rfl := hp
      · exact nomatch he
      · cases he
        rfl
      · cases he
        rfl)).1

/-- The second request is empty and counts as written, although no item ends within the
prefix. -/
theorem empty_item_written :
    let batch : List (ℕ × ℕ) := [(1,3),(2,0)]
    let c := ((new : Ledger ℤ).run [.admitRequest 3 none,.admitRequest 0 none]).1
    (c.completeBatch batch 2).books.snapshot.written.requests ≠
      ((List.range 2).countP (fun i => ((batch.take (i + 1)).map Prod.snd).sum ≤ 2) : ℕ) := by
  decide +kernel

end Ledger
end Wirestead.Diagnostics
