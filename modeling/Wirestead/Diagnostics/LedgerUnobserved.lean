import Wirestead.Diagnostics.LedgerEpochs

/-! # A failed admission is not observed

Where requests are stored depends on the epoch of the books and on nothing else in
them. A failed admission changes the books only, to books that show the same.
-/
namespace Wirestead.Diagnostics
open Slots Calls
namespace Ledger
variable {N : Type}

/-- The same stores under other books. -/
def withBooks (c : Ledger N) (b : Books N) : Ledger N := { c with books := b }

/-- Two ledgers store the same. -/
def SameStores (c d : Ledger N) : Prop := ∃ b, d = c.withBooks b

theorem SameStores.refl (c : Ledger N) : SameStores c c := ⟨c.books,rfl⟩

variable {c d : Ledger N}

theorem SameStores.find (h : SameStores c d) (id : ℕ) : d.find id = c.find id := by
  obtain ⟨b,rfl⟩ := h
  rfl

theorem SameStores.modify (h : SameStores c d) (id : ℕ) (f : Entry → Entry) :
    SameStores (c.modify id f) (d.modify id f) := by
  obtain ⟨b,rfl⟩ := h
  refine ⟨b,?_⟩
  unfold Ledger.modify withBooks
  dsimp only
  split <;> rfl

theorem SameStores.compactLoop (n : ℕ) (h : SameStores c d) :
    SameStores (compactLoop n c) (compactLoop n d) := by
  induction n generalizing c d with
  | zero => exact h
  | succ n ih =>
    obtain ⟨b,rfl⟩ := h
    unfold Ledger.compactLoop
    rw [show (c.withBooks b).ring = c.ring from rfl]
    split
    · exact ih ⟨b,rfl⟩
    · exact ⟨b,rfl⟩

theorem SameStores.compact (h : SameStores c d) : SameStores c.compact d.compact := by
  have hring : d.ring = c.ring := by
    obtain ⟨b,rfl⟩ := h
    rfl
  unfold Ledger.compact
  rw [hring]
  exact h.compactLoop _

theorem SameStores.erase (h : SameStores c d) (id : ℕ) : SameStores (c.erase id) (d.erase id) := by
  have hbase : d.base = c.base := by
    obtain ⟨b,rfl⟩ := h
    rfl
  unfold Ledger.erase
  rw [hbase]
  split
  · obtain ⟨b,rfl⟩ := h
    exact ⟨b,rfl⟩
  · exact (h.modify id retire).compact

theorem SameStores.makeRoom (h : SameStores c d) : SameStores c.makeRoom d.makeRoom := by
  obtain ⟨b,rfl⟩ := h
  refine ⟨b,?_⟩
  unfold Ledger.makeRoom withBooks
  dsimp only
  split <;> rfl

theorem SameStores.beginLocked (h : SameStores c d) (id : ℕ) :
    SameStores (c.beginLocked id).1 (d.beginLocked id).1 := by
  unfold Ledger.beginLocked
  rw [h.find]
  split
  · exact h
  · exact h.modify id (fun e => { e with active := true })

theorem SameStores.beginBatch (h : SameStores c d) (ids : List ℕ) :
    SameStores (c.beginBatch ids).1 (d.beginBatch ids).1 := by
  have hfold : ∀ (ids : List ℕ) (c d : Ledger N), SameStores c d →
      SameStores (ids.foldl (fun c id => (c.beginLocked id).1) c)
        (ids.foldl (fun c id => (c.beginLocked id).1) d) := by
    intro ids
    induction ids with
    | nil => exact fun _ _ h => h
    | cons id ids ih => exact fun c d h => ih _ _ (h.beginLocked id)
  unfold Ledger.beginBatch
  simp only [h.find]
  split
  · exact h
  · exact hfold ids c d h

/-- Finishing a request, however it is settled. -/
theorem SameStores.finish (h : SameStores c d) (id : ℕ) (f g : Entry → Books N) :
    SameStores (match c.find id with
      | none => c
      | some e => { c with books := f e }.erase id)
      (match d.find id with
      | none => d
      | some e => { d with books := g e }.erase id) := by
  rw [h.find]
  cases c.find id with
  | none => exact h
  | some e =>
    obtain ⟨b,rfl⟩ := h
    exact SameStores.erase ⟨g e,rfl⟩ id

variable [CommRing N]

theorem SameStores.completeBatch (h : SameStores c d) (batch : List (ℕ × ℕ)) (n : ℕ) :
    SameStores (c.completeBatch batch n) (d.completeBatch batch n) := by
  induction batch generalizing c d n with
  | nil => exact h
  | cons p batch ih => exact ih (h.finish p.1 _ _) _

theorem SameStores.discardWaiting (h : SameStores c d) (group : Option ℕ) (cause : Cause) :
    SameStores (c.discardWaiting group cause) (d.discardWaiting group cause) := by
  cases group with
  | none => exact h
  | some g =>
    obtain ⟨b,rfl⟩ := h
    let f : Books N → Entry → Entry × Books N := fun b e =>
      if e.live && waits g e.toRequest then (retire e,b.terminate e.toRequest cause) else (e,b)
    let settle : Books N → ℕ × Entry → Books N := fun b p =>
      if waits g p.2.toRequest then b.terminate p.2.toRequest cause else b
    have hf : ∀ b b' e, (f b e).1 = (f b' e).1 := by
      intro b b' e
      simp only [f]
      split <;> rfl
    have hring := c.ring.sweep_window hf (c.sparse.foldl settle b) (c.sparse.foldl settle c.books)
    have h : SameStores
        { c with sparse := c.sparse.filter (fun p => !waits g p.2.toRequest)
                 ring := (c.ring.sweep f (c.sparse.foldl settle c.books)).1
                 books := (c.ring.sweep f (c.sparse.foldl settle c.books)).2 }
        { c with sparse := c.sparse.filter (fun p => !waits g p.2.toRequest)
                 ring := (c.ring.sweep f (c.sparse.foldl settle b)).1
                 books := (c.ring.sweep f (c.sparse.foldl settle b)).2 } :=
      ⟨(c.ring.sweep f (c.sparse.foldl settle b)).2,by rw [hring]; rfl⟩
    exact h.compact

theorem SameStores.endAll (h : SameStores c d) (cause : Cause) : SameStores (c.endAll cause) (d.endAll cause) := by
  obtain ⟨b,rfl⟩ := h
  let f : Books N → Entry → Entry × Books N := fun b e =>
    (default,if e.live then b.terminate e.toRequest cause else b)
  let settle : Books N → ℕ × Entry → Books N := fun b p => b.terminate p.2.toRequest cause
  have hring := c.ring.sweep_window (f := f) (g := f) (fun _ _ _ => rfl) (c.sparse.foldl settle b)
    (c.sparse.foldl settle c.books)
  refine ⟨(c.ring.sweep f (c.sparse.foldl settle b)).2,?_⟩
  change ({ c with sparse := [],
                   ring := (c.ring.sweep f (c.sparse.foldl settle b)).1.restart,
                   base := c.nextId + 1,
                   books := (c.ring.sweep f (c.sparse.foldl settle b)).2 } : Ledger N) = _
  rw [hring]
  rfl

/-- What is stored for a new request names the epoch. -/
theorem SameStores.admitRequest (h : SameStores c d) (he : c.books.epoch = d.books.epoch) (bytes : ℕ)
    (group : Option ℕ) : SameStores (c.admitRequest bytes group).1 (d.admitRequest bytes group).1 := by
  have hroom : SameStores (if c.ring.count = c.ring.slots.length then c.makeRoom else c)
      (if d.ring.count = d.ring.slots.length then d.makeRoom else d) := by
    have hring : d.ring = c.ring := by
      obtain ⟨b,rfl⟩ := h
      rfl
    rw [hring]
    split
    · exact h.makeRoom
    · exact h
  have hid : d.nextId = c.nextId := by
    obtain ⟨b,rfl⟩ := h
    rfl
  unfold Ledger.admitRequest
  dsimp only
  rw [Books.joinGroup_epoch, Books.joinGroup_epoch, ← he, hid]
  obtain ⟨b,hb⟩ := hroom
  rw [hb]
  exact ⟨_,rfl⟩

theorem SameStores.step (h : SameStores c d) (he : c.books.epoch = d.books.epoch) (op : LedgerOp) :
    SameStores (c.step op).1 (d.step op).1 := by
  cases op with
  | admitRequest bytes group => exact h.admitRequest he bytes group
  | «begin» id => exact h.beginLocked id
  | beginBatch ids => exact h.beginBatch ids
  | complete id n => exact h.finish id _ _
  | completeBatch batch n => exact h.completeBatch batch n
  | discard id cause => exact h.finish id _ _
  | discardWaiting group cause => exact h.discardWaiting group cause
  | rollback id => exact h.finish id _ _
  | endAll cause => exact h.endAll cause
  | reset =>
    obtain ⟨b,rfl⟩ := h
    exact ⟨b.reset,rfl⟩
  | contains id => exact h
  | snapshot => exact h
  | groupSnapshot group => exact h

end Ledger

section Failing
variable {N : Type} {fails : ℕ → Bool}

/-- Two calls of `admit` at the same allocation, on ledgers that store the same. -/
def Beside (s t : Admitting N) : Prop :=
  Ledger.SameStores s.ledger t.ledger ∧ s.allocations = t.allocations

/-- They stage the same value, or both throw. -/
def StageAlike {α : Type} (x y : Admission N α) : Prop :=
  Together Beside x y (fun a b s t => a = b ∧ Beside s t)

theorem StageAlike.pure {α : Type} (a : α) : StageAlike (Pure.pure a : Admission N α) (Pure.pure a) :=
  Together.pure (fun _ _ h => ⟨rfl,h⟩)

theorem StageAlike.bind {α β : Type} {x y : Admission N α} {k l : α → Admission N β}
    (hxy : StageAlike x y) (hkl : ∀ a, StageAlike (k a) (l a)) : StageAlike (x >>= k) (y >>= l) := by
  refine Together.bind hxy (fun a b s t h => ?_)
  obtain ⟨rfl,h⟩ := h
  exact hkl a s t h

theorem stageAlike_allocate : StageAlike (allocate fails : Admission N Unit) (allocate fails) := by
  rintro ⟨c,n⟩ ⟨d,m⟩ ⟨h,hn⟩
  change n = m at hn
  subst hn
  unfold allocate
  by_cases hf : fails n = true
  · simp [hf]
  · simp only [hf]
    exact ⟨trivial,h,rfl⟩

theorem stageAlike_copyNodes (m : List (ℕ × Entry)) :
    StageAlike (copyNodes fails m : Admission N _) (copyNodes fails m) := by
  induction m with
  | nil => exact .pure []
  | cons p ps ih => exact stageAlike_allocate.bind (fun _ => ih.bind (fun rest => .pure (p :: rest)))

theorem stageAlike_copySparse (m : List (ℕ × Entry)) :
    StageAlike (copySparse fails m : Admission N _) (copySparse fails m) :=
  stageAlike_allocate.bind (fun _ => stageAlike_copyNodes m)

theorem stageAlike_promoteStaged (m : List (ℕ × Entry)) (id : ℕ) (es : List Entry) :
    StageAlike (promoteStaged fails m id es : Admission N _) (promoteStaged fails m id es) := by
  induction es generalizing m id with
  | nil => exact .pure m
  | cons e es ih =>
    unfold promoteStaged
    split
    · exact stageAlike_allocate.bind (fun _ => ih _ _)
    · exact ih m (id + 1)

theorem stageAlike_makeRoomStaged :
    StageAlike (makeRoomStaged fails : Admission N PUnit) (makeRoomStaged fails) := by
  refine Together.bind (M := fun r q s t => Ledger.SameStores r.ledger q.ledger ∧ Beside s t)
    (Together.get (fun _ _ h => ⟨h.1,h⟩)) (fun r q s t h => ?_)
  obtain ⟨⟨b,hb⟩,h⟩ := h
  have hring : q.ledger.ring = r.ledger.ring := by rw [hb]; rfl
  have hsparse : q.ledger.sparse = r.ledger.sparse := by rw [hb]; rfl
  have hbase : q.ledger.base = r.ledger.base := by rw [hb]; rfl
  rw [hring, hsparse, hbase]
  revert s t h
  change StageAlike _ _
  split
  · refine (stageAlike_copySparse _).bind (fun copy => stageAlike_allocate.bind (fun _ =>
      (stageAlike_promoteStaged copy _ _).bind (fun staged => StageAlike.bind ?_ (fun _ => ?_))))
    · exact Together.update (fun s t ⟨⟨b,hb⟩,hn⟩ => ⟨rfl,⟨b,by rw [hb]; rfl⟩,hn⟩)
    · exact Together.update (fun s t ⟨⟨b,hb⟩,hn⟩ => ⟨rfl,⟨b,by rw [hb]; rfl⟩,hn⟩)
  · exact stageAlike_allocate.bind (fun _ =>
      Together.update (fun s t ⟨⟨b,hb⟩,hn⟩ => ⟨rfl,⟨b,by rw [hb]; rfl⟩,hn⟩))

variable [CommRing N]

variable (fails) in
/-- Whether a call of `admit` throws is decided by the stores. -/
theorem Ledger.SameStores.tryAdmit_isSome {c d : Ledger N} (h : c.SameStores d) (bytes : ℕ)
    (group : Option ℕ) :
    (c.tryAdmit fails bytes group).2.isSome = (d.tryAdmit fails bytes group).2.isSome := by
  have htogether : Together Beside (admitStaged fails bytes group : Admission N ℕ)
      (admitStaged fails bytes group) (fun _ _ _ _ => True) := by
    refine Together.bind (M := fun r q s t => Beside s t) (Together.get (fun _ _ h => h)) (fun r q => ?_)
    refine Together.bind (M := fun _ _ s t => Beside s t)
      (Together.update (fun s t h => ⟨?_,h.2⟩)) (fun _ _ => ?_)
    · obtain ⟨⟨b,hb⟩,-⟩ := h
      exact ⟨b.joinGroup group,by rw [hb]; rfl⟩
    refine Together.bind (M := fun r q s t => q.ledger.ring = r.ledger.ring ∧ Beside s t)
      (Together.get (fun s t h => ⟨?_,h⟩)) (fun r q => ?_)
    · obtain ⟨⟨b,hb⟩,-⟩ := h
      rw [hb]
      rfl
    refine Together.bind (M := fun _ _ _ _ => True) ?_ (fun _ _ => ?_)
    · rintro s t ⟨hring,h⟩
      rw [hring]
      by_cases hfull : r.ledger.ring.count = r.ledger.ring.slots.length
      · rw [if_pos hfull]
        exact stageAlike_makeRoomStaged.weaken (fun _ _ h => h) (fun _ _ _ _ _ => trivial) s t h
      · rw [if_neg hfull]
        trivial
    · exact Together.bind (M := fun _ _ _ _ => True) (Together.update (fun _ _ _ => trivial))
        (fun _ _ => Together.pure (fun _ _ _ => trivial))
  have hrun := htogether ⟨c,0⟩ ⟨d,0⟩ ⟨h,rfl⟩
  unfold Ledger.tryAdmit
  revert hrun
  cases admitStaged fails bytes group ⟨c,0⟩ <;> cases admitStaged fails bytes group ⟨d,0⟩ <;> simp

end Failing

section Answers
variable {N : Type} [CommRing N]

/-- Ledgers that agree on every request give the same answers. -/
theorem LedgerMap.Agree.answer {a d : LedgerMap N} (h : Agree (fun _ => false) a d) (op : LedgerOp) :
    (a.step op).2 = (d.step op).2 := by
  have hcontains : ∀ id, a.contains id = d.contains id := fun id => h.contains rfl
  cases op with
  | admitRequest bytes group => exact congrArg (fun n => LedgerResult.request (n + 1)) h.nextId
  | «begin» id => exact congrArg LedgerResult.bool (hcontains id)
  | beginBatch ids =>
    have hall : ids.all a.contains = ids.all d.contains := by rw [funext hcontains]
    have hbatch : (a.beginBatch ids).2 = (d.beginBatch ids).2 := by
      unfold LedgerMap.beginBatch
      rw [hall]
      split <;> rfl
    exact congrArg LedgerResult.bool hbatch
  | contains id => exact congrArg LedgerResult.bool (hcontains id)
  | snapshot => exact congrArg LedgerResult.accounting h.books.totals
  | groupSnapshot group => exact congrArg LedgerResult.accounting (h.books.groupSnapshot group)
  | _ => rfl

namespace Ledger

/-- Two ledgers that no later call tells apart. -/
structure Indistinct (c d : Ledger N) : Prop where
  left : c.Reached
  right : d.Reached
  stores : c.SameStores d
  agree : LedgerMap.Agree (fun _ => false) c.toMap d.toMap

variable {c d : Ledger N}

theorem Indistinct.step (h : Indistinct c d) (op : LedgerOp) :
    Indistinct (c.step op).1 (d.step op).1 ∧ (c.step op).2 = (d.step op).2 := by
  obtain ⟨⟨-,hcm⟩,hca⟩ := h.left.valid.step op
  obtain ⟨⟨-,hdm⟩,hda⟩ := h.right.valid.step op
  refine ⟨⟨h.left.step op,h.right.step op,h.stores.step h.agree.books.epoch op,?_⟩,?_⟩
  · rw [hcm, hdm]
    exact h.agree.step (fun _ _ => .inr (fun _ _ => rfl))
  · rw [hca, hda]
    exact h.agree.answer op

theorem Indistinct.joinGroup (h : Indistinct c d) (group : Option ℕ) :
    Indistinct c { d with books := d.books.joinGroup group } where
  left := h.left
  right := h.right.joinGroup group
  stores := by
    obtain ⟨b,hb⟩ := h.stores
    exact ⟨d.books.joinGroup group,by rw [hb]; rfl⟩
  agree := h.agree.joinGroup group

theorem Indistinct.symm (h : Indistinct c d) : Indistinct d c where
  left := h.right
  right := h.left
  stores := by
    obtain ⟨b,hb⟩ := h.stores
    exact ⟨c.books,by rw [hb]; rfl⟩
  agree := h.agree.symm

theorem Indistinct.call (h : Indistinct c d) (x : LedgerCall) :
    Indistinct (c.call x).1 (d.call x).1 ∧ (c.call x).2 = (d.call x).2 := by
  cases x with
  | op op =>
    obtain ⟨h1,h2⟩ := h.step op
    exact ⟨h1,congrArg some h2⟩
  | tryAdmit fails bytes group =>
    change Indistinct (c.tryAdmit fails bytes group).1 (d.tryAdmit fails bytes group).1 ∧
      (c.tryAdmit fails bytes group).2.map LedgerResult.request =
        (d.tryAdmit fails bytes group).2.map LedgerResult.request
    have hsome := h.stores.tryAdmit_isSome fails bytes group
    obtain hc | hc := c.tryAdmit_cases fails bytes group <;>
      obtain hd | hd := d.tryAdmit_cases fails bytes group
    · obtain ⟨h1,h2⟩ := h.step (.admitRequest bytes group)
      rw [hc, hd]
      exact ⟨h1,congrArg some h2⟩
    · rw [hc, hd] at hsome
      exact absurd hsome (by simp)
    · rw [hc, hd] at hsome
      exact absurd hsome (by simp)
    · rw [hc, hd]
      exact ⟨((h.joinGroup group).symm.joinGroup group).symm,rfl⟩

theorem Indistinct.calls (h : Indistinct c d) (xs : List LedgerCall) :
    (c.calls xs).2 = (d.calls xs).2 := by
  induction xs generalizing c d with
  | nil => rfl
  | cons x xs ih =>
    obtain ⟨h1,h2⟩ := h.call x
    unfold Ledger.calls
    rw [h2, ih h1]

/-- After a call of `admit` that throws, every sequence of calls answers as if it had
not been made. -/
theorem failed_admit_unobserved (before : List LedgerCall) (fails : ℕ → Bool) (bytes : ℕ)
    (group : Option ℕ) (after : List LedgerCall) :
    let c := ((new : Ledger N).calls before).1
    (c.tryAdmit fails bytes group).2 = none →
      ((c.tryAdmit fails bytes group).1.calls after).2 = (c.calls after).2 := by
  intro c hnone
  have hc : c.Reached := reached_new.calls before
  have hself : Indistinct c c :=
    ⟨hc,hc,.refl c,⟨hc.sound,hc.sound,rfl,fun _ _ => rfl,rfl,fun _ _ h => by simp at h,
      fun _ _ h => by simp at h,Books.Alike.refl _⟩⟩
  obtain ht | ht := c.tryAdmit_cases fails bytes group
  · rw [ht] at hnone
    exact absurd hnone (by simp)
  · rw [ht]
    exact (hself.joinGroup group).symm.calls after

/-- The ring is full and mostly retired; staging the third survivor throws. -/
theorem failed_admit_unobserved_survivor :
    let full : List LedgerCall := List.replicate 16 (.op (.admitRequest 4 (some 0))) ++
      (List.range 13).map (fun i => .op (.discard (i + 3) .explicitStop))
    let c := ((new : Ledger ℤ).calls full).1
    ((c.tryAdmit (· == 4) 9 (some 1)).1.calls
      [.op (.groupSnapshot (some 1)),.op (.admitRequest 9 (some 1))]).2 =
    (c.calls [.op (.groupSnapshot (some 1)),.op (.admitRequest 9 (some 1))]).2 :=
  failed_admit_unobserved _ (· == 4) 9 (some 1) _ (by decide +kernel)

end Ledger
end Answers
end Wirestead.Diagnostics
