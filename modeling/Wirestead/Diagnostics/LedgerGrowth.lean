import Wirestead.Diagnostics.LedgerConservation

/-! # Counts that never fall

Apart from a reset and from an admission that is rolled back, the counts of accepted,
written and lost requests only grow.
-/
namespace Wirestead.Diagnostics

def SendRequestTotals.Le (s t : SendRequestTotals ℤ) : Prop := s.requests ≤ t.requests ∧ s.bytes ≤ t.bytes

def SendLossTotals.Le (s t : SendLossTotals ℤ) : Prop :=
  s.discardedBeforeWrite.Le t.discardedBeforeWrite ∧ s.abortedDuringWrite.Le t.abortedDuringWrite

namespace SendRequestTotals

theorem Le.refl (s : SendRequestTotals ℤ) : s.Le s := ⟨le_rfl,le_rfl⟩

theorem Le.trans {s t u : SendRequestTotals ℤ} (h : s.Le t) (h' : t.Le u) : s.Le u :=
  ⟨h.1.trans h'.1,h.2.trans h'.2⟩

theorem Le.add {s t s' t' : SendRequestTotals ℤ} (h : s.Le t) (h' : s'.Le t') : (s + s').Le (t + t') :=
  ⟨add_le_add h.1 h'.1,add_le_add h.2 h'.2⟩

theorem le_one_more (s : SendRequestTotals ℤ) (bytes : ℕ) : s.Le (s.add bytes) :=
  ⟨by simp [SendRequestTotals.add],by simp [SendRequestTotals.add]⟩

end SendRequestTotals

namespace SendLossTotals

theorem Le.refl (s : SendLossTotals ℤ) : s.Le s := ⟨.refl _,.refl _⟩

theorem Le.trans {s t u : SendLossTotals ℤ} (h : s.Le t) (h' : t.Le u) : s.Le u :=
  ⟨h.1.trans h'.1,h.2.trans h'.2⟩

theorem Le.add {s t s' t' : SendLossTotals ℤ} (h : s.Le t) (h' : s'.Le t') : (s + s').Le (t + t') :=
  ⟨h.1.add h'.1,h.2.add h'.2⟩

theorem le_lose (s : SendLossTotals ℤ) (active : Bool) (bytes : ℕ) : s.Le (s.lose active bytes) := by
  unfold lose
  split
  · exact ⟨.refl _,s.abortedDuringWrite.le_one_more bytes⟩
  · exact ⟨s.discardedBeforeWrite.le_one_more bytes,.refl _⟩

end SendLossTotals

namespace SendAccounting

/-- The accepted, written and lost counts have not fallen. -/
structure Grows (s t : SendAccounting ℤ) : Prop where
  accepted : s.accepted.Le t.accepted
  written : s.written.Le t.written
  explicitStop : s.explicitStop.Le t.explicitStop
  connectionLoss : s.connectionLoss.Le t.connectionLoss
  queuePressure : s.queuePressure.Le t.queuePressure
  sessionExpiry : s.sessionExpiry.Le t.sessionExpiry

theorem Grows.refl (s : SendAccounting ℤ) : s.Grows s := ⟨.refl _,.refl _,.refl _,.refl _,.refl _,.refl _⟩

theorem Grows.trans {s t u : SendAccounting ℤ} (h : s.Grows t) (h' : t.Grows u) : s.Grows u where
  accepted := h.accepted.trans h'.accepted
  written := h.written.trans h'.written
  explicitStop := h.explicitStop.trans h'.explicitStop
  connectionLoss := h.connectionLoss.trans h'.connectionLoss
  queuePressure := h.queuePressure.trans h'.queuePressure
  sessionExpiry := h.sessionExpiry.trans h'.sessionExpiry

theorem Grows.add {s t s' t' : SendAccounting ℤ} (h : s.Grows t) (h' : s'.Grows t') : (s + s').Grows (t + t') where
  accepted := h.accepted.add h'.accepted
  written := h.written.add h'.written
  explicitStop := h.explicitStop.add h'.explicitStop
  connectionLoss := h.connectionLoss.add h'.connectionLoss
  queuePressure := h.queuePressure.add h'.queuePressure
  sessionExpiry := h.sessionExpiry.add h'.sessionExpiry

theorem grows_admitRequest (t : SendAccounting ℤ) (bytes : ℕ) : t.Grows (t.admitRequest bytes) :=
  ⟨t.accepted.le_one_more bytes,.refl _,.refl _,.refl _,.refl _,.refl _⟩

theorem grows_complete (t : SendAccounting ℤ) (bytes n : ℕ) : t.Grows (t.complete bytes n) := by
  unfold complete
  dsimp only
  split
  · exact ⟨.refl _,t.written.le_one_more bytes,.refl _,.refl _,.refl _,.refl _⟩
  · exact ⟨.refl _,.refl _,.refl _,⟨.refl _,t.connectionLoss.abortedDuringWrite.le_one_more bytes⟩,.refl _,.refl _⟩

theorem grows_terminate (t : SendAccounting ℤ) (bytes : ℕ) (active : Bool) (cause : Cause) :
    t.Grows (t.terminate bytes active cause) := by
  cases cause with
  | explicitStop => exact ⟨.refl _,.refl _,t.explicitStop.le_lose active bytes,.refl _,.refl _,.refl _⟩
  | connectionLoss => exact ⟨.refl _,.refl _,.refl _,t.connectionLoss.le_lose active bytes,.refl _,.refl _⟩
  | queuePressure => exact ⟨.refl _,.refl _,.refl _,.refl _,t.queuePressure.le_lose active bytes,.refl _⟩
  | sessionExpiry => exact ⟨.refl _,.refl _,.refl _,.refl _,.refl _,t.sessionExpiry.le_lose active bytes⟩

end SendAccounting

/-- The operation neither resets the counts nor takes an admission back. -/
def LedgerOp.keepsCounts : LedgerOp → Bool
  | .rollback _ => false
  | .reset => false
  | _ => true

theorem Books.update_grows (b : Books ℤ) (e : Request) {apply : SendAccounting ℤ → SendAccounting ℤ}
    (h : ∀ t : SendAccounting ℤ, t.Grows (apply t)) : b.totals.Grows (b.update e apply).totals := by
  unfold Books.update
  split
  · split <;> exact h _
  · exact .refl _

theorem Books.joinGroup_totals (b : Books ℤ) (group : Option ℕ) : (b.joinGroup group).totals = b.totals := by
  unfold Books.joinGroup
  split
  · rfl
  · split <;> rfl

namespace LedgerMap

theorem finish_grows (a : LedgerMap ℤ) (id : ℕ) {settle : Request → SendAccounting ℤ → SendAccounting ℤ}
    (h : ∀ r (t : SendAccounting ℤ), t.Grows (settle r t)) : a.books.totals.Grows (a.finish id settle).books.totals := by
  unfold finish
  split
  · exact .refl _
  · exact a.books.update_grows _ (h _)

theorem completeBatch_grows (a : LedgerMap ℤ) (batch : List (ℕ × ℕ)) (n : ℕ) :
    a.books.totals.Grows (a.completeBatch batch n).books.totals := by
  induction batch generalizing a n with
  | nil => exact .refl _
  | cons p batch ih => exact (a.finish_grows p.1 (fun r t => t.grows_complete r.bytes _)).trans (ih _ _)

theorem terminateAll_grows (a : LedgerMap ℤ) (p : Request → Bool) (cause : Cause) :
    a.books.totals.Grows (a.terminateAll p cause).books.totals := by
  have hfold : ∀ (qs : List (ℕ × Request)) (b : Books ℤ),
      b.totals.Grows (qs.foldl (fun b q => b.terminate q.2 cause) b).totals := by
    intro qs
    induction qs with
    | nil => exact fun b => .refl _
    | cons q qs ih =>
      exact fun b => (b.update_grows q.2 (fun t => t.grows_terminate q.2.bytes q.2.active cause)).trans (ih _)
  exact hfold _ _

theorem beginBatch_books (a : LedgerMap ℤ) (ids : List ℕ) : (a.beginBatch ids).1.books = a.books := by
  have hfold : ∀ (ids : List ℕ) (a : LedgerMap ℤ), (ids.foldl activate a).books = a.books := by
    intro ids
    induction ids with
    | nil => exact fun _ => rfl
    | cons id ids ih => exact fun a => ih (a.activate id)
  unfold beginBatch
  split
  · exact hfold ids a
  · rfl

theorem step_grows (a : LedgerMap ℤ) {op : LedgerOp} (h : op.keepsCounts = true) :
    a.books.totals.Grows (a.step op).1.books.totals := by
  cases op with
  | admitRequest bytes group =>
    have hjoin := (a.books.joinGroup group).update_grows ⟨bytes,(a.books.joinGroup group).epoch,false,group⟩
      (fun t => t.grows_admitRequest bytes)
    rwa [Books.joinGroup_totals] at hjoin
  | «begin» id => exact .refl _
  | beginBatch ids =>
    change a.books.totals.Grows (a.beginBatch ids).1.books.totals
    rw [beginBatch_books]
    exact .refl _
  | complete id n => exact a.finish_grows id (fun r t => t.grows_complete r.bytes n)
  | completeBatch batch n => exact a.completeBatch_grows batch n
  | discard id cause => exact a.finish_grows id (fun r t => t.grows_terminate r.bytes r.active cause)
  | discardWaiting group cause =>
    change a.books.totals.Grows (a.discardWaiting group cause).books.totals
    unfold discardWaiting
    split
    · exact .refl _
    · exact a.terminateAll_grows _ cause
  | endAll cause => exact a.terminateAll_grows _ cause
  | contains id => exact .refl _
  | snapshot => exact .refl _
  | groupSnapshot group => exact .refl _
  | rollback id => cases h
  | reset => cases h

end LedgerMap

namespace Ledger

theorem Valid.step_grows {c : Ledger ℤ} (hc : c.Valid) {op : LedgerOp} (h : op.keepsCounts = true) :
    c.books.snapshot.Grows (c.step op).1.books.snapshot := by
  have hmap : (c.step op).1.books = (c.toMap.step op).1.books := congrArg LedgerMap.books (hc.step op).1.2
  unfold Books.snapshot
  rw [hmap]
  exact c.toMap.step_grows h

section Append
variable {N : Type*} [CommRing N]

theorem run_concat (c : Ledger N) (ops : List LedgerOp) (op : LedgerOp) :
    (c.run (ops ++ [op])).1 = ((c.run ops).1.step op).1 := by
  induction ops generalizing c with
  | nil => rfl
  | cons first ops ih => exact ih (c.step first).1

end Append

/-- The counts after a run balance. -/
theorem run_balanced (ops : List LedgerOp) : ((new : Ledger ℤ).run ops).1.books.snapshot.Balanced := by
  have ht : ((new : Ledger ℤ).run ops).1.books.snapshot = _ := (tracks_run ops).totals
  rw [ht]
  exact balanced_tally _ _

end Ledger
end Wirestead.Diagnostics
