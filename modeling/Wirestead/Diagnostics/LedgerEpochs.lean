import Wirestead.Diagnostics.LedgerAgreement
import Wirestead.Diagnostics.LedgerFailures

/-! # Requests of an earlier epoch

After `reset` the requests admitted before it stay live and share groups and storage
with the new ones. What is done to them shows in no snapshot, as long as no batch is
handed over that mixes the two.
-/
namespace Wirestead.Diagnostics

/-- The ledgers that any calls lead to. -/
structure Ledger.Reached {N : Type} [CommRing N] (c : Ledger N) : Prop where
  valid : c.Valid
  sound : c.toMap.Sound

namespace Ledger
variable {N : Type} [CommRing N] {c : Ledger N}

theorem Reached.step (h : c.Reached) (op : LedgerOp) : (c.step op).1.Reached := by
  obtain ⟨⟨hv,hm⟩,-⟩ := h.valid.step op
  exact ⟨hv,hm ▸ h.sound.step op⟩

theorem Reached.joinGroup (h : c.Reached) (group : Option ℕ) :
    ({ c with books := c.books.joinGroup group } : Ledger N).Reached :=
  ⟨⟨h.valid.ids,h.valid.sparse_lt,h.valid.sparse_nodup⟩,h.sound.joinGroup group⟩

theorem Reached.call (h : c.Reached) (x : LedgerCall) : (c.call x).1.Reached := by
  cases x with
  | op op => exact h.step op
  | tryAdmit fails bytes group =>
    change (c.tryAdmit fails bytes group).1.Reached
    obtain ht | ht := c.tryAdmit_cases fails bytes group
    · rw [ht]
      exact h.step (.admitRequest bytes group)
    · rw [ht]
      exact h.joinGroup group

theorem Reached.calls (h : c.Reached) (xs : List LedgerCall) : (c.calls xs).1.Reached := by
  induction xs generalizing c with
  | nil => exact h
  | cons x xs ih => exact ih (h.call x)

theorem reached_new : (new : Ledger N).Reached := ⟨valid_new,LedgerMap.Sound.new⟩

end Ledger

/-- Operations on requests with ids up to `k`, of the kinds that finish one or hand it over. -/
def LedgerOp.OnOld (k : ℕ) : LedgerOp → Prop
  | .begin id => id ≤ k
  | .complete id _ => id ≤ k
  | .completeBatch batch _ => ∀ p ∈ batch, p.1 ≤ k
  | .discard id _ => id ≤ k
  | .rollback id => id ≤ k
  | _ => False

/-- A batch that is handed over has ids up to `k` only, or later ids only. -/
def LedgerOp.Unmixed (k : ℕ) : LedgerOp → Prop
  | .beginBatch ids => (∀ id ∈ ids, id ≤ k) ∨ ∀ id ∈ ids, k < id
  | _ => True

/-- A step of two runs: an operation of both, or one that only the second makes. -/
inductive PairedOp
  | both (op : LedgerOp)
  | second (op : LedgerOp)
  deriving DecidableEq, Repr

namespace PairedOp

def first? : PairedOp → Option LedgerOp
  | both op => some op
  | second _ => none

def op : PairedOp → LedgerOp
  | both op => op
  | second op => op

/-- What the first run does, and what the second does. -/
def firstRun (script : List PairedOp) : List LedgerOp := script.filterMap first?

def secondRun (script : List PairedOp) : List LedgerOp := script.map op

/-- Only the second run makes the additional operations, and they are on old requests. -/
def Allowed (k : ℕ) : PairedOp → Prop
  | both op => op.Unmixed k
  | second op => op.OnOld k

end PairedOp

namespace LedgerMap
variable {N : Type} [CommRing N] {a d : LedgerMap N} {k : ℕ}

/-- Ids up to `k`. -/
def upTo (k : ℕ) : ℕ → Bool := fun id => decide (id ≤ k)

/-- Both ledgers make the operation. -/
theorem Agree.stepBoth (h : Agree (upTo k) a d) {op : LedgerOp} (hop : op.Unmixed k) :
    Agree (upTo k) (a.step op).1 (d.step op).1 := by
  refine h.step (fun ids hids => ?_)
  subst hids
  refine hop.imp (fun hold id hid => ?_) (fun hnew id hid => ?_)
  · exact decide_eq_true (hold id hid)
  · exact decide_eq_false (Nat.not_le.mpr (hnew id hid))

/-- Only the second ledger makes the operation. -/
theorem Agree.stepSecond (h : Agree (upTo k) a d) {op : LedgerOp} (hop : op.OnOld k) :
    Agree (upTo k) a (d.step op).1 := by
  cases op with
  | «begin» id => exact h.activate_right (decide_eq_true hop)
  | complete id n => exact h.finish_right (decide_eq_true hop) _
  | completeBatch batch n => exact h.completeBatch_right (fun p hp => decide_eq_true (hop p hp)) n
  | discard id cause => exact h.finish_right (decide_eq_true hop) _
  | rollback id => exact h.finish_right (decide_eq_true hop) _
  | _ => exact hop.elim

theorem Agree.runScript (h : Agree (upTo k) a d) {script : List PairedOp}
    (hs : ∀ p ∈ script, p.Allowed k) :
    Agree (upTo k) (a.run (PairedOp.firstRun script)).1 (d.run (PairedOp.secondRun script)).1 := by
  induction script generalizing a d with
  | nil => exact h
  | cons p script ih =>
    have hrest : ∀ q ∈ script, q.Allowed k := fun q hq => hs q (List.mem_cons_of_mem _ hq)
    have hp := hs p List.mem_cons_self
    cases p with
    | both op => exact ih (h.stepBoth hp) hrest
    | second op => exact ih (h.stepSecond hp) hrest

/-- Right after a reset every request is old. -/
theorem agree_reset (h : a.Sound) : Agree (upTo a.nextId) a.reset a.reset := by
  have hstale : ∀ p ∈ a.reset.requests, upTo a.nextId p.1 = true → p.2.epoch ≠ a.reset.books.epoch := by
    intro p hp _
    have := h.past p hp
    exact (show p.2.epoch < a.books.epoch + 1 by omega).ne
  exact ⟨h.reset,h.reset,rfl,fun id hid => decide_eq_false (Nat.not_le.mpr hid),rfl,hstale,hstale,.refl _⟩

end LedgerMap

namespace Ledger
variable {N : Type} [CommRing N]

/-- Operations on requests admitted before a reset, made in one of two runs only, change
no snapshot, at any point of the runs. No batch that both hand over mixes the requests
admitted before the reset with later ones. -/
theorem reset_isolates (calls : List LedgerCall) (script : List PairedOp)
    (hs : ∀ p ∈ script, p.Allowed ((new : Ledger N).calls calls).1.nextId) (i : ℕ) :
    let c := ((new : Ledger N).calls calls).1.reset
    let first := (c.run (PairedOp.firstRun (script.take i))).1
    let second := (c.run (PairedOp.secondRun (script.take i))).1
    first.books.snapshot = second.books.snapshot ∧
    ∀ group, first.books.groupSnapshot group = second.books.groupSnapshot group := by
  intro c first second
  have hr := (reached_new (N := N)).calls calls
  have hreset : c.Reached := hr.step .reset
  have hallowed : ∀ p ∈ script.take i, p.Allowed ((new : Ledger N).calls calls).1.nextId :=
    fun p hp => hs p (List.mem_of_mem_take hp)
  have hagree := (LedgerMap.agree_reset hr.sound).runScript hallowed
  have hmap : ∀ ops, (c.run ops).1.books = (c.toMap.run ops).1.books := by
    intro ops
    rw [← (hreset.valid.run ops).1.toMap]
    rfl
  have hbooks : first.books.Alike second.books := by
    rw [show first.books = _ from hmap _, show second.books = _ from hmap _]
    exact hagree.books
  exact ⟨hbooks.totals,hbooks.groupSnapshot⟩

/-- An old request is discarded in the second run before a new one is handed over and
discarded. -/
theorem reset_isolates_discard :
    let c := ((new : Ledger ℤ).calls [.op (.admitRequest 4 (some 0))]).1.reset
    (c.run [.admitRequest 7 (some 0),.begin 2,.discard 2 .explicitStop]).1.books.snapshot =
      (c.run [.admitRequest 7 (some 0),.discard 1 .queuePressure,.begin 2,.discard 2 .explicitStop]).1.books.snapshot :=
  (reset_isolates [.op (.admitRequest 4 (some 0))]
    [.both (.admitRequest 7 (some 0)),.second (.discard 1 .queuePressure),.both (.begin 2),
      .both (.discard 2 .explicitStop)]
    (by
      intro p hp
      rw [show ((new : Ledger ℤ).calls [.op (.admitRequest 4 (some 0))]).1.nextId = 1 from rfl]
      simp only [List.mem_cons, List.not_mem_nil, or_false] at hp
      obtain rfl | rfl | rfl | rfl := hp
      · exact trivial
      · exact le_rfl
      · exact trivial
      · exact trivial) 4).1

/-- A batch of an old and a new request is handed over in one run and refused in the
other, where the old one is gone: the new one is aborted in the first and discarded in
the second. -/
theorem mixed_batch_shows :
    let c := ((new : Ledger ℤ).calls [.op (.admitRequest 4 none)]).1.reset
    (c.run [.admitRequest 7 none,.beginBatch [1,2],.discard 2 .explicitStop]).1.books.snapshot ≠
      (c.run [.discard 1 .explicitStop,.admitRequest 7 none,.beginBatch [1,2],
        .discard 2 .explicitStop]).1.books.snapshot := by
  decide +kernel

end Ledger
end Wirestead.Diagnostics
