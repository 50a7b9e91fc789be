import Wirestead.Diagnostics.LedgerRefinement

/-! # What became of every request

The history keeps every request that was ever admitted together with its fate. Each
request contributes to the totals what its fate says; the books of the ledger are the
sums of the contributions of the requests of their epoch.
-/
namespace Wirestead.Diagnostics

/-- A request is outstanding until it is completed with some confirmed bytes,
terminated or rolled back. -/
inductive Fate
  | live (active : Bool)
  | completed (confirmed : ℕ)
  | terminated (cause : Cause) (active : Bool)
  | rolledBack
  deriving DecidableEq, Repr

structure Record where
  id : ℕ
  bytes : ℕ
  epoch : ℕ
  group : Option ℕ
  fate : Fate
  deriving DecidableEq, Repr

structure History where
  records : List Record
  epoch : ℕ

/-- The request of a record, while it is live. -/
def Record.request (r : Record) : Option (ℕ × Request) :=
  match r.fate with
  | .live active => some (r.id,⟨r.bytes,r.epoch,active,r.group⟩)
  | _ => none

namespace History

def new : History := ⟨[],0⟩

def requests (h : History) : List (ℕ × Request) := h.records.filterMap Record.request

/-- The live requests that `p` selects meet the fate `φ` gives them. -/
def settleAll (h : History) (p : ℕ → Request → Bool) (φ : Request → Fate) : History :=
  { h with records := h.records.map (fun r => match r.request with
      | some (id,q) => if p id q then { r with fate := φ q } else r
      | none => r) }

/-- Ids are the numbers of the admissions. -/
def admitRequest (h : History) (bytes : ℕ) (group : Option ℕ) : History :=
  { h with records := h.records ++ [⟨h.records.length + 1,bytes,h.epoch,group,.live false⟩] }

def activate (h : History) (id : ℕ) : History := h.settleAll (fun k _ => k = id) (fun _ => .live true)

def complete (h : History) (id confirmedBytes : ℕ) : History :=
  h.settleAll (fun k _ => k = id) (fun _ => .completed confirmedBytes)

def completeBatch : History → List (ℕ × ℕ) → ℕ → History
  | h, [], _ => h
  | h, (id,size) :: rest, confirmedBytes =>
    completeBatch (h.complete id (min confirmedBytes size)) rest
      (confirmedBytes - min confirmedBytes size)

def terminateAll (h : History) (p : ℕ → Request → Bool) (cause : Cause) : History :=
  h.settleAll p (fun q => .terminated cause q.active)

def step (h : History) : LedgerOp → History
  | .admitRequest bytes group => h.admitRequest bytes group
  | .begin id => h.activate id
  | .beginBatch ids =>
    if ids.all (fun id => (h.requests.lookup id).isSome) then ids.foldl activate h else h
  | .complete id confirmedBytes => h.complete id confirmedBytes
  | .completeBatch batch confirmedBytes => h.completeBatch batch confirmedBytes
  | .discard id cause => h.terminateAll (fun k _ => k = id) cause
  | .discardWaiting (some g) cause => h.terminateAll (fun _ q => Ledger.waits g q) cause
  | .rollback id => h.settleAll (fun k _ => k = id) (fun _ => .rolledBack)
  | .endAll cause => h.terminateAll (fun _ _ => true) cause
  | .reset => { h with epoch := h.epoch + 1 }
  | _ => h

def run : History → List LedgerOp → History
  | h, [] => h
  | h, op :: ops => run (h.step op) ops

end History

section Contribution
variable {N : Type*} [CommRing N]

/-- One request. -/
def one (bytes : ℕ) : SendRequestTotals N := ⟨1,bytes⟩

def lost (bytes : ℕ) (active : Bool) : SendLossTotals N :=
  if active then ⟨0,one bytes⟩ else ⟨one bytes,0⟩

/-- What a request of some bytes adds to the totals of its epoch. -/
def contribution (bytes : ℕ) : Fate → SendAccounting N
  | .live _ => { (0 : SendAccounting N) with accepted := one bytes, outstanding := one bytes }
  | .completed confirmed =>
    if bytes ≤ confirmed then
      { (0 : SendAccounting N) with
        accepted := one bytes, written := one bytes, confirmedWrittenBytes := bytes }
    else
      { (0 : SendAccounting N) with
        accepted := one bytes, connectionLoss := lost bytes true, confirmedWrittenBytes := confirmed }
  | .terminated .explicitStop active =>
    { (0 : SendAccounting N) with accepted := one bytes, explicitStop := lost bytes active }
  | .terminated .connectionLoss active =>
    { (0 : SendAccounting N) with accepted := one bytes, connectionLoss := lost bytes active }
  | .terminated .queuePressure active =>
    { (0 : SendAccounting N) with accepted := one bytes, queuePressure := lost bytes active }
  | .terminated .sessionExpiry active =>
    { (0 : SendAccounting N) with accepted := one bytes, sessionExpiry := lost bytes active }
  | .rolledBack => 0

/-- Settling a live request replaces its contribution. -/
def settling (q : Request) (fate : Fate) : SendAccounting N :=
  contribution q.bytes fate - contribution q.bytes (.live q.active)

theorem admitRequest_eq (t : SendAccounting N) (bytes : ℕ) (active : Bool) :
    t.admitRequest bytes = t + contribution bytes (.live active) := by
  ext <;> simp [SendAccounting.admitRequest, SendRequestTotals.add, contribution, one]

theorem eq_add_settling {s t : SendAccounting N} {q : Request} {fate : Fate}
    (h : s + contribution q.bytes (.live q.active) = t + contribution q.bytes fate) :
    s = t + settling q fate := by
  rw [settling, ← add_sub_assoc, eq_sub_iff_add_eq, h]

theorem rollback_eq (t : SendAccounting N) (q : Request) :
    t.rollback q.bytes = t + settling q .rolledBack := by
  refine eq_add_settling ?_
  ext <;> simp [SendAccounting.rollback, SendRequestTotals.remove, contribution, one]

theorem complete_eq (t : SendAccounting N) (q : Request) (n : ℕ) :
    t.complete q.bytes n = t + settling q (.completed n) := by
  refine eq_add_settling ?_
  by_cases h : q.bytes ≤ n
  · ext <;> simp [SendAccounting.complete, contribution, h, SendRequestTotals.remove,
      SendRequestTotals.add, one]
  · have hm : min n q.bytes = n := Nat.min_eq_left (Nat.not_le.mp h).le
    have hne : n ≠ q.bytes := (Nat.not_le.mp h).ne
    ext <;> simp [SendAccounting.complete, contribution, h, hm, hne, SendRequestTotals.remove,
      SendRequestTotals.add, one, lost]

theorem terminate_eq (t : SendAccounting N) (q : Request) (cause : Cause) :
    t.terminate q.bytes q.active cause = t + settling q (.terminated cause q.active) := by
  refine eq_add_settling ?_
  obtain ⟨bytes,_,active,_⟩ := q
  cases cause <;> cases active <;> ext <;>
    simp [SendAccounting.terminate, SendLossTotals.lose, SendRequestTotals.remove,
      SendRequestTotals.add, contribution, one, lost]

end Contribution
end Wirestead.Diagnostics
