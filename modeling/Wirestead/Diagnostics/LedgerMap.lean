import Wirestead.Diagnostics.SendLedger

/-! # The ledger as one finite map

The abstract ledger keeps one association list from request ids to requests. The
operations look a request up, change it in place or take it out.
-/
namespace Wirestead.Diagnostics

structure LedgerMap (N : Type*) where
  requests : List (ℕ × Request)
  nextId : ℕ
  books : Books N

/-- The value of a key is replaced. -/
def alterKey (m : List (ℕ × Request)) (id : ℕ) (f : Request → Request) : List (ℕ × Request) :=
  m.map (fun p => if p.1 = id then (p.1,f p.2) else p)

def eraseKey (m : List (ℕ × Request)) (id : ℕ) : List (ℕ × Request) := m.filter (fun p => p.1 ≠ id)

namespace LedgerMap
variable {N : Type*} [CommRing N] (a : LedgerMap N)

def new : LedgerMap N := ⟨[],0,.new⟩

def admitRequest (bytes : ℕ) (group : Option ℕ) : LedgerMap N × ℕ :=
  let books := a.books.joinGroup group
  let r : Request := ⟨bytes,books.epoch,false,group⟩
  (⟨a.requests ++ [(a.nextId + 1,r)],a.nextId + 1,books.update r (fun t => t.admitRequest bytes)⟩,
    a.nextId + 1)

def contains (id : ℕ) : Bool := (a.requests.lookup id).isSome

/-- Handing a request to local I/O. -/
def activate (id : ℕ) : LedgerMap N :=
  { a with requests := alterKey a.requests id (fun r => { r with active := true }) }

def begin (id : ℕ) : LedgerMap N × Bool := (a.activate id,a.contains id)

def beginBatch (ids : List ℕ) : LedgerMap N × Bool :=
  if ids.all a.contains then (ids.foldl activate a,true) else (a,false)

/-- A request leaves the map, and the books say how. -/
def finish (id : ℕ) (settle : Request → SendAccounting N → SendAccounting N) : LedgerMap N :=
  match a.requests.lookup id with
  | none => a
  | some r => { a with requests := eraseKey a.requests id, books := a.books.update r (settle r) }

def complete (id confirmedBytes : ℕ) : LedgerMap N :=
  a.finish id (fun r t => t.complete r.bytes confirmedBytes)

def completeBatch : LedgerMap N → List (ℕ × ℕ) → ℕ → LedgerMap N
  | a, [], _ => a
  | a, (id,size) :: rest, confirmedBytes =>
    let confirmed := min confirmedBytes size
    completeBatch (a.complete id confirmed) rest (confirmedBytes - confirmed)

def discard (id : ℕ) (cause : Cause) : LedgerMap N :=
  a.finish id (fun r t => t.terminate r.bytes r.active cause)

def rollback (id : ℕ) : LedgerMap N := a.finish id (fun r t => t.rollback r.bytes)

/-- All requests that `p` selects are terminated. -/
def terminateAll (p : Request → Bool) (cause : Cause) : LedgerMap N :=
  { a with requests := a.requests.filter (fun q => !p q.2)
           books := (a.requests.filter (fun q => p q.2)).foldl
            (fun b q => b.terminate q.2 cause) a.books }

def discardWaiting (group : Option ℕ) (cause : Cause) : LedgerMap N :=
  match group with
  | none => a
  | some g => a.terminateAll (Ledger.waits g) cause

def endAll (cause : Cause) : LedgerMap N := a.terminateAll (fun _ => true) cause

def reset : LedgerMap N := { a with books := a.books.reset }

def step : LedgerOp → LedgerMap N × LedgerResult N
  | .admitRequest bytes group => ((a.admitRequest bytes group).1,.request (a.admitRequest bytes group).2)
  | .begin id => ((a.begin id).1,.bool (a.begin id).2)
  | .beginBatch ids => ((a.beginBatch ids).1,.bool (a.beginBatch ids).2)
  | .complete id confirmedBytes => (a.complete id confirmedBytes,.done)
  | .completeBatch batch confirmedBytes => (a.completeBatch batch confirmedBytes,.done)
  | .discard id cause => (a.discard id cause,.done)
  | .discardWaiting group cause => (a.discardWaiting group cause,.done)
  | .rollback id => (a.rollback id,.done)
  | .endAll cause => (a.endAll cause,.done)
  | .reset => (a.reset,.done)
  | .contains id => (a,.bool (a.contains id))
  | .snapshot => (a,.accounting a.books.snapshot)
  | .groupSnapshot group => (a,.accounting (a.books.groupSnapshot group))

def run : LedgerMap N → List LedgerOp → LedgerMap N × List (LedgerResult N)
  | a, [] => (a,[])
  | a, op :: ops => ((run (a.step op).1 ops).1,(a.step op).2 :: (run (a.step op).1 ops).2)

end LedgerMap
end Wirestead.Diagnostics
