import Wirestead.Slots.Window
import Wirestead.Diagnostics.SendAccounting

/-! # The send accounting ledger

Live requests sit in a ring indexed by their ids from `base` on; when the ring is full
of holes the survivors move to a map and the ring starts again at a new base. Groups
are shared objects: a handle is the number of a group, the empty handle is `none`.
The ledger mutex makes each operation one step. The hash map is an association list in
the order of insertion; walking it only adds to sums.
-/
namespace Wirestead.Diagnostics
open Slots

/-- What is kept for a request while it is outstanding. -/
structure Request where
  bytes : ℕ
  epoch : ℕ
  active : Bool
  group : Option ℕ
  deriving DecidableEq, Repr

structure Entry extends Request where
  live : Bool
  deriving DecidableEq, Repr

/-- `Entry{}`. -/
instance : Inhabited Entry := ⟨⟨⟨0,0,false,none⟩,false⟩⟩

/-- A contributor with the epoch its totals belong to. -/
structure Group (N : Type*) where
  totals : SendAccounting N
  epoch : ℕ

/-- The totals of the ledger, its epoch, and the groups. -/
structure Books (N : Type*) where
  epoch : ℕ
  totals : SendAccounting N
  groups : ℕ → Group N

namespace Books
variable {N : Type*} [CommRing N] (b : Books N)

/-- New books; a group is made with zero totals in epoch zero. -/
def new : Books N := ⟨0,0,fun _ => ⟨0,0⟩⟩

/-- `update`: requests of an older epoch change nothing. -/
def update (e : Request) (apply : SendAccounting N → SendAccounting N) : Books N :=
  if e.epoch = b.epoch then
    match e.group with
    | none => { b with totals := apply b.totals }
    | some g =>
      { b with totals := apply b.totals
               groups := Function.update b.groups g ⟨apply (b.groups g).totals,(b.groups g).epoch⟩ }
  else b

def terminate (e : Request) (cause : Cause) : Books N :=
  b.update e (fun t => t.terminate e.bytes e.active cause)

/-- The lazy restart of a group that belongs to an older epoch. -/
def joinGroup (group : Option ℕ) : Books N :=
  match group with
  | none => b
  | some g =>
    if (b.groups g).epoch = b.epoch then b
    else { b with groups := Function.update b.groups g ⟨0,b.epoch⟩ }

def snapshot : SendAccounting N := b.totals

def groupSnapshot (group : Option ℕ) : SendAccounting N :=
  match group with
  | none => 0
  | some g => if (b.groups g).epoch = b.epoch then (b.groups g).totals else 0

/-- `reset`: a new measurement epoch. -/
def reset : Books N := { b with epoch := b.epoch + 1, totals := 0 }

end Books

structure Ledger (N : Type*) where
  ring : Window Entry
  sparse : List (ℕ × Entry)
  base : ℕ
  nextId : ℕ
  books : Books N

/-- `unordered_map::emplace`: a key that is present stays as it is. -/
def emplace (m : List (ℕ × Entry)) (id : ℕ) (e : Entry) : List (ℕ × Entry) :=
  if (m.lookup id).isSome then m else m ++ [(id,e)]

/-- The loop of the promotion: live slots go to the map under their ids. -/
def promote : List (ℕ × Entry) → ℕ → List Entry → List (ℕ × Entry)
  | m, _, [] => m
  | m, id, e :: es => promote (if e.live then emplace m id e else m) (id + 1) es

namespace Ledger
variable {N : Type*} [CommRing N] (c : Ledger N)

def new : Ledger N := ⟨.empty,[],1,0,.new⟩

/-- `make_room`: detach the survivors if at most half the slots are live, else grow. -/
def makeRoom : Ledger N :=
  if c.ring.slots ≠ [] ∧ c.ring.toList.countP (·.live) ≤ c.ring.count / 2 then
    { c with sparse := promote c.sparse c.base c.ring.toList
             ring := (c.ring.sweep (fun _ _ => (default,())) ()).1.restart
             base := c.nextId + 1 }
  else { c with ring := c.ring.grow }

def find (id : ℕ) : Option Entry :=
  if id < c.base then c.sparse.lookup id
  else if c.ring.count ≤ id - c.base then none
  else if (c.ring.slot (id - c.base)).live then some (c.ring.slot (id - c.base)) else none

def contains (id : ℕ) : Bool :=
  if id < c.base then (c.sparse.lookup id).isSome
  else decide (id - c.base < c.ring.count) && (c.ring.slot (id - c.base)).live

/-- Writing through the pointer that `find` returned. -/
def modify (id : ℕ) (f : Entry → Entry) : Ledger N :=
  if id < c.base then
    { c with sparse := c.sparse.map (fun p => if p.1 = id then (p.1,f p.2) else p) }
  else { c with ring := c.ring.setSlot (id - c.base) (f (c.ring.slot (id - c.base))) }

/-- The slot of a retired request. -/
def retire (e : Entry) : Entry := { e with live := false, group := none }

def compactLoop : ℕ → Ledger N → Ledger N
  | 0, c => c
  | n + 1, c =>
    if c.ring.count ≠ 0 ∧ (c.ring.slot 0).live = false then
      compactLoop n { c with ring := c.ring.popFront, base := c.base + 1 }
    else c

def compact : Ledger N := compactLoop c.ring.count c

def erase (id : ℕ) : Ledger N :=
  if id < c.base then { c with sparse := c.sparse.filter (fun p => p.1 ≠ id) }
  else (c.modify id retire).compact

def admitRequest (bytes : ℕ) (group : Option ℕ) : Ledger N × ℕ :=
  let id := c.nextId + 1
  let books := c.books.joinGroup group
  let c := if c.ring.count = c.ring.slots.length then c.makeRoom else c
  let entry : Entry := ⟨⟨bytes,books.epoch,false,group⟩,true⟩
  ({ c with ring := c.ring.push entry, nextId := id,
            books := books.update entry.toRequest (fun t => t.admitRequest bytes) },id)

def beginLocked (id : ℕ) : Ledger N × Bool :=
  match c.find id with
  | none => (c,false)
  | some _ => (c.modify id (fun e => { e with active := true }),true)

/-- All or nothing: no request is activated if one was already terminated. -/
def beginBatch (ids : List ℕ) : Ledger N × Bool :=
  if ids.any (fun id => (c.find id).isNone) then (c,false)
  else (ids.foldl (fun c id => (c.beginLocked id).1) c,true)

def completeLocked (id confirmedBytes : ℕ) : Ledger N :=
  match c.find id with
  | none => c
  | some e =>
    let books := c.books.update e.toRequest (fun t => t.complete e.bytes confirmedBytes)
    { c with books := books }.erase id

/-- The wire prefix is spread over the batch in order, also over retired requests. -/
def completeBatch : Ledger N → List (ℕ × ℕ) → ℕ → Ledger N
  | c, [], _ => c
  | c, (id,size) :: rest, confirmedBytes =>
    let confirmed := min confirmedBytes size
    completeBatch (c.completeLocked id confirmed) rest (confirmedBytes - confirmed)

def discard (id : ℕ) (cause : Cause) : Ledger N :=
  match c.find id with
  | none => c
  | some e => { c with books := c.books.terminate e.toRequest cause }.erase id

def rollback (id : ℕ) : Ledger N :=
  match c.find id with
  | none => c
  | some e =>
    let books := c.books.update e.toRequest (fun t => t.rollback e.bytes)
    { c with books := books }.erase id

/-- A request of the group that was not handed to local I/O. -/
def waits (g : ℕ) (e : Request) : Bool := decide (e.group = some g) && !e.active

def discardWaiting (group : Option ℕ) (cause : Cause) : Ledger N :=
  match group with
  | none => c
  | some g =>
    let books := c.sparse.foldl (fun b p =>
      if waits g p.2.toRequest then b.terminate p.2.toRequest cause else b) c.books
    let swept := c.ring.sweep (fun b e =>
      if e.live && waits g e.toRequest then (retire e,b.terminate e.toRequest cause) else (e,b)) books
    { c with sparse := c.sparse.filter (fun p => !waits g p.2.toRequest)
             ring := swept.1, books := swept.2 }.compact

/-- `end`: every request is terminated, also one whose handler has not run. -/
def endAll (cause : Cause) : Ledger N :=
  let books := c.sparse.foldl (fun b p => b.terminate p.2.toRequest cause) c.books
  let swept := c.ring.sweep (fun b e =>
    (default,if e.live then b.terminate e.toRequest cause else b)) books
  { c with sparse := [], ring := swept.1.restart, base := c.nextId + 1, books := swept.2 }

def reset : Ledger N := { c with books := c.books.reset }

end Ledger

/-- The operations of the ledger, with the arguments callers choose freely. -/
inductive LedgerOp
  | admitRequest (bytes : ℕ) (group : Option ℕ)
  | begin (id : ℕ)
  | beginBatch (ids : List ℕ)
  | complete (id confirmedBytes : ℕ)
  | completeBatch (batch : List (ℕ × ℕ)) (confirmedBytes : ℕ)
  | discard (id : ℕ) (cause : Cause)
  | discardWaiting (group : Option ℕ) (cause : Cause)
  | rollback (id : ℕ)
  | endAll (cause : Cause)
  | reset
  | contains (id : ℕ)
  | snapshot
  | groupSnapshot (group : Option ℕ)
  deriving DecidableEq, Repr

inductive LedgerResult (N : Type*)
  | done
  | request (id : ℕ)
  | bool (b : Bool)
  | accounting (t : SendAccounting N)

variable {N : Type*} [CommRing N]

def Ledger.step (c : Ledger N) : LedgerOp → Ledger N × LedgerResult N
  | .admitRequest bytes group => ((c.admitRequest bytes group).1,.request (c.admitRequest bytes group).2)
  | .begin id => ((c.beginLocked id).1,.bool (c.beginLocked id).2)
  | .beginBatch ids => ((c.beginBatch ids).1,.bool (c.beginBatch ids).2)
  | .complete id confirmedBytes => (c.completeLocked id confirmedBytes,.done)
  | .completeBatch batch confirmedBytes => (c.completeBatch batch confirmedBytes,.done)
  | .discard id cause => (c.discard id cause,.done)
  | .discardWaiting group cause => (c.discardWaiting group cause,.done)
  | .rollback id => (c.rollback id,.done)
  | .endAll cause => (c.endAll cause,.done)
  | .reset => (c.reset,.done)
  | .contains id => (c,.bool (c.contains id))
  | .snapshot => (c,.accounting c.books.snapshot)
  | .groupSnapshot group => (c,.accounting (c.books.groupSnapshot group))

/-- A run of the ledger with everything it returned. -/
def Ledger.run (c : Ledger N) : List LedgerOp → Ledger N × List (LedgerResult N)
  | [] => (c,[])
  | op :: ops => (((c.step op).1.run ops).1,(c.step op).2 :: ((c.step op).1.run ops).2)

end Wirestead.Diagnostics
