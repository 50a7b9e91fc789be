import Wirestead.Calls.Throwing
import Wirestead.Diagnostics.LedgerRefinement

/-! # Admissions that fail

`admit` allocates in `make_room` only, which stages what it needs before it changes a
store. `fails` says which allocations of a call throw. A throw unwinds the locals and
leaves the ledger as it is at that moment.
-/
namespace Wirestead.Diagnostics
open Slots Calls

inductive BadAlloc
  | badAlloc
  deriving DecidableEq, Repr

structure Admitting (N : Type) where
  ledger : Ledger N
  allocations : ℕ

abbrev Admission (N : Type) := EStateM BadAlloc (Admitting N)

section Calls
variable {N : Type} [CommRing N] (fails : ℕ → Bool)

omit [CommRing N] in
def allocate : Admission N Unit := fun s =>
  if fails s.allocations then .error .badAlloc { s with allocations := s.allocations + 1 }
  else .ok () { s with allocations := s.allocations + 1 }

def copyNodes : List (ℕ × Entry) → Admission N (List (ℕ × Entry))
  | [] => pure []
  | p :: ps => do
    allocate fails
    let rest ← copyNodes ps
    pure (p :: rest)

/-- `auto staged = sparse_`: the buckets, then the nodes. -/
def copySparse (m : List (ℕ × Entry)) : Admission N (List (ℕ × Entry)) := do
  allocate fails
  copyNodes fails m

def promoteStaged : List (ℕ × Entry) → ℕ → List Entry → Admission N (List (ℕ × Entry))
  | m, _, [] => pure m
  | m, id, e :: es =>
    if e.live then do
      allocate fails
      promoteStaged (emplace m id e) (id + 1) es
    else promoteStaged m (id + 1) es

/-- `make_room` with its allocations: the copy, its reservation and the survivors, or
the larger ring. -/
def makeRoomStaged : Admission N PUnit := do
  let s ← get
  if s.ledger.ring.slots ≠ [] ∧ s.ledger.ring.toList.countP (·.live) ≤ s.ledger.ring.count / 2 then do
    let copy ← copySparse fails s.ledger.sparse
    allocate fails
    let staged ← promoteStaged fails copy s.ledger.base s.ledger.ring.toList
    modify fun s => { s with ledger := { s.ledger with sparse := staged } }
    modify fun s => { s with ledger := { s.ledger with
      ring := (s.ledger.ring.sweep (fun _ _ => (default,())) ()).1.restart
      base := s.ledger.nextId + 1 } }
  else do
    allocate fails
    modify fun s => { s with ledger := { s.ledger with ring := s.ledger.ring.grow } }

/-- `admit`: the group joins the epoch first, the id is committed with the entry. -/
def admitStaged (bytes : ℕ) (group : Option ℕ) : Admission N ℕ := do
  let s ← get
  let id := s.ledger.nextId + 1
  modify fun s => { s with ledger := { s.ledger with books := s.ledger.books.joinGroup group } }
  let s ← get
  (if s.ledger.ring.count = s.ledger.ring.slots.length then makeRoomStaged fails else pure ⟨⟩)
  modify fun s =>
    let entry : Entry := ⟨⟨bytes,s.ledger.books.epoch,false,group⟩,true⟩
    { s with ledger := { s.ledger with
      ring := s.ledger.ring.push entry
      nextId := id
      books := s.ledger.books.update entry.toRequest (fun t => t.admitRequest bytes) } }
  pure id

/-- A call of `admit`: the ledger it leaves, and the id unless it throws. -/
def Ledger.tryAdmit (c : Ledger N) (bytes : ℕ) (group : Option ℕ) : Ledger N × Option ℕ :=
  match admitStaged fails bytes group ⟨c,0⟩ with
  | .ok id s => (s.ledger,some id)
  | .error _ s => (s.ledger,none)

end Calls

section Specs
variable {N : Type} {fails : ℕ → Bool}

/-- Staging works on locals: the ledger is untouched, also after a throw. -/
def Stages {α : Type} (c : Ledger N) (x : Admission N α) (a : α) : Prop :=
  Meets (fun s => s.ledger = c) x (fun r s => r = a ∧ s.ledger = c) (fun _ s => s.ledger = c)

variable {c : Ledger N}

theorem Stages.bind {α β : Type} {x : Admission N α} {a : α} (hx : Stages c x a)
    {k : α → Admission N β} {Q : β → Admitting N → Prop}
    (hk : Meets (fun s => s.ledger = c) (k a) Q (fun _ s => s.ledger = c)) :
    Meets (fun s => s.ledger = c) (x >>= k) Q (fun _ s => s.ledger = c) := by
  refine Meets.bind hx (fun r s hs => ?_)
  obtain ⟨rfl,hs⟩ := hs
  exact hk s hs

theorem stages_pure {α : Type} (a : α) : Stages c (pure a : Admission N α) a :=
  Meets.pure (fun _ hs => ⟨rfl,hs⟩)

theorem stages_allocate : Stages c (allocate fails) () := by
  intro s hs
  unfold allocate
  by_cases h : fails s.allocations = true
  · rw [if_pos h]
    exact hs
  · rw [if_neg h]
    exact ⟨rfl,hs⟩

theorem stages_copyNodes (m : List (ℕ × Entry)) : Stages c (copyNodes fails m) m := by
  induction m with
  | nil => exact stages_pure []
  | cons p ps ih => exact stages_allocate.bind (ih.bind (stages_pure (p :: ps)))

theorem stages_copySparse (m : List (ℕ × Entry)) : Stages c (copySparse fails m) m :=
  stages_allocate.bind (stages_copyNodes m)

theorem stages_promoteStaged (m : List (ℕ × Entry)) (id : ℕ) (es : List Entry) :
    Stages c (promoteStaged fails m id es) (promote m id es) := by
  induction es generalizing m id with
  | nil => exact stages_pure m
  | cons e es ih =>
    unfold promoteStaged promote
    by_cases he : e.live = true
    · rw [if_pos he, if_pos he]
      exact stages_allocate.bind (ih _ _)
    · rw [if_neg he, if_neg he]
      exact ih m (id + 1)

theorem meets_makeRoomStaged (c : Ledger N) :
    Meets (fun s => s.ledger = c) (makeRoomStaged fails) (fun _ s => s.ledger = c.makeRoom)
      (fun _ s => s.ledger = c) := by
  refine Meets.bind (M := fun r s => r.ledger = c ∧ s.ledger = c) (Meets.get (fun s hs => ⟨hs,hs⟩)) ?_
  rintro r s ⟨hr,hs⟩
  rw [hr]
  unfold Ledger.makeRoom
  by_cases hlive : c.ring.slots ≠ [] ∧ c.ring.toList.countP (·.live) ≤ c.ring.count / 2
  · rw [if_pos hlive, if_pos hlive]
    refine (stages_copySparse c.sparse).bind (stages_allocate.bind
      ((stages_promoteStaged c.sparse c.base c.ring.toList).bind ?_)) s hs
    refine Meets.bind (M := fun _ s => s.ledger = { c with
      sparse := promote c.sparse c.base c.ring.toList }) ?_ (fun _ => ?_)
    · exact Meets.update (fun s hs => by rw [hs])
    · exact Meets.update (fun s hs => by rw [hs])
  · rw [if_neg hlive, if_neg hlive]
    exact stages_allocate.bind (Meets.update (fun s hs => by rw [hs])) s hs

/-- A throw leaves everything but the group as it was. -/
theorem meets_admitStaged [CommRing N] (c : Ledger N) (bytes : ℕ) (group : Option ℕ) :
    Meets (fun s => s.ledger = c) (admitStaged fails bytes group)
      (fun id s => (s.ledger,id) = c.admitRequest bytes group)
      (fun _ s => s.ledger = { c with books := c.books.joinGroup group }) := by
  set joined : Ledger N := { c with books := c.books.joinGroup group } with hj
  refine Meets.bind (M := fun r s => r.ledger = c ∧ s.ledger = c) (Meets.get (fun s hs => ⟨hs,hs⟩))
    (fun r => ?_)
  refine Meets.bind (M := fun _ s => r.ledger = c ∧ s.ledger = joined)
    (Meets.update (fun s hs => ⟨hs.1,by rw [hj, hs.2]⟩)) (fun _ => ?_)
  refine Meets.bind (M := fun t s => r.ledger = c ∧ t.ledger = joined ∧ s.ledger = joined)
    (Meets.get (fun s hs => ⟨hs.1,hs.2,hs.2⟩)) (fun t => ?_)
  refine Meets.bind (M := fun _ s => r.ledger = c ∧ s.ledger =
    if joined.ring.count = joined.ring.slots.length then joined.makeRoom else joined) ?_ (fun _ => ?_)
  · rintro s ⟨hr,ht,hs⟩
    rw [ht]
    by_cases hfull : joined.ring.count = joined.ring.slots.length
    · rw [if_pos hfull, if_pos hfull]
      exact (meets_makeRoomStaged joined).weaken (fun _ h => h) (fun _ _ h => ⟨hr,h⟩)
        (fun _ _ h => h) s hs
    · rw [if_neg hfull, if_neg hfull]
      exact ⟨hr,hs⟩
  · refine Meets.bind (M := fun _ s => (s.ledger,r.ledger.nextId + 1) = c.admitRequest bytes group)
      (Meets.update (fun s hs => ?_)) (fun _ => Meets.pure (fun s hs => hs))
    rw [hs.1, hs.2]
    unfold Ledger.admitRequest
    dsimp only
    have hroom : joined.makeRoom = { c.makeRoom with books := joined.books } := by
      unfold Ledger.makeRoom
      rw [hj]
      split <;> rfl
    rw [hroom]
    split <;> rfl

variable (fails) in
/-- What a call of `admit` can do: admit, or fail and leave the group joined. -/
theorem Ledger.tryAdmit_cases [CommRing N] (c : Ledger N) (bytes : ℕ) (group : Option ℕ) :
    c.tryAdmit fails bytes group =
        ((c.admitRequest bytes group).1,some (c.admitRequest bytes group).2) ∨
      c.tryAdmit fails bytes group = ({ c with books := c.books.joinGroup group },none) := by
  have hmeets : Meets _ (admitStaged fails bytes group) _ _ := meets_admitStaged c bytes group
  have h := hmeets ⟨c,0⟩ rfl
  unfold Ledger.tryAdmit
  cases he : admitStaged fails bytes group ⟨c,0⟩ with
  | ok id s =>
    rw [he] at h
    exact .inl (by rw [← h])
  | error e s =>
    rw [he] at h
    exact .inr (by rw [← h])

end Specs

inductive LedgerCall
  | op (op : LedgerOp)
  | tryAdmit (fails : ℕ → Bool) (bytes : ℕ) (group : Option ℕ)

section Calls
variable {N : Type} [CommRing N]

def Ledger.call (c : Ledger N) : LedgerCall → Ledger N × Option (LedgerResult N)
  | .op op => ((c.step op).1,some (c.step op).2)
  | .tryAdmit fails bytes group =>
    ((c.tryAdmit fails bytes group).1,(c.tryAdmit fails bytes group).2.map .request)

def Ledger.calls (c : Ledger N) : List LedgerCall → Ledger N × List (Option (LedgerResult N))
  | [] => (c,[])
  | x :: xs => (((c.call x).1.calls xs).1,(c.call x).2 :: ((c.call x).1.calls xs).2)

end Calls
end Wirestead.Diagnostics
