import Wirestead.Memory.MemoryPool

/-! # Handles on pooled buffers

The size that a buffer is returned under travels with a movable handle. A run creates
pools and handles, moves handles and destroys them; the pool that is drawn from when no
pool is named is one of the pools.
-/
namespace Wirestead.Memory
open Sizes MemoryPool

/-- The pool is named by its place among the pools. -/
structure PooledBuffer where
  buffer : Option Block
  size : ℕ
  pool : Option ℕ
  deriving DecidableEq, Repr

namespace PooledBuffer
variable {pools p : ℕ} {o : PooledBuffer}

/-- What a move leaves behind. -/
def movedFrom : PooledBuffer := ⟨none,0,none⟩

def held (o : PooledBuffer) : Multiset Block := o.buffer.toList

/-- What the handle keeps checked out of the pool. -/
def chargedTo (p : ℕ) (o : PooledBuffer) : ℕ :=
  if o.buffer.isSome ∧ o.pool = some p then charge o.size else 0

/-- The buffer came from a pool, under the size that the handle carries. -/
def Drawn (pools : ℕ) (o : PooledBuffer) : Prop :=
  ∀ b, o.buffer = some b → ∃ p, p < pools ∧ o.pool = some p ∧ Valid o.size ∧ b.size = charge o.size

def heldBy (o : Option PooledBuffer) : Multiset Block := o.elim 0 held

def chargedBy (p : ℕ) (o : Option PooledBuffer) : ℕ := o.elim 0 (chargedTo p)

@[simp] theorem heldBy_some (o : PooledBuffer) : heldBy (some o) = o.held := rfl

@[simp] theorem chargedBy_some (p : ℕ) (o : PooledBuffer) : chargedBy p (some o) = o.chargedTo p := rfl

@[simp] theorem heldBy_none : heldBy none = 0 := rfl

@[simp] theorem chargedBy_none (p : ℕ) : chargedBy p none = 0 := rfl

@[simp] theorem held_movedFrom : movedFrom.held = 0 := rfl

@[simp] theorem chargedTo_movedFrom (p : ℕ) : movedFrom.chargedTo p = 0 := rfl

theorem drawn_movedFrom (pools : ℕ) : movedFrom.Drawn pools := by
  intro b hb
  cases hb

theorem drawn_set {l : List (Option PooledBuffer)} (hd : ∀ o, some o ∈ l → o.Drawn pools) (i : ℕ)
    {x : Option PooledBuffer} (hx : ∀ o, x = some o → o.Drawn pools) (ho : some o ∈ l.set i x) : o.Drawn pools := by
  rcases List.mem_or_eq_of_mem_set ho with ho | ho
  · exact hd o ho
  · exact hx o ho.symm

/-- The storage is as large as its charge. -/
theorem Drawn.chargedTo_le (hd : o.Drawn pools) (p : ℕ) : o.chargedTo p ≤ (o.held.map Block.size).sum := by
  unfold chargedTo
  split_ifs with h
  · obtain ⟨b,hb⟩ := Option.isSome_iff_exists.mp h.1
    obtain ⟨-,-,-,-,hsize⟩ := hd b hb
    simp [held, hb, hsize]
  · exact Nat.zero_le _

theorem Drawn.chargedTo_of_le (hd : o.Drawn pools) (hp : pools ≤ p) : o.chargedTo p = 0 := by
  refine if_neg (fun h => ?_)
  obtain ⟨b,hb⟩ := Option.isSome_iff_exists.mp h.1
  obtain ⟨q,hq,hpool,-⟩ := hd b hb
  rw [hpool] at h
  exact absurd (Option.some.inj h.2) (by omega)

theorem charges_le {l : List (Option PooledBuffer)} (hd : ∀ o, some o ∈ l → o.Drawn pools) (p : ℕ) :
    (l.map (chargedBy p)).sum ≤ ((l.map heldBy).sum.map Block.size).sum := by
  induction l with
  | nil => simp
  | cons x l ih =>
    have hl := ih (fun o ho => hd o (List.mem_cons_of_mem _ ho))
    simp only [List.map_cons, List.sum_cons, Multiset.map_add, Multiset.sum_add]
    cases x with
    | none => simpa using hl
    | some o => exact Nat.add_le_add ((hd o List.mem_cons_self).chargedTo_le p) hl

theorem charges_of_le {l : List (Option PooledBuffer)} (hd : ∀ o, some o ∈ l → o.Drawn pools) (hp : pools ≤ p) :
    (l.map (chargedBy p)).sum = 0 := by
  rw [List.sum_eq_zero_iff]
  intro n hn
  obtain ⟨x,hx,rfl⟩ := List.mem_map.mp hn
  cases x with
  | none => rfl
  | some o => exact (hd o hx).chargedTo_of_le hp

end PooledBuffer

/-- An object that was destroyed leaves no handle at its place. `released` tells whether
every size check of a release has passed. -/
structure World where
  heap : Heap
  pools : List MemoryPool
  objects : List (Option PooledBuffer)
  released : Bool

inductive Op
  | newPool (fails : ℕ → Bool) (initialPoolSize maxPoolSize : ℕ)
  | construct (fails : Bool) (size p : ℕ)
  | moveConstruct (other : ℕ)
  | moveAssign (this other : ℕ)
  | destroy (this : ℕ)

namespace World

def start : World := ⟨Heap.empty,[],[],true⟩

section Steps
variable (w : World)

/-- The storage of a handle goes back to its pool; that of a handle without a pool is deleted. -/
def release (o : PooledBuffer) : World :=
  match o.buffer with
  | none => w
  | some b =>
    match o.pool.bind (fun p => w.pools[p]?.map (fun pool => (p,pool))) with
    | none => { w with heap := w.heap.delete b }
    | some (p,pool) =>
      let r := pool.release w.heap b o.size
      { w with heap := r.2.2, pools := w.pools.set p r.2.1, released := w.released && !r.1 }

/-- The handle at a place, unless it was destroyed. -/
def object (i : ℕ) : Option PooledBuffer := w.objects[i]?.join

def construct (fails : Bool) (size p : ℕ) : World :=
  match w.pools[p]? with
  | none => w
  | some pool =>
    match pool.acquire w.heap fails size with
    | .error _ => w
    | .ok (b,pool,heap) =>
      { w with heap := heap, pools := w.pools.set p pool
               objects := w.objects ++ [some ⟨some b,size,some p⟩] }

def moveConstruct (other : ℕ) : World :=
  match w.object other with
  | none => w
  | some o => { w with objects := w.objects.set other (some .movedFrom) ++ [some o] }

def moveAssign (this other : ℕ) : World :=
  match w.object this, w.object other with
  | some old, some o =>
    if this = other then w
    else
      let w := w.release old
      { w with objects := (w.objects.set this (some o)).set other (some .movedFrom) }
  | _, _ => w

def destroy (this : ℕ) : World :=
  match w.object this with
  | none => w
  | some o =>
    let w := w.release o
    { w with objects := w.objects.set this none }

def newPool (fails : ℕ → Bool) (initialPoolSize maxPoolSize : ℕ) : World :=
  let r := MemoryPool.make fails initialPoolSize maxPoolSize w.heap
  { w with heap := r.2, pools := w.pools ++ r.1.toList }

def step : Op → World
  | .newPool fails initialPoolSize maxPoolSize => w.newPool fails initialPoolSize maxPoolSize
  | .construct fails size p => w.construct fails size p
  | .moveConstruct other => w.moveConstruct other
  | .moveAssign this other => w.moveAssign this other
  | .destroy this => w.destroy this

def run (ops : List Op) : World := ops.foldl step w

/-- The blocks that lie in the pools. -/
def stored : Multiset Block := (w.pools.map MemoryPool.stored).sum

/-- The blocks that live handles hold. -/
def held : Multiset Block := (w.objects.map PooledBuffer.heldBy).sum

/-- The charges of the live handles that draw on a pool. -/
def charged (p : ℕ) : ℕ := (w.objects.map (PooledBuffer.chargedBy p)).sum

/-- Blocks `held` are out of the pools, which have `charged` for them. -/
structure Balanced (held : Multiset Block) (charged : ℕ → ℕ) : Prop where
  owns : Owns w.heap (w.stored + held)
  pools : ∀ pool ∈ w.pools, pool.Sound
  outstanding : ∀ (p : ℕ) pool, w.pools[p]? = some pool → pool.outstandingBytes = charged p
  released : w.released = true

/-- Every block lies in one pool or is held by one handle, and the pools know what is out. -/
structure Sound : Prop where
  balanced : w.Balanced w.held w.charged
  drawn : ∀ o, some o ∈ w.objects → o.Drawn w.pools.length

/-- The pools of an earlier state are still there, and their peaks have not sunk. -/
def Keeps (w' : World) : Prop :=
  ∀ (p : ℕ) pool, w.pools[p]? = some pool →
    ∃ pool', w'.pools[p]? = some pool' ∧ pool.peakBytes ≤ pool'.peakBytes

end Steps

section Specs
variable {w w' : World} {held : Multiset Block} {charged : ℕ → ℕ} {o : PooledBuffer}
open PooledBuffer

theorem Keeps.refl (w : World) : w.Keeps w := fun _ pool hp => ⟨pool,hp,le_rfl⟩

theorem Keeps.trans {w'' : World} (h : w.Keeps w') (h' : w'.Keeps w'') : w.Keeps w'' := by
  intro p pool hp
  obtain ⟨pool',hp',hle⟩ := h p pool hp
  obtain ⟨pool'',hp'',hle'⟩ := h' p pool' hp'
  exact ⟨pool'',hp'',hle.trans hle'⟩

theorem keeps_set {p : ℕ} {pool pool' : MemoryPool} (hp : w.pools[p]? = some pool)
    (hle : pool.peakBytes ≤ pool'.peakBytes) (hset : w'.pools = w.pools.set p pool') : w.Keeps w' := by
  intro q other hq
  rw [hset, List.getElem?_set]
  split_ifs with hpq hlt
  · obtain rfl : pool = other := Option.some.inj (hp.symm.trans (hpq ▸ hq))
    exact ⟨pool',rfl,hle⟩
  · exact absurd (hpq ▸ (List.getElem?_eq_some_iff.mp hp).1) hlt
  · exact ⟨other,hq,le_rfl⟩

/-- The pool at one place is exchanged for one that knows of what was done. -/
theorem Balanced.set (hw : w.Balanced held charged) {p : ℕ} {pool pool' : MemoryPool} {h : Heap}
    {others held' : Multiset Block} {charged' : ℕ → ℕ} (hp : w.pools[p]? = some pool)
    (hstored : w.stored = pool.stored + others) (hs : pool'.Sound) (ho : Owns h (pool'.stored + (others + held')))
    (hout : pool'.outstandingBytes = charged' p) (hother : ∀ q, q ≠ p → charged' q = charged q) :
    ({ w with heap := h, pools := w.pools.set p pool' } : World).Balanced held' charged' := by
  obtain ⟨others',hstored',hset⟩ := exists_sum_set MemoryPool.stored hp
  obtain rfl : others = others' := add_left_cancel (hstored.symm.trans hstored')
  refine ⟨?_,fun q hq => ?_,fun q other hq => ?_,hw.released⟩
  · unfold stored
    dsimp only
    rw [hset, add_assoc]
    exact ho
  · rcases List.mem_or_eq_of_mem_set hq with hq | rfl
    · exact hw.pools q hq
    · exact hs
  · dsimp only at hq
    rw [List.getElem?_set] at hq
    split_ifs at hq with hpq hlt
    · obtain rfl := Option.some.inj hq
      exact hpq ▸ hout
    · exact (hw.outstanding q other hq).trans (hother q (Ne.symm hpq)).symm

theorem release_objects (w : World) (o : PooledBuffer) : (w.release o).objects = w.objects := by
  unfold release
  split
  · rfl
  · split <;> rfl

/-- A handle that was drawn from a pool gives its storage back there. -/
theorem Balanced.release (hw : w.Balanced (o.held + held) (fun p => o.chargedTo p + charged p))
    (hd : o.Drawn w.pools.length) (hle : ∀ p, charged p ≤ (held.map Block.size).sum) :
    (w.release o).Balanced held charged ∧ (w.release o).pools.length = w.pools.length ∧ w.Keeps (w.release o) := by
  unfold World.release
  cases hb : o.buffer with
  | none =>
    have hzero : o.held = 0 := by simp [PooledBuffer.held, hb]
    have hcharge : ∀ p, o.chargedTo p = 0 := fun p => if_neg (by simp [hb])
    simp only [hzero, hcharge, zero_add] at hw
    exact ⟨hw,rfl,Keeps.refl w⟩
  | some b =>
    obtain ⟨p,hlt,hpool,hv,hsize⟩ := hd b hb
    have hp : w.pools[p]? = some w.pools[p] := List.getElem?_eq_getElem hlt
    have hheld : o.held = {b} := by simp [PooledBuffer.held, hb]
    have hcharge : o.chargedTo p = charge o.size := if_pos ⟨by simp [hb],hpool⟩
    have hout := hw.outstanding p _ hp
    have hroom := hw.owns.sum_lt
    rw [hheld, Multiset.map_add, Multiset.map_add, Multiset.sum_add, Multiset.sum_add, Multiset.map_singleton,
      Multiset.sum_singleton] at hroom
    rw [hcharge] at hout
    obtain ⟨others,hstored,-⟩ := exists_sum_set MemoryPool.stored hp
    have hheap : Owns w.heap (b ::ₘ (w.pools[p].stored + (others + held))) := by
      have hown := hw.owns
      rw [hheld, Multiset.singleton_add, Multiset.add_cons, show w.stored = _ from hstored, add_assoc] at hown
      exact hown
    obtain ⟨hok,hsound,hheap',hout',hpeak⟩ := release_spec (hw.pools _ (List.getElem_mem hlt)) hheap hv hsize
      (by omega) (by have := hle p; omega)
    have hset : ({ w with heap := (w.pools[p].release w.heap b o.size).2.2
                          pools := w.pools.set p (w.pools[p].release w.heap b o.size).2.1 } : World).Balanced
        held charged := by
      refine hw.set hp hstored hsound hheap' (by omega) (fun q hq => ?_)
      have hother : o.chargedTo q = 0 := if_neg (fun h => hq (Option.some.inj (hpool.symm.trans h.2)).symm)
      simp [hother]
    simp only [hpool, Option.bind_some, hp, Option.map_some, hok, Bool.not_false, Bool.and_true]
    exact ⟨hset,List.length_set,keeps_set hp hpeak.ge rfl⟩

/-- The rest of the handles, once one of them is set aside. -/
theorem exists_aside (w : World) {i : ℕ} {x : Option PooledBuffer} (hx : w.objects[i]? = some x) :
    ∃ (held : Multiset Block) (charged : ℕ → ℕ), w.held = heldBy x + held ∧
      w.charged = (fun p => chargedBy p x + charged p) ∧
      ∀ y, ((w.objects.set i y).map heldBy).sum = heldBy y + held ∧
        ∀ p, ((w.objects.set i y).map (chargedBy p)).sum = chargedBy p y + charged p := by
  obtain ⟨held,hheld,hset⟩ := exists_sum_set heldBy hx
  choose charged hcharged hset' using fun p => exists_sum_set (chargedBy p) hx
  exact ⟨held,charged,hheld,funext hcharged,fun y => ⟨hset y,fun p => hset' p y⟩⟩

theorem object_eq_some {i : ℕ} (h : w.object i = some o) : w.objects[i]? = some (some o) := by
  unfold object at h
  exact Option.join_eq_some_iff.mp h

/-- A handle gives its storage back, and another state of it takes its place. -/
theorem Sound.release (hw : w.Sound) {i : ℕ} (hi : w.object i = some o) :
    ∃ (held : Multiset Block) (charged : ℕ → ℕ), (w.release o).Balanced held charged ∧
      (w.release o).pools.length = w.pools.length ∧
      w.Keeps (w.release o) ∧
      ∀ y, ((w.objects.set i y).map heldBy).sum = heldBy y + held ∧
        ∀ p, ((w.objects.set i y).map (chargedBy p)).sum = chargedBy p y + charged p := by
  have hmem := object_eq_some hi
  obtain ⟨held,charged,hheld,hcharged,hset⟩ := exists_aside w hmem
  have hb := hw.balanced
  rw [hheld, hcharged] at hb
  have hdrawn : ∀ o', some o' ∈ w.objects.set i none → o'.Drawn w.pools.length :=
    fun o' ho' => drawn_set hw.drawn i (by simp) ho'
  have hle : ∀ p, charged p ≤ (held.map Block.size).sum := by
    intro p
    have h := charges_le hdrawn p
    rw [(hset none).1, (hset none).2 p, heldBy_none, chargedBy_none, zero_add, zero_add] at h
    exact h
  obtain ⟨hbal,hlen,hkeep⟩ := Balanced.release hb (hw.drawn o (List.mem_of_getElem? hmem)) hle
  exact ⟨held,charged,hbal,hlen,hkeep,hset⟩

theorem Sound.destroy (hw : w.Sound) (this : ℕ) : (w.destroy this).Sound ∧ w.Keeps (w.destroy this) := by
  unfold World.destroy
  cases ho : w.object this with
  | none => exact ⟨hw,Keeps.refl w⟩
  | some o =>
    obtain ⟨held,charged,hbal,hlen,hkeep,hset⟩ := hw.release ho
    obtain ⟨hheld,hcharged⟩ := hset none
    refine ⟨⟨?_,fun o' ho' => ?_⟩,hkeep⟩
    · unfold World.held World.charged
      simp only [release_objects, hheld, hcharged, heldBy_none, chargedBy_none, zero_add]
      exact ⟨hbal.owns,hbal.pools,hbal.outstanding,hbal.released⟩
    · simp only [release_objects] at ho'
      exact hlen ▸ drawn_set hw.drawn this (by simp) ho'

theorem Sound.moveConstruct (hw : w.Sound) (other : ℕ) :
    (w.moveConstruct other).Sound ∧ w.Keeps (w.moveConstruct other) := by
  unfold World.moveConstruct
  cases ho : w.object other with
  | none => exact ⟨hw,Keeps.refl w⟩
  | some o =>
    have hmem := object_eq_some ho
    obtain ⟨held,charged,hheld,hcharged,hset⟩ := exists_aside w hmem
    obtain ⟨hheld',hcharged'⟩ := hset (some .movedFrom)
    have hb := hw.balanced
    rw [hheld, hcharged] at hb
    refine ⟨⟨?_,fun o' ho' => ?_⟩,Keeps.refl w⟩
    · unfold World.held World.charged
      simp only [List.map_append, List.sum_append, hheld', hcharged', heldBy_some, chargedBy_some, held_movedFrom,
        chargedTo_movedFrom, zero_add, List.map_singleton, List.sum_singleton, add_comm held, add_comm (charged _)]
      exact ⟨hb.owns,hb.pools,hb.outstanding,hb.released⟩
    · have hmoved : ∀ o'', some movedFrom = some o'' → o''.Drawn w.pools.length := by
        simp [drawn_movedFrom]
      rcases List.mem_append.mp ho' with ho' | ho'
      · exact drawn_set hw.drawn other hmoved ho'
      · cases List.mem_singleton.mp ho'
        exact hw.drawn o (List.mem_of_getElem? hmem)

theorem Sound.moveAssign (hw : w.Sound) (this other : ℕ) :
    (w.moveAssign this other).Sound ∧ w.Keeps (w.moveAssign this other) := by
  unfold World.moveAssign
  cases hold : w.object this with
  | none => exact ⟨hw,Keeps.refl w⟩
  | some old =>
    cases ho : w.object other with
    | none => exact ⟨hw,Keeps.refl w⟩
    | some o =>
      dsimp only
      split_ifs with hne
      · exact ⟨hw,Keeps.refl w⟩
      · have hmem := object_eq_some ho
        obtain ⟨held,charged,hbal,hlen,hkeep,hset⟩ := hw.release hold
        obtain ⟨hheld,hcharged⟩ := hset (some o)
        -- The handle that is moved from is still at its place.
        have hother : (w.objects.set this (some o))[other]? = some (some o) := by
          rw [List.getElem?_set_ne hne]
          exact hmem
        obtain ⟨held',hheld',hset'⟩ := exists_sum_set heldBy hother
        obtain rfl : held = held' := add_left_cancel (hheld.symm.trans hheld')
        have hset'' : ∀ p, (((w.objects.set this (some o)).set other (some .movedFrom)).map (chargedBy p)).sum =
            charged p := by
          intro p
          obtain ⟨c,hc,hsetc⟩ := exists_sum_set (chargedBy p) hother
          obtain rfl : charged p = c := Nat.add_left_cancel ((hcharged p).symm.trans hc)
          simpa using hsetc (some .movedFrom)
        refine ⟨⟨?_,fun o' ho' => ?_⟩,hkeep⟩
        · unfold World.held World.charged
          simp only [release_objects, hset', hset'', heldBy_some, held_movedFrom, zero_add]
          exact ⟨hbal.owns,hbal.pools,hbal.outstanding,hbal.released⟩
        · have hgiven : ∀ o'', some o = some o'' → o''.Drawn w.pools.length := by
            simp [hw.drawn o (List.mem_of_getElem? hmem)]
          have hmoved : ∀ o'', some movedFrom = some o'' → o''.Drawn w.pools.length := by
            simp [drawn_movedFrom]
          simp only [release_objects] at ho'
          dsimp only
          rw [hlen]
          exact drawn_set (fun o'' ho'' => drawn_set hw.drawn this hgiven ho'') other hmoved ho'

theorem Sound.construct (hw : w.Sound) (fails : Bool) (size p : ℕ) :
    (w.construct fails size p).Sound ∧ w.Keeps (w.construct fails size p) := by
  unfold World.construct
  cases hp : w.pools[p]? with
  | none => exact ⟨hw,Keeps.refl w⟩
  | some pool =>
    dsimp only
    cases ha : pool.acquire w.heap fails size with
    | error e => exact ⟨hw,Keeps.refl w⟩
    | ok r =>
      obtain ⟨b,pool',h⟩ := r
      obtain ⟨others,hstored,-⟩ := exists_sum_set MemoryPool.stored hp
      have hown := hw.balanced.owns
      rw [show w.stored = _ from hstored, add_assoc] at hown
      obtain ⟨hv,hacq⟩ := acquire_spec (hw.balanced.pools pool (List.mem_of_getElem? hp)) hown ha
      have hlt : p < w.pools.length := (List.getElem?_eq_some_iff.mp hp).1
      -- What is out and the new buffer lie in the heap at once.
      have hroom := hacq.owns.sum_lt
      rw [Multiset.map_cons, Multiset.sum_cons, Multiset.map_add, Multiset.map_add, Multiset.sum_add,
        Multiset.sum_add, hacq.size] at hroom
      have hle : w.charged p ≤ (w.held.map Block.size).sum := charges_le hw.drawn p
      have hout : pool'.outstandingBytes = w.charged p + charge size := by
        rw [hacq.outstanding, hw.balanced.outstanding p pool hp]
        exact Nat.mod_eq_of_lt (by omega)
      have hbal : ({ w with heap := h, pools := w.pools.set p pool' } : World).Balanced (w.held + {b})
          (fun q => w.charged q + (⟨some b,size,some p⟩ : PooledBuffer).chargedTo q) := by
        refine hw.balanced.set hp hstored hacq.sound ?_ (hout.trans (by simp [chargedTo]))
          (fun q hq => by simp [chargedTo, Ne.symm hq])
        have hown := hacq.owns
        rw [← Multiset.singleton_add, add_comm, add_assoc, add_assoc] at hown
        exact hown
      dsimp only
      refine ⟨⟨?_,fun o ho => ?_⟩,keeps_set hp hacq.peak rfl⟩
      · unfold World.held World.charged
        simp only [List.map_append, List.sum_append, List.map_singleton, List.sum_singleton]
        exact ⟨hbal.owns,hbal.pools,hbal.outstanding,hbal.released⟩
      · dsimp only
        rw [List.length_set]
        rcases List.mem_append.mp ho with ho | ho
        · exact hw.drawn o ho
        · cases List.mem_singleton.mp ho
          intro b' hb'
          cases hb'
          exact ⟨p,hlt,rfl,hv,hacq.size⟩

theorem Sound.newPool (hw : w.Sound) (fails : ℕ → Bool) (initialPoolSize maxPoolSize : ℕ) :
    (w.newPool fails initialPoolSize maxPoolSize).Sound ∧ w.Keeps (w.newPool fails initialPoolSize maxPoolSize) := by
  unfold World.newPool
  obtain ⟨hown,hmake⟩ := make_spec fails initialPoolSize maxPoolSize hw.balanced.owns
  dsimp only
  generalize make fails initialPoolSize maxPoolSize w.heap = r at hown hmake
  have hnew : w.Keeps { w with heap := r.2, pools := w.pools ++ r.1.toList } := by
    intro p pool hp
    exact ⟨pool,(List.getElem?_append_left (List.getElem?_eq_some_iff.mp hp).1).trans hp,le_rfl⟩
  refine ⟨⟨⟨?_,fun pool hpool => ?_,fun p pool hp => ?_,hw.balanced.released⟩,fun o ho => ?_⟩,hnew⟩
  · have hstored : ((w.pools ++ r.1.toList).map MemoryPool.stored).sum = w.stored + r.1.elim 0 MemoryPool.stored := by
      cases r.1 <;> simp [stored]
    unfold stored
    dsimp only
    rw [hstored, add_right_comm]
    rw [add_comm] at hown
    exact hown
  · rcases List.mem_append.mp hpool with hpool | hpool
    · exact hw.balanced.pools pool hpool
    · exact (hmake pool (Option.mem_toList.mp hpool)).1
  · dsimp only at hp
    rw [List.getElem?_append] at hp
    split_ifs at hp with hlt
    · exact hw.balanced.outstanding p pool hp
    · have hpool : r.1 = some pool := Option.mem_toList.mp (List.mem_of_getElem? hp)
      exact (hmake pool hpool).2.trans (charges_of_le hw.drawn (not_lt.mp hlt)).symm
  · intro b hb
    obtain ⟨p,hp,hrest⟩ := hw.drawn o ho b hb
    exact ⟨p,by simp only [List.length_append]; omega,hrest⟩

theorem Sound.step (hw : w.Sound) (op : Op) : (w.step op).Sound ∧ w.Keeps (w.step op) := by
  cases op with
  | newPool fails initialPoolSize maxPoolSize => exact hw.newPool fails initialPoolSize maxPoolSize
  | construct fails size p => exact hw.construct fails size p
  | moveConstruct other => exact hw.moveConstruct other
  | moveAssign this other => exact hw.moveAssign this other
  | destroy this => exact hw.destroy this

theorem Sound.run (hw : w.Sound) (ops : List Op) : (w.run ops).Sound ∧ w.Keeps (w.run ops) := by
  induction ops generalizing w with
  | nil => exact ⟨hw,Keeps.refl w⟩
  | cons op ops ih =>
    obtain ⟨hstep,hkeep⟩ := hw.step op
    obtain ⟨hrun,hkeeps⟩ := ih hstep
    exact ⟨hrun,hkeep.trans hkeeps⟩

theorem start_sound : start.Sound := by
  refine ⟨⟨Owns.empty,fun pool hp => ?_,fun p pool hp => ?_,rfl⟩,fun o ho => ?_⟩
  · simp [start] at hp
  · simp [start] at hp
  · simp [start] at ho

end Specs

/-- Whatever is done with the handles, the pools know the bytes that are out, a bucket has
buffers of its own size only, no storage is in two places, and every release passes its check. -/
theorem run_keeps_buffers (ops : List Op) :
    (∀ (p : ℕ) pool, (start.run ops).pools[p]? = some pool →
      pool.outstandingBytes = (start.run ops).charged p ∧
        ∀ i, (∀ b ∈ (pool.buckets i).buffers, b.size = (pool.buckets i).size) ∧
          (pool.buckets i).buffers.length ≤ (pool.buckets i).capacity) ∧
    (∀ o b, some o ∈ (start.run ops).objects → o.buffer = some b → b.size = charge o.size ∧ o.size ≤ b.size) ∧
    (((start.run ops).stored + (start.run ops).held).map Block.id).Nodup ∧
    (∀ before after, ops = before ++ after → ∀ (p : ℕ) pool, (start.run before).pools[p]? = some pool →
      ∃ pool', (start.run ops).pools[p]? = some pool' ∧ pool.outstandingBytes ≤ pool'.peakBytes) ∧
    (start.run ops).released = true := by
  obtain ⟨hsound,-⟩ := start_sound.run ops
  refine ⟨fun p pool hp => ⟨hsound.balanced.outstanding p pool hp,fun i => ?_⟩,fun o b ho hb => ?_,
    hsound.balanced.owns.nodup,fun before after hops p pool hp => ?_,hsound.balanced.released⟩
  · have hs := hsound.balanced.pools pool (List.mem_of_getElem? hp)
    refine ⟨fun b hb => ?_,hs.capacity i⟩
    rw [hs.buffers i b hb, hs.sizes i]
  · obtain ⟨-,-,-,-,hsize⟩ := hsound.drawn o ho b hb
    exact ⟨hsize,hsize ▸ le_charge o.size⟩
  · obtain ⟨hbefore,-⟩ := start_sound.run before
    obtain ⟨-,hkeep⟩ := hbefore.run after
    obtain ⟨pool',hp',hle⟩ := hkeep p pool hp
    refine ⟨pool',?_,(hbefore.balanced.pools pool (List.mem_of_getElem? hp)).peak.trans hle⟩
    rw [hops]
    unfold run
    rw [List.foldl_append]
    exact hp'

-- A buffer is replaced by a larger one, which is then assigned to itself.
example : ((start.run [.newPool (fun _ => false) 0 8,.construct false 2000 0,.construct false 70000 0,
    .moveAssign 0 1,.moveAssign 0 0]).pools.map MemoryPool.outstandingBytes) = [70000] := by decide

end World
end Wirestead.Memory
