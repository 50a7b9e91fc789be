import Wirestead.Memory.Heap

/-! # The memory pool

Four buckets of free buffers, a bypass for sizes above the largest of them, and the
counters of bytes that are checked out. Each lemma on an operation says what becomes of
the blocks in play.
-/
namespace Wirestead.Memory
open Sizes

/-- `fetch_sub` on a size. -/
def fetchSub (a b : ℕ) : ℕ := (a + (modulus - b)) % modulus

theorem fetchSub_eq {a b : ℕ} (hb : b ≤ a) (ha : a < modulus) : fetchSub a b = a - b := by
  unfold fetchSub
  rw [show a + (modulus - b) = a - b + modulus by omega, Nat.add_mod_right]
  exact Nat.mod_eq_of_lt (by omega)

namespace BufferSize

def small : ℕ := 1024
def medium : ℕ := 4096
def large : ℕ := 16384
def xlarge : ℕ := 65536

end BufferSize

/-- The stack of free buffers, the top first. -/
structure PoolBucket where
  buffers : List Block
  size : ℕ
  capacity : ℕ
  deriving DecidableEq, Repr

structure MemoryPool where
  buckets : Fin 4 → PoolBucket
  totalAllocations : ℕ
  poolHits : ℕ
  outstandingBytes : ℕ
  peakBytes : ℕ

inductive AcquireFailure
  | invalidArgument
  | badAlloc
  deriving DecidableEq, Repr

namespace MemoryPool

def bucketSizes : Fin 4 → ℕ := ![BufferSize.small,BufferSize.medium,BufferSize.large,BufferSize.xlarge]

def bucketIndex (size : ℕ) : Fin 4 :=
  if size ≤ BufferSize.small then 0
  else if size ≤ BufferSize.medium then 1
  else if size ≤ BufferSize.large then 2
  else 3

/-- The sizes that `validate_size` lets through. -/
def Valid (size : ℕ) : Prop := ¬(size = 0 ∨ size > 64 * 1024 * 1024)

instance (size : ℕ) : Decidable (Valid size) := inferInstanceAs (Decidable (¬ _))

/-- What an acquisition is charged with. -/
def charge (size : ℕ) : ℕ := if size > BufferSize.xlarge then size else bucketSizes (bucketIndex size)

theorem le_charge (size : ℕ) : size ≤ charge size := by
  unfold charge bucketIndex bucketSizes
  split_ifs with h1 h2 h3 h4
  · exact le_rfl
  · exact h2
  · exact h3
  · exact h4
  · exact not_lt.mp h1

/-- The prefill of one bucket; `fails` tells which allocations fail. -/
def prefillBucket (fails : ℕ → Bool) : ℕ → PoolBucket → Heap → PoolBucket × Heap × Bool
  | 0, bucket, h => (bucket,h,true)
  | n + 1, bucket, h =>
    match h.new (fails h.next) bucket.size with
    | none => (bucket,h,false)
    | some (b,h) => prefillBucket fails n { bucket with buffers := b :: bucket.buffers } h

/-- The prefill of the buckets in turn, up to an allocation that fails. -/
def prefill (fails : ℕ → Bool) (perBucket : ℕ) :
    List (Fin 4) → (Fin 4 → PoolBucket) → Heap → (Fin 4 → PoolBucket) × Heap × Bool
  | [], buckets, h => (buckets,h,true)
  | i :: is, buckets, h =>
    let r := prefillBucket fails (min perBucket (buckets i).capacity) (buckets i) h
    let buckets := Function.update buckets i r.1
    if r.2.2 then prefill fails perBucket is buckets r.2.1 else (buckets,r.2.1,false)

/-- The constructor. When it throws, the buffers that it has created are deleted. -/
def make (fails : ℕ → Bool) (initialPoolSize maxPoolSize : ℕ) (h : Heap) : Option MemoryPool × Heap :=
  let buckets : Fin 4 → PoolBucket := fun i => ⟨[],bucketSizes i,maxPoolSize / 4⟩
  let r := prefill fails (initialPoolSize / 4) [0,1,2,3] buckets h
  if r.2.2 then (some ⟨r.1,0,0,0,0⟩,r.2.1)
  else (none,([0,1,2,3].flatMap (fun i => (r.1 i).buffers)).foldl Heap.delete r.2.1)

section Operations
variable (pool : MemoryPool)

def trackAcquire (size : ℕ) : MemoryPool :=
  let newOutstanding := add pool.outstandingBytes size
  { pool with outstandingBytes := newOutstanding
              peakBytes := if newOutstanding > pool.peakBytes then newOutstanding else pool.peakBytes }

def trackRelease (size : ℕ) : MemoryPool :=
  { pool with outstandingBytes := fetchSub pool.outstandingBytes size }

def countAllocation : MemoryPool := { pool with totalAllocations := add pool.totalAllocations 1 }

def setBucket (i : Fin 4) (buffers : List Block) : MemoryPool :=
  { pool with buckets := Function.update pool.buckets i { pool.buckets i with buffers := buffers } }

def acquireFromBucket (h : Heap) (fails : Bool) (i : Fin 4) : Option (Block × MemoryPool × Heap) :=
  match (pool.buckets i).buffers with
  | b :: rest =>
    some (b,({ pool.setBucket i rest with poolHits := add pool.poolHits 1 } : MemoryPool).countAllocation,h)
  | [] => (h.new fails (pool.buckets i).size).map (fun r => (r.1,pool.countAllocation,r.2))

def acquire (h : Heap) (fails : Bool) (size : ℕ) : Except AcquireFailure (Block × MemoryPool × Heap) :=
  if ¬Valid size then .error .invalidArgument
  else if size > BufferSize.xlarge then
    match h.new fails size with
    | none => .error .badAlloc
    | some (b,h) => .ok (b,pool.countAllocation.trackAcquire size,h)
  else
    match pool.acquireFromBucket h fails (bucketIndex size) with
    | none => .error .badAlloc
    | some (b,pool,h) => .ok (b,pool.trackAcquire (pool.buckets (bucketIndex size)).size,h)

/-- A full bucket lets the buffer go. -/
def releaseToBucket (h : Heap) (i : Fin 4) (b : Block) : MemoryPool × Heap :=
  if (pool.buckets i).buffers.length < (pool.buckets i).capacity then
    (pool.setBucket i (b :: (pool.buckets i).buffers),h)
  else (pool,h.delete b)

/-- The flag tells that the size check threw; the buffer is deleted then too. -/
def release (h : Heap) (b : Block) (size : ℕ) : Bool × MemoryPool × Heap :=
  if ¬Valid size then (true,pool,h.delete b)
  else if size > BufferSize.xlarge then (false,pool.trackRelease size,h.delete b)
  else
    let i := bucketIndex size
    (false,(pool.trackRelease (pool.buckets i).size).releaseToBucket h i b)

/-- The free buffers of all buckets. -/
def stored : Multiset Block := ∑ i, ((pool.buckets i).buffers : Multiset Block)

/-- Buckets hold buffers of their own size only, and not too many. -/
structure Sound : Prop where
  sizes : ∀ i, (pool.buckets i).size = bucketSizes i
  buffers : ∀ i, ∀ b ∈ (pool.buckets i).buffers, b.size = bucketSizes i
  capacity : ∀ i, (pool.buckets i).buffers.length ≤ (pool.buckets i).capacity
  peak : pool.outstandingBytes ≤ pool.peakBytes

end Operations

section Specs
variable {pool : MemoryPool} {h : Heap} {rest : Multiset Block} {i : Fin 4}

theorem exists_stored (buckets : Fin 4 → PoolBucket) (i : Fin 4) :
    ∃ others, ∑ j, ((buckets j).buffers : Multiset Block) = (buckets i).buffers + others ∧
      ∀ bucket, ∑ j, ((Function.update buckets i bucket j).buffers : Multiset Block) =
        bucket.buffers + others := by
  refine ⟨∑ j ∈ Finset.univ.erase i, ((buckets j).buffers : Multiset Block),?_,fun bucket => ?_⟩
  · exact (Finset.add_sum_erase _ _ (Finset.mem_univ i)).symm
  · rw [← Finset.add_sum_erase _ _ (Finset.mem_univ i), Function.update_self]
    congr 1
    refine Finset.sum_congr rfl (fun j hj => ?_)
    rw [Function.update_of_ne (Finset.ne_of_mem_erase hj)]

/-- Another stack for one bucket. -/
theorem exists_setBucket (pool : MemoryPool) (i : Fin 4) :
    ∃ others, pool.stored = (pool.buckets i).buffers + others ∧
      ∀ buffers, (pool.setBucket i buffers).stored = buffers + others := by
  obtain ⟨others,hstored,hset⟩ := exists_stored pool.buckets i
  exact ⟨others,hstored,fun buffers => hset _⟩

theorem Sound.setBucket (hs : pool.Sound) {buffers : List Block}
    (hb : ∀ b ∈ buffers, b.size = bucketSizes i) (hl : buffers.length ≤ (pool.buckets i).capacity) :
    (pool.setBucket i buffers).Sound := by
  refine ⟨?_,?_,?_,hs.peak⟩
  · exact (Function.forall_update_iff pool.buckets fun j bucket => bucket.size = bucketSizes j).mpr
      ⟨hs.sizes i,fun j _ => hs.sizes j⟩
  · exact (Function.forall_update_iff pool.buckets fun j bucket => ∀ b ∈ bucket.buffers, b.size = bucketSizes j).mpr
      ⟨hb,fun j _ => hs.buffers j⟩
  · exact (Function.forall_update_iff pool.buckets fun _ bucket => bucket.buffers.length ≤ bucket.capacity).mpr
      ⟨hl,fun j _ => hs.capacity j⟩

theorem Sound.trackAcquire (hs : pool.Sound) (size : ℕ) : (pool.trackAcquire size).Sound := by
  refine ⟨hs.sizes,hs.buffers,hs.capacity,?_⟩
  unfold MemoryPool.trackAcquire
  dsimp only
  split <;> omega

theorem trackAcquire_peak (pool : MemoryPool) (size : ℕ) : pool.peakBytes ≤ (pool.trackAcquire size).peakBytes := by
  unfold MemoryPool.trackAcquire
  dsimp only
  split <;> omega

theorem Sound.trackRelease (hs : pool.Sound) {size : ℕ} (hle : size ≤ pool.outstandingBytes)
    (hlt : pool.outstandingBytes < modulus) : (pool.trackRelease size).Sound := by
  refine ⟨hs.sizes,hs.buffers,hs.capacity,?_⟩
  unfold MemoryPool.trackRelease
  dsimp only
  rw [fetchSub_eq hle hlt]
  exact (Nat.sub_le _ _).trans hs.peak

/-- A buffer was acquired: the pool parted with it or it was created. -/
structure Acquired (pool : MemoryPool) (rest : Multiset Block) (b : Block) (charged : ℕ) (pool' : MemoryPool)
    (h' : Heap) : Prop where
  size : b.size = charged
  sound : pool'.Sound
  owns : Owns h' (b ::ₘ (pool'.stored + rest))
  outstanding : pool'.outstandingBytes = add pool.outstandingBytes charged
  peak : pool.peakBytes ≤ pool'.peakBytes

theorem acquireFromBucket_spec (hs : pool.Sound) (ho : Owns h (pool.stored + rest)) {fails : Bool}
    {b : Block} {pool' : MemoryPool} {h' : Heap}
    (ha : pool.acquireFromBucket h fails i = some (b,pool',h')) :
    b.size = bucketSizes i ∧ pool'.Sound ∧ Owns h' (b ::ₘ (pool'.stored + rest)) ∧
      pool'.outstandingBytes = pool.outstandingBytes ∧ pool'.peakBytes = pool.peakBytes := by
  unfold acquireFromBucket at ha
  cases hb : (pool.buckets i).buffers with
  | nil =>
    simp only [hb, Option.map_eq_some_iff, Prod.mk.injEq] at ha
    obtain ⟨⟨b',h''⟩,hn,rfl,rfl,rfl⟩ := ha
    obtain ⟨hsize,hown⟩ := ho.new hn
    exact ⟨hsize.trans (hs.sizes i),⟨hs.sizes,hs.buffers,hs.capacity,hs.peak⟩,hown,rfl,rfl⟩
  | cons b' rest' =>
    simp only [hb, Option.some.injEq, Prod.mk.injEq] at ha
    obtain ⟨rfl,rfl,rfl⟩ := ha
    have hbuf := hs.buffers i
    have hcap := hs.capacity i
    rw [hb] at hbuf hcap
    have hset : (pool.setBucket i rest').Sound :=
      hs.setBucket (fun c hc => hbuf c (List.mem_cons_of_mem _ hc)) (by simp at hcap; omega)
    obtain ⟨others,hstored,hwith⟩ := exists_setBucket pool i
    refine ⟨hbuf _ List.mem_cons_self,⟨hset.sizes,hset.buffers,hset.capacity,hset.peak⟩,?_,rfl,rfl⟩
    change Owns h (_ ::ₘ ((pool.setBucket i rest').stored + rest))
    rw [hwith, ← Multiset.cons_add, ← Multiset.cons_add, Multiset.cons_coe, ← hb, ← hstored]
    exact ho

theorem acquire_spec (hs : pool.Sound) (ho : Owns h (pool.stored + rest)) {fails : Bool} {size : ℕ}
    {b : Block} {pool' : MemoryPool} {h' : Heap} (ha : pool.acquire h fails size = .ok (b,pool',h')) :
    Valid size ∧ Acquired pool rest b (charge size) pool' h' := by
  unfold acquire at ha
  split_ifs at ha with hv hx
  · cases hn : h.new fails size with
    | none => simp [hn] at ha
    | some r =>
      simp only [hn, Except.ok.injEq, Prod.mk.injEq] at ha
      obtain ⟨rfl,rfl,rfl⟩ := ha
      obtain ⟨hsize,hown⟩ := ho.new hn
      have hcount : pool.countAllocation.Sound := ⟨hs.sizes,hs.buffers,hs.capacity,hs.peak⟩
      have hcharge : charge size = size := if_pos hx
      refine ⟨hv,hsize.trans hcharge.symm,hcount.trackAcquire size,hown,?_,
        trackAcquire_peak pool.countAllocation size⟩
      rw [hcharge]
      rfl
  · cases hn : pool.acquireFromBucket h fails (bucketIndex size) with
    | none => simp [hn] at ha
    | some r =>
      obtain ⟨b',pool'',h''⟩ := r
      simp only [hn, Except.ok.injEq, Prod.mk.injEq] at ha
      obtain ⟨rfl,rfl,rfl⟩ := ha
      obtain ⟨hsize,hsound,hown,hout,hpeak⟩ := acquireFromBucket_spec hs ho hn
      have hcharge : charge size = bucketSizes (bucketIndex size) := if_neg hx
      rw [hsound.sizes, ← hcharge]
      refine ⟨hv,hsize.trans hcharge.symm,hsound.trackAcquire _,hown,?_,
        hpeak.symm.trans_le (trackAcquire_peak pool'' _)⟩
      rw [← hout]
      rfl

/-- What was charged is given back, and the size check passes. -/
theorem release_spec (hs : pool.Sound) {b : Block} (ho : Owns h (b ::ₘ (pool.stored + rest))) {size : ℕ}
    (hv : Valid size) (hb : b.size = charge size) (hle : charge size ≤ pool.outstandingBytes)
    (hlt : pool.outstandingBytes < modulus) :
    (pool.release h b size).1 = false ∧ (pool.release h b size).2.1.Sound ∧
      Owns (pool.release h b size).2.2 ((pool.release h b size).2.1.stored + rest) ∧
      (pool.release h b size).2.1.outstandingBytes = pool.outstandingBytes - charge size ∧
      (pool.release h b size).2.1.peakBytes = pool.peakBytes := by
  unfold release
  rw [if_neg (not_not.mpr hv)]
  by_cases hx : size > BufferSize.xlarge
  · have hcharge : charge size = size := if_pos hx
    rw [hcharge] at hle ⊢
    rw [if_pos hx]
    exact ⟨rfl,hs.trackRelease hle hlt,ho.delete,fetchSub_eq hle hlt,rfl⟩
  · have hcharge : charge size = bucketSizes (bucketIndex size) := if_neg hx
    rw [hcharge] at hle hb ⊢
    rw [if_neg hx]
    dsimp only
    rw [hs.sizes]
    generalize bucketIndex size = i at hb hle ⊢
    have ht := hs.trackRelease hle hlt
    unfold releaseToBucket
    split
    · rename_i hroom
      obtain ⟨others,hstored,hset⟩ := exists_setBucket (pool.trackRelease (bucketSizes i)) i
      refine ⟨rfl,ht.setBucket ?_ hroom,?_,fetchSub_eq hle hlt,rfl⟩
      · intro c hc
        rcases List.mem_cons.mp hc with rfl | hc
        · exact hb
        · exact ht.buffers i c hc
      · rw [hset, ← Multiset.cons_coe, Multiset.cons_add, ← hstored, Multiset.cons_add]
        exact ho
    · exact ⟨rfl,ht,ho.delete,fetchSub_eq hle hlt,rfl⟩

theorem prefillBucket_spec (fails : ℕ → Bool) (n : ℕ) {bucket : PoolBucket}
    (hb : ∀ b ∈ bucket.buffers, b.size = bucket.size) (hn : bucket.buffers.length + n ≤ bucket.capacity)
    (ho : Owns h (bucket.buffers + rest)) :
    (prefillBucket fails n bucket h).1.size = bucket.size ∧
      (prefillBucket fails n bucket h).1.capacity = bucket.capacity ∧
      (∀ b ∈ (prefillBucket fails n bucket h).1.buffers, b.size = bucket.size) ∧
      (prefillBucket fails n bucket h).1.buffers.length ≤ bucket.capacity ∧
      Owns (prefillBucket fails n bucket h).2.1 ((prefillBucket fails n bucket h).1.buffers + rest) := by
  induction n generalizing bucket h with
  | zero => exact ⟨rfl,rfl,hb,hn,ho⟩
  | succ n ih =>
    have hroom : bucket.buffers.length ≤ bucket.capacity := (Nat.le_add_right _ _).trans hn
    unfold prefillBucket
    cases hnew : h.new (fails h.next) bucket.size with
    | none => exact ⟨rfl,rfl,hb,hroom,ho⟩
    | some r =>
      obtain ⟨b,h'⟩ := r
      obtain ⟨hsize,hown⟩ := ho.new hnew
      refine ih (fun c hc => ?_) ?_ ?_
      · rcases List.mem_cons.mp hc with rfl | hc
        · exact hsize
        · exact hb c hc
      · simp only [List.length_cons]
        omega
      · rw [← Multiset.cons_coe, Multiset.cons_add]
        exact hown

/-- The buckets of a pool under construction. -/
def Filled (maxPoolSize : ℕ) (buckets : Fin 4 → PoolBucket) : Prop :=
  ∀ i, (buckets i).size = bucketSizes i ∧ (buckets i).capacity = maxPoolSize / 4 ∧
    (∀ b ∈ (buckets i).buffers, b.size = bucketSizes i) ∧ (buckets i).buffers.length ≤ maxPoolSize / 4

theorem prefill_spec (fails : ℕ → Bool) (perBucket : ℕ) {maxPoolSize : ℕ} {is : List (Fin 4)} (hnodup : is.Nodup)
    {buckets : Fin 4 → PoolBucket} (hf : Filled maxPoolSize buckets)
    (he : ∀ i ∈ is, (buckets i).buffers = []) (ho : Owns h (∑ i, ((buckets i).buffers : Multiset Block) + rest)) :
    Filled maxPoolSize (prefill fails perBucket is buckets h).1 ∧
      Owns (prefill fails perBucket is buckets h).2.1
        (∑ i, (((prefill fails perBucket is buckets h).1 i).buffers : Multiset Block) + rest) := by
  induction is generalizing buckets h with
  | nil => exact ⟨hf,ho⟩
  | cons i is ih =>
    obtain ⟨hi,hnodup⟩ := List.nodup_cons.mp hnodup
    obtain ⟨hsize,hcap,hbuf,hlen⟩ := hf i
    obtain ⟨others,hstored,hset⟩ := exists_stored buckets i
    rw [hstored, add_assoc] at ho
    have hroom : (buckets i).buffers.length + min perBucket (buckets i).capacity ≤ (buckets i).capacity := by
      rw [he i List.mem_cons_self, List.length_nil, Nat.zero_add]
      exact Nat.min_le_right _ _
    obtain ⟨h1,h2,h3,h4,h5⟩ := prefillBucket_spec fails (min perBucket (buckets i).capacity)
      (by rw [hsize]; exact hbuf) hroom ho
    unfold prefill
    dsimp only
    generalize prefillBucket fails (min perBucket (buckets i).capacity) (buckets i) h = r at h1 h2 h3 h4 h5
    have hf' : Filled maxPoolSize (Function.update buckets i r.1) :=
      (Function.forall_update_iff buckets fun j bucket => bucket.size = bucketSizes j ∧
        bucket.capacity = maxPoolSize / 4 ∧ (∀ b ∈ bucket.buffers, b.size = bucketSizes j) ∧
        bucket.buffers.length ≤ maxPoolSize / 4).mpr
      ⟨⟨h1.trans hsize,h2.trans hcap,fun b hb => (h3 b hb).trans hsize,h4.trans hcap.le⟩,fun j _ => hf j⟩
    have ho' : Owns r.2.1 (∑ j, ((Function.update buckets i r.1 j).buffers : Multiset Block) + rest) := by
      rw [hset, add_assoc]
      exact h5
    split
    · refine ih hnodup hf' (fun j hj => ?_) ho'
      rw [Function.update_of_ne (fun hji : j = i => hi (hji ▸ hj))]
      exact he j (List.mem_cons_of_mem _ hj)
    · exact ⟨hf',ho'⟩

/-- A new pool holds its prefill; nothing is left of one whose constructor threw. -/
theorem make_spec (fails : ℕ → Bool) (initialPoolSize maxPoolSize : ℕ) (ho : Owns h rest) :
    Owns (make fails initialPoolSize maxPoolSize h).2
        ((make fails initialPoolSize maxPoolSize h).1.elim 0 stored + rest) ∧
      ∀ pool, (make fails initialPoolSize maxPoolSize h).1 = some pool → pool.Sound ∧ pool.outstandingBytes = 0 := by
  have hnodup : [(0 : Fin 4),1,2,3].Nodup := by decide
  have hempty : Filled maxPoolSize (fun i => ⟨[],bucketSizes i,maxPoolSize / 4⟩) :=
    fun i => ⟨rfl,rfl,by simp,by simp⟩
  obtain ⟨hf,hown⟩ := prefill_spec fails (initialPoolSize / 4) hnodup hempty (fun _ _ => rfl) (by simpa using ho)
  unfold make
  dsimp only
  generalize prefill fails (initialPoolSize / 4) [0,1,2,3] (fun i => ⟨[],bucketSizes i,maxPoolSize / 4⟩) h = r
    at hf hown
  split_ifs
  · refine ⟨hown,fun pool hpool => ?_⟩
    obtain rfl := Option.some.inj hpool
    refine ⟨⟨fun i => (hf i).1,fun i => (hf i).2.2.1,fun i => ?_,le_rfl⟩,rfl⟩
    rw [show (_ : ℕ) = maxPoolSize / 4 from (hf i).2.1]
    exact (hf i).2.2.2
  · have hall : (([0,1,2,3].flatMap (fun i => (r.1 i).buffers) : List Block) : Multiset Block) =
        ∑ i, ((r.1 i).buffers : Multiset Block) := by
      simp [Fin.sum_univ_four, List.flatMap_cons]
    refine ⟨?_,fun pool hpool => ?_⟩
    · rw [Option.elim_none, zero_add]
      apply Owns.delete_all
      rw [hall]
      exact hown
    · cases hpool

end Specs
end MemoryPool
end Wirestead.Memory
