import Wirestead.Transport.TcpClient.Strand

/-! # Gather writes

Queued buffers are moved into a batch, and views on their storage go into one write. A
handle moves between the containers, its storage stays where it is: a view made from a
batch reads the payloads whatever became of the places in the containers.
-/
namespace Wirestead.Transport.GatherWrites
open Sizes
open TcpClient (kMaxGatherBuffers kMaxGatherBytes)

/-- Bytes by their addresses. -/
abbrev Memory := ℕ → UInt8

/-- Storage that a handle names. No object is larger than half of the address space. -/
structure Storage where
  data : ℕ
  size : ℕ
  size_lt : size < 2 ^ 63

def Storage.bytes (m : Memory) (b : Storage) : List UInt8 := (List.range b.size).map (fun i => m (b.data + i))

inductive BufferVariant
  | pooled (b : Storage)
  | vector (b : Storage)
  | shared (b : Option Storage)

/-- A `const_buffer`. -/
structure View where
  data : ℕ
  size : ℕ
  deriving DecidableEq, Repr

def View.read (m : Memory) (v : View) : List UInt8 := (List.range v.size).map (fun i => m (v.data + i))

def variantBufferSize : BufferVariant → ℕ
  | .pooled b => b.size
  | .vector b => b.size
  | .shared (some b) => b.size
  | .shared none => 0

def variantConstBuffer : BufferVariant → View
  | .pooled b => ⟨b.data,b.size⟩
  | .vector b => ⟨b.data,b.size⟩
  | .shared (some b) => ⟨b.data,b.size⟩
  | .shared none => ⟨0,0⟩

/-- What the buffer holds. -/
def BufferVariant.payload (m : Memory) : BufferVariant → List UInt8
  | .pooled b => b.bytes m
  | .vector b => b.bytes m
  | .shared b => b.elim [] (Storage.bytes m)

theorem variantBufferSize_lt (b : BufferVariant) : variantBufferSize b < 2 ^ 63 := by
  cases b with
  | pooled b => exact b.size_lt
  | vector b => exact b.size_lt
  | shared b =>
    cases b with
    | none => exact Nat.two_pow_pos 63
    | some b => exact b.size_lt

@[simp] theorem read_variantConstBuffer (m : Memory) (b : BufferVariant) :
    (variantConstBuffer b).read m = b.payload m := by
  cases b with
  | pooled b => rfl
  | vector b => rfl
  | shared b => cases b <;> rfl

section Batches
variable {α : Type*} (project : α → BufferVariant)

def itemSize (item : α) : ℕ := variantBufferSize (project item)

def bytesOf (items : List α) : ℕ := (items.map (itemSize project)).sum

/-- The queue, the batch and the byte count when the loop ends. -/
def takeLoop : List α → List α → ℕ → List α × List α × ℕ
  | [], batch, total => ([],batch,total)
  | item :: tx, batch, total =>
    if batch.length < kMaxGatherBuffers ∧ total < kMaxGatherBytes then
      takeLoop tx (batch ++ [item]) (add total (itemSize project item))
    else (item :: tx,batch,total)

structure Taken (α : Type*) where
  tx : List α
  batch : List α
  views : List View
  total : ℕ

/-- Batch and views are cleared first. -/
def takeGatherBatch (tx : List α) : Taken α :=
  let r := takeLoop project tx [] 0
  ⟨r.1,r.2.1,r.2.1.map (fun item => variantConstBuffer (project item)),r.2.2⟩

/-- The queue and the batch. -/
def returnGatherBatch (tx batch : List α) : List α × List α :=
  (batch.reverse.foldl (fun tx item => item :: tx) tx,[])

omit project in
theorem returnGatherBatch_eq (tx batch : List α) : returnGatherBatch tx batch = (batch ++ tx,[]) := by
  unfold returnGatherBatch
  rw [List.foldl_reverse]
  simp

theorem takeLoop_append (tx batch : List α) (total : ℕ) :
    (takeLoop project tx batch total).2.1 ++ (takeLoop project tx batch total).1 = batch ++ tx := by
  induction tx generalizing batch total with
  | nil => rfl
  | cons item tx ih =>
    unfold takeLoop
    split
    · rw [ih, List.append_assoc, List.singleton_append]
    · rfl

theorem takeLoop_length (tx : List α) {batch : List α} (hb : batch.length ≤ kMaxGatherBuffers) (total : ℕ) :
    (takeLoop project tx batch total).2.1.length ≤ kMaxGatherBuffers := by
  induction tx generalizing batch total with
  | nil => exact hb
  | cons item tx ih =>
    unfold takeLoop
    split
    · rename_i hroom
      apply ih
      simpa using hroom.1
    · exact hb

/-- What has been taken stays taken. -/
theorem takeLoop_prefix (tx batch : List α) (total : ℕ) : batch <+: (takeLoop project tx batch total).2.1 := by
  induction tx generalizing batch total with
  | nil => exact List.prefix_refl batch
  | cons item tx ih =>
    unfold takeLoop
    split
    · exact (List.prefix_append batch [item]).trans (ih _ _)
    · exact List.prefix_refl batch

/-- The count does not wrap: it was below the cap before the last buffer. -/
theorem takeLoop_total (tx : List α) {batch : List α} {total : ℕ} (ht : total = bytesOf project batch) :
    (takeLoop project tx batch total).2.2 = bytesOf project (takeLoop project tx batch total).2.1 := by
  induction tx generalizing batch total with
  | nil => exact ht
  | cons item tx ih =>
    unfold takeLoop
    split
    · rename_i hroom
      apply ih
      have hsize : itemSize project item < 2 ^ 63 := variantBufferSize_lt _
      have hcap : total < kMaxGatherBytes := hroom.2
      rw [add_eq (by unfold kMaxGatherBytes at hcap; unfold modulus; omega), ht]
      simp [bytesOf]
    · exact ht

/-- The loop stops before a buffer at one of the caps. -/
theorem takeLoop_stop (tx batch : List α) (total : ℕ) (hrest : (takeLoop project tx batch total).1 ≠ []) :
    kMaxGatherBuffers ≤ (takeLoop project tx batch total).2.1.length ∨
      kMaxGatherBytes ≤ (takeLoop project tx batch total).2.2 := by
  induction tx generalizing batch total with
  | nil => exact absurd rfl hrest
  | cons item tx ih =>
    unfold takeLoop at hrest ⊢
    split
    · rename_i hroom
      rw [if_pos hroom] at hrest
      exact ih _ _ hrest
    · rename_i hfull
      rw [not_and_or, not_lt, not_lt] at hfull
      exact hfull

theorem takeGatherBatch_ne_nil {tx : List α} (h : tx ≠ []) : (takeGatherBatch project tx).batch ≠ [] := by
  cases tx with
  | nil => exact absurd rfl h
  | cons item tx =>
    have hfirst : [item] <+: (takeGatherBatch project (item :: tx)).batch := takeLoop_prefix project tx [item] _
    exact fun hnil => absurd (hnil ▸ hfirst) (by simp)

/-- The batch is the front of the queue up to the caps, and giving it back undoes the taking. -/
theorem takeGatherBatch_returns (m : Memory) (tx added : List α) :
    (takeGatherBatch project tx).batch ++ (takeGatherBatch project tx).tx = tx ∧
    (tx ≠ [] → (takeGatherBatch project tx).batch ≠ []) ∧
    (takeGatherBatch project tx).batch.length ≤ 16 ∧
    (takeGatherBatch project tx).total =
      ((takeGatherBatch project tx).batch.map (fun item => variantBufferSize (project item))).sum ∧
    ((takeGatherBatch project tx).tx ≠ [] → (takeGatherBatch project tx).batch.length = 16 ∨
      256 * 1024 ≤ ((takeGatherBatch project tx).batch.map (fun item => variantBufferSize (project item))).sum) ∧
    (takeGatherBatch project tx).views.map (View.read m) =
      (takeGatherBatch project tx).batch.map (fun item => (project item).payload m) ∧
    returnGatherBatch ((takeGatherBatch project tx).tx ++ added) (takeGatherBatch project tx).batch =
      (tx ++ added,[]) := by
  have happend : (takeGatherBatch project tx).batch ++ (takeGatherBatch project tx).tx = tx :=
    takeLoop_append project tx [] 0
  have hlength : (takeGatherBatch project tx).batch.length ≤ kMaxGatherBuffers :=
    takeLoop_length project tx (Nat.zero_le _) 0
  have htotal : (takeGatherBatch project tx).total = bytesOf project (takeGatherBatch project tx).batch :=
    takeLoop_total project tx rfl
  refine ⟨happend,takeGatherBatch_ne_nil project,hlength,htotal,fun hrest => ?_,?_,?_⟩
  · rcases takeLoop_stop project tx [] 0 hrest with hfull | hfull
    · exact Or.inl (le_antisymm hlength hfull)
    · exact Or.inr (hfull.trans htotal.le)
  · simp [takeGatherBatch, Function.comp_def]
  · rw [returnGatherBatch_eq, ← List.append_assoc, happend]

end Batches

/-- The batches of the client are these, whatever variants its buffers are. -/
theorem tcpClient_takeGatherBatch {tx : List TcpClient.TrackedBuffer}
    {project : TcpClient.TrackedBuffer → BufferVariant}
    (hsize : ∀ item ∈ tx, itemSize project item = item.size) :
    TcpClient.takeGatherBatch tx =
      ((takeGatherBatch project tx).batch,(takeGatherBatch project tx).tx,(takeGatherBatch project tx).total) := by
  have hloop : ∀ (batch : List TcpClient.TrackedBuffer) (total : ℕ),
      takeLoop project tx batch total =
        ((TcpClient.takeGatherLoop tx batch.length total).2.1,
          batch ++ (TcpClient.takeGatherLoop tx batch.length total).1,
          (TcpClient.takeGatherLoop tx batch.length total).2.2) := by
    induction tx with
    | nil => simp [takeLoop, TcpClient.takeGatherLoop]
    | cons item tx ih =>
      intro batch total
      unfold takeLoop TcpClient.takeGatherLoop
      split
      · rename_i hroom
        have hlt : itemSize project item < 2 ^ 63 := variantBufferSize_lt _
        have hcap : total < kMaxGatherBytes := hroom.2
        rw [add_eq (by unfold kMaxGatherBytes at hcap; unfold modulus; omega), hsize item List.mem_cons_self,
          ih (fun item' h => hsize item' (List.mem_cons_of_mem _ h))]
        simp
      · simp
  have h := hloop [] 0
  unfold TcpClient.takeGatherBatch takeGatherBatch
  simp only [h, List.length_nil, List.nil_append]

end Wirestead.Transport.GatherWrites
