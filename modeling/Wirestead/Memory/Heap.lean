import Wirestead.Sizes.Checked

/-! # Storage that is handed out and given back

A heap hands out storage blocks, each under a number of its own. `Owns` says that the
blocks in play are the ones that were handed out and not given back: a block that is in
play twice, or after it was given back, would break it.
-/
namespace Wirestead.Memory
open Sizes

section Replace
variable {α M : Type*} [AddCommMonoid M]

/-- Replacing one element replaces its part of a sum. -/
theorem exists_sum_set (f : α → M) {l : List α} {i : ℕ} {x : α} (h : l[i]? = some x) :
    ∃ r, (l.map f).sum = f x + r ∧ ∀ y, ((l.set i y).map f).sum = f y + r := by
  induction l generalizing i with
  | nil => simp at h
  | cons a l ih =>
    cases i with
    | zero =>
      obtain rfl : a = x := by simpa using h
      exact ⟨(l.map f).sum,by simp,fun y => by simp⟩
    | succ i =>
      obtain ⟨r,hr,hset⟩ := ih (by simpa using h)
      refine ⟨f a + r,?_,fun y => ?_⟩
      · rw [List.map_cons, List.sum_cons, hr]
        exact add_left_comm _ _ _
      · rw [List.set_cons_succ, List.map_cons, List.sum_cons, hset]
        exact add_left_comm _ _ _

end Replace

structure Block where
  id : ℕ
  size : ℕ
  deriving DecidableEq, Repr

/-- `used` are the bytes in use; they fit into the address space. -/
structure Heap where
  next : ℕ
  used : ℕ
  freed : List Block
  deriving DecidableEq, Repr

namespace Heap

def empty : Heap := ⟨0,0,[]⟩

/-- The allocation that answers with no block when it fails. -/
def new (h : Heap) (fails : Bool) (size : ℕ) : Option (Block × Heap) :=
  if fails ∨ modulus ≤ h.used + size then none
  else some (⟨h.next,size⟩,{ h with next := h.next + 1, used := h.used + size })

def delete (h : Heap) (b : Block) : Heap := { h with used := h.used - b.size, freed := b :: h.freed }

end Heap

/-- The blocks in play, of which each was handed out once. -/
structure Owns (h : Heap) (live : Multiset Block) : Prop where
  ids : (live + h.freed).map Block.id = Multiset.range h.next
  used : (live.map Block.size).sum = h.used
  fits : h.used < modulus

namespace Owns
variable {h h' : Heap} {live : Multiset Block} {b : Block} {fails : Bool} {size : ℕ}

theorem empty : Owns Heap.empty 0 := ⟨by simp [Heap.empty],rfl,by decide⟩

theorem new (hl : Owns h live) (hn : h.new fails size = some (b,h')) :
    b.size = size ∧ Owns h' (b ::ₘ live) := by
  unfold Heap.new at hn
  split_ifs at hn with hf
  obtain ⟨rfl,rfl⟩ := Prod.mk.inj (Option.some.inj hn)
  refine ⟨rfl,⟨?_,?_,?_⟩⟩
  · rw [Multiset.cons_add, Multiset.map_cons, hl.ids, Multiset.range_succ]
  · rw [Multiset.map_cons, Multiset.sum_cons, hl.used, Nat.add_comm]
  · dsimp only
    omega

theorem delete (hl : Owns h (b ::ₘ live)) : Owns (h.delete b) live := by
  have hu := hl.used
  have hf := hl.fits
  rw [Multiset.map_cons, Multiset.sum_cons] at hu
  refine ⟨?_,?_,?_⟩
  · rw [← show h.next = (h.delete b).next from rfl, ← hl.ids]
    congr 1
    rw [Multiset.cons_add, Heap.delete, ← Multiset.cons_coe, Multiset.add_cons]
  · unfold Heap.delete
    dsimp only
    omega
  · unfold Heap.delete
    dsimp only
    omega

theorem delete_all (bs : List Block) (hl : Owns h (bs + live)) : Owns (bs.foldl Heap.delete h) live := by
  induction bs generalizing h with
  | nil => simpa using hl
  | cons b bs ih =>
    apply ih
    rw [← Multiset.cons_coe, Multiset.cons_add] at hl
    exact hl.delete

theorem nodup (hl : Owns h live) : (live.map Block.id).Nodup := by
  have h := hl.ids ▸ Multiset.nodup_range h.next
  rw [Multiset.map_add] at h
  exact (Multiset.nodup_add.mp h).1

theorem sum_lt (hl : Owns h live) : (live.map Block.size).sum < modulus := hl.used.trans_lt hl.fits

end Owns
end Wirestead.Memory
