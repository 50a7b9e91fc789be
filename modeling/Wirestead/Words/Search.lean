import Mathlib

/-! # Leftmost occurrences in finite words

The search returns the position of the first occurrence, in the convention of an
iterator search: the end position means "not found", so that an empty pattern is
found at the front of a non-empty word and nowhere in the empty one.
-/
namespace Wirestead.Words
variable {α : Type*}

/-- The pattern stands at position `i`, and `i` is not the end position. -/
def OccursAt (p s : List α) (i : ℕ) : Prop := i < s.length ∧ p <+: s.drop i

theorem OccursAt.le_length {p s : List α} {i : ℕ} (h : OccursAt p s i) :
    i + p.length ≤ s.length := by
  have hl := h.2.length_le
  have hi := h.1
  rw [List.length_drop] at hl
  omega

theorem occursAt_of_isPrefix_drop {p s : List α} {i : ℕ} (hp : p ≠ []) (h : p <+: s.drop i) :
    OccursAt p s i := by
  refine ⟨?_,h⟩
  have hl := h.length_le
  have h0 := List.length_pos_iff.mpr hp
  rw [List.length_drop] at hl
  omega

/-- An occurrence inside a piece is an occurrence at the shifted position. -/
theorem occursAt_drop {p s : List α} {k i : ℕ} :
    OccursAt p (s.drop k) i ↔ OccursAt p s (k + i) := by
  simp only [OccursAt, List.length_drop, List.drop_drop]
  constructor
  · rintro ⟨hi,hp⟩
    exact ⟨by omega,hp⟩
  · rintro ⟨hi,hp⟩
    exact ⟨by omega,hp⟩

theorem OccursAt.append {p s : List α} {i : ℕ} (h : OccursAt p s i) (t : List α) :
    OccursAt p (s ++ t) i := by
  refine ⟨by rw [List.length_append]; have := h.1; omega,?_⟩
  rw [List.drop_append_of_le_length h.1.le]
  exact h.2.trans (List.prefix_append _ _)

/-- An occurrence that ends inside the first part lies in that part. -/
theorem OccursAt.of_append {p s t : List α} {i : ℕ} (h : OccursAt p (s ++ t) i)
    (hi : i < s.length) (hl : i + p.length ≤ s.length) : OccursAt p s i := by
  refine ⟨hi,?_⟩
  have hp := h.2
  rw [List.drop_append_of_le_length hi.le] at hp
  exact List.prefix_of_prefix_length_le hp (List.prefix_append _ _)
    (by rw [List.length_drop]; omega)

theorem occursAt_append_right {p s t : List α} {i : ℕ} :
    OccursAt p (s ++ t) (s.length + i) ↔ OccursAt p t i := by
  simp only [OccursAt, List.length_append]
  rw [List.drop_append, List.drop_of_length_le (by omega), List.nil_append,
    Nat.add_sub_cancel_left]
  constructor
  · rintro ⟨hi,hp⟩
    exact ⟨by omega,hp⟩
  · rintro ⟨hi,hp⟩
    exact ⟨by omega,hp⟩

theorem occursAt_self_append {p : List α} (hp : p ≠ []) (t : List α) : OccursAt p (p ++ t) 0 :=
  occursAt_of_isPrefix_drop hp (by simp)

/-- The bytes at an occurrence are the pattern. -/
theorem OccursAt.take_drop {p s : List α} {i : ℕ} (h : OccursAt p s i) :
    (s.drop i).take p.length = p := (List.prefix_iff_eq_take.mp h.2).symm

section Search
variable [DecidableEq α]

/-- Position of the leftmost occurrence, `none` when there is none before the end. -/
def search (p : List α) : List α → Option ℕ
  | [] => none
  | x :: xs => if p <+: x :: xs then some 0 else (search p xs).map (· + 1)

theorem search_eq_none {p s : List α} : search p s = none ↔ ∀ i, ¬OccursAt p s i := by
  induction s with
  | nil => simp [search, OccursAt]
  | cons x xs ih =>
    by_cases h : p <+: x :: xs
    · simp only [search, if_pos h, reduceCtorEq, false_iff, not_forall, not_not]
      exact ⟨0,by simp,h⟩
    · simp only [search, if_neg h, Option.map_eq_none_iff, ih]
      constructor
      · intro hn i hi
        cases i with
        | zero => exact h hi.2
        | succ i => exact hn i ⟨by simpa using hi.1,by simpa using hi.2⟩
      · intro hn i hi
        exact hn (i + 1) ⟨by simpa using hi.1,by simpa using hi.2⟩

theorem search_eq_some {p s : List α} {i : ℕ} :
    search p s = some i ↔ OccursAt p s i ∧ ∀ j < i, ¬OccursAt p s j := by
  induction s generalizing i with
  | nil => simp [search, OccursAt]
  | cons x xs ih =>
    by_cases h : p <+: x :: xs
    · simp only [search, if_pos h, Option.some.injEq]
      constructor
      · rintro rfl
        exact ⟨⟨by simp,h⟩,fun j hj => absurd hj (by omega)⟩
      · rintro ⟨_,hmin⟩
        by_contra h0
        exact hmin 0 (by omega) ⟨by simp,h⟩
    · simp only [search, if_neg h, Option.map_eq_some_iff]
      constructor
      · rintro ⟨k,hk,rfl⟩
        obtain ⟨ho,hmin⟩ := ih.mp hk
        refine ⟨⟨by simpa using ho.1,by simpa using ho.2⟩,?_⟩
        intro j hj hoj
        cases j with
        | zero => exact h hoj.2
        | succ j => exact hmin j (by omega) ⟨by simpa using hoj.1,by simpa using hoj.2⟩
      · rintro ⟨ho,hmin⟩
        cases i with
        | zero => exact absurd ho.2 h
        | succ k =>
          refine ⟨k,ih.mpr ⟨⟨by simpa using ho.1,by simpa using ho.2⟩,?_⟩,rfl⟩
          intro j hj hoj
          exact hmin (j + 1) (by omega) ⟨by simpa using hoj.1,by simpa using hoj.2⟩

theorem search_isSome_of_occursAt {p s : List α} {i : ℕ} (h : OccursAt p s i) :
    ∃ j ≤ i, search p s = some j := by
  cases hs : search p s with
  | none => exact absurd h (search_eq_none.1 hs i)
  | some j =>
    refine ⟨j,?_,rfl⟩
    by_contra hij
    exact (search_eq_some.1 hs).2 i (by omega) h

/-- A leftmost occurrence stays leftmost when the word grows at the end. -/
theorem search_append {p s : List α} {i : ℕ} (h : search p s = some i) (t : List α) :
    search p (s ++ t) = some i := by
  obtain ⟨ho,hmin⟩ := search_eq_some.1 h
  refine search_eq_some.2 ⟨ho.append t,?_⟩
  intro j hj hoj
  have hi := ho.1
  have hl := ho.le_length
  exact hmin j hj (hoj.of_append (by omega) (by omega))

theorem search_lt {p s : List α} {i : ℕ} (h : search p s = some i) : i + p.length ≤ s.length :=
  (search_eq_some.1 h).1.le_length

@[simp] theorem search_nil (p : List α) : search p [] = none := rfl

theorem search_short {p s : List α} (h : s.length < p.length) : search p s = none :=
  search_eq_none.2 (fun i hi => by have := hi.le_length; omega)

@[simp] theorem search_empty_cons (x : α) (xs : List α) : search [] (x :: xs) = some 0 := by
  simp [search]

theorem search_self_append {p : List α} (hp : p ≠ []) (t : List α) : search p (p ++ t) = some 0 :=
  search_eq_some.2 ⟨occursAt_self_append hp t,fun j hj => absurd hj (by omega)⟩

/-- Letters that are told apart are found at the same places. -/
theorem search_map {β : Type*} [DecidableEq β] {g : α → β} (hg : Function.Injective g)
    (p s : List α) : search (p.map g) (s.map g) = search p s := by
  induction s with
  | nil => rfl
  | cons x xs ih =>
    have hp : p.map g <+: (x :: xs).map g ↔ p <+: x :: xs := List.prefix_map_iff_of_injective hg
    simp only [List.map_cons] at hp
    simp only [List.map_cons, search, hp, ih]

/-- A pattern with a letter that the word has not is nowhere in it. -/
theorem search_of_notMem {p s : List α} {a : α} (hp : a ∈ p) (hs : a ∉ s) : search p s = none := by
  refine search_eq_none.2 (fun i hi => hs ?_)
  exact List.mem_of_mem_drop (hi.2.subset hp)

/-- Leftmost occurrence at or after position `i`. -/
def searchFrom (p s : List α) (i : ℕ) : Option ℕ := (search p (s.drop i)).map (· + i)

theorem searchFrom_eq_none {p s : List α} {i : ℕ} :
    searchFrom p s i = none ↔ ∀ j, i ≤ j → ¬OccursAt p s j := by
  simp only [searchFrom, Option.map_eq_none_iff, search_eq_none, occursAt_drop]
  constructor
  · intro h j hj
    have := h (j - i)
    rwa [Nat.add_sub_cancel' hj] at this
  · intro h j
    exact h (i + j) (by omega)

theorem searchFrom_eq_some {p s : List α} {i j : ℕ} :
    searchFrom p s i = some j ↔ i ≤ j ∧ OccursAt p s j ∧ ∀ k, i ≤ k → k < j → ¬OccursAt p s k := by
  simp only [searchFrom, Option.map_eq_some_iff, search_eq_some, occursAt_drop]
  constructor
  · rintro ⟨k,⟨ho,hmin⟩,rfl⟩
    refine ⟨by omega,by rwa [Nat.add_comm k i],?_⟩
    intro l hl hlk hol
    have := hmin (l - i) (by omega)
    rw [Nat.add_sub_cancel' hl] at this
    exact this hol
  · rintro ⟨hij,ho,hmin⟩
    refine ⟨j - i,⟨by rwa [Nat.add_sub_cancel' hij],?_⟩,by omega⟩
    intro k hk hok
    exact hmin (i + k) (by omega) (by omega) hok

theorem searchFrom_append {p s : List α} {i j : ℕ} (h : searchFrom p s i = some j) (t : List α) :
    searchFrom p (s ++ t) i = some j := by
  obtain ⟨hij,ho,hmin⟩ := searchFrom_eq_some.1 h
  refine searchFrom_eq_some.2 ⟨hij,ho.append t,?_⟩
  intro k hk hkj hok
  have hi := ho.1
  have hl := ho.le_length
  exact hmin k hk hkj (hok.of_append (by omega) (by omega))

/-- A search in a piece is a search from its position on. -/
theorem searchFrom_drop (p s : List α) (k i : ℕ) :
    searchFrom p s (k + i) = (searchFrom p (s.drop k) i).map (k + ·) := by
  simp only [searchFrom, List.drop_drop, Option.map_map]
  congr 1
  funext j
  simp only [Function.comp_apply]
  omega

/-- Positions known to be free of occurrences may be skipped. -/
theorem searchFrom_of_clear {p s : List α} {i k : ℕ} (hik : i ≤ k)
    (h : ∀ j, i ≤ j → j < k → ¬OccursAt p s j) : searchFrom p s k = searchFrom p s i := by
  cases hs : searchFrom p s i with
  | none =>
    refine searchFrom_eq_none.2 (fun j hj => searchFrom_eq_none.1 hs j (by omega))
  | some j =>
    obtain ⟨hij,ho,hmin⟩ := searchFrom_eq_some.1 hs
    have hkj : k ≤ j := by
      by_contra hjk
      exact h j hij (by omega) ho
    exact searchFrom_eq_some.2 ⟨hkj,ho,fun l hl hlj => hmin l (by omega) hlj⟩

@[simp] theorem searchFrom_zero (p s : List α) : searchFrom p s 0 = search p s := by
  simp [searchFrom]

end Search

/-- A word is unbordered when no proper non-empty prefix of it is also a suffix. -/
def Unbordered (d : List α) : Prop :=
  ∀ k, 0 < k → k < d.length → d.take k ≠ d.drop (d.length - k)

/-- Two occurrences of an unbordered word do not overlap. -/
theorem Unbordered.disjoint {d s : List α} (hd : Unbordered d) {i j : ℕ}
    (hi : OccursAt d s i) (hj : OccursAt d s j) (hij : i < j) : i + d.length ≤ j := by
  by_contra hlt
  have hk : (s.drop j).take (d.length - (j - i)) = d.drop (j - i) := by
    have h := congrArg (List.drop (j - i)) hi.take_drop
    rwa [List.drop_take, List.drop_drop, Nat.add_sub_cancel' hij.le] at h
  have ht : (s.drop j).take (d.length - (j - i)) = d.take (d.length - (j - i)) := by
    have h := congrArg (List.take (d.length - (j - i))) hj.take_drop
    rwa [List.take_take, Nat.min_eq_left (by omega)] at h
  refine hd (d.length - (j - i)) (by omega) (by omega) ?_
  rw [← ht,hk]
  congr 1
  omega

end Wirestead.Words
