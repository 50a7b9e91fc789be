import Wirestead.Words.Search

/-! # Pieces between a start pattern and an end pattern

The parse repeatedly takes the leftmost start pattern and then the leftmost end
pattern after it; with an empty end pattern the piece is the start pattern alone.
`residue` is the part of the unparsed rest that later letters can still complete:
the piece that has begun, or the last letters that a start pattern may begin with.
-/
namespace Wirestead.Words
variable {α : Type*} [DecidableEq α]

section Parse
variable (a e : List α)

/-- Position and length of the first whole piece. -/
def nextPacket (s : List α) : Option (ℕ × ℕ) :=
  match search a s with
  | none => none
  | some i =>
    if e = [] then some (i,a.length)
    else (searchFrom e s (i + a.length)).map (fun j => (i,j + e.length - i))

def packetsAux : ℕ → ℕ → List α → List (ℕ × List α) × List α
  | 0, _, s => ([],s)
  | fuel + 1, pos, s =>
    match nextPacket a e s with
    | none => ([],s)
    | some (i,n) =>
      let r := packetsAux fuel (pos + (i + n)) (s.drop (i + n))
      ((pos + i,(s.drop i).take n) :: r.1,r.2)

/-- All whole pieces with their positions, counted from `pos`, and the rest. -/
def packets (pos : ℕ) (s : List α) : List (ℕ × List α) × List α := packetsAux a e s.length pos s

/-- What of an unparsed rest can still matter. -/
def residue (s : List α) : List α :=
  match search a s with
  | none => s.drop (s.length - (a.length - 1))
  | some i => s.drop i

end Parse

variable {a e : List α}

theorem nextPacket_none_of_search {s : List α} (h : search a s = none) : nextPacket a e s = none := by
  rw [nextPacket, h]

/-- A piece lies inside the word and begins at the leftmost start pattern; it is not
empty because the patterns are not both empty. -/
theorem nextPacket_spec (hne : a ≠ [] ∨ e ≠ []) {s : List α} {i n : ℕ}
    (h : nextPacket a e s = some (i,n)) :
    search a s = some i ∧ i + n ≤ s.length ∧ 0 < n ∧ a.length ≤ n := by
  unfold nextPacket at h
  cases hs : search a s with
  | none => simp [hs] at h
  | some k =>
    have hk := search_lt hs
    simp only [hs] at h
    split_ifs at h with he
    · cases h
      have ha := List.length_pos_iff.mpr (hne.resolve_right (not_not.mpr he))
      exact ⟨rfl,by omega,ha,le_rfl⟩
    · obtain ⟨j,hj,hp⟩ := Option.map_eq_some_iff.mp h
      cases hp
      obtain ⟨hkj,ho,-⟩ := searchFrom_eq_some.mp hj
      have hl := ho.le_length
      have h0 := List.length_pos_iff.mpr he
      exact ⟨rfl,by omega,by omega,by omega⟩

theorem nextPacket_append {s : List α} {p : ℕ × ℕ} (h : nextPacket a e s = some p) (t : List α) :
    nextPacket a e (s ++ t) = some p := by
  unfold nextPacket at h ⊢
  cases hs : search a s with
  | none => simp [hs] at h
  | some i =>
    simp only [hs, search_append hs t] at h ⊢
    split_ifs at h ⊢ with he
    · exact h
    · obtain ⟨j,hj,rfl⟩ := Option.map_eq_some_iff.mp h
      rw [searchFrom_append hj t]
      rfl

/-- Letters before the first start pattern do not matter. -/
theorem nextPacket_drop {s : List α} {k : ℕ} (h : ∀ j < k, ¬OccursAt a s j) :
    nextPacket a e s = (nextPacket a e (s.drop k)).map (fun p => (k + p.1,p.2)) := by
  have hs : search a s = (search a (s.drop k)).map (k + ·) := by
    have h1 := searchFrom_of_clear (p := a) (s := s) (Nat.zero_le k) (fun j _ hj => h j hj)
    have h2 := searchFrom_drop a s k 0
    rw [Nat.add_zero, h1, searchFrom_zero, searchFrom_zero] at h2
    exact h2
  unfold nextPacket
  rw [hs]
  cases search a (s.drop k) with
  | none => rfl
  | some i =>
    simp only [Option.map_some]
    split_ifs with he
    · rfl
    · rw [Nat.add_assoc, searchFrom_drop, Option.map_map, Option.map_map]
      congr 1
      funext j
      simp only [Function.comp_apply, Prod.mk.injEq, true_and]
      omega

theorem packetsAux_fuel (hne : a ≠ [] ∨ e ≠ []) {n m pos : ℕ} {s : List α}
    (hn : s.length ≤ n) (hm : s.length ≤ m) : packetsAux a e n pos s = packetsAux a e m pos s := by
  induction n generalizing m pos s with
  | zero =>
    have hs : s = [] := List.length_eq_zero_iff.mp (by omega)
    subst hs
    cases m <;> simp [packetsAux, nextPacket]
  | succ n ih =>
    cases m with
    | zero =>
      have hs : s = [] := List.length_eq_zero_iff.mp (by omega)
      subst hs
      simp [packetsAux, nextPacket]
    | succ m =>
      cases h : nextPacket a e s with
      | none => simp only [packetsAux, h]
      | some p =>
        obtain ⟨-,hl,h0,-⟩ := nextPacket_spec hne h
        simp only [packetsAux, h]
        rw [ih (m := m) (by rw [List.length_drop]; omega) (by rw [List.length_drop]; omega)]

theorem packets_none {pos : ℕ} {s : List α} (h : nextPacket a e s = none) :
    packets a e pos s = ([],s) := by
  unfold packets
  cases s.length with
  | zero => rfl
  | succ n => simp only [packetsAux, h]

theorem packets_some (hne : a ≠ [] ∨ e ≠ []) {pos i n : ℕ} {s : List α}
    (h : nextPacket a e s = some (i,n)) :
    packets a e pos s = ((pos + i,(s.drop i).take n) ::
      (packets a e (pos + (i + n)) (s.drop (i + n))).1,
      (packets a e (pos + (i + n)) (s.drop (i + n))).2) := by
  obtain ⟨-,hl,h0,-⟩ := nextPacket_spec hne h
  unfold packets
  cases hs : s.length with
  | zero => omega
  | succ m =>
    simp only [packetsAux, h]
    rw [packetsAux_fuel hne (n := m) (m := (s.drop (i + n)).length)
      (by rw [List.length_drop]; omega) le_rfl]

/-- Induction along the pieces of a word. -/
theorem packets_induction (hne : a ≠ [] ∨ e ≠ []) {motive : List α → Prop}
    (none : ∀ s, nextPacket a e s = none → motive s)
    (some : ∀ s i n, nextPacket a e s = some (i,n) → motive (s.drop (i + n)) → motive s)
    (s : List α) : motive s := by
  generalize hn : s.length = m
  induction m using Nat.strong_induction_on generalizing s with
  | _ m ih =>
    cases h : nextPacket a e s with
    | none => exact none s h
    | some p =>
      obtain ⟨-,hl,h0,-⟩ := nextPacket_spec hne h
      exact some s p.1 p.2 h (ih _ (by rw [List.length_drop]; omega) _ rfl)

/-- The rest holds no whole piece and is a suffix of the word. -/
theorem packets_rest (hne : a ≠ [] ∨ e ≠ []) (pos : ℕ) (s : List α) :
    nextPacket a e (packets a e pos s).2 = none ∧ (packets a e pos s).2 <:+ s := by
  induction s using packets_induction hne generalizing pos with
  | none s h =>
    rw [packets_none h]
    exact ⟨h,List.suffix_rfl⟩
  | some s i n h ih =>
    rw [packets_some hne h]
    exact ⟨(ih _).1,(ih _).2.trans (List.drop_suffix _ _)⟩

theorem packets_rest_pos (hne : a ≠ [] ∨ e ≠ []) (p q : ℕ) (s : List α) :
    (packets a e p s).2 = (packets a e q s).2 := by
  induction s using packets_induction hne generalizing p q with
  | none s h => rw [packets_none h, packets_none h]
  | some s i n h ih =>
    rw [packets_some hne h, packets_some hne h]
    exact ih _ _

/-- Carrying the rest over to the next part loses nothing. -/
theorem packets_append (hne : a ≠ [] ∨ e ≠ []) (pos : ℕ) (s t : List α) :
    packets a e pos (s ++ t) =
      ((packets a e pos s).1 ++ (packets a e (pos + (s.length - (packets a e pos s).2.length))
          ((packets a e pos s).2 ++ t)).1,
        (packets a e (pos + (s.length - (packets a e pos s).2.length))
          ((packets a e pos s).2 ++ t)).2) := by
  induction s using packets_induction hne generalizing pos with
  | none s h =>
    rw [packets_none h, Nat.sub_self]
    rfl
  | some s i n h ih =>
    obtain ⟨-,hl,-,-⟩ := nextPacket_spec hne h
    have hr := ((packets_rest hne (pos + (i + n)) (s.drop (i + n))).2).length_le
    rw [List.length_drop] at hr
    rw [packets_some hne (nextPacket_append h t), packets_some hne h,
      List.drop_append_of_le_length hl, ih, List.drop_append_of_le_length (by omega),
      List.take_append_of_le_length (by rw [List.length_drop]; omega), List.length_drop]
    dsimp only
    rw [show pos + (i + n) + (s.length - (i + n) -
        (packets a e (pos + (i + n)) (s.drop (i + n))).2.length) =
      pos + (s.length - (packets a e (pos + (i + n)) (s.drop (i + n))).2.length) by omega]
    rfl

theorem residue_suffix (s : List α) : residue a s <:+ s := by
  unfold residue
  split <;> exact List.drop_suffix _ _

theorem residue_eq_drop (s : List α) : residue a s = s.drop (s.length - (residue a s).length) :=
  List.suffix_iff_eq_drop.mp (residue_suffix s)

/-- No start pattern begins before the residue, also not one that is completed later. -/
theorem not_occursAt_before_residue {s t : List α} {j : ℕ}
    (hj : j < s.length - (residue a s).length) : ¬OccursAt a (s ++ t) j := by
  intro ho
  unfold residue at hj
  cases hs : search a s with
  | none =>
    simp only [hs, List.length_drop] at hj
    exact search_eq_none.mp hs j (ho.of_append (by omega) (by omega))
  | some i =>
    have hl := search_lt hs
    simp only [hs, List.length_drop] at hj
    exact (search_eq_some.mp hs).2 j (by omega) (ho.of_append (by omega) (by omega))

/-- A residue too short for a partial start pattern is the whole word. -/
theorem residue_short {s : List α} (h : (residue a s).length < a.length - 1) : residue a s = s := by
  unfold residue at h ⊢
  cases hs : search a s with
  | none =>
    simp only [hs, List.length_drop] at h ⊢
    rw [show s.length - (a.length - 1) = 0 by omega, List.drop_zero]
  | some i =>
    have hl := search_lt hs
    simp only [hs, List.length_drop] at h
    omega

theorem search_residue_append (s t : List α) :
    search a (s ++ t) =
      (search a (residue a s ++ t)).map (s.length - (residue a s).length + ·) := by
  have hdrop : (s ++ t).drop (s.length - (residue a s).length) = residue a s ++ t := by
    rw [List.drop_append_of_le_length (Nat.sub_le _ _), ← residue_eq_drop]
  have h1 := searchFrom_of_clear (p := a) (s := s ++ t)
    (Nat.zero_le (s.length - (residue a s).length))
    (fun j _ hj => not_occursAt_before_residue hj)
  have h2 := searchFrom_drop a (s ++ t) (s.length - (residue a s).length) 0
  rwa [Nat.add_zero, h1, searchFrom_zero, searchFrom_zero, hdrop] at h2

/-- Taking residues before or after the word grows makes no difference. -/
theorem residue_append (s t : List α) : residue a (s ++ t) = residue a (residue a s ++ t) := by
  by_cases hshort : (residue a s).length < a.length - 1
  · rw [residue_short hshort]
  have hr := (residue_suffix (a := a) s).length_le
  have hsearch := search_residue_append (a := a) s t
  have hdrop : ∀ j, (s ++ t).drop (s.length - (residue a s).length + j) =
      (residue a s ++ t).drop j := by
    intro j
    rw [← List.drop_drop, List.drop_append_of_le_length (Nat.sub_le _ _), ← residue_eq_drop]
  generalize residue a s = r at hshort hr hsearch hdrop ⊢
  unfold residue
  rw [hsearch]
  cases search a (r ++ t) with
  | none =>
    simp only [Option.map_none]
    rw [← hdrop]
    congr 1
    simp only [List.length_append]
    omega
  | some i =>
    simp only [Option.map_some]
    exact hdrop i

/-- Only the residue of the rest decides what later letters complete. -/
theorem packets_residue (hne : a ≠ [] ∨ e ≠ []) (pos : ℕ) (s t : List α) :
    (packets a e pos (s ++ t)).1 =
      (packets a e (pos + (s.length - (residue a s).length)) (residue a s ++ t)).1 ∧
    residue a (packets a e pos (s ++ t)).2 =
      residue a (packets a e (pos + (s.length - (residue a s).length)) (residue a s ++ t)).2 := by
  have happ := residue_append (a := a) s t
  have hclear : ∀ j < s.length - (residue a s).length, ¬OccursAt a (s ++ t) j :=
    fun j hj => not_occursAt_before_residue hj
  have hdrop : ∀ j, (s ++ t).drop (s.length - (residue a s).length + j) =
      (residue a s ++ t).drop j := by
    intro j
    rw [← List.drop_drop, List.drop_append_of_le_length (Nat.sub_le _ _), ← residue_eq_drop]
  have hnext := nextPacket_drop (e := e) hclear
  rw [← Nat.add_zero (s.length - (residue a s).length), hdrop, List.drop_zero, Nat.add_zero] at hnext
  cases h : nextPacket a e (residue a s ++ t) with
  | none =>
    rw [h, Option.map_none] at hnext
    rw [packets_none h, packets_none hnext]
    exact ⟨rfl,happ⟩
  | some p =>
    obtain ⟨i,n⟩ := p
    rw [h, Option.map_some] at hnext
    rw [packets_some hne h, packets_some hne hnext]
    simp only [Nat.add_assoc, hdrop, and_self]

/-- A whole piece: it ends with the first end pattern after its start pattern. -/
structure Piece (a e p : List α) : Prop where
  begins : a <+: p
  ends : e <:+ p
  first : ∀ k, a.length ≤ k → OccursAt e p k → k + e.length = p.length

theorem nextPacket_piece (he : e ≠ []) {s : List α} {i n : ℕ} (h : nextPacket a e s = some (i,n)) :
    Piece a e ((s.drop i).take n) := by
  obtain ⟨hs,hin,-,han⟩ := nextPacket_spec (.inr he) h
  obtain ⟨j,hj,hn⟩ : ∃ j, searchFrom e s (i + a.length) = some j ∧ n = j + e.length - i := by
    simp only [nextPacket, hs, if_neg he, Option.map_eq_some_iff, Prod.mk.injEq] at h
    obtain ⟨j,hj,-,hn⟩ := h
    exact ⟨j,hj,hn.symm⟩
  obtain ⟨hij,ho,hmin⟩ := searchFrom_eq_some.mp hj
  have hlen : ((s.drop i).take n).length = n := by
    rw [List.length_take, List.length_drop]
    omega
  refine ⟨?_,?_,fun k hk hok => ?_⟩
  · exact List.prefix_of_prefix_length_le (search_eq_some.mp hs).1.2 (List.take_prefix _ _) (by omega)
  · have hdrop : ((s.drop i).take n).drop (j - i) = e := by
      rw [List.drop_take, List.drop_drop, show n - (j - i) = e.length by omega,
        show i + (j - i) = j by omega]
      exact ho.take_drop
    rw [← hdrop]
    exact List.drop_suffix _ _
  · -- an occurrence in the piece is one in the word, so it is not before `j`
    have hkl := hok.le_length
    rw [hlen] at hkl ⊢
    have hos : OccursAt e s (i + k) := by
      rw [← occursAt_drop]
      rw [← List.take_append_drop n (s.drop i)]
      exact hok.append _
    have hjk : j ≤ i + k := by
      by_contra hlt
      exact hmin (i + k) (by omega) (by omega) hos
    omega

/-- The pieces lie one after the other in the word, before its rest. -/
theorem packets_pieces (he : e ≠ []) (pos : ℕ) (s : List α) :
    (∀ m ∈ (packets a e pos s).1, pos ≤ m.1 ∧
      m.1 + m.2.length ≤ pos + (s.length - (packets a e pos s).2.length) ∧
      m.2 = (s.drop (m.1 - pos)).take m.2.length ∧ Piece a e m.2) ∧
    (packets a e pos s).1.Pairwise (fun m k => m.1 + m.2.length ≤ k.1) := by
  induction s using packets_induction (a := a) (.inr he) generalizing pos with
  | none s h =>
    rw [packets_none h]
    exact ⟨fun m hm => absurd hm List.not_mem_nil,List.Pairwise.nil⟩
  | some s i n h ih =>
    obtain ⟨-,hin,-,-⟩ := nextPacket_spec (.inr he) h
    have hrest := (packets_rest (a := a) (.inr he) (pos + (i + n)) (s.drop (i + n))).2.length_le
    obtain ⟨hmem,hpair⟩ := ih (pos + (i + n))
    rw [List.length_drop] at hrest
    have hlen : ((s.drop i).take n).length = n := by
      rw [List.length_take, List.length_drop]
      omega
    rw [packets_some (.inr he) h]
    refine ⟨fun m hm => ?_,List.pairwise_cons.mpr ⟨fun m hm => ?_,hpair⟩⟩
    · obtain rfl | hm := List.mem_cons.mp hm
      · dsimp only
        rw [hlen]
        refine ⟨by omega,by omega,?_,nextPacket_piece he h⟩
        rw [Nat.add_sub_cancel_left]
      · obtain ⟨h1,h2,h3,h4⟩ := hmem m hm
        rw [List.length_drop] at h2
        refine ⟨by omega,by dsimp only; omega,?_,h4⟩
        rw [List.drop_drop, show i + n + (m.1 - (pos + (i + n))) = m.1 - pos by omega] at h3
        exact h3
    · dsimp only
      rw [hlen]
      have := (hmem m hm).1
      omega

end Wirestead.Words
