import Wirestead.Words.Segments

/-! # Fields of a text

Text is a word of bytes. Here the delimiter is one letter, so that fields cannot overlap
it, and numbers are written in decimal.
-/
namespace Wirestead.Words

section Delimited
variable {α : Type*} [DecidableEq α] {d : α} {s t : List α}

omit [DecidableEq α] in
theorem occursAt_singleton_iff {i : ℕ} : OccursAt [d] s i ↔ s[i]? = some d := by
  constructor
  · intro h
    obtain ⟨t,ht⟩ := h.2
    have hd : (s.drop i)[0]? = some d := by rw [← ht]; rfl
    simpa using hd
  · intro h
    obtain ⟨hi,hd⟩ := List.getElem?_eq_some_iff.mp h
    refine ⟨hi,s.drop (i + 1),?_⟩
    rw [List.singleton_append, ← hd]
    exact (List.drop_eq_getElem_cons hi).symm

theorem search_singleton_eq_none_iff : search [d] s = none ↔ d ∉ s := by
  rw [search_eq_none, List.mem_iff_getElem?, not_exists]
  exact forall_congr' (fun i => not_congr occursAt_singleton_iff)

theorem search_singleton_append (h : d ∉ s) (t : List α) : search [d] (s ++ d :: t) = some s.length := by
  refine search_eq_some.mpr ⟨occursAt_singleton_iff.mpr (by simp),fun j hj ho => h ?_⟩
  rw [occursAt_singleton_iff, List.getElem?_append_left hj] at ho
  exact List.mem_of_getElem? ho

theorem search_singleton_eq_some {i : ℕ} (h : search [d] s = some i) :
    d ∉ s.take i ∧ s = s.take i ++ d :: s.drop (i + 1) := by
  obtain ⟨ho,hmin⟩ := search_eq_some.mp h
  obtain ⟨hi,hd⟩ := List.getElem?_eq_some_iff.mp (occursAt_singleton_iff.mp ho)
  refine ⟨fun hmem => ?_,?_⟩
  · obtain ⟨j,hj⟩ := List.mem_iff_getElem?.mp hmem
    obtain ⟨hlt,-⟩ := List.getElem?_eq_some_iff.mp hj
    rw [List.length_take] at hlt
    rw [List.getElem?_take_of_lt (by omega)] at hj
    exact hmin j (by omega) (occursAt_singleton_iff.mpr hj)
  · conv_lhs => rw [← List.take_append_drop i s, List.drop_eq_getElem_cons hi, hd]

theorem segments_singleton_append (h : d ∉ s) (t : List α) :
    segments [d] (s ++ d :: t) = (s :: (segments [d] t).1,(segments [d] t).2) := by
  rw [segments_some (List.cons_ne_nil d []) (search_singleton_append h t)]
  simp [← List.drop_drop]

theorem notMem_of_mem_segments (h : t ∈ (segments [d] s).1) : d ∉ t := by
  induction s using segments_induction (List.cons_ne_nil d []) with
  | none s hs =>
    rw [segments_none hs] at h
    cases h
  | some s i hs ih =>
    rw [segments_some (List.cons_ne_nil d []) hs] at h
    rcases List.mem_cons.mp h with rfl | h
    · exact (search_singleton_eq_some hs).1
    · exact ih h

theorem notMem_segments_tail (d : α) (s : List α) : d ∉ (segments [d] s).2 :=
  search_singleton_eq_none_iff.mp (search_segments_tail (List.cons_ne_nil d []) s)

/-- Contents and tail are the fields that the library's split gives. -/
theorem segments_eq_splitOn (d : α) (s : List α) :
    (segments [d] s).1 ++ [(segments [d] s).2] = s.splitOn d := by
  induction s using segments_induction (List.cons_ne_nil d []) with
  | none s h =>
    rw [segments_none h, List.nil_append, List.splitOn_eq_singleton (search_singleton_eq_none_iff.mp h)]
  | some s i h ih =>
    obtain ⟨hfront,hs⟩ := search_singleton_eq_some h
    rw [segments_some (List.cons_ne_nil d []) h, List.cons_append, ih]
    conv_rhs => rw [hs]
    rw [List.splitOn_append_cons_self_of_not_mem hfront]
    rfl

end Delimited

/-- The bytes of an ASCII text. -/
def ascii (s : String) : List UInt8 := s.toList.map (fun c => UInt8.ofNat c.toNat)

def isDigit (c : UInt8) : Bool := 48 ≤ c && c ≤ 57

/-- A number in decimal. -/
def decimal (n : ℕ) : List UInt8 := (Nat.toDigits 10 n).map (fun c => UInt8.ofNat c.toNat)

/-- The number that a word of digits denotes. -/
def numeral (s : List UInt8) : ℕ := s.foldl (fun n c => 10 * n + (c.toNat - 48)) 0

theorem decimal_ne_nil (n : ℕ) : decimal n ≠ [] := by
  simp [decimal, Nat.toDigits_ne_nil]

theorem mem_toDigits_range {n : ℕ} {c : Char} (h : c ∈ Nat.toDigits 10 n) : 48 ≤ c.toNat ∧ c.toNat ≤ 57 := by
  have hd := Nat.isDigit_of_mem_toDigits (by decide) le_rfl h
  rw [Char.isDigit, Bool.and_eq_true, decide_eq_true_iff, decide_eq_true_iff] at hd
  exact ⟨UInt32.le_iff_toNat_le.mp hd.1,UInt32.le_iff_toNat_le.mp hd.2⟩

theorem isDigit_of_mem_decimal {n : ℕ} {c : UInt8} (h : c ∈ decimal n) : isDigit c := by
  obtain ⟨x,hx,rfl⟩ := List.mem_map.mp h
  obtain ⟨hlo,hhi⟩ := mem_toDigits_range hx
  have hval : (UInt8.ofNat x.toNat).toNat = x.toNat := by
    rw [UInt8.toNat_ofNat']
    exact Nat.mod_eq_of_lt (by omega)
  have h48 : (48 : UInt8) ≤ UInt8.ofNat x.toNat := UInt8.le_iff_toNat_le.mpr (hlo.trans hval.ge)
  have h57 : UInt8.ofNat x.toNat ≤ 57 := UInt8.le_iff_toNat_le.mpr (hval.le.trans hhi)
  rw [isDigit, decide_eq_true h48, decide_eq_true h57, Bool.and_self]

theorem numeral_decimal (n : ℕ) : numeral (decimal n) = n := by
  have hdigits : ∀ (cs : List Char) (m : ℕ), (∀ c ∈ cs, 48 ≤ c.toNat ∧ c.toNat ≤ 57) →
      (cs.map (fun c => UInt8.ofNat c.toNat)).foldl (fun n c => 10 * n + (c.toNat - 48)) m =
        Nat.ofDigitChars 10 cs m := by
    intro cs
    induction cs with
    | nil => exact fun m _ => rfl
    | cons c cs ih =>
      intro m hc
      have hval : (UInt8.ofNat c.toNat).toNat = c.toNat := by
        rw [UInt8.toNat_ofNat']
        exact Nat.mod_eq_of_lt (by have := (hc c List.mem_cons_self).2; omega)
      rw [List.map_cons, List.foldl_cons, hval, ih _ (fun x hx => hc x (List.mem_cons_of_mem _ hx)),
        Nat.ofDigitChars_cons]
      rfl
  exact (hdigits _ 0 (fun c hc => mem_toDigits_range hc)).trans Nat.ofDigitChars_ten_toDigits

end Wirestead.Words
