import Wirestead.Words.Search

/-! # The leftmost non-overlapping split of a word

`segments d s` is the list of terminated contents and the unterminated tail. The
split is incremental: cutting the word anywhere and carrying the tail over gives
the same contents. Positions are attached separately by `label`.
-/
namespace Wirestead.Words
variable {α : Type*} [DecidableEq α]

def segmentsAux (d : List α) : ℕ → List α → List (List α) × List α
  | 0, s => ([],s)
  | n + 1, s =>
    match search d s with
    | none => ([],s)
    | some i =>
      let r := segmentsAux d n (s.drop (i + d.length))
      (s.take i :: r.1,r.2)

/-- Contents ended by the delimiter, in order, and what follows the last of them. -/
def segments (d s : List α) : List (List α) × List α := segmentsAux d s.length s

theorem segmentsAux_fuel {d : List α} (hd : d ≠ []) {n m : ℕ} {s : List α}
    (hn : s.length ≤ n) (hm : s.length ≤ m) : segmentsAux d n s = segmentsAux d m s := by
  induction n generalizing m s with
  | zero =>
    have hs : s = [] := List.length_eq_zero_iff.mp (by omega)
    subst hs
    cases m <;> simp [segmentsAux]
  | succ n ih =>
    cases m with
    | zero =>
      have hs : s = [] := List.length_eq_zero_iff.mp (by omega)
      subst hs
      simp [segmentsAux]
    | succ m =>
      cases h : search d s with
      | none => simp only [segmentsAux, h]
      | some i =>
        have h0 := List.length_pos_iff.mpr hd
        have hl := search_lt h
        simp only [segmentsAux, h]
        rw [ih (m := m) (by rw [List.length_drop]; omega) (by rw [List.length_drop]; omega)]

theorem segments_none {d s : List α} (h : search d s = none) : segments d s = ([],s) := by
  unfold segments
  cases s.length with
  | zero => rfl
  | succ n => simp only [segmentsAux, h]

theorem segments_some {d s : List α} (hd : d ≠ []) {i : ℕ} (h : search d s = some i) :
    segments d s = (s.take i :: (segments d (s.drop (i + d.length))).1,
      (segments d (s.drop (i + d.length))).2) := by
  have h0 := List.length_pos_iff.mpr hd
  have hl := search_lt h
  unfold segments
  cases hs : s.length with
  | zero => omega
  | succ n =>
    simp only [segmentsAux, h]
    rw [segmentsAux_fuel hd (n := n) (m := (s.drop (i + d.length)).length)
      (by rw [List.length_drop]; omega) le_rfl]

@[simp] theorem segments_nil (d : List α) : segments d [] = ([],[]) := rfl

/-- Induction along the split: no delimiter left, or one more content in front. -/
theorem segments_induction {d : List α} (hd : d ≠ []) {motive : List α → Prop}
    (none : ∀ s, search d s = none → motive s)
    (some : ∀ s i, search d s = some i → motive (s.drop (i + d.length)) → motive s)
    (s : List α) : motive s := by
  generalize hn : s.length = n
  induction n using Nat.strong_induction_on generalizing s with
  | _ n ih =>
    cases h : search d s with
    | none => exact none s h
    | some i =>
      have h0 := List.length_pos_iff.mpr hd
      have hl := search_lt h
      exact some s i h (ih _ (by rw [List.length_drop]; omega) _ rfl)

theorem search_segments_tail {d : List α} (hd : d ≠ []) (s : List α) :
    search d (segments d s).2 = none := by
  induction s using segments_induction hd with
  | none s h => rw [segments_none h]; exact h
  | some s i h ih => rw [segments_some hd h]; exact ih

/-- Carrying the unterminated tail over to the next piece loses nothing. -/
theorem segments_append {d : List α} (hd : d ≠ []) (s t : List α) :
    segments d (s ++ t) =
      ((segments d s).1 ++ (segments d ((segments d s).2 ++ t)).1,
        (segments d ((segments d s).2 ++ t)).2) := by
  induction s using segments_induction hd with
  | none s h => rw [segments_none h]; rfl
  | some s i h ih =>
    have hl := search_lt h
    rw [segments_some hd (search_append h t), segments_some hd h,
      List.drop_append_of_le_length hl, ih, List.take_append_of_le_length (by omega)]
    rfl

/-- The contents, each with its delimiter, and the tail make up the word. -/
theorem segments_flatten {d : List α} (hd : d ≠ []) (s : List α) :
    ((segments d s).1.map (· ++ d)).flatten ++ (segments d s).2 = s := by
  induction s using segments_induction hd with
  | none s h => rw [segments_none h]; rfl
  | some s i h ih =>
    have ho := (search_eq_some.mp h).1
    rw [segments_some hd h]
    simp only [List.map_cons, List.flatten_cons, List.append_assoc, ih]
    calc s.take i ++ (d ++ s.drop (i + d.length))
        = s.take i ++ ((s.drop i).take d.length ++ (s.drop i).drop d.length) := by
          rw [ho.take_drop, List.drop_drop]
      _ = s := by rw [List.take_append_drop, List.take_append_drop]

theorem segments_tail_suffix {d : List α} (hd : d ≠ []) (s : List α) :
    (segments d s).2 <:+ s := ⟨_,segments_flatten hd s⟩

/-- Bytes spanned by contents that are each followed by a delimiter of `w` letters. -/
def spanned (w : ℕ) (cs : List (List α)) : ℕ := (cs.map (fun c => c.length + w)).sum

omit [DecidableEq α] in
@[simp] theorem spanned_nil (w : ℕ) : spanned w ([] : List (List α)) = 0 := rfl
omit [DecidableEq α] in
@[simp] theorem spanned_cons (w : ℕ) (c : List α) (cs : List (List α)) :
    spanned w (c :: cs) = c.length + w + spanned w cs := by simp [spanned]

theorem spanned_segments {d : List α} (hd : d ≠ []) (s : List α) :
    spanned d.length (segments d s).1 + (segments d s).2.length = s.length := by
  have h := congrArg List.length (segments_flatten hd s)
  rw [List.length_append, List.length_flatten, List.map_map] at h
  have hm : (segments d s).1.map (List.length ∘ (· ++ d)) =
      (segments d s).1.map (fun c => c.length + d.length) :=
    List.map_congr_left (fun c _ => by simp)
  rwa [hm] at h

/-- When something was split off, the tail is preceded by a delimiter. -/
theorem occursAt_before_tail {d : List α} (hd : d ≠ []) {s : List α}
    (h : (segments d s).1 ≠ []) :
    d.length + (segments d s).2.length ≤ s.length ∧
      OccursAt d s (s.length - (segments d s).2.length - d.length) := by
  obtain ⟨cs,c,hc⟩ := List.eq_nil_or_concat'  (segments d s).1 |>.resolve_left h
  have hf := segments_flatten hd s
  rw [hc] at hf
  simp only [List.map_append, List.map_cons, List.map_nil, List.flatten_append, List.flatten_cons,
    List.flatten_nil, List.append_nil] at hf
  generalize (cs.map (· ++ d)).flatten = u at hf
  generalize (segments d s).2 = t at hf ⊢
  subst hf
  have hu : (u ++ (c ++ d) ++ t).length - t.length - d.length = (u ++ c).length := by simp; omega
  refine ⟨by simp; omega,?_⟩
  rw [hu, show u ++ (c ++ d) ++ t = (u ++ c) ++ (d ++ t) by simp]
  exact (occursAt_append_right (i := 0)).mpr (occursAt_self_append hd t)

/-- After an unbordered delimiter the split is at a boundary, wherever the
delimiter stands in the word. -/
theorem Unbordered.boundary {d : List α} (hu : Unbordered d) (hd : d ≠ []) (s : List α) :
    (segments d (s ++ d)).2 = [] := by
  generalize hw : s ++ d = w
  have hwl : w.length = s.length + d.length := by rw [← hw]; simp
  have hend : OccursAt d w s.length := by
    rw [← hw]
    simpa using (occursAt_append_right (s := s) (i := 0)).mpr (occursAt_self_append hd [])
  by_contra ht
  have h0 := List.length_pos_iff.mpr ht
  have hnone := search_segments_tail hd w
  obtain ⟨u,hsuf⟩ := segments_tail_suffix hd w
  have hul := congrArg List.length hsuf
  rw [List.length_append] at hul
  by_cases hlong : d.length ≤ (segments d w).2.length
  · -- the delimiter would stand inside the tail
    rw [← hsuf, show s.length = u.length + (s.length - u.length) by omega] at hend
    exact search_eq_none.mp hnone _ (occursAt_append_right.mp hend)
  · -- otherwise the last split-off delimiter overlaps the one at the end
    have hne : (segments d w).1 ≠ [] := by
      intro hnil
      have := spanned_segments hd w
      rw [hnil, spanned_nil] at this
      omega
    obtain ⟨hle,ho⟩ := occursAt_before_tail hd hne
    have := hu.disjoint ho hend (by omega)
    omega

/-- Contents with the position of their first letter. -/
def label (w : ℕ) : ℕ → List (List α) → List (ℕ × List α)
  | _, [] => []
  | p, c :: cs => (p,c) :: label w (p + c.length + w) cs

omit [DecidableEq α] in
theorem label_append (w p : ℕ) (as bs : List (List α)) :
    label w p (as ++ bs) = label w p as ++ label w (p + spanned w as) bs := by
  induction as generalizing p with
  | nil => simp [label]
  | cons a as ih =>
    simp only [List.cons_append, label, ih, spanned_cons]
    congr 3
    omega

omit [DecidableEq α] in
@[simp] theorem map_snd_label (w p : ℕ) (cs : List (List α)) :
    (label w p cs).map Prod.snd = cs := by
  induction cs generalizing p with
  | nil => rfl
  | cons c cs ih => simp [label, ih]

omit [DecidableEq α] in
/-- Positions grow by at least one delimiter from one content to the next. -/
theorem le_of_mem_label {w p : ℕ} {cs : List (List α)} {x : ℕ × List α}
    (h : x ∈ label w p cs) : p ≤ x.1 := by
  induction cs generalizing p with
  | nil => simp [label] at h
  | cons c cs ih =>
    rcases List.mem_cons.mp h with rfl | h
    · exact le_rfl
    · have := ih h
      omega

end Wirestead.Words
