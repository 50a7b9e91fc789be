import Wirestead.Words.Segments

/-! # Replacing tokens one after another and all at once

A token begins with a letter that does not come again in it, so that no two occurrences
of tokens overlap. `substitute` replaces the tokens of a table at once. A pass for one
more token agrees with it exactly when the replaced texts bring no further occurrence of
that token about.
-/
namespace Wirestead.Words
variable {α : Type*}

/-- The letter stands at the front and nowhere else. -/
def Marked (o : α) (p : List α) : Prop := ∃ t, p = o :: t ∧ o ∉ t

theorem marked_iff {o : α} {p : List α} : Marked o p ↔ p.head? = some o ∧ o ∉ p.tail := by
  constructor
  · rintro ⟨t,rfl,ht⟩
    exact ⟨rfl,ht⟩
  · rintro ⟨hhead,htail⟩
    obtain ⟨t,rfl⟩ := List.head?_eq_some_iff.mp hhead
    exact ⟨t,rfl,htail⟩

theorem Marked.ne_nil {o : α} {p : List α} (h : Marked o p) : p ≠ [] := by
  obtain ⟨t,rfl,-⟩ := h
  exact List.cons_ne_nil o t

theorem Marked.unbordered {o : α} {p : List α} (h : Marked o p) : Unbordered p := by
  obtain ⟨t,rfl,ht⟩ := h
  intro k h0 hk hborder
  -- The end of the token has no mark.
  have hmem : o ∈ (o :: t).take k := by
    obtain ⟨k,rfl⟩ := Nat.exists_eq_succ_of_ne_zero h0.ne'
    exact List.mem_cons_self
  rw [hborder] at hmem
  obtain ⟨j,hj⟩ := Nat.exists_eq_succ_of_ne_zero (Nat.sub_pos_of_lt hk).ne'
  rw [hj, List.drop_succ_cons] at hmem
  exact ht (List.mem_of_mem_drop hmem)

/-- A marked word is a prefix as far as the next mark. -/
theorem Marked.prefix_append_iff {o c : α} {p a b : List α} (h : Marked o p) :
    p <+: c :: a ++ o :: b ↔ p <+: c :: a := by
  refine ⟨fun hp => ?_,fun hp => hp.trans (List.prefix_append _ _)⟩
  obtain ⟨t,rfl,ht⟩ := h
  refine List.prefix_of_prefix_length_le hp (List.prefix_append _ _) ?_
  by_contra hlong
  have hmark : (o :: t)[a.length + 1]? = some o := by
    obtain ⟨u,hu⟩ := hp
    have hlt : a.length + 1 < (o :: t).length := by simpa using hlong
    have hfront : ((o :: t) ++ u)[a.length + 1]? = (o :: t)[a.length + 1]? := List.getElem?_append_left hlt
    rw [← hfront, hu]
    simp
  exact ht (List.mem_of_getElem? (by simpa using hmark))

variable [DecidableEq α]

/-- The number of occurrences that do not overlap. -/
def occurrences (p s : List α) : ℕ := (segments p s).1.length

/-- Every occurrence is replaced. -/
def replaced (p v s : List α) : List α := ((segments p s).1.map (· ++ v)).flatten ++ (segments p s).2

/-- The first counter is the number of letters of a token still to be passed over. -/
def substituteFrom (table : List (List α × List α)) : ℕ → List α → List α
  | _, [] => []
  | k + 1, _ :: s => substituteFrom table k s
  | 0, c :: s =>
    match table.find? (fun e => e.1 <+: c :: s) with
    | some e => e.2 ++ substituteFrom table (e.1.length - 1) s
    | none => c :: substituteFrom table 0 s

/-- All tokens of the table are replaced at once. -/
def substitute (table : List (List α × List α)) (s : List α) : List α := substituteFrom table 0 s

section Counting
variable {p s : List α}

theorem occurrences_eq_zero (hp : p ≠ []) : occurrences p s = 0 ↔ search p s = none := by
  unfold occurrences
  cases h : search p s with
  | none => simp [segments_none h]
  | some i => simp [segments_some hp h]

theorem replaced_of_none (h : search p s = none) (v : List α) : replaced p v s = s := by
  simp [replaced, segments_none h]

/-- The split at one occurrence of an unbordered word. -/
theorem Unbordered.segments_append (hu : Unbordered p) (hp : p ≠ []) (a b : List α) :
    segments p (a ++ p ++ b) = ((segments p a).1 ++ (segments p a).2 :: (segments p b).1,(segments p b).2) := by
  have htail : segments p ((segments p a).2 ++ p) = ([(segments p a).2],[]) := by
    have hnone := search_segments_tail hp a
    generalize (segments p a).2 = x at hnone
    have hfound : search p (x ++ p) = some x.length := by
      refine search_eq_some.mpr ⟨by simpa using occursAt_append_right.mpr (occursAt_self_append hp []),?_⟩
      intro j hj ho
      have hend : OccursAt p (x ++ p) x.length := by
        simpa using occursAt_append_right.mpr (occursAt_self_append hp [])
      exact search_eq_none.mp hnone j (ho.of_append hj (hu.disjoint ho hend hj))
    rw [segments_some hp hfound]
    simp
  rw [Words.segments_append hp (a ++ p), Words.segments_append hp a p, htail]
  simp

theorem occurrences_append (hu : Unbordered p) (hp : p ≠ []) (a b : List α) :
    occurrences p (a ++ p ++ b) = occurrences p a + 1 + occurrences p b := by
  simp only [occurrences, hu.segments_append hp, List.length_append, List.length_cons]
  omega

theorem replaced_append (hu : Unbordered p) (hp : p ≠ []) (v a b : List α) :
    replaced p v (a ++ p ++ b) = replaced p v a ++ v ++ replaced p v b := by
  unfold replaced
  rw [hu.segments_append hp]
  simp

end Counting

section Tables
variable {o : α} {table : List (List α × List α)} {p v : List α}

@[simp] theorem substituteFrom_nil (k : ℕ) : substituteFrom table k [] = [] := by
  cases k <;> rfl

theorem substituteFrom_none {c : α} {s : List α} (h : table.find? (fun e => e.1 <+: c :: s) = none) :
    substituteFrom table 0 (c :: s) = c :: substituteFrom table 0 s := by
  simp only [substituteFrom, h]

theorem substituteFrom_some {c : α} {s : List α} {e : List α × List α}
    (h : table.find? (fun e => e.1 <+: c :: s) = some e) :
    substituteFrom table 0 (c :: s) = e.2 ++ substituteFrom table (e.1.length - 1) s := by
  simp only [substituteFrom, h]

@[simp] theorem substitute_nil_table (s : List α) : substitute [] s = s := by
  induction s with
  | nil => rfl
  | cons c s ih => exact congrArg (c :: ·) ih

/-- Tokens end before the next mark. -/
theorem substituteFrom_append (ht : ∀ e ∈ table, Marked o e.1) (a b : List α) {k : ℕ} (hk : k ≤ a.length) :
    substituteFrom table k (a ++ o :: b) = substituteFrom table k a ++ substituteFrom table 0 (o :: b) := by
  induction a generalizing k with
  | nil =>
    obtain rfl := Nat.le_zero.mp hk
    simp
  | cons c a ih =>
    cases k with
    | succ k => exact ih (Nat.le_of_succ_le_succ hk)
    | zero =>
      have hfind : table.find? (fun e => e.1 <+: c :: (a ++ o :: b)) = table.find? (fun e => e.1 <+: c :: a) := by
        apply List.find?_congr
        intro e he
        exact decide_eq_decide.mpr (ht e he).prefix_append_iff
      rw [List.cons_append]
      cases h : table.find? (fun e => e.1 <+: c :: a) with
      | none => rw [substituteFrom_none (hfind.trans h), substituteFrom_none h, ih (Nat.zero_le _), List.cons_append]
      | some e =>
        have hprefix : e.1 <+: c :: a := by simpa using List.find?_some h
        have hlen := hprefix.length_le
        rw [List.length_cons] at hlen
        rw [substituteFrom_some (hfind.trans h), substituteFrom_some h, ih (by omega), List.append_assoc]

theorem substituteFrom_skip (t b : List α) : substituteFrom table t.length (t ++ b) = substituteFrom table 0 b := by
  induction t with
  | nil => rfl
  | cons c t ih => exact ih

/-- Letters that begin no token stay. -/
theorem substituteFrom_plain (ht : ∀ e ∈ table, Marked o e.1) {t : List α} (hplain : o ∉ t) (b : List α) :
    substituteFrom table 0 (t ++ b) = t ++ substituteFrom table 0 b := by
  induction t with
  | nil => rfl
  | cons c t ih =>
    have hne : c ≠ o := fun h => hplain (h ▸ List.mem_cons_self)
    have hfind : table.find? (fun e => e.1 <+: c :: (t ++ b)) = none := by
      apply List.find?_eq_none.mpr
      intro e he hprefix
      obtain ⟨u,hu,-⟩ := ht e he
      rw [hu] at hprefix
      exact hne (List.cons_prefix_cons.mp (of_decide_eq_true hprefix)).1.symm
    rw [List.cons_append, substituteFrom_none hfind, ih (fun h => hplain (List.mem_cons_of_mem c h)), List.cons_append]

/-- Only a token that shares a prefix with the front of a word is found there. -/
theorem find_none (hne : ∀ e ∈ table, ¬e.1 <+: p ∧ ¬p <+: e.1) (b : List α) :
    table.find? (fun e => e.1 <+: p ++ b) = none := by
  apply List.find?_eq_none.mpr
  intro e he hprefix
  rcases List.prefix_or_prefix_of_prefix (of_decide_eq_true hprefix) (List.prefix_append p b) with h | h
  · exact (hne e he).1 h
  · exact (hne e he).2 h

/-- A token that the table does not have stays. -/
theorem substitute_other (ht : ∀ e ∈ table, Marked o e.1) (hp : Marked o p)
    (hne : ∀ e ∈ table, ¬e.1 <+: p ∧ ¬p <+: e.1) (b : List α) :
    substitute table (p ++ b) = p ++ substitute table b := by
  obtain ⟨t,rfl,hplain⟩ := hp
  have hfind : table.find? (fun e => e.1 <+: o :: (t ++ b)) = none := find_none hne b
  exact (substituteFrom_none hfind).trans (congrArg (o :: ·) (substituteFrom_plain ht hplain b))

theorem substitute_token (hp : Marked o p) (hne : ∀ e ∈ table, ¬e.1 <+: p ∧ ¬p <+: e.1) (b : List α) :
    substitute (table ++ [(p,v)]) (p ++ b) = v ++ substitute (table ++ [(p,v)]) b := by
  obtain ⟨t,rfl,-⟩ := hp
  have hfind : (table ++ [(o :: t,v)]).find? (fun e => e.1 <+: o :: (t ++ b)) = some (o :: t,v) := by
    have hnone : table.find? (fun e => e.1 <+: o :: (t ++ b)) = none := find_none hne b
    rw [List.find?_append, hnone]
    simp
  exact (substituteFrom_some hfind).trans (congrArg (v ++ ·) (substituteFrom_skip t b))

/-- A token that does not occur may be in the table or not. -/
theorem substituteFrom_of_none (k : ℕ) {a : List α} (ha : search p a = none) :
    substituteFrom (table ++ [(p,v)]) k a = substituteFrom table k a := by
  induction a generalizing k with
  | nil => simp
  | cons c a ih =>
    unfold search at ha
    split_ifs at ha with hc
    have hrest : search p a = none := by simpa using ha
    cases k with
    | succ k => exact ih k hrest
    | zero =>
      have hfind : (table ++ [(p,v)]).find? (fun e => e.1 <+: c :: a) = table.find? (fun e => e.1 <+: c :: a) := by
        rw [List.find?_append]
        simp [hc]
      cases h : table.find? (fun e => e.1 <+: c :: a) with
      | none => rw [substituteFrom_none (hfind.trans h), substituteFrom_none h, ih 0 hrest]
      | some e => rw [substituteFrom_some (hfind.trans h), substituteFrom_some h, ih _ hrest]

/-- One more pass: the occurrences of the word are still there, and when there are no
others the pass goes on with the substitution. -/
theorem occurrences_substitute (ht : ∀ e ∈ table, Marked o e.1) (hp : Marked o p)
    (hne : ∀ e ∈ table, ¬e.1 <+: p ∧ ¬p <+: e.1) (s : List α) :
    occurrences p s ≤ occurrences p (substitute table s) ∧
      (occurrences p (substitute table s) = occurrences p s →
        replaced p v (substitute table s) = substitute (table ++ [(p,v)]) s) := by
  induction s using segments_induction hp.ne_nil with
  | none s h =>
    have hzero : occurrences p s = 0 := (occurrences_eq_zero hp.ne_nil).mpr h
    refine ⟨by omega,fun heq => ?_⟩
    rw [hzero, occurrences_eq_zero hp.ne_nil] at heq
    rw [replaced_of_none heq]
    exact (substituteFrom_of_none 0 h).symm
  | some s i h ih =>
    obtain ⟨hocc,hmin⟩ := search_eq_some.mp h
    obtain ⟨hle,heq⟩ := ih
    have hlt := hocc.le_length
    have hs : s = s.take i ++ p ++ s.drop (i + p.length) := by
      conv_lhs => rw [← List.take_append_drop i s, ← List.take_append_drop p.length (s.drop i), hocc.take_drop,
        List.drop_drop]
      rw [List.append_assoc]
    have hfront : search p (s.take i) = none := by
      refine search_eq_none.mpr (fun j hj => ?_)
      have hji := hj.1
      rw [List.length_take] at hji
      have hfull := hj.append (s.drop i)
      rw [List.take_append_drop] at hfull
      exact hmin j (by omega) hfull
    generalize s.take i = a at hs hfront
    generalize s.drop (i + p.length) = b at hs hle heq
    subst hs
    have hsplit : ∀ tb : List (List α × List α), (∀ e ∈ tb, Marked o e.1) →
        substitute tb (a ++ p ++ b) = substitute tb a ++ substitute tb (p ++ b) := by
      intro tb htb
      obtain ⟨t,rfl,-⟩ := hp
      rw [List.append_assoc, List.cons_append]
      exact substituteFrom_append htb a (t ++ b) (Nat.zero_le _)
    have htable : ∀ e ∈ table ++ [(p,v)], Marked o e.1 := by
      intro e he
      rcases List.mem_append.mp he with he | he
      · exact ht e he
      · rw [List.mem_singleton.mp he]
        exact hp
    have hzero : occurrences p a = 0 := (occurrences_eq_zero hp.ne_nil).mpr hfront
    rw [hsplit table ht, substitute_other ht hp hne, ← List.append_assoc,
      occurrences_append hp.unbordered hp.ne_nil, occurrences_append hp.unbordered hp.ne_nil, hzero]
    refine ⟨by omega,fun hsum => ?_⟩
    have hnone : search p (substitute table a) = none := (occurrences_eq_zero hp.ne_nil).mp (by omega)
    rw [replaced_append hp.unbordered hp.ne_nil, replaced_of_none hnone, heq (by omega), hsplit _ htable,
      substitute_token hp hne, List.append_assoc]
    exact congrArg (· ++ _) (substituteFrom_of_none 0 hfront).symm

end Tables
end Wirestead.Words
