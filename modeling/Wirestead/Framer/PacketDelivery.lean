import Wirestead.Framer.PacketReference

/-! # What the pattern framer delivers

As long as no packet and no begun packet is over the limit, the messages are the
packets of the reference parse, whatever the chunks are.
-/
namespace Wirestead.Framer.PacketFramer
open Words
variable (f : PacketFramer)

/-- No packet of the parse is over the limit, nor is the unterminated remainder from
its start pattern on. -/
def Within (w : List UInt8) : Prop :=
  (∀ m ∈ (f.parse 0 w).1, m.2.length ≤ f.maxLength) ∧
  ∀ i, search f.startPattern (f.parse 0 w).2 = some i →
    ((f.parse 0 w).2.drop i).length ≤ f.maxLength

/-- Only the residue of a rest counts against the limit. -/
theorem remainder_le_iff (w : List UInt8) :
    (∀ i, search f.startPattern w = some i → (w.drop i).length ≤ f.maxLength) ↔
    (f.startPattern <+: residue f.startPattern w →
      (residue f.startPattern w).length ≤ f.maxLength) := by
  cases hs : search f.startPattern w with
  | none =>
    simp only [residue, hs, reduceCtorEq, false_implies, implies_true, true_iff]
    intro hp
    have hl := hp.length_le
    rw [List.length_drop] at hl ⊢
    omega
  | some i =>
    have hp := (search_eq_some.mp hs).1.2
    simp only [residue, hs, Option.some.injEq, forall_eq', hp, true_implies]

/-- Parsing what the residue and the following bytes give, after what was there. -/
theorem parse_append (pos : ℕ) (s t : List UInt8) :
    let r := residue f.startPattern (f.parse pos s).2
    (f.parse pos (s ++ t)).1 =
      (f.parse pos s).1 ++ (f.parse (pos + (s.length - r.length)) (r ++ t)).1 ∧
    residue f.startPattern (f.parse pos (s ++ t)).2 =
      residue f.startPattern (f.parse (pos + (s.length - r.length)) (r ++ t)).2 := by
  intro r
  obtain ⟨h1,h2⟩ := packets_residue f.patterns_ne
    (pos + (s.length - (f.parse pos s).2.length)) (f.parse pos s).2 t
  have hs := (packets_rest f.patterns_ne pos s).2.length_le
  have hr := (residue_suffix (a := f.startPattern) (f.parse pos s).2).length_le
  have hpos : pos + (s.length - (f.parse pos s).2.length) + ((f.parse pos s).2.length - r.length) =
      pos + (s.length - r.length) := by
    change (f.parse pos s).2.length ≤ s.length at hs
    change r.length ≤ _ at hr
    omega
  have hap := packets_append f.patterns_ne pos s t
  change f.parse pos (s ++ t) = _ at hap
  change _ + (_ - r.length) = _ at hpos
  rw [hpos] at h1 h2
  rw [hap]
  exact ⟨congrArg _ h1,h2⟩

theorem parse_lengths (p q : ℕ) (w : List UInt8) :
    (f.parse p w).1.map (·.2) = (f.parse q w).1.map (·.2) := by
  have hp := (f.shift_parse p 0 w).1
  have hq := (f.shift_parse q 0 w).1
  rw [Nat.add_zero] at hp hq
  rw [← hp, ← hq, shift, shift, List.map_map, List.map_map]
  rfl

/-- The limit in terms of the residue; positions do not matter. -/
theorem within_iff (pos : ℕ) (w : List UInt8) :
    f.Within w ↔ (∀ m ∈ (f.parse pos w).1, m.2.length ≤ f.maxLength) ∧
      (f.startPattern <+: residue f.startPattern (f.parse pos w).2 →
        (residue f.startPattern (f.parse pos w).2).length ≤ f.maxLength) := by
  rw [Within, remainder_le_iff, f.parse_rest_pos 0 pos]
  have h : ∀ p, (∀ m ∈ (f.parse p w).1, m.2.length ≤ f.maxLength) ↔
      ∀ x ∈ (f.parse p w).1.map (·.2), x.length ≤ f.maxLength := by
    intro p
    simp only [List.mem_map, forall_exists_index, and_imp, forall_apply_eq_imp_iff₂]
  rw [h 0, h pos, f.parse_lengths 0 pos]

/-- A packet that has begun is within the limit when the one it becomes is. -/
theorem Within.started {f : PacketFramer} {s t : List UInt8} (h : f.Within (s ++ t))
    (hp : f.startPattern <+: residue f.startPattern (f.parse 0 s).2) :
    (residue f.startPattern (f.parse 0 s).2).length ≤ f.maxLength := by
  obtain ⟨happ,hres⟩ := f.parse_append 0 s t
  obtain ⟨hm,hrem⟩ := (f.within_iff 0 _).mp h
  have hcases := f.residue_cases (f.parse_rest 0 s)
  generalize residue f.startPattern (f.parse 0 s).2 = r at hp happ hres hcases ⊢
  obtain ⟨-,hl⟩ | ⟨⟨he,-⟩,hnone⟩ := hcases
  · have := hp.length_le
    omega
  have hp' : f.startPattern <+: r ++ t := hp.trans (List.prefix_append _ _)
  have hnext := f.nextPacket_started he hp'
  cases hj : searchFrom f.endPattern (r ++ t) f.startPattern.length with
  | none =>
    rw [hj, Option.map_none] at hnext
    rw [hres, f.parse_none hnext, f.residue_of_started hp' (f.started_ne hp')] at hrem
    have := hrem hp'
    rw [List.length_append] at this
    omega
  | some j =>
    -- the end pattern that completes the packet does not lie in `r`
    obtain ⟨hj0,ho,-⟩ := searchFrom_eq_some.mp hj
    have hl := ho.le_length
    have he0 := List.length_pos_iff.mpr he
    rw [hj, Option.map_some] at hnext
    rw [happ, f.parse_some hnext] at hm
    have hlen := hm _ (List.mem_append_right _ (List.mem_cons_self ..))
    simp only [List.drop_zero, List.length_take, Nat.min_eq_left hl] at hlen
    by_contra hgt
    exact searchFrom_eq_none.mp hnone j hj0 (ho.of_append (by omega) (by omega))

theorem Within.left {f : PacketFramer} {s t : List UInt8} (h : f.Within (s ++ t)) : f.Within s := by
  obtain ⟨happ,-⟩ := f.parse_append 0 s t
  refine (f.within_iff 0 s).mpr ⟨fun m hm => ((f.within_iff 0 _).mp h).1 m ?_,h.started⟩
  rw [happ]
  exact List.mem_append_left _ hm

theorem Within.residue {f : PacketFramer} {s t : List UInt8} (h : f.Within (s ++ t)) :
    f.Within (residue f.startPattern (f.parse 0 s).2 ++ t) := by
  obtain ⟨happ,hres⟩ := f.parse_append 0 s t
  obtain ⟨hm,hrem⟩ := (f.within_iff 0 _).mp h
  rw [hres] at hrem
  rw [happ] at hm
  exact (f.within_iff _ _).mpr ⟨fun m hmem => hm m (List.mem_append_right _ hmem),hrem⟩

theorem Within.emits {f : PacketFramer} {w : List UInt8} (h : f.Within w) (pos : ℕ) :
    f.emits (f.parse pos w).1 = (f.parse pos w).1 := by
  unfold PacketFramer.emits
  split
  · rfl
  · refine List.filter_eq_self.mpr (fun m hm => ?_)
    rw [decide_eq_true_eq]
    exact ((f.within_iff pos w).mp h).1 m hm

theorem Outcome.holds {f : PacketFramer} {s : PacketState} {pos : ℕ} {w : List UInt8}
    (h : f.Outcome s (residue f.startPattern (f.parse pos w).2)) (hw : f.Within w) :
    f.Holds s (residue f.startPattern (f.parse pos w).2) := by
  obtain ⟨hst,hl,-⟩ | ⟨-,hh⟩ := h
  · exact absurd (((f.within_iff pos w).mp hw).2 hst.2) (Nat.not_le.mpr hl)
  · exact hh

theorem residue_parse_length (pos : ℕ) (w : List UInt8) :
    (residue f.startPattern (f.parse pos w).2).length ≤ w.length :=
  ((residue_suffix _).trans (packets_rest f.patterns_ne pos w).2).length_le

theorem holds_reset : f.Holds .reset [] := by
  refine ⟨rfl,?_⟩
  by_cases ha : f.startPattern = []
  · have he := f.patterns_ne.resolve_left (not_not.mpr ha)
    refine .inr ⟨⟨he,by rw [ha]⟩,.inr ha,le_rfl,fun j _ h => absurd h.1 (by simp)⟩
  · exact .inl ⟨ha,rfl,List.length_pos_iff.mpr ha⟩

/-- Whatever a push ends in holds what it buffers. -/
theorem Outcome.held {f : PacketFramer} {s : PacketState} {r : List UInt8} (h : f.Outcome s r) :
    f.Holds s s.buffer := by
  obtain ⟨-,-,rfl⟩ | ⟨-,hh⟩ := h
  · exact f.holds_reset
  · rw [hh.1]
    exact hh

/-- A residue that is held is the residue of itself. -/
theorem Holds.parse {f : PacketFramer} {s : PacketState} {r : List UInt8} (h : f.Holds s r)
    (pos : ℕ) : f.parse pos r = ([],r) ∧ residue f.startPattern r = r := by
  obtain ⟨-,⟨-,-,hl⟩ | ⟨⟨he,hp⟩,-,-,hfree⟩⟩ := h
  · have hs := search_short hl
    refine ⟨f.parse_none (nextPacket_none_of_search hs),?_⟩
    rw [residue, hs, show r.length - (f.startPattern.length - 1) = 0 by omega]
    rfl
  · refine ⟨f.parse_none ?_,f.residue_of_started hp (f.started_ne hp)⟩
    rw [f.nextPacket_started he hp, searchFrom_eq_none.mpr hfree]
    rfl

/-- The run, from a state that holds a residue: the messages are the packets of the
residue and the chunks, and the residue of the rest is held. -/
theorem pushAll_holds (pos : ℕ) {s : PacketState} {r : List UInt8} (chunks : List (List UInt8))
    (hs : f.Holds s r) (hpos : r.length ≤ pos) (h : f.Within (r ++ chunks.flatten)) :
    (f.pushAll pos s chunks).2 = (f.parse (pos - r.length) (r ++ chunks.flatten)).1 ∧
    f.Holds (f.pushAll pos s chunks).1
      (residue f.startPattern (f.parse (pos - r.length) (r ++ chunks.flatten)).2) := by
  induction chunks generalizing pos s r with
  | nil =>
    obtain ⟨hp,hr⟩ := hs.parse (pos - r.length)
    rw [List.flatten_nil, List.append_nil, hp]
    exact ⟨rfl,by rwa [hr]⟩
  | cons c cs ih =>
    by_cases hc : c = []
    · subst hc
      exact ih pos hs hpos h
    rw [List.flatten_cons, ← List.append_assoc] at h ⊢
    obtain ⟨hmsg,hout⟩ := f.pushBytes_eq pos hs hc
    obtain ⟨happ,hres⟩ := f.parse_append (pos - r.length) (r ++ c) cs.flatten
    have hlen := f.residue_parse_length (pos - r.length) (r ++ c)
    rw [List.length_append] at hlen
    -- no begun packet is over the limit, so the outcome is not a reset
    have hheld := hout.holds h.left
    have hstep := ih (pos + c.length) hheld (by omega) (by
      rw [f.parse_rest_pos _ 0]
      exact h.residue)
    rw [List.length_append, show pos - r.length + (r.length + c.length -
      (residue f.startPattern (f.parse (pos - r.length) (r ++ c)).2).length) = pos + c.length -
      (residue f.startPattern (f.parse (pos - r.length) (r ++ c)).2).length by omega] at happ hres
    rw [pushAll, happ, hres, hmsg, h.left.emits]
    exact ⟨congrArg _ hstep.1,hstep.2⟩

/-- The messages are the packets of the reference parse of the whole stream. -/
theorem pushAll_eq_parse (chunks : List (List UInt8)) (h : f.Within chunks.flatten) :
    (f.pushAll 0 .reset chunks).2 = (f.parse 0 chunks.flatten).1 :=
  (f.pushAll_holds _ _ f.holds_reset (Nat.zero_le _) h).1

/-- Both patterns are split, and a second packet has only begun. -/
theorem pushAll_eq_parse_split :
    let f : PacketFramer := ⟨[2,2],[3,3],6,.inl (by decide)⟩
    (f.pushAll 0 .reset [[1,2],[2,7,3],[3,0,2,2],[9]]).2 = [(1,[2,2,7,3,3])] := by
  intro f
  rw [f.pushAll_eq_parse _ ⟨by decide,?_⟩]
  · decide
  · intro i hi
    rw [show search f.startPattern _ = some 1 by decide, Option.some.injEq] at hi
    subst hi
    decide

end Wirestead.Framer.PacketFramer
