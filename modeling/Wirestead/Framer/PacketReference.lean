import Wirestead.Framer.Packet

/-! # The pattern framer against the reference parse

Both paths of a push compute the parse of the buffered bytes and the new ones. What
they keep is the residue of the unparsed rest, unless a packet that has begun is
already over the limit.
-/
namespace Wirestead.Framer.PacketFramer
open Words
variable (f : PacketFramer)

/-- The packets of a stretch of bytes and the rest after them. -/
def parse (pos : ℕ) (s : List UInt8) : List Message × List UInt8 :=
  packets f.startPattern f.endPattern pos s

/-- Packets over the limit are dropped; the limit is not applied to packets that
consist of the start pattern alone. -/
def emits (out : List Message) : List Message :=
  if f.endPattern = [] then out else out.filter (fun m => m.2.length ≤ f.maxLength)

/-- The bytes are the beginning of a packet. -/
def Started (r : List UInt8) : Prop := f.endPattern ≠ [] ∧ f.startPattern <+: r

/-- The state holds the residue `r`: either possible first bytes of a start pattern, or
a packet that has begun and whose end is not in the buffer. -/
def Holds (s : PacketState) (r : List UInt8) : Prop :=
  s.buffer = r ∧
  ((f.startPattern ≠ [] ∧ s.mode = .sync ∧ r.length < f.startPattern.length) ∨
    (f.Started r ∧ (s.mode = .collect ∨ f.startPattern = []) ∧ s.scannedIdx ≤ r.length ∧
      ∀ j, f.startPattern.length ≤ j → ¬OccursAt f.endPattern r j))

/-- The state a push ends in, given the residue of everything it saw. -/
def Outcome (s : PacketState) (r : List UInt8) : Prop :=
  (f.Started r ∧ f.maxLength < r.length ∧ s = .reset) ∨
    (¬(f.Started r ∧ f.maxLength < r.length) ∧ f.Holds s r)

theorem keepLen_eq : f.keepLen = f.startPattern.length - 1 := by
  unfold keepLen
  split <;> omega

theorem emits_nil : f.emits [] = [] := by
  unfold emits
  split <;> rfl

theorem emits_cons_empty (h : f.endPattern = []) (m : Message) (out : List Message) :
    f.emits (m :: out) = m :: f.emits out := by
  rw [emits, if_pos h, emits, if_pos h]

theorem emits_cons (h : f.endPattern ≠ []) (m : Message) (out : List Message) :
    f.emits (m :: out) = if m.2.length ≤ f.maxLength then m :: f.emits out else f.emits out := by
  simp only [emits, if_neg h, List.filter_cons, decide_eq_true_eq]

theorem shift_emits (pos : ℕ) (out : List Message) :
    shift pos (f.emits out) = f.emits (shift pos out) := by
  unfold emits shift
  split
  · rfl
  · rw [List.filter_map]
    rfl

/-- Positions are relative to where the stretch begins. -/
theorem shift_parse (pos k : ℕ) (s : List UInt8) :
    shift pos (f.parse k s).1 = (f.parse (pos + k) s).1 ∧ (f.parse k s).2 = (f.parse (pos + k) s).2 := by
  unfold parse
  refine ⟨?_,packets_rest_pos f.patterns_ne _ _ s⟩
  induction s using packets_induction f.patterns_ne generalizing k with
  | none s h =>
    rw [packets_none h, packets_none h]
    rfl
  | some s i n h ih =>
    rw [packets_some f.patterns_ne h, packets_some f.patterns_ne h]
    have e := ih (k + (i + n))
    simp only [shift, List.map_cons, Nat.add_assoc] at e ⊢
    rw [e]

/-- A piece that begins with the start pattern is its own residue. -/
theorem residue_of_started {r : List UInt8} (h : f.startPattern <+: r)
    (hne : r = [] → f.startPattern = []) : residue f.startPattern r = r := by
  cases r with
  | nil => simp [residue, hne rfl]
  | cons x xs =>
    have hs : search f.startPattern (x :: xs) = some 0 :=
      search_eq_some.mpr ⟨⟨by simp,h⟩,fun j hj => absurd hj (by omega)⟩
    rw [residue, hs]
    rfl

theorem started_ne {r : List UInt8} (h : f.startPattern <+: r) : r = [] → f.startPattern = [] := by
  rintro rfl
  exact List.prefix_nil.mp h

theorem search_started {r : List UInt8} (h : f.startPattern <+: r) (hr : r ≠ []) :
    search f.startPattern r = some 0 :=
  search_eq_some.mpr ⟨⟨List.length_pos_iff.mpr hr,by simpa using h⟩,fun j hj => absurd hj (by omega)⟩

/-- The resumed search starts after the start pattern and skips nothing that was not
scanned with room for a whole end pattern. -/
theorem searchOffset_spec (scannedIdx : ℕ) :
    f.startPattern.length ≤ f.searchOffset scannedIdx ∧
    f.searchOffset scannedIdx ≤ max f.startPattern.length scannedIdx ∧
    ∀ j, f.startPattern.length ≤ j → j < f.searchOffset scannedIdx →
      j + f.endPattern.length ≤ scannedIdx := by
  unfold searchOffset
  dsimp only
  refine ⟨by split_ifs <;> omega,by split_ifs <;> omega,fun j hj => ?_⟩
  split_ifs <;> omega

/-- What the Sync/Collect loop may be entered with. -/
def Ready (s : PacketState) : Prop :=
  (s.mode = .sync ∧ f.startPattern ≠ []) ∨
  (f.startPattern <+: s.buffer ∧ f.searchOffset s.scannedIdx ≤ s.buffer.length ∧
    ∀ j, f.startPattern.length ≤ j → j < f.searchOffset s.scannedIdx →
      ¬OccursAt f.endPattern s.buffer j)

def turns (s : PacketState) : ℕ :=
  match s.mode with
  | .sync => 2 * s.buffer.length + 2
  | .collect => 2 * s.buffer.length + 1

/-- A state that holds a residue is ready when bytes are appended to it. -/
theorem Holds.ready {f : PacketFramer} {s : PacketState} {r : List UInt8} (h : f.Holds s r)
    (data : List UInt8) : f.Ready { s with buffer := r ++ data } := by
  obtain ⟨rfl,⟨ha,hm,-⟩ | ⟨⟨he,hp⟩,hm,hi,hfree⟩⟩ := h
  · exact .inl ⟨hm,ha⟩
  · obtain ⟨h1,h2,h3⟩ := f.searchOffset_spec s.scannedIdx
    have hpl := hp.length_le
    refine .inr ⟨hp.trans (List.prefix_append _ _),?_,?_⟩
    · dsimp only
      rw [List.length_append]
      omega
    · intro j hj hjo ho
      have hl := h3 j hj hjo
      have h0 := List.length_pos_iff.mpr he
      exact hfree j hj (ho.of_append (by omega) (by omega))

/-- No start pattern: the possible beginnings of one are kept. -/
theorem outcome_sync {w : List UInt8} (ha : f.startPattern ≠ [])
    (hs : search f.startPattern w = none) {s : PacketState} (hm : s.mode = .sync)
    (hb : s.buffer = w.drop (w.length - (f.startPattern.length - 1))) :
    f.Outcome s (residue f.startPattern (f.parse 0 w).2) := by
  have h0 := List.length_pos_iff.mpr ha
  rw [parse, packets_none (nextPacket_none_of_search hs), residue, hs]
  dsimp only
  rw [← hb]
  have hl : s.buffer.length < f.startPattern.length := by
    rw [hb, List.length_drop]
    omega
  refine .inr ⟨?_,rfl,.inl ⟨ha,hm,hl⟩⟩
  rintro ⟨⟨-,hp⟩,-⟩
  have := hp.length_le
  omega

theorem parse_none {pos : ℕ} {w : List UInt8}
    (h : nextPacket f.startPattern f.endPattern w = none) : f.parse pos w = ([],w) :=
  packets_none h

theorem parse_some {pos i n : ℕ} {w : List UInt8}
    (h : nextPacket f.startPattern f.endPattern w = some (i,n)) :
    f.parse pos w = ((pos + i,(w.drop i).take n) :: (f.parse (pos + (i + n)) (w.drop (i + n))).1,
      (f.parse (pos + (i + n)) (w.drop (i + n))).2) :=
  packets_some f.patterns_ne h

theorem parse_rest_pos (p q : ℕ) (w : List UInt8) : (f.parse p w).2 = (f.parse q w).2 :=
  packets_rest_pos f.patterns_ne p q w

theorem parse_rest (pos : ℕ) (w : List UInt8) :
    nextPacket f.startPattern f.endPattern (f.parse pos w).2 = none :=
  (packets_rest f.patterns_ne pos w).1

/-- With the start pattern in front only the end pattern has to be found. -/
theorem nextPacket_started {w : List UInt8} (he : f.endPattern ≠ []) (hp : f.startPattern <+: w) :
    nextPacket f.startPattern f.endPattern w =
      (searchFrom f.endPattern w f.startPattern.length).map (fun j => (0,j + f.endPattern.length)) := by
  by_cases hw : w = []
  · subst hw
    simp [nextPacket, searchFrom]
  · simp [nextPacket, search_started f hp hw, he]

/-- Bytes before the leftmost start pattern do not matter. -/
theorem parse_skip {pos i : ℕ} {w : List UInt8} (h : search f.startPattern w = some i) :
    (f.parse pos w).1 = (f.parse (pos + i) (w.drop i)).1 ∧
    residue f.startPattern (f.parse pos w).2 =
      residue f.startPattern (f.parse (pos + i) (w.drop i)).2 := by
  have hl := search_lt h
  have hr : residue f.startPattern w = w.drop i := by rw [residue, h]
  have hp := packets_residue f.patterns_ne pos w []
  rw [List.append_nil, hr, List.append_nil, List.length_drop,
    show w.length - (w.length - i) = i by omega] at hp
  exact hp

/-- A packet that has begun and whose end is not there. -/
theorem outcome_collect {w : List UInt8} {s : PacketState} (he : f.endPattern ≠ [])
    (hp : f.startPattern <+: w) (hn : searchFrom f.endPattern w f.startPattern.length = none)
    (hs : f.maxLength < w.length → s = .reset)
    (hs' : ¬f.maxLength < w.length → s.buffer = w ∧ s.mode = .collect ∧ s.scannedIdx ≤ w.length) :
    f.Outcome s w := by
  by_cases hl : f.maxLength < w.length
  · exact .inl ⟨⟨he,hp⟩,hl,hs hl⟩
  · obtain ⟨hb,hm,hi⟩ := hs' hl
    refine .inr ⟨fun h => hl h.2,hb,.inr ⟨⟨he,hp⟩,.inl hm,hi,?_⟩⟩
    exact searchFrom_eq_none.mp hn

theorem ready_sync {s : PacketState} (hm : s.mode = .sync) (hi : f.startPattern = [] → s.scannedIdx = 0) :
    f.Ready s := by
  by_cases ha : f.startPattern = []
  · have ho : f.searchOffset s.scannedIdx = 0 := by simp [searchOffset, ha, hi ha]
    rw [Ready, ho, ha]
    exact .inr ⟨⟨s.buffer,rfl⟩,Nat.zero_le _,fun j _ hj => absurd hj (by omega)⟩
  · exact .inl ⟨hm,ha⟩

theorem collectLoop_sync {fuel pos : ℕ} {s : PacketState} (hm : s.mode = .sync)
    (ha : f.startPattern ≠ []) (hs : search f.startPattern s.buffer = none) :
    f.collectLoop (fuel + 1) pos s =
      ({ s with buffer := s.buffer.drop (s.buffer.length - (f.startPattern.length - 1)) },[]) := by
  have h0 := List.length_pos_iff.mpr ha
  obtain ⟨m,b,i⟩ := s
  dsimp only at hm hs ⊢
  subst hm
  simp only [collectLoop, if_neg ha, hs]
  split_ifs with h1 h2
  · rfl
  · rw [show b.length - (f.startPattern.length - 1) = 0 by omega, List.drop_zero]
  · rw [show b.length - (f.startPattern.length - 1) = b.length by omega, List.drop_length]

/-- Induction along the turns that the loop makes from a ready state. -/
theorem collect_induction {motive : ℕ → PacketState → Prop}
    (enter : ∀ fuel w idx, f.startPattern = [] → motive fuel ⟨.collect,w,idx⟩ →
      motive (fuel + 1) ⟨.sync,w,idx⟩)
    (hunt : ∀ fuel w idx, f.startPattern ≠ [] → (∀ i, search f.startPattern w = some i →
        motive fuel ⟨.collect,w.drop i,f.startPattern.length⟩) →
      motive (fuel + 1) ⟨.sync,w,idx⟩)
    (bare : ∀ fuel w idx, f.endPattern = [] → 0 < f.startPattern.length → f.startPattern <+: w →
      motive fuel ⟨.sync,w.drop f.startPattern.length,idx⟩ → motive (fuel + 1) ⟨.collect,w,idx⟩)
    (collect : ∀ fuel w idx, f.endPattern ≠ [] → f.startPattern <+: w →
      f.searchOffset idx ≤ w.length →
      (∀ j, f.startPattern.length ≤ j → j < f.searchOffset idx → ¬OccursAt f.endPattern w j) →
      (∀ j, searchFrom f.endPattern w (f.searchOffset idx) = some j →
        j + f.endPattern.length ≤ w.length ∧
          motive fuel ⟨.sync,w.drop (j + f.endPattern.length),0⟩) →
      motive (fuel + 1) ⟨.collect,w,idx⟩)
    {fuel : ℕ} {s : PacketState} (h : f.Ready s) (hf : turns s ≤ fuel) : motive fuel s := by
  induction fuel generalizing s with
  | zero =>
    unfold turns at hf
    split at hf <;> omega
  | succ fuel ih =>
    obtain ⟨m,w,idx⟩ := s
    cases m with
    | sync =>
      simp only [turns] at hf
      by_cases ha : f.startPattern = []
      · refine enter fuel w idx ha (ih ?_ ?_)
        · exact .inr (h.resolve_left (fun h => h.2 ha))
        · simp only [turns]
          omega
      · refine hunt fuel w idx ha (fun i hs => ih ?_ ?_)
        · have ho : f.searchOffset f.startPattern.length = f.startPattern.length := by
            simp [searchOffset]
          have hl := search_lt hs
          refine .inr ⟨(search_eq_some.mp hs).1.2,?_,?_⟩
          · simp only [ho, List.length_drop]
            omega
          · simp only [ho]
            exact fun j hj hj' => absurd hj' (by omega)
        · have hl := search_lt hs
          simp only [turns, List.length_drop]
          omega
    | collect =>
      obtain ⟨hp,hoff,hclear⟩ := h.resolve_left (fun h => nomatch h.1)
      simp only [turns] at hf
      dsimp only at hp hoff hclear
      by_cases he : f.endPattern = []
      · have ha := f.patterns_ne.resolve_right (not_not.mpr he)
        have h0 := List.length_pos_iff.mpr ha
        have hl := hp.length_le
        refine bare fuel w idx he h0 hp (ih (.inl ⟨rfl,ha⟩) ?_)
        simp only [turns, List.length_drop]
        omega
      · refine collect fuel w idx he hp hoff hclear (fun j hn => ?_)
        obtain ⟨-,ho,-⟩ := searchFrom_eq_some.mp hn
        have hl := ho.le_length
        have h0 := List.length_pos_iff.mpr he
        refine ⟨hl,ih (ready_sync f rfl (fun _ => rfl)) ?_⟩
        simp only [turns, List.length_drop]
        omega

/-- The loop computes the parse of the buffer and keeps its residue. -/
theorem collectLoop_eq {fuel : ℕ} (pos : ℕ) {s : PacketState} (h : f.Ready s) (hf : turns s ≤ fuel) :
    (f.collectLoop fuel pos s).2 = f.emits (f.parse pos s.buffer).1 ∧
    f.Outcome (f.collectLoop fuel pos s).1 (residue f.startPattern (f.parse pos s.buffer).2) := by
  revert pos
  refine f.collect_induction (motive := fun fuel s => ∀ pos,
    (f.collectLoop fuel pos s).2 = f.emits (f.parse pos s.buffer).1 ∧
    f.Outcome (f.collectLoop fuel pos s).1 (residue f.startPattern (f.parse pos s.buffer).2))
    ?_ ?_ ?_ ?_ h hf
  · intro fuel w idx ha ih pos
    simp only [collectLoop, if_pos ha]
    exact ih pos
  · intro fuel w idx ha ih pos
    cases hs : search f.startPattern w with
    | none =>
      rw [collectLoop_sync f rfl ha hs]
      refine ⟨?_,?_⟩
      · rw [parse_none f (nextPacket_none_of_search hs), emits_nil]
      · rw [parse_rest_pos f pos 0]
        exact outcome_sync f ha hs rfl rfl
    | some i =>
      simp only [collectLoop, if_neg ha, hs]
      rw [(parse_skip f hs).1, (parse_skip f hs).2]
      exact ih i hs (pos + i)
  · intro fuel w idx he h0 hp ih pos
    have hl := hp.length_le
    have hw : w ≠ [] := List.length_pos_iff.mp (by omega)
    have hn : nextPacket f.startPattern f.endPattern w = some (0,f.startPattern.length) := by
      simp [nextPacket, search_started f hp hw, he]
    simp only [collectLoop, if_pos he]
    rw [parse_some f hn]
    simp only [Nat.zero_add, Nat.add_zero, List.drop_zero]
    rw [emits_cons_empty f he]
    obtain ⟨h1,h2⟩ := ih (pos + f.startPattern.length)
    exact ⟨by rw [h1],h2⟩
  · intro fuel w idx he hp hoff hclear ih pos
    simp only [collectLoop, if_neg he, if_neg (Nat.not_lt.mpr hoff)]
    have hfrom := searchFrom_of_clear (f.searchOffset_spec _).1 hclear
    have hnp := nextPacket_started f he hp
    cases hn : searchFrom f.endPattern w f.startPattern.length with
    | none =>
      rw [hn, Option.map_none] at hnp
      rw [hfrom, hn, parse_none f hnp, residue_of_started f hp (started_ne f hp), emits_nil]
      dsimp only
      refine ⟨by split_ifs <;> rfl,outcome_collect f he hp hn ?_ ?_⟩
      · intro hl
        rw [if_pos hl]
      · intro hl
        rw [if_neg hl]
        exact ⟨rfl,rfl,le_rfl⟩
    | some j =>
      obtain ⟨hl,ih⟩ := ih j (hfrom.trans hn)
      obtain ⟨h1,h2⟩ := ih (pos + (j + f.endPattern.length))
      rw [hn, Option.map_some] at hnp
      rw [hfrom, hn, parse_some f hnp]
      simp only [Nat.zero_add, Nat.add_zero, List.drop_zero]
      rw [emits_cons f he, List.length_take, Nat.min_eq_left hl]
      split_ifs with hm
      · exact ⟨by rw [h1],h2⟩
      · exact ⟨h1,h2⟩

/-- The residue of a rest without a whole packet: first bytes of a start pattern, or a
packet without its end. -/
theorem residue_cases {w : List UInt8} (h : nextPacket f.startPattern f.endPattern w = none) :
    (search f.startPattern w = none ∧
      (residue f.startPattern w).length ≤ f.startPattern.length - 1) ∨
    (f.Started (residue f.startPattern w) ∧
      searchFrom f.endPattern (residue f.startPattern w) f.startPattern.length = none) := by
  cases hs : search f.startPattern w with
  | none =>
    refine .inl ⟨rfl,?_⟩
    simp only [residue, hs, List.length_drop]
    omega
  | some i =>
    simp only [residue, hs]
    simp only [nextPacket, hs] at h
    split_ifs at h with he
    rw [Option.map_eq_none_iff, searchFrom_drop, Option.map_eq_none_iff] at h
    exact .inr ⟨⟨he,(search_eq_some.mp hs).1.2⟩,h⟩

/-- The zero-copy loop computes the parse of the bytes from `p` on and stops at its
residue. -/
theorem fastLoop_eq {data : List UInt8} {fuel p : ℕ} (hp : p ≤ data.length)
    (hf : data.length - p < fuel) :
    f.fastLoop data fuel p =
      (data.length - (residue f.startPattern (f.parse p (data.drop p)).2).length,
        f.emits (f.parse p (data.drop p)).1) := by
  induction fuel generalizing p with
  | zero => omega
  | succ fuel ih =>
    have hlen : (data.drop p).length = data.length - p := List.length_drop
    by_cases hlt : p < data.length
    · rw [fastLoop, if_pos hlt]
      have hfrom := searchFrom_drop f.startPattern data p 0
      rw [Nat.add_zero, searchFrom_zero] at hfrom
      rw [hfrom]
      cases hs : search f.startPattern (data.drop p) with
      | none =>
        rw [parse_none f (nextPacket_none_of_search hs), emits_nil, residue, hs]
        simp only [Option.map_none, keepLen_eq, List.length_drop]
        congr 1
        split_ifs <;> omega
      | some i =>
        have hl := search_lt hs
        have hi := (search_eq_some.mp hs).1.1
        simp only [Option.map_some]
        by_cases he : f.endPattern = []
        · have h0 := List.length_pos_iff.mpr (f.patterns_ne.resolve_right (not_not.mpr he))
          have hn : nextPacket f.startPattern f.endPattern (data.drop p) =
              some (i,f.startPattern.length) := by simp [nextPacket, hs, he]
          rw [if_pos he, parse_some f hn, emits_cons_empty f he, ih (by omega) (by omega)]
          simp only [List.drop_drop, Nat.add_assoc]
        · have hsf := searchFrom_drop f.endPattern data p (i + f.startPattern.length)
          rw [if_neg he, Nat.add_assoc, hsf]
          cases hj : searchFrom f.endPattern (data.drop p) (i + f.startPattern.length) with
          | none =>
            have hn : nextPacket f.startPattern f.endPattern (data.drop p) = none := by
              simp [nextPacket, hs, he, hj]
            rw [parse_none f hn, emits_nil, residue, hs]
            simp only [Option.map_none, List.length_drop]
            congr 1
            omega
          | some j =>
            have hn : nextPacket f.startPattern f.endPattern (data.drop p) =
                some (i,j + f.endPattern.length - i) := by simp [nextPacket, hs, he, hj]
            obtain ⟨-,hin,hn0,-⟩ := nextPacket_spec f.patterns_ne hn
            obtain ⟨hij,-⟩ := searchFrom_eq_some.mp hj
            have hq : p + j + f.endPattern.length - (p + i) = j + f.endPattern.length - i := by
              omega
            rw [parse_some f hn, emits_cons f he]
            simp only [Option.map_some, hq]
            rw [ih (by omega) (by omega)]
            simp only [List.drop_drop, Nat.add_assoc, List.length_take, List.length_drop]
            rw [Nat.min_eq_left (by omega)]
            split_ifs <;> rfl
    · rw [fastLoop, if_neg hlt, List.drop_of_length_le (by omega), parse_none f (by simp [nextPacket]),
        emits_nil]
      simp only [residue, search_nil, List.drop_nil, List.length_nil]
      congr 1
      omega

/-- Buffering the residue of the caller's bytes. -/
theorem outcome_buffered {s : PacketState} {w : List UInt8} (h : f.Holds s [])
    (hn : nextPacket f.startPattern f.endPattern w = none) (hw : residue f.startPattern w ≠ []) :
    f.Outcome (f.checkLimit (f.collectIfStarted { s with buffer := residue f.startPattern w }))
      (residue f.startPattern w) := by
  obtain ⟨m,b,idx⟩ := s
  have hcases := f.residue_cases hn
  generalize hr : residue f.startPattern w = r at hw hcases ⊢
  obtain ⟨hs,hl⟩ | ⟨hst,hnone⟩ := hcases
  · have h0 := List.length_pos_iff.mpr hw
    have hnp : ¬f.startPattern <+: r := fun hp => by
      have := hp.length_le
      omega
    obtain ⟨-,⟨ha,hm,-⟩ | ⟨⟨-,hp⟩,-⟩⟩ := h
    · dsimp only at hm
      subst hm
      rw [collectIfStarted, if_neg (fun h => hnp h.2), checkLimit, if_neg (fun h => nomatch h.1)]
      exact .inr ⟨fun h => hnp h.1.2,rfl,.inl ⟨ha,rfl,by omega⟩⟩
    · have := hp.length_le
      rw [List.length_nil] at this
      omega
  · have hc : f.collectIfStarted ⟨m,r,idx⟩ = ⟨.collect,r,if m = .sync then f.startPattern.length else idx⟩ := by
      cases m <;> simp [collectIfStarted, hst.2]
    have hi : (if m = .sync then f.startPattern.length else idx) ≤ r.length := by
      have := hst.2.length_le
      split_ifs with hm
      · exact this
      · obtain ⟨-,⟨-,hm',-⟩ | ⟨-,-,hi,-⟩⟩ := h
        · exact absurd hm' hm
        · exact le_trans hi (Nat.zero_le _)
    dsimp only
    rw [hc, checkLimit]
    refine outcome_collect f hst.1 hst.2 hnone ?_ ?_
    · intro hl
      rw [if_pos ⟨rfl,hl⟩]
    · intro hl
      rw [if_neg (fun h => hl h.2)]
      exact ⟨rfl,rfl,hi⟩

theorem Holds.outcome {f : PacketFramer} {s : PacketState} {r : List UInt8} (h : f.Holds s r)
    (hl : ¬(f.Started r ∧ f.maxLength < r.length)) : f.Outcome s r := .inr ⟨hl,h⟩

/-- One push computes the parse of the residue it holds and the new bytes. -/
theorem pushBytes_eq (pos : ℕ) {s : PacketState} {r data : List UInt8} (h : f.Holds s r)
    (hd : data ≠ []) :
    (f.pushBytes pos s data).2 = f.emits (f.parse (pos - r.length) (r ++ data)).1 ∧
    f.Outcome (f.pushBytes pos s data).1
      (residue f.startPattern (f.parse (pos - r.length) (r ++ data)).2) := by
  have hb := h.1
  by_cases hr : r = []
  · subst hr
    have hsuf := (residue_suffix (a := f.startPattern) (f.parse 0 data).2).trans
      (packets_rest f.patterns_ne 0 data).2
    have hnone := f.parse_rest 0 data
    obtain ⟨hsh1,hsh2⟩ := f.shift_parse pos 0 data
    rw [Nat.add_zero] at hsh1 hsh2
    rw [pushBytes, if_neg hd, if_pos hb, fastLoop_eq f (Nat.zero_le _) (by omega), List.drop_zero]
    simp only [List.length_nil, Nat.sub_zero, List.nil_append, ← hsh1, ← hsh2, ← shift_emits]
    refine ⟨by split_ifs <;> rfl,?_⟩
    generalize hw : (f.parse 0 data).2 = w at hsuf hnone ⊢
    have hlen := hsuf.length_le
    split_ifs with hlt
    · have hne : residue f.startPattern w ≠ [] := List.length_pos_iff.mp (by omega)
      have happ : appendBytes s.buffer data (data.length - (residue f.startPattern w).length) =
          residue f.startPattern w := by
        rw [appendBytes, if_neg (by omega), hb, List.nil_append]
        exact (List.suffix_iff_eq_drop.mp hsuf).symm
      rw [happ]
      exact outcome_buffered f h hnone hne
    · have hnil : residue f.startPattern w = [] := by
        have := List.length_pos_iff.mpr hd
        exact List.length_eq_zero_iff.mp (by omega)
      rw [hnil]
      exact h.outcome (fun h => absurd h.2 (by simp))
  · have happ : appendBytes r data 0 = r ++ data := by
      rw [appendBytes, if_neg (by have := List.length_pos_iff.mpr hd; omega), List.drop_zero]
    rw [pushBytes, if_neg hd, if_neg (by rw [hb]; exact hr), hb, happ]
    refine collectLoop_eq f _ (h.ready data) ?_
    unfold turns
    split <;> dsimp only <;> omega

end Wirestead.Framer.PacketFramer
