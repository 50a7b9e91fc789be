import Wirestead.Framer.LengthPrefix

/-! # Decoding whatever the chunking

Decoding depends on the bytes from the current offset on, so the loop over a buffer is
a recursion over its suffixes. A push that ends without a reset keeps exactly the bytes
that decoding the longer stream continues from.
-/
namespace Wirestead.Framer.LengthPrefixFramer
open Words
variable (f : LengthPrefixFramer)

theorem look_drop {buffer : List UInt8} {consumed : ℕ} (h : consumed ≤ buffer.length) :
    f.look buffer consumed = f.look (buffer.drop consumed) 0 := by
  have hl : ∀ n, buffer.length < consumed + f.prefixBytes + n ↔
      (buffer.drop consumed).length < 0 + f.prefixBytes + n := by
    intro n
    rw [List.length_drop]
    omega
  simp only [look, readLength_eq, hl, List.drop_zero]

/-- A frame is found only when all of it is there. -/
theorem look_frame_le {s : List UInt8} {n : ℕ} (h : f.look s 0 = .frame n) :
    f.prefixBytes + n ≤ s.length := by
  unfold look at h
  cases hr : f.readLength s 0 with
  | none => simp [hr] at h
  | some declared =>
    simp only [hr] at h
    split_ifs at h with hc hm hl
    cases h
    omega

/-- More bytes do not change a header that was already complete. -/
theorem readLength_append {s : List UInt8} {declared : ℕ} (h : f.readLength s 0 = some declared)
    (t : List UInt8) : f.readLength (s ++ t) 0 = some declared := by
  rw [readLength_eq, List.drop_zero] at h ⊢
  split at h
  · cases h
  · rename_i hl
    rw [if_neg (by rw [List.length_append]; omega), List.take_append_of_le_length (by omega)]
    exact h

theorem look_append {s : List UInt8} (h : f.look s 0 ≠ .needMore) (t : List UInt8) :
    f.look (s ++ t) 0 = f.look s 0 := by
  unfold look at h ⊢
  cases hr : f.readLength s 0 with
  | none => simp [hr] at h
  | some declared =>
    simp only [hr, f.readLength_append hr] at h ⊢
    split_ifs at h with hc hm hl
    · rw [if_pos hc, if_pos hc]
    · rw [if_neg hc, if_pos hm, if_neg hc, if_pos hm]
    · exact absurd rfl h
    · rw [if_neg hc, if_neg hm, if_neg (by rw [List.length_append]; omega), if_neg hc, if_neg hm,
        if_neg hl]

/-- The loop from an offset is the loop over the suffix, counted from that offset. -/
theorem pushLoop_drop (buffer : List UInt8) (consumed fuel fuel' : ℕ) (hc : consumed ≤ buffer.length)
    (h1 : buffer.length - consumed < fuel) (h2 : buffer.length - consumed < fuel') :
    f.pushLoop buffer fuel consumed =
      ((f.pushLoop (buffer.drop consumed) fuel' 0).1.map (· + consumed),
        (f.pushLoop (buffer.drop consumed) fuel' 0).2) := by
  generalize hm : buffer.length - consumed = m
  induction m using Nat.strong_induction_on generalizing buffer consumed fuel fuel' with
  | _ m ih =>
    obtain ⟨a,rfl⟩ : ∃ a, fuel = a + 1 := ⟨fuel - 1,by omega⟩
    obtain ⟨b,rfl⟩ : ∃ b, fuel' = b + 1 := ⟨fuel' - 1,by omega⟩
    simp only [pushLoop, f.look_drop hc]
    cases hk : f.look (buffer.drop consumed) 0 with
    | needMore => simp
    | corrupt => rfl
    | frame n =>
      have hn := f.look_frame_le hk
      have hp := f.prefixBytes_pos
      rw [List.length_drop] at hn
      have e1 := ih (m - (f.prefixBytes + n)) (by omega) buffer
        (consumed + f.prefixBytes + n) a (m + 1)
        (by omega) (by omega) (by omega) (by omega)
      have e2 := ih (m - (f.prefixBytes + n)) (by omega) (buffer.drop consumed)
        (0 + f.prefixBytes + n) b (m + 1)
        (by rw [List.length_drop]; omega) (by rw [List.length_drop]; omega)
        (by rw [List.length_drop]; omega) (by rw [List.length_drop]; omega)
      rw [List.drop_drop, show consumed + (0 + f.prefixBytes + n) = consumed + f.prefixBytes + n by
        omega] at e2
      simp only [e1, e2, Option.map_map, List.drop_drop]
      refine Prod.ext ?_ ?_
      · dsimp only
        congr 1
        funext k
        simp only [Function.comp_apply]
        omega
      · simp

theorem decode_needMore {s : List UInt8} (h : f.look s 0 = .needMore) :
    f.decode s = (some 0,[]) := by
  rw [decode, pushLoop, h]

theorem decode_corrupt {s : List UInt8} (h : f.look s 0 = .corrupt) : f.decode s = (none,[]) := by
  rw [decode, pushLoop, h]

theorem decode_frame {s : List UInt8} {n : ℕ} (h : f.look s 0 = .frame n) :
    f.decode s = ((f.decode (s.drop (f.prefixBytes + n))).1.map (· + (f.prefixBytes + n)),
      (s.drop f.prefixBytes).take n :: (f.decode (s.drop (f.prefixBytes + n))).2) := by
  have hn := f.look_frame_le h
  have hp := f.prefixBytes_pos
  have he := f.pushLoop_drop s (0 + f.prefixBytes + n) s.length
    ((s.drop (0 + f.prefixBytes + n)).length + 1) (by omega) (by omega)
    (by rw [List.length_drop]; omega)
  rw [decode, pushLoop, h]
  simp only [Nat.zero_add] at he ⊢
  rw [he]
  rfl

/-- Induction along the frames of a buffer. -/
theorem decode_induction {motive : List UInt8 → Prop}
    (needMore : ∀ s, f.look s 0 = .needMore → motive s)
    (corrupt : ∀ s, f.look s 0 = .corrupt → motive s)
    (frame : ∀ s n, f.look s 0 = .frame n → motive (s.drop (f.prefixBytes + n)) → motive s)
    (s : List UInt8) : motive s := by
  generalize hn : s.length = m
  induction m using Nat.strong_induction_on generalizing s with
  | _ m ih =>
    cases h : f.look s 0 with
    | needMore => exact needMore s h
    | corrupt => exact corrupt s h
    | frame n =>
      have hl := f.look_frame_le h
      have hp := f.prefixBytes_pos
      exact frame s n h (ih _ (by rw [List.length_drop]; omega) _ rfl)

/-- What a push without a reset consumes lies in the buffer, and what it keeps holds
no further frame. -/
theorem decode_rest {s : List UInt8} {k : ℕ} {out : List (List UInt8)}
    (h : f.decode s = (some k,out)) : k ≤ s.length ∧ f.look (s.drop k) 0 = .needMore := by
  induction s using f.decode_induction generalizing k out with
  | needMore s hs =>
    rw [f.decode_needMore hs] at h
    cases h
    exact ⟨Nat.zero_le _,by simpa using hs⟩
  | corrupt s hs =>
    rw [f.decode_corrupt hs] at h
    cases h
  | frame s n hs ih =>
    have hl := f.look_frame_le hs
    rw [f.decode_frame hs, Prod.mk.injEq, Option.map_eq_some_iff] at h
    obtain ⟨⟨j,hj,rfl⟩,-⟩ := h
    obtain ⟨hjl,hrest⟩ := ih (Prod.ext hj rfl)
    rw [List.length_drop] at hjl
    rw [List.drop_drop] at hrest
    exact ⟨by omega,by rwa [Nat.add_comm j]⟩

/-- Decoding a longer stream continues from the kept bytes. -/
theorem decode_append {s : List UInt8} {k : ℕ} {out : List (List UInt8)}
    (h : f.decode s = (some k,out)) (t : List UInt8) :
    f.decode (s ++ t) = ((f.decode (s.drop k ++ t)).1.map (· + k),
      out ++ (f.decode (s.drop k ++ t)).2) := by
  induction s using f.decode_induction generalizing k out with
  | needMore s hs =>
    rw [f.decode_needMore hs] at h
    cases h
    simp
  | corrupt s hs =>
    rw [f.decode_corrupt hs] at h
    cases h
  | frame s n hs ih =>
    have hl := f.look_frame_le hs
    have hs' : f.look (s ++ t) 0 = .frame n := by rw [f.look_append (by rw [hs]; simp), hs]
    rw [f.decode_frame hs, Prod.mk.injEq, Option.map_eq_some_iff] at h
    obtain ⟨⟨j,hj,rfl⟩,rfl⟩ := h
    have he := ih (Prod.ext hj rfl)
    rw [f.decode_frame hs', List.drop_append_of_le_length hl, he, List.drop_drop,
      Nat.add_comm j (f.prefixBytes + n), List.drop_append_of_le_length (by omega),
      List.take_append_of_le_length (by rw [List.length_drop]; omega)]
    simp only [Option.map_map, List.cons_append]
    refine Prod.ext ?_ rfl
    dsimp only
    congr 1
    funext i
    simp only [Function.comp_apply]
    omega

/-- A corrupt header stays corrupt, and nothing after it is decoded. -/
theorem decode_append_none {s : List UInt8} {out : List (List UInt8)}
    (h : f.decode s = (none,out)) (t : List UInt8) : f.decode (s ++ t) = (none,out) := by
  induction s using f.decode_induction generalizing out with
  | needMore s hs =>
    rw [f.decode_needMore hs] at h
    cases h
  | corrupt s hs =>
    rw [f.decode_corrupt hs] at h
    have hs' : f.look (s ++ t) 0 = .corrupt := by rw [f.look_append (by rw [hs]; simp), hs]
    rw [f.decode_corrupt hs', h]
  | frame s n hs ih =>
    have hl := f.look_frame_le hs
    have hs' : f.look (s ++ t) 0 = .frame n := by rw [f.look_append (by rw [hs]; simp), hs]
    rw [f.decode_frame hs, Prod.mk.injEq, Option.map_eq_none_iff] at h
    obtain ⟨hj,rfl⟩ := h
    rw [f.decode_frame hs', List.drop_append_of_le_length hl, ih (Prod.ext hj rfl),
      List.drop_append_of_le_length (by omega),
      List.take_append_of_le_length (by rw [List.length_drop]; omega)]
    rfl

theorem look_nil : f.look [] 0 = .needMore := by
  have hp := f.prefixBytes_pos
  simp [look, readLength, hp]

/-- The appended buffer does not depend on whether the chunk is empty. -/
theorem pushBytes_eq (buffer data : List UInt8) :
    f.pushBytes buffer data = match f.decode (buffer ++ data) with
      | (none,out) => ([],out)
      | (some consumed,out) => ((buffer ++ data).drop consumed,out) := by
  have ha : (if data = [] then buffer else buffer ++ data) = buffer ++ data := by
    split
    · rename_i h
      rw [h, List.append_nil]
    · rfl
  simp only [pushBytes, ha]
  cases f.decode (buffer ++ data) with
  | mk k out =>
    cases k with
    | none => rfl
    | some k =>
      dsimp only
      split
      · rfl
      · rw [show k = 0 by omega, List.drop_zero]

/-- A stream that decodes without a reset is decoded the same in any chunks. -/
theorem pushAll_eq_decode {buffer : List UInt8} (hb : f.look buffer 0 = .needMore)
    (chunks : List (List UInt8)) {k : ℕ} {out : List (List UInt8)}
    (h : f.decode (buffer ++ chunks.flatten) = (some k,out)) :
    f.pushAll buffer chunks = ((buffer ++ chunks.flatten).drop k,out) := by
  induction chunks generalizing buffer k out with
  | nil =>
    rw [List.flatten_nil, List.append_nil, f.decode_needMore hb] at h
    cases h
    simp [pushAll]
  | cons c cs ih =>
    rw [List.flatten_cons, ← List.append_assoc] at h ⊢
    rcases hd : f.decode (buffer ++ c) with ⟨_ | j,o⟩
    · rw [f.decode_append_none hd] at h
      cases h
    · obtain ⟨hjl,hrest⟩ := f.decode_rest hd
      rw [f.decode_append hd, Prod.mk.injEq, Option.map_eq_some_iff] at h
      obtain ⟨⟨i,hi,rfl⟩,rfl⟩ := h
      have ht := ih hrest (Prod.ext hi rfl)
      simp only [pushAll, f.pushBytes_eq, hd, ht]
      rw [← List.drop_append_of_le_length hjl, List.drop_drop, Nat.add_comm j]

theorem look_encode {p : List UInt8} (hp : f.Encodable p) (rest : List UInt8) :
    f.look (f.encode p ++ rest) 0 = .frame p.length := by
  have hm := hp.1
  have hl : (f.encode p ++ rest).length = f.prefixBytes + p.length + rest.length := by
    rw [List.length_append, length_encode]
  simp only [look, f.readLength_encode hp, hl, declaredLength, payloadLength]
  cases f.lengthIncludesPrefix with
  | true =>
    simp only [if_true, true_and]
    rw [if_neg (by omega), if_neg (by omega), if_neg (by omega)]
    simp
  | false =>
    simp only [Bool.false_eq_true, if_false, false_and]
    rw [if_neg (by omega), if_neg (by omega)]

/-- A frame that has not arrived completely is waited for. -/
theorem look_partial {p rest : List UInt8} (hp : f.Encodable p) (hr : rest <+: f.encode p)
    (hne : rest ≠ f.encode p) : f.look rest 0 = .needMore := by
  obtain ⟨t,ht⟩ := hr
  by_contra hk
  have he := f.look_append hk t
  have hw := f.look_encode hp []
  rw [List.append_nil] at hw
  rw [ht, hw] at he
  have hl := f.look_frame_le he.symm
  have hlt := congrArg List.length ht
  rw [List.length_append, length_encode] at hlt
  have h0 : t = [] := List.length_eq_zero_iff.mp (by omega)
  subst h0
  rw [List.append_nil] at ht
  exact hne ht

theorem decode_encode {ps : List (List UInt8)} (hps : ∀ p ∈ ps, f.Encodable p) {rest : List UInt8}
    (hr : f.look rest 0 = .needMore) :
    f.decode ((ps.map f.encode).flatten ++ rest) = (some (ps.map f.encode).flatten.length,ps) := by
  induction ps with
  | nil => simpa using f.decode_needMore hr
  | cons p ps ih =>
    have he := ih (fun q hq => hps q (List.mem_cons_of_mem _ hq))
    have hk := f.look_encode (hps p List.mem_cons_self) ((ps.map f.encode).flatten ++ rest)
    have hdrop : (f.encode p ++ ((ps.map f.encode).flatten ++ rest)).drop (f.prefixBytes + p.length) =
        (ps.map f.encode).flatten ++ rest := List.drop_left' (f.length_encode p)
    have hpay : ((f.encode p ++ ((ps.map f.encode).flatten ++ rest)).drop f.prefixBytes).take
        p.length = p := by
      rw [encode, List.append_assoc, List.drop_left' (f.length_fieldBytes _), List.take_left]
    rw [List.map_cons, List.flatten_cons, List.append_assoc, f.decode_frame hk, hdrop, he, hpay]
    simp [length_encode]
    omega

/-- The framer decodes what the format encodes: whatever the cuts, the payloads come
out in order, each once, and the buffer is left with the unfinished frame. -/
theorem pushAll_encode {ps : List (List UInt8)} (hps : ∀ p ∈ ps, f.Encodable p)
    {last rest : List UInt8} (hlast : f.Encodable last) (hrest : rest <+: f.encode last)
    (hne : rest ≠ f.encode last) {chunks : List (List UInt8)}
    (hc : chunks.flatten = (ps.map f.encode).flatten ++ rest) :
    f.pushAll [] chunks = (rest,ps) ∧ rest.length < f.prefixBytes + f.maxLength := by
  have hd := f.decode_encode hps (f.look_partial hlast hrest hne)
  constructor
  · rw [f.pushAll_eq_decode f.look_nil chunks (by rw [List.nil_append, hc]; exact hd), List.nil_append, hc,
      List.drop_left]
  · have hl := hrest.length_le
    have hlt : rest.length ≠ (f.encode last).length := fun h => hne (hrest.eq_of_length h)
    have hm := hlast.1
    rw [length_encode] at hl hlt
    omega

/-- Two-byte little-endian fields that count themselves; the cuts fall inside a header
and inside a payload, one payload is empty and a last header has begun. -/
theorem pushAll_encode_little :
    (⟨2,.little,8,true,by simp,by simp⟩ : LengthPrefixFramer).pushAll []
      [[5],[0,7],[8,9,2],[0,3]] = ([3],[[7,8,9],[]]) := by
  refine (@pushAll_encode _ [[7,8,9],[]] ?_ [1] [3] ⟨?_,?_⟩ ⟨[0,1],?_⟩ ?_ _
    ?_).1 <;> simp [Encodable, declaredLength] <;> decide

end Wirestead.Framer.LengthPrefixFramer
