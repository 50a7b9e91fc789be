import Wirestead.Framer.Line

/-! # The delimiter framer against the reference split

While it is synchronised, the framer's buffer is the unterminated tail of the split
of everything it was given, whatever the chunks were, and each push emits the newly
terminated contents. An overflow loses that tail. The resynchronisation is sound
exactly when the next delimiter found inside a chunk ends a segment. The split is that
of the framer's own search, which does not know every delimiter.
-/
namespace Wirestead.Framer

theorem byteValue_injective : Function.Injective byteValue := by
  intro a b h
  exact UInt8.toNat_inj.mp (Int.ofNat_inj.mp h)

theorem charValue_eq {c : UInt8} (h : c < 128) : charValue c = byteValue c := by
  have hc : c.toNat < 128 := UInt8.lt_iff_toNat_lt.mp h
  rw [charValue, byteValue, BitVec.toInt_eq_toNat_cond, UInt8.toNat_toBitVec, if_pos (by omega)]

theorem charValue_ne {c : UInt8} (h : ¬c < 128) (b : UInt8) : charValue c ≠ byteValue b := by
  have hc : ¬c.toNat < 128 := fun hc => h (UInt8.lt_iff_toNat_lt.mpr hc)
  have hl := c.toNat_lt
  rw [charValue, byteValue, BitVec.toInt_eq_toNat_cond, UInt8.toNat_toBitVec, if_neg (by omega)]
  omega

namespace LineFramer
open Words
variable (f : LineFramer)

/-- The search can find the delimiter: it is a single byte, or every byte is below
0x80 and so the same as an unsigned and as a signed character. -/
def Findable : Prop := f.delimiter.length = 1 ∨ ∀ c ∈ f.delimiter, c < 128

instance : Decidable f.Findable := inferInstanceAs (Decidable (_ ∨ _))

theorem find_eq (data : List UInt8) :
    f.find data = if f.Findable then search f.delimiter data else none := by
  by_cases h1 : f.delimiter.length = 1
  · rw [find, if_pos h1, if_pos (.inl h1)]
  rw [find, if_neg h1]
  by_cases hf : ∀ c ∈ f.delimiter, c < 128
  · rw [if_pos (.inr hf), List.map_congr_left (fun c hc => charValue_eq (hf c hc)),
      search_map byteValue_injective]
  · rw [if_neg (fun h => hf (h.resolve_left h1))]
    obtain ⟨c,hc,hn⟩ : ∃ c ∈ f.delimiter, ¬c < 128 := by simpa using hf
    -- a negative character is no byte of any data
    refine search_of_notMem (List.mem_map_of_mem hc) (fun h => ?_)
    obtain ⟨b,-,hb⟩ := List.mem_map.mp h
    exact charValue_ne hn b hb.symm

variable {f} in
theorem Findable.find_eq (h : f.Findable) (data : List UInt8) :
    f.find data = search f.delimiter data := by
  rw [LineFramer.find_eq, if_pos h]

variable {f} in
theorem find_of_not_findable (h : ¬f.Findable) (data : List UInt8) : f.find data = none := by
  rw [LineFramer.find_eq, if_neg h]

theorem find_search {data : List UInt8} {i : ℕ} (h : f.find data = some i) :
    f.Findable ∧ search f.delimiter data = some i := by
  rw [f.find_eq] at h
  split at h
  · exact ⟨‹_›,h⟩
  · cases h

theorem find_of_search {data : List UInt8} (h : search f.delimiter data = none) :
    f.find data = none := by
  rw [f.find_eq, h, ite_self]

@[simp] theorem find_nil : f.find [] = none := by simp [f.find_eq]

/-- The split of a stream that the framer's search makes. -/
def split (s : List UInt8) : List (List UInt8) × List UInt8 :=
  if f.Findable then segments f.delimiter s else ([],s)

variable {f} in
theorem Findable.split_eq (h : f.Findable) (s : List UInt8) :
    f.split s = segments f.delimiter s := if_pos h

variable {f} in
theorem split_of_not_findable (h : ¬f.Findable) (s : List UInt8) : f.split s = ([],s) := if_neg h

theorem split_none {s : List UInt8} (h : f.find s = none) : f.split s = ([],s) := by
  by_cases hf : f.Findable
  · rw [hf.split_eq, segments_none ((hf.find_eq s).symm.trans h)]
  · exact split_of_not_findable hf s

@[simp] theorem split_nil : f.split [] = ([],[]) := f.split_none f.find_nil

theorem split_some {s : List UInt8} {i : ℕ} (h : f.find s = some i) :
    f.split s = (s.take i :: (f.split (s.drop (i + f.delimiter.length))).1,
      (f.split (s.drop (i + f.delimiter.length))).2) := by
  obtain ⟨hf,hs⟩ := f.find_search h
  rw [hf.split_eq, hf.split_eq, segments_some f.delimiter_ne hs]

theorem find_split_tail (s : List UInt8) : f.find (f.split s).2 = none := by
  by_cases hf : f.Findable
  · rw [hf.find_eq, hf.split_eq]
    exact search_segments_tail f.delimiter_ne s
  · exact find_of_not_findable hf _

theorem split_append (s t : List UInt8) :
    f.split (s ++ t) = ((f.split s).1 ++ (f.split ((f.split s).2 ++ t)).1,
      (f.split ((f.split s).2 ++ t)).2) := by
  by_cases hf : f.Findable
  · simp only [hf.split_eq]
    exact segments_append f.delimiter_ne s t
  · simp only [split_of_not_findable hf, List.nil_append]

theorem spanned_split (s : List UInt8) :
    spanned f.delimiter.length (f.split s).1 + (f.split s).2.length = s.length := by
  by_cases hf : f.Findable
  · rw [hf.split_eq]
    exact spanned_segments f.delimiter_ne s
  · rw [split_of_not_findable hf, spanned_nil, Nat.zero_add]

theorem split_tail_suffix (s : List UInt8) : (f.split s).2 <:+ s := by
  by_cases hf : f.Findable
  · rw [hf.split_eq]
    exact segments_tail_suffix f.delimiter_ne s
  · rw [split_of_not_findable hf]

/-- What a terminated content is delivered as. -/
def payload (content : List UInt8) : List UInt8 :=
  if f.includeDelimiter then content ++ f.delimiter else content

/-- The contents within the limit, with their positions, from position `pos` on. -/
def emits (pos : ℕ) (contents : List (List UInt8)) : List Message :=
  ((label f.delimiter.length pos contents).filter (fun m => m.2.length ≤ f.maxLength)).map
    (fun m => (m.1,f.payload m.2))

/-- Every message the reference split of the stream calls for. -/
def reference (stream : List UInt8) : List Message := f.emits 0 (segments f.delimiter stream).1

/-- Every message of the framer's own split of the stream. -/
def found (stream : List UInt8) : List Message := f.emits 0 (f.split stream).1

/-- The unterminated tail of the framer's own split. -/
def tail (stream : List UInt8) : List UInt8 := (f.split stream).2

variable {f} in
theorem Findable.found_eq (h : f.Findable) (s : List UInt8) : f.found s = f.reference s := by
  rw [found, reference, h.split_eq]

variable {f} in
theorem Findable.tail_eq (h : f.Findable) (s : List UInt8) :
    f.tail s = (segments f.delimiter s).2 := by
  rw [tail, h.split_eq]

variable {f} in
theorem found_of_not_findable (h : ¬f.Findable) (s : List UInt8) : f.found s = [] := by
  rw [found, split_of_not_findable h]
  rfl

variable {f} in
theorem tail_of_not_findable (h : ¬f.Findable) (s : List UInt8) : f.tail s = s := by
  rw [tail, split_of_not_findable h]

/-- What the framer finds are messages of the reference, if it finds any. -/
theorem found_sublist (s : List UInt8) : (f.found s).Sublist (f.reference s) := by
  by_cases h : f.Findable
  · rw [h.found_eq]
  · rw [found_of_not_findable h]
    exact List.nil_sublist _

/-- The state that holds an unterminated tail, or has just given it up. -/
def settle (t : List UInt8) : LineState := f.checkPartial ⟨t.length,t,false⟩

theorem emits_append (pos : ℕ) (as bs : List (List UInt8)) :
    f.emits pos (as ++ bs) = f.emits pos as ++ f.emits (pos + spanned f.delimiter.length as) bs := by
  simp [emits, label_append]

theorem emits_cons (pos : ℕ) (c : List UInt8) (cs : List (List UInt8)) :
    f.emits pos (c :: cs) =
      (if f.maxLength < c.length then [] else [(pos,f.payload c)]) ++
        f.emits (pos + c.length + f.delimiter.length) cs := by
  by_cases h : f.maxLength < c.length
  · simp [emits, label, h]
  · simp [emits, label, h, Nat.not_lt.mp h]

theorem shift_emits (pos k : ℕ) (cs : List (List UInt8)) :
    shift pos (f.emits k cs) = f.emits (pos + k) cs := by
  induction cs generalizing k with
  | nil => rfl
  | cons c cs ih =>
    simp only [emits_cons, shift, List.map_append] at ih ⊢
    rw [ih, show pos + (k + c.length + f.delimiter.length) =
      pos + k + c.length + f.delimiter.length by omega]
    split <;> rfl

theorem map_snd_emits (pos : ℕ) (cs : List (List UInt8)) :
    (f.emits pos cs).map Prod.snd =
      (cs.filter (fun c => c.length ≤ f.maxLength)).map f.payload := by
  induction cs generalizing pos with
  | nil => rfl
  | cons c cs ih =>
    rw [emits_cons, List.map_append, ih]
    by_cases h : f.maxLength < c.length
    · simp [h]
    · simp [h, Nat.not_lt.mp h]

theorem tail_length_le (s : List UInt8) : (f.tail s).length ≤ s.length :=
  (f.split_tail_suffix s).length_le

theorem found_append (s t : List UInt8) :
    f.found (s ++ t) = f.found s ++
      f.emits (s.length - (f.tail s).length) (f.split (f.tail s ++ t)).1 := by
  have h := f.spanned_split s
  unfold found tail
  rw [split_append, emits_append]
  congr 2
  omega

theorem tail_append (s t : List UInt8) :
    f.tail (s ++ t) = (f.split (f.tail s ++ t)).2 := by
  unfold tail
  rw [split_append]

/-- A cursor that has passed no occurrence finds the next delimiter. -/
theorem find_of_clear {data : List UInt8} {processed cursor : ℕ} (hp : processed ≤ cursor)
    (hclear : f.Findable → ∀ j, processed ≤ j → j < cursor → ¬OccursAt f.delimiter data j) :
    (f.find (data.drop cursor)).map (cursor + ·) =
      (f.find (data.drop processed)).map (· + processed) := by
  by_cases hf : f.Findable
  · rw [hf.find_eq, hf.find_eq]
    simpa only [searchFrom, Nat.add_comm cursor] using searchFrom_of_clear hp (hclear hf)
  · rw [find_of_not_findable hf, find_of_not_findable hf]
    rfl

/-- The scan loop computes the split of what it has not processed yet. -/
theorem scanLoop_eq (data : List UInt8) (fuel processed cursor : ℕ) (hp : processed ≤ cursor)
    (hc : cursor ≤ data.length) (hf : data.length - processed < fuel)
    (hclear : f.Findable → ∀ j, processed ≤ j → j < cursor → ¬OccursAt f.delimiter data j) :
    f.scanLoop data fuel processed cursor =
      (data.length - (f.split (data.drop processed)).2.length,
        f.emits processed (f.split (data.drop processed)).1) := by
  induction fuel generalizing processed cursor with
  | zero => omega
  | succ fuel ih =>
    have hd := List.length_pos_iff.mpr f.delimiter_ne
    have hfind := f.find_of_clear hp hclear
    rw [scanLoop, if_neg (by omega)]
    cases h : f.find (data.drop processed) with
    | none =>
      rw [h, Option.map_none, Option.map_eq_none_iff] at hfind
      rw [hfind, split_none f h]
      simp only [emits, label, List.filter_nil, List.map_nil, List.length_drop]
      rw [Nat.sub_sub_self (by omega)]
    | some i =>
      rw [h, Option.map_some, Option.map_eq_some_iff] at hfind
      obtain ⟨distance,hfound,hsum⟩ := hfind
      rw [hfound]
      have hl := search_lt (f.find_search h).2
      rw [List.length_drop] at hl
      have hcl : i + processed + f.delimiter.length - processed - f.delimiter.length = i := by omega
      have hr := ih (i + processed + f.delimiter.length) (i + processed + f.delimiter.length) le_rfl
        (by omega) (by omega) (fun _ j h1 h2 => absurd h1 (by omega))
      have htake : ((data.drop processed).take i).length = i := by
        rw [List.length_take, List.length_drop]
        omega
      rw [f.split_some h, emits_cons, htake, List.drop_drop]
      rw [show processed + (i + f.delimiter.length) = i + processed + f.delimiter.length by omega,
        show processed + i + f.delimiter.length = i + processed + f.delimiter.length by omega]
      simp only [show cursor + distance = i + processed by omega, hcl, hr]
      by_cases hm : f.maxLength < i
      · simp only [if_pos hm, List.nil_append]
      · simp only [if_neg hm, List.cons_append, List.nil_append]
        congr 3
        unfold payload
        split
        · rw [show i + processed + f.delimiter.length - processed = i + f.delimiter.length by omega,
            List.take_add, (search_eq_some.mp (f.find_search h).2).1.take_drop]
        · rfl

theorem scanAndProcess_eq (data : List UInt8) (start : ℕ) (hs : start ≤ data.length)
    (hclear : f.Findable → ∀ j < start, ¬OccursAt f.delimiter data j) :
    f.scanAndProcess data start = (data.length - (f.tail data).length,f.found data) := by
  rw [scanAndProcess, if_neg (by omega)]
  exact f.scanLoop_eq data _ 0 start (Nat.zero_le _) hs (by omega) (fun hf j _ hj => hclear hf j hj)

/-- The tail is what remains after the processed bytes. -/
theorem drop_processed (s : List UInt8) : s.drop (s.length - (f.tail s).length) = f.tail s :=
  (List.suffix_iff_eq_drop.mp (f.split_tail_suffix s)).symm

theorem checkPartial_eq {s : LineState} {t : List UInt8} (hb : s.buffer = t)
    (hi : s.scannedIdx = t.length) (hd : s.discarding = false) : f.checkPartial s = f.settle t := by
  rcases s with ⟨i,b,d⟩
  dsimp only at hb hi hd
  subst hb hi hd
  rfl

theorem settle_nil : f.settle [] = .reset := by simp [settle, checkPartial, LineState.reset]

/-- A synchronised framer splits its buffer and the next piece as the reference does
and holds the unterminated tail of both, or overflows on it. -/
theorem pushSynced_eq (pos : ℕ) {u data : List UInt8} (hu : f.find u = none)
    (hdata : data ≠ []) :
    f.pushSynced pos ⟨u.length,u,false⟩ data =
      (f.settle (f.tail (u ++ data)),
        f.emits (pos - u.length) (f.split (u ++ data)).1) := by
  have hd := List.length_pos_iff.mpr f.delimiter_ne
  have hdl := List.length_pos_iff.mpr hdata
  have htw := f.tail_length_le (u ++ data)
  have hdrop := f.drop_processed (u ++ data)
  have hshift : ∀ n, shift n (f.found (u ++ data)) =
      f.emits n (f.split (u ++ data)).1 := by
    intro n
    rw [found, shift_emits, Nat.add_zero]
  unfold pushSynced
  by_cases hb : u = []
  · subst hb
    simp only [List.nil_append, List.length_nil, Nat.sub_zero] at htw hdrop hshift ⊢
    rw [if_pos trivial, f.scanAndProcess_eq data 0 (Nat.zero_le _)
      (fun _ j hj => absurd hj (by omega)), hshift]
    by_cases hlt : data.length - (f.tail data).length < data.length
    · simp only [if_pos hlt, appendBytes, if_neg (Nat.not_le.mpr hlt), List.nil_append, hdrop]
      exact congrArg (·,_) (f.checkPartial_eq rfl rfl rfl)
    · have h0 : f.tail data = [] := List.length_eq_zero_iff.mp (by omega)
      simp only [if_neg hlt]
      rw [h0, settle_nil]
      rfl
  · have hul := List.length_pos_iff.mpr hb
    simp only [if_neg hb, appendBytes, if_neg (show ¬data.length ≤ 0 by omega), List.drop_zero]
    rw [f.scanAndProcess_eq (u ++ data) _ (by rw [List.length_append]; split <;> omega) ?_]
    · have hrest : (if 0 < (u ++ data).length - (f.tail (u ++ data)).length then
          (u ++ data).drop ((u ++ data).length - (f.tail (u ++ data)).length) else u ++ data) =
          f.tail (u ++ data) := by
        split
        · exact hdrop
        · rename_i h
          rwa [show (u ++ data).length - (f.tail (u ++ data)).length = 0 by omega,
            List.drop_zero] at hdrop
      simp only [hrest, hshift]
      exact congrArg (·,_) (f.checkPartial_eq rfl rfl rfl)
    · -- an occurrence before the resume point would lie inside the old buffer
      intro hf j hj ho
      rw [hf.find_eq] at hu
      refine search_eq_none.mp hu j (ho.of_append ?_ ?_) <;> split at hj <;> omega

/-- The messages that become due when the stream `s` is continued by `data`. -/
def newly (s data : List UInt8) : List Message :=
  f.emits (s.length - (f.tail s).length) (f.split (f.tail s ++ data)).1

theorem newly_nil (s : List UInt8) : f.newly s [] = [] := by
  have h : f.find (f.tail s) = none := f.find_split_tail s
  rw [newly, List.append_nil, f.split_none h]
  rfl

theorem settle_of_le {t : List UInt8}
    (h : t.length ≤ maxPartialLength f.maxLength f.delimiter.length) :
    f.settle t = ⟨t.length,t,false⟩ := by
  rw [settle, checkPartial, if_neg (Nat.not_lt.mpr h)]

theorem settle_of_lt {t : List UInt8}
    (h : maxPartialLength f.maxLength f.delimiter.length < t.length) :
    f.settle t = ⟨0,[],true⟩ := by
  rw [settle, checkPartial, if_pos h]

/-- One internal chunk in the synchronised state. -/
theorem pushBytesInternal_synced (s data : List UInt8)
    (h : (f.tail s).length ≤ maxPartialLength f.maxLength f.delimiter.length) :
    f.pushBytesInternal s.length (f.settle (f.tail s)) data =
      (f.settle (f.tail (s ++ data)),f.newly s data) := by
  have hnone : f.find (f.tail s) = none := f.find_split_tail s
  unfold pushBytesInternal
  by_cases hdata : data = []
  · rw [if_pos hdata, hdata, List.append_nil, newly_nil]
  · rw [if_neg hdata, f.settle_of_le h, if_neg Bool.false_ne_true, f.pushSynced_eq _ hnone hdata,
      f.tail_append s data]
    rfl

/-- A chunk in discard mode that contains no whole delimiter changes nothing. -/
theorem pushBytesInternal_discard_none (pos : ℕ) {data : List UInt8}
    (h : f.find data = none) :
    f.pushBytesInternal pos ⟨0,[],true⟩ data = (⟨0,[],true⟩,[]) := by
  unfold pushBytesInternal
  split
  · rfl
  · simp only [↓reduceIte, skipUntilDelimiter, h, Option.map_none]

/-- In discard mode the first delimiter inside the chunk is taken for the end of the
lost segment, and the rest of the chunk is split from there. -/
theorem pushBytesInternal_discard_some (pos : ℕ) {data : List UInt8} {i : ℕ}
    (h : f.find data = some i) :
    f.pushBytesInternal pos ⟨0,[],true⟩ data =
      (f.settle (f.tail (data.drop (i + f.delimiter.length))),
        f.emits (pos + (i + f.delimiter.length))
          (f.split (data.drop (i + f.delimiter.length))).1) := by
  have hne : data ≠ [] := by
    rintro rfl
    rw [find_nil] at h
    cases h
  rw [pushBytesInternal, if_neg hne, if_pos rfl, skipUntilDelimiter, h]
  simp only [Option.map_some]
  by_cases hrest : data.drop (i + f.delimiter.length) = []
  · rw [if_pos hrest, hrest, tail, split_nil, settle_nil]
    rfl
  · have he := f.pushSynced_eq (pos + (i + f.delimiter.length)) (u := []) f.find_nil hrest
    rw [if_neg hrest]
    simpa using he

/-- Holds along a whole stream what every internal chunk preserves. -/
theorem pushLoop_invariant {P : List UInt8 → LineState → List Message → Prop}
    (step : ∀ s st out piece, piece.length ≤ f.chunkLimit → P s st out →
      P (s ++ piece) (f.pushBytesInternal s.length st piece).1
        (out ++ (f.pushBytesInternal s.length st piece).2))
    {fuel : ℕ} {s : List UInt8} {st : LineState} {out : List Message} (data : List UInt8)
    (hf : data.length ≤ fuel) (h : P s st out) :
    P (s ++ data) (f.pushLoop fuel s.length st data).1
      (out ++ (f.pushLoop fuel s.length st data).2) := by
  induction fuel generalizing s st out data with
  | zero =>
    have hd : data = [] := List.length_eq_zero_iff.mp (by omega)
    simpa [hd, pushLoop] using h
  | succ fuel ih =>
    by_cases hd : data = []
    · simpa [hd, pushLoop] using h
    · have hl := List.length_pos_iff.mpr hd
      have hc : 0 < f.chunkLimit := by unfold chunkLimit; omega
      have hlen : (data.take (min data.length f.chunkLimit)).length =
          min data.length f.chunkLimit := by rw [List.length_take]; omega
      have h1 := step s st out (data.take (min data.length f.chunkLimit)) (by omega) h
      have h2 := ih (data.drop (min data.length f.chunkLimit))
        (by rw [List.length_drop]; omega) h1
      simp only [pushLoop, if_neg hd]
      rw [List.append_assoc, List.take_append_drop, List.length_append, hlen] at h2
      rwa [← List.append_assoc]

theorem pushAll_invariant {P : List UInt8 → LineState → List Message → Prop}
    (step : ∀ s st out piece, piece.length ≤ f.chunkLimit → P s st out →
      P (s ++ piece) (f.pushBytesInternal s.length st piece).1
        (out ++ (f.pushBytesInternal s.length st piece).2))
    (s : List UInt8) (st : LineState) (out : List Message) (chunks : List (List UInt8))
    (h : P s st out) :
    P (s ++ chunks.flatten) (f.pushAll s.length st chunks).1
      (out ++ (f.pushAll s.length st chunks).2) := by
  induction chunks generalizing s st out with
  | nil => simpa [pushAll] using h
  | cons c cs ih =>
    have h1 := ih _ _ _ (f.pushLoop_invariant step c le_rfl h)
    rw [List.length_append] at h1
    simpa [pushAll, pushBytes] using h1

end LineFramer
end Wirestead.Framer
