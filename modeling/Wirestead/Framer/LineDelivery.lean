import Wirestead.Framer.LineReference

/-! # What the delimiter framer delivers

Without an overflow, or with a one-byte delimiter, the messages are those of the
reference split whatever the chunks are, as long as the search can find the delimiter.
After an overflow the framer resumes at the next delimiter that a chunk contains; with
a delimiter that overlaps itself this need not be the end of a segment.
-/
namespace Wirestead.Framer.LineFramer
open Words
variable (f : LineFramer)

/-- The state is a function of the stream, and the messages are those found in it. -/
def Follows (s : List UInt8) (st : LineState) (out : List Message) : Prop :=
  st = f.settle (f.tail s) ∧ out = f.found s

theorem follows_reset : f.Follows [] .reset [] := by
  refine ⟨?_,?_⟩
  · rw [tail, split_nil, settle_nil]
  · rw [found, split_nil]
    rfl

theorem Follows.synced {f : LineFramer} {s : List UInt8} {st : LineState} {out : List Message}
    (h : f.Follows s st out)
    (hl : (f.tail s).length ≤ maxPartialLength f.maxLength f.delimiter.length) (data : List UInt8) :
    f.Follows (s ++ data) (f.pushBytesInternal s.length st data).1
      (out ++ (f.pushBytesInternal s.length st data).2) := by
  obtain ⟨rfl,rfl⟩ := h
  rw [f.pushBytesInternal_synced s data hl]
  exact ⟨rfl,(f.found_append s data).symm⟩

/-- What is never found is never given up for a delimiter either: the stream stays in
the buffer until it overflows, and discard mode does not end. -/
theorem Follows.missed {f : LineFramer} {s : List UInt8} {st : LineState} {out : List Message}
    (h : f.Follows s st out) (hf : ¬f.Findable) (data : List UInt8) :
    f.Follows (s ++ data) (f.pushBytesInternal s.length st data).1
      (out ++ (f.pushBytesInternal s.length st data).2) := by
  by_cases hl : (f.tail s).length ≤ maxPartialLength f.maxLength f.delimiter.length
  · exact h.synced hl data
  obtain ⟨rfl,rfl⟩ := h
  have hover := Nat.not_le.mp hl
  rw [f.settle_of_lt hover, f.pushBytesInternal_discard_none _ (find_of_not_findable hf data)]
  rw [tail_of_not_findable hf] at hover
  refine ⟨?_,?_⟩
  · rw [tail_of_not_findable hf, f.settle_of_lt (by rw [List.length_append]; omega)]
  · rw [found_of_not_findable hf, found_of_not_findable hf, List.append_nil]

theorem Follows.single {f : LineFramer} {s : List UInt8} {st : LineState} {out : List Message}
    (h : f.Follows s st out) (h1 : f.delimiter.length = 1) (data : List UInt8) :
    f.Follows (s ++ data) (f.pushBytesInternal s.length st data).1
      (out ++ (f.pushBytesInternal s.length st data).2) := by
  by_cases hl : (f.tail s).length ≤ maxPartialLength f.maxLength f.delimiter.length
  · exact h.synced hl data
  obtain ⟨rfl,rfl⟩ := h
  have hf : f.Findable := .inl h1
  have hover : f.maxLength < (f.tail s).length := by unfold maxPartialLength at hl; omega
  have hnone : search f.delimiter (f.tail s) = none := by
    rw [← hf.find_eq]
    exact f.find_split_tail s
  have hfree : ∀ j < (f.tail s).length, ¬OccursAt f.delimiter (f.tail s ++ data) j :=
    fun j hj ho => search_eq_none.mp hnone j (ho.of_append hj (by omega))
  rw [f.settle_of_lt (Nat.not_le.mp hl)]
  unfold Follows
  rw [tail_append, found_append]
  cases hs : search f.delimiter data with
  | none =>
    have hw : f.find (f.tail s ++ data) = none := by
      rw [hf.find_eq]
      refine search_eq_none.mpr (fun i ho => ?_)
      by_cases hi : i < (f.tail s).length
      · exact hfree i hi ho
      · rw [show i = (f.tail s).length + (i - (f.tail s).length) by omega] at ho
        exact search_eq_none.mp hs _ (occursAt_append_right.mp ho)
    rw [f.pushBytesInternal_discard_none _ ((hf.find_eq data).trans hs), f.split_none hw]
    exact ⟨(f.settle_of_lt (by unfold maxPartialLength; rw [List.length_append]; omega)).symm,rfl⟩
  | some i =>
    obtain ⟨ho,hmin⟩ := search_eq_some.mp hs
    have hw : f.find (f.tail s ++ data) = some ((f.tail s).length + i) := by
      rw [hf.find_eq]
      refine search_eq_some.mpr ⟨occursAt_append_right.mpr ho,fun j hj hoj => ?_⟩
      by_cases hi : j < (f.tail s).length
      · exact hfree j hi hoj
      · rw [show j = (f.tail s).length + (j - (f.tail s).length) by omega] at hoj
        exact hmin _ (by omega) (occursAt_append_right.mp hoj)
    have hdrop : (f.tail s ++ data).drop ((f.tail s).length + i + f.delimiter.length) =
        data.drop (i + f.delimiter.length) := by
      rw [List.drop_append, List.drop_of_length_le (by omega), List.nil_append]
      congr 1
      omega
    have hil := search_lt hs
    have htl := f.tail_length_le s
    have hlen : ((f.tail s ++ data).take ((f.tail s).length + i)).length = (f.tail s).length + i := by
      rw [List.length_take, List.length_append]
      omega
    rw [f.pushBytesInternal_discard_some _ ((hf.find_eq data).trans hs), f.split_some hw, hdrop,
      emits_cons, hlen, if_pos (by omega), List.nil_append]
    refine ⟨rfl,congrArg (f.found s ++ ·) ?_⟩
    dsimp only
    congr 1
    omega

def Fits (stream : List UInt8) : Prop :=
  (∀ c ∈ (segments f.delimiter stream).1, c.length ≤ f.maxLength) ∧
    (segments f.delimiter stream).2.length ≤ f.maxLength

/-- A prefix of a stream that fits never fills the buffer beyond the partial bound:
its tail is a piece of one content, or that content and a part of its delimiter. -/
theorem Fits.tail_le_partial {f : LineFramer} {s t : List UInt8} (h : f.Fits (s ++ t))
    (hf : f.Findable) : (f.tail s).length ≤ maxPartialLength f.maxLength f.delimiter.length := by
  have hd := List.length_pos_iff.mpr f.delimiter_ne
  have hnone : search f.delimiter (f.tail s) = none := by
    rw [← hf.find_eq]
    exact f.find_split_tail s
  obtain ⟨hc,ht⟩ := h
  rw [segments_append f.delimiter_ne, ← hf.tail_eq s] at ht hc
  unfold maxPartialLength
  cases hs : search f.delimiter (f.tail s ++ t) with
  | none =>
    rw [segments_none hs, List.length_append] at ht
    omega
  | some i =>
    obtain ⟨ho,-⟩ := search_eq_some.mp hs
    have hil := ho.le_length
    rw [segments_some f.delimiter_ne hs] at hc
    have hci := hc ((f.tail s ++ t).take i) (by simp)
    rw [List.length_take, Nat.min_eq_left (by omega)] at hci
    by_contra hlt
    exact search_eq_none.mp hnone i (ho.of_append (by omega) (by omega))

/-- How the stream is cut makes no difference: nothing is given up, or only what a
one-byte delimiter ends, or nothing is found at all. -/
def Steady (stream : List UInt8) : Prop :=
  ¬f.Findable ∨ f.delimiter.length = 1 ∨ f.Fits stream

theorem Follows.run {f : LineFramer} {s : List UInt8} {st : LineState} {out : List Message}
    (hs : f.Follows s st out) (chunks : List (List UInt8)) (h : f.Steady (s ++ chunks.flatten)) :
    f.Follows (s ++ chunks.flatten) (f.pushAll s.length st chunks).1
      (out ++ (f.pushAll s.length st chunks).2) := by
  refine f.pushAll_invariant (P := fun w st out => w <+: s ++ chunks.flatten → f.Follows w st out)
    ?_ s st out chunks (fun _ => hs) (List.prefix_refl _)
  intro w st out piece _ hP hpre
  have hw := hP ((List.prefix_append w piece).trans hpre)
  by_cases hf : f.Findable
  · rcases h.resolve_left (not_not.mpr hf) with h1 | hfit
    · exact hw.single h1 piece
    · obtain ⟨t,ht⟩ := hpre
      rw [← ht, List.append_assoc] at hfit
      exact hw.synced (hfit.tail_le_partial hf) piece
  · exact hw.missed hf piece

def contents (stream : List UInt8) : List (List UInt8) :=
  ((segments f.delimiter stream).1.filter (fun c => c.length ≤ f.maxLength)).map f.payload

theorem map_snd_reference (stream : List UInt8) :
    (f.reference stream).map Prod.snd = f.contents stream := by
  rw [reference, map_snd_emits, contents]

theorem Fits.contents_eq_nil_iff {f : LineFramer} {stream : List UInt8} (h : f.Fits stream) :
    f.contents stream = [] ↔ search f.delimiter stream = none := by
  cases hs : search f.delimiter stream with
  | none => simp [contents, segments_none hs]
  | some i =>
    have hc := h.1 (stream.take i) (by simp [segments_some f.delimiter_ne hs])
    simp only [contents, segments_some f.delimiter_ne hs, List.filter_cons, decide_eq_true hc]
    simp

/-- The reference split whatever the chunking: with a one-byte delimiter, or when
every segment and the tail are within the limit, the messages are those called for
exactly when the search can find the delimiter or has none to find. -/
theorem pushAll_eq_split_iff (chunks : List (List UInt8))
    (h : f.delimiter.length = 1 ∨ f.Fits chunks.flatten) :
    (f.pushAll 0 .reset chunks).2.map Prod.snd = f.contents chunks.flatten ↔
      f.Findable ∨ search f.delimiter chunks.flatten = none := by
  have hout : (f.pushAll 0 .reset chunks).2 = f.found chunks.flatten :=
    (f.follows_reset.run chunks (.inr h)).2
  rw [hout]
  by_cases hf : f.Findable
  · rw [hf.found_eq, map_snd_reference]
    exact iff_of_true rfl (.inl hf)
  · have hfit : f.Fits chunks.flatten := h.resolve_left (fun h1 => hf (.inl h1))
    rw [found_of_not_findable hf, List.map_nil, eq_comm, hfit.contents_eq_nil_iff]
    exact (or_iff_right hf).symm

theorem pushAll_eq_split_crlf :
    ((LineFramer.make [13,10] false 3).pushAll 0 .reset [[97,98,99,13],[10,100],[13,10]]).2.map
      Prod.snd = [[97,98,99],[100]] := by
  refine ((pushAll_eq_split_iff _ _ (.inr ⟨?_,?_⟩)).mpr (.inl ?_)).trans ?_ <;>
    decide +kernel

theorem two_byte_letter_missed :
    ¬∀ (f : LineFramer) (chunks : List (List UInt8)),
      f.delimiter.length = 1 ∨ f.Fits chunks.flatten →
      (f.pushAll 0 .reset chunks).2.map Prod.snd = f.contents chunks.flatten := by
  intro h
  have hmade := h (.make [0xC3,0xA9] false 16) [[97,0xC3,0xA9]] (.inr ⟨by decide,by decide⟩)
  revert hmade
  decide +kernel

/-- Either the state follows the stream, or everything since an overflow was dropped;
the messages so far are some of the reference's, in order. -/
def Sound (s : List UInt8) (st : LineState) (out : List Message) : Prop :=
  (st = f.settle (f.tail s) ∨ st = ⟨0,[],true⟩) ∧ out.Sublist (f.found s)

def Resyncs (s data : List UInt8) : Prop :=
  ∀ i, f.find data = some i → f.tail (s ++ data.take (i + f.delimiter.length)) = []

theorem Sound.push {f : LineFramer} {s : List UInt8} {st : LineState} {out : List Message}
    (h : f.Sound s st out) {data : List UInt8} (hr : f.Resyncs s data) :
    f.Sound (s ++ data) (f.pushBytesInternal s.length st data).1
      (out ++ (f.pushBytesInternal s.length st data).2) := by
  obtain ⟨hst,hout⟩ := h
  by_cases hsync : st = f.settle (f.tail s) ∧
      (f.tail s).length ≤ maxPartialLength f.maxLength f.delimiter.length
  · obtain ⟨rfl,hl⟩ := hsync
    rw [f.pushBytesInternal_synced s data hl]
    refine ⟨.inl rfl,?_⟩
    rw [found_append]
    exact hout.append (List.Sublist.refl _)
  have hdis : st = ⟨0,[],true⟩ := by
    rcases hst with rfl | h
    · exact f.settle_of_lt (Nat.not_le.mp (fun hl => hsync ⟨rfl,hl⟩))
    · exact h
  subst hdis
  cases hs : f.find data with
  | none =>
    rw [f.pushBytesInternal_discard_none _ hs]
    refine ⟨.inr rfl,?_⟩
    rw [List.append_nil, found_append]
    exact hout.trans (List.sublist_append_left _ _)
  | some i =>
    have hil := search_lt (f.find_search hs).2
    have hlen : (data.take (i + f.delimiter.length)).length = i + f.delimiter.length := by
      rw [List.length_take]
      omega
    have hb := hr i hs
    have hsplit : s ++ data = (s ++ data.take (i + f.delimiter.length)) ++
        data.drop (i + f.delimiter.length) := by
      rw [List.append_assoc, List.take_append_drop]
    rw [f.pushBytesInternal_discard_some _ hs, hsplit]
    refine ⟨.inl ?_,?_⟩
    · rw [tail_append, hb, List.nil_append]
      rfl
    · rw [f.found_append (s ++ data.take (i + f.delimiter.length)), hb, List.nil_append,
        List.length_nil, Nat.sub_zero, List.length_append, hlen]
      refine List.Sublist.append (hout.trans ?_) (List.Sublist.refl _)
      rw [found_append]
      exact List.sublist_append_left _ _

theorem sound_reset : f.Sound [] .reset [] :=
  ⟨.inl (by rw [tail, split_nil, settle_nil]),List.nil_sublist _⟩

def NeverMisdelivers (chunks : List (List UInt8)) : Prop :=
  (f.pushAll 0 .reset chunks).2.Sublist (f.reference chunks.flatten)

theorem neverMisdelivers_of_resyncs
    (h : ∀ s piece, piece.length ≤ f.chunkLimit → f.Resyncs s piece)
    (chunks : List (List UInt8)) : f.NeverMisdelivers chunks := by
  have hrun := f.pushAll_invariant (P := f.Sound)
    (fun s st out piece hp hP => hP.push (h s piece hp)) [] .reset [] chunks
    f.sound_reset
  exact hrun.2.trans (f.found_sublist _)

theorem resyncs_of_unbordered (hu : Unbordered f.delimiter) (s data : List UInt8) :
    f.Resyncs s data := by
  intro i hi
  obtain ⟨hf,hi⟩ := f.find_search hi
  have ho := (search_eq_some.mp hi).1
  have htake : data.take (i + f.delimiter.length) = data.take i ++ f.delimiter := by
    rw [List.take_add, ho.take_drop]
  rw [hf.tail_eq, htake, ← List.append_assoc]
  exact hu.boundary f.delimiter_ne _

theorem resyncs_of_short {s data : List UInt8} (h : data.length < f.delimiter.length) :
    f.Resyncs s data := by
  intro i hi
  have hi := (f.find_search hi).2
  rw [search_short h] at hi
  cases hi

theorem resyncs_of_not_findable (hf : ¬f.Findable) (s data : List UInt8) : f.Resyncs s data := by
  intro i hi
  exact absurd (f.find_search hi).1 hf

/-- A stream without the delimiter, longer than any partial message, leaves nothing
but discard mode behind, however it was cut. -/
theorem pushAll_overflow (chunks : List (List UInt8))
    (hfree : search f.delimiter chunks.flatten = none)
    (hlong : maxPartialLength f.maxLength f.delimiter.length < chunks.flatten.length) :
    f.pushAll 0 .reset chunks = (⟨0,[],true⟩,[]) := by
  have hrun := f.pushAll_invariant
    (P := fun s st out => s <+: chunks.flatten → f.Sound s st out) ?_ [] .reset [] chunks
    (fun _ => f.sound_reset)
  · obtain ⟨hst,hout⟩ := hrun (by simp)
    simp only [List.nil_append, List.length_nil, tail, found,
      f.split_none (f.find_of_search hfree)] at hst hout
    rw [f.settle_of_lt hlong, or_self] at hst
    exact Prod.ext hst (List.sublist_nil.mp hout)
  · intro s st out piece _ hP hpre
    refine (hP ((List.prefix_append s piece).trans hpre)).push (fun i hi => ?_)
    obtain ⟨t,ht⟩ := hpre
    rw [← ht, List.append_assoc] at hfree
    exact absurd (occursAt_append_right.mpr ((search_eq_some.mp (f.find_search hi).2).1.append t))
      (search_eq_none.mp hfree _)

theorem pushBytes_delimiter (hf : f.Findable) (hl : f.delimiter.length ≤ f.chunkLimit) (pos : ℕ) :
    f.pushBytes pos ⟨0,[],true⟩ f.delimiter = (.reset,[]) ∧
      f.pushBytes pos .reset f.delimiter = (.reset,[(pos,f.payload [])]) := by
  have hd := List.length_pos_iff.mpr f.delimiter_ne
  have hself : f.find f.delimiter = some 0 := by
    rw [hf.find_eq]
    simpa using search_self_append f.delimiter_ne []
  have hsplit : f.split f.delimiter = ([[]],[]) := by
    rw [f.split_some hself]
    simp
  have hone : ∀ st, f.pushBytes pos st f.delimiter = f.pushBytesInternal pos st f.delimiter := by
    intro st
    unfold pushBytes
    cases hn : f.delimiter.length with
    | zero => omega
    | succ n =>
      rw [pushLoop, if_neg f.delimiter_ne, Nat.min_eq_left hl]
      simp only [List.take_length, List.drop_length]
      cases n <;> simp [pushLoop]
  rw [hone, hone, f.pushBytesInternal_discard_some pos hself]
  constructor
  · simp [tail, emits, label, settle_nil]
  · have he := f.pushSynced_eq pos (u := []) f.find_nil f.delimiter_ne
    rw [pushBytesInternal, if_neg f.delimiter_ne, if_neg (by simp [LineState.reset])]
    refine he.trans ?_
    simp [tail, hsplit, emits, label, settle_nil]

theorem bordered_misdelivers (hf : f.Findable) {k : ℕ} (hk : 0 < k) (hkd : k < f.delimiter.length)
    (hb : f.delimiter.take k = f.delimiter.drop (f.delimiter.length - k))
    (hl : f.delimiter.length ≤ f.chunkLimit) {b : UInt8} (hhead : f.delimiter.head? ≠ some b) :
    ¬f.NeverMisdelivers [List.replicate (f.maxLength + f.delimiter.length) b,
      f.delimiter.take (f.delimiter.length - k),f.delimiter,f.delimiter] := by
  set d := f.delimiter with hd
  set p := d.length - k with hp
  set x := List.replicate (f.maxLength + d.length) b with hx
  have hxl : x.length = f.maxLength + d.length := by rw [hx, List.length_replicate]
  have hpl : (d.take p).length = p := by rw [List.length_take]; omega
  -- no delimiter starts among the filling bytes
  have hstart : ∀ t j, j < x.length → ¬OccursAt d (x ++ t) j := by
    intro t j hj ho
    apply hhead
    have hh := ho.2
    rw [List.drop_append_of_le_length hj.le, hx, List.drop_replicate] at hh
    obtain ⟨m,hm⟩ : ∃ m, f.maxLength + d.length - j = m + 1 :=
      ⟨f.maxLength + d.length - j - 1,by omega⟩
    rw [hm, List.replicate_succ, List.cons_append] at hh
    obtain ⟨u,hu⟩ := hh
    cases hdd : d with
    | nil => exact absurd hdd f.delimiter_ne
    | cons a as =>
      rw [hdd, List.cons_append] at hu
      exact congrArg some (List.cons.inj hu).1
  have hfree : search d [x,d.take p].flatten = none := by
    refine search_eq_none.mpr (fun i ho => ?_)
    simp only [List.flatten_cons, List.flatten_nil, List.append_nil] at ho
    have hle := ho.le_length
    rw [List.length_append, hpl] at hle
    exact hstart _ i (by omega) ho
  have hover := f.pushAll_overflow [x,d.take p] hfree (by
    simp only [List.flatten_cons, List.flatten_nil, List.append_nil, List.length_append, hxl]
    rw [maxPartialLength, ← hd]
    omega)
  have hsync := (f.pushBytes_delimiter hf hl (x.length + p)).1
  have hmsg := (f.pushBytes_delimiter hf hl (x.length + p + d.length)).2
  rw [← hd] at hsync hmsg
  have hout : (f.pushAll 0 .reset [x,d.take p,d,d]).2 = [(x.length + p + d.length,f.payload [])] := by
    simp only [pushAll, List.append_nil, Nat.zero_add] at hover ⊢
    obtain ⟨h1,h2⟩ := Prod.ext_iff.mp hover
    simp only [List.append_eq_nil_iff] at h1 h2
    simp only [h1, h2, hpl, hsync, hmsg, List.nil_append]
  -- the border makes the stream two overlapping delimiters after the filling
  have hstream : [x,d.take p,d,d].flatten = x ++ (d ++ (d.drop k ++ d)) := by
    have hov : d.take p ++ d = d ++ d.drop k := by
      calc d.take p ++ d = d.take p ++ (d.take k ++ d.drop k) := by rw [List.take_append_drop]
        _ = d ++ d.drop k := by rw [hb, ← List.append_assoc, List.take_append_drop]
    simp only [List.flatten_cons, List.flatten_nil, List.append_nil]
    rw [← List.append_assoc (d.take p), hov, List.append_assoc]
  intro hsub
  rw [NeverMisdelivers, hout, hstream] at hsub
  have hmem := hsub.subset (List.mem_singleton_self _)
  simp only [reference, emits, List.mem_map, List.mem_filter] at hmem
  obtain ⟨m,⟨hm,-⟩,he⟩ := hmem
  have hm1 : m.1 = x.length + p + d.length := congrArg Prod.fst he
  have hfirst : search d (x ++ (d ++ (d.drop k ++ d))) = some x.length := by
    refine search_eq_some.mpr ⟨?_,fun j hj => hstart _ j hj⟩
    simpa using (occursAt_append_right (s := x) (i := 0)).mpr
      (occursAt_self_append f.delimiter_ne (d.drop k ++ d))
  have hcut : (x ++ (d ++ (d.drop k ++ d))).drop (x.length + d.length) = d.drop k ++ d := by
    rw [← List.append_assoc, ← List.length_append, List.drop_left]
  have hnext : OccursAt d (d.drop k ++ d) p := by
    have h := (occursAt_append_right (s := d.drop k) (i := 0)).mpr
      (occursAt_self_append f.delimiter_ne [])
    simpa [List.length_drop] using h
  obtain ⟨q,hq,hsq⟩ := search_isSome_of_occursAt hnext
  rw [segments_some f.delimiter_ne hfirst, hcut, segments_some f.delimiter_ne hsq] at hm
  simp only [label, List.take_left, List.mem_cons, ← hd] at hm
  rcases hm with rfl | rfl | hm
  · simp only at hm1
    omega
  · simp only at hm1
    omega
  · have hge := le_of_mem_label hm
    omega

/-- The framer never delivers anything but whole segments at their own positions,
over all streams and chunkings, exactly when the delimiter has no border, is longer than
any internal chunk so that discard mode never ends, or has more than one byte and one
from 0x80 on, so that it is never found. -/
theorem neverMisdelivers_iff :
    (∀ chunks, f.NeverMisdelivers chunks) ↔
      Unbordered f.delimiter ∨ f.chunkLimit < f.delimiter.length ∨ ¬f.Findable := by
  constructor
  · intro h
    by_contra hn
    obtain ⟨hbord,hn⟩ := not_or.mp hn
    obtain ⟨hl,hf⟩ := not_or.mp hn
    unfold Unbordered at hbord
    push Not at hbord
    obtain ⟨k,hk,hkd,hb⟩ := hbord
    obtain ⟨b,hhead⟩ : ∃ b : UInt8, f.delimiter.head? ≠ some b := by
      by_cases h0 : f.delimiter.head? = some 0
      · exact ⟨1,by rw [h0]; decide⟩
      · exact ⟨0,h0⟩
    exact f.bordered_misdelivers (not_not.mp hf) hk hkd hb (Nat.not_lt.mp hl) hhead (h _)
  · rintro (hu | hl | hf) chunks
    · exact f.neverMisdelivers_of_resyncs (fun s piece _ => f.resyncs_of_unbordered hu s piece) chunks
    · exact f.neverMisdelivers_of_resyncs (fun s piece hp => f.resyncs_of_short (by omega)) chunks
    · exact f.neverMisdelivers_of_resyncs (fun s piece _ => f.resyncs_of_not_findable hf s piece) chunks

/-- With the delimiter `aa` and a limit of one byte, `xxx a aa baa` delivers `b`, while
the segments are `xxx` and `ab`. -/
theorem doubled_delimiter_misdelivers :
    ¬(LineFramer.make [97,97] false 1).NeverMisdelivers
      [[120,120,120],[97],[97,97],[98,97,97]] := by
  unfold NeverMisdelivers
  decide

end Wirestead.Framer.LineFramer
