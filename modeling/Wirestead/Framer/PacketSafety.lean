import Wirestead.Framer.PacketDelivery

/-! # The pattern framer on every stream

Whatever the bytes and the chunks are, a message is a whole piece of the stream, the
messages come in order, and the buffer stays bounded. The loop with its defensive exit
made explicit computes the same, so the exit is never taken.
-/
namespace Wirestead.Framer.PacketFramer
open Words
variable (f : PacketFramer)

/-- The Sync/Collect loop that has no value where "should not happen" happens, nor when
the turns run out. -/
def collectLoopChecked : ℕ → ℕ → PacketState → Option (PacketState × List Message)
  | 0, _, _ => none
  | fuel + 1, pos, s =>
    match s.mode with
    | .sync =>
      if f.startPattern = [] then collectLoopChecked fuel pos { s with mode := .collect }
      else match search f.startPattern s.buffer with
        | some i => collectLoopChecked fuel (pos + i) ⟨.collect,s.buffer.drop i,f.startPattern.length⟩
        | none =>
          if 1 < f.startPattern.length then
            let keepLen := f.startPattern.length - 1
            some (if keepLen < s.buffer.length then
              { s with buffer := s.buffer.drop (s.buffer.length - keepLen) } else s,[])
          else some ({ s with buffer := [] },[])
    | .collect =>
      if f.endPattern = [] then
        let packetLen := f.startPattern.length
        (collectLoopChecked fuel (pos + packetLen)
          { s with buffer := s.buffer.drop packetLen, mode := .sync }).map
            fun r => (r.1,(pos,s.buffer.take packetLen) :: r.2)
      else if s.buffer.length < f.searchOffset s.scannedIdx then none
      else match searchFrom f.endPattern s.buffer (f.searchOffset s.scannedIdx) with
        | some j =>
          let packetLen := j + f.endPattern.length
          (collectLoopChecked fuel (pos + packetLen) ⟨.sync,s.buffer.drop packetLen,0⟩).map
            fun r => if packetLen ≤ f.maxLength then (r.1,(pos,s.buffer.take packetLen) :: r.2) else r
        | none =>
          if f.maxLength < s.buffer.length then some (.reset,[])
          else some ({ s with scannedIdx := s.buffer.length },[])

def pushBytesChecked (pos : ℕ) (s : PacketState) (data : List UInt8) :
    Option (PacketState × List Message) :=
  if data = [] ∨ s.buffer = [] then some (f.pushBytes pos s data)
  else
    let buffer := appendBytes s.buffer data 0
    f.collectLoopChecked (2 * buffer.length + 2) (pos - s.buffer.length) { s with buffer := buffer }

def pushAllChecked : ℕ → PacketState → List (List UInt8) → Option (PacketState × List Message)
  | _, s, [] => some (s,[])
  | pos, s, c :: cs =>
    (f.pushBytesChecked pos s c).bind fun r =>
      (pushAllChecked (pos + c.length) r.1 cs).map fun t => (t.1,r.2 ++ t.2)

/-- From a ready state the search never starts behind the buffer, and the turns suffice. -/
theorem collectLoopChecked_eq {fuel : ℕ} (pos : ℕ) {s : PacketState} (h : f.Ready s)
    (hf : turns s ≤ fuel) : f.collectLoopChecked fuel pos s = some (f.collectLoop fuel pos s) := by
  revert pos
  refine f.collect_induction (motive := fun fuel s => ∀ pos,
    f.collectLoopChecked fuel pos s = some (f.collectLoop fuel pos s)) ?_ ?_ ?_ ?_ h hf
  · intro fuel w idx ha ih pos
    simp only [collectLoopChecked, collectLoop, if_pos ha]
    exact ih pos
  · intro fuel w idx ha ih pos
    simp only [collectLoopChecked, collectLoop, if_neg ha]
    cases hs : search f.startPattern w with
    | none =>
      dsimp only
      split <;> rfl
    | some i => exact ih i hs _
  · intro fuel w idx he _ _ ih pos
    simp only [collectLoopChecked, collectLoop, if_pos he, ih]
    rfl
  · intro fuel w idx he _ hoff _ ih pos
    simp only [collectLoopChecked, collectLoop, if_neg he, if_neg (Nat.not_lt.mpr hoff)]
    cases hn : searchFrom f.endPattern w (f.searchOffset idx) with
    | none =>
      dsimp only
      split <;> rfl
    | some j =>
      dsimp only
      rw [(ih j hn).2]
      rfl

theorem pushBytesChecked_eq (pos : ℕ) {s : PacketState} {r : List UInt8} (h : f.Holds s r)
    (data : List UInt8) : f.pushBytesChecked pos s data = some (f.pushBytes pos s data) := by
  unfold pushBytesChecked
  by_cases hfast : data = [] ∨ s.buffer = []
  · rw [if_pos hfast]
  · have hd : data ≠ [] := fun hd => hfast (.inl hd)
    have hb : s.buffer ≠ [] := fun hb => hfast (.inr hb)
    have hready := h.ready data
    have happ : appendBytes s.buffer data 0 = r ++ data := by
      have := List.length_pos_iff.mpr hd
      rw [appendBytes, if_neg (by omega), h.1, List.drop_zero]
    rw [if_neg hfast, pushBytes, if_neg hd, if_neg hb]
    dsimp only
    rw [happ]
    apply f.collectLoopChecked_eq _ hready
    unfold turns
    split <;> simp

/-- What a stream has led to: the state holds its last bytes, the messages are whole
pieces of what comes before, and they are in order. -/
structure Safe (stream : List UInt8) (s : PacketState) (out : List Message) : Prop where
  holds : f.Holds s s.buffer
  kept : s.buffer <:+ stream
  before : ∀ m ∈ out, m.1 + m.2.length ≤ stream.length - s.buffer.length
  pieces : ∀ m ∈ out, m.2 = (stream.drop m.1).take m.2.length ∧
    Piece f.startPattern f.endPattern m.2 ∧ m.2.length ≤ f.maxLength
  ordered : out.Pairwise (fun m k => m.1 + m.2.length ≤ k.1)
  bounded : s.buffer.length ≤ max f.maxLength (f.startPattern.length - 1)

variable {f}

/-- What is held is bounded, by the limit once a packet has begun. -/
theorem Outcome.bounded {s : PacketState} {r : List UInt8} (h : f.Outcome s r) :
    s.buffer.length ≤ max f.maxLength (f.startPattern.length - 1) := by
  obtain ⟨-,-,rfl⟩ | ⟨hn,rfl,⟨-,-,hl⟩ | ⟨hst,-⟩⟩ := h
  · exact Nat.zero_le _
  · apply le_max_of_le_right
    omega
  · apply le_max_of_le_left
    exact Nat.le_of_not_lt (fun hlt => hn ⟨hst,hlt⟩)

/-- The buffer is the residue or empty. -/
theorem Outcome.buffer_suffix {s : PacketState} {r : List UInt8} (h : f.Outcome s r) : s.buffer <:+ r := by
  obtain ⟨-,-,rfl⟩ | ⟨-,rfl,-⟩ := h
  · exact List.nil_suffix
  · exact List.suffix_rfl

theorem mem_emits (he : f.endPattern ≠ []) {out : List Message} {m : Message} :
    m ∈ f.emits out ↔ m ∈ out ∧ m.2.length ≤ f.maxLength := by
  rw [emits, if_neg he, List.mem_filter, decide_eq_true_eq]

theorem emits_sublist (out : List Message) : (f.emits out).Sublist out := by
  unfold emits
  split
  · exact List.Sublist.refl _
  · exact List.filter_sublist

/-- One push. -/
theorem Safe.push (he : f.endPattern ≠ []) {stream : List UInt8} {s : PacketState} {out : List Message}
    (h : f.Safe stream s out) (data : List UInt8) :
    f.Safe (stream ++ data) (f.pushBytes stream.length s data).1
      (out ++ (f.pushBytes stream.length s data).2) := by
  by_cases hd : data = []
  · have hsame : f.pushBytes stream.length s data = (s,[]) := if_pos hd
    rw [hsame, hd]
    simpa using h
  obtain ⟨hmsg,hout⟩ := f.pushBytes_eq stream.length h.holds hd
  obtain ⟨pre,hpre⟩ := h.kept
  have hlen : stream.length = pre.length + s.buffer.length := by rw [← hpre, List.length_append]
  rw [show stream.length - s.buffer.length = pre.length by omega] at hmsg hout
  -- the bytes of the parse are the last ones of the stream
  have hstream : stream ++ data = pre ++ (s.buffer ++ data) := by rw [← hpre, List.append_assoc]
  have hpos := hlen
  set w := s.buffer ++ data with hw
  set t := f.pushBytes stream.length s data with ht
  obtain ⟨hpieces,hpair⟩ := packets_pieces (a := f.startPattern) he pre.length w
  have hrest := (packets_rest f.patterns_ne pre.length w).2
  have hsuffix : t.1.buffer <:+ (f.parse pre.length w).2 :=
    hout.buffer_suffix.trans (residue_suffix _)
  have hl1 := hsuffix.length_le
  have hl2 := hrest.length_le
  have htotal : (stream ++ data).length = pre.length + w.length := by rw [hstream, List.length_append]
  change (f.parse pre.length w).2.length ≤ w.length at hl2
  have hnew : ∀ m ∈ t.2, pre.length ≤ m.1 ∧
      m.1 + m.2.length ≤ pre.length + (w.length - (f.parse pre.length w).2.length) ∧
      m.2 = (w.drop (m.1 - pre.length)).take m.2.length ∧ Piece f.startPattern f.endPattern m.2 ∧
      m.2.length ≤ f.maxLength := by
    intro m hm
    rw [hmsg, mem_emits he] at hm
    obtain ⟨h1,h2,h3,h4⟩ := hpieces m hm.1
    exact ⟨h1,h2,h3,h4,hm.2⟩
  refine ⟨hout.held,?_,fun m hm => ?_,fun m hm => ?_,?_,hout.bounded⟩
  · rw [hstream]
    exact (hsuffix.trans hrest).trans (List.suffix_append _ _)
  · rw [htotal]
    obtain hm | hm := List.mem_append.mp hm
    · have := h.before m hm
      have hbuf : t.1.buffer.length ≤ w.length := hl1.trans hl2
      have hdata : w.length - t.1.buffer.length + t.1.buffer.length = w.length := by omega
      omega
    · have := (hnew m hm).2.1
      omega
  · obtain hm | hm := List.mem_append.mp hm
    · obtain ⟨h1,h2⟩ := h.pieces m hm
      have hbefore := h.before m hm
      refine ⟨?_,h2⟩
      rw [List.drop_append_of_le_length (by omega),
        List.take_append_of_le_length (by rw [List.length_drop]; omega)]
      exact h1
    · obtain ⟨h1,-,h3,h4,h5⟩ := hnew m hm
      refine ⟨?_,h4,h5⟩
      rw [hstream, List.drop_append, List.drop_of_length_le h1, List.nil_append]
      exact h3
  · rw [List.pairwise_append]
    refine ⟨h.ordered,?_,fun m hm k hk => ?_⟩
    · rw [hmsg]
      exact hpair.sublist (emits_sublist _)
    · have hb := h.before m hm
      have ha := (hnew k hk).1
      omega

theorem safe_reset : f.Safe [] .reset [] where
  holds := f.holds_reset
  kept := List.suffix_rfl
  before _ hm := absurd hm List.not_mem_nil
  pieces _ hm := absurd hm List.not_mem_nil
  ordered := List.Pairwise.nil
  bounded := Nat.zero_le _

theorem Safe.pushAll (he : f.endPattern ≠ []) {stream : List UInt8} {s : PacketState} {out : List Message}
    (h : f.Safe stream s out) (chunks : List (List UInt8)) :
    f.Safe (stream ++ chunks.flatten) (f.pushAll stream.length s chunks).1
      (out ++ (f.pushAll stream.length s chunks).2) := by
  induction chunks generalizing stream s out with
  | nil => simpa [PacketFramer.pushAll] using h
  | cons c cs ih =>
    have hnext := ih (h.push he c)
    rw [List.length_append, List.append_assoc, List.append_assoc] at hnext
    exact hnext

theorem pushAllChecked_eq (chunks : List (List UInt8)) (pos : ℕ) {s : PacketState}
    (h : f.Holds s s.buffer) : f.pushAllChecked pos s chunks = some (f.pushAll pos s chunks) := by
  induction chunks generalizing pos s with
  | nil => rfl
  | cons c cs ih =>
    have hnext : f.Holds (f.pushBytes pos s c).1 (f.pushBytes pos s c).1.buffer := by
      by_cases hc : c = []
      · rw [pushBytes, if_pos hc]
        exact h
      · exact (f.pushBytes_eq pos h hc).2.held
    rw [pushAllChecked, pushBytesChecked_eq f pos h, Option.bind_some, ih _ hnext]
    rfl

/-- Every message of every chunking of every stream is a contiguous piece of it from a
start pattern to the first end pattern, within the limit; the pieces are disjoint and in
order, the buffer is bounded, and the defensive exit is never taken. -/
theorem pushAll_safe (f : PacketFramer) (he : f.endPattern ≠ []) (chunks : List (List UInt8)) :
    let r := f.pushAll 0 .reset chunks
    (∀ m ∈ r.2, m.1 + m.2.length ≤ chunks.flatten.length ∧
      m.2 = (chunks.flatten.drop m.1).take m.2.length ∧
      f.startPattern <+: m.2 ∧ f.endPattern <:+ m.2 ∧
      (∀ k, f.startPattern.length ≤ k → OccursAt f.endPattern m.2 k →
        k + f.endPattern.length = m.2.length) ∧
      m.2.length ≤ f.maxLength) ∧
    r.2.Pairwise (fun m k => m.1 + m.2.length ≤ k.1) ∧
    r.1.buffer.length ≤ max f.maxLength (f.startPattern.length - 1) ∧
    f.pushAllChecked 0 .reset chunks = some r := by
  intro r
  have hsafe : f.Safe chunks.flatten r.1 r.2 := safe_reset.pushAll he chunks
  refine ⟨fun m hm => ?_,hsafe.ordered,hsafe.bounded,pushAllChecked_eq chunks 0 f.holds_reset⟩
  obtain ⟨h1,h2,h3⟩ := hsafe.pieces m hm
  exact ⟨(hsafe.before m hm).trans (Nat.sub_le _ _),h1,h2.begins,h2.ends,h2.first,h3⟩

/-- Garbage, an oversized packet and a packet whose end pattern is split. -/
theorem pushAll_safe_oversized :
    let f : PacketFramer := ⟨[2],[3,3],5,.inl (by decide)⟩
    (f.pushAll 0 .reset [[9,2,1,1,1,1],[3,3,2,7,3],[3,2]]).1.buffer.length ≤ max 5 0 :=
  (pushAll_safe ⟨[2],[3,3],5,.inl (by decide)⟩ (by decide) [[9,2,1,1,1,1],[3,3,2,7,3],[3,2]]).2.2.1

end Wirestead.Framer.PacketFramer
