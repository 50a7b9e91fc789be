import Wirestead.Framer.LineDelivery
import Wirestead.Framer.LengthPrefixDecode
import Wirestead.Framer.PacketDelivery

/-! # The built-in framers as one type

Here messages are bytes alone. As long as nothing has to be given up, a framer's
messages and what it keeps do not depend on how its input is cut into pushes.
-/
namespace Wirestead.Framer
open Words

/-- Two results of a push that differ in the labels of their messages only. -/
def SameBytes {σ : Type} (a b : σ × List Message) : Prop :=
  a.1 = b.1 ∧ a.2.map Prod.snd = b.2.map Prod.snd

theorem map_snd_shift (pos : ℕ) (out : List Message) :
    (shift pos out).map Prod.snd = out.map Prod.snd := by
  rw [shift, List.map_map]
  rfl

namespace LineFramer
variable (f : LineFramer)

theorem pushSynced_label (p q : ℕ) (s : LineState) (data : List UInt8) :
    SameBytes (f.pushSynced p s data) (f.pushSynced q s data) := by
  unfold pushSynced SameBytes
  dsimp only
  split_ifs <;> simp only [map_snd_shift, and_self]

theorem pushBytesInternal_label (p q : ℕ) (s : LineState) (data : List UInt8) :
    SameBytes (f.pushBytesInternal p s data) (f.pushBytesInternal q s data) := by
  unfold pushBytesInternal
  split
  · exact ⟨rfl,rfl⟩
  · split
    · split
      · exact ⟨rfl,rfl⟩
      · dsimp only
        split
        · exact ⟨rfl,rfl⟩
        · exact f.pushSynced_label _ _ _ _
    · exact f.pushSynced_label _ _ _ _

theorem pushLoop_label (fuel p q : ℕ) (s : LineState) (data : List UInt8) :
    SameBytes (f.pushLoop fuel p s data) (f.pushLoop fuel q s data) := by
  induction fuel generalizing p q s data with
  | zero => exact ⟨rfl,rfl⟩
  | succ fuel ih =>
    unfold pushLoop
    split
    · exact ⟨rfl,rfl⟩
    · obtain ⟨h1,h2⟩ := f.pushBytesInternal_label p q s (data.take (min data.length f.chunkLimit))
      obtain ⟨h3,h4⟩ := ih (p + min data.length f.chunkLimit) (q + min data.length f.chunkLimit)
        (f.pushBytesInternal p s (data.take (min data.length f.chunkLimit))).1
        (data.drop (min data.length f.chunkLimit))
      dsimp only
      rw [← h1]
      exact ⟨h3,by rw [List.map_append, List.map_append, h2, h4]⟩

theorem pushBytes_label (p q : ℕ) (s : LineState) (data : List UInt8) :
    SameBytes (f.pushBytes p s data) (f.pushBytes q s data) := f.pushLoop_label _ p q s data

/-- A state that is not discarding holds an unterminated tail within its bound. -/
def Settled (s : LineState) : Prop :=
  s = ⟨0,[],true⟩ ∨ ∃ u, f.find u = none ∧
    u.length ≤ maxPartialLength f.maxLength f.delimiter.length ∧ s = f.settle u

theorem settled_settle (w : List UInt8) : f.Settled (f.settle (f.tail w)) := by
  by_cases hl : (f.tail w).length ≤ maxPartialLength f.maxLength f.delimiter.length
  · exact .inr ⟨f.tail w,f.find_split_tail w,hl,rfl⟩
  · exact .inl (f.settle_of_lt (Nat.not_le.mp hl))

theorem tail_of_free {u : List UInt8} (h : f.find u = none) : f.tail u = u := by
  rw [tail, f.split_none h]

theorem Settled.push {f : LineFramer} {s : LineState} (h : f.Settled s) (pos : ℕ)
    (data : List UInt8) : f.Settled (f.pushBytesInternal pos s data).1 := by
  obtain rfl | ⟨u,hu,hl,rfl⟩ := h
  · cases hs : f.find data with
    | none =>
      rw [f.pushBytesInternal_discard_none pos hs]
      exact .inl rfl
    | some i =>
      rw [f.pushBytesInternal_discard_some pos hs]
      exact f.settled_settle _
  · have ht := f.tail_of_free hu
    have hp := f.pushBytesInternal_synced u data (by rwa [ht])
    rw [ht] at hp
    rw [(f.pushBytesInternal_label pos u.length _ data).1, hp]
    exact f.settled_settle _

theorem settled_reset : f.Settled .reset :=
  .inr ⟨[],f.find_nil,Nat.zero_le _,f.settle_nil.symm⟩

theorem settled_pushAll (chunks : List (List UInt8)) : f.Settled (f.pushAll 0 .reset chunks).1 :=
  f.pushAll_invariant (P := fun _ s _ => f.Settled s)
    (fun _ _ _ _ _ h => h.push _ _) [] .reset [] chunks f.settled_reset

/-- A reachable state follows some stream, the buffer itself when it is not discarding. -/
theorem exists_follows {s : LineState} {hist : List (List UInt8)}
    (hs : s = (f.pushAll 0 .reset hist).1) {input : List UInt8}
    (h : f.delimiter.length = 1 ∨ (s.discarding = false ∧ f.Fits (s.buffer ++ input))) :
    ∃ w out, f.Follows w s out ∧ f.Steady (w ++ input) := by
  by_cases hf : f.Findable
  swap
  · have hrun := f.follows_reset.run hist (.inl hf)
    exact ⟨hist.flatten,_,by rw [hs]; exact hrun,.inl hf⟩
  obtain h1 | ⟨hd,hfit⟩ := h
  · have hrun := f.follows_reset.run hist (.inr (.inl h1))
    exact ⟨hist.flatten,_,by rw [hs]; exact hrun,.inr (.inl h1)⟩
  · have hset := f.settled_pushAll hist
    rw [← hs] at hset
    obtain rfl | ⟨u,hu,hl,rfl⟩ := hset
    · cases hd
    · rw [f.settle_of_le hl] at hfit
      refine ⟨u,[],⟨by rw [f.tail_of_free hu],?_⟩,.inr (.inr hfit)⟩
      rw [found, f.split_none hu]
      rfl

end LineFramer

namespace LengthPrefixFramer
variable (f : LengthPrefixFramer)

/-- After a push no whole frame and no corrupt header is left. -/
theorem look_pushBytes (buffer data : List UInt8) :
    f.look (f.pushBytes buffer data).1 0 = .needMore := by
  rw [f.pushBytes_eq]
  rcases hd : f.decode (buffer ++ data) with ⟨_ | k,out⟩
  · exact f.look_nil
  · exact (f.decode_rest hd).2

theorem look_pushAll {buffer : List UInt8} (hb : f.look buffer 0 = .needMore)
    (chunks : List (List UInt8)) : f.look (f.pushAll buffer chunks).1 0 = .needMore := by
  induction chunks generalizing buffer with
  | nil => exact hb
  | cons c cs ih => exact ih (f.look_pushBytes buffer c)

end LengthPrefixFramer

namespace PacketFramer
variable (f : PacketFramer)

theorem collectLoop_label (fuel p q : ℕ) (s : PacketState) :
    SameBytes (f.collectLoop fuel p s) (f.collectLoop fuel q s) := by
  induction fuel generalizing p q s with
  | zero => exact ⟨rfl,rfl⟩
  | succ fuel ih =>
    have hcons : ∀ (p q k : ℕ) (t : PacketState) (m : List UInt8),
        SameBytes ((f.collectLoop fuel (p + k) t).1,(p,m) :: (f.collectLoop fuel (p + k) t).2)
          ((f.collectLoop fuel (q + k) t).1,(q,m) :: (f.collectLoop fuel (q + k) t).2) := by
      intro p q k t m
      obtain ⟨h1,h2⟩ := ih (p + k) (q + k) t
      exact ⟨h1,by rw [List.map_cons, List.map_cons, h2]⟩
    unfold collectLoop
    split
    · split
      · exact ih _ _ _
      · split
        · exact ih _ _ _
        · split <;> exact ⟨rfl,rfl⟩
    · split
      · exact hcons _ _ _ _ _
      · split
        · exact ⟨rfl,rfl⟩
        · split
          · dsimp only
            split
            · exact hcons _ _ _ _ _
            · exact ih _ _ _
          · split <;> exact ⟨rfl,rfl⟩

theorem pushBytes_label (p q : ℕ) (s : PacketState) (data : List UInt8) :
    SameBytes (f.pushBytes p s data) (f.pushBytes q s data) := by
  unfold pushBytes
  split
  · exact ⟨rfl,rfl⟩
  · dsimp only
    split
    · split <;> exact ⟨rfl,by simp only [map_snd_shift]⟩
    · exact f.collectLoop_label _ _ _ _

theorem Holds.push {f : PacketFramer} {s : PacketState} {r : List UInt8} (h : f.Holds s r)
    (pos : ℕ) (data : List UInt8) :
    f.Holds (f.pushBytes pos s data).1 (f.pushBytes pos s data).1.buffer := by
  by_cases hd : data = []
  · rw [pushBytes, if_pos hd, h.1]
    exact h
  · exact (f.pushBytes_eq pos h hd).2.held

theorem holds_pushAll {s : PacketState} (h : f.Holds s s.buffer) (pos : ℕ)
    (chunks : List (List UInt8)) :
    f.Holds (f.pushAll pos s chunks).1 (f.pushAll pos s chunks).1.buffer := by
  induction chunks generalizing s pos with
  | nil => exact h
  | cons c cs ih => exact ih (h.push pos c) _

/-- Only the residue that is held decides what comes later. -/
theorem Holds.indistinguishable {f : PacketFramer} {s t : PacketState} {r : List UInt8}
    (hs : f.Holds s r) (ht : f.Holds t r) (pos : ℕ) (chunks : List (List UInt8)) :
    (f.pushAll pos s chunks).2 = (f.pushAll pos t chunks).2 ∧
    (f.pushAll pos s chunks).1.buffer = (f.pushAll pos t chunks).1.buffer := by
  induction chunks generalizing s t r pos with
  | nil => exact ⟨rfl,hs.1.trans ht.1.symm⟩
  | cons c cs ih =>
    unfold pushAll
    dsimp only
    by_cases hc : c = []
    · simpa [pushBytes, hc] using ih hs ht pos
    · obtain ⟨hm,ho⟩ := f.pushBytes_eq pos hs hc
      obtain ⟨hm',ho'⟩ := f.pushBytes_eq pos ht hc
      rw [hm, hm']
      obtain ⟨hst,hl,he⟩ | ⟨hn,hh⟩ := ho
      · obtain ⟨-,-,he'⟩ | ⟨hn',-⟩ := ho'
        · rw [he, he']
          exact ⟨rfl,rfl⟩
        · exact absurd ⟨hst,hl⟩ hn'
      · obtain ⟨hst',hl',-⟩ | ⟨-,hh'⟩ := ho'
        · exact absurd ⟨hst',hl'⟩ hn
        · obtain ⟨h1,h2⟩ := ih hh hh' (pos + c.length)
          exact ⟨by rw [h1],h2⟩

end PacketFramer

/-- A built-in framer object: the constructor's arguments and the mutable members. -/
inductive BuiltinFramer
  | line (f : LineFramer) (s : LineState)
  | lengthPrefix (f : LengthPrefixFramer) (buffer : List UInt8)
  | packet (f : PacketFramer) (s : PacketState)
  deriving DecidableEq

namespace BuiltinFramer

def buffer : BuiltinFramer → List UInt8
  | .line _ s => s.buffer
  | .lengthPrefix _ buffer => buffer
  | .packet _ s => s.buffer

def reset : BuiltinFramer → BuiltinFramer
  | .line f _ => .line f .reset
  | .lengthPrefix f _ => .lengthPrefix f []
  | .packet f _ => .packet f .reset

/-- `push_bytes` through the common interface; the messages in the order of the callbacks. -/
def pushBytes : BuiltinFramer → List UInt8 → BuiltinFramer × List (List UInt8)
  | .line f s, data => (.line f (f.pushBytes 0 s data).1,(f.pushBytes 0 s data).2.map Prod.snd)
  | .lengthPrefix f b, data => (.lengthPrefix f (f.pushBytes b data).1,(f.pushBytes b data).2)
  | .packet f s, data => (.packet f (f.pushBytes 0 s data).1,(f.pushBytes 0 s data).2.map Prod.snd)

def pushAll : BuiltinFramer → List (List UInt8) → BuiltinFramer × List (List UInt8)
  | a, [] => (a,[])
  | a, c :: cs => ((pushAll (a.pushBytes c).1 cs).1,(a.pushBytes c).2 ++ (pushAll (a.pushBytes c).1 cs).2)

/-- The states some sequence of pushes leaves a new framer in. -/
def Reachable (a : BuiltinFramer) : Prop := ∃ chunks, a = (a.reset.pushAll chunks).1

/-- Nothing of the buffered bytes and the input has to be given up: no message is over
the limit and no header is corrupt. A one-byte delimiter needs nothing. -/
def Calm : BuiltinFramer → List UInt8 → Prop
  | .line f s, input => f.delimiter.length = 1 ∨ (s.discarding = false ∧ f.Fits (s.buffer ++ input))
  | .lengthPrefix f b, input => (f.decode (b ++ input)).1 ≠ none
  | .packet f s, input => f.Within (s.buffer ++ input)

/-- The same state, for the pattern framer up to its scan index and mode: the buffers
are the same, and so are messages and buffers after any further pushes. -/
def Same : BuiltinFramer → BuiltinFramer → Prop
  | .packet f s, .packet g t => f = g ∧ s.buffer = t.buffer ∧ ∀ chunks,
      ((packet f s).pushAll chunks).2 = ((packet f t).pushAll chunks).2 ∧
      ((packet f s).pushAll chunks).1.buffer = ((packet f t).pushAll chunks).1.buffer
  | a, b => a = b

theorem Same.refl (a : BuiltinFramer) : a.Same a := by
  cases a with
  | line f s => exact rfl
  | lengthPrefix f b => exact rfl
  | packet f s => exact ⟨rfl,rfl,fun _ => ⟨rfl,rfl⟩⟩

theorem pushAll_line (f : LineFramer) (pos : ℕ) (s : LineState) (chunks : List (List UInt8)) :
    (line f s).pushAll chunks =
      (.line f (f.pushAll pos s chunks).1,(f.pushAll pos s chunks).2.map Prod.snd) := by
  induction chunks generalizing pos s with
  | nil => rfl
  | cons c cs ih =>
    obtain ⟨h1,h2⟩ := f.pushBytes_label 0 pos s c
    rw [pushAll, LineFramer.pushAll]
    simp only [pushBytes, h1, h2, ih (pos + c.length), List.map_append]

theorem pushAll_packet (f : PacketFramer) (pos : ℕ) (s : PacketState) (chunks : List (List UInt8)) :
    (packet f s).pushAll chunks =
      (.packet f (f.pushAll pos s chunks).1,(f.pushAll pos s chunks).2.map Prod.snd) := by
  induction chunks generalizing pos s with
  | nil => rfl
  | cons c cs ih =>
    obtain ⟨h1,h2⟩ := f.pushBytes_label 0 pos s c
    rw [pushAll, PacketFramer.pushAll]
    simp only [pushBytes, h1, h2, ih (pos + c.length), List.map_append]

theorem pushAll_lengthPrefix (f : LengthPrefixFramer) (b : List UInt8) (chunks : List (List UInt8)) :
    (lengthPrefix f b).pushAll chunks = (.lengthPrefix f (f.pushAll b chunks).1,(f.pushAll b chunks).2) := by
  induction chunks generalizing b with
  | nil => rfl
  | cons c cs ih =>
    rw [pushAll, LengthPrefixFramer.pushAll]
    simp only [pushBytes, ih]

theorem pushAll_singleton (a : BuiltinFramer) (data : List UInt8) :
    a.pushAll [data] = a.pushBytes data := by
  simp only [pushAll, List.append_nil]

/-- An empty push does nothing. -/
theorem pushBytes_nil {a : BuiltinFramer} (hr : a.Reachable) : a.pushBytes [] = (a,[]) := by
  obtain ⟨hist,hist_eq⟩ := hr
  cases a with
  | line f s => rfl
  | lengthPrefix f b =>
    rw [reset, pushAll_lengthPrefix, BuiltinFramer.lengthPrefix.injEq] at hist_eq
    have hb := f.look_pushAll f.look_nil hist
    rw [← hist_eq.2] at hb
    simp only [pushBytes, f.pushBytes_eq, List.append_nil, f.decode_needMore hb, List.drop_zero]
  | packet f s => simp [pushBytes, PacketFramer.pushBytes]

/-- How the input is cut makes no difference when nothing has to be given up. -/
theorem pushAll_same {a : BuiltinFramer} (hr : a.Reachable) {chunks : List (List UInt8)}
    (h : a.Calm chunks.flatten) :
    (a.pushAll chunks).2 = (a.pushBytes chunks.flatten).2 ∧
    (a.pushAll chunks).1.Same (a.pushBytes chunks.flatten).1 := by
  obtain ⟨hist,hist_eq⟩ := hr
  rw [← pushAll_singleton]
  have hflat : [chunks.flatten].flatten = chunks.flatten := by simp
  cases a with
  | line f s =>
    rw [reset, pushAll_line f 0, BuiltinFramer.line.injEq] at hist_eq
    obtain ⟨w,out,hw,hcond⟩ := f.exists_follows hist_eq.2 h
    obtain ⟨h1,h2⟩ := hw.run chunks hcond
    obtain ⟨h3,h4⟩ := hw.run [chunks.flatten] (by rwa [hflat])
    rw [hflat] at h3 h4
    rw [pushAll_line f w.length, pushAll_line f w.length, h1, h3,
      List.append_cancel_left (h2.trans h4.symm)]
    exact ⟨rfl,rfl⟩
  | lengthPrefix f b =>
    rw [reset, pushAll_lengthPrefix, BuiltinFramer.lengthPrefix.injEq] at hist_eq
    have hb := f.look_pushAll f.look_nil hist
    rw [← hist_eq.2] at hb
    rcases hd : f.decode (b ++ chunks.flatten) with ⟨_ | k,out⟩
    · exact absurd (congrArg Prod.fst hd) h
    · rw [pushAll_lengthPrefix, pushAll_lengthPrefix, f.pushAll_eq_decode hb chunks hd,
        f.pushAll_eq_decode hb [chunks.flatten] (by rw [hflat]; exact hd), hflat]
      exact ⟨rfl,rfl⟩
  | packet f s =>
    rw [reset, pushAll_packet f 0, BuiltinFramer.packet.injEq] at hist_eq
    have hs := f.holds_pushAll (f.holds_reset) 0 hist
    rw [← hist_eq.2] at hs
    obtain ⟨h1,h2⟩ := f.pushAll_holds s.buffer.length chunks hs le_rfl h
    obtain ⟨h3,h4⟩ := f.pushAll_holds s.buffer.length [chunks.flatten] hs le_rfl (by rwa [hflat])
    rw [hflat] at h3 h4
    rw [pushAll_packet f s.buffer.length, pushAll_packet f s.buffer.length, h1, h3]
    refine ⟨rfl,rfl,h2.1.trans h4.1.symm,fun more => ?_⟩
    rw [pushAll_packet f 0, pushAll_packet f 0]
    obtain ⟨h5,h6⟩ := h2.indistinguishable h4 0 more
    exact ⟨by rw [h5],h6⟩

end BuiltinFramer
end Wirestead.Framer
