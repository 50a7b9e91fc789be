import Wirestead.Framer.LineResets
import Wirestead.Framer.PacketResets

/-! # When a reset inside the callback ends the push

The length-prefix framer always sees it. The other two see it by their emptied buffer,
so only where they scan that.
-/
namespace Wirestead.Framer

namespace LengthPrefixFramer
variable (f : LengthPrefixFramer)

/-- The decoding loop returns at a reset, as it does at a corrupt header. -/
theorem pushLoopResetting_eq (buffer : List UInt8) (fuel consumed k : ℕ)
    (hc : consumed ≤ buffer.length) :
    f.pushLoopResetting fuel consumed k buffer = some
      (if 1 ≤ k ∧ k ≤ (f.pushLoop buffer fuel consumed).2.length then none
        else (f.pushLoop buffer fuel consumed).1,
        .cut [] k (if (f.pushLoop buffer fuel consumed).1 = none then [] else buffer)
          (f.pushLoop buffer fuel consumed).2) := by
  have hdone : ∀ k : ℕ, ¬(1 ≤ k ∧ k ≤ 0) := by omega
  induction fuel generalizing consumed k with
  | zero =>
    have h0 : ¬(1 ≤ k ∧ k ≤ (f.pushLoop buffer 0 consumed).2.length) := hdone k
    rw [if_neg h0]
    rfl
  | succ fuel ih =>
    have hspan := Nat.not_lt.mpr hc
    cases hk : f.look buffer consumed with
    | needMore =>
      simp only [pushLoopResetting, pushLoop, if_neg hspan, hk, List.length_nil, if_neg (hdone k),
        Pushed.cut]
      rfl
    | corrupt =>
      simp only [pushLoopResetting, pushLoop, if_neg hspan, hk, List.length_nil, if_neg (hdone k),
        Pushed.cut, if_true]
    | frame n =>
      have hn : f.prefixBytes + n ≤ (buffer.drop consumed).length :=
        f.look_frame_le (by rwa [f.look_drop hc] at hk)
      have hp := f.prefixBytes_pos
      rw [List.length_drop] at hn
      have hb : buffer ≠ [] := List.length_pos_iff.mp (by omega)
      simp only [pushLoopResetting, pushLoop, if_neg hspan, hk]
      by_cases h1 : k = 1
      · simp [h1, onMessage, Pushed.cut]
      · have hsame : onMessage [] k buffer = buffer := if_neg h1
        rw [hsame, if_neg hb, ih _ _ (by omega)]
        simp only [Option.map_some, List.length_cons, Pushed.cut, if_neg h1, Option.some.injEq,
          Prod.mk.injEq, and_true]
        split_ifs <;> first | rfl | omega

theorem pushBytesResetting_eq (k : ℕ) (buffer data : List UInt8) :
    f.pushBytesResetting k buffer data =
      some (.cut [] k (f.pushBytes buffer data).1 (f.pushBytes buffer data).2) := by
  unfold pushBytesResetting pushBytes
  generalize (if data = [] then buffer else buffer ++ data) = appended
  have hloop := f.pushLoopResetting_eq appended (appended.length + 1) 0 k (Nat.zero_le _)
  change f.pushLoopResetting (appended.length + 1) 0 k appended = some
    (if 1 ≤ k ∧ k ≤ (f.decode appended).2.length then none else (f.decode appended).1,
      .cut [] k (if (f.decode appended).1 = none then [] else appended) (f.decode appended).2) at hloop
  dsimp only
  rw [hloop]
  rcases hd : f.decode appended with ⟨_ | consumed,out⟩
  · simp only [if_true, ite_self]
  · have hle := Nat.not_lt.mpr (f.decode_rest hd).1
    by_cases hk : 1 ≤ k ∧ k ≤ out.length
    · simp only [if_pos hk, reduceCtorEq, if_false, Pushed.cut_of_le hk.1 hk.2]
    · simp only [if_neg hk, reduceCtorEq, if_false, Pushed.cut_of_not hk, if_neg hle]

end LengthPrefixFramer

namespace BuiltinFramer

def Sound : BuiltinFramer → Prop
  | .line f s => f.Settled s
  | .lengthPrefix _ _ => True
  | .packet f s => f.Holds s s.buffer

def SeesReset : BuiltinFramer → List UInt8 → ℕ → Prop
  | .line f s, data, k => f.SeesReset (LineFramer.held s) (f.pieces data) k
  | .lengthPrefix _ _, _, _ => True
  | .packet f s, data, k => f.SeesReset s.buffer data k

theorem sound_reset (a : BuiltinFramer) : a.reset.Sound := by
  cases a with
  | line f s => exact f.settled_reset
  | lengthPrefix f b => trivial
  | packet f s => exact f.holds_reset

/-- A push touches valid storage only, whatever the callback does. -/
theorem pushResetting_sound {a : BuiltinFramer} (h : a.Sound) (k : ℕ) (data : List UInt8) :
    ∃ r, a.pushResetting k data = some r ∧ r.state.Sound := by
  cases a with
  | line f s =>
    by_cases hk : k = 0
    · subst hk
      refine ⟨_,congrArg (Option.map _) (f.pushLoopResetting_zero data.length 0 s data),?_⟩
      exact f.settled_pushLoop data.length 0 h data
    · obtain ⟨r,hr,hs,-⟩ := f.pushBytesResetting_iff h data (Nat.one_le_iff_ne_zero.mpr hk)
      exact ⟨_,congrArg (Option.map _) hr,hs⟩
  | lengthPrefix f b => exact ⟨_,congrArg (Option.map _) (f.pushBytesResetting_eq k b data),trivial⟩
  | packet f s =>
    obtain ⟨r,hr,hs⟩ := f.pushBytesResetting_sound h k data
    exact ⟨_,congrArg (Option.map _) hr,hs⟩

theorem runResetting_sound {a : BuiltinFramer} (h : a.Sound) (hist : List (ℕ × List UInt8)) :
    ∃ b, a.runResetting hist = some b ∧ b.Sound := by
  induction hist generalizing a with
  | nil => exact ⟨a,rfl,h⟩
  | cons c hist ih =>
    obtain ⟨r,hr,hs⟩ := pushResetting_sound h c.1 c.2
    obtain ⟨b,hb,hbs⟩ := ih hs
    exact ⟨b,by rw [runResetting, hr, Option.bind_some, hb],hbs⟩

theorem endsAtReset_of_some {a : BuiltinFramer} {data : List UInt8} {k : ℕ}
    {r : Pushed BuiltinFramer} (h : a.pushResetting k data = some r) :
    a.EndsAtReset data k ↔ r.out = (a.pushBytes data).2.take k ∧
      (k ≤ (a.pushBytes data).2.length → r.state = a.reset) := by
  constructor
  · rintro ⟨q,hq,hends⟩
    rw [h] at hq
    cases hq
    exact hends
  · exact fun hends => ⟨r,h,hends⟩

theorem Sound.endsAtReset_iff {a : BuiltinFramer} (h : a.Sound) (data : List UInt8) {k : ℕ}
    (hk : 1 ≤ k) : a.EndsAtReset data k ↔ a.SeesReset data k := by
  cases a with
  | line f s =>
    obtain ⟨r,hr,-,hiff⟩ := f.pushBytesResetting_iff h data hk
    have hpush : (line f s).pushResetting k data = some (r.map (line f)) :=
      congrArg (Option.map (Pushed.map (line f))) hr
    rw [endsAtReset_of_some hpush, SeesReset, ← hiff]
    simp [Pushed.map, pushBytes, reset]
  | lengthPrefix f b =>
    have hpush : (lengthPrefix f b).pushResetting k data = some (Pushed.map (lengthPrefix f)
        (.cut [] k (f.pushBytes b data).1 (f.pushBytes b data).2)) :=
      congrArg (Option.map (Pushed.map (lengthPrefix f))) (f.pushBytesResetting_eq k b data)
    rw [endsAtReset_of_some hpush]
    obtain ⟨hout,hst⟩ := Pushed.cut_spec [] (f.pushBytes b data).1 (f.pushBytes b data).2 hk
    exact iff_of_true ⟨hout,fun hle => congrArg (lengthPrefix f) (hst hle)⟩ trivial
  | packet f s =>
    obtain ⟨r,hr,hiff⟩ := f.pushBytesResetting_iff h data hk
    have hpush : (packet f s).pushResetting k data = some (r.map (packet f)) :=
      congrArg (Option.map (Pushed.map (packet f))) hr
    rw [endsAtReset_of_some hpush, SeesReset, ← hiff]
    simp [Pushed.map, pushBytes, reset]

/-- In every state that pushes lead to, whatever resets their callbacks made, a push
touches valid storage only; and a reset at its `k`-th message ends it exactly when the
held bytes and the input let the framer see it. -/
theorem reset_ends_push_iff (a : BuiltinFramer) (hist : List (ℕ × List UInt8)) (data : List UInt8)
    {k : ℕ} (hk : 1 ≤ k) :
    ∃ b, a.reset.runResetting hist = some b ∧ (b.pushResetting k data).isSome ∧
      (b.EndsAtReset data k ↔ b.SeesReset data k) := by
  obtain ⟨b,hb,hs⟩ := runResetting_sound (sound_reset a) hist
  obtain ⟨r,hr,-⟩ := pushResetting_sound hs k data
  exact ⟨b,hb,by simp [hr],hs.endsAtReset_iff data hk⟩

theorem reset_ends_push_buffered :
    ∃ b, (line (LineFramer.make [10] false 65536) .reset).runResetting [(0,[97,98])] = some b ∧
      b.EndsAtReset [99,10,100,10] 1 := by
  obtain ⟨b,hb,-,hiff⟩ := reset_ends_push_iff (line (LineFramer.make [10] false 65536) .reset)
    [(0,[97,98])] [99,10,100,10] (k := 1) le_rfl
  refine ⟨b,hb,hiff.mpr ?_⟩
  have hrun : (line (LineFramer.make [10] false 65536) .reset).runResetting [(0,[97,98])] =
      some (line (LineFramer.make [10] false 65536) ⟨2,[97,98],false⟩) := by decide +kernel
  obtain rfl := Option.some.inj (hb.symm.trans hrun)
  change (LineFramer.make [10] false 65536).SeesReset _ _ _
  decide +kernel

/-- Two lines at once in a new framer: the reset at the first does not keep the second
from being delivered. -/
theorem reset_at_first_line :
    ¬∀ (a : BuiltinFramer) (hist : List (ℕ × List UInt8)) (data : List UInt8) (k : ℕ), 1 ≤ k →
      ∃ b, a.reset.runResetting hist = some b ∧ b.EndsAtReset data k := by
  intro h
  obtain ⟨b,hb,hends⟩ := h (line (LineFramer.make [10] false 65536) .reset) [] [97,10,98,10] 1 le_rfl
  cases hb
  have hpush : pushResetting 1 (line (LineFramer.make [10] false 65536) .reset) [97,10,98,10] =
      some ⟨line (LineFramer.make [10] false 65536) .reset,0,[[97],[98]]⟩ := by decide +kernel
  have hout := ((endsAtReset_of_some hpush).mp hends).1
  have hlen := congrArg List.length hout
  simp at hlen
  omega

end BuiltinFramer
end Wirestead.Framer
