import Wirestead.Framer.Resetting

/-! # Resets inside the pattern framer's callback

The loop over the buffer ends at a reset. The zero-copy loop does not see it and
buffers what is left of the caller's bytes as in a new framer.
-/
namespace Wirestead.Framer.PacketFramer
open Words
variable (f : PacketFramer)

theorem fastLoopResetting_eq (data : List UInt8) (fuel p k : ℕ) (s : PacketState) :
    f.fastLoopResetting data fuel p k s = ((f.fastLoop data fuel p).1,
      .pass .reset k s ((f.fastLoop data fuel p).2.map Prod.snd)) := by
  induction fuel generalizing p k s with
  | zero => rfl
  | succ fuel ih =>
    by_cases hp : p < data.length
    · simp only [fastLoopResetting, fastLoop, if_pos hp]
      cases searchFrom f.startPattern data p with
      | none => rfl
      | some i =>
        dsimp only
        by_cases he : f.endPattern = []
        · simp only [if_pos he, ih]
          rfl
        simp only [if_neg he]
        cases searchFrom f.endPattern data (i + f.startPattern.length) with
        | none => rfl
        | some j =>
          dsimp only
          split
          · rw [ih]
            rfl
          · exact ih _ _ _
    · simp only [fastLoopResetting, fastLoop, if_neg hp]
      rfl

theorem deliverFront_eq {packetLen k : ℕ} {s t : PacketState} {out : List (List UInt8)}
    {next : ℕ → PacketState → Option (Pushed PacketState)} (h0 : 0 < packetLen)
    (hl : packetLen ≤ s.buffer.length)
    (hnext : next (k - 1) { s with buffer := s.buffer.drop packetLen } =
      some (.cut .reset (k - 1) t out)) :
    deliverFront packetLen k s next = some (.cut .reset k t (s.buffer.take packetLen :: out)) := by
  rw [deliverFront, if_neg (Nat.not_lt.mpr hl)]
  by_cases h1 : k = 1
  · subst h1
    simp [onMessage, PacketState.reset, Pushed.cut]
  · have hb : s.buffer ≠ [] := List.length_pos_iff.mp (by omega)
    have hsame : onMessage .reset k s = s := if_neg h1
    simp only [hsame, if_neg hb, if_neg (Nat.not_lt.mpr hl), hnext, Option.map_some, Pushed.cut,
      if_neg h1]

/-- The loop over the buffer ends at the reset and touches what the buffer holds only. -/
theorem collectLoopResetting_eq {fuel : ℕ} (pos k : ℕ) {s : PacketState} (h : f.Ready s)
    (hf : turns s ≤ fuel) :
    f.collectLoopResetting fuel k s = some (.cut .reset k (f.collectLoop fuel pos s).1
      ((f.collectLoop fuel pos s).2.map Prod.snd)) := by
  revert pos k
  refine f.collect_induction (motive := fun fuel s => ∀ pos k,
    f.collectLoopResetting fuel k s = some (.cut .reset k (f.collectLoop fuel pos s).1
      ((f.collectLoop fuel pos s).2.map Prod.snd))) ?_ ?_ ?_ ?_ h hf
  · intro fuel w idx ha ih pos k
    simp only [collectLoopResetting, collectLoop, if_pos ha]
    exact ih pos k
  · intro fuel w idx ha ih pos k
    simp only [collectLoopResetting, collectLoop, if_neg ha]
    cases hs : search f.startPattern w with
    | none =>
      dsimp only
      split <;> rfl
    | some i => exact ih i hs _ k
  · intro fuel w idx he h0 hp ih pos k
    simp only [collectLoopResetting, collectLoop, if_pos he]
    exact deliverFront_eq (s := ⟨.collect,w,idx⟩) h0 hp.length_le (ih _ _)
  · intro fuel w idx he _ hoff _ ih pos k
    simp only [collectLoopResetting, collectLoop, if_neg he, if_neg (Nat.not_lt.mpr hoff)]
    cases hn : searchFrom f.endPattern w (f.searchOffset idx) with
    | none =>
      dsimp only
      split <;> rfl
    | some j =>
      obtain ⟨hl,ih⟩ := ih j hn
      have h0 := List.length_pos_iff.mpr he
      dsimp only
      by_cases hm : j + f.endPattern.length ≤ f.maxLength
      · simp only [if_pos hm]
        exact deliverFront_eq (s := ⟨.collect,w,idx⟩) (by omega) hl (ih _ _)
      · simp only [if_neg hm, if_neg (Nat.not_lt.mpr hl)]
        exact ih _ _

theorem pushBytesResetting_buffered (k : ℕ) {s : PacketState} (h : f.Holds s s.buffer)
    (hb : s.buffer ≠ []) (data : List UInt8) :
    f.pushBytesResetting k s data =
      some (.cut .reset k (f.pushBytes 0 s data).1 ((f.pushBytes 0 s data).2.map Prod.snd)) := by
  by_cases hd : data = []
  · simp [pushBytesResetting, pushBytes, Pushed.cut, hd]
  · have happ : appendBytes s.buffer data 0 = s.buffer ++ data := by
      have := List.length_pos_iff.mpr hd
      rw [appendBytes, if_neg (by omega), List.drop_zero]
    simp only [pushBytesResetting, pushBytes, if_neg hd, if_neg hb, happ]
    apply f.collectLoopResetting_eq _ _ (h.ready data)
    unfold turns
    split <;> simp

/-- A push on an empty buffer goes on, and keeps what a new framer would keep. -/
theorem pushBytesResetting_caller (k : ℕ) {s : PacketState} (hb : s.buffer = [])
    (data : List UInt8) :
    f.pushBytesResetting k s data = some
      ⟨if 1 ≤ k ∧ k ≤ (f.pushBytes 0 s data).2.length then (f.pushBytes 0 .reset data).1
        else (f.pushBytes 0 s data).1,
        k - (f.pushBytes 0 s data).2.length,(f.pushBytes 0 s data).2.map Prod.snd⟩ := by
  by_cases hd : data = []
  · have h0 : ¬(1 ≤ k ∧ k ≤ 0) := by omega
    simp only [pushBytesResetting, pushBytes, hd, if_true, List.length_nil, List.map_nil,
      Nat.sub_zero]
    split_ifs
    rfl
  · have hreset : PacketState.reset.buffer = [] := rfl
    simp only [pushBytesResetting, pushBytes, if_neg hd, if_pos hb, if_pos hreset,
      fastLoopResetting_eq, Pushed.pass_eq]
    generalize f.fastLoop data (data.length + 1) 0 = r
    by_cases hlt : r.1 < data.length
    · simp only [if_pos hlt, length_shift, map_snd_shift, List.length_map]
      split_ifs <;> simp only [hb, hreset]
    · simp only [if_neg hlt, length_shift, map_snd_shift, List.length_map]

/-- How many packets that are delivered a stretch of bytes holds, and the bytes after
them that are worth keeping. -/
def deliverable (data : List UInt8) : ℕ := (f.emits (f.parse 0 data).1).length

def leftover (data : List UInt8) : List UInt8 := residue f.startPattern (f.parse 0 data).2

/-- A reset at the `k`-th packet ends the push: bytes are buffered already; or there are
fewer packets; or it is the last one, and what follows is nothing to keep or over the
limit. -/
def SeesReset (buffer data : List UInt8) (k : ℕ) : Prop :=
  buffer ≠ [] ∨ f.deliverable data < k ∨
    (k = f.deliverable data ∧
      (f.leftover data = [] ∨ (f.Started (f.leftover data) ∧ f.maxLength < (f.leftover data).length)))

theorem pushBytes_reset_of_nil {data : List UInt8}
    (h : (f.pushBytes 0 .reset data).1.buffer = []) : (f.pushBytes 0 .reset data).1 = .reset := by
  have hreset : PacketState.reset.buffer = [] := rfl
  by_cases hd : data = []
  · simp [pushBytes, hd]
  simp only [pushBytes, if_neg hd, if_pos hreset] at h ⊢
  generalize f.fastLoop data (data.length + 1) 0 = r at h ⊢
  by_cases hlt : r.1 < data.length
  · simp only [if_pos hlt] at h ⊢
    have hne : appendBytes PacketState.reset.buffer data r.1 ≠ [] := by
      simp [appendBytes, hreset, Nat.not_le.mpr hlt]
    generalize appendBytes PacketState.reset.buffer data r.1 = b at h hne ⊢
    unfold checkLimit at h ⊢
    split at h
    · rw [if_pos ‹_›]
    · unfold collectIfStarted at h
      split at h <;> exact absurd h hne
  · simp only [if_neg hlt]

theorem pushBytes_reset_iff {data : List UInt8} (hd : data ≠ []) :
    (f.pushBytes 0 .reset data).1 = .reset ↔
      f.leftover data = [] ∨
        (f.Started (f.leftover data) ∧ f.maxLength < (f.leftover data).length) := by
  have ho := (f.pushBytes_eq 0 f.holds_reset hd).2
  change f.Outcome _ (f.leftover data) at ho
  constructor
  · intro hreset
    obtain ⟨hs,hl,-⟩ | ⟨-,hh⟩ := ho
    · exact .inr ⟨hs,hl⟩
    · rw [hreset] at hh
      exact .inl hh.1.symm
  · obtain ⟨-,-,hreset⟩ | ⟨hn,hh⟩ := ho
    · exact fun _ => hreset
    · rintro (hnil | hover)
      · exact f.pushBytes_reset_of_nil (hh.1.trans hnil)
      · exact absurd hover hn

theorem length_pushBytes {s : PacketState} (h : f.Holds s s.buffer) (hb : s.buffer = [])
    (data : List UInt8) : (f.pushBytes 0 s data).2.length = f.deliverable data := by
  by_cases hd : data = []
  · have hp : f.parse 0 [] = ([],[]) := f.parse_none (by simp [nextPacket])
    simp [pushBytes, hd, deliverable, hp, emits_nil]
  · rw [(f.pushBytes_eq 0 h hd).1, hb]
    rfl

theorem pushBytesResetting_sound {s : PacketState} (h : f.Holds s s.buffer) (k : ℕ)
    (data : List UInt8) :
    ∃ r, f.pushBytesResetting k s data = some r ∧ f.Holds r.state r.state.buffer := by
  by_cases hb : s.buffer = []
  · refine ⟨_,f.pushBytesResetting_caller k hb data,?_⟩
    dsimp only
    split
    · exact Holds.push f.holds_reset 0 data
    · exact h.push 0 data
  · refine ⟨_,f.pushBytesResetting_buffered k h hb data,?_⟩
    by_cases hf : 1 ≤ k ∧ k ≤ ((f.pushBytes 0 s data).2.map Prod.snd).length
    · rw [Pushed.cut_of_le hf.1 hf.2]
      exact f.holds_reset
    · rw [Pushed.cut_of_not hf]
      exact h.push 0 data

theorem pushBytesResetting_iff {s : PacketState} (h : f.Holds s s.buffer) (data : List UInt8)
    {k : ℕ} (hk : 1 ≤ k) :
    ∃ r, f.pushBytesResetting k s data = some r ∧
      (r.out = ((f.pushBytes 0 s data).2.map Prod.snd).take k ∧
          (k ≤ (f.pushBytes 0 s data).2.length → r.state = .reset) ↔
        f.SeesReset s.buffer data k) := by
  by_cases hb : s.buffer = []
  · refine ⟨_,f.pushBytesResetting_caller k hb data,?_⟩
    have hn := f.length_pushBytes h hb data
    rw [SeesReset, ← hn, eq_comm (b := List.take k _), List.take_eq_self_iff, List.length_map]
    constructor
    · rintro ⟨hall,hst⟩
      by_cases hlt : (f.pushBytes 0 s data).2.length < k
      · exact .inr (.inl hlt)
      have hd : data ≠ [] := by
        rintro rfl
        simp [pushBytes] at hlt
        omega
      have hle := Nat.not_lt.mp hlt
      have hreset := hst hle
      rw [if_pos ⟨hk,hle⟩, f.pushBytes_reset_iff hd] at hreset
      exact .inr (.inr ⟨le_antisymm hle hall,hreset⟩)
    · rintro (hne | hlt | ⟨heq,hkeep⟩)
      · exact absurd hb hne
      · exact ⟨by omega,fun hle => absurd hlt (by omega)⟩
      · have hd : data ≠ [] := by
          rintro rfl
          simp [pushBytes] at heq
          omega
        refine ⟨by omega,fun hle => ?_⟩
        rw [if_pos ⟨hk,hle⟩]
        exact (f.pushBytes_reset_iff hd).mpr hkeep
  · refine ⟨_,f.pushBytesResetting_buffered k h hb data,?_⟩
    have hcut := Pushed.cut_spec .reset (f.pushBytes 0 s data).1
      ((f.pushBytes 0 s data).2.map Prod.snd) hk
    rw [List.length_map] at hcut
    exact iff_of_true hcut (.inl hb)

end Wirestead.Framer.PacketFramer
