import Wirestead.Framer.Builtin

/-! # What a push appends

Storage moves only when bytes are appended: erasing and clearing keep it. For every push
the sizes that the buffer is appended to are listed in their order, and none is above
what was buffered and what is pushed.
-/
namespace Wirestead.Framer

theorem length_appendBytes_le (buffer data : List UInt8) (offset : ℕ) :
    (appendBytes buffer data offset).length ≤ buffer.length + data.length := by
  unfold appendBytes
  split
  · exact Nat.le_add_right _ _
  · simp

namespace LineFramer
variable (f : LineFramer)

/-- The zero-copy path appends what it did not process, the buffered path everything. -/
def appendsSynced (s : LineState) (data : List UInt8) : List ℕ :=
  if s.buffer = [] then
    let r := f.scanAndProcess data 0
    if r.1 < data.length then [(appendBytes s.buffer data r.1).length] else []
  else [(appendBytes s.buffer data 0).length]

def appendsInternal (s : LineState) (data : List UInt8) : List ℕ :=
  if data = [] then []
  else if s.discarding then
    match f.skipUntilDelimiter data with
    | none => []
    | some consumed =>
      let rest := data.drop consumed
      if rest = [] then [] else f.appendsSynced { s with discarding := false } rest
  else f.appendsSynced s data

def appendsLoop : ℕ → LineState → List UInt8 → List ℕ
  | 0, _, _ => []
  | fuel + 1, s, data =>
    if data = [] then []
    else
      let len := min data.length f.chunkLimit
      f.appendsInternal s (data.take len) ++
        appendsLoop fuel (f.pushBytesInternal 0 s (data.take len)).1 (data.drop len)

def appends (s : LineState) (data : List UInt8) : List ℕ := f.appendsLoop data.length s data

theorem checkPartial_le (s : LineState) : (f.checkPartial s).buffer.length ≤ s.buffer.length := by
  unfold checkPartial
  split
  · exact Nat.zero_le _
  · exact le_rfl

theorem pushSynced_le (pos : ℕ) (s : LineState) (data : List UInt8) :
    (f.pushSynced pos s data).1.buffer.length ≤ s.buffer.length + data.length := by
  unfold pushSynced
  dsimp only
  split
  · split
    · exact (f.checkPartial_le _).trans (length_appendBytes_le _ _ _)
    · exact Nat.le_add_right _ _
  · apply (f.checkPartial_le _).trans
    apply le_trans _ (length_appendBytes_le s.buffer data 0)
    dsimp only
    split_ifs <;> simp

theorem appendsSynced_le {s : LineState} {data : List UInt8} {n : ℕ}
    (h : n ∈ f.appendsSynced s data) : n ≤ s.buffer.length + data.length := by
  unfold appendsSynced at h
  dsimp only at h
  split_ifs at h
  · obtain rfl := List.mem_singleton.mp h
    exact length_appendBytes_le _ _ _
  · simp at h
  · obtain rfl := List.mem_singleton.mp h
    exact length_appendBytes_le _ _ _

/-- What the internal push leaves and what it appends to on the way. -/
theorem pushBytesInternal_le (pos : ℕ) (s : LineState) (data : List UInt8) :
    (f.pushBytesInternal pos s data).1.buffer.length ≤ s.buffer.length + data.length ∧
    ∀ n ∈ f.appendsInternal s data, n ≤ s.buffer.length + data.length := by
  unfold pushBytesInternal appendsInternal
  by_cases hd : data = []
  · simp [hd]
  simp only [if_neg hd]
  split
  · cases f.skipUntilDelimiter data with
    | none => simp
    | some consumed =>
      have hl : (data.drop consumed).length ≤ data.length := by simp
      dsimp only
      split
      · exact ⟨Nat.le_add_right _ _,by simp⟩
      · exact ⟨(f.pushSynced_le _ _ _).trans (Nat.add_le_add_left hl _),
          fun n hn => (f.appendsSynced_le hn).trans (Nat.add_le_add_left hl _)⟩
  · exact ⟨f.pushSynced_le _ _ _,fun n hn => f.appendsSynced_le hn⟩

theorem pushLoop_le (fuel pos : ℕ) (s : LineState) (data : List UInt8) :
    (f.pushLoop fuel pos s data).1.buffer.length ≤ s.buffer.length + data.length ∧
    ∀ n ∈ f.appendsLoop fuel s data, n ≤ s.buffer.length + data.length := by
  induction fuel generalizing pos s data with
  | zero => exact ⟨Nat.le_add_right _ _,by simp [appendsLoop]⟩
  | succ fuel ih =>
    unfold pushLoop appendsLoop
    split
    · exact ⟨Nat.le_add_right _ _,by simp⟩
    dsimp only
    generalize min data.length f.chunkLimit = len
    have hcut : (data.take len).length + (data.drop len).length = data.length := by
      rw [← List.length_append, List.take_append_drop]
    obtain ⟨h1,h2⟩ := f.pushBytesInternal_le pos s (data.take len)
    have h3 := (f.pushBytesInternal_label 0 pos s (data.take len)).1
    constructor
    · have h4 := (ih (pos + len) (f.pushBytesInternal pos s (data.take len)).1 (data.drop len)).1
      omega
    · intro n hn
      rcases List.mem_append.mp hn with hn | hn
      · have h4 := h2 n hn
        omega
      · rw [h3] at hn
        have h4 := (ih pos _ (data.drop len)).2 n hn
        omega

end LineFramer

namespace LengthPrefixFramer

def appends (buffer data : List UInt8) : List ℕ :=
  if data = [] then [] else [(buffer ++ data).length]

theorem appends_le {buffer data : List UInt8} {n : ℕ} (h : n ∈ appends buffer data) :
    n ≤ buffer.length + data.length := by
  unfold appends at h
  split_ifs at h
  · simp at h
  · obtain rfl := List.mem_singleton.mp h
    simp

theorem pushBytes_le (f : LengthPrefixFramer) (buffer data : List UInt8) :
    (f.pushBytes buffer data).1.length ≤ buffer.length + data.length := by
  rw [f.pushBytes_eq]
  rcases f.decode (buffer ++ data) with ⟨_ | k,out⟩
  · exact Nat.zero_le _
  · simp

end LengthPrefixFramer

namespace PacketFramer
variable (f : PacketFramer)

/-- With an empty buffer only what was not processed is appended. -/
def appends (s : PacketState) (data : List UInt8) : List ℕ :=
  if data = [] then []
  else if s.buffer = [] then
    let r := f.fastLoop data (data.length + 1) 0
    if r.1 < data.length then [(appendBytes s.buffer data r.1).length] else []
  else [(appendBytes s.buffer data 0).length]

/-- The loop over the buffer only erases. -/
theorem collectLoop_le (fuel pos : ℕ) (s : PacketState) :
    (f.collectLoop fuel pos s).1.buffer.length ≤ s.buffer.length := by
  induction fuel generalizing pos s with
  | zero => exact le_rfl
  | succ fuel ih =>
    have hdrop : ∀ (pos k n : ℕ) (mode : PacketMode),
        (f.collectLoop fuel pos ⟨mode,s.buffer.drop k,n⟩).1.buffer.length ≤ s.buffer.length := by
      intro pos k n mode
      exact (ih pos _).trans (by simp)
    unfold collectLoop
    split
    · split
      · exact ih pos _
      · split
        · exact hdrop _ _ _ _
        · split
          · dsimp only
            split
            · simp
            · exact le_rfl
          · exact Nat.zero_le _
    · split
      · exact hdrop _ _ _ _
      · split
        · exact le_rfl
        · split
          · dsimp only
            split <;> exact hdrop _ _ _ _
          · split
            · exact Nat.zero_le _
            · exact le_rfl

theorem buffered_le (s : PacketState) :
    (f.checkLimit (f.collectIfStarted s)).buffer.length ≤ s.buffer.length := by
  unfold checkLimit collectIfStarted
  split_ifs <;> first | exact Nat.zero_le _ | exact le_rfl

theorem pushBytes_le (pos : ℕ) (s : PacketState) (data : List UInt8) :
    (f.pushBytes pos s data).1.buffer.length ≤ s.buffer.length + data.length := by
  unfold pushBytes
  dsimp only
  split_ifs
  · exact Nat.le_add_right _ _
  · exact (f.buffered_le _).trans (length_appendBytes_le _ _ _)
  · exact Nat.le_add_right _ _
  · exact (f.collectLoop_le _ _ _).trans (length_appendBytes_le _ _ _)

theorem appends_le {s : PacketState} {data : List UInt8} {n : ℕ} (h : n ∈ f.appends s data) :
    n ≤ s.buffer.length + data.length := by
  unfold appends at h
  dsimp only at h
  split_ifs at h
  · simp at h
  · obtain rfl := List.mem_singleton.mp h
    exact length_appendBytes_le _ _ _
  · simp at h
  · obtain rfl := List.mem_singleton.mp h
    exact length_appendBytes_le _ _ _

end PacketFramer

namespace BuiltinFramer

def appends : BuiltinFramer → List UInt8 → List ℕ
  | .line f s, data => f.appends s data
  | .lengthPrefix _ buffer, data => LengthPrefixFramer.appends buffer data
  | .packet f s, data => f.appends s data

/-- A push never holds more than was buffered and is pushed, nor appends to more. -/
theorem pushBytes_le (a : BuiltinFramer) (data : List UInt8) :
    (a.pushBytes data).1.buffer.length ≤ a.buffer.length + data.length ∧
    ∀ n ∈ a.appends data, n ≤ a.buffer.length + data.length := by
  cases a with
  | line f s => exact f.pushLoop_le data.length 0 s data
  | lengthPrefix f buffer =>
    exact ⟨f.pushBytes_le buffer data,fun n hn => LengthPrefixFramer.appends_le hn⟩
  | packet f s => exact ⟨f.pushBytes_le 0 s data,fun n hn => f.appends_le hn⟩

end BuiltinFramer
end Wirestead.Framer
