import Wirestead.Framer.Builtin

/-! # A callback that resets the framer

The callback calls `reset()` on its framer at one message and does nothing else. It
carries `k`, the messages up to that one; zero stands for never. A push has no value
where it would touch bytes outside the storage that is valid at that moment: after a
reset the buffer holds nothing, while a span over it still has its old size.
-/
namespace Wirestead.Framer
open Words

/-- A push with such a callback: the members afterwards, what is left to count, and the
messages delivered. -/
structure Pushed (σ : Type) where
  state : σ
  left : ℕ
  out : List (List UInt8)
  deriving DecidableEq

theorem length_shift (pos : ℕ) (out : List Message) : (shift pos out).length = out.length :=
  List.length_map _

/-- The members after the callback. -/
def onMessage {σ : Type} (reset : σ) (k : ℕ) (s : σ) : σ := if k = 1 then reset else s

namespace Pushed
variable {σ τ : Type}

def cons (m : List UInt8) (r : Pushed σ) : Pushed σ := { r with out := m :: r.out }

def map (g : σ → τ) (r : Pushed σ) : Pushed τ := ⟨g r.state,r.left,r.out⟩

/-- A push of these messages that ends with the reset. -/
def cut (reset : σ) : ℕ → σ → List (List UInt8) → Pushed σ
  | k, s, [] => ⟨s,k,[]⟩
  | k, s, m :: out => if k = 1 then ⟨reset,0,[m]⟩ else (cut reset (k - 1) s out).cons m

/-- A push of these messages that goes on after the reset. -/
def pass (reset : σ) : ℕ → σ → List (List UInt8) → Pushed σ
  | k, s, [] => ⟨s,k,[]⟩
  | k, s, m :: out => (pass reset (k - 1) (onMessage reset k s) out).cons m

variable {reset s : σ} {k : ℕ} {out : List (List UInt8)}

theorem cut_of_le (hk : 1 ≤ k) (h : k ≤ out.length) : cut reset k s out = ⟨reset,0,out.take k⟩ := by
  induction out generalizing k with
  | nil => simp at h; omega
  | cons m out ih =>
    unfold cut
    split
    · rename_i h1
      simp [h1]
    · obtain ⟨j,rfl⟩ : ∃ j, k = j + 1 := ⟨k - 1,by omega⟩
      rw [Nat.add_sub_cancel, ih (by omega) (by simpa using h)]
      rfl

theorem cut_of_not (h : ¬(1 ≤ k ∧ k ≤ out.length)) : cut reset k s out = ⟨s,k - out.length,out⟩ := by
  induction out generalizing k with
  | nil => rfl
  | cons m out ih =>
    rw [List.length_cons] at h
    rw [cut, if_neg (by omega), ih (by omega), cons]
    simp only [List.length_cons, Pushed.mk.injEq, and_true, true_and]
    omega

variable (reset s out) in
/-- Such a push delivers the messages up to the reset and leaves what the reset left. -/
theorem cut_spec (hk : 1 ≤ k) : (cut reset k s out).out = out.take k ∧
    (k ≤ out.length → (cut reset k s out).state = reset) := by
  by_cases hl : k ≤ out.length
  · rw [cut_of_le hk hl]
    exact ⟨rfl,fun _ => rfl⟩
  · rw [cut_of_not (fun h => hl h.2), List.take_of_length_le (by omega)]
    exact ⟨rfl,fun h => absurd h hl⟩

theorem pass_eq : pass reset k s out =
    ⟨if 1 ≤ k ∧ k ≤ out.length then reset else s,k - out.length,out⟩ := by
  induction out generalizing k s with
  | nil => simp [pass]; omega
  | cons m out ih =>
    rw [pass, ih, cons]
    simp only [List.length_cons, onMessage, Pushed.mk.injEq, and_true]
    refine ⟨?_,by omega⟩
    split_ifs <;> first | rfl | omega

end Pushed

namespace LineFramer
variable (f : LineFramer)

/-- `scan_and_process`; `own` says that `data` is the buffer itself. -/
def scanLoopResetting (own : Bool) (data : List UInt8) :
    ℕ → ℕ → ℕ → ℕ → LineState → Option (ℕ × Pushed LineState)
  | 0, processedCount, _, k, s => some (processedCount,⟨s,k,[]⟩)
  | fuel + 1, processedCount, searchCursor, k, s =>
    if own = true ∧ s.buffer.length < data.length then none
    else if data.length < searchCursor then some (processedCount,⟨s,k,[]⟩)
    else match f.find (data.drop searchCursor) with
      | none => some (processedCount,⟨s,k,[]⟩)
      | some distance =>
        let matchStartIdx := searchCursor + distance
        let matchEndIdx := matchStartIdx + f.delimiter.length
        let currentMsgTotalLen := matchEndIdx - processedCount
        let contentLen := currentMsgTotalLen - f.delimiter.length
        if f.maxLength < contentLen then
          scanLoopResetting own data fuel matchEndIdx matchEndIdx k s
        else
          let payloadLen := if f.includeDelimiter then currentMsgTotalLen else contentLen
          let message := (data.drop processedCount).take payloadLen
          let t := onMessage .reset k s
          if own = true ∧ t.buffer = [] then some (0,⟨t,k - 1,[message]⟩)
          else (scanLoopResetting own data fuel matchEndIdx matchEndIdx (k - 1) t).map
            fun r => (r.1,r.2.cons message)

def scanAndProcessResetting (own : Bool) (data : List UInt8) (searchStartOffset k : ℕ)
    (s : LineState) : Option (ℕ × Pushed LineState) :=
  f.scanLoopResetting own data (data.length + 1) 0
    (if data.length < searchStartOffset then data.length else searchStartOffset) k s

/-- Erasing what was processed must stay within what the buffer holds then. -/
def pushSyncedResetting (k : ℕ) (s : LineState) (data : List UInt8) : Option (Pushed LineState) :=
  if s.buffer = [] then do
    let (processedCount,r) ← f.scanAndProcessResetting false data 0 k s
    if processedCount < data.length then
      let buffer := appendBytes r.state.buffer data processedCount
      some { r with
        state := f.checkPartial { r.state with buffer := buffer, scannedIdx := buffer.length } }
    else some { r with state := { r.state with scannedIdx := 0 } }
  else do
    let buffer := appendBytes s.buffer data 0
    let searchStartIdx :=
      if f.delimiter.length ≤ s.scannedIdx then s.scannedIdx - (f.delimiter.length - 1) else 0
    let (processedCount,r) ← f.scanAndProcessResetting true buffer searchStartIdx k
      { s with buffer := buffer }
    if r.state.buffer.length < processedCount then none
    else
      let rest := if 0 < processedCount then r.state.buffer.drop processedCount else r.state.buffer
      some { r with
        state := f.checkPartial { r.state with buffer := rest, scannedIdx := rest.length } }

def pushBytesInternalResetting (k : ℕ) (s : LineState) (data : List UInt8) :
    Option (Pushed LineState) :=
  if data = [] then some ⟨s,k,[]⟩
  else if s.discarding then
    match f.skipUntilDelimiter data with
    | none => some ⟨s,k,[]⟩
    | some consumed =>
      let rest := data.drop consumed
      if rest = [] then some ⟨{ s with discarding := false },k,[]⟩
      else f.pushSyncedResetting k { s with discarding := false } rest
  else f.pushSyncedResetting k s data

def pushLoopResetting : ℕ → ℕ → LineState → List UInt8 → Option (Pushed LineState)
  | 0, k, s, _ => some ⟨s,k,[]⟩
  | fuel + 1, k, s, data =>
    if data = [] then some ⟨s,k,[]⟩
    else do
      let len := min data.length f.chunkLimit
      let r ← f.pushBytesInternalResetting k s (data.take len)
      let t ← pushLoopResetting fuel r.left r.state (data.drop len)
      some { t with out := r.out ++ t.out }

def pushBytesResetting (k : ℕ) (s : LineState) (data : List UInt8) : Option (Pushed LineState) :=
  f.pushLoopResetting data.length k s data

end LineFramer

namespace PacketFramer
variable (f : PacketFramer)

/-- The zero-copy loop reads the caller's bytes, which a reset does not touch. -/
def fastLoopResetting (data : List UInt8) : ℕ → ℕ → ℕ → PacketState → ℕ × Pushed PacketState
  | 0, processedCount, k, s => (processedCount,⟨s,k,[]⟩)
  | fuel + 1, processedCount, k, s =>
    if processedCount < data.length then
      match searchFrom f.startPattern data processedCount with
      | none =>
        (if f.keepLen < data.length - processedCount then data.length - f.keepLen
          else processedCount,⟨s,k,[]⟩)
      | some startIdx =>
        if f.endPattern = [] then
          let packetLen := f.startPattern.length
          let r := fastLoopResetting data fuel (startIdx + packetLen) (k - 1) (onMessage .reset k s)
          (r.1,r.2.cons ((data.drop startIdx).take packetLen))
        else
          match searchFrom f.endPattern data (startIdx + f.startPattern.length) with
          | none => (startIdx,⟨s,k,[]⟩)
          | some endIdx =>
            let packetLen := endIdx + f.endPattern.length - startIdx
            if packetLen ≤ f.maxLength then
              let r := fastLoopResetting data fuel (startIdx + packetLen) (k - 1)
                (onMessage .reset k s)
              (r.1,r.2.cons ((data.drop startIdx).take packetLen))
            else fastLoopResetting data fuel (startIdx + packetLen) k s
    else (processedCount,⟨s,k,[]⟩)

/-- The packet at the front of the buffer is handed over and erased, unless the buffer
is empty then. -/
def deliverFront (packetLen k : ℕ) (s : PacketState)
    (next : ℕ → PacketState → Option (Pushed PacketState)) : Option (Pushed PacketState) :=
  if s.buffer.length < packetLen then none
  else
    let message := s.buffer.take packetLen
    let t := onMessage .reset k s
    if t.buffer = [] then some ⟨t,k - 1,[message]⟩
    else if t.buffer.length < packetLen then none
    else (next (k - 1) { t with buffer := t.buffer.drop packetLen }).map (·.cons message)

/-- The Sync/Collect loop. It has no value when its turns run out. -/
def collectLoopResetting : ℕ → ℕ → PacketState → Option (Pushed PacketState)
  | 0, _, _ => none
  | fuel + 1, k, s =>
    match s.mode with
    | .sync =>
      if f.startPattern = [] then collectLoopResetting fuel k { s with mode := .collect }
      else match search f.startPattern s.buffer with
        | some i => collectLoopResetting fuel k ⟨.collect,s.buffer.drop i,f.startPattern.length⟩
        | none =>
          if 1 < f.startPattern.length then
            let keepLen := f.startPattern.length - 1
            some ⟨if keepLen < s.buffer.length then
              { s with buffer := s.buffer.drop (s.buffer.length - keepLen) } else s,k,[]⟩
          else some ⟨{ s with buffer := [] },k,[]⟩
    | .collect =>
      if f.endPattern = [] then
        deliverFront f.startPattern.length k s
          fun k t => collectLoopResetting fuel k { t with mode := .sync }
      else if s.buffer.length < f.searchOffset s.scannedIdx then some ⟨s,k,[]⟩
      else match searchFrom f.endPattern s.buffer (f.searchOffset s.scannedIdx) with
        | some j =>
          let packetLen := j + f.endPattern.length
          if packetLen ≤ f.maxLength then
            deliverFront packetLen k s
              fun k t => collectLoopResetting fuel k { t with mode := .sync, scannedIdx := 0 }
          else if s.buffer.length < packetLen then none
          else collectLoopResetting fuel k ⟨.sync,s.buffer.drop packetLen,0⟩
        | none =>
          if f.maxLength < s.buffer.length then some ⟨.reset,k,[]⟩
          else some ⟨{ s with scannedIdx := s.buffer.length },k,[]⟩

def pushBytesResetting (k : ℕ) (s : PacketState) (data : List UInt8) :
    Option (Pushed PacketState) :=
  if data = [] then some ⟨s,k,[]⟩
  else if s.buffer = [] then
    let r := f.fastLoopResetting data (data.length + 1) 0 k s
    if r.1 < data.length then
      some { r.2 with state := f.checkLimit (f.collectIfStarted
        { r.2.state with buffer := appendBytes r.2.state.buffer data r.1 }) }
    else some r.2
  else
    let buffer := appendBytes s.buffer data 0
    f.collectLoopResetting (2 * buffer.length + 2) k { s with buffer := buffer }

end PacketFramer

namespace LengthPrefixFramer
variable (f : LengthPrefixFramer)

/-- The decoding loop: the bytes consumed, or `none` when the push has returned. Its
offset must not lie behind the buffer. -/
def pushLoopResetting : ℕ → ℕ → ℕ → List UInt8 → Option (Option ℕ × Pushed (List UInt8))
  | 0, consumed, k, buffer => some (some consumed,⟨buffer,k,[]⟩)
  | fuel + 1, consumed, k, buffer =>
    if buffer.length < consumed then none
    else match f.look buffer consumed with
      | .needMore => some (some consumed,⟨buffer,k,[]⟩)
      | .corrupt => some (none,⟨[],k,[]⟩)
      | .frame payloadLen =>
        let message := (buffer.drop (consumed + f.prefixBytes)).take payloadLen
        let t := onMessage [] k buffer
        if t = [] then some (none,⟨t,k - 1,[message]⟩)
        else (pushLoopResetting fuel (consumed + f.prefixBytes + payloadLen) (k - 1) t).map
          fun r => (r.1,r.2.cons message)

def pushBytesResetting (k : ℕ) (buffer data : List UInt8) : Option (Pushed (List UInt8)) :=
  let appended := if data = [] then buffer else buffer ++ data
  match f.pushLoopResetting (appended.length + 1) 0 k appended with
  | none => none
  | some (none,r) => some r
  | some (some consumed,r) =>
    if r.state.length < consumed then none
    else some { r with state := if 0 < consumed then r.state.drop consumed else r.state }

end LengthPrefixFramer

namespace BuiltinFramer

/-- `push_bytes` with a callback that resets the framer at the `k`-th message. -/
def pushResetting (k : ℕ) : BuiltinFramer → List UInt8 → Option (Pushed BuiltinFramer)
  | .line f s, data => (f.pushBytesResetting k s data).map (·.map (.line f))
  | .lengthPrefix f b, data => (f.pushBytesResetting k b data).map (·.map (.lengthPrefix f))
  | .packet f s, data => (f.pushBytesResetting k s data).map (·.map (.packet f))

/-- Pushes with such callbacks one after the other. -/
def runResetting : BuiltinFramer → List (ℕ × List UInt8) → Option BuiltinFramer
  | a, [] => some a
  | a, c :: cs => (a.pushResetting c.1 c.2).bind fun r => runResetting r.state cs

/-- The push touches valid storage only, delivers the messages up to the reset, and
leaves the framer as `reset()` does when there was one. -/
def EndsAtReset (a : BuiltinFramer) (data : List UInt8) (k : ℕ) : Prop :=
  ∃ r, a.pushResetting k data = some r ∧ r.out = (a.pushBytes data).2.take k ∧
    (k ≤ (a.pushBytes data).2.length → r.state = a.reset)

end BuiltinFramer
end Wirestead.Framer
