import Wirestead.Words.Packets
import Wirestead.Framer.Basic

/-! # The start/end pattern framer

With an empty buffer the packets are cut out of the caller's bytes directly; what is
left is buffered. With a non-empty buffer the new bytes are appended and a loop moves
between searching the start pattern and collecting up to the end pattern.
-/
namespace Wirestead.Framer
open Words

structure PacketFramer where
  startPattern : List UInt8
  endPattern : List UInt8
  maxLength : ℕ
  patterns_ne : startPattern ≠ [] ∨ endPattern ≠ []
  deriving DecidableEq

inductive PacketMode
  | sync
  | collect
  deriving DecidableEq, Repr

structure PacketState where
  mode : PacketMode
  buffer : List UInt8
  scannedIdx : ℕ
  deriving DecidableEq, Repr

def PacketState.reset : PacketState := ⟨.sync,[],0⟩

namespace PacketFramer
variable (f : PacketFramer)

def keepLen : ℕ := if 1 < f.startPattern.length then f.startPattern.length - 1 else 0

/-- The zero-copy loop over the caller's bytes: how many are processed, and the
packets. Every turn that continues moves past a packet. -/
def fastLoop (data : List UInt8) : ℕ → ℕ → ℕ × List Message
  | 0, processedCount => (processedCount,[])
  | fuel + 1, processedCount =>
    if processedCount < data.length then
      match searchFrom f.startPattern data processedCount with
      | none =>
        (if f.keepLen < data.length - processedCount then data.length - f.keepLen
          else processedCount,[])
      | some startIdx =>
        if f.endPattern = [] then
          let packetLen := f.startPattern.length
          let r := fastLoop data fuel (startIdx + packetLen)
          (r.1,(startIdx,(data.drop startIdx).take packetLen) :: r.2)
        else
          match searchFrom f.endPattern data (startIdx + f.startPattern.length) with
          | none => (startIdx,[])
          | some endIdx =>
            let packetLen := endIdx + f.endPattern.length - startIdx
            let r := fastLoop data fuel (startIdx + packetLen)
            if packetLen ≤ f.maxLength then
              (r.1,(startIdx,(data.drop startIdx).take packetLen) :: r.2)
            else r
    else (processedCount,[])

def collectIfStarted (s : PacketState) : PacketState :=
  if s.mode = .sync ∧ f.startPattern <+: s.buffer then
    { s with mode := .collect, scannedIdx := f.startPattern.length }
  else s

def checkLimit (s : PacketState) : PacketState :=
  if s.mode = .collect ∧ f.maxLength < s.buffer.length then .reset else s

/-- Where the search for the end pattern resumes: backed up by `|end| - 1` when
resuming, and never inside the start pattern. -/
def searchOffset (scannedIdx : ℕ) : ℕ :=
  let offset := max f.startPattern.length scannedIdx
  let backed :=
    if f.startPattern.length < offset then
      let overlap := if 1 < f.endPattern.length then f.endPattern.length - 1 else 0
      if overlap ≤ offset then offset - overlap else 0
    else offset
  if backed < f.startPattern.length then f.startPattern.length else backed

/-- The Sync/Collect loop over the buffer; `pos` is the position of its first byte. -/
def collectLoop : ℕ → ℕ → PacketState → PacketState × List Message
  | 0, _, s => (s,[])
  | fuel + 1, pos, s =>
    match s.mode with
    | .sync =>
      if f.startPattern = [] then collectLoop fuel pos { s with mode := .collect }
      else match search f.startPattern s.buffer with
        | some i => collectLoop fuel (pos + i) ⟨.collect,s.buffer.drop i,f.startPattern.length⟩
        | none =>
          if 1 < f.startPattern.length then
            let keepLen := f.startPattern.length - 1
            (if keepLen < s.buffer.length then
              { s with buffer := s.buffer.drop (s.buffer.length - keepLen) } else s,[])
          else ({ s with buffer := [] },[])
    | .collect =>
      if f.endPattern = [] then
        let packetLen := f.startPattern.length
        let r := collectLoop fuel (pos + packetLen)
          { s with buffer := s.buffer.drop packetLen, mode := .sync }
        (r.1,(pos,s.buffer.take packetLen) :: r.2)
      else if s.buffer.length < f.searchOffset s.scannedIdx then (s,[])
      else match searchFrom f.endPattern s.buffer (f.searchOffset s.scannedIdx) with
        | some j =>
          let packetLen := j + f.endPattern.length
          let r := collectLoop fuel (pos + packetLen) ⟨.sync,s.buffer.drop packetLen,0⟩
          if packetLen ≤ f.maxLength then (r.1,(pos,s.buffer.take packetLen) :: r.2) else r
        | none =>
          if f.maxLength < s.buffer.length then (.reset,[])
          else ({ s with scannedIdx := s.buffer.length },[])

def pushBytes (pos : ℕ) (s : PacketState) (data : List UInt8) : PacketState × List Message :=
  if data = [] then (s,[])
  else if s.buffer = [] then
    let r := f.fastLoop data (data.length + 1) 0
    if r.1 < data.length then
      (f.checkLimit (f.collectIfStarted { s with buffer := appendBytes s.buffer data r.1 }),
        shift pos r.2)
    else (s,shift pos r.2)
  else
    let buffer := appendBytes s.buffer data 0
    -- two turns consume a byte, and the last packet needs two more
    f.collectLoop (2 * buffer.length + 2) (pos - s.buffer.length) { s with buffer := buffer }

def pushAll : ℕ → PacketState → List (List UInt8) → PacketState × List Message
  | _, s, [] => (s,[])
  | pos, s, c :: cs =>
    let r := f.pushBytes pos s c
    let t := pushAll (pos + c.length) r.1 cs
    (t.1,r.2 ++ t.2)

end PacketFramer
end Wirestead.Framer
