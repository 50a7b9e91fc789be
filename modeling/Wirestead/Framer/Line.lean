import Wirestead.Words.Segments
import Wirestead.Framer.Basic

/-! # The delimiter framer

The mutable members of `LineFramer` are a record of their own; the constructor's
arguments are fixed.
-/
namespace Wirestead.Framer
open Words

structure LineFramer where
  delimiter : List UInt8
  includeDelimiter : Bool
  maxLength : ℕ
  delimiter_ne : delimiter ≠ []
  deriving DecidableEq

def LineFramer.make (delimiter : List UInt8) (includeDelimiter : Bool) (maxLength : ℕ) : LineFramer :=
  if h : delimiter = [] then ⟨[10],includeDelimiter,maxLength,by simp⟩
  else ⟨delimiter,includeDelimiter,maxLength,h⟩

structure LineState where
  scannedIdx : ℕ
  buffer : List UInt8
  discarding : Bool
  deriving DecidableEq, Repr

def LineState.reset : LineState := ⟨0,[],false⟩

/-- Longest unterminated tail that can still become a valid message. The source
saturates the sum at the largest size, see `lt_maxPartialLength_iff`. -/
def maxPartialLength (maxLength delimiterLength : ℕ) : ℕ := maxLength + (delimiterLength - 1)

/-- A buffer's size is a machine size, and on machine sizes the saturated bound of
the source and the exact one cut off the same buffers. -/
theorem lt_maxPartialLength_iff {sizeMax maxLength delimiterLength size : ℕ} (hs : size ≤ sizeMax) :
    (if sizeMax - (delimiterLength - 1) < maxLength then sizeMax
      else maxLength + (delimiterLength - 1)) < size ↔
    maxPartialLength maxLength delimiterLength < size := by
  unfold maxPartialLength
  split <;> omega

def byteValue (b : UInt8) : ℤ := b.toNat

def charValue (c : UInt8) : ℤ := c.toBitVec.toInt

namespace LineFramer
variable (f : LineFramer)

/-- The next delimiter. A single byte is looked for with `memchr`, which compares bytes.
`std::search` compares the `uint8_t` of the data with the `char` of the delimiter, and
`char` is signed: both are promoted to `int`. -/
def find (data : List UInt8) : Option ℕ :=
  if f.delimiter.length = 1 then search f.delimiter data
  else search (f.delimiter.map charValue) (data.map byteValue)

def skipUntilDelimiter (data : List UInt8) : Option ℕ :=
  (f.find data).map (· + f.delimiter.length)

def scanLoop (data : List UInt8) : ℕ → ℕ → ℕ → ℕ × List Message
  | 0, processedCount, _ => (processedCount,[])
  | fuel + 1, processedCount, searchCursor =>
    if data.length < searchCursor then (processedCount,[])
    else match f.find (data.drop searchCursor) with
      | none => (processedCount,[])
      | some distance =>
        let matchStartIdx := searchCursor + distance
        let matchEndIdx := matchStartIdx + f.delimiter.length
        let currentMsgTotalLen := matchEndIdx - processedCount
        let contentLen := currentMsgTotalLen - f.delimiter.length
        let rest := scanLoop data fuel matchEndIdx matchEndIdx
        if f.maxLength < contentLen then rest
        else
          let payloadLen := if f.includeDelimiter then currentMsgTotalLen else contentLen
          (rest.1,(processedCount,(data.drop processedCount).take payloadLen) :: rest.2)

def scanAndProcess (data : List UInt8) (searchStartOffset : ℕ) : ℕ × List Message :=
  -- every turn moves past a delimiter
  f.scanLoop data (data.length + 1) 0
    (if data.length < searchStartOffset then data.length else searchStartOffset)

def checkPartial (s : LineState) : LineState :=
  if maxPartialLength f.maxLength f.delimiter.length < s.buffer.length then ⟨0,[],true⟩ else s

/-- `push_bytes_internal` below the resynchronisation: the zero-copy path on an empty
buffer, and the buffered path that resumes the scan `|d| - 1` bytes back. -/
def pushSynced (pos : ℕ) (s : LineState) (data : List UInt8) : LineState × List Message :=
  if s.buffer = [] then
    let r := f.scanAndProcess data 0
    if r.1 < data.length then
      let buffer := appendBytes s.buffer data r.1
      (f.checkPartial { s with buffer := buffer, scannedIdx := buffer.length },shift pos r.2)
    else ({ s with scannedIdx := 0 },shift pos r.2)
  else
    let buffer := appendBytes s.buffer data 0
    let searchStartIdx :=
      if f.delimiter.length ≤ s.scannedIdx then s.scannedIdx - (f.delimiter.length - 1) else 0
    let r := f.scanAndProcess buffer searchStartIdx
    let rest := if 0 < r.1 then buffer.drop r.1 else buffer
    (f.checkPartial { s with buffer := rest, scannedIdx := rest.length },
      shift (pos - s.buffer.length) r.2)

/-- `push_bytes_internal`: in discard mode nothing is buffered or emitted before the
next delimiter that lies wholly inside this chunk. -/
def pushBytesInternal (pos : ℕ) (s : LineState) (data : List UInt8) : LineState × List Message :=
  if data = [] then (s,[])
  else if s.discarding then
    match f.skipUntilDelimiter data with
    | none => (s,[])
    | some consumed =>
      let rest := data.drop consumed
      if rest = [] then ({ s with discarding := false },[])
      else f.pushSynced (pos + consumed) { s with discarding := false } rest
  else f.pushSynced pos s data

def chunkLimit : ℕ := max f.maxLength 4096

def pushLoop : ℕ → ℕ → LineState → List UInt8 → LineState × List Message
  | 0, _, s, _ => (s,[])
  | fuel + 1, pos, s, data =>
    if data = [] then (s,[])
    else
      let len := min data.length f.chunkLimit
      let r := f.pushBytesInternal pos s (data.take len)
      let t := pushLoop fuel (pos + len) r.1 (data.drop len)
      (t.1,r.2 ++ t.2)

def pushBytes (pos : ℕ) (s : LineState) (data : List UInt8) : LineState × List Message :=
  f.pushLoop data.length pos s data

def pushAll : ℕ → LineState → List (List UInt8) → LineState × List Message
  | _, s, [] => (s,[])
  | pos, s, c :: cs =>
    let r := f.pushBytes pos s c
    let t := pushAll (pos + c.length) r.1 cs
    (t.1,r.2 ++ t.2)

end LineFramer
end Wirestead.Framer
