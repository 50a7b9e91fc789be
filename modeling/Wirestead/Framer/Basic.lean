import Mathlib

/-! # What the framers share

A message is handed to the callback as a span. Beside its bytes the model carries the
stream position of the first of them; the position is a label, no branch looks at it.
The callback does not touch the framer.
-/
namespace Wirestead.Framer

/-- A message as handed to the callback, with the position of its first byte. -/
abbrev Message := ℕ × List UInt8

/-- `append_bytes`; a size that overflows cannot occur for bytes in memory. -/
def appendBytes (buffer data : List UInt8) (offset : ℕ) : List UInt8 :=
  if data.length ≤ offset then buffer else buffer ++ data.drop offset

/-- Positions counted from `pos` on. -/
def shift (pos : ℕ) (out : List Message) : List Message := out.map (fun m => (pos + m.1,m.2))

end Wirestead.Framer
