import Wirestead.Words.Octets

/-! # The length-prefix framer

The buffer is the only mutable member. A push appends, decodes as many whole frames
as the buffer holds and erases them at once. A header that cannot be right clears
the buffer and ends the push.
-/
namespace Wirestead.Framer
open Words

inductive Endian
  | big
  | little
  deriving DecidableEq, Repr

structure LengthPrefixFramer where
  prefixBytes : ℕ
  endian : Endian
  maxLength : ℕ
  lengthIncludesPrefix : Bool
  prefix_width : prefixBytes = 1 ∨ prefixBytes = 2 ∨ prefixBytes = 4
  maxLength_pos : 0 < maxLength
  deriving DecidableEq

namespace LengthPrefixFramer
variable (f : LengthPrefixFramer)

/-- `read_length`: `none` when the buffer does not yet hold a whole header. -/
def readLength (buffer : List UInt8) (offset : ℕ) : Option ℕ :=
  if buffer.length - offset < f.prefixBytes then none
  else some ((List.range f.prefixBytes).foldl (fun value i =>
    let idx := match f.endian with
      | .big => offset + i
      | .little => offset + (f.prefixBytes - 1 - i)
    value <<< 8 ||| (buffer.getD idx 0).toNat) 0)

inductive Found
  | needMore
  | corrupt
  | frame (payloadLen : ℕ)
  deriving DecidableEq, Repr

def payloadLength (declared : ℕ) : ℕ :=
  if f.lengthIncludesPrefix then declared - f.prefixBytes else declared

def look (buffer : List UInt8) (consumed : ℕ) : Found :=
  match f.readLength buffer consumed with
  | none => .needMore
  | some declared =>
    if f.lengthIncludesPrefix ∧ declared < f.prefixBytes then .corrupt
    else if f.maxLength < f.payloadLength declared then .corrupt
    else if buffer.length < consumed + f.prefixBytes + f.payloadLength declared then .needMore
    else .frame (f.payloadLength declared)

/-- The decoding loop: the bytes consumed, or `none` after a `reset()`, and the
payloads. A frame is at least its header, so the buffer's length bounds the turns. -/
def pushLoop (buffer : List UInt8) : ℕ → ℕ → Option ℕ × List (List UInt8)
  | 0, consumed => (some consumed,[])
  | fuel + 1, consumed =>
    match f.look buffer consumed with
    | .needMore => (some consumed,[])
    | .corrupt => (none,[])
    | .frame payloadLen =>
      let r := pushLoop buffer fuel (consumed + f.prefixBytes + payloadLen)
      (r.1,(buffer.drop (consumed + f.prefixBytes)).take payloadLen :: r.2)

def decode (buffer : List UInt8) : Option ℕ × List (List UInt8) :=
  f.pushLoop buffer (buffer.length + 1) 0

def pushBytes (buffer data : List UInt8) : List UInt8 × List (List UInt8) :=
  let appended := if data = [] then buffer else buffer ++ data
  match f.decode appended with
  | (none,out) => ([],out)
  | (some consumed,out) => (if 0 < consumed then appended.drop consumed else appended,out)

def pushAll : List UInt8 → List (List UInt8) → List UInt8 × List (List UInt8)
  | buffer, [] => (buffer,[])
  | buffer, c :: cs =>
    let r := f.pushBytes buffer c
    let t := pushAll r.1 cs
    (t.1,r.2 ++ t.2)

def fieldBytes (declared : ℕ) : List UInt8 :=
  match f.endian with
  | .big => octets f.prefixBytes declared
  | .little => (octets f.prefixBytes declared).reverse

def declaredLength (payload : List UInt8) : ℕ :=
  if f.lengthIncludesPrefix then payload.length + f.prefixBytes else payload.length

/-- The wire format: a frame is the header field and the payload. -/
def encode (payload : List UInt8) : List UInt8 := f.fieldBytes (f.declaredLength payload) ++ payload

def Encodable (payload : List UInt8) : Prop :=
  payload.length ≤ f.maxLength ∧ f.declaredLength payload < 256 ^ f.prefixBytes

theorem prefixBytes_pos : 0 < f.prefixBytes := by
  rcases f.prefix_width with h | h | h <;> omega

@[simp] theorem length_fieldBytes (n : ℕ) : (f.fieldBytes n).length = f.prefixBytes := by
  unfold fieldBytes
  split <;> simp

theorem length_encode (p : List UInt8) : (f.encode p).length = f.prefixBytes + p.length := by
  simp [encode]

theorem map_range_getD (l : List UInt8) : (List.range l.length).map (fun i => l.getD i 0) = l := by
  apply List.ext_getElem
  · simp
  · intro i h1 h2
    rw [List.getElem_map, List.getElem_range, List.getD_eq_getElem _ _ h2]

/-- The value of the header field is that of the next `prefixBytes` bytes, taken in
the framer's byte order. -/
theorem readLength_eq (buffer : List UInt8) (offset : ℕ) :
    f.readLength buffer offset =
      if (buffer.drop offset).length < f.prefixBytes then none
      else some (octetValue (match f.endian with
        | .big => (buffer.drop offset).take f.prefixBytes
        | .little => ((buffer.drop offset).take f.prefixBytes).reverse)) := by
  unfold readLength
  rw [List.length_drop]
  by_cases hs : buffer.length - offset < f.prefixBytes
  · rw [if_pos hs, if_pos hs]
  rw [if_neg hs, if_neg hs]
  have hp := f.prefixBytes_pos
  set field := (buffer.drop offset).take f.prefixBytes with hfield
  have hl : field.length = f.prefixBytes := by
    rw [hfield, List.length_take, List.length_drop]
    omega
  have hget : ∀ i < f.prefixBytes, buffer.getD (offset + i) 0 = field.getD i 0 := by
    intro i hi
    rw [List.getD_eq_getElem _ _ (by omega), List.getD_eq_getElem _ _ (by omega)]
    simp [hfield]
  congr 1
  cases f.endian with
  | big =>
    simp only
    rw [octetValue, ← map_range_getD field, hl, List.foldl_map]
    refine List.foldl_ext _ _ _ (fun value i hi => ?_)
    rw [hget i (List.mem_range.mp hi)]
  | little =>
    simp only
    rw [octetValue, ← map_range_getD field.reverse, List.length_reverse, hl, List.foldl_map]
    refine List.foldl_ext _ _ _ (fun value i hi => ?_)
    have hi' := List.mem_range.mp hi
    rw [hget _ (by omega), List.getD_eq_getElem _ _ (by omega),
      List.getD_eq_getElem _ _ (by rw [List.length_reverse]; omega), List.getElem_reverse]
    simp [hl]

theorem readLength_encode {p : List UInt8} (hp : f.Encodable p) (rest : List UInt8) :
    f.readLength (f.encode p ++ rest) 0 = some (f.declaredLength p) := by
  have htake : ((f.encode p ++ rest).drop 0).take f.prefixBytes =
      f.fieldBytes (f.declaredLength p) := by
    rw [List.drop_zero, encode, List.append_assoc, List.take_left' (f.length_fieldBytes _)]
  rw [readLength_eq, if_neg (by simp [length_encode]; omega), htake]
  unfold fieldBytes
  cases f.endian <;> simp [octetValue_octets hp.2]

end LengthPrefixFramer
end Wirestead.Framer
