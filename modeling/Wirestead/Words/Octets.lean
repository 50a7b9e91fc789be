import Mathlib

/-! # Fixed-width numbers as octets, most significant first -/
namespace Wirestead.Words

/-- The octets of `n` reduced to `w` octets. -/
def octets : ℕ → ℕ → List UInt8
  | 0, _ => []
  | w + 1, n => UInt8.ofNat (n / 256 ^ w) :: octets w n

/-- Shift-and-or accumulation from the first octet on. -/
def octetValue (bs : List UInt8) : ℕ := bs.foldl (fun value b => value <<< 8 ||| b.toNat) 0

@[simp] theorem length_octets (w n : ℕ) : (octets w n).length = w := by
  induction w with
  | zero => rfl
  | succ w ih => simp [octets, ih]

theorem shift_or_octet (value : ℕ) (b : UInt8) : value <<< 8 ||| b.toNat = value * 256 + b.toNat := by
  rw [← Nat.shiftLeft_add_eq_or_of_lt b.toNat_lt, Nat.shiftLeft_eq]

theorem foldl_octets (w n acc : ℕ) :
    (octets w n).foldl (fun value b => value <<< 8 ||| b.toNat) acc = acc * 256 ^ w + n % 256 ^ w := by
  induction w generalizing acc with
  | zero => simp [octets, Nat.mod_one]
  | succ w ih =>
    have hb : (UInt8.ofNat (n / 256 ^ w)).toNat = n / 256 ^ w % 256 := by simp
    rw [octets, List.foldl_cons, ih, shift_or_octet, hb]
    have hm : n % 256 ^ (w + 1) = n % 256 ^ w + 256 ^ w * (n / 256 ^ w % 256) := by
      rw [pow_succ, Nat.mod_mul]
    rw [hm]
    ring

theorem octetValue_octets {w n : ℕ} (h : n < 256 ^ w) : octetValue (octets w n) = n := by
  rw [octetValue, foldl_octets, Nat.zero_mul, Nat.zero_add, Nat.mod_eq_of_lt h]

end Wirestead.Words
