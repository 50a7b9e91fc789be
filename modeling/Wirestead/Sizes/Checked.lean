import Mathlib

/-! # Unsigned sizes with guarded subtractions

Sums of sizes wrap at the word; a subtraction that would wrap has no value, so that a
computation with a value is one in which no subtraction wrapped.
-/
namespace Wirestead.Sizes

/-- Sizes are 64-bit words. -/
def modulus : ℕ := 2 ^ 64

def add (a b : ℕ) : ℕ := (a + b) % modulus

theorem add_eq {a b : ℕ} (h : a + b < modulus) : add a b = a + b := Nat.mod_eq_of_lt h

def sub (a b : ℕ) : Option ℕ := if b ≤ a then some (a - b) else none

/-- The subtraction that stops at zero. -/
def release (current bytes : ℕ) : ℕ := if current > bytes then current - bytes else 0

theorem release_eq (current bytes : ℕ) : release current bytes = current - bytes := by
  unfold release
  split <;> omega

/-- `x > room || y > room - x || …`, evaluated from the left and only as far as needed. -/
def exceeds : ℕ → List ℕ → Option Bool
  | _, [] => some false
  | room, [x] => some (decide (x > room))
  | room, x :: y :: rest =>
    if x > room then some true else (sub room x).bind (fun room => exceeds room (y :: rest))

/-- The guards keep every subtraction from wrapping, and together they compare the sum. -/
theorem exceeds_eq (room : ℕ) (xs : List ℕ) : exceeds room xs = some (decide (room < xs.sum)) := by
  induction xs generalizing room with
  | nil => simp [exceeds]
  | cons x xs ih =>
    cases xs with
    | nil => simp [exceeds]
    | cons y rest =>
      rw [exceeds]
      by_cases h : x > room
      · rw [if_pos h, decide_eq_true]
        rw [List.sum_cons]
        omega
      · rw [if_neg h, sub, if_pos (not_lt.mp h), Option.bind_some, ih, List.sum_cons (a := x)]
        congr 2
        apply propext
        omega

theorem exceeds_of_lt {room : ℕ} {xs : List ℕ} (h : room < xs.sum) : exceeds room xs = some true := by
  rw [exceeds_eq, decide_eq_true h]

theorem exceeds_of_le {room : ℕ} {xs : List ℕ} (h : xs.sum ≤ room) :
    exceeds room xs = some false := by
  rw [exceeds_eq, decide_eq_false (not_lt.mpr h)]

end Wirestead.Sizes
