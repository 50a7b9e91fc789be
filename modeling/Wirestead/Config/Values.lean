import Wirestead.Words.Fields

/-! # Configuration values and their texts

Reading a number stops at the first letter that does not belong to it. Reading and
printing of floating-point numbers is the standard library's.
-/
namespace Wirestead.Config
open Words

abbrev Text := List UInt8

inductive ConfigType
  | string
  | integer
  | boolean
  | double
  | array
  | object
  deriving DecidableEq, Repr

/-- The values that callers store. -/
inductive Value (D : Type*)
  | string (s : Text)
  | int (n : Int32)
  | bool (b : Bool)
  | double (d : D)
  deriving DecidableEq

def Value.type {D : Type*} : Value D → ConfigType
  | .string _ => .string
  | .int _ => .integer
  | .bool _ => .boolean
  | .double _ => .double

/-- `stod` and `to_string` on doubles; `none` stands for an exception. -/
structure DoubleText (D : Type*) where
  stod : Text → Option D
  toString : D → Text

/-- For examples in which no floating-point number comes up. -/
def noDoubles : DoubleText Empty := ⟨fun _ => none,Empty.elim⟩

/-- `isspace` of the C locale. -/
def isSpace (c : UInt8) : Bool := c = 32 || (9 ≤ c && c ≤ 13)

/-- The sign and the digits that a number begins with. -/
def splitSign (s : Text) : Bool × Text :=
  if s.head? = some 45 then (true,s.tail) else if s.head? = some 43 then (false,s.tail) else (false,s)

def signed (negative : Bool) (n : ℕ) : ℤ := if negative then -n else n

/-- `none` stands for an exception: no digits, or a number out of range. -/
def stoi (s : Text) : Option Int32 :=
  let r := splitSign (s.dropWhile isSpace)
  let digits := r.2.takeWhile isDigit
  let n := signed r.1 (numeral digits)
  if digits = [] then none
  else if -2 ^ 31 ≤ n ∧ n < 2 ^ 31 then some (Int32.ofInt n)
  else none

/-- `to_string` on integers. -/
def printInt (n : Int32) : Text :=
  if n.toInt < 0 then 45 :: decimal n.toInt.natAbs else decimal n.toInt.natAbs

/-- The whole text is an optional sign with digits, and within the range. -/
def DenotesInt (s : Text) (n : Int32) : Prop :=
  ∃ sign digits, s = sign ++ digits ∧ (sign = [] ∨ sign = [43] ∨ sign = [45]) ∧ digits ≠ [] ∧
    (∀ c ∈ digits, isDigit c) ∧ n.toInt = signed (sign = [45]) (numeral digits)

section Values
variable {D : Type*} (fmt : DoubleText D)

def serializeValue : Value D → ConfigType → Text
  | .string s, .string => s
  | .int n, .integer => printInt n
  | .bool b, .boolean => if b then ascii "true" else ascii "false"
  | .double d, .double => fmt.toString d
  | _, _ => ascii "unknown"

/-- A text that cannot be converted is taken as it is. -/
def deserializeValue (s : Text) : ConfigType → Value D
  | .string => .string s
  | .integer => ((stoi s).map .int).getD (.string s)
  | .boolean => .bool (s = ascii "true")
  | .double => ((fmt.stod s).map .double).getD (.string s)
  | .array => .string s
  | .object => .string s

end Values

def isBlank (c : UInt8) : Bool := c = 32 || c = 9

def trim (s : Text) : Text := (s.dropWhile isBlank).rdropWhile isBlank

/-- The type of a key that is new, from its text. -/
def guessType (s : Text) : ConfigType :=
  if s = ascii "true" ∨ s = ascii "false" then .boolean
  else if s.all (fun c => isDigit c || c = 45) then .integer
  else if s.count 46 = 1 ∧ s.all (fun c => isDigit c || c = 46 || c = 45) then .double
  else .string

theorem isDigit_range {c : UInt8} (h : isDigit c) : 48 ≤ c.toNat ∧ c.toNat ≤ 57 := by
  unfold isDigit at h
  rw [Bool.and_eq_true, decide_eq_true_iff, decide_eq_true_iff] at h
  exact ⟨UInt8.le_iff_toNat_le.mp h.1,UInt8.le_iff_toNat_le.mp h.2⟩

theorem ne_of_isDigit {c d : UInt8} (h : isDigit c) (hd : d.toNat < 48) : c ≠ d :=
  fun hc => absurd (hc ▸ (isDigit_range h).1) (by omega)

theorem isDigit_ne {c : UInt8} (h : isDigit c) : c ≠ 45 ∧ c ≠ 43 ∧ isSpace c = false := by
  obtain ⟨hlo,-⟩ := isDigit_range h
  refine ⟨ne_of_isDigit h (by decide),ne_of_isDigit h (by decide),?_⟩
  have hspace : ¬c ≤ 13 := fun hle => absurd (UInt8.le_iff_toNat_le.mp hle) (by
    have h13 : (13 : UInt8).toNat = 13 := rfl
    omega)
  have h32 : c ≠ 32 := ne_of_isDigit h (by decide)
  simp [isSpace, h32, hspace]

/-- No space comes before the sign or the digits. -/
theorem dropWhile_space {sign digits : Text} (hsign : sign = [] ∨ sign = [43] ∨ sign = [45]) (hne : digits ≠ [])
    (hd : ∀ c ∈ digits, isDigit c) : (sign ++ digits).dropWhile isSpace = sign ++ digits := by
  obtain ⟨c,rest,rfl⟩ := List.exists_cons_of_ne_nil hne
  obtain ⟨-,-,hspace⟩ := isDigit_ne (hd c List.mem_cons_self)
  rcases hsign with rfl | rfl | rfl
  · simp [hspace]
  · simp [show isSpace 43 = false from rfl]
  · simp [show isSpace 45 = false from rfl]

theorem splitSign_append {sign digits : Text} (hsign : sign = [] ∨ sign = [43] ∨ sign = [45]) (hne : digits ≠ [])
    (hd : ∀ c ∈ digits, isDigit c) : splitSign (sign ++ digits) = (decide (sign = [45]),digits) := by
  obtain ⟨c,rest,rfl⟩ := List.exists_cons_of_ne_nil hne
  obtain ⟨hminus,hplus,-⟩ := isDigit_ne (hd c List.mem_cons_self)
  rcases hsign with rfl | rfl | rfl
  · simp [splitSign, hminus, hplus]
  · simp [splitSign]
  · simp [splitSign]

theorem splitSign_cases (s : Text) :
    ∃ sign, s = sign ++ (splitSign s).2 ∧ (sign = [] ∨ sign = [43] ∨ sign = [45]) ∧
      (splitSign s).1 = decide (sign = [45]) := by
  unfold splitSign
  split_ifs with hminus hplus
  · obtain ⟨rest,rfl⟩ := List.head?_eq_some_iff.mp hminus
    exact ⟨[45],rfl,Or.inr (Or.inr rfl),rfl⟩
  · obtain ⟨rest,rfl⟩ := List.head?_eq_some_iff.mp hplus
    exact ⟨[43],rfl,Or.inr (Or.inl rfl),rfl⟩
  · exact ⟨[],rfl,Or.inl rfl,rfl⟩

/-- A text that denotes a number is read as that number. -/
theorem DenotesInt.stoi_eq {s : Text} {n : Int32} (h : DenotesInt s n) : stoi s = some n := by
  obtain ⟨sign,digits,rfl,hsign,hne,hd,hn⟩ := h
  have hdigits : digits.takeWhile isDigit = digits := List.takeWhile_eq_self_iff.mpr hd
  unfold stoi
  rw [dropWhile_space hsign hne hd, splitSign_append hsign hne hd]
  dsimp only
  rw [hdigits, ← hn, if_neg hne, if_pos ⟨n.le_toInt,n.toInt_lt⟩, Int32.ofInt_toInt]

theorem printInt_denotes (n : Int32) : DenotesInt (printInt n) n := by
  unfold printInt
  split
  · refine ⟨[45],decimal n.toInt.natAbs,rfl,Or.inr (Or.inr rfl),decimal_ne_nil _,
      fun c hc => isDigit_of_mem_decimal hc,?_⟩
    rw [numeral_decimal]
    simp only [signed, decide_true, if_true]
    omega
  · refine ⟨[],decimal n.toInt.natAbs,rfl,Or.inl rfl,decimal_ne_nil _,fun c hc => isDigit_of_mem_decimal hc,?_⟩
    rw [numeral_decimal]
    have hplus : decide (([] : Text) = [45]) = false := rfl
    rw [hplus]
    simp only [signed, Bool.false_eq_true, if_false]
    omega

theorem stoi_printInt (n : Int32) : stoi (printInt n) = some n := (printInt_denotes n).stoi_eq

end Wirestead.Config
