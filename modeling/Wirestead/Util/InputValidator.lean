import Wirestead.Words.Fields

/-! # Host validation

A host is an address in one of two notations or a hostname. Parsing and printing of
addresses is the library's.
-/
namespace Wirestead.Util
open Words

def dot : UInt8 := 46

def hyphen : UInt8 := 45

def colon : UInt8 := 58

def maxHostnameLength : ℕ := 253

/-- `isalnum` of the C locale. -/
def isAlnum (c : UInt8) : Bool := isDigit c || (65 ≤ c && c ≤ 90) || (97 ≤ c && c ≤ 122)

/-- What the loop checks of a label, and the code after the loop again of the last one. -/
def isValidLabel (label : List UInt8) : Bool :=
  if label = [] ∨ label.length > 63 then false
  else if label.head? = some hyphen ∨ label.getLast? = some hyphen then false
  else label.all (fun c => isAlnum c || c = hyphen)

/-- The labels from a position on. Each turn of the loop passes a dot. -/
def checkLabels : ℕ → List UInt8 → Bool
  | 0, _ => false
  | n + 1, rest =>
    match search [dot] rest with
    | none => isValidLabel rest
    | some i => isValidLabel (rest.take i) && checkLabels n (rest.drop (i + 1))

def isValidHostname (hostname : List UInt8) : Bool :=
  if hostname = [] ∨ hostname.length > maxHostnameLength then false
  else if hostname.head? = some hyphen ∨ hostname.getLast? = some hyphen then false
  else checkLabels (hostname.length + 1) hostname

structure AddressV4 where
  b0 : UInt8
  b1 : UInt8
  b2 : UInt8
  b3 : UInt8
  deriving DecidableEq

/-- The address library; `none` and `false` stand for an error code. -/
structure AddressLibrary where
  makeAddressV4 : List UInt8 → Option AddressV4
  toString : AddressV4 → List UInt8
  makeAddressV6 : List UInt8 → Bool

section Hosts
variable (ip : AddressLibrary)

def isValidIpv4 (address : List UInt8) : Bool :=
  if address = [] then false
  else
    match ip.makeAddressV4 address with
    | none => false
    | some a => if ip.toString a ≠ address then false else true

def isValidIpv6 (address : List UInt8) : Bool :=
  if address.contains 91 || address.contains 93 then false else ip.makeAddressV6 address

def isValidHost (host : List UInt8) : Bool :=
  if isValidIpv4 ip host then true
  else if isValidIpv6 ip host then true
  else if isValidHostname host then true
  else false

end Hosts

/-- Letters, digits and hyphens, with no hyphen at either end. -/
structure IsLabel (label : List UInt8) : Prop where
  length_pos : 1 ≤ label.length
  length_le : label.length ≤ 63
  letters : ∀ c ∈ label, isAlnum c ∨ c = hyphen
  head : label.head? ≠ some hyphen
  last : label.getLast? ≠ some hyphen

def IsHostname (s : List UInt8) : Prop :=
  1 ≤ s.length ∧ s.length ≤ 253 ∧
    ∃ labels, labels ≠ [] ∧ s = [dot].intercalate labels ∧ ∀ label ∈ labels, IsLabel label

/-- The canonical notation of an address. -/
def dotted (a : AddressV4) : List UInt8 :=
  [dot].intercalate [decimal a.b0.toNat,decimal a.b1.toNat,decimal a.b2.toNat,decimal a.b3.toNat]

def IsDotted (s : List UInt8) : Prop := ∃ a, s = dotted a

def DigitsAndDots (s : List UInt8) : Prop := ∀ c ∈ s, isDigit c ∨ c = dot

/-- The hosts of one meaning. -/
def Unambiguous (ip : AddressLibrary) (s : List UInt8) : Prop :=
  IsDotted s ∨ (91 ∉ s ∧ 93 ∉ s ∧ ip.makeAddressV6 s) ∨ (IsHostname s ∧ ¬DigitsAndDots s)

theorem length_iff {s : List UInt8} {n : ℕ} : ¬(s = [] ∨ s.length > n) ↔ 1 ≤ s.length ∧ s.length ≤ n := by
  rw [not_or, not_lt]
  exact and_congr_left' List.length_pos_iff.symm

theorem isValidLabel_iff (label : List UInt8) : isValidLabel label ↔ IsLabel label := by
  unfold isValidLabel
  split_ifs with hlength hends
  · simp only [false_iff]
    exact fun h => length_iff.mpr ⟨h.length_pos,h.length_le⟩ hlength
  · simp only [false_iff]
    exact fun h => hends.elim h.head h.last
  · obtain ⟨hpos,hle⟩ := length_iff.mp hlength
    rw [not_or] at hends
    simp only [List.all_eq_true, Bool.or_eq_true, decide_eq_true_eq]
    exact ⟨fun h => ⟨hpos,hle,h,hends.1,hends.2⟩,fun h => h.letters⟩

theorem IsLabel.dot_notMem {label : List UInt8} (h : IsLabel label) : dot ∉ label := by
  intro hdot
  rcases h.letters dot hdot with h | h
  · exact absurd h (by decide)
  · exact absurd h (by decide)

/-- The loop checks the fields between the dots. -/
theorem checkLabels_eq {n : ℕ} {s : List UInt8} (hn : s.length < n) :
    checkLabels n s = (s.splitOn dot).all isValidLabel := by
  induction n generalizing s with
  | zero => omega
  | succ n ih =>
    unfold checkLabels
    cases h : search [dot] s with
    | none => simp [List.splitOn_eq_singleton (search_singleton_eq_none_iff.mp h)]
    | some i =>
      obtain ⟨hfront,hs⟩ := search_singleton_eq_some h
      have hlt := search_lt h
      have hrest : (s.drop (i + 1)).length < n := by
        simp only [List.length_drop, List.length_singleton] at *
        omega
      conv_rhs => rw [hs, List.splitOn_append_cons_self_of_not_mem hfront, List.all_cons, ← ih hrest]

theorem isHostname_iff (s : List UInt8) :
    IsHostname s ↔ 1 ≤ s.length ∧ s.length ≤ 253 ∧ ∀ label ∈ s.splitOn dot, IsLabel label := by
  refine and_congr_right' (and_congr_right' ⟨?_,fun h => ?_⟩)
  · rintro ⟨labels,hne,rfl,hlabels⟩
    rw [List.splitOn_intercalate dot (fun label h => (hlabels label h).dot_notMem) hne]
    exact hlabels
  · exact ⟨s.splitOn dot,List.splitOn_ne_nil _ _,(List.intercalate_splitOn dot).symm,h⟩

/-- A hyphen at an end of the name is one at an end of a label. -/
theorem ends_ne_hyphen {s : List UInt8} (h : ∀ label ∈ s.splitOn dot, IsLabel label) :
    s.head? ≠ some hyphen ∧ s.getLast? ≠ some hyphen := by
  rw [← segments_eq_splitOn] at h
  have hs := segments_flatten (List.cons_ne_nil dot []) s
  generalize segments [dot] s = r at h hs
  obtain ⟨contents,tail⟩ := r
  have htail : IsLabel tail := h tail (by simp)
  have hne : tail ≠ [] := List.length_pos_iff.mp htail.length_pos
  constructor
  · cases contents with
    | nil =>
      rw [← hs]
      exact htail.head
    | cons content contents =>
      have hcontent : IsLabel content := h content (by simp)
      have hne : content ≠ [] := List.length_pos_iff.mp hcontent.length_pos
      rw [← hs]
      simp only [List.map_cons, List.flatten_cons, List.append_assoc, List.head?_append_of_ne_nil _ hne]
      exact hcontent.head
  · rw [← hs, List.getLast?_append_of_ne_nil _ hne]
    exact htail.last

/-- The hostname check is exact. -/
theorem isValidHostname_iff (s : List UInt8) : isValidHostname s ↔ IsHostname s := by
  rw [isHostname_iff]
  unfold isValidHostname maxHostnameLength
  split_ifs with hlength hends
  · simp only [false_iff]
    exact fun h => length_iff.mpr ⟨h.1,h.2.1⟩ hlength
  · simp only [false_iff]
    rintro ⟨-,-,hlabels⟩
    obtain ⟨hhead,hlast⟩ := ends_ne_hyphen hlabels
    exact hends.elim hhead hlast
  · obtain ⟨hpos,hle⟩ := length_iff.mp hlength
    rw [checkLabels_eq (Nat.lt_succ_self _), List.all_eq_true]
    simp only [isValidLabel_iff]
    exact ⟨fun h => ⟨hpos,hle,h⟩,fun h => h.2.2⟩

section Addresses
variable {ip : AddressLibrary} {s : List UInt8}

theorem dotted_ne_nil (a : AddressV4) : dotted a ≠ [] := by
  simp [dotted, decimal_ne_nil]

/-- The canonical form is what the check compares with. -/
theorem isValidIpv4_iff (hprint : ∀ a, ip.toString a = dotted a) (hparse : ∀ a, ip.makeAddressV4 (dotted a) = some a) :
    isValidIpv4 ip s ↔ IsDotted s := by
  unfold isValidIpv4
  constructor
  · intro h
    split_ifs at h
    cases ha : ip.makeAddressV4 s with
    | none => simp [ha] at h
    | some a =>
      refine ⟨a,?_⟩
      simpa [ha, hprint, eq_comm] using h
  · rintro ⟨a,rfl⟩
    simp [dotted_ne_nil, hparse, hprint]

theorem isValidIpv6_iff : isValidIpv6 ip s ↔ 91 ∉ s ∧ 93 ∉ s ∧ ip.makeAddressV6 s := by
  unfold isValidIpv6
  simp [and_assoc]

theorem isValidHost_iff (hprint : ∀ a, ip.toString a = dotted a)
    (hparse : ∀ a, ip.makeAddressV4 (dotted a) = some a) :
    isValidHost ip s ↔ IsDotted s ∨ (91 ∉ s ∧ 93 ∉ s ∧ ip.makeAddressV6 s) ∨ IsHostname s := by
  rw [← isValidIpv4_iff hprint hparse, ← isValidIpv6_iff, ← isValidHostname_iff]
  unfold isValidHost
  cases isValidIpv4 ip s <;> cases isValidIpv6 ip s <;> simp

/-- Only the hostname check lets a host through that has more than one meaning. -/
theorem unambiguous_iff (hprint : ∀ a, ip.toString a = dotted a)
    (hparse : ∀ a, ip.makeAddressV4 (dotted a) = some a)
    (hcolon : ∀ s, ip.makeAddressV6 s → colon ∈ s) (s : List UInt8) :
    ((isValidHostname s ↔ IsHostname s) ∧ (isValidHost ip s ↔ Unambiguous ip s) ∧
      (DigitsAndDots s → ¬IsDotted s → ¬isValidHost ip s)) ↔
      ¬(IsHostname s ∧ DigitsAndDots s ∧ ¬IsDotted s) := by
  have hv6 : DigitsAndDots s → ¬ip.makeAddressV6 s := by
    intro hd h
    rcases hd colon (hcolon s h) with h | h
    · exact absurd h (by decide)
    · exact absurd h (by decide)
  rw [isValidHost_iff hprint hparse]
  unfold Unambiguous
  constructor
  · rintro ⟨-,-,hnever⟩ ⟨hname,hdigits,hdotted⟩
    exact hnever hdigits hdotted (Or.inr (Or.inr hname))
  · intro h
    refine ⟨isValidHostname_iff s,?_,fun hdigits hdotted hvalid => ?_⟩
    · tauto
    · rcases hvalid with hv | hv | hv
      · exact hdotted hv
      · exact hv6 hdigits hv.2.2
      · exact h ⟨hv,hdigits,hdotted⟩

end Addresses

/-- An octet with no leading zeros. -/
def readOctet (s : List UInt8) : Option UInt8 :=
  if s = decimal (numeral s) ∧ numeral s < 256 then some (UInt8.ofNat (numeral s)) else none

/-- A library that reads four octets, and of the other notation the unspecified address. -/
def plainLibrary : AddressLibrary where
  makeAddressV4 s :=
    match s.splitOn dot with
    | [s0,s1,s2,s3] =>
      (readOctet s0).bind fun b0 => (readOctet s1).bind fun b1 => (readOctet s2).bind fun b2 =>
        (readOctet s3).map fun b3 => ⟨b0,b1,b2,b3⟩
    | _ => none
  toString := dotted
  makeAddressV6 s := s = [colon,colon]

theorem readOctet_decimal (n : UInt8) : readOctet (decimal n.toNat) = some n := by
  unfold readOctet
  rw [numeral_decimal, if_pos ⟨rfl,n.toNat_lt⟩, UInt8.ofNat_toNat]

theorem plainLibrary_dotted (a : AddressV4) : plainLibrary.makeAddressV4 (dotted a) = some a := by
  have hfields : (dotted a).splitOn dot =
      [decimal a.b0.toNat,decimal a.b1.toNat,decimal a.b2.toNat,decimal a.b3.toNat] := by
    apply List.splitOn_intercalate dot _ (List.cons_ne_nil _ _)
    have hdigits : ∀ n : ℕ, dot ∉ decimal n := fun n h => absurd (isDigit_of_mem_decimal h) (by decide)
    simp [hdigits]
  unfold plainLibrary
  simp only [hfields, readOctet_decimal, Option.bind_some, Option.map_some]

theorem plainLibrary_colon {s : List UInt8} (h : plainLibrary.makeAddressV6 s) : colon ∈ s := by
  rw [of_decide_eq_true h]
  exact List.mem_cons_self

/-- The hostname check lets an address through whose first octet is out of range. -/
theorem unambiguous_iff_outOfRange :
    ((isValidHostname (ascii "256.1.1.1") ↔ IsHostname (ascii "256.1.1.1")) ∧
      (isValidHost plainLibrary (ascii "256.1.1.1") ↔ Unambiguous plainLibrary (ascii "256.1.1.1")) ∧
      (DigitsAndDots (ascii "256.1.1.1") → ¬IsDotted (ascii "256.1.1.1") →
        ¬isValidHost plainLibrary (ascii "256.1.1.1"))) ↔
      ¬(IsHostname (ascii "256.1.1.1") ∧ DigitsAndDots (ascii "256.1.1.1") ∧ ¬IsDotted (ascii "256.1.1.1")) :=
  unambiguous_iff (fun _ => rfl) plainLibrary_dotted (fun _ h => plainLibrary_colon h) (ascii "256.1.1.1")

theorem outOfRange_accepted :
    ¬((isValidHostname (ascii "256.1.1.1") ↔ IsHostname (ascii "256.1.1.1")) ∧
      (isValidHost plainLibrary (ascii "256.1.1.1") ↔ Unambiguous plainLibrary (ascii "256.1.1.1")) ∧
      (DigitsAndDots (ascii "256.1.1.1") → ¬IsDotted (ascii "256.1.1.1") →
        ¬isValidHost plainLibrary (ascii "256.1.1.1"))) := by
  rintro ⟨-,-,hnever⟩
  refine hnever (by unfold DigitsAndDots; decide +kernel) ?_ (by decide)
  rintro ⟨a,ha⟩
  have hread := plainLibrary_dotted a
  rw [← ha] at hread
  have hout : plainLibrary.makeAddressV4 (ascii "256.1.1.1") = none := by decide
  exact absurd (hout.symm.trans hread) (Option.some_ne_none a).symm

end Wirestead.Util
