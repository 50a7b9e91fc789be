import Wirestead.Words.Fields
import Wirestead.Words.Substitution

/-! # The text of a log line

The format goes through one replacement pass for each placeholder. A pass does not look
again at what it has inserted, but the later passes do.
-/
namespace Wirestead.Diagnostics.LogFormat
open Words

inductive LogLevel
  | debug
  | info
  | warning
  | error
  | critical
  deriving DecidableEq, Repr

/-- `std::source_location`. -/
structure SourceLocation where
  fileName : List UInt8
  line : UInt32
  functionName : List UInt8
  deriving DecidableEq, Repr

/-- The arguments of a call, and the time stamp that it reads. -/
structure Entry where
  now : List UInt8
  level : LogLevel
  component : List UInt8
  operation : List UInt8
  message : List UInt8
  loc : SourceLocation
  deriving DecidableEq, Repr

/-- The loop with the number of its turns. Without fuel there is no result. -/
def replaceLoop (old new : List UInt8) : ℕ → List UInt8 → ℕ → Option (List UInt8 × ℕ)
  | 0, _, _ => none
  | n + 1, str, pos =>
    match searchFrom old str pos with
    | none => some (str,0)
    | some pos =>
      (replaceLoop old new n (str.take pos ++ new ++ str.drop (pos + old.length)) (pos + new.length)).map
        (fun r => (r.1,r.2 + 1))

def replaceAll (str old new : List UInt8) : Option (List UInt8 × ℕ) :=
  if old = [] then some (str,0) else replaceLoop old new (str.length + 1) str 0

def levelName : LogLevel → List UInt8
  | .debug => ascii "debug"
  | .info => ascii "info"
  | .warning => ascii "warning"
  | .error => ascii "error"
  | .critical => ascii "critical"

def SourceLocation.source (loc : SourceLocation) : List UInt8 :=
  loc.fileName ++ ascii ":" ++ decimal loc.line.toNat ++ ascii ":" ++ loc.functionName

/-- In the order of the passes. -/
def placeholders : List (List UInt8) :=
  [ascii "{timestamp}",ascii "{level}",ascii "{component}",ascii "{operation}",ascii "{source}",ascii "{file}",
    ascii "{line}",ascii "{function}",ascii "{message}"]

def Entry.values (e : Entry) : List (List UInt8) :=
  [e.now,levelName e.level,e.component,e.operation,e.loc.source,e.loc.fileName,decimal e.loc.line.toNat,
    e.loc.functionName,e.message]

def Entry.fields (e : Entry) : List (List UInt8 × List UInt8) := placeholders.zip e.values

/-- The passes in turn, with the number of replacements that each has made. -/
def runPasses : List (List UInt8 × List UInt8) → List UInt8 → Option (List UInt8 × List ℕ)
  | [], str => some (str,[])
  | f :: fs, str =>
    (replaceAll str f.1 f.2).bind fun r => (runPasses fs r.1).map fun r' => (r'.1,r.2 :: r'.2)

def formatMessage (format : List UInt8) (e : Entry) : Option (List UInt8) :=
  (runPasses e.fields format).map Prod.fst

/-- The numbers of replacements of a call. -/
def replacements (format : List UInt8) (e : Entry) : Option (List ℕ) := (runPasses e.fields format).map Prod.snd

section Passes
variable {old new : List UInt8}

/-- What lies before the position is left alone. -/
theorem replaceLoop_eq (hp : old ≠ []) {n : ℕ} {s : List UInt8} (hn : s.length < n) (front : List UInt8) :
    replaceLoop old new n (front ++ s) front.length = some (front ++ replaced old new s,occurrences old s) := by
  induction n generalizing s front with
  | zero => omega
  | succ n ih =>
    have hfrom : searchFrom old (front ++ s) front.length = (search old s).map (· + front.length) := by
      unfold searchFrom
      rw [List.drop_left]
    unfold replaceLoop
    rw [hfrom]
    cases h : search old s with
    | none =>
      simp [replaced_of_none h, (occurrences_eq_zero hp).mpr h]
    | some i =>
      have hlt := search_lt h
      have hpos := List.length_pos_iff.mpr hp
      have htake : (front ++ s).take (i + front.length) ++ new = front ++ s.take i ++ new := by
        rw [Nat.add_comm, List.take_length_add_append]
      have hdrop : (front ++ s).drop (i + front.length + old.length) = s.drop (i + old.length) := by
        rw [show i + front.length + old.length = front.length + (i + old.length) by omega, List.drop_length_add_append]
      have hlen : i + front.length + new.length = (front ++ s.take i ++ new).length := by
        simp only [List.length_append, List.length_take]
        omega
      simp only [Option.map_some, htake, hdrop, hlen]
      rw [ih (by rw [List.length_drop]; omega)]
      simp [replaced, occurrences, segments_some hp h]

theorem replaceAll_eq (hp : old ≠ []) (str : List UInt8) :
    replaceAll str old new = some (replaced old new str,occurrences old str) := by
  unfold replaceAll
  rw [if_neg hp]
  simpa using replaceLoop_eq hp (Nat.lt_succ_self str.length) []

/-- The remaining passes go on with the substitution as long as none of them meets more
than the occurrences in the format. -/
theorem runPasses_iff {o : UInt8} {done rest : List (List UInt8 × List UInt8)}
    (hmarked : ∀ f ∈ done ++ rest, Marked o f.1)
    (hpair : (done ++ rest).Pairwise (fun a b => ¬a.1 <+: b.1 ∧ ¬b.1 <+: a.1)) (s : List UInt8) :
    runPasses rest (substitute done s) = some (substitute (done ++ rest) s,rest.map (fun f => occurrences f.1 s)) ↔
      ∀ i f, rest[i]? = some f → occurrences f.1 (substitute (done ++ rest.take i) s) = occurrences f.1 s := by
  induction rest generalizing done with
  | nil => simp [runPasses]
  | cons f rest ih =>
    have hdone : ∀ e ∈ done, Marked o e.1 := fun e he => hmarked e (List.mem_append_left _ he)
    have hf : Marked o f.1 := hmarked f (by simp)
    have hne : ∀ e ∈ done, ¬e.1 <+: f.1 ∧ ¬f.1 <+: e.1 :=
      fun e he => (List.pairwise_append.mp hpair).2.2 e he f List.mem_cons_self
    have hstep : occurrences f.1 (substitute done s) = occurrences f.1 s →
        replaced f.1 f.2 (substitute done s) = substitute (done ++ [f]) s :=
      (occurrences_substitute hdone hf hne s).2
    rw [List.append_cons] at hmarked hpair ⊢
    have hrest := ih hmarked hpair
    unfold runPasses
    rw [replaceAll_eq hf.ne_nil, Option.bind_some, List.map_cons]
    constructor
    · intro h i g hg
      obtain ⟨r,hr,heq⟩ := Option.map_eq_some_iff.mp h
      obtain ⟨htext,hcounts⟩ := Prod.mk.inj heq
      obtain ⟨hfirst,hothers⟩ := List.cons.inj hcounts
      cases i with
      | zero =>
        obtain rfl : f = g := by simpa using hg
        simpa using hfirst
      | succ i =>
        rw [List.take_succ_cons, List.append_cons]
        refine hrest.mp ?_ i g (by simpa using hg)
        rw [← hstep hfirst, hr, ← htext, ← hothers]
    · intro h
      have hfirst : occurrences f.1 (substitute done s) = occurrences f.1 s := by
        simpa using h 0 f rfl
      rw [hstep hfirst, hrest.mpr (fun i g hg => ?_), hfirst]
      · rfl
      · rw [← List.append_cons, ← List.take_succ_cons]
        exact h (i + 1) g (by simpa using hg)

end Passes

theorem runPasses_isSome (fs : List (List UInt8 × List UInt8)) (str : List UInt8) : (runPasses fs str).isSome := by
  induction fs generalizing str with
  | nil => rfl
  | cons f fs ih =>
    have hpass : (replaceAll str f.1 f.2).isSome := by
      by_cases hf : f.1 = []
      · simp [replaceAll, hf]
      · simp [replaceAll_eq hf]
    obtain ⟨r,hr⟩ := Option.isSome_iff_exists.mp hpass
    simpa [runPasses, hr] using ih r.1

theorem formatMessage_terminates (format : List UInt8) (e : Entry) : (formatMessage format e).isSome := by
  simpa [formatMessage] using runPasses_isSome e.fields format

theorem fields_fst (e : Entry) : e.fields.map Prod.fst = placeholders := rfl

theorem fields_marked (e : Entry) : ∀ f ∈ e.fields, Marked 123 f.1 := by
  have hplaceholders : ∀ p ∈ placeholders, Marked 123 p := by
    simp only [marked_iff]
    decide +kernel
  exact fun f hf => hplaceholders f.1 (fields_fst e ▸ List.mem_map_of_mem hf)

theorem fields_apart (e : Entry) : e.fields.Pairwise (fun a b => ¬a.1 <+: b.1 ∧ ¬b.1 <+: a.1) := by
  have hplaceholders : placeholders.Pairwise (fun a b => ¬a <+: b ∧ ¬b <+: a) := by decide +kernel
  rw [← fields_fst e, List.pairwise_map] at hplaceholders
  exact hplaceholders

/-- The passes make the simultaneous substitution, and replace no more than the format's
own placeholders, unless the values bring a placeholder about that has its pass still to come. -/
theorem formatMessage_simultaneous_iff (format : List UInt8) (e : Entry) :
    (formatMessage format e = some (substitute e.fields format) ∧
      replacements format e = some (e.fields.map (fun f => occurrences f.1 format))) ↔
      ∀ i f, e.fields[i]? = some f →
        occurrences f.1 (substitute (e.fields.take i) format) = occurrences f.1 format := by
  have h := @runPasses_iff 123 [] e.fields (fields_marked e) (fields_apart e) format
  rw [substitute_nil_table, List.nil_append] at h
  simp only [List.nil_append] at h
  rw [← h]
  unfold formatMessage replacements
  cases runPasses e.fields format with
  | none => simp
  | some r => simp [Prod.ext_iff]

/-- A component name that reads as a placeholder. -/
def misread : Entry := ⟨[],.info,ascii "{message}",[],ascii "x",⟨[],0,[]⟩⟩

theorem misread_replaced :
    ¬(formatMessage (ascii "{component} {message}") misread =
        some (substitute misread.fields (ascii "{component} {message}")) ∧
      replacements (ascii "{component} {message}") misread =
        some (misread.fields.map (fun f => occurrences f.1 (ascii "{component} {message}")))) := by
  decide +kernel

-- What the call gives instead of the name.
example : formatMessage (ascii "{component} {message}") misread = some (ascii "x x") := by decide +kernel

end Wirestead.Diagnostics.LogFormat
