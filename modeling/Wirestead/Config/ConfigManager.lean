import Wirestead.Config.Values

/-! # The configuration manager

Items by their keys; the order of the entries stands for the order of an iteration.
Change callbacks run when a call is done with the items, so what they call are more calls.
-/
namespace Wirestead.Config
open Words

structure ValidationResult where
  isValid : Bool
  errorMessage : Text
  deriving DecidableEq, Repr

def ValidationResult.success : ValidationResult := ⟨true,[]⟩

def ValidationResult.error (message : Text) : ValidationResult := ⟨false,message⟩

/-- A validator is the user's; `none` stands for an exception. -/
abbrev Validator (D : Type*) := Value D → Option ValidationResult

structure ConfigItem (D : Type*) where
  key : Text
  value : Value D
  type : ConfigType
  required : Bool
  description : Text
  validator : Option (Validator D)

def ConfigItem.WellTyped {D : Type*} (item : ConfigItem D) : Prop := item.value.type = item.type

abbrev Items (D : Type*) := AList (fun _ : Text => ConfigItem D)

/-- The lines that `getline` gives. -/
def getLines (content : Text) : List Text :=
  let r := segments [10] content
  if r.2 = [] then r.1 else r.1 ++ [r.2]

/-- Key and text of a line that is not skipped. -/
def parseLine (line : Text) : Option (Text × Text) :=
  if line = [] ∨ line.head? = some 35 then none
  else (search [61] line).map fun pos => (trim (line.take pos),trim (line.drop (pos + 1)))

section Manager
variable {D : Type*} (fmt : DoubleText D)

def validateValue (items : Items D) (key : Text) (value : Value D) : Option ValidationResult :=
  match items.lookup key with
  | none => some .success
  | some item =>
    match item.validator with
    | some validator => validator value
    | none =>
      if item.type ≠ value.type then some (.error (ascii "Type mismatch for key '" ++ key ++ ascii "'"))
      else some .success

/-- The result, unless the validator throws, and the items. -/
def set (items : Items D) (key : Text) (value : Value D) : Option ValidationResult × Items D :=
  match validateValue items key value with
  | none => (none,items)
  | some result =>
    if ¬result.isValid then (some result,items)
    else
      match items.lookup key with
      | some item => (some .success,items.insert key { item with value := value })
      | none => (some .success,items.insert key ⟨key,value,.string,false,[],none⟩)

def validateEntries (items : Items D) : List (Sigma fun _ : Text => ConfigItem D) → Option ValidationResult
  | [] => some .success
  | e :: es =>
    match validateValue items e.1 e.2.value with
    | none => none
    | some result => if ¬result.isValid then some result else validateEntries items es

def validate (items : Items D) : Option ValidationResult := validateEntries items items.entries

def registerItem (items : Items D) (item : ConfigItem D) : Items D := items.insert item.key item

/-- An item for a key that a file adds. -/
def newItem (key s : Text) : ConfigItem D :=
  ⟨key,deserializeValue fmt s (guessType s),guessType s,false,[],none⟩

/-- There is no result when a validator throws. -/
def loadEntry (items : Items D) (key s : Text) : Option (Items D) :=
  match items.lookup key with
  | some item =>
    (validateValue items key (deserializeValue fmt s item.type)).map fun result =>
      if result.isValid then items.insert key { item with value := deserializeValue fmt s item.type } else items
  | none => some (items.insert key (newItem fmt key s))

def loadLine (items : Items D) (line : Text) : Option (Items D) :=
  match parseLine line with
  | none => some items
  | some e => loadEntry fmt items e.1 e.2

/-- An exception ends the loop; the lines before it have had their effect. -/
def loadLines : Items D → List Text → Items D × Bool
  | items, [] => (items,true)
  | items, line :: ls =>
    match loadLine fmt items line with
    | none => (items,false)
    | some items => loadLines items ls

/-- There is no content when the file cannot be opened. -/
def loadFromFile (items : Items D) (file : Option Text) : Items D × Bool :=
  match file with
  | none => (items,false)
  | some content => loadLines fmt items (getLines content)

def saveEntry (e : Sigma fun _ : Text => ConfigItem D) : Text :=
  ascii "# " ++ e.2.description ++ ascii "\n" ++
    (e.1 ++ ascii "=" ++ serializeValue fmt e.2.value e.2.type ++ ascii "\n\n")

/-- What is written to the file. -/
def saveToFile (items : Items D) : Text :=
  ascii "# wirestead configuration file\n" ++ ascii "# Generated automatically\n\n" ++
    items.entries.flatMap (saveEntry fmt)

/-- The calls that change items. -/
inductive Call (D : Type*)
  | set (key : Text) (value : Value D)
  | remove (key : Text)
  | clear
  | registerItem (item : ConfigItem D) (wellTyped : item.WellTyped)
  | loadFromFile (file : Option Text)

def step (items : Items D) : Call D → Items D
  | .set key value => (set items key value).2
  | .remove key => items.erase key
  | .clear => ∅
  | .registerItem item _ => registerItem items item
  | .loadFromFile file => (loadFromFile fmt items file).1

def run (calls : List (Call D)) : Items D := calls.foldl (step fmt) ∅

end Manager

section Specs
variable {D : Type*} {fmt : DoubleText D} {items : Items D} {key : Text}

theorem validateValue_of_none (h : items.lookup key = none) (v : Value D) :
    validateValue items key v = some .success := by
  simp only [validateValue, h]

theorem validateValue_of_validator {item : ConfigItem D} {validator : Validator D} (h : items.lookup key = some item)
    (hv : item.validator = some validator) (v : Value D) : validateValue items key v = validator v := by
  simp only [validateValue, h, hv]

/-- Without a validator the type decides. -/
theorem validateValue_of_type {item : ConfigItem D} (h : items.lookup key = some item)
    (hv : item.validator = none) (v : Value D) :
    validateValue items key v =
      if v.type = item.type then some .success
      else some (.error (ascii "Type mismatch for key '" ++ key ++ ascii "'")) := by
  simp only [validateValue, h, hv, ne_eq, ite_not, eq_comm]

theorem loadEntry_of_none (h : items.lookup key = none) (s : Text) :
    loadEntry fmt items key s = some (items.insert key (newItem fmt key s)) := by
  simp only [loadEntry, h]

theorem loadEntry_of_some {item : ConfigItem D} (h : items.lookup key = some item) (s : Text) :
    loadEntry fmt items key s =
      (validateValue items key (deserializeValue fmt s item.type)).map fun result =>
        if result.isValid then items.insert key { item with value := deserializeValue fmt s item.type } else items := by
  simp only [loadEntry, h]

/-- Another key is not touched. -/
theorem loadEntry_lookup_ne {s other : Text} {items' : Items D} (h : loadEntry fmt items key s = some items')
    (hne : other ≠ key) : items'.lookup other = items.lookup other := by
  cases hk : items.lookup key with
  | none =>
    rw [loadEntry_of_none hk] at h
    rw [← Option.some.inj h, AList.lookup_insert_ne hne]
  | some item =>
    rw [loadEntry_of_some hk] at h
    obtain ⟨result,-,hitems⟩ := Option.map_eq_some_iff.mp h
    rw [← hitems]
    split
    · exact AList.lookup_insert_ne hne
    · rfl

end Specs
end Wirestead.Config
