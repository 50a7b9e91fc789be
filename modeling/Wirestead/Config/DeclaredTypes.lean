import Wirestead.Config.ConfigManager

/-! # Declared types

A type is declared at registration, at the first `set` of a key, or guessed from the text
of the line that adds a key. The last two do not look at the value that they store.
-/
namespace Wirestead.Config
open Words

section Types
variable {D : Type*} (fmt : DoubleText D)

/-- Items without a validator hold values of their types. -/
def Typed (items : Items D) : Prop :=
  ∀ key item, items.lookup key = some item → item.validator = none → item.WellTyped

/-- The text of a new key can be converted to the type that is guessed from it. -/
def Converts (s : Text) : Prop :=
  (guessType s = .integer → (stoi s).isSome) ∧ (guessType s = .double → (fmt.stod s).isSome)

def LineMeets (items : Items D) (line : Text) : Prop :=
  ∀ key s, parseLine line = some (key,s) → items.lookup key = none → Converts fmt s

/-- The condition on the lines, as far as they are read. -/
def LinesMeet : Items D → List Text → Prop
  | _, [] => True
  | items, line :: ls => LineMeets fmt items line ∧ ∀ items', loadLine fmt items line = some items' → LinesMeet items' ls

/-- A key that `set` adds gets a string; a line that adds a key can be converted. -/
def Meets (items : Items D) : Call D → Prop
  | .set key value => items.lookup key = none → value.type = .string
  | .loadFromFile (some content) => LinesMeet fmt items (getLines content)
  | _ => True

def EachCall (P : Items D → Call D → Prop) : Items D → List (Call D) → Prop
  | _, [] => True
  | items, c :: cs => P items c ∧ EachCall P (step fmt items c) cs

/-- What declared types are for: values keep them, and they stand in nobody's way. -/
structure TypesKept (items : Items D) : Prop where
  typed : Typed items
  validate : (∀ key item, items.lookup key = some item → item.validator = none) →
    validate items = some .success
  set : ∀ key item value, items.lookup key = some item → item.validator = none → value.type = item.value.type →
    (set items key value).1 = some .success

variable {fmt} {items : Items D} {key : Text} {item : ConfigItem D}

theorem Typed.insert (h : Typed items) (hi : item.validator = none → item.WellTyped) :
    Typed (items.insert key item) := by
  intro k i hk hv
  by_cases hkey : k = key
  · rw [hkey, AList.lookup_insert] at hk
    obtain rfl := Option.some.inj hk
    exact hi hv
  · rw [AList.lookup_insert_ne hkey] at hk
    exact h k i hk hv

theorem Typed.erase (h : Typed items) (key : Text) : Typed (items.erase key) := by
  intro k i hk hv
  by_cases hkey : k = key
  · rw [hkey, AList.lookup_erase] at hk
    cases hk
  · rw [AList.lookup_erase_ne hkey] at hk
    exact h k i hk hv

/-- A value that passes the check is one of the type that is stored. -/
theorem Typed.replace (h : Typed items) (hi : items.lookup key = some item) {value : Value D}
    {result : ValidationResult} (hr : validateValue items key value = some result) (hvalid : result.isValid) :
    Typed (items.insert key { item with value := value }) := by
  refine h.insert (fun hv => ?_)
  rw [validateValue_of_type hi hv] at hr
  split_ifs at hr with htype
  · exact htype
  · rw [← Option.some.inj hr] at hvalid
    cases hvalid

theorem Typed.set (h : Typed items) {value : Value D} (hm : items.lookup key = none → value.type = .string) :
    Typed (set items key value).2 := by
  unfold Config.set
  cases hr : validateValue items key value with
  | none => exact h
  | some result =>
    dsimp only
    split_ifs with hvalid
    · cases hi : items.lookup key with
      | none =>
        have hnew : (⟨key,value,.string,false,[],none⟩ : ConfigItem D).WellTyped := hm hi
        exact h.insert (fun _ => hnew)
      | some item => exact h.replace hi hr hvalid
    · exact h

/-- The first `set` of a key declares a string. -/
theorem Typed.set_iff (h : Typed items) (value : Value D) :
    Typed (Config.set items key value).2 ↔ (items.lookup key = none → value.type = .string) := by
  refine ⟨fun hset hi => ?_,h.set⟩
  have hnew : (Config.set items key value).2.lookup key = some ⟨key,value,.string,false,[],none⟩ := by
    unfold Config.set
    rw [validateValue_of_none hi, hi]
    simp [ValidationResult.success]
  exact hset key _ hnew rfl

theorem newItem_wellTyped_iff {s : Text} : (newItem fmt key s).WellTyped ↔ Converts fmt s := by
  unfold ConfigItem.WellTyped newItem Converts
  dsimp only
  cases ht : guessType s with
  | integer => cases hs : stoi s <;> simp [deserializeValue, hs, Value.type]
  | double => cases hs : fmt.stod s <;> simp [deserializeValue, hs, Value.type]
  | string => simp [deserializeValue, Value.type]
  | boolean => simp [deserializeValue, Value.type]
  | array => exact absurd ht (by unfold guessType; split_ifs <;> simp)
  | object => exact absurd ht (by unfold guessType; split_ifs <;> simp)

theorem Typed.loadLine (h : Typed items) {line : Text} (hm : LineMeets fmt items line) {items' : Items D}
    (hl : loadLine fmt items line = some items') : Typed items' := by
  unfold Config.loadLine at hl
  cases hp : parseLine line with
  | none =>
    rw [hp] at hl
    exact Option.some.inj hl ▸ h
  | some e =>
    obtain ⟨key,s⟩ := e
    rw [hp] at hl
    dsimp only at hl
    cases hi : items.lookup key with
    | none =>
      rw [loadEntry_of_none hi] at hl
      rw [← Option.some.inj hl]
      exact h.insert (fun _ => newItem_wellTyped_iff.mpr (hm key s hp hi))
    | some item =>
      rw [loadEntry_of_some hi] at hl
      obtain ⟨result,hr,hitems⟩ := Option.map_eq_some_iff.mp hl
      rw [← hitems]
      split_ifs with hvalid
      · exact h.replace hi hr hvalid
      · exact h

/-- A line that adds a key declares the type that its text suggests. -/
theorem Typed.loadLine_iff (h : Typed items) {line : Text} {items' : Items D}
    (hl : Config.loadLine fmt items line = some items') : Typed items' ↔ LineMeets fmt items line := by
  refine ⟨fun hload key s hp hi => ?_,fun hm => h.loadLine hm hl⟩
  unfold Config.loadLine at hl
  rw [hp] at hl
  dsimp only at hl
  rw [loadEntry_of_none hi] at hl
  have hnew : items'.lookup key = some (newItem fmt key s) := by
    rw [← Option.some.inj hl]
    exact AList.lookup_insert items
  exact newItem_wellTyped_iff.mp (hload key _ hnew rfl)

theorem Typed.loadLines (h : Typed items) {ls : List Text} (hm : LinesMeet fmt items ls) :
    Typed (loadLines fmt items ls).1 := by
  induction ls generalizing items with
  | nil => exact h
  | cons line ls ih =>
    unfold Config.loadLines
    cases hl : Config.loadLine fmt items line with
    | none => exact h
    | some items' => exact ih (h.loadLine hm.1 hl) (hm.2 items' hl)

theorem Typed.step (h : Typed items) {c : Call D} (hm : Meets fmt items c) : Typed (step fmt items c) := by
  cases c with
  | set key value => exact h.set hm
  | remove key => exact h.erase key
  | clear => exact fun key item hk => by simp [Config.step] at hk
  | registerItem item wellTyped => exact h.insert (fun _ => wellTyped)
  | loadFromFile file =>
    cases file with
    | none => exact h
    | some content => exact h.loadLines hm

/-- Values that have their declared types pass every check. -/
theorem Typed.kept (h : Typed items) : TypesKept items := by
  refine ⟨h,fun hnone => ?_,fun key item value hi hv ht => ?_⟩
  · have hentries : ∀ es : List (Sigma fun _ : Text => ConfigItem D), (∀ e ∈ es, e ∈ items.entries) →
        validateEntries items es = some .success := by
      intro es hes
      induction es with
      | nil => rfl
      | cons e es ih =>
        have hi : items.lookup e.1 = some e.2 := AList.mem_lookup_iff.mpr (hes e List.mem_cons_self)
        have hv := hnone e.1 e.2 hi
        have ht : e.2.value.type = e.2.type := h e.1 e.2 hi hv
        unfold validateEntries
        rw [validateValue_of_type hi hv, if_pos ht]
        simpa [ValidationResult.success] using ih (fun e' he' => hes e' (List.mem_cons_of_mem _ he'))
    exact hentries items.entries (fun _ he => he)
  · have hr : validateValue items key value = some .success := by
      rw [validateValue_of_type hi hv, if_pos (ht.trans (h key item hi hv))]
    unfold Config.set
    rw [hr, hi]
    simp [ValidationResult.success]

theorem typed_empty : Typed (∅ : Items D) := fun key item hk => by simp at hk

/-- In a run whose calls meet the condition all types are kept. -/
theorem types_kept (cs : List (Call D)) (hm : EachCall fmt (Meets fmt) ∅ cs) {before after : List (Call D)}
    (hcs : cs = before ++ after) : TypesKept (run fmt before) := by
  have hrun : ∀ (cs : List (Call D)) (items : Items D), Typed items →
      EachCall fmt (Meets fmt) items (cs ++ after) → Typed (cs.foldl (Config.step fmt) items) := by
    intro cs
    induction cs with
    | nil => exact fun items h _ => h
    | cons c cs ih => exact fun items h hc => ih _ (h.step hc.1) hc.2
  exact (hrun before ∅ typed_empty (hcs ▸ hm)).kept

end Types

theorem types_kept_named :
    TypesKept (run noDoubles [.set (ascii "name") (.string (ascii "a")),.loadFromFile (some (ascii "debug=true"))]) := by
  have hm : EachCall noDoubles (Meets noDoubles) ∅
      [.set (ascii "name") (.string (ascii "a")),.loadFromFile (some (ascii "debug=true"))] := by
    refine ⟨fun _ => rfl,⟨fun key s hp _ => ?_,fun _ _ => trivial⟩,trivial⟩
    have hline : parseLine (ascii "debug=true") = some (ascii "debug",ascii "true") := by decide
    obtain ⟨-,rfl⟩ := Prod.mk.inj (Option.some.inj (hline.symm.trans hp))
    exact ⟨fun ht => absurd ht (by decide),fun ht => absurd ht (by decide)⟩
  exact types_kept _ hm (List.append_nil _).symm

/-- A port that is set before it is registered is taken for a string. -/
theorem port_not_kept : ¬TypesKept (run noDoubles [.set (ascii "port") (.int 8080)]) := by
  intro h
  have hitem : (run noDoubles [.set (ascii "port") (.int 8080)]).lookup (ascii "port") =
      some ⟨ascii "port",.int 8080,.string,false,[],none⟩ := rfl
  exact absurd (h.typed _ _ hitem rfl) (by unfold ConfigItem.WellTyped; decide)

end Wirestead.Config
