import Wirestead.Config.Loading

/-! # Saving and loading

The writer escapes nothing, and the reader trims blanks and ends a value at the end of its
line. The entries of the saved items stand in any order.
-/
namespace Wirestead.Config
open Words

/-- A key that the reader takes from its line as it is. -/
structure PlainKey (key : Text) : Prop where
  ne_nil : key ≠ []
  head : key.head? ≠ some 35
  equals : 61 ∉ key
  newline : 10 ∉ key
  trimmed : Trimmed key

section Saving
variable {D : Type*}

/-- The items that the claim of a round trip is about. -/
structure Storable (items : Items D) : Prop where
  keys : ∀ key item, items.lookup key = some item → PlainKey key
  descriptions : ∀ key item, items.lookup key = some item → 10 ∉ item.description
  wellTyped : ∀ key item, items.lookup key = some item → item.WellTyped
  types : ∀ key item, items.lookup key = some item → item.type ∈ [.string,.integer,ConfigType.boolean]

/-- The same registered items, with any values. -/
def SameItems (items other : Items D) : Prop :=
  ∀ key, (items.lookup key = none ∧ other.lookup key = none) ∨
    ∃ item value, items.lookup key = some item ∧ other.lookup key = some { item with value := value }

/-- A string that stands on one line and has no blank at its ends; a value that its validator accepts. -/
def Kept (item : ConfigItem D) : Prop :=
  (∀ s, item.value = .string s → 10 ∉ s ∧ Trimmed s) ∧
    ∀ validator, item.validator = some validator → ∃ result, validator item.value = some result ∧ result.isValid

variable (fmt : DoubleText D)

def entryLine (e : Sigma fun _ : Text => ConfigItem D) : Text :=
  e.1 ++ ascii "=" ++ serializeValue fmt e.2.value e.2.type

variable {fmt} {items : Items D} {key : Text} {item : ConfigItem D}

theorem printInt_bytes {n : Int32} {c : UInt8} (h : c ∈ printInt n) : c = 45 ∨ isDigit c := by
  unfold printInt at h
  split at h
  · rcases List.mem_cons.mp h with rfl | h
    · exact Or.inl rfl
    · exact Or.inr (isDigit_of_mem_decimal h)
  · exact Or.inr (isDigit_of_mem_decimal h)

theorem plain_of_bytes {s : Text} (h : ∀ c ∈ s, c ≠ 10 ∧ isBlank c = false) : 10 ∉ s ∧ Trimmed s := by
  refine ⟨fun hmem => (h 10 hmem).1 rfl,?_⟩
  rintro c (hc | hc)
  · exact (h c (List.mem_of_mem_head? hc)).2
  · exact (h c (List.mem_of_mem_getLast? hc)).2

variable (fmt) in
/-- The text of a value that is kept has no newline and no blank at its ends, and is read
back as the value. -/
theorem serializeValue_spec (ht : item.WellTyped) (htypes : item.type ∈ [.string,.integer,ConfigType.boolean])
    (hk : ∀ s, item.value = .string s → 10 ∉ s ∧ Trimmed s) :
    (10 ∉ serializeValue fmt item.value item.type ∧ Trimmed (serializeValue fmt item.value item.type)) ∧
      deserializeValue fmt (serializeValue fmt item.value item.type) item.type = item.value := by
  unfold ConfigItem.WellTyped at ht
  rw [← ht] at htypes ⊢
  cases hv : item.value with
  | string s => exact ⟨hk s hv,rfl⟩
  | int n =>
    refine ⟨plain_of_bytes (fun c hc => ?_),?_⟩
    · rcases printInt_bytes hc with rfl | hd
      · decide
      · have h32 : c ≠ 32 := ne_of_isDigit hd (by decide)
        have h9 : c ≠ 9 := ne_of_isDigit hd (by decide)
        exact ⟨ne_of_isDigit hd (by decide),by simp [isBlank, h32, h9]⟩
    · unfold Value.type serializeValue deserializeValue
      simp [stoi_printInt]
  | bool b =>
    cases b with
    | false =>
      have hbytes : ∀ c ∈ ascii "false", c ≠ 10 ∧ isBlank c = false := by decide +kernel
      exact ⟨plain_of_bytes hbytes,rfl⟩
    | true =>
      have hbytes : ∀ c ∈ ascii "true", c ≠ 10 ∧ isBlank c = false := by decide +kernel
      exact ⟨plain_of_bytes hbytes,rfl⟩
  | double d =>
    rw [hv] at htypes
    simp [Value.type] at htypes

theorem parseLine_entry (hkey : PlainKey key) {s : Text} (hs : Trimmed s) :
    parseLine (key ++ ascii "=" ++ s) = some (key,s) := by
  obtain ⟨c,rest,rfl⟩ := List.exists_cons_of_ne_nil hkey.ne_nil
  have hhead : c ≠ 35 := fun h => hkey.head (by simp [h])
  have hfound : search [61] ((c :: rest) ++ 61 :: s) = some (c :: rest).length :=
    search_singleton_append hkey.equals s
  have hline : (c :: rest) ++ ascii "=" ++ s = (c :: rest) ++ 61 :: s := by
    rw [List.append_assoc]
    rfl
  have hdrop : ((c :: rest) ++ 61 :: s).drop ((c :: rest).length + 1) = s := List.drop_length_add_append 1
  rw [hline]
  unfold parseLine
  rw [if_neg (by simp [hhead]), hfound, Option.map_some, List.take_left, hdrop, trim_eq_self hkey.trimmed,
    trim_eq_self hs]

theorem SameItems.lookup {other : Items D} (h : SameItems items other) (hi : items.lookup key = some item) :
    ∃ value, other.lookup key = some { item with value := value } := by
  rcases h key with ⟨hnone,-⟩ | ⟨item',value,hi',ho⟩
  · rw [hnone] at hi
    cases hi
  · obtain rfl := Option.some.inj (hi'.symm.trans hi)
    exact ⟨value,ho⟩

theorem SameItems.insert {other : Items D} (h : SameItems items other) (hi : items.lookup key = some item)
    (value : Value D) : SameItems items (other.insert key { item with value := value }) := by
  intro k
  by_cases hk : k = key
  · rw [hk]
    exact Or.inr ⟨item,value,hi,AList.lookup_insert other⟩
  · rw [AList.lookup_insert_ne hk]
    exact h k

/-- The line of an entry restores its value and leaves the other items as they are. -/
theorem loadLine_entry (hs : Storable items) (hi : items.lookup key = some item) (hk : Kept item)
    {other : Items D} (ho : SameItems items other) :
    loadLine fmt other (entryLine fmt ⟨key,item⟩) = some (other.insert key item) := by
  obtain ⟨⟨-,htrim⟩,hread⟩ := serializeValue_spec fmt (hs.wellTyped key item hi) (hs.types key item hi) hk.1
  obtain ⟨value,hother⟩ := ho.lookup hi
  have hvalid : ∃ result, validateValue other key item.value = some result ∧ result.isValid := by
    cases hv : item.validator with
    | none =>
      have ht : item.value.type = item.type := hs.wellTyped key item hi
      rw [validateValue_of_type hother hv, if_pos ht]
      exact ⟨_,rfl,rfl⟩
    | some validator =>
      rw [validateValue_of_validator hother hv]
      exact hk.2 validator hv
  obtain ⟨result,hr,hvalid⟩ := hvalid
  unfold entryLine
  rw [loadLine_of_parse (parseLine_entry (hs.keys key item hi) htrim), loadEntry_of_some hother, hread, hr,
    Option.map_some, if_pos hvalid]

theorem parseLine_comment {line : Text} (h : line.head? = some 35) : parseLine line = none := by
  simp [parseLine, h]

theorem entryLine_newline (hs : Storable items) (hi : items.lookup key = some item) (hk : Kept item) :
    10 ∉ entryLine fmt ⟨key,item⟩ := by
  obtain ⟨⟨hnew,-⟩,-⟩ := serializeValue_spec fmt (hs.wellTyped key item hi) (hs.types key item hi) hk.1
  have hkey := (hs.keys key item hi).newline
  have hequals : 10 ∉ ascii "=" := by decide
  unfold entryLine
  simp [hkey, hnew, hequals]

/-- Three lines for each entry: a comment, the entry and an empty line. -/
theorem getLines_saveEntry (hs : Storable items) (hi : items.lookup key = some item) (hk : Kept item) (rest : Text) :
    getLines (saveEntry fmt ⟨key,item⟩ ++ rest) =
      (ascii "# " ++ item.description) :: entryLine fmt ⟨key,item⟩ :: [] :: getLines rest := by
  have hcomment : 10 ∉ ascii "# " ++ item.description := by
    have hmark : 10 ∉ ascii "# " := by decide
    simp [hmark, hs.descriptions key item hi]
  have htext : saveEntry fmt ⟨key,item⟩ ++ rest =
      (ascii "# " ++ item.description) ++ 10 :: (entryLine fmt ⟨key,item⟩ ++ 10 :: ([] ++ 10 :: rest)) := by
    unfold saveEntry entryLine
    simp [show ascii "\n" = [10] from rfl, show ascii "\n\n" = [10,10] from rfl]
  rw [htext, getLines_append hcomment, getLines_append (entryLine_newline hs hi hk), getLines_append List.not_mem_nil]

/-- The items whose lines have been read are restored. -/
theorem loadLines_entries (hs : Storable items) (hk : ∀ key item, items.lookup key = some item → Kept item)
    {es : List (Sigma fun _ : Text => ConfigItem D)} (hes : ∀ e ∈ es, e ∈ items.entries) {other : Items D}
    (ho : SameItems items other) (hi : items.lookup key = some item)
    (hread : other.lookup key = some item ∨ ∃ e ∈ es, e.1 = key) :
    (loadLines fmt other (getLines (es.flatMap (saveEntry fmt)))).1.lookup key = some item := by
  induction es generalizing other with
  | nil =>
    rcases hread with hread | ⟨e,he,-⟩
    · exact hread
    · cases he
  | cons e es ih =>
    have he : items.lookup e.1 = some e.2 := AList.mem_lookup_iff.mpr (hes e List.mem_cons_self)
    have hsame : SameItems items (other.insert e.1 e.2) := ho.insert he e.2.value
    rw [List.flatMap_cons, getLines_saveEntry hs he (hk e.1 e.2 he),
      loadLines_cons (loadLine_of_skip (parseLine_comment rfl)),
      loadLines_cons (loadLine_entry hs he (hk e.1 e.2 he) ho), loadLines_cons (loadLine_of_skip rfl)]
    refine ih (fun e' he' => hes e' (List.mem_cons_of_mem _ he')) hsame ?_
    by_cases hkey : e.1 = key
    · rw [hkey] at he
      refine Or.inl ?_
      rw [hkey, AList.lookup_insert, ← he, hi]
    · rcases hread with hread | ⟨e',he',rfl⟩
      · exact Or.inl ((AList.lookup_insert_ne (Ne.symm hkey)).trans hread)
      · rcases List.mem_cons.mp he' with rfl | he'
        · exact absurd rfl hkey
        · exact Or.inr ⟨e',he',rfl⟩

theorem load_save_of_kept (hs : Storable items) (hk : ∀ key item, items.lookup key = some item → Kept item)
    {other : Items D} (ho : SameItems items other) (hi : items.lookup key = some item) :
    (loadFromFile fmt other (some (saveToFile fmt items))).1.lookup key = some item := by
  have hlines : getLines (saveToFile fmt items) =
      ascii "# wirestead configuration file" :: ascii "# Generated automatically" :: [] ::
        getLines (items.entries.flatMap (saveEntry fmt)) := by
    have hfirst : 10 ∉ ascii "# wirestead configuration file" := by decide +kernel
    have hsecond : 10 ∉ ascii "# Generated automatically" := by decide +kernel
    have htext : saveToFile fmt items = ascii "# wirestead configuration file" ++
        10 :: (ascii "# Generated automatically" ++ 10 :: ([] ++ 10 :: items.entries.flatMap (saveEntry fmt))) := by
      unfold saveToFile
      rw [show ascii "# wirestead configuration file\n" = ascii "# wirestead configuration file" ++ [10] from rfl,
        show ascii "# Generated automatically\n\n" = ascii "# Generated automatically" ++ [10,10] from rfl]
      simp only [List.append_assoc, List.cons_append, List.nil_append]
    rw [htext, getLines_append hfirst, getLines_append hsecond, getLines_append List.not_mem_nil]
  unfold loadFromFile
  dsimp only
  rw [hlines, loadLines_cons (loadLine_of_skip (parseLine_comment rfl)),
    loadLines_cons (loadLine_of_skip (parseLine_comment rfl)), loadLines_cons (loadLine_of_skip rfl)]
  exact loadLines_entries hs hk (fun _ he => he) ho hi
    (Or.inr ⟨⟨key,item⟩,AList.mem_lookup_iff.mp hi,rfl⟩)

/-- A value that comes back was acceptable to the reader. -/
theorem kept_of_load_save (hs : Storable items) (hi : items.lookup key = some item)
    (hload : ∀ other, SameItems items other →
      ((loadFromFile fmt other (some (saveToFile fmt items))).1.lookup key).map ConfigItem.value = some item.value) :
    Kept item := by
  -- Loaded over another value, the value must come from a line of the file.
  have hfrom : ∀ value, value ≠ item.value →
      ∃ line ∈ getLines (saveToFile fmt items), ∃ s, parseLine line = some (key,s) ∧
        item.value = deserializeValue fmt s item.type ∧
        ∀ validator, item.validator = some validator →
          ∃ result, validator item.value = some result ∧ result.isValid := by
    intro value hne
    have hother : SameItems items (items.insert key { item with value := value }) := by
      refine SameItems.insert (fun k => ?_) hi value
      cases hk : items.lookup k with
      | none => exact Or.inl ⟨rfl,rfl⟩
      | some item' => exact Or.inr ⟨item',item'.value,rfl,rfl⟩
    obtain ⟨value',hvalue,hfrom⟩ := loadLines_value fmt (AList.lookup_insert items) (getLines (saveToFile fmt items))
    have hback := hload _ hother
    unfold loadFromFile at hback
    dsimp only at hback
    rw [hvalue] at hback
    obtain rfl : value' = item.value := Option.some.inj hback
    rcases hfrom with hsame | hfrom
    · exact absurd hsame.symm hne
    · exact hfrom
  refine ⟨fun s hv => ?_,fun validator hvalidator => ?_⟩
  · by_cases hnil : s = []
    · rw [hnil]
      exact plain_of_bytes (fun c hc => absurd hc List.not_mem_nil)
    · obtain ⟨line,hline,t,hp,ht,-⟩ := hfrom (.string []) (by rw [hv]; simpa using Ne.symm hnil)
      have htype : item.type = .string := by
        have hw : item.value.type = item.type := hs.wellTyped key item hi
        rw [← hw, hv]
        rfl
      rw [hv, htype] at ht
      obtain rfl : s = t := Value.string.inj ht
      obtain ⟨htrim,hsub⟩ := parseLine_text hp
      exact ⟨fun hmem => newline_notMem_of_mem_getLines hline (hsub.mem hmem),htrim⟩
  · by_cases hnil : item.value = .string []
    · obtain ⟨-,-,-,-,-,hvalid⟩ := hfrom (.bool true) (by rw [hnil]; simp)
      exact hvalid validator hvalidator
    · obtain ⟨-,-,-,-,-,hvalid⟩ := hfrom (.string []) (Ne.symm hnil)
      exact hvalid validator hvalidator

/-- Items come back from a file exactly when no string has a newline or a blank at one of
its ends, and every validator accepts the value of its item. -/
theorem load_save_iff (hs : Storable items) :
    (∀ other, SameItems items other → ∀ key item, items.lookup key = some item →
      ((loadFromFile fmt other (some (saveToFile fmt items))).1.lookup key).map ConfigItem.value = some item.value) ↔
      ∀ key item, items.lookup key = some item → Kept item := by
  constructor
  · exact fun h key item hi => kept_of_load_save hs hi (fun other ho => h other ho key item hi)
  · intro hk other ho key item hi
    rw [load_save_of_kept hs hk ho hi]
    rfl

end Saving

def nameItem (s : Text) : ConfigItem Empty := ⟨ascii "name",.string s,.string,false,[],none⟩

def nameOnly (s : Text) : Items Empty := (∅ : Items Empty).insert (ascii "name") (nameItem s)

theorem nameOnly_lookup {s key : Text} {item : ConfigItem Empty} (h : (nameOnly s).lookup key = some item) :
    key = ascii "name" ∧ item = nameItem s := by
  unfold nameOnly at h
  by_cases hkey : key = ascii "name"
  · rw [hkey, AList.lookup_insert] at h
    exact ⟨hkey,(Option.some.inj h).symm⟩
  · rw [AList.lookup_insert_ne hkey] at h
    cases h

theorem nameOnly_storable (s : Text) : Storable (nameOnly s) := by
  have hkey : PlainKey (ascii "name") := by
    refine ⟨by decide,by decide,by decide,by decide,?_⟩
    exact (plain_of_bytes (by decide +kernel)).2
  refine ⟨fun key item h => ?_,fun key item h => ?_,fun key item h => ?_,fun key item h => ?_⟩
  · rw [(nameOnly_lookup h).1]
    exact hkey
  · rw [(nameOnly_lookup h).2]
    exact List.not_mem_nil
  · rw [(nameOnly_lookup h).2]
    rfl
  · rw [(nameOnly_lookup h).2]
    exact List.mem_cons_self

theorem load_save_iff_name :
    (∀ other, SameItems (nameOnly (ascii "a")) other → ∀ key item, (nameOnly (ascii "a")).lookup key = some item →
      ((loadFromFile noDoubles other (some (saveToFile noDoubles (nameOnly (ascii "a"))))).1.lookup key).map
        ConfigItem.value = some item.value) ↔
      ∀ key item, (nameOnly (ascii "a")).lookup key = some item → Kept item :=
  load_save_iff (nameOnly_storable (ascii "a"))

/-- A blank in front is lost. -/
theorem blank_not_restored :
    ¬∀ other, SameItems (nameOnly (ascii " a")) other → ∀ key item,
      (nameOnly (ascii " a")).lookup key = some item →
      ((loadFromFile noDoubles other (some (saveToFile noDoubles (nameOnly (ascii " a"))))).1.lookup key).map
        ConfigItem.value = some item.value := by
  intro h
  have hsame : SameItems (nameOnly (ascii " a")) (nameOnly (ascii " a")) := by
    intro key
    cases hk : (nameOnly (ascii " a")).lookup key with
    | none => exact Or.inl ⟨rfl,rfl⟩
    | some item => exact Or.inr ⟨item,item.value,rfl,rfl⟩
  have hback := h _ hsame (ascii "name") (nameItem (ascii " a")) rfl
  exact absurd hback (by decide +kernel)

end Wirestead.Config
