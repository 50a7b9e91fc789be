import Wirestead.Config.Loading

/-! # Malformed texts of numbers and flags

A number is read as far as its digits go, and every text but one is the flag `false`, so
a malformed text may still be converted. `denoted` reads whole texts only.
-/
namespace Wirestead.Config
open Words

def wholeInt (s : Text) : Option Int32 :=
  let r := splitSign s
  let n := signed r.1 (numeral r.2)
  if r.2 ≠ [] ∧ r.2.all isDigit ∧ -2 ^ 31 ≤ n ∧ n < 2 ^ 31 then some (Int32.ofInt n) else none

/-- What a loaded text stands for when all of it is read. -/
def denoted {D : Type*} (s : Text) : ConfigType → Option (Value D)
  | .integer => (wholeInt s).map .int
  | .boolean =>
    if s = ascii "true" then some (.bool true) else if s = ascii "false" then some (.bool false) else none
  | _ => none

def converted {D : Type*} (s : Text) : ConfigType → Option (Value D)
  | .integer => (stoi s).map .int
  | .boolean => some (.bool (s = ascii "true"))
  | _ => none

def keyText (key line : Text) : Option Text :=
  (parseLine line).bind fun e => if e.1 = key then some e.2 else none

section Reading
variable {D : Type*}

def settle (key : Text) (type : ConfigType) (value : Value D) (line : Text) : Value D :=
  ((keyText key line).bind (fun s => denoted s type)).getD value

def advance (key : Text) (type : ConfigType) (value : Value D) (line : Text) : Value D :=
  ((keyText key line).bind (fun s => converted s type)).getD value

variable (fmt : DoubleText D) (items : Items D)

/-- The validator of the line's item throws, which ends the load. -/
def Throws (line : Text) : Prop :=
  ∃ key s item validator, parseLine line = some (key,s) ∧ items.lookup key = some item ∧
    item.validator = some validator ∧ validator (deserializeValue fmt s item.type) = none

def Extends (items' : Items D) : Prop :=
  ∀ key, (∃ item value, items.lookup key = some item ∧ items'.lookup key = some { item with value := value }) ∨
    (items.lookup key = none ∧ ∀ item, items'.lookup key = some item → item.validator = none)

/-- Each malformed line of the key that is read leaves the item alone, and the item ends
with the value from before or one that a whole text denotes. -/
def OnlyWhole (content key : Text) (item : ConfigItem D) : Prop :=
  (∃ value, (loadFromFile fmt items (some content)).1.lookup key = some { item with value := value } ∧
    (value = item.value ∨
      ∃ line ∈ getLines content, ∃ s, parseLine line = some (key,s) ∧ denoted s item.type = some value)) ∧
  ∀ before line after s, getLines content = before ++ line :: after → parseLine line = some (key,s) →
    denoted (D := D) s item.type = none →
    (loadLines fmt items (before ++ [line])).1.lookup key = (loadLines fmt items before).1.lookup key

/-- A malformed text of the key that is read and converted gives the value that the last
whole text before it denotes, or the first value when there is none. -/
def Harmless (content key : Text) (item : ConfigItem D) : Prop :=
  ∀ before line after s, getLines content = before ++ line :: after → (∀ l ∈ before, ¬Throws fmt items l) →
    parseLine line = some (key,s) → denoted (D := D) s item.type = none →
    ∀ value, converted s item.type = some value → value = before.foldl (settle key item.type) item.value

variable {fmt items} {key : Text} {item : ConfigItem D}

theorem wholeInt_iff {s : Text} {n : Int32} : wholeInt s = some n ↔ DenotesInt s n := by
  unfold wholeInt
  dsimp only
  constructor
  · intro h
    split_ifs at h with hwhole
    obtain ⟨hne,hd,hlo,hhi⟩ := hwhole
    obtain ⟨sign,hs,hsign,hneg⟩ := splitSign_cases s
    refine ⟨sign,(splitSign s).2,hs,hsign,hne,List.all_eq_true.mp hd,?_⟩
    rw [← Option.some.inj h, ← hneg, Int32.toInt_ofInt_of_le hlo hhi]
  · rintro ⟨sign,digits,rfl,hsign,hne,hd,hn⟩
    rw [splitSign_append hsign hne hd]
    dsimp only
    rw [← hn, if_pos ⟨hne,List.all_eq_true.mpr hd,n.le_toInt,n.toInt_lt⟩, Int32.ofInt_toInt]

theorem keyText_eq_some {line s : Text} : keyText key line = some s ↔ parseLine line = some (key,s) := by
  unfold keyText
  cases h : parseLine line with
  | none => simp
  | some e =>
    obtain ⟨k,t⟩ := e
    by_cases hk : k = key <;> simp [hk]

theorem converted_of_denoted {s : Text} {type : ConfigType} {value : Value D} (h : denoted s type = some value) :
    converted s type = some value := by
  cases type with
  | integer =>
    obtain ⟨n,hn,rfl⟩ := Option.map_eq_some_iff.mp h
    exact Option.map_eq_some_iff.mpr ⟨n,(wholeInt_iff.mp hn).stoi_eq,rfl⟩
  | boolean =>
    unfold denoted at h
    unfold converted
    dsimp only at h ⊢
    split_ifs at h with htrue hfalse
    · rw [← h, htrue]
      rfl
    · rw [← h, hfalse]
      rfl
  | string => cases h
  | double => cases h
  | array => cases h
  | object => cases h

variable (fmt) in
theorem deserializeValue_converted {type : ConfigType} (ht : type = .integer ∨ type = .boolean) (s : Text) :
    (∀ value, converted s type = some value → deserializeValue fmt s type = value ∧ value.type = type) ∧
      (converted (D := D) s type = none → (deserializeValue fmt s type).type ≠ type) := by
  rcases ht with rfl | rfl
  · cases hs : stoi s with
    | none => simp [converted, deserializeValue, hs, Value.type]
    | some n => simp [converted, deserializeValue, hs, Value.type]
  · simp [converted, deserializeValue, Value.type]

theorem loadEntry_converted {items' : Items D} {value : Value D}
    (hi : items'.lookup key = some { item with value := value }) (hv : item.validator = none)
    (ht : item.type = .integer ∨ item.type = .boolean) (s : Text) :
    ∃ items'', loadEntry fmt items' key s = some items'' ∧
      items''.lookup key = some { item with value := (converted s item.type).getD value } := by
  obtain ⟨hsome,hnone⟩ := deserializeValue_converted fmt ht s
  rw [loadEntry_of_some hi, validateValue_of_type hi hv]
  cases hc : converted (D := D) s item.type with
  | none =>
    rw [if_neg (hnone hc)]
    exact ⟨items',rfl,hi⟩
  | some value' =>
    obtain ⟨hvalue,htype⟩ := hsome value' hc
    rw [hvalue, if_pos htype]
    exact ⟨_,rfl,AList.lookup_insert items'⟩

theorem Extends.refl (items : Items D) : Extends items items := by
  intro k
  cases hk : items.lookup k with
  | none => exact Or.inr ⟨rfl,fun item h => by cases h⟩
  | some item => exact Or.inl ⟨item,item.value,rfl,rfl⟩

theorem Extends.loadLine {items' items'' : Items D} {line : Text} (h : Extends items items')
    (hl : loadLine fmt items' line = some items'') : Extends items items'' := by
  intro k
  by_cases hline : ∃ s, parseLine line = some (k,s)
  · obtain ⟨s,hp⟩ := hline
    rw [loadLine_of_parse hp] at hl
    rcases h k with ⟨it,value,hk,hk'⟩ | ⟨hk,hnew⟩
    · obtain ⟨value',hk'',-⟩ := loadEntry_value hk' hl
      exact Or.inl ⟨it,value',hk,hk''⟩
    · refine Or.inr ⟨hk,fun it hit => ?_⟩
      cases hk' : items'.lookup k with
      | none =>
        rw [loadEntry_of_none hk'] at hl
        rw [← Option.some.inj hl, AList.lookup_insert] at hit
        rw [← Option.some.inj hit]
        rfl
      | some it' =>
        obtain ⟨value',hk'',-⟩ := loadEntry_value hk' hl
        rw [hk''] at hit
        rw [← Option.some.inj hit]
        exact hnew it' hk'
  · rw [loadLine_lookup hl (not_exists.mp hline)]
    exact h k

/-- Only validators of the items from before the load can throw. -/
theorem Extends.throws_iff {items' : Items D} (h : Extends items items') (line : Text) :
    Config.loadLine fmt items' line = none ↔ Throws fmt items line := by
  cases hp : parseLine line with
  | none =>
    rw [loadLine_of_skip hp]
    refine iff_of_false (Option.some_ne_none _) ?_
    rintro ⟨k,s,-,-,hk,-⟩
    rw [hp] at hk
    cases hk
  | some e =>
    obtain ⟨k,s⟩ := e
    rw [loadLine_of_parse hp]
    have hthrows : Throws fmt items line ↔ ∃ it validator, items.lookup k = some it ∧
        it.validator = some validator ∧ validator (deserializeValue fmt s it.type) = none := by
      constructor
      · rintro ⟨k',s',it,validator,hp',hrest⟩
        obtain ⟨rfl,rfl⟩ := Prod.mk.inj (Option.some.inj (hp.symm.trans hp'))
        exact ⟨it,validator,hrest⟩
      · rintro ⟨it,validator,hrest⟩
        exact ⟨k,s,it,validator,hp,hrest⟩
    rw [hthrows]
    rcases h k with ⟨it,value,hk,hk'⟩ | ⟨hk,hnew⟩
    · rw [loadEntry_of_some hk', Option.map_eq_none_iff]
      cases hv : it.validator with
      | none =>
        rw [validateValue_of_type hk' hv]
        refine iff_of_false (by split_ifs <;> simp) ?_
        rintro ⟨it',validator,hk'',hv',-⟩
        rw [← Option.some.inj (hk.symm.trans hk''), hv] at hv'
        cases hv'
      | some validator =>
        rw [validateValue_of_validator hk' hv]
        constructor
        · exact fun hthrow => ⟨it,validator,hk,hv,hthrow⟩
        · rintro ⟨it',validator',hk'',hv',hthrow⟩
          obtain rfl := Option.some.inj (hk.symm.trans hk'')
          obtain rfl := Option.some.inj (hv.symm.trans hv')
          exact hthrow
    · refine iff_of_false ?_ ?_
      · cases hk' : items'.lookup k with
        | none =>
          rw [loadEntry_of_none hk']
          exact Option.some_ne_none _
        | some it =>
          rw [loadEntry_of_some hk', validateValue_of_type hk' (hnew it hk'), Option.map_eq_none_iff]
          split_ifs <;> simp
      · rintro ⟨it,-,hk'',-⟩
        rw [hk] at hk''
        cases hk''

theorem loadLines_advance {items' : Items D} {value : Value D} (he : Extends items items')
    (hi : items'.lookup key = some { item with value := value }) (hv : item.validator = none)
    (ht : item.type = .integer ∨ item.type = .boolean) {ls : List Text} (hls : ∀ l ∈ ls, ¬Throws fmt items l) :
    (loadLines fmt items' ls).1.lookup key =
      some { item with value := ls.foldl (advance key item.type) value } := by
  induction ls generalizing items' value with
  | nil => exact hi
  | cons line ls ih =>
    obtain ⟨items'',hl⟩ := Option.ne_none_iff_exists'.mp
      (fun hnone => hls line List.mem_cons_self ((he.throws_iff line).mp hnone))
    rw [loadLines_cons hl]
    refine ih (he.loadLine hl) ?_ (fun l hmem => hls l (List.mem_cons_of_mem _ hmem))
    unfold advance
    cases hk : keyText key line with
    | none =>
      have hline : ∀ s, parseLine line ≠ some (key,s) := by
        intro s hp
        rw [keyText_eq_some.mpr hp] at hk
        cases hk
      exact (loadLine_lookup hl hline).trans hi
    | some s =>
      rw [loadLine_of_parse (keyText_eq_some.mp hk)] at hl
      obtain ⟨other,hother,hvalue⟩ := loadEntry_converted hi hv ht s
      obtain rfl := Option.some.inj (hother.symm.trans hl)
      exact hvalue

theorem loadLines_append {items' : Items D} (he : Extends items items') {ls : List Text}
    (hls : ∃ l ∈ ls, Throws fmt items l) (more : List Text) :
    loadLines fmt items' (ls ++ more) = loadLines fmt items' ls := by
  induction ls generalizing items' with
  | nil =>
    obtain ⟨l,hl,-⟩ := hls
    cases hl
  | cons line ls ih =>
    rw [List.cons_append]
    cases hl : Config.loadLine fmt items' line with
    | none => rw [loadLines_of_throw hl, loadLines_of_throw hl]
    | some items'' =>
      rw [loadLines_cons hl, loadLines_cons hl]
      apply ih (he.loadLine hl)
      obtain ⟨l,hmem,hthrow⟩ := hls
      rcases List.mem_cons.mp hmem with rfl | hmem
      · rw [(he.throws_iff l).mpr hthrow] at hl
        cases hl
      · exact ⟨l,hmem,hthrow⟩

variable (fmt) in
/-- The lines up to one that throws decide. -/
theorem exists_read {items' : Items D} (he : Extends items items') (ls : List Text) :
    ∃ before after, ls = before ++ after ∧ (∀ l ∈ before, ¬Throws fmt items l) ∧
      (loadLines fmt items' ls).1 = (loadLines fmt items' before).1 := by
  induction ls generalizing items' with
  | nil => exact ⟨[],[],rfl,fun l hl => (by cases hl),rfl⟩
  | cons line ls ih =>
    cases hl : Config.loadLine fmt items' line with
    | none =>
      rw [loadLines_of_throw hl]
      exact ⟨[],line :: ls,rfl,fun l hl => (by cases hl),rfl⟩
    | some items'' =>
      obtain ⟨before,after,rfl,hread,hsame⟩ := ih (he.loadLine hl)
      refine ⟨line :: before,after,rfl,fun l hmem => ?_,?_⟩
      · rcases List.mem_cons.mp hmem with rfl | hmem
        · rw [← he.throws_iff, hl]
          exact Option.some_ne_none items''
        · exact hread l hmem
      · rw [loadLines_cons hl, loadLines_cons hl]
        exact hsame

theorem foldl_settle (key : Text) (type : ConfigType) (value : Value D) (ls : List Text) :
    ls.foldl (settle key type) value = value ∨
      ∃ line ∈ ls, ∃ s, parseLine line = some (key,s) ∧ denoted s type = some (ls.foldl (settle key type) value) := by
  induction ls generalizing value with
  | nil => exact Or.inl rfl
  | cons line ls ih =>
    rw [List.foldl_cons]
    rcases ih (settle key type value line) with hsame | ⟨line',hmem,hrest⟩
    · rw [hsame]
      cases hk : (keyText key line).bind (fun s => denoted (D := D) s type) with
      | none => exact Or.inl (by simp [settle, hk])
      | some value' =>
        obtain ⟨s,hs,hd⟩ := Option.bind_eq_some_iff.mp hk
        exact Or.inr ⟨line,List.mem_cons_self,s,keyText_eq_some.mp hs,by simp [settle, hk, hd]⟩
    · exact Or.inr ⟨line',List.mem_cons_of_mem _ hmem,hrest⟩

theorem foldl_advance_eq {type : ConfigType} {value : Value D} {ls : List Text}
    (h : ∀ before line after s v, ls = before ++ line :: after → (∀ l ∈ before, ¬Throws fmt items l) →
      parseLine line = some (key,s) → denoted (D := D) s type = none → converted s type = some v →
      before.foldl (advance key type) value = before.foldl (settle key type) value →
      v = before.foldl (settle key type) value)
    {before after : List Text} (hls : ls = before ++ after) (hread : ∀ l ∈ before, ¬Throws fmt items l) :
    before.foldl (advance key type) value = before.foldl (settle key type) value := by
  induction before using List.reverseRecOn generalizing after with
  | nil => rfl
  | append_singleton before line ih =>
    have hls' : ls = before ++ line :: after := by rw [hls, List.append_assoc, List.singleton_append]
    have hread' : ∀ l ∈ before, ¬Throws fmt items l := fun l hl => hread l (List.mem_append_left _ hl)
    have hagree := ih hls' hread'
    rw [List.foldl_append, List.foldl_append, List.foldl_cons, List.foldl_cons, List.foldl_nil, List.foldl_nil,
      hagree]
    unfold advance settle
    cases hk : keyText key line with
    | none => rfl
    | some s =>
      rw [Option.bind_some, Option.bind_some]
      cases hd : denoted (D := D) s type with
      | some v => rw [converted_of_denoted hd]
      | none =>
        cases hc : converted (D := D) s type with
        | none => rfl
        | some v => exact h before line after s v hls' hread' (keyText_eq_some.mp hk) hd hc hagree

theorem not_throws (hi : items.lookup key = some item) (hv : item.validator = none) {line s : Text}
    (hp : parseLine line = some (key,s)) : ¬Throws fmt items line := by
  rintro ⟨k,s',it,validator,hp',hk,hv',-⟩
  obtain ⟨rfl,-⟩ := Prod.mk.inj (Option.some.inj (hp.symm.trans hp'))
  rw [← Option.some.inj (hi.symm.trans hk), hv] at hv'
  cases hv'

theorem loadLines_snoc (hi : items.lookup key = some item) (hv : item.validator = none)
    (ht : item.type = .integer ∨ item.type = .boolean) {before : List Text} {line s : Text}
    (hread : ∀ l ∈ before, ¬Throws fmt items l) (hp : parseLine line = some (key,s)) :
    (loadLines fmt items (before ++ [line])).1.lookup key = some
      { item with value := (converted s item.type).getD (before.foldl (advance key item.type) item.value) } := by
  have hread' : ∀ l ∈ before ++ [line], ¬Throws fmt items l := by
    intro l hl
    rcases List.mem_append.mp hl with hl | hl
    · exact hread l hl
    · rw [List.mem_singleton.mp hl]
      exact not_throws hi hv hp
  rw [loadLines_advance (Extends.refl items) hi hv ht hread', List.foldl_append, List.foldl_cons, List.foldl_nil]
  unfold advance
  rw [keyText_eq_some.mpr hp, Option.bind_some]

/-- A load gives an item only values that whole texts denote exactly when the malformed
texts that can be converted change nothing. -/
theorem onlyWhole_iff (hi : items.lookup key = some item) (hv : item.validator = none)
    (ht : item.type = .integer ∨ item.type = .boolean) (content : Text) :
    OnlyWhole fmt items content key item ↔ Harmless fmt items content key item := by
  have hadvance : ∀ before : List Text, (∀ l ∈ before, ¬Throws fmt items l) →
      (loadLines fmt items before).1.lookup key =
        some { item with value := before.foldl (advance key item.type) item.value } :=
    fun before hread => loadLines_advance (Extends.refl items) hi hv ht hread
  constructor
  · rintro ⟨-,hmal⟩ before line after s hls hread hp hd value hc
    -- What the line leaves is what was there, in either reading.
    have hsame : ∀ before line after s v, getLines content = before ++ line :: after →
        (∀ l ∈ before, ¬Throws fmt items l) → parseLine line = some (key,s) →
        denoted (D := D) s item.type = none → converted s item.type = some v →
        v = before.foldl (advance key item.type) item.value := by
      intro before line after s v hls hread hp hd hc
      have h := hmal before line after s hls hp hd
      rw [loadLines_snoc hi hv ht hread hp, hadvance before hread, hc, Option.getD_some] at h
      exact congrArg ConfigItem.value (Option.some.inj h)
    have hagree := foldl_advance_eq (fun before line after s v hls hread hp hd hc hag =>
      (hsame before line after s v hls hread hp hd hc).trans hag) hls hread
    exact (hsame before line after s value hls hread hp hd hc).trans hagree
  · intro h
    have hagree : ∀ {before after : List Text}, getLines content = before ++ after →
        (∀ l ∈ before, ¬Throws fmt items l) →
        before.foldl (advance key item.type) item.value = before.foldl (settle key item.type) item.value :=
      fun hls hread => foldl_advance_eq (fun before line after s v hls hread hp hd hc _ =>
        h before line after s hls hread hp hd v hc) hls hread
    refine ⟨?_,fun before line after s hls hp hd => ?_⟩
    · obtain ⟨before,after,hls,hread,hsame⟩ := exists_read fmt (Extends.refl items) (getLines content)
      refine ⟨_,(congrArg (AList.lookup key) hsame).trans (hadvance before hread),?_⟩
      rw [hagree hls hread]
      rcases foldl_settle key item.type item.value before with hkept | ⟨line,hmem,hrest⟩
      · exact Or.inl hkept
      · exact Or.inr ⟨line,hls ▸ List.mem_append_left after hmem,hrest⟩
    · by_cases hread : ∀ l ∈ before, ¬Throws fmt items l
      · rw [loadLines_snoc hi hv ht hread hp, hadvance before hread]
        cases hc : converted (D := D) s item.type with
        | none => rfl
        | some v =>
          rw [h before line after s hls hread hp hd v hc, hagree hls hread]
          rfl
      · simp only [not_forall, not_not] at hread
        obtain ⟨l,hl,hthrow⟩ := hread
        rw [loadLines_append (Extends.refl items) ⟨l,hl,hthrow⟩]

end Reading

def portItem : ConfigItem Empty := ⟨ascii "port",.int 1,.integer,false,[],none⟩

def portOnly : Items Empty := (∅ : Items Empty).insert (ascii "port") portItem

def portFile : Text := ascii "port=2" ++ 10 :: ascii "port=abc"

/-- The second line has no digits, so nothing is converted and the item keeps 2. -/
theorem onlyWhole_iff_port : OnlyWhole noDoubles portOnly portFile (ascii "port") portItem := by
  refine (onlyWhole_iff (AList.lookup_insert ∅) rfl (Or.inl rfl) portFile).mpr ?_
  rintro before line after s hls - hp hd value hc
  have hlines : getLines portFile = [ascii "port=2",ascii "port=abc"] := by decide +kernel
  rw [hlines] at hls
  rcases List.cons_eq_append_iff.mp hls with ⟨-,hfirst⟩ | ⟨rest,-,hrest⟩
  · obtain ⟨rfl,-⟩ := List.cons.inj hfirst
    obtain rfl : ascii "2" = s := congrArg Prod.snd (Option.some.inj hp)
    cases hd
  · rcases List.cons_eq_append_iff.mp hrest with ⟨-,hsecond⟩ | ⟨rest,-,hrest⟩
    · obtain ⟨rfl,-⟩ := List.cons.inj hsecond
      obtain rfl : ascii "abc" = s := congrArg Prod.snd (Option.some.inj hp)
      cases hc
    · simp at hrest

/-- The digits in front of other letters are taken for the number. -/
theorem prefix_taken : ¬OnlyWhole noDoubles portOnly (ascii "port=12abc") (ascii "port") portItem := by
  rintro ⟨-,hmal⟩
  have hsame := hmal [] (ascii "port=12abc") [] (ascii "12abc") (by decide +kernel) (by decide +kernel) rfl
  have hvalue := congrArg (Option.map ConfigItem.value) hsame
  exact absurd hvalue (by decide +kernel)

end Wirestead.Config
