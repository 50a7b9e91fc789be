import Wirestead.Config.ConfigManager

/-! # What a file can do to an item

Lines are read on their own: the value of an item after a load is the one before it, or
was made from one line of its key.
-/
namespace Wirestead.Config
open Words

/-- No blank at either end. -/
def Trimmed (s : Text) : Prop := ∀ c, s.head? = some c ∨ s.getLast? = some c → isBlank c = false

theorem trim_eq_self {s : Text} (h : Trimmed s) : trim s = s := by
  have hfront : s.dropWhile isBlank = s := by
    rw [List.dropWhile_eq_self_iff]
    intro hpos hblank
    rw [h s[0] (Or.inl (by rw [List.head?_eq_getElem?, List.getElem?_eq_getElem hpos]))] at hblank
    cases hblank
  unfold trim
  rw [hfront, List.rdropWhile_eq_self_iff]
  intro hne hblank
  rw [h (s.getLast hne) (Or.inr (List.getLast?_eq_some_getLast hne))] at hblank
  cases hblank

theorem trim_trimmed (s : Text) : Trimmed (trim s) := by
  rintro c (hc | hc)
  · have hprefix : trim s <+: s.dropWhile isBlank := List.rdropWhile_prefix _ _
    have hhead : (s.dropWhile isBlank).head? = some c := by
      obtain ⟨t,ht⟩ := hprefix
      obtain ⟨rest,hrest⟩ := List.head?_eq_some_iff.mp hc
      rw [← ht, hrest]
      rfl
    have hnot := List.head?_dropWhile_not isBlank s
    rw [hhead] at hnot
    simpa using hnot
  · have hne : trim s ≠ [] := by
      intro hnil
      rw [hnil] at hc
      cases hc
    have hlast := List.rdropWhile_last_not isBlank (s.dropWhile isBlank) hne
    rw [List.getLast?_eq_some_getLast hne] at hc
    obtain rfl := Option.some.inj hc
    exact eq_false_of_ne_true hlast

theorem trim_sublist (s : Text) : (trim s).Sublist s :=
  (List.rdropWhile_prefix _ _).sublist.trans (List.dropWhile_suffix _).sublist

/-- A written line is read first. -/
theorem getLines_append {line : Text} (h : 10 ∉ line) (rest : Text) :
    getLines (line ++ 10 :: rest) = line :: getLines rest := by
  unfold getLines
  rw [segments_singleton_append h]
  dsimp only
  split_ifs <;> rfl

theorem newline_notMem_of_mem_getLines {content line : Text} (h : line ∈ getLines content) : 10 ∉ line := by
  unfold getLines at h
  dsimp only at h
  split_ifs at h
  · exact notMem_of_mem_segments h
  · rcases List.mem_append.mp h with h | h
    · exact notMem_of_mem_segments h
    · rw [List.mem_singleton.mp h]
      exact notMem_segments_tail 10 content

/-- The text of a line is trimmed, and from one line. -/
theorem parseLine_text {line key s : Text} (h : parseLine line = some (key,s)) : Trimmed s ∧ s.Sublist line := by
  unfold parseLine at h
  split_ifs at h
  obtain ⟨pos,-,hpos⟩ := Option.map_eq_some_iff.mp h
  obtain ⟨-,rfl⟩ := Prod.mk.inj hpos
  exact ⟨trim_trimmed _,(trim_sublist _).trans (List.drop_sublist _ _)⟩

section Loading
variable {D : Type*} {fmt : DoubleText D} {items : Items D} {key : Text} {item : ConfigItem D}

theorem loadLine_of_skip {line : Text} (h : parseLine line = none) : loadLine fmt items line = some items := by
  simp only [loadLine, h]

theorem loadLine_of_parse {line s : Text} (h : parseLine line = some (key,s)) :
    loadLine fmt items line = loadEntry fmt items key s := by
  simp only [loadLine, h]

theorem loadLines_cons {line : Text} {items' : Items D} (h : loadLine fmt items line = some items') (ls : List Text) :
    loadLines fmt items (line :: ls) = loadLines fmt items' ls := by
  simp only [loadLines, h]

theorem loadLines_of_throw {line : Text} (h : loadLine fmt items line = none) (ls : List Text) :
    loadLines fmt items (line :: ls) = (items,false) := by
  simp only [loadLines, h]

/-- A line of another key, or of none, leaves the item alone. -/
theorem loadLine_lookup {line : Text} {items' : Items D} (hl : loadLine fmt items line = some items')
    (hline : ∀ s, parseLine line ≠ some (key,s)) : items'.lookup key = items.lookup key := by
  cases hp : parseLine line with
  | none =>
    rw [loadLine_of_skip hp] at hl
    rw [Option.some.inj hl]
  | some e =>
    obtain ⟨k,s⟩ := e
    rw [loadLine_of_parse hp] at hl
    exact loadEntry_lookup_ne hl (fun hk => hline s (hk ▸ hp))

/-- What a line of the key does to the item. -/
theorem loadEntry_value {s : Text} {items' : Items D} (hi : items.lookup key = some item)
    (h : loadEntry fmt items key s = some items') :
    ∃ value, items'.lookup key = some { item with value := value } ∧
      (value = item.value ∨ value = deserializeValue fmt s item.type ∧
        ∃ result, validateValue items key value = some result ∧ result.isValid) := by
  rw [loadEntry_of_some hi] at h
  obtain ⟨result,hr,hitems⟩ := Option.map_eq_some_iff.mp h
  rw [← hitems]
  split_ifs with hvalid
  · exact ⟨_,AList.lookup_insert items,Or.inr ⟨rfl,result,hr,hvalid⟩⟩
  · exact ⟨item.value,hi,Or.inl rfl⟩

variable (fmt) in
/-- A load leaves an item as it was or with a value made from one of its lines, which its
validator has accepted. -/
theorem loadLines_value (hi : items.lookup key = some item) (ls : List Text) :
    ∃ value, (loadLines fmt items ls).1.lookup key = some { item with value := value } ∧
      (value = item.value ∨ ∃ line ∈ ls, ∃ s, parseLine line = some (key,s) ∧
        value = deserializeValue fmt s item.type ∧
        ∀ validator, item.validator = some validator → ∃ result, validator value = some result ∧ result.isValid) := by
  induction ls generalizing items item with
  | nil => exact ⟨item.value,hi,Or.inl rfl⟩
  | cons line ls ih =>
    cases hl : loadLine fmt items line with
    | none =>
      rw [loadLines_of_throw hl]
      exact ⟨item.value,hi,Or.inl rfl⟩
    | some items' =>
      rw [loadLines_cons hl]
      by_cases hline : ∃ s, parseLine line = some (key,s)
      · obtain ⟨s,hp⟩ := hline
        rw [loadLine_of_parse hp] at hl
        obtain ⟨value,hi',hvalue⟩ := loadEntry_value hi hl
        obtain ⟨value',hi'',hvalue'⟩ := ih hi'
        refine ⟨value',hi'',?_⟩
        rcases hvalue' with rfl | ⟨line',hmem,hrest⟩
        · rcases hvalue with rfl | ⟨rfl,result,hr,hvalid⟩
          · exact Or.inl rfl
          · refine Or.inr ⟨line,List.mem_cons_self,s,hp,rfl,fun validator hv => ⟨result,?_,hvalid⟩⟩
            rw [← hr, validateValue_of_validator hi hv]
        · exact Or.inr ⟨line',List.mem_cons_of_mem _ hmem,hrest⟩
      · have hsame := (loadLine_lookup hl (not_exists.mp hline)).trans hi
        obtain ⟨value,hi',hvalue⟩ := ih hsame
        refine ⟨value,hi',hvalue.imp_right ?_⟩
        rintro ⟨line',hmem,hrest⟩
        exact ⟨line',List.mem_cons_of_mem _ hmem,hrest⟩

end Loading
end Wirestead.Config
