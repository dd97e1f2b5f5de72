import EventTaxonomy.Name
import Mathlib.Data.List.Infix

/-!
# The patterns of names

`NameFamily.accepts` runs along the characters of a text. `NameFamily.Matches` is the pattern that
it stands for: a capital letter, any letters and digits, and the word of the family at the very end.
`NameFamily.accepts_iff_matches` proves that they agree. So a text that matches is parsed as a name,
unchanged, and any other is refused (`ContextName.parse_eq`, `EventTypeName.parse_eq`).
-/

namespace EventTaxonomy

theorem isCapital_eq_isUpper (c : Char) : isCapital c = c.isUpper := by
  have hupper : c.isUpper = decide ('A' ≤ c ∧ c ≤ 'Z') := rfl
  rw [hupper, isCapital, Bool.decide_and]

theorem isNameChar_eq_isAlphanum (c : Char) : isNameChar c = c.isAlphanum := by
  have hparts : c.isAlphanum =
      (c.isUpper || ('a' ≤ c && c ≤ 'z') || ('0' ≤ c && c ≤ '9')) := rfl
  rw [hparts, isNameChar, isCapital_eq_isUpper]

namespace NameFamily

/-- The text is a capital letter, then letters and digits, then the word of the family. -/
def Matches (family : NameFamily) (text : String) : Prop :=
  ∃ (c : Char) (middle : String), text = String.singleton c ++ middle ++ family.ending ∧
    c.isUpper = true ∧ ∀ d ∈ middle.toList, d.isAlphanum = true

theorem isAlphanum_of_mem_ending {family : NameFamily} :
    ∀ d ∈ family.ending.toList, d.isAlphanum = true := by
  have hall : family.ending.toList.all Char.isAlphanum = true := by
    cases family <;> decide
  exact List.all_eq_true.1 hall

theorem accepts_iff_matches {family : NameFamily} {text : String} :
    family.accepts text = true ↔ family.Matches text := by
  unfold accepts
  constructor
  · intro h
    split at h
    · cases h
    · next c rest htext =>
      simp only [Bool.and_eq_true, isCapital_eq_isUpper, List.all_eq_true,
        isNameChar_eq_isAlphanum, List.isSuffixOf_iff_suffix] at h
      obtain ⟨⟨hfirst, hall⟩, middle, rfl⟩ := h
      refine ⟨c, .ofList middle, ?_, hfirst, fun d hd => hall d ?_⟩
      · rw [← String.toList_inj, htext]
        simp
      · rw [String.toList_ofList] at hd
        exact List.mem_append_left _ hd
  · rintro ⟨c, middle, rfl, hfirst, hmiddle⟩
    have htext : (String.singleton c ++ middle ++ family.ending).toList =
        c :: (middle.toList ++ family.ending.toList) := by simp
    simp only [htext, Bool.and_eq_true, isCapital_eq_isUpper, List.all_eq_true,
      isNameChar_eq_isAlphanum, List.isSuffixOf_iff_suffix]
    refine ⟨⟨hfirst, fun d hd => ?_⟩, List.suffix_append _ _⟩
    rcases List.mem_append.1 hd with hd | hd
    · exact hmiddle d hd
    · exact isAlphanum_of_mem_ending d hd

/-- Names have no characters but letters and digits. -/
theorem Matches.not_mem {family : NameFamily} {text : String} (h : family.Matches text) {d : Char}
    (hd : d.isAlphanum = false) : d ∉ text.toList := by
  obtain ⟨c, middle, rfl, hfirst, hmiddle⟩ := h
  have hc : c.isAlphanum = true := by
    rw [← isNameChar_eq_isAlphanum, isNameChar, isCapital_eq_isUpper, hfirst]
    rfl
  have hall : ∀ b ∈ (String.singleton c ++ middle ++ family.ending).toList,
      b.isAlphanum = true := by
    simp only [String.toList_append, String.toList_singleton, List.forall_mem_append,
      List.forall_mem_singleton]
    exact ⟨⟨hc, hmiddle⟩, isAlphanum_of_mem_ending⟩
  intro hmem
  exact Bool.false_ne_true (hd.symm.trans (hall d hmem))

theorem Matches.ne_empty {family : NameFamily} {text : String} (h : family.Matches text) :
    text ≠ "" := by
  obtain ⟨c, middle, rfl, -, -⟩ := h
  simp [← String.toList_inj]

instance (family : NameFamily) (text : String) : Decidable (family.Matches text) :=
  decidable_of_iff _ accepts_iff_matches

theorem parse_eq (family : NameFamily) (text : String) :
    family.parse text = if family.Matches text then .ok text else .error ⟨family, text⟩ := by
  simp only [parse, accepts_iff_matches]

end NameFamily

theorem ContextName.parse_eq (text : String) :
    parse text =
      if NameFamily.context.Matches text then .ok ⟨text⟩ else .error ⟨.context, text⟩ := by
  rw [parse, NameFamily.parse_eq]
  split_ifs <;> rfl

theorem EventTypeName.parse_eq (text : String) :
    parse text = if NameFamily.event.Matches text then .ok ⟨text⟩ else .error ⟨.event, text⟩ := by
  rw [parse, NameFamily.parse_eq]
  split_ifs <;> rfl

theorem EventTypeName.exists_parse_eq_ok_iff {text : String} :
    (∃ name, parse text = .ok name) ↔ NameFamily.event.Matches text := by
  rw [parse_eq]
  split_ifs with hmatch <;> simp [hmatch]

theorem EventTypeName.parse_eq_error_iff {text : String} {e : NameError} :
    parse text = .error e ↔ ¬ NameFamily.event.Matches text ∧ e = ⟨.event, text⟩ := by
  rw [parse_eq]
  split_ifs with hmatch <;> simp [hmatch, eq_comm]

end EventTaxonomy
