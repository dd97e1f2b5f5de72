import EventTaxonomy.Proofs.NamePatterns
import Mathlib.Computability.RegularExpressions

/-!
# The languages of names

The names of a family are given by a pattern, `[A-Z][A-Za-z0-9]*Context` for contexts and
`[A-Z][A-Za-z0-9]*Event` for events, which a text has to match from its first character to its last.
`NameFamily.pattern` is this pattern as a regular expression. The letters of the word at the end are
among those that may stand before it, so the pattern leaves open where a text is to be split; its
words are the texts that can be split at all (`NameFamily.mem_pattern_iff`).

Since a name has the word at its very end, the word may be repeated (`Matches.append_ending`), is no
name by itself (`not_matches_ending`) and has no other letter after it (`not_matches_push`), and no
text is a name of both families (`not_matches_both`). `NameFamily.parse_language` says this of
parsing.
-/

namespace EventTaxonomy

/-! ### Parts of patterns -/

namespace Pattern

/-- The characters from `first` to `last`. -/
def range (first last : Char) : List Char :=
  (List.range' first.toNat (last.toNat + 1 - first.toNat)).map Char.ofNat

/-- One of the characters. -/
def oneOf : List Char → RegularExpression Char
  | [] => 0
  | c :: cs => .char c + oneOf cs

/-- The characters, one after the other. -/
def word : List Char → RegularExpression Char
  | [] => 1
  | c :: cs => .char c * word cs

theorem toNat_ofNat {n : Nat} (h : n < 0xD800) : (Char.ofNat n).toNat = n := by
  unfold Char.ofNat
  rw [dif_pos (Or.inl h)]
  rfl

theorem mem_range_iff {first last c : Char} (h : last.toNat < 0xD800) :
    c ∈ range first last ↔ first ≤ c ∧ c ≤ last := by
  simp only [range, List.mem_map, List.mem_range'_1, Char.le_def, UInt32.le_iff_toNat_le]
  constructor
  · rintro ⟨n, hn, rfl⟩
    have hc : (Char.ofNat n).val.toNat = n := toNat_ofNat (by omega)
    rw [hc]
    simp only [Char.toNat] at hn
    omega
  · rintro ⟨hfirst, hlast⟩
    refine ⟨c.toNat, ?_, c.ofNat_toNat⟩
    simp only [Char.toNat]
    omega

theorem mem_oneOf_iff {cs s : List Char} : s ∈ (oneOf cs).matches' ↔ ∃ c ∈ cs, s = [c] := by
  induction cs with
  | nil => simp [oneOf, RegularExpression.matches'_zero, Language.notMem_zero]
  | cons c cs ih =>
    rw [oneOf, RegularExpression.matches'_add, Language.mem_add, ih, List.exists_mem_cons_iff]
    rfl

theorem mem_word_iff {cs s : List Char} : s ∈ (word cs).matches' ↔ s = cs := by
  induction cs generalizing s with
  | nil => rw [word, RegularExpression.matches'_epsilon, Language.mem_one]
  | cons c cs ih =>
    rw [word, RegularExpression.matches'_mul, Language.mem_mul]
    constructor
    · rintro ⟨_, rfl, t, ht, rfl⟩
      rw [ih.1 ht]
      rfl
    · rintro rfl
      exact ⟨[c], rfl, cs, ih.2 rfl, rfl⟩

/-- Any number of characters of a class. -/
theorem mem_star_oneOf_iff {cs s : List Char} :
    s ∈ (oneOf cs).star.matches' ↔ ∀ d ∈ s, d ∈ cs := by
  rw [RegularExpression.matches'_star, Language.mem_kstar]
  constructor
  · rintro ⟨parts, rfl, hparts⟩ d hd
    obtain ⟨part, hpart, hd⟩ := List.mem_flatten.1 hd
    obtain ⟨c, hc, rfl⟩ := mem_oneOf_iff.1 (hparts part hpart)
    rwa [List.mem_singleton.1 hd]
  · intro hs
    refine ⟨s.map ([·]), (List.flatMap_singleton' s).symm, fun part hpart => ?_⟩
    obtain ⟨c, hc, rfl⟩ := List.mem_map.1 hpart
    exact mem_oneOf_iff.2 ⟨c, hs c hc, rfl⟩

end Pattern

namespace NameFamily

open Pattern

/-- Capital letters. -/
def capitals : List Char := range 'A' 'Z'

/-- Letters and digits. -/
def nameChars : List Char := range 'A' 'Z' ++ range 'a' 'z' ++ range '0' '9'

/-- The pattern of the names of a family. -/
def pattern (family : NameFamily) : RegularExpression Char :=
  oneOf capitals * (oneOf nameChars).star * word family.ending.toList

theorem mem_capitals_iff {c : Char} : c ∈ capitals ↔ c.isUpper = true := by
  rw [← isCapital_eq_isUpper, capitals, mem_range_iff (by decide), isCapital, Bool.and_eq_true,
    decide_eq_true_iff, decide_eq_true_iff]

theorem mem_nameChars_iff {c : Char} : c ∈ nameChars ↔ c.isAlphanum = true := by
  simp only [nameChars, List.mem_append, mem_range_iff (show 'Z'.toNat < 0xD800 by decide),
    mem_range_iff (show 'z'.toNat < 0xD800 by decide),
    mem_range_iff (show '9'.toNat < 0xD800 by decide), ← isNameChar_eq_isAlphanum, isNameChar,
    isCapital, Bool.or_eq_true, Bool.and_eq_true, decide_eq_true_iff]

/-- **The words of the pattern are the texts that can be split.** -/
theorem mem_pattern_iff {family : NameFamily} {text : String} :
    text.toList ∈ family.pattern.matches' ↔ family.Matches text := by
  rw [pattern, RegularExpression.matches'_mul, Language.mem_mul]
  constructor
  · rintro ⟨front, hfront, final, hfinal, htext⟩
    obtain ⟨first, hfirst, middle, hmiddle, rfl⟩ := Language.mem_mul.1 hfront
    obtain ⟨c, hc, rfl⟩ := mem_oneOf_iff.1 hfirst
    rw [mem_word_iff.1 hfinal] at htext
    refine ⟨c, .ofList middle, ?_, mem_capitals_iff.1 hc, fun d hd => ?_⟩
    · rw [← String.toList_inj, ← htext]
      simp
    · rw [String.toList_ofList] at hd
      exact mem_nameChars_iff.1 (mem_star_oneOf_iff.1 hmiddle d hd)
  · rintro ⟨c, middle, rfl, hfirst, hmiddle⟩
    refine ⟨[c] ++ middle.toList, Language.mem_mul.2 ⟨[c], ?_, middle.toList, ?_, rfl⟩,
      family.ending.toList, mem_word_iff.2 rfl, by simp⟩
    · exact mem_oneOf_iff.2 ⟨c, mem_capitals_iff.2 hfirst, rfl⟩
    · exact mem_star_oneOf_iff.2 fun d hd => mem_nameChars_iff.2 (hmiddle d hd)

/-! ### The word at the end -/

theorem Matches.suffix {family : NameFamily} {text : String} (h : family.Matches text) :
    family.ending.toList <:+ text.toList := by
  obtain ⟨c, middle, rfl, -, -⟩ := h
  rw [String.toList_append]
  exact List.suffix_append _ _

/-- The word takes up less than the whole text. -/
theorem Matches.length_lt {family : NameFamily} {text : String} (h : family.Matches text) :
    family.ending.toList.length < text.toList.length := by
  obtain ⟨c, middle, rfl, -, -⟩ := h
  simp only [String.toList_append, String.toList_singleton, List.length_append,
    List.length_singleton]
  omega

theorem not_matches_ending (family : NameFamily) : ¬ family.Matches family.ending := fun h =>
  Nat.lt_irrefl _ h.length_lt

theorem Matches.append_ending {family : NameFamily} {text : String} (h : family.Matches text) :
    family.Matches (text ++ family.ending) := by
  obtain ⟨c, middle, rfl, hfirst, hmiddle⟩ := h
  refine ⟨c, middle ++ family.ending, by simp only [String.append_assoc], hfirst, ?_⟩
  rw [String.toList_append, List.forall_mem_append]
  exact ⟨hmiddle, isAlphanum_of_mem_ending⟩

/-- Both words end in the same letter. -/
theorem getLast?_ending (family : NameFamily) : family.ending.toList.getLast? = some 't' := by
  cases family <;> decide

theorem not_matches_push {family : NameFamily} {d : Char} (hd : d ≠ 't') (text : String) :
    ¬ family.Matches (text.push d) := by
  intro h
  obtain ⟨front, hfront⟩ := h.suffix
  have hlast := congrArg List.getLast? hfront
  rw [List.getLast?_append, getLast?_ending, String.toList_push, List.getLast?_concat] at hlast
  exact hd (Option.some.inj hlast).symm

theorem not_matches_both (text : String) : ¬ (context.Matches text ∧ event.Matches text) := by
  rintro ⟨hcontext, hevent⟩
  -- the shorter of two words at the end of a text is at the end of the longer one
  have hword : event.ending.toList <:+ context.ending.toList :=
    List.suffix_of_suffix_length_le hevent.suffix hcontext.suffix (by decide)
  exact absurd hword (by decide)

end NameFamily

/-! ### Parsing -/

theorem ContextName.parse_eq_ok_iff {text : String} {name : ContextName} :
    parse text = .ok name ↔ name = ⟨text⟩ ∧ NameFamily.context.Matches text := by
  rw [parse_eq]
  split_ifs with hmatch <;> simp [hmatch, eq_comm]

theorem EventTypeName.parse_eq_ok_iff {text : String} {name : EventTypeName} :
    parse text = .ok name ↔ name = ⟨text⟩ ∧ NameFamily.event.Matches text := by
  rw [parse_eq]
  split_ifs with hmatch <;> simp [hmatch, eq_comm]

/-- **Parsing accepts the languages of the patterns.** A text is parsed as a name of a family, and
unchanged, iff it is a capital letter, then letters and digits, then the word of the family: a word
of the pattern. The family's word alone is no name, a name may be followed by it once more, and a
text that goes on after it with another letter is no name. No text is parsed as a name of both
families. -/
theorem NameFamily.parse_language (text : String) :
    (∀ name, ContextName.parse text = .ok name ↔ name = ⟨text⟩ ∧ context.Matches text) ∧
    (∀ name, EventTypeName.parse text = .ok name ↔ name = ⟨text⟩ ∧ event.Matches text) ∧
    (∀ family : NameFamily,
      (family.Matches text ↔ text.toList ∈ family.pattern.matches') ∧
      ¬ family.Matches family.ending ∧
      (family.Matches text → family.Matches (text ++ family.ending)) ∧
      ∀ d, d ≠ 't' → ¬ family.Matches (text.push d)) ∧
    ¬ ((∃ name, ContextName.parse text = .ok name) ∧
      ∃ name, EventTypeName.parse text = .ok name) := by
  refine ⟨fun name => ContextName.parse_eq_ok_iff, fun name => EventTypeName.parse_eq_ok_iff,
    fun family => ⟨mem_pattern_iff.symm, family.not_matches_ending, Matches.append_ending,
      fun d hd => not_matches_push hd text⟩, ?_⟩
  rintro ⟨⟨_, hcontext⟩, _, hevent⟩
  exact not_matches_both text
    ⟨(ContextName.parse_eq_ok_iff.1 hcontext).2, (EventTypeName.parse_eq_ok_iff.1 hevent).2⟩

example : NameFamily.context.Matches "AContextContext" ∧
    ¬ NameFamily.context.Matches "PathContext\n" ∧ ¬ NameFamily.event.Matches "ÉtéEvent" := by
  decide

end EventTaxonomy
