import EventTaxonomy.Record
import EventTaxonomy.Report.Console
import EventTaxonomy.Proofs.IdentityData
import EventTaxonomy.Proofs.OpenTaxonomy
import EventTaxonomy.Proofs.RuleTable

/-!
# The two lines of a diagnostic

The text of a diagnostic is to have two lines: a header with the tag and the whole message, and a
pointer to the documentation. The console relies on it, for it takes as the header what stands
before the first line break and shows that in colour. `Diagnostic.InTwoLines` says all of this.

Text that comes from elsewhere goes into both lines as it is, so the form depends on it, and on
nothing else (`Diagnostic.inTwoLines_iff_parts`). The names in the rules of a rule set that was
built have no line break, since they were checked (`RuleSet.IsBuilt.wellNamed`). Log prefixes, the
types of events and the identities of global contexts were not. `RuleSet.validate_inTwoLines_iff`
says that the form is kept unless one of these has a line break; an id with one breaks it
(`RuleSet.validate_torn_message`).
-/

namespace EventTaxonomy

/-! ### Where the console ends the header -/

namespace Console

theorem splitHeader_append {header : List Char} (h : '\n' ∉ header) (rest : List Char) :
    splitHeader (header ++ '\n' :: rest) = (header, some rest) := by
  induction header with
  | nil => rfl
  | cons c header ih =>
    obtain ⟨hc, hheader⟩ := not_or.1 (mt List.mem_cons.2 h)
    rw [List.cons_append, splitHeader, if_neg (Ne.symm hc), ih hheader]

/-- A header without a line break is shown in colour as a whole, and nothing else is. -/
theorem render_append {header : String} (h : '\n' ∉ header.toList) (style : Style)
    (rest : String) :
    render true style (header ++ "\n" ++ rest) =
      style.ansi ++ header ++ "\x1b[0m\n" ++ rest ++ "\n" := by
  have hchars : (header ++ "\n" ++ rest).toList = header.toList ++ '\n' :: rest.toList := by simp
  simp only [render, if_true, hchars, splitHeader_append h, String.ofList_toList]

end Console

/-! ### Texts of diagnostics -/

namespace Section

theorem newline_not_mem_label (part : Section) : '\n' ∉ part.label.toList := by
  cases part <;> decide

theorem newline_not_mem_path (part : Section) : '\n' ∉ part.path.toList := by
  cases part <;> decide

end Section

namespace Diagnostic

/-- The pointer to the documentation. -/
def pointer (d : Diagnostic) : String := "Taxonomy documentation: " ++ d.docsUrl ++ "."

/-- The text has one line break. The line before it is the tag with the whole message, the line
after it the pointer to the documentation, and the console shows just the first in colour. -/
structure InTwoLines (d : Diagnostic) : Prop where
  oneBreak : d.text.toList.count '\n' = 1
  lines : d.text.toList.splitOn '\n' =
    [(d.tag ++ " Error: " ++ d.message).toList, d.pointer.toList]
  coloured : ∀ style, Console.render true style d.text =
    style.ansi ++ (d.tag ++ " Error: " ++ d.message) ++ "\x1b[0m\n" ++ d.pointer ++ "\n"

theorem text_eq (d : Diagnostic) : d.text = d.header ++ "\n" ++ d.pointer := by
  have hbreak : "\nTaxonomy documentation: " = "\n" ++ "Taxonomy documentation: " := rfl
  unfold text pointer
  rw [hbreak]
  simp only [String.append_assoc]

theorem toList_text (d : Diagnostic) :
    d.text.toList = d.header.toList ++ '\n' :: d.pointer.toList := by
  rw [text_eq]
  simp

theorem count_text (d : Diagnostic) :
    d.text.toList.count '\n' =
      d.header.toList.count '\n' + d.pointer.toList.count '\n' + 1 := by
  rw [toList_text, List.count_append, List.count_cons_self, Nat.add_assoc]

theorem inTwoLines_iff {d : Diagnostic} :
    d.InTwoLines ↔ '\n' ∉ d.header.toList ∧ '\n' ∉ d.pointer.toList := by
  have hcount := d.count_text
  constructor
  · intro h
    have hone := h.oneBreak
    rw [← List.count_eq_zero, ← List.count_eq_zero]
    omega
  · rintro ⟨hheader, hpointer⟩
    refine ⟨?_, ?_, fun style => ?_⟩
    · rw [hcount, List.count_eq_zero.2 hheader, List.count_eq_zero.2 hpointer]
    · rw [toList_text, List.splitOn_append_cons_self_of_not_mem hheader,
        List.splitOn_eq_singleton hpointer]
      rfl
    · rw [text_eq, Console.render_append hheader]
      rfl

/-- There is never less than one line break, so otherwise there are more. -/
theorem one_lt_count_of_not_inTwoLines {d : Diagnostic} (h : ¬ d.InTwoLines) :
    1 < d.text.toList.count '\n' := by
  have hcount := d.count_text
  by_contra hfew
  refine h (inTwoLines_iff.2 ⟨?_, ?_⟩) <;> rw [← List.count_eq_zero] <;> omega

/-! ### Line breaks in the parts of a text -/

theorem newline_not_mem_pointer_iff {d : Diagnostic} :
    '\n' ∉ d.pointer.toList ↔ '\n' ∉ d.contextName.text.toList := by
  have hpath := d.rule.part.newline_not_mem_path
  unfold pointer docsUrl Section.docsUrl
  simp [hpath]

theorem newline_not_mem_tag_iff {d : Diagnostic} :
    '\n' ∉ d.tag.toList ↔ ∀ text ∈ d.logPrefix, '\n' ∉ text.toList := by
  unfold tag
  cases d.logPrefix <;> simp

theorem newline_not_mem_message_iff {d : Diagnostic} :
    '\n' ∉ d.message.toList ↔
      '\n' ∉ d.contextName.text.toList ∧ '\n' ∉ d.eventType.text.toList ∧
        ∀ id, d.violation = .duplicateIdentity id → '\n' ∉ id.toList := by
  have hlabel := d.rule.part.newline_not_mem_label
  unfold message Violation.message
  cases d.violation with
  | missing => simp [hlabel]
  | duplicateIdentity id => simp [hlabel, and_comm]
  | duplicate => simp [hlabel]
  | wrongPosition expected actual => simp [hlabel]

/-- **The parts that are taken over as they are decide about the lines.** -/
theorem inTwoLines_iff_parts {d : Diagnostic} :
    d.InTwoLines ↔ (∀ text ∈ d.logPrefix, '\n' ∉ text.toList) ∧
      '\n' ∉ d.contextName.text.toList ∧ '\n' ∉ d.eventType.text.toList ∧
        ∀ id, d.violation = .duplicateIdentity id → '\n' ∉ id.toList := by
  have hheader : '\n' ∉ d.header.toList ↔ '\n' ∉ d.tag.toList ∧ '\n' ∉ d.message.toList := by
    unfold header
    simp
  rw [inTwoLines_iff, hheader, newline_not_mem_tag_iff, newline_not_mem_message_iff,
    newline_not_mem_pointer_iff]
  tauto

end Diagnostic

/-! ### Diagnostics of a rule set -/

/-- A violation is about the context of its check, or is one of identity. -/
theorem Check.contextName_of_mem_violations {check : Check} {e : Event} {name : ContextName}
    {violation : Violation} (h : (name, violation) ∈ check.violations e) :
    check.contextName = some name ∨ ∃ id, violation = .duplicateIdentity id := by
  cases check with
  | missing name' =>
    simp only [violations] at h
    split_ifs at h
    · cases List.mem_singleton.1 h
      exact .inl rfl
    · cases h
  | unique =>
    obtain ⟨pair, -, hpair⟩ := List.mem_map.1 h
    cases hpair
    exact .inr ⟨pair.2, rfl⟩
  | location name' occurrence =>
    simp only [violations] at h
    split at h
    · cases List.mem_singleton.1 h
      exact .inl rfl
    · cases h

namespace RuleSet

theorem IsBuilt.exists_document {set : RuleSet} (h : set.IsBuilt) :
    ∃ doc : RuleDocument, doc.build = .ok set := by
  rcases h with hdoc | ⟨platform, logPrefix, rfl⟩
  · exact hdoc
  · exact ⟨_, RuleDocument.build_openTaxonomy platform logPrefix⟩

theorem IsBuilt.wellNamed {set : RuleSet} (h : set.IsBuilt) : ∀ r ∈ set.rules, r.WellNamed := by
  intro r hr
  obtain ⟨doc, hdoc⟩ := h.exists_document
  obtain ⟨entry, -, hentry⟩ := RuleDocument.exists_entry_of_mem hdoc hr
  exact Rule.wellNamed_of_build hentry

/-- **When the text of a diagnostic has its two lines.** Under a rule set that was built from a
document, or that of the open taxonomy, the names in the rules are known to have no line break. What
remains is taken over from elsewhere without a check: the prefix of the rule, the type of the event,
and for a duplicate identity the type and the id of the contexts. The text of a diagnostic is in two
lines iff none of these has a line break, and otherwise has more lines than two. -/
theorem validate_inTwoLines_iff {set : RuleSet} (hset : set.IsBuilt) {e : Event} {d : Diagnostic}
    (hd : d ∈ set.validate e) :
    (d.InTwoLines ↔ (∀ text ∈ d.logPrefix, '\n' ∉ text.toList) ∧ '\n' ∉ e.type.text.toList ∧
      ∀ id, d.violation = .duplicateIdentity id →
        '\n' ∉ d.contextName.text.toList ∧ '\n' ∉ id.toList) ∧
      (¬ d.InTwoLines → 1 < d.text.toList.count '\n') := by
  refine ⟨?_, Diagnostic.one_lt_count_of_not_inTwoLines⟩
  obtain ⟨r, hr, hd⟩ := List.mem_flatMap.1 hd
  obtain ⟨name, violation, hmem, rfl⟩ := Rule.exists_violation_of_mem_validate hd
  rw [Diagnostic.inTwoLines_iff_parts]
  constructor
  · rintro ⟨htag, hname, htype, hid⟩
    exact ⟨htag, htype, fun id h => ⟨hname, hid id h⟩⟩
  · rintro ⟨htag, htype, hidentity⟩
    refine ⟨htag, ?_, htype, fun id h => (hidentity id h).2⟩
    -- the name is one of the rule, which was checked, or comes with the identity
    rcases Check.contextName_of_mem_violations hmem with hname | ⟨id, hid⟩
    · exact ((hset.wellNamed r hr).contextName name hname).not_mem rfl
    · exact (hidentity id hid).1

end RuleSet

/-! ### Ids with and without a line break -/

/-- A document that asks for unique global contexts and nothing else. -/
def RuleDocument.uniqueOnly : RuleDocument := ⟨.core, none, [⟨.unique, none, none, none⟩]⟩

/-- An event with an id that two global contexts share. -/
def Event.twins (id : String) : Event :=
  ⟨⟨"PressEvent"⟩, [.new ⟨"PathContext"⟩ id, .new ⟨"PathContext"⟩ id], [], []⟩

/-- The record of such an event. -/
def Record.twins (id : String) : Json :=
  let c : Json := .object [("_type", .string "PathContext"), ("id", .string id)]
  .object [("_type", .string "PressEvent"), ("global_contexts", .array [c, c])]

/-- What is wrong with such an event. -/
def Diagnostic.twins (id : String) : Diagnostic :=
  ⟨.uniqueGlobalContext, .duplicateIdentity id, ⟨"PathContext"⟩, ⟨"PressEvent"⟩, none⟩

namespace RuleSet

/-- A tab in an id does no harm. -/
theorem validate_inTwoLines_tab :
    ∃ set : RuleSet, set.IsBuilt ∧ Diagnostic.twins "a\tb" ∈ set.validate (.twins "a\tb") ∧
      (Diagnostic.twins "a\tb").InTwoLines := by
  have hbuilt : ∃ set, RuleDocument.uniqueOnly.build = .ok set ∧
      Diagnostic.twins "a\tb" ∈ set.validate (.twins "a\tb") := ⟨_, rfl, by decide⟩
  obtain ⟨set, hset, hd⟩ := hbuilt
  refine ⟨set, .inl ⟨_, hset⟩, hd, (validate_inTwoLines_iff (.inl ⟨_, hset⟩) hd).1.2 ?_⟩
  refine ⟨by simp [Diagnostic.twins], by decide, fun id hid => ?_⟩
  cases hid
  exact ⟨by decide, by decide⟩

/-- A line break in an id tears the message apart: there are more lines than two. -/
theorem validate_torn_message :
    ∃ set : RuleSet, RuleDocument.uniqueOnly.build = .ok set ∧
      Record.toEvent 0 (Record.twins "a\nb") = .ok (.twins "a\nb") ∧
      Diagnostic.twins "a\nb" ∈ set.validate (.twins "a\nb") ∧
      ¬ (Diagnostic.twins "a\nb").InTwoLines ∧
      1 < (Diagnostic.twins "a\nb").text.toList.count '\n' := by
  have htorn : ¬ (Diagnostic.twins "a\nb").InTwoLines := by
    rw [Diagnostic.inTwoLines_iff_parts]
    rintro ⟨-, -, -, hid⟩
    exact hid "a\nb" rfl (by decide)
  exact ⟨_, rfl, rfl, by decide, htorn, Diagnostic.one_lt_count_of_not_inTwoLines htorn⟩

end RuleSet

end EventTaxonomy
