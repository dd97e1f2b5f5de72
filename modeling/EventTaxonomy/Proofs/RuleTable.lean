import EventTaxonomy.Proofs.BuilderCalls
import EventTaxonomy.Proofs.Building
import EventTaxonomy.Report.Table

/-!
# The table of rules is unambiguous

A row of the table is made of columns that are filled with blanks, and nothing in it is quoted. It
can be read back all the same, because nothing that stands in a column has a blank in it.

* a column ends at its first blank, also if what stands in it is wider than the column
  (`Text.padRight_append_inj`), so a row determines its columns (`Table.ruleColumns_inj`);
* texts that are not empty and have no separator in them are determined by the text that they are
  joined to (`intercalate_inj`); this is used for the constraints of a rule, which are joined by
  blanks, and for the event types in one of them, which are joined by commas;
* the constraints begin with different words, so they determine the settings
  (`Rule.WellNamed.constraints_inj`).

`Table.ruleRow_inj` puts this together for rules with good names, and `Table.ruleRow_unambiguous`
says it of rules that were built.
-/

namespace EventTaxonomy

/-! ### Joined texts -/

/-- The parts of a text between separators, without the empty ones. -/
def parts (sep : Char) (text : List Char) : List (List Char) :=
  (text.splitOn sep).filter fun part => !part.isEmpty

theorem parts_intercalate {sep : Char} {texts : List (List Char)}
    (h : ∀ text ∈ texts, text ≠ [] ∧ sep ∉ text) : parts sep ([sep].intercalate texts) = texts := by
  by_cases hnil : texts = []
  · rw [hnil]
    rfl
  · rw [parts, List.splitOn_intercalate sep (fun text htext => (h text htext).2) hnil]
    refine List.filter_eq_self.2 fun text htext => ?_
    simpa using (h text htext).1

/-- The text is not empty, and the separator does not occur in it. -/
def Separable (sep : Char) (text : String) : Prop := text ≠ "" ∧ sep ∉ text.toList

theorem intercalate_inj {joint : String} {sep : Char} (hjoint : joint.toList = [sep])
    {as bs : List String} (has : ∀ a ∈ as, Separable sep a) (hbs : ∀ b ∈ bs, Separable sep b)
    (h : joint.intercalate as = joint.intercalate bs) : as = bs := by
  have hparts : ∀ texts : List String, (∀ text ∈ texts, Separable sep text) →
      parts sep (joint.intercalate texts).toList = texts.map String.toList := by
    intro texts htexts
    rw [String.toList_intercalate, hjoint]
    refine parts_intercalate (List.forall_mem_map.2 fun text htext => ?_)
    obtain ⟨hne, hsep⟩ := htexts text htext
    exact ⟨fun hnil => hne (String.toList_inj.1 hnil), hsep⟩
  have hlists : as.map String.toList = bs.map String.toList := by
    rw [← hparts as has, ← hparts bs hbs, h]
  exact (List.map_injective_iff.2 fun _ _ => String.toList_inj.1) hlists

theorem not_mem_intercalate {joint : List Char} {texts : List (List Char)} {c : Char}
    (hjoint : c ∉ joint) (h : ∀ text ∈ texts, c ∉ text) : c ∉ joint.intercalate texts := by
  induction texts with
  | nil => simp
  | cons text rest ih =>
    obtain ⟨htext, hrest⟩ := List.forall_mem_cons.1 h
    by_cases hnil : rest = []
    · rwa [hnil, List.intercalate_singleton]
    · rw [List.intercalate_cons_of_ne_nil hnil]
      simp [htext, hjoint, ih hrest]

/-! ### Columns -/

namespace Text

/-- **A column ends at its first blank**, however wide it is. -/
theorem padRight_append_inj {width : Nat} {a b s t : String} (ha : ' ' ∉ a.toList)
    (hb : ' ' ∉ b.toList) (h : padRight width a ++ " " ++ s = padRight width b ++ " " ++ t) :
    a = b ∧ s = t := by
  -- the blanks that fill the column and the one behind it can be swapped
  have hchars : ∀ x y : String, (padRight width x ++ " " ++ y).toList =
      x.toList ++ ' ' :: (List.replicate (width - x.length) ' ' ++ y.toList) := by
    intro x y
    rw [padRight_eq, String.toList_append, String.toList_append, String.toList_append,
      String.toList_ofList, List.append_assoc, List.append_assoc, ← List.cons_append,
      ← List.replicate_succ, List.replicate_succ', List.append_assoc]
    rfl
  have hfirst : ∀ x y : String, ' ' ∉ x.toList →
      (padRight width x ++ " " ++ y).toList.takeWhile (fun c => c ≠ ' ') = x.toList := by
    intro x y hx
    have hall : ∀ c ∈ x.toList, decide (c ≠ ' ') = true := fun c hc =>
      decide_eq_true fun heq => hx (heq ▸ hc)
    rw [hchars, List.takeWhile_append_of_pos hall]
    simp
  have hab : a = b := by
    rw [← String.toList_inj, ← hfirst a s ha, ← hfirst b t hb, h]
  subst hab
  exact ⟨rfl, (String.append_right_inj _).1 h⟩

end Text

namespace Table

theorem ruleColumns_eq (kind platform context constraints : String) :
    ruleColumns kind platform context constraints = Text.padRight 24 kind ++ " " ++
      (Text.padRight 14 platform ++ " " ++ (Text.padRight 24 context ++ " " ++ constraints)) := by
  simp only [ruleColumns, String.append_assoc]

theorem ruleColumns_inj {kind kind' platform platform' context context' constraints constraints' :
    String} (hkind : ' ' ∉ kind.toList) (hkind' : ' ' ∉ kind'.toList)
    (hplatform : ' ' ∉ platform.toList) (hplatform' : ' ' ∉ platform'.toList)
    (hcontext : ' ' ∉ context.toList) (hcontext' : ' ' ∉ context'.toList)
    (h : ruleColumns kind platform context constraints =
      ruleColumns kind' platform' context' constraints') :
    kind = kind' ∧ platform = platform' ∧ context = context' ∧ constraints = constraints' := by
  rw [ruleColumns_eq, ruleColumns_eq] at h
  have ⟨hkinds, hafterKind⟩ := Text.padRight_append_inj hkind hkind' h
  have ⟨hplatforms, hafterPlatform⟩ := Text.padRight_append_inj hplatform hplatform' hafterKind
  have ⟨hcontexts, hconstraints⟩ := Text.padRight_append_inj hcontext hcontext' hafterPlatform
  exact ⟨hkinds, hplatforms, hcontexts, hconstraints⟩

end Table

/-! ### What is in the columns -/

namespace RuleKind

theorem tag_injective : Function.Injective tag := by
  intro kind kind' h
  cases kind <;> cases kind' <;> simp [tag] at h ⊢

theorem blank_not_mem_tag (kind : RuleKind) : ' ' ∉ kind.tag.toList := by
  cases kind <;> decide

end RuleKind

namespace Platform

theorem tag_injective : Function.Injective tag := by
  intro platform platform' h
  cases platform <;> cases platform' <;> simp [tag] at h ⊢

theorem blank_not_mem_tag (platform : Platform) : ' ' ∉ platform.tag.toList := by
  cases platform <;> decide

end Platform

namespace Rule

/-- The names of the rule match their patterns. -/
structure WellNamed (r : Rule) : Prop where
  contextName : ∀ name, r.contextName = some name → NameFamily.context.Matches name.text
  eventTypes : ∀ types, r.events.allowList = some types →
    ∀ type ∈ types, NameFamily.event.Matches type.text

theorem wellNamed_of_build {entry : RuleEntry} {platform : Platform} {logPrefix : Option String}
    {r : Rule} (h : entry.build platform logPrefix = .ok r) : r.WellNamed := by
  have hsound := RuleEntry.exists_build_eq_ok_iff.1 ⟨r, h⟩
  have hbuilt := RuleEntry.builtAs_of_build h
  constructor
  · intro name hname
    refine hsound.contextName name.text ?_
    rw [← hbuilt.contextName, hname]
    rfl
  · intro types htypes type htype
    refine hsound.eventTypes (types.map EventTypeName.text) ?_ type.text (List.mem_map_of_mem htype)
    rw [← hbuilt.allowList, htypes]
    rfl

/-- What the context column shows. -/
def contextText (r : Rule) : String := r.contextName.elim "*" ContextName.text

variable {r r' : Rule}

theorem WellNamed.blank_not_mem_contextText (h : r.WellNamed) : ' ' ∉ r.contextText.toList := by
  unfold contextText
  cases hname : r.contextName with
  | none => decide
  | some name => exact (h.contextName name hname).not_mem rfl

theorem contextText_eq_iff {name : ContextName} (h : NameFamily.context.Matches name.text) :
    r.contextText = name.text ↔ r.contextName = some name := by
  unfold contextText
  cases r.contextName with
  | none =>
    -- a star is no name
    have hstar : "*" ≠ name.text := by
      intro heq
      rw [← heq] at h
      exact absurd h (by decide)
    simpa using hstar
  | some other =>
    obtain ⟨other⟩ := other
    obtain ⟨name⟩ := name
    simp

theorem WellNamed.contextText_inj (h : r.WellNamed) (h' : r'.WellNamed)
    (htext : r.contextText = r'.contextText) : r.contextName = r'.contextName := by
  refine Option.ext fun name => ⟨fun hname => ?_, fun hname => ?_⟩
  · have hmatches := h.contextName name hname
    rwa [← contextText_eq_iff hmatches, ← htext, contextText_eq_iff hmatches]
  · have hmatches := h'.contextName name hname
    rwa [← contextText_eq_iff hmatches, htext, contextText_eq_iff hmatches]

/-! ### Constraints -/

/-- The event types as a constraint lists them. -/
def typesText (types : List EventTypeName) : String :=
  ",".intercalate (types.map EventTypeName.text)

theorem separable_text {types : List EventTypeName}
    (h : ∀ type ∈ types, NameFamily.event.Matches type.text) {sep : Char}
    (hsep : sep.isAlphanum = false) : ∀ text ∈ types.map EventTypeName.text, Separable sep text :=
  List.forall_mem_map.2 fun type htype => ⟨(h type htype).ne_empty, (h type htype).not_mem hsep⟩

theorem typesText_inj {types types' : List EventTypeName}
    (h : ∀ type ∈ types, NameFamily.event.Matches type.text)
    (h' : ∀ type ∈ types', NameFamily.event.Matches type.text)
    (htext : typesText types = typesText types') : types = types' := by
  have htexts : types.map EventTypeName.text = types'.map EventTypeName.text :=
    intercalate_inj (rfl : ",".toList = [',']) (separable_text h rfl) (separable_text h' rfl) htext
  exact (List.map_injective_iff.2 fun ⟨_⟩ ⟨_⟩ => congrArg EventTypeName.mk) htexts

theorem constraints_eq (r : Rule) :
    r.constraints = (if r.isOnce then ["once"] else []) ++
      (r.position.map fun n => "position=" ++ toString n).toList ++
      (r.events.allowList.map fun types => "events=" ++ typesText types).toList := by
  unfold constraints isOnce position
  cases r.check.occurrence with
  | none => cases r.events.allowList <;> rfl
  | some occurrence => cases occurrence <;> cases r.events.allowList <;> rfl

theorem mem_constraints_iff {s : String} :
    s ∈ r.constraints ↔ (r.isOnce = true ∧ s = "once") ∨
      (∃ n, r.position = some n ∧ s = "position=" ++ toString n) ∨
      ∃ types, r.events.allowList = some types ∧ s = "events=" ++ typesText types := by
  simp only [constraints_eq, List.mem_append, List.mem_ite_nil_right, List.mem_singleton,
    Option.mem_toList, Option.map_eq_some_iff, or_assoc, eq_comm (b := s)]

theorem once_mem_constraints_iff : "once" ∈ r.constraints ↔ r.isOnce = true := by
  rw [mem_constraints_iff]
  simp [← String.toList_inj]

theorem position_mem_constraints_iff {n : Nat} :
    "position=" ++ toString n ∈ r.constraints ↔ r.position = some n := by
  rw [mem_constraints_iff]
  constructor
  · rintro (⟨-, h⟩ | ⟨m, hm, h⟩ | ⟨types, -, h⟩)
    · simp [← String.toList_inj] at h
    · have hreads : Function.LeftInverse (Nat.ofDigitChars 10 · 0) (Nat.toDigits 10) :=
        fun _ => Nat.ofDigitChars_ten_toDigits
      have hdigits : Nat.toDigits 10 n = Nat.toDigits 10 m := by
        rw [← Nat.toList_repr, ← Nat.toList_repr]
        exact String.toList_inj.2 ((String.append_right_inj _).1 h)
      rw [hm, hreads.injective hdigits]
    · simp [← String.toList_inj] at h
  · intro h
    exact .inr (.inl ⟨n, h, rfl⟩)

theorem WellNamed.events_mem_constraints_iff (h : r.WellNamed) {types : List EventTypeName}
    (htypes : ∀ type ∈ types, NameFamily.event.Matches type.text) :
    "events=" ++ typesText types ∈ r.constraints ↔ r.events.allowList = some types := by
  rw [mem_constraints_iff]
  constructor
  · rintro (⟨-, htext⟩ | ⟨n, -, htext⟩ | ⟨types', hallow, htext⟩)
    · simp [← String.toList_inj] at htext
    · simp [← String.toList_inj] at htext
    · rw [hallow, typesText_inj htypes (h.eventTypes types' hallow)
        ((String.append_right_inj _).1 htext)]
  · intro hallow
    exact .inr (.inr ⟨types, hallow, rfl⟩)

theorem WellNamed.separable_constraints (h : r.WellNamed) :
    ∀ s ∈ r.constraints, Separable ' ' s := by
  intro s hs
  rcases mem_constraints_iff.1 hs with ⟨-, rfl⟩ | ⟨n, -, rfl⟩ | ⟨types, hallow, rfl⟩
  · exact ⟨by decide, by decide⟩
  · have hdigits : ' ' ∉ (toString n).toList := by
      intro hmem
      rw [Nat.toString_eq_repr, Nat.toList_repr] at hmem
      exact absurd (Nat.isDigit_of_mem_toDigits (by decide) (by decide) hmem) (by decide)
    refine ⟨by simp [← String.toList_inj], ?_⟩
    simpa using hdigits
  · have htypes : ' ' ∉ (typesText types).toList := by
      rw [typesText, String.toList_intercalate]
      refine not_mem_intercalate (by decide) (List.forall_mem_map.2 fun text htext => ?_)
      exact (separable_text (h.eventTypes types hallow) rfl text htext).2
    refine ⟨by simp [← String.toList_inj], ?_⟩
    simpa using htypes

/-- The constraints determine the settings. -/
theorem WellNamed.constraints_inj (h : r.WellNamed) (h' : r'.WellNamed)
    (hconstraints : r.constraints = r'.constraints) :
    r.isOnce = r'.isOnce ∧ r.position = r'.position ∧
      r.events.allowList = r'.events.allowList := by
  refine ⟨Bool.eq_iff_iff.2 ?_, Option.ext fun n => ?_, Option.ext fun types => ?_⟩
  · rw [← once_mem_constraints_iff, hconstraints, once_mem_constraints_iff]
  · rw [← position_mem_constraints_iff, hconstraints, position_mem_constraints_iff]
  · refine ⟨fun hallow => ?_, fun hallow => ?_⟩
    · have htypes := h.eventTypes types hallow
      rwa [← h'.events_mem_constraints_iff htypes, ← hconstraints,
        h.events_mem_constraints_iff htypes]
    · have htypes := h'.eventTypes types hallow
      rwa [← h.events_mem_constraints_iff htypes, hconstraints,
        h'.events_mem_constraints_iff htypes]

end Rule

/-! ### Rows -/

namespace Table

theorem ruleRow_eq (r : Rule) :
    ruleRow r = ruleColumns r.kind.tag r.platform.tag r.contextText
      (" ".intercalate r.constraints) := by
  unfold ruleRow Rule.contextText
  cases r.contextName <;> rfl

/-- **Rules with good names that have the same row** are the same in all that is shown. -/
theorem ruleRow_inj {r r' : Rule} (h : r.WellNamed) (h' : r'.WellNamed)
    (hrow : ruleRow r = ruleRow r') :
    r.kind = r'.kind ∧ r.platform = r'.platform ∧ r.contextName = r'.contextName ∧
      r.isOnce = r'.isOnce ∧ r.position = r'.position ∧
      r.events.allowList = r'.events.allowList := by
  rw [ruleRow_eq, ruleRow_eq] at hrow
  obtain ⟨hkind, hplatform, hcontext, hjoined⟩ := ruleColumns_inj r.kind.blank_not_mem_tag
    r'.kind.blank_not_mem_tag r.platform.blank_not_mem_tag r'.platform.blank_not_mem_tag
    h.blank_not_mem_contextText h'.blank_not_mem_contextText hrow
  have hconstraints : r.constraints = r'.constraints :=
    intercalate_inj rfl h.separable_constraints h'.separable_constraints hjoined
  exact ⟨RuleKind.tag_injective hkind, Platform.tag_injective hplatform,
    h.contextText_inj h' hcontext, h.constraints_inj h' hconstraints⟩

/-- **A row shows all of a rule but its prefix.** Two rules that were built have the same row iff
they are of the same kind, for the same platform and context, with the same placement, and about the
same event types, where an empty list of types is not the same as none. -/
theorem ruleRow_unambiguous {entry entry' : RuleEntry} {platform platform' : Platform}
    {logPrefix logPrefix' : Option String} {r r' : Rule}
    (h : entry.build platform logPrefix = .ok r)
    (h' : entry'.build platform' logPrefix' = .ok r') :
    ruleRow r = ruleRow r' ↔
      r.kind = r'.kind ∧ r.platform = r'.platform ∧ r.contextName = r'.contextName ∧
        r.isOnce = r'.isOnce ∧ r.position = r'.position ∧
        r.events.allowList = r'.events.allowList := by
  constructor
  · exact ruleRow_inj (Rule.wellNamed_of_build h) (Rule.wellNamed_of_build h')
  · rintro ⟨hkind, hplatform, hcontext, honce, hposition, hallow⟩
    rw [ruleRow_eq, ruleRow_eq, Rule.contextText, Rule.contextText, Rule.constraints_eq,
      Rule.constraints_eq, hkind, hplatform, hcontext, honce, hposition, hallow]

/-- An entry whose context is wider than its column. -/
def wideEntry (eventTypes : Option (List String)) : RuleEntry :=
  ⟨.missing "ApplicationWithoutAnAddressContext", eventTypes, none, none⟩

theorem ruleRow_unambiguous_wide :
    ∃ r r', (wideEntry none).build .core none = .ok r ∧
      (wideEntry (some [])).build .core none = .ok r' ∧ ruleRow r ≠ ruleRow r' := by
  have hnone : (wideEntry none).build .core none =
      .ok (.missing .core ⟨"ApplicationWithoutAnAddressContext"⟩) := rfl
  have hempty : (wideEntry (some [])).build .core none = .ok
      ((Rule.missing .core ⟨"ApplicationWithoutAnAddressContext"⟩).withEvents (.oneOf [])) := rfl
  refine ⟨_, _, hnone, hempty, fun hrow => ?_⟩
  obtain ⟨-, -, -, -, -, hallow⟩ := (ruleRow_unambiguous hnone hempty).1 hrow
  cases hallow

end Table

end EventTaxonomy
