import EventTaxonomy.Proofs.Canonical
import EventTaxonomy.Proofs.DocumentSchema

/-!
# Rule documents survive being written and read

A rule document is written with an entry for each rule, each with the fields of its kind and without
those that are empty. `RuleDocument.parse_toJson_compact` proves that the document comes back, both
from the compact text and from the value with its keys in order.

What is written conforms to the schema and describes the document (`RuleDocument.conforms_written`,
`RuleDocument.describes_written`). The schema asks for the values under certain keys, and these are
the same when the keys are put in order; so it holds of the canonical form as well
(`RuleDocument.Conforms.canonical`, `RuleDocument.Describes.canonical`).
-/

namespace EventTaxonomy

open Json (Shape Layout)

/-! ### Kinds of values in canonical form -/

theorem Json.string?_canonical (v : Json) : v.canonical.string? = v.string? := by
  cases v <;> rfl

theorem Json.bool?_canonical (v : Json) : v.canonical.bool? = v.bool? := by
  cases v <;> rfl

theorem Json.word?_canonical (v : Json) : v.canonical.word? = v.word? := by
  cases v <;> rfl

theorem Json.isObject_canonical (v : Json) : v.canonical.isObject = v.isObject := by
  cases v <;> rfl

theorem Json.strings?_canonical (v : Json) : v.canonical.strings? = v.strings? := by
  cases v with
  | array items =>
    rw [canonical, canonicalItems_eq_map, strings?, strings?]
    induction items with
    | nil => rfl
    | cons item items ih => simp only [List.map_cons, List.mapM_cons, string?_canonical, ih]
  | _ => rfl

theorem Platform.ofJson?_canonical (v : Json) : ofJson? v.canonical = ofJson? v := by
  cases v <;> rfl

section Fields

variable {α : Type} {look : Json → Option α} {field : Option Json}

theorem Optionally.canonical (h : Optionally look field) (hlook : ∀ v, look v.canonical = look v) :
    Optionally look (field.map Json.canonical) := by
  intro w hw
  obtain ⟨v, hv, rfl⟩ := Option.map_eq_some_iff.1 hw
  rw [hlook]
  exact h v hv

theorem OrNull.canonical (h : OrNull look field) (hlook : ∀ v, look v.canonical = look v) :
    OrNull look (field.map Json.canonical) := by
  intro w hw
  obtain ⟨v, hv, rfl⟩ := Option.map_eq_some_iff.1 hw
  rw [hlook]
  rcases h v hv with rfl | hsome
  · exact .inl rfl
  · exact .inr hsome

theorem bind_map_canonical (hlook : ∀ v, look v.canonical = look v) (field : Option Json) :
    (field.map Json.canonical).bind look = field.bind look := by
  cases field with
  | none => rfl
  | some v => exact hlook v

end Fields

/-! ### The schema and the order of keys -/

namespace RuleEntry

theorem Conforms.canonical {kind : RuleKind} {fields : Fields} (h : Conforms kind fields)
    (hkeys : (fields.map Prod.fst).Nodup) :
    Conforms kind (Json.canonicalFields [] fields) := by
  constructor
  case keys => exact forall_key_canonicalFields (p := fun key => key = "kind" ∨ _) h.keys
  all_goals rw [lookup_canonicalFields hkeys]
  · rw [bind_map_canonical Json.string?_canonical]
    exact h.tag
  · rw [Option.isSome_map]
    exact h.named
  · exact h.contextName.canonical Json.string?_canonical
  · exact h.once.canonical Json.bool?_canonical
  · exact h.position.canonical Json.word?_canonical
  · exact h.eventTypes.canonical Json.strings?_canonical
  · exact h.platform.canonical Platform.ofJson?_canonical
  · exact h.logPrefix.canonical Json.string?_canonical

theorem described_canonical {kind : RuleKind} {fields : Fields}
    (hkeys : (fields.map Prod.fst).Nodup) :
    described kind (Json.canonicalFields [] fields) = described kind fields := by
  simp only [described, describedCheck, lookup_canonicalFields hkeys,
    bind_map_canonical Json.string?_canonical, bind_map_canonical Json.bool?_canonical,
    bind_map_canonical Json.word?_canonical, bind_map_canonical Json.strings?_canonical,
    bind_map_canonical Platform.ofJson?_canonical]

theorem Plain.canonical {item : Json} (h : Plain item) : Plain item.canonical := by
  cases item with
  | object fields =>
    refine ⟨nodup_canonicalFields fields, fun w hw => ?_⟩
    obtain ⟨v, hv, rfl⟩ := exists_of_lookup_canonicalFields h.1 hw
    rw [Json.isObject_canonical]
    exact h.2 v hv
  | _ => cases h

theorem Describes.canonical {item : Json} {entry : RuleEntry} (h : Describes item entry)
    (hplain : Plain item) : Describes item.canonical entry := by
  cases item with
  | object fields =>
    obtain ⟨kind, hconforms, rfl⟩ := h
    exact ⟨kind, hconforms.canonical hplain.1, (described_canonical hplain.1).symm⟩
  | _ => cases h

theorem Accepts.canonical {item : Json} (h : Accepts item) (hplain : Plain item) :
    Accepts item.canonical := by
  obtain ⟨entry, hentry⟩ := accepts_iff.1 h
  exact accepts_iff.2 ⟨entry, hentry.canonical hplain⟩

end RuleEntry

namespace RuleDocument

variable {fields : Fields}

theorem Plain.canonical (h : Plain fields) : Plain (Json.canonicalFields [] fields) where
  keys := nodup_canonicalFields fields
  platform w hw := by
    obtain ⟨v, hv, rfl⟩ := exists_of_lookup_canonicalFields h.keys hw
    rw [Json.isObject_canonical]
    exact h.platform v hv
  rules w hw := by
    obtain ⟨v, hv, rfl⟩ := exists_of_lookup_canonicalFields h.keys hw
    have hplain := h.rules v hv
    cases v with
    | array items =>
      rw [Json.canonical, Json.canonicalItems_eq_map]
      exact List.forall_mem_map.2 fun item hitem => (hplain item hitem).canonical
    | _ => trivial

theorem Conforms.canonical (h : Conforms fields) (hplain : Plain fields) :
    Conforms (Json.canonicalFields [] fields) where
  keys := forall_key_canonicalFields (p := fun key => key ∈ _) h.keys
  platform := by
    rw [lookup_canonicalFields hplain.keys]
    exact h.platform.canonical Platform.ofJson?_canonical
  logPrefix := by
    rw [lookup_canonicalFields hplain.keys]
    exact h.logPrefix.canonical Json.string?_canonical
  rules w hw := by
    obtain ⟨v, hv, rfl⟩ := exists_of_lookup_canonicalFields hplain.keys hw
    have haccepts := h.rules v hv
    cases v with
    | array items =>
      rw [Json.canonical, Json.canonicalItems_eq_map]
      exact List.forall_mem_map.2 fun item hitem =>
        (haccepts item hitem).canonical (hplain.rules _ hv item hitem)
    | _ => cases haccepts

theorem Describes.canonical {doc : RuleDocument} (h : Describes fields doc)
    (hplain : Plain fields) : Describes (Json.canonicalFields [] fields) doc where
  platform := by
    rw [lookup_canonicalFields hplain.keys, bind_map_canonical Platform.ofJson?_canonical]
    exact h.platform
  logPrefix := by
    rw [lookup_canonicalFields hplain.keys, bind_map_canonical Json.string?_canonical]
    exact h.logPrefix
  rules := by
    have hrules := h.rules
    rw [lookup_canonicalFields hplain.keys]
    cases hlookup : lookup "rules" fields with
    | none =>
      rw [hlookup] at hrules
      exact hrules
    | some v =>
      rw [hlookup] at hrules
      have hitems := hplain.rules v hlookup
      cases v with
      | array items =>
        have hboth := (List.forall₂_and_left items doc.rules).2 ⟨hitems, hrules⟩
        rw [Option.map_some, Json.canonical, Json.canonicalItems_eq_map]
        refine List.forall₂_map_left_iff.2 (hboth.imp ?_)
        rintro item entry ⟨hitem, hentry⟩
        exact hentry.canonical hitem
      | _ => exact hrules

end RuleDocument

/-! ### What is written -/

section Optional

variable {α : Type} {look : Json → Option α} {f : α → Json}

theorem lookup_optionalField (key name : String) (o : Option α) :
    lookup key (optionalField name f o) = if name = key then o.map f else none := by
  cases o <;> simp [optionalField, lookup]

theorem keys_optionalField (name : String) (o : Option α) :
    ((optionalField name f o).map Prod.fst).Sublist [name] := by
  cases o <;> simp [optionalField]

theorem orNull_map {o : Option α} (h : ∀ a ∈ o, look (f a) = some a) : OrNull look (o.map f) := by
  intro v hv
  obtain ⟨a, ha, rfl⟩ := Option.map_eq_some_iff.1 hv
  rw [h a ha]
  exact .inr rfl

theorem bind_map_of_look {o : Option α} (h : ∀ a ∈ o, look (f a) = some a) :
    (o.map f).bind look = o := by
  cases o with
  | none => rfl
  | some a => exact h a rfl

end Optional

theorem strings?_stringArray (texts : List String) :
    (stringArray texts).strings? = some texts := by
  rw [stringArray, Json.strings?]
  induction texts with
  | nil => rfl
  | cons text texts ih =>
    rw [List.map_cons, List.mapM_cons, ih]
    rfl

theorem bind_map_string (o : Option String) : (o.map Json.string).bind Json.string? = o :=
  bind_map_of_look fun _ _ => rfl

theorem Platform.ofJson?_toJson (p : Platform) : ofJson? p.toJson = some p := by
  cases p <;> decide

theorem word?_nat {n : Nat} (h : n ≤ Json.wordMax) : (Json.nat n).word? = some n :=
  if_pos h

/-- The index that an entry asks for. -/
def EntryCheck.position : EntryCheck → Option Nat
  | location _ _ position => position
  | _ => none

namespace RuleEntry

/-- The fields of an entry. -/
def written (entry : RuleEntry) : Fields :=
  ("kind", .string entry.check.kind.tag) :: (entry.check.fields ++
    optionalField "event_types" stringArray entry.eventTypes ++
    optionalField "platform" Platform.toJson entry.platform ++
    optionalField "log_prefix" Json.string entry.logPrefix)

section Written

variable (entry : RuleEntry)

theorem toJson_eq : entry.toJson = .object entry.written := rfl

theorem keys_written : (entry.written.map Prod.fst).Sublist ("kind" :: keys entry.check.kind) := by
  have hoptional : ∀ keys, (entry.check.fields.map Prod.fst).Sublist keys →
      (entry.written.map Prod.fst).Sublist
        ("kind" :: (keys ++ ["event_types"] ++ ["platform"] ++ ["log_prefix"])) := by
    intro keys hkeys
    simp only [written, List.map_cons, List.map_append]
    exact (((hkeys.append (keys_optionalField _ _)).append (keys_optionalField _ _)).append
      (keys_optionalField _ _)).cons_cons "kind"
  cases hcheck : entry.check with
  | missing name => exact hoptional ["context_name"] (by rw [hcheck]; exact .refl _)
  | unique => exact hoptional [] (by rw [hcheck]; exact .refl _)
  | location name once position =>
    refine hoptional ["context_name", "once", "position"] ?_
    rw [hcheck]
    exact ((keys_optionalField "position" position).cons_cons "once").cons_cons "context_name"

theorem nodup_written : (entry.written.map Prod.fst).Nodup := by
  refine List.Nodup.sublist entry.keys_written ?_
  cases entry.check.kind <;> decide

theorem lookup_check_written (key : String) (h : key ∈ ["context_name", "once", "position"]) :
    lookup key entry.written = lookup key entry.check.fields := by
  simp only [List.mem_cons, List.not_mem_nil, or_false] at h
  rcases h with rfl | rfl | rfl <;> simp [written, lookup, lookup_append, lookup_optionalField]

theorem lookup_eventTypes_written :
    lookup "event_types" entry.written = entry.eventTypes.map stringArray := by
  cases hcheck : entry.check <;>
    simp [written, hcheck, EntryCheck.fields, lookup, lookup_append, lookup_optionalField]

theorem lookup_platform_written :
    lookup "platform" entry.written = entry.platform.map Platform.toJson := by
  cases hcheck : entry.check <;>
    simp [written, hcheck, EntryCheck.fields, lookup, lookup_append, lookup_optionalField]

theorem lookup_logPrefix_written :
    lookup "log_prefix" entry.written = entry.logPrefix.map Json.string := by
  cases hcheck : entry.check <;>
    simp [written, hcheck, EntryCheck.fields, lookup, lookup_append, lookup_optionalField]

theorem plain_written : Plain (.object entry.written) := by
  refine ⟨entry.nodup_written, fun v hv => ?_⟩
  rw [lookup_platform_written] at hv
  obtain ⟨p, -, rfl⟩ := Option.map_eq_some_iff.1 hv
  rfl

variable {entry}

theorem lookup_position_fields :
    lookup "position" entry.check.fields = entry.check.position.map Json.nat := by
  cases entry.check <;>
    simp [EntryCheck.fields, EntryCheck.position, lookup, lookup_optionalField]

theorem conforms_written (h : ∀ n ∈ entry.check.position, n ≤ Json.wordMax) :
    Conforms entry.check.kind entry.written := by
  constructor
  case tag => rfl
  case keys =>
    intro field hfield
    exact List.mem_cons.1 (entry.keys_written.subset (List.mem_map.2 ⟨field, hfield, rfl⟩))
  case eventTypes =>
    rw [lookup_eventTypes_written]
    exact orNull_map fun texts _ => strings?_stringArray texts
  case platform =>
    rw [lookup_platform_written]
    exact orNull_map fun p _ => p.ofJson?_toJson
  case logPrefix =>
    rw [lookup_logPrefix_written]
    exact orNull_map fun _ _ => rfl
  case position =>
    rw [lookup_check_written _ _ (by simp), lookup_position_fields]
    exact orNull_map fun n hn => word?_nat (h n hn)
  all_goals
    rw [lookup_check_written _ _ (by simp)]
    cases entry.check <;>
      simp [EntryCheck.kind, EntryCheck.fields, lookup, Optionally, Json.string?, Json.bool?]

theorem described_written (h : ∀ n ∈ entry.check.position, n ≤ Json.wordMax) :
    described entry.check.kind entry.written = entry := by
  have hposition : (entry.check.position.map Json.nat).bind Json.word? = entry.check.position :=
    bind_map_of_look fun n hn => word?_nat (h n hn)
  have hcheck : describedCheck entry.check.kind entry.written = entry.check := by
    simp only [describedCheck, entry.lookup_check_written "context_name" (by simp),
      entry.lookup_check_written "once" (by simp),
      entry.lookup_check_written "position" (by simp), lookup_position_fields, hposition]
    cases entry.check <;> rfl
  rw [described, hcheck, lookup_eventTypes_written, lookup_platform_written,
    lookup_logPrefix_written, bind_map_of_look fun texts _ => strings?_stringArray texts,
    bind_map_of_look fun p _ => p.ofJson?_toJson, bind_map_string]

end Written

end RuleEntry

namespace RuleDocument

/-- The fields of a document. -/
def written (doc : RuleDocument) : Fields :=
  ("platform", doc.platform.toJson) ::
    (optionalField "log_prefix" Json.string doc.logPrefix ++
      [("rules", .array (doc.rules.map RuleEntry.toJson))])

section Written

variable (doc : RuleDocument)

theorem toJson_eq : doc.toJson = .object doc.written := rfl

theorem keys_written : (doc.written.map Prod.fst).Sublist keys := by
  simp only [written, List.map_cons, List.map_append]
  exact ((keys_optionalField _ _).append (.refl _)).cons_cons "platform"

theorem lookup_platform_written : lookup "platform" doc.written = some doc.platform.toJson := rfl

theorem lookup_logPrefix_written :
    lookup "log_prefix" doc.written = doc.logPrefix.map Json.string := by
  simp [written, lookup, lookup_append, lookup_optionalField]

theorem lookup_rules_written :
    lookup "rules" doc.written = some (.array (doc.rules.map RuleEntry.toJson)) := by
  simp [written, lookup, lookup_append, lookup_optionalField]

theorem plain_written : Plain doc.written where
  keys := List.Nodup.sublist doc.keys_written (by decide)
  platform v hv := by
    rw [lookup_platform_written] at hv
    cases hv
    rfl
  rules v hv := by
    rw [lookup_rules_written] at hv
    cases hv
    refine List.forall_mem_map.2 fun entry _ => ?_
    rw [RuleEntry.toJson_eq]
    exact entry.plain_written

variable {doc} (h : ∀ entry ∈ doc.rules, ∀ n ∈ entry.check.position, n ≤ Json.wordMax)

include h

theorem conforms_written : Conforms doc.written where
  keys field hfield := doc.keys_written.subset (List.mem_map.2 ⟨field, hfield, rfl⟩)
  platform v hv := by
    rw [lookup_platform_written] at hv
    cases hv
    rw [Platform.ofJson?_toJson]
    rfl
  logPrefix := by
    rw [lookup_logPrefix_written]
    exact orNull_map fun _ _ => rfl
  rules v hv := by
    rw [lookup_rules_written] at hv
    cases hv
    refine List.forall_mem_map.2 fun entry hentry => ?_
    rw [RuleEntry.toJson_eq]
    exact ⟨_, RuleEntry.conforms_written (h entry hentry)⟩

theorem describes_written : Describes doc.written doc where
  platform := by
    rw [lookup_platform_written, Option.bind_some, Platform.ofJson?_toJson]
    rfl
  logPrefix := by
    rw [lookup_logPrefix_written]
    exact (bind_map_string doc.logPrefix).symm
  rules := by
    rw [lookup_rules_written]
    refine List.forall₂_map_left_iff.2 (List.forall₂_same.2 fun entry hentry => ?_)
    rw [RuleEntry.toJson_eq]
    exact ⟨_, RuleEntry.conforms_written (h entry hentry),
      (RuleEntry.described_written (h entry hentry)).symm⟩

end Written

/-- A conforming object is taken for the document that it describes. -/
theorem ofObject_of_describes {fields : Fields} {doc : RuleDocument} (hplain : Plain fields)
    (hconforms : Conforms fields) (hdescribes : Describes fields doc) :
    layout.ofObject fields = .ok doc :=
  (ofObject_eq_ok_iff hplain (hconforms.small hplain).fits).2 ⟨hconforms, hdescribes⟩

/-- **A rule document survives being written and read**: its compact text reads back as the
document, and so does its value with the keys in order. -/
theorem parse_toJson_compact (doc : RuleDocument)
    (h : ∀ entry ∈ doc.rules, ∀ n ∈ entry.check.position, n ≤ Json.wordMax) :
    RuleDocument.parse doc.toJson.compact = .ok doc ∧
      shape.ofJson doc.toJson.canonical = .ok doc := by
  rw [toJson_eq]
  have hplain := doc.plain_written
  have hconforms := conforms_written h
  have hdescribes := describes_written h
  obtain ⟨hdepth, hwords⟩ := hconforms.small hplain
  have hroom : (Json.object doc.written).depth ≤ Json.maxDepth := Nat.le_trans hdepth (by decide)
  have htext := Json.parse_compact hwords hroom
  constructor
  · exact (hplain.agreesAt.parse htext).2 hroom (ofObject_of_describes hplain hconforms hdescribes)
  · exact ofObject_of_describes hplain.canonical (hconforms.canonical hplain)
      (hdescribes.canonical hplain)

/-- A document with an entry of each kind, the largest index, names that are no names, characters
that are written as escapes, and lists and prefixes that are empty without being absent. -/
def snapshot : RuleDocument where
  platform := .reactNative
  logPrefix := some "\"\n\x1f"
  rules :=
    [⟨.location "no name" true (some 18446744073709551615), some ["", "ClickEvent"], none, some ""⟩,
      ⟨.missing "", some [], some .core, none⟩, ⟨.unique, none, some .angular, some "é😀"⟩,
      ⟨.location "RootLocationContext" false none, none, none, none⟩]

theorem parse_toJson_snapshot :
    (∀ entry ∈ snapshot.rules, ∀ n ∈ entry.check.position, n ≤ Json.wordMax) ∧
      RuleDocument.parse snapshot.toJson.compact = .ok snapshot ∧
        shape.ofJson snapshot.toJson.canonical = .ok snapshot := by
  have hwords : ∀ entry ∈ snapshot.rules, ∀ n ∈ entry.check.position, n ≤ Json.wordMax := by
    decide
  exact ⟨hwords, parse_toJson_compact snapshot hwords⟩

end RuleDocument

end EventTaxonomy
