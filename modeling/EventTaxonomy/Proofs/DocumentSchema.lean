import EventTaxonomy.Proofs.DocumentReading
import EventTaxonomy.Proofs.FieldValues
import Mathlib.Tactic.MkIffOfInductiveProp

/-!
# The schema of rule documents

Which objects are rule documents, in terms of their keys and values alone (`RuleDocument.Conforms`),
and which document such an object describes (`RuleDocument.Describes`). Absent fields have their
defaults. `null` stands for an absent field where the field may be left empty, and nowhere else. A
key that the schema does not name is refused, so a misspelt option does not get lost.

`RuleDocument.exists_parse_iff_conforms` proves that the reader accepts exactly the texts that
conform, for texts in which no key comes twice. Such a text describes one document only, and that is
what the reader makes of it.
-/

namespace EventTaxonomy

open Json (Shape Layout)

/-! ### The schema -/

namespace RuleEntry

/-- The keys of an entry, apart from its kind. -/
def keys : RuleKind → List String
  | .missingGlobalContext => ["context_name", "event_types", "platform", "log_prefix"]
  | .uniqueGlobalContext => ["event_types", "platform", "log_prefix"]
  | .locationContext =>
    ["context_name", "once", "position", "event_types", "platform", "log_prefix"]

/-- What the fields of an object have to be for an entry of a kind. -/
@[mk_iff]
structure Conforms (kind : RuleKind) (fields : Fields) : Prop where
  tag : (lookup "kind" fields).bind Json.string? = some kind.tag
  keys : ∀ field ∈ fields, field.1 = "kind" ∨ field.1 ∈ keys kind
  named : kind ≠ .uniqueGlobalContext → (lookup "context_name" fields).isSome = true
  contextName : Optionally Json.string? (lookup "context_name" fields)
  once : Optionally Json.bool? (lookup "once" fields)
  position : OrNull Json.word? (lookup "position" fields)
  eventTypes : OrNull Json.strings? (lookup "event_types" fields)
  platform : OrNull Platform.ofJson? (lookup "platform" fields)
  logPrefix : OrNull Json.string? (lookup "log_prefix" fields)

instance (kind : RuleKind) (fields : Fields) : Decidable (Conforms kind fields) :=
  decidable_of_iff _ (conforms_iff kind fields).symm

/-- What the fields of an entry ask for. -/
def describedCheck (kind : RuleKind) (fields : Fields) : EntryCheck :=
  let name := ((lookup "context_name" fields).bind Json.string?).getD ""
  match kind with
  | .missingGlobalContext => .missing name
  | .uniqueGlobalContext => .unique
  | .locationContext =>
    .location name (((lookup "once" fields).bind Json.bool?).getD false)
      ((lookup "position" fields).bind Json.word?)

/-- The entry that fields describe. -/
def described (kind : RuleKind) (fields : Fields) : RuleEntry where
  check := describedCheck kind fields
  eventTypes := (lookup "event_types" fields).bind Json.strings?
  platform := (lookup "platform" fields).bind Platform.ofJson?
  logPrefix := (lookup "log_prefix" fields).bind Json.string?

/-- The value is an entry of some kind. -/
def Accepts : Json → Prop
  | .object fields => ∃ kind, Conforms kind fields
  | _ => False

/-- The value is an entry of some kind, and describes this one. -/
def Describes : Json → RuleEntry → Prop
  | .object fields, entry => ∃ kind, Conforms kind fields ∧ entry = described kind fields
  | _, _ => False

/-- The value is a list of entries. -/
def AcceptsAll : Json → Prop
  | .array items => ∀ item ∈ items, Accepts item
  | _ => False

/-- An object in which no key comes twice and the platform is no object. -/
def Plain : Json → Prop
  | .object fields =>
    (fields.map Prod.fst).Nodup ∧ ∀ v ∈ lookup "platform" fields, v.isObject = false
  | _ => False

instance : DecidablePred Accepts
  | .object fields => decidable_of_iff (∃ kind ∈ RuleKind.all, Conforms kind fields) <| by
      refine exists_congr fun kind => and_iff_right ?_
      cases kind <;> decide
  | .null | .bool _ | .number _ | .string _ | .array _ => isFalse id

instance : DecidablePred AcceptsAll
  | .array items => inferInstanceAs (Decidable (∀ item ∈ items, Accepts item))
  | .null | .bool _ | .number _ | .string _ | .object _ => isFalse id

instance : DecidablePred Plain
  | .object fields => inferInstanceAs (Decidable ((fields.map Prod.fst).Nodup ∧
      ∀ v ∈ lookup "platform" fields, v.isObject = false))
  | .null | .bool _ | .number _ | .string _ | .array _ => isFalse id

theorem accepts_iff {item : Json} : Accepts item ↔ ∃ entry, Describes item entry := by
  cases item with
  | object fields =>
    constructor
    · rintro ⟨kind, hconforms⟩
      exact ⟨_, kind, hconforms, rfl⟩
    · rintro ⟨_, kind, hconforms, -⟩
      exact ⟨kind, hconforms⟩
  | _ => simp [Accepts, Describes]

end RuleEntry

namespace RuleDocument

/-- The keys of a document. -/
def keys : List String := ["platform", "log_prefix", "rules"]

/-- What the fields of an object have to be for a rule document. -/
@[mk_iff]
structure Conforms (fields : Fields) : Prop where
  keys : ∀ field ∈ fields, field.1 ∈ RuleDocument.keys
  platform : Optionally Platform.ofJson? (lookup "platform" fields)
  logPrefix : OrNull Json.string? (lookup "log_prefix" fields)
  rules : ∀ v ∈ lookup "rules" fields, RuleEntry.AcceptsAll v

instance : DecidablePred Conforms := fun fields => decidable_of_iff _ (conforms_iff fields).symm

/-- The fields describe the document. -/
structure Describes (fields : Fields) (doc : RuleDocument) : Prop where
  platform : doc.platform = ((lookup "platform" fields).bind Platform.ofJson?).getD .core
  logPrefix : doc.logPrefix = (lookup "log_prefix" fields).bind Json.string?
  rules : List.Forall₂ RuleEntry.Describes ((lookup "rules" fields).elim [] Json.items) doc.rules

/-- The fields of an object in which no key comes twice, neither in the object nor in one of its
rules; the rules are objects, and no platform is one. -/
@[mk_iff]
structure Plain (fields : Fields) : Prop where
  keys : (fields.map Prod.fst).Nodup
  platform : ∀ v ∈ lookup "platform" fields, v.isObject = false
  rules : ∀ v ∈ lookup "rules" fields, Json.ForItems RuleEntry.Plain v

instance : DecidablePred Plain := fun fields => decidable_of_iff _ (plain_iff fields).symm

theorem Conforms.exists_describes {fields : Fields} (h : Conforms fields) :
    ∃ doc, Describes fields doc := by
  have hitems : ∀ item ∈ (lookup "rules" fields).elim [] Json.items,
      ∃ entry, RuleEntry.Describes item entry := by
    cases hlookup : lookup "rules" fields with
    | none => simp
    | some v =>
      have hv := h.rules v hlookup
      cases v with
      | array items => exact fun item hitem => RuleEntry.accepts_iff.1 (hv item hitem)
      | _ => cases hv
  obtain ⟨entries, hentries⟩ := exists_forall₂_iff.2 hitems
  exact ⟨⟨_, _, entries⟩, rfl, rfl, hentries⟩

end RuleDocument

/-! ### Entries -/

namespace RuleEntry

theorem names_layout (kind : RuleKind) : (layout kind).names = keys kind := by
  cases kind <;> rfl

theorem nodup_names_layout (kind : RuleKind) : (layout kind).names.Nodup := by
  cases kind <;> decide

theorem slots_subset (kind : RuleKind) : slots kind ⊆ slots .locationContext := by
  cases kind <;> simp [slots]

theorem take_eq_some_iff {kind : RuleKind} {d d' : Draft} {field : String × Json} :
    (layout kind).take d field = some d' ↔
      field.1 ∈ keys kind ∧
        fillAt "context_name" .string d.contextName field = some d'.contextName ∧
        fillAt "once" .flag d.once field = some d'.once ∧
        fillAt "position" Shape.size.nullable d.position field = some d'.position ∧
        fillAt "event_types" Shape.string.list.nullable d.eventTypes field = some d'.eventTypes ∧
        fillAt "platform" Platform.shape.nullable d.platform field = some d'.platform ∧
        fillAt "log_prefix" Shape.string.nullable d.logPrefix field = some d'.logPrefix := by
  obtain ⟨key, v⟩ := field
  by_cases hkey : key ∈ (layout kind).names
  · obtain ⟨slot, hslot, rfl⟩ := List.mem_map.1 hkey
    rw [Layout.take_slot (nodup_names_layout kind) hslot, ← names_layout, and_iff_right hkey]
    have hall := slots_subset kind hslot
    simp only [slots, List.mem_cons, List.not_mem_nil, or_false] at hall
    obtain ⟨name, once, position, eventTypes, platform, logPrefix⟩ := d
    obtain ⟨name', once', position', eventTypes', platform', logPrefix'⟩ := d'
    -- a key is for one place, and leaves the others as they are
    rcases hall with rfl | rfl | rfl | rfl | rfl | rfl
    · simp [Draft.contextNameSlot, fillAt_self_eq_some_iff, fillAt_of_ne, Shape.map, Json.map_eq_ok]
      grind
    · simp [Draft.onceSlot, fillAt_self_eq_some_iff, fillAt_of_ne, Shape.map, Json.map_eq_ok]
      grind
    · simp [Draft.positionSlot, fillAt_self_eq_some_iff, fillAt_of_ne, Shape.map, Json.map_eq_ok]
      grind
    · simp [Draft.eventTypesSlot, fillAt_self_eq_some_iff, fillAt_of_ne, Shape.map, Json.map_eq_ok]
      grind
    · simp [Draft.platformSlot, fillAt_self_eq_some_iff, fillAt_of_ne, Shape.map, Json.map_eq_ok]
      grind
    · simp [Draft.logPrefixSlot, fillAt_self_eq_some_iff, fillAt_of_ne, Shape.map, Json.map_eq_ok]
      grind
  · rw [Layout.take_of_not_mem rfl hkey]
    rw [names_layout] at hkey
    simp [hkey]

/-- The places of a draft. -/
def Draft.places :
    Draft ≃ Option String × Option Bool × Option (Option Nat) × Option (Option (List String)) ×
      Option (Option Platform) × Option (Option String) where
  toFun d := (d.contextName, d.once, d.position, d.eventTypes, d.platform, d.logPrefix)
  invFun s := ⟨s.1, s.2.1, s.2.2.1, s.2.2.2.1, s.2.2.2.2.1, s.2.2.2.2.2⟩
  left_inv _ := rfl
  right_inv _ := rfl

theorem foldlM_take_iff {kind : RuleKind} {d d' : Draft} {fields : Fields} :
    fields.foldlM (layout kind).take d = some d' ↔
      (∀ field ∈ fields, field.1 ∈ keys kind) ∧
        fields.foldlM (fillAt "context_name" .string) d.contextName = some d'.contextName ∧
        fields.foldlM (fillAt "once" .flag) d.once = some d'.once ∧
        fields.foldlM (fillAt "position" Shape.size.nullable) d.position = some d'.position ∧
        fields.foldlM (fillAt "event_types" Shape.string.list.nullable) d.eventTypes =
          some d'.eventTypes ∧
        fields.foldlM (fillAt "platform" Platform.shape.nullable) d.platform = some d'.platform ∧
        fields.foldlM (fillAt "log_prefix" Shape.string.nullable) d.logPrefix =
          some d'.logPrefix := by
  rw [foldlM_iff_of_places Draft.places
    (together (fillAt "context_name" .string) (together (fillAt "once" .flag)
      (together (fillAt "position" Shape.size.nullable)
        (together (fillAt "event_types" Shape.string.list.nullable)
          (together (fillAt "platform" Platform.shape.nullable)
            (fillAt "log_prefix" Shape.string.nullable))))))
    fun d d' field => by
      simp only [together_eq_some_iff]
      exact take_eq_some_iff]
  simp only [foldlM_together_iff]
  rfl

/-- The draft that the fields describe. -/
def drafted (fields : Fields) : Draft where
  contextName := (lookup "context_name" fields).bind Json.string?
  once := (lookup "once" fields).bind Json.bool?
  position := (lookup "position" fields).map Json.word?
  eventTypes := (lookup "event_types" fields).map Json.strings?
  platform := (lookup "platform" fields).map Platform.ofJson?
  logPrefix := (lookup "log_prefix" fields).map Json.string?

theorem finish_drafted_eq_ok_iff {kind : RuleKind} {fields : Fields}
    (hname : Optionally Json.string? (lookup "context_name" fields)) {entry : RuleEntry} :
    finish kind (drafted fields) = .ok entry ↔
      (kind ≠ .uniqueGlobalContext → (lookup "context_name" fields).isSome = true) ∧
        entry = described kind fields := by
  have hjoin : ∀ {β : Type} (look : Json → Option β) (field : Option Json),
      (field.map look).join = field.bind look := by
    intro β look field
    cases field <;> rfl
  cases hlookup : lookup "context_name" fields with
  | none =>
    cases kind <;>
      simp [finish, drafted, described, describedCheck, Draft.entry, hlookup, hjoin,
        eq_comm (a := entry)]
  | some v =>
    obtain ⟨s, hs⟩ := Option.isSome_iff_exists.1 (hname v hlookup)
    cases kind <;>
      simp [finish, drafted, described, describedCheck, Draft.entry, hlookup, hs, hjoin,
        eq_comm (a := entry)]

section Objects

variable {kind : RuleKind} {fields : Fields} {entry : RuleEntry}

/-- The fields of an entry after its kind, looked at one by one. -/
theorem ofObject_layout_eq_ok_iff (hkeys : (fields.map Prod.fst).Nodup)
    (hplatform : ∀ v ∈ lookup "platform" fields, v.isObject = false)
    (hposition : ∀ v ∈ lookup "position" fields, v.allNumbers Number.fits = true) :
    (layout kind).ofObject fields = .ok entry ↔
      (∀ field ∈ fields, field.1 ∈ keys kind) ∧
        Optionally Json.string? (lookup "context_name" fields) ∧
        Optionally Json.bool? (lookup "once" fields) ∧
        OrNull Json.word? (lookup "position" fields) ∧
        OrNull Json.strings? (lookup "event_types" fields) ∧
        OrNull Platform.ofJson? (lookup "platform" fields) ∧
        OrNull Json.string? (lookup "log_prefix" fields) ∧
        finish kind (drafted fields) = .ok entry := by
  have hname := foldlM_fillAt_eq_some_iff "context_name" hkeys fun v _ => Shape.toOption_string v
  have honce := foldlM_fillAt_eq_some_iff "once" hkeys fun v _ => Shape.toOption_flag v
  have hindex := foldlM_fillAt_nullable_eq_some_iff "position" hkeys
    (fun v hv => Shape.toOption_size (hposition v hv)) (by rfl)
  have htypes := foldlM_fillAt_nullable_eq_some_iff "event_types" hkeys
    (fun v _ => Shape.toOption_strings v) (by rfl)
  have htag := foldlM_fillAt_nullable_eq_some_iff "platform" hkeys
    (fun v hv => Shape.toOption_platform (hplatform v hv)) (by rfl)
  have hlog := foldlM_fillAt_nullable_eq_some_iff "log_prefix" hkeys
    (fun v _ => Shape.toOption_string v) (by rfl)
  constructor
  · intro h
    obtain ⟨d, hd, hfinish⟩ := Layout.ofObject_eq_ok_iff.1 h
    obtain ⟨hk, hn, ho, hp, he, hf, hl⟩ := foldlM_take_iff.1 hd
    obtain ⟨name, once, position, eventTypes, platform, logPrefix⟩ := d
    obtain ⟨hn', rfl⟩ := (hname name).1 hn
    obtain ⟨ho', rfl⟩ := (honce once).1 ho
    obtain ⟨hp', rfl⟩ := (hindex position).1 hp
    obtain ⟨he', rfl⟩ := (htypes eventTypes).1 he
    obtain ⟨hf', rfl⟩ := (htag platform).1 hf
    obtain ⟨hl', rfl⟩ := (hlog logPrefix).1 hl
    exact ⟨hk, hn', ho', hp', he', hf', hl', hfinish⟩
  · rintro ⟨hk, hn, ho, hp, he, hf, hl, hfinish⟩
    refine Layout.ofObject_eq_ok_iff.2 ⟨drafted fields, foldlM_take_iff.2 ⟨hk, ?_⟩, hfinish⟩
    exact ⟨(hname _).2 ⟨hn, rfl⟩, (honce _).2 ⟨ho, rfl⟩, (hindex _).2 ⟨hp, rfl⟩,
      (htypes _).2 ⟨he, rfl⟩, (htag _).2 ⟨hf, rfl⟩, (hlog _).2 ⟨hl, rfl⟩⟩

theorem ofJson_kind_eq_ok_iff {v : Json} :
    (Shape.choice kinds).ofJson v = .ok kind ↔ v.string? = some kind.tag := by
  cases v with
  | string s =>
    have hnamed : Shape.named kinds s = .ok kind ↔ s = kind.tag := by
      simp only [Shape.named, kinds, RuleKind.all, List.map, lookup]
      cases kind <;> split_ifs <;> simp_all [RuleKind.tag, eq_comm]
    simpa [Shape.choice, Shape.scalar, Json.string?] using hnamed
  | _ => simp [Shape.choice, Shape.scalar, Json.unwanted, Json.string?]

theorem foldlM_fillAt_kind_iff (hkeys : (fields.map Prod.fst).Nodup) :
    fields.foldlM (fillAt "kind" (Shape.choice kinds)) none = some (some kind) ↔
      (lookup "kind" fields).bind Json.string? = some kind.tag := by
  rw [foldlM_fillAt_eq_ofField hkeys]
  cases lookup "kind" fields with
  | none => simp [Shape.ofField]
  | some v =>
    rw [Option.bind_some, ← ofJson_kind_eq_ok_iff]
    cases hv : (Shape.choice kinds).ofJson v <;> simp [Shape.ofField, Except.toOption, hv]

theorem ofJson_object_eq_ok_iff :
    shape.ofJson (.object fields) = .ok entry ↔
      ∃ kind, fields.foldlM (fillAt "kind" (Shape.choice kinds)) none = some (some kind) ∧
        (layout kind).ofObject (fields.filter fun field => field.1 ≠ "kind") = .ok entry := by
  rw [shape, Shape.ofJson_andThen_eq_ok_iff]
  constructor
  · rintro ⟨⟨kind, payload⟩, htagged, hentry⟩
    obtain ⟨hkind, rfl⟩ := Json.ofObject_taggedLayout_eq_ok_iff.1 htagged
    exact ⟨kind, hkind, hentry⟩
  · rintro ⟨kind, hkind, hentry⟩
    exact ⟨(kind, _), Json.ofObject_taggedLayout_eq_ok_iff.2 ⟨hkind, rfl⟩, hentry⟩

/-- **The objects that are entries**, and what entry they are. -/
theorem ofJson_eq_ok_iff (hkeys : (fields.map Prod.fst).Nodup)
    (hplatform : ∀ v ∈ lookup "platform" fields, v.isObject = false)
    (hposition : ∀ v ∈ lookup "position" fields, v.allNumbers Number.fits = true) :
    shape.ofJson (.object fields) = .ok entry ↔
      ∃ kind, Conforms kind fields ∧ entry = described kind fields := by
  have hrest : ((fields.filter fun field => field.1 ≠ "kind").map Prod.fst).Nodup :=
    hkeys.sublist (List.filter_sublist.map Prod.fst)
  have hlookup : ∀ key, key ≠ "kind" →
      lookup key (fields.filter fun field => field.1 ≠ "kind") = lookup key fields :=
    fun key hkey => lookup_filter_ne hkey fields
  have hmem : ∀ kind, (∀ field ∈ fields.filter fun field => field.1 ≠ "kind",
      field.1 ∈ keys kind) ↔ ∀ field ∈ fields, field.1 = "kind" ∨ field.1 ∈ keys kind := by
    simp [or_iff_not_imp_left]
  rw [ofJson_object_eq_ok_iff]
  -- all that is needed of the other fields has been said
  generalize (fields.filter fun field => field.1 ≠ "kind") = rest at hrest hlookup hmem ⊢
  have hdrafted : drafted rest = drafted fields := by simp [drafted, hlookup]
  refine exists_congr fun kind => ?_
  rw [ofObject_layout_eq_ok_iff hrest (by rwa [hlookup _ (by decide)])
    (by rwa [hlookup _ (by decide)]), hmem, hdrafted]
  simp (disch := decide) only [foldlM_fillAt_kind_iff hkeys, hlookup]
  constructor
  · rintro ⟨htag, hk, hn, ho, hp, he, hf, hl, hfinish⟩
    obtain ⟨hnamed, rfl⟩ := (finish_drafted_eq_ok_iff hn).1 hfinish
    exact ⟨⟨htag, hk, hnamed, hn, ho, hp, he, hf, hl⟩, rfl⟩
  · rintro ⟨⟨htag, hk, hnamed, hn, ho, hp, he, hf, hl⟩, rfl⟩
    exact ⟨htag, hk, hn, ho, hp, he, hf, hl, (finish_drafted_eq_ok_iff hn).2 ⟨hnamed, rfl⟩⟩

end Objects

theorem ofJson_eq_ok_iff_describes {item : Json} (hplain : Plain item)
    (hfits : item.allNumbers Number.fits = true) (entry : RuleEntry) :
    shape.ofJson item = .ok entry ↔ Describes item entry := by
  cases item with
  | object fields =>
    have hposition : ∀ v ∈ lookup "position" fields, v.allNumbers Number.fits = true := fun v hv =>
      Json.allNumbersFields_iff.1 hfits _ (mem_of_lookup hv)
    exact ofJson_eq_ok_iff hplain.1 hplain.2 hposition
  | _ => cases hplain

end RuleEntry

/-! ### Documents -/

namespace RuleDocument

theorem names_layout : layout.names = keys := rfl

theorem take_eq_some_iff {d d' : Draft} {field : String × Json} :
    layout.take d field = some d' ↔
      field.1 ∈ keys ∧
        fillAt "platform" Platform.shape d.platform field = some d'.platform ∧
        fillAt "log_prefix" Shape.string.nullable d.logPrefix field = some d'.logPrefix ∧
        fillAt "rules" RuleEntry.shape.list d.rules field = some d'.rules := by
  obtain ⟨key, v⟩ := field
  by_cases hkey : key ∈ layout.names
  · obtain ⟨slot, hslot, rfl⟩ := List.mem_map.1 hkey
    rw [Layout.take_slot (by decide) hslot, ← names_layout, and_iff_right hkey]
    simp only [layout, List.mem_cons, List.not_mem_nil, or_false] at hslot
    obtain ⟨platform, logPrefix, rules⟩ := d
    obtain ⟨platform', logPrefix', rules'⟩ := d'
    rcases hslot with rfl | rfl | rfl
    · simp [fillAt_self_eq_some_iff, fillAt_of_ne, Shape.map, Json.map_eq_ok]
      grind
    · simp [fillAt_self_eq_some_iff, fillAt_of_ne, Shape.map, Json.map_eq_ok]
      grind
    · simp [fillAt_self_eq_some_iff, fillAt_of_ne, Shape.map, Json.map_eq_ok]
      grind
  · rw [Layout.take_of_not_mem rfl hkey]
    rw [names_layout] at hkey
    simp [hkey]

/-- The places of a draft. -/
def Draft.places :
    Draft ≃ Option Platform × Option (Option String) × Option (List RuleEntry) where
  toFun d := (d.platform, d.logPrefix, d.rules)
  invFun s := ⟨s.1, s.2.1, s.2.2⟩
  left_inv _ := rfl
  right_inv _ := rfl

theorem foldlM_take_iff {d d' : Draft} {fields : Fields} :
    fields.foldlM layout.take d = some d' ↔
      (∀ field ∈ fields, field.1 ∈ keys) ∧
        fields.foldlM (fillAt "platform" Platform.shape) d.platform = some d'.platform ∧
        fields.foldlM (fillAt "log_prefix" Shape.string.nullable) d.logPrefix =
          some d'.logPrefix ∧
        fields.foldlM (fillAt "rules" RuleEntry.shape.list) d.rules = some d'.rules := by
  rw [foldlM_iff_of_places Draft.places
    (together (fillAt "platform" Platform.shape) (together
      (fillAt "log_prefix" Shape.string.nullable) (fillAt "rules" RuleEntry.shape.list)))
    fun d d' field => by
      simp only [together_eq_some_iff]
      exact take_eq_some_iff]
  simp only [foldlM_together_iff]
  rfl

theorem foldlM_rules_iff {fields : Fields} (hplain : Plain fields)
    (hfits : (Json.object fields).allNumbers Number.fits = true) {entries : List RuleEntry} :
    (∃ rules, fields.foldlM (fillAt "rules" RuleEntry.shape.list) none = some rules ∧
        rules.getD [] = entries) ↔
      (∀ v ∈ lookup "rules" fields, RuleEntry.AcceptsAll v) ∧
        List.Forall₂ RuleEntry.Describes ((lookup "rules" fields).elim [] Json.items) entries := by
  rw [foldlM_fillAt_eq_ofField hplain.keys]
  cases hlookup : lookup "rules" fields with
  | none => simp [Shape.ofField, eq_comm]
  | some v =>
    have hv := Json.allNumbersFields_iff.1 hfits _ (mem_of_lookup hlookup)
    cases v with
    | array items =>
      have hitems : ∀ item ∈ items, ∀ entry,
          RuleEntry.shape.ofJson item = .ok entry ↔ RuleEntry.Describes item entry :=
        fun item hitem => RuleEntry.ofJson_eq_ok_iff_describes
          (hplain.rules _ hlookup item hitem) (Json.allNumbersItems_iff.1 hv item hitem)
      have hdecode : Shape.ofItems RuleEntry.shape.ofJson items = .ok entries ↔
          List.Forall₂ RuleEntry.Describes items entries := Shape.ofItems_eq_ok_iff hitems
      have haccepts : List.Forall₂ RuleEntry.Describes items entries →
          ∀ v ∈ some (Json.array items), RuleEntry.AcceptsAll v := by
        rintro hall _ ⟨⟩ item hitem
        exact RuleEntry.accepts_iff.2 (exists_forall₂_iff.1 ⟨entries, hall⟩ item hitem)
      rw [Option.elim_some, Json.items, and_iff_right_of_imp haccepts, ← hdecode]
      cases hof : Shape.ofItems RuleEntry.shape.ofJson items <;>
        simp [Shape.ofField, Shape.list, Except.toOption, hof]
    | _ => simp [Shape.ofField, Shape.list, Json.unwanted, Except.toOption, RuleEntry.AcceptsAll]

/-- **The objects that are rule documents**, and what document they are. -/
theorem ofObject_eq_ok_iff {fields : Fields} (hplain : Plain fields)
    (hfits : (Json.object fields).allNumbers Number.fits = true) {doc : RuleDocument} :
    layout.ofObject fields = .ok doc ↔ Conforms fields ∧ Describes fields doc := by
  have hplatform := foldlM_fillAt_eq_some_iff "platform" hplain.keys
    fun v hv => Shape.toOption_platform (hplain.platform v hv)
  have hlog := foldlM_fillAt_nullable_eq_some_iff "log_prefix" hplain.keys
    (fun v _ => Shape.toOption_string v) (by rfl)
  rw [Layout.ofObject_eq_ok_iff]
  constructor
  · rintro ⟨⟨platform, logPrefix, rules⟩, hd, hfinish⟩
    cases hfinish
    obtain ⟨hk, hp, hl, hr⟩ := foldlM_take_iff.1 hd
    obtain ⟨hp', rfl⟩ := (hplatform platform).1 hp
    obtain ⟨hl', rfl⟩ := (hlog logPrefix).1 hl
    obtain ⟨haccepts, hentries⟩ := (foldlM_rules_iff hplain hfits).1 ⟨rules, hr, rfl⟩
    refine ⟨⟨hk, hp', hl', haccepts⟩, ⟨rfl, ?_, hentries⟩⟩
    cases lookup "log_prefix" fields <;> rfl
  · rintro ⟨hconforms, hdescribes⟩
    obtain ⟨rules, hr, hrules⟩ :=
      (foldlM_rules_iff hplain hfits).2 ⟨hconforms.rules, hdescribes.rules⟩
    refine ⟨⟨_, _, rules⟩, foldlM_take_iff.2 ⟨hconforms.keys,
      (hplatform _).2 ⟨hconforms.platform, rfl⟩, (hlog _).2 ⟨hconforms.logPrefix, rfl⟩, hr⟩, ?_⟩
    obtain ⟨platform, logPrefix, entries⟩ := doc
    obtain ⟨rfl, rfl, -⟩ := hdescribes
    subst hrules
    cases lookup "log_prefix" fields <;> rfl

end RuleDocument

/-! ### Conforming documents are small -/

namespace RuleEntry

theorem keys_subset (kind : RuleKind) : keys kind ⊆ keys .locationContext := by
  cases kind <;> simp [keys]

theorem Conforms.small {kind : RuleKind} {fields : Fields} (h : Conforms kind fields)
    (hkeys : (fields.map Prod.fst).Nodup) : (Json.object fields).Small 2 := by
  refine .object fun ⟨key, v⟩ hfield => ?_
  have hv := lookup_of_mem hkeys hfield
  rcases h.keys _ hfield with rfl | hkey
  · have htag := h.tag
    rw [hv, Option.bind_some] at htag
    exact (Json.Small.of_string? (by rw [htag]; rfl)).mono (Nat.zero_le 1)
  · have hall := keys_subset kind hkey
    simp only [RuleEntry.keys, List.mem_cons, List.not_mem_nil, or_false] at hall
    rcases hall with rfl | rfl | rfl | rfl | rfl | rfl
    · exact (h.contextName.orNull.small .of_string? hv).mono (Nat.zero_le 1)
    · exact (h.once.orNull.small .of_bool? hv).mono (Nat.zero_le 1)
    · exact (h.position.small .of_word? hv).mono (Nat.zero_le 1)
    · exact h.eventTypes.small .of_strings? hv
    · exact (h.platform.small .of_platform? hv).mono (Nat.zero_le 1)
    · exact (h.logPrefix.small .of_string? hv).mono (Nat.zero_le 1)

theorem small_of_accepts {item : Json} (h : Accepts item) (hplain : Plain item) :
    item.Small 2 := by
  cases item with
  | object fields =>
    obtain ⟨kind, hconforms⟩ := h
    exact hconforms.small hplain.1
  | _ => cases h

end RuleEntry

namespace RuleDocument

variable {fields : Fields}

theorem Conforms.small (h : Conforms fields) (hplain : Plain fields) :
    (Json.object fields).Small 4 := by
  refine .object fun ⟨key, v⟩ hfield => ?_
  have hv := lookup_of_mem hplain.keys hfield
  have hkey : key ∈ RuleDocument.keys := h.keys _ hfield
  simp only [RuleDocument.keys, List.mem_cons, List.not_mem_nil, or_false] at hkey
  rcases hkey with rfl | rfl | rfl
  · exact (h.platform.orNull.small .of_platform? hv).mono (Nat.zero_le 3)
  · exact (h.logPrefix.small .of_string? hv).mono (Nat.zero_le 3)
  · have haccepts := h.rules v hv
    cases v with
    | array items =>
      refine .array fun item hitem => ?_
      exact RuleEntry.small_of_accepts (haccepts item hitem) (hplain.rules _ hv item hitem)
    | _ => cases haccepts

theorem Plain.agreesAt (hplain : Plain fields) : shape.AgreesAt (.object fields) := by
  refine agreesAt_shape fun ⟨key, v⟩ hfield hkey inner hinner => ?_
  cases hkey
  cases hinner
  exact Bool.noConfusion (hplain.platform _ (lookup_of_mem hplain.keys hfield))

/-- **A text is read as a rule document exactly if it conforms to the schema**, and the document is
then the one that it describes. -/
theorem exists_parse_iff_conforms {text : String} {room : Nat}
    (htext : (Json.valueReader room).parse text = .ok (.object fields)) (hplain : Plain fields) :
    ((∃ doc, RuleDocument.parse text = .ok doc) ↔ Conforms fields) ∧
      ∀ doc, RuleDocument.parse text = .ok doc → Describes fields doc := by
  have hagrees := hplain.agreesAt
  have hfits : (Json.object fields).allNumbers Number.fits = true := by
    obtain ⟨r, hrun, -⟩ := Json.Reader.parse_eq_ok_iff.1 htext
    exact Json.allNumbers_fits_of_run hrun
  have hread : ∀ doc, RuleDocument.parse text = .ok doc → Conforms fields ∧ Describes fields doc :=
    fun doc hdoc => (ofObject_eq_ok_iff hplain hfits).1 ((hagrees.parse htext).1 hdoc)
  refine ⟨⟨?_, fun hconforms => ?_⟩, fun doc hdoc => (hread doc hdoc).2⟩
  · rintro ⟨doc, hdoc⟩
    exact (hread doc hdoc).1
  · obtain ⟨doc, hdescribes⟩ := hconforms.exists_describes
    -- what conforms is flat, whatever room there was to read the text in
    have hroom : (Json.object fields).depth ≤ Json.maxDepth :=
      Nat.le_trans (hconforms.small hplain).1 (by decide)
    exact ⟨doc, (hagrees.parse htext).2 hroom
      ((ofObject_eq_ok_iff hplain hfits).2 ⟨hconforms, hdescribes⟩)⟩

/-- An entry whose kind stands behind other fields, with the largest index there is; `flag` is the
key of its truth value. -/
def sampleEntry (flag : String) : Fields :=
  [("position", .nat 18446744073709551615), ("context_name", .string "RootLocationContext"),
    (flag, .bool true), ("kind", .string "location_context"), ("platform", .null)]

/-- A document with one entry of each kind. -/
def sampleFields (flag : String) : Fields :=
  [("rules", .array
      [.object (sampleEntry flag),
        .object [("log_prefix", .null), ("kind", .string "unique_global_context"),
          ("event_types", .array [])],
        .object [("kind", .string "missing_global_context"), ("context_name", .string ""),
          ("platform", .string "react-native")]]),
    ("log_prefix", .null)]

theorem exists_parse_sampleFields :
    (∃ doc, RuleDocument.parse (Json.object (sampleFields "once")).compact = .ok doc ∧
        Describes (sampleFields "once") doc) ∧
      ∀ doc, RuleDocument.parse (Json.object (sampleFields "onse")).compact ≠ .ok doc := by
  have hread : ∀ flag ∈ ["once", "onse"], (Json.valueReader Json.maxDepth).parse
      (Json.object (sampleFields flag)).compact = .ok (.object (sampleFields flag)) ∧
        Plain (sampleFields flag) := by
    intro flag hflag
    simp only [List.mem_cons, List.not_mem_nil, or_false] at hflag
    rcases hflag with rfl | rfl
    · exact ⟨Json.parse_compact (by decide +kernel) (by decide +kernel), by decide +kernel⟩
    · exact ⟨Json.parse_compact (by decide +kernel) (by decide +kernel), by decide +kernel⟩
  obtain ⟨hgood, hgoodPlain⟩ := hread "once" (by simp)
  obtain ⟨hbad, hbadPlain⟩ := hread "onse" (by simp)
  have haccepted := exists_parse_iff_conforms hgood hgoodPlain
  have hrefused := (exists_parse_iff_conforms hbad hbadPlain).1
  obtain ⟨doc, hdoc⟩ := haccepted.1.2 (by decide +kernel)
  refine ⟨⟨doc, hdoc, haccepted.2 doc hdoc⟩, fun doc hdoc => ?_⟩
  exact absurd (hrefused.1 ⟨doc, hdoc⟩) (by decide +kernel)

end RuleDocument

end EventTaxonomy
