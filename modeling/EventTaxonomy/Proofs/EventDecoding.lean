import EventTaxonomy.Proofs.Canonical
import EventTaxonomy.Proofs.ShapeReading
import EventTaxonomy.Record
import Mathlib.Data.Option.NAry

/-!
# Events of texts and events of values

An event may be read straight off a text, or taken from the value of the text. The first way meets
the fields in the order of the text and refuses a second field with a named key; the second sees
them in key order, where the last field with a key has won. `Event.parse_agrees` proves that both
make the same event of a text, if no named key comes twice.

Reading is no obstacle: the shapes of events are faithful (`Event.faithful_shape`), so the event of
a text is that of the document as it was written. What is left compares a document with its
canonical form, one place of the record at a time (`foldlM_iff_of_places`). A named place is filled
by one key (`fillAt`), the place for other fields by the rest (`keepOthers`); neither minds the
order of the fields.
-/

namespace EventTaxonomy

open Json (Shape Layout Mismatch)

/-! ### Places of a record -/

section Together

variable {α β σ τ φ : Type} {f : α → φ → Option α} {g : β → φ → Option β}

/-- Two places of a record, both of which take every field. -/
def together (f : α → φ → Option α) (g : β → φ → Option β) (places : α × β) (field : φ) :
    Option (α × β) :=
  Option.map₂ Prod.mk (f places.1 field) (g places.2 field)

theorem together_eq_some_iff {places places' : α × β} {field : φ} :
    together f g places field = some places' ↔
      f places.1 field = some places'.1 ∧ g places.2 field = some places'.2 := by
  rw [together]
  cases f places.1 field <;> cases g places.2 field <;> simp [Prod.ext_iff]

theorem foldlM_together_iff {places places' : α × β} {fields : List φ} :
    fields.foldlM (together f g) places = some places' ↔
      fields.foldlM f places.1 = some places'.1 ∧ fields.foldlM g places.2 = some places'.2 := by
  induction fields generalizing places with
  | nil => simp [Prod.ext_iff]
  | cons field fields ih =>
    simp only [List.foldlM_cons, Option.bind_eq_bind, Option.bind_eq_some_iff,
      together_eq_some_iff, ih]
    constructor
    · rintro ⟨next, ⟨hf, hg⟩, hf', hg'⟩
      exact ⟨⟨_, hf, hf'⟩, _, hg, hg'⟩
    · rintro ⟨⟨a, hf, hf'⟩, b, hg, hg'⟩
      exact ⟨(a, b), ⟨hf, hg⟩, hf', hg'⟩

/-- A record takes fields as its places do, if it does so with one field that it allows. -/
theorem foldlM_iff_of_places {take : σ → φ → Option σ} {allowed : φ → Prop} (places : σ ≃ τ)
    (step : τ → φ → Option τ)
    (h : ∀ d d' field, take d field = some d' ↔
      allowed field ∧ step (places d) field = some (places d'))
    {d d' : σ} {fields : List φ} :
    fields.foldlM take d = some d' ↔
      (∀ field ∈ fields, allowed field) ∧ fields.foldlM step (places d) = some (places d') := by
  induction fields generalizing d with
  | nil => simp
  | cons field fields ih =>
    simp only [List.foldlM_cons, Option.bind_eq_bind, Option.bind_eq_some_iff, h, ih,
      List.forall_mem_cons]
    constructor
    · rintro ⟨next, ⟨hallowed, hstep⟩, hall, hsteps⟩
      exact ⟨⟨hallowed, hall⟩, places next, hstep, hsteps⟩
    · rintro ⟨⟨hallowed, hall⟩, next, hstep, hsteps⟩
      obtain ⟨next, rfl⟩ := places.surjective next
      exact ⟨next, ⟨hallowed, hstep⟩, hall, hsteps⟩

end Together

section Places

variable {β : Type}

/-- A place that is filled by the field with one key, and not twice. -/
def fillAt (name : String) (shape : Shape β) (old : Option β) (field : String × Json) :
    Option (Option β) :=
  if field.1 = name then
    match old with
    | some _ => none
    | none => (shape.ofJson field.2).toOption.map some
  else some old

/-- The place for the fields that have no place of their own. -/
def keepOthers (names : List String) (old : Fields) (field : String × Json) : Option Fields :=
  some (if field.1 ∈ names then old else insertKey field.1 field.2.canonical old)

theorem fillAt_of_ne {name key : String} (h : key ≠ name) (shape : Shape β) (old : Option β)
    (v : Json) : fillAt name shape old (key, v) = some old := if_neg h

theorem keepOthers_of_mem {names : List String} {key : String} (h : key ∈ names) (old : Fields)
    (v : Json) : keepOthers names old (key, v) = some old := congrArg some (if_pos h)

theorem keepOthers_of_not_mem {names : List String} {key : String} (h : key ∉ names) (old : Fields)
    (v : Json) : keepOthers names old (key, v) = some (insertKey key v.canonical old) :=
  congrArg some (if_neg h)

theorem fillAt_self_eq_some_iff {name : String} {shape : Shape β} {old new : Option β} {v : Json} :
    fillAt name shape old (name, v) = some new ↔
      old = none ∧ ∃ b, shape.ofJson v = .ok b ∧ new = some b := by
  unfold fillAt
  rw [if_pos rfl]
  cases old with
  | some b => simp
  | none => cases shape.ofJson v <;> simp [Except.toOption, eq_comm]

theorem orderless_fillAt (name : String) (shape : Shape β) :
    Orderless [name] (fillAt name shape) where
  comm old k l v w hne := by
    by_cases hk : k = name
    · have hl : l ≠ name := fun hl => hne (hk.trans hl.symm)
      cases h : fillAt name shape old (k, v) <;> simp [fillAt_of_ne hl, h]
    · cases h : fillAt name shape old (l, w) <;> simp [fillAt_of_ne hk, h]
  refuse {old new k v} hk h w := by
    obtain rfl := List.mem_singleton.1 hk
    obtain ⟨-, b, -, rfl⟩ := fillAt_self_eq_some_iff.1 h
    simp [fillAt]
  giveWay old k v w hk := by
    have hne : k ≠ name := fun h => hk (List.mem_singleton.2 h)
    simp [fillAt_of_ne hne]

theorem orderless_keepOthers (names : List String) : Orderless [] (keepOthers names) where
  comm old k l v w hne := by
    by_cases hk : k ∈ names
    · simp [keepOthers, hk]
    · by_cases hl : l ∈ names
      · simp [keepOthers, hl]
      · simp [keepOthers, hk, hl, insertKey_comm hne]
  refuse hk := by cases hk
  giveWay old k v w _ := by
    by_cases hk : k ∈ names
    · simp [keepOthers, hk]
    · simp [keepOthers, hk, insertKey_insertKey_self]

/-- The data of a value is that of its canonical form, if the value is `once`. -/
def OfCanonical (shape : Shape β) (once : Json → Prop) : Prop :=
  ∀ ⦃v : Json⦄ ⦃b : β⦄, shape.ofJson v = .ok b ↔ once v ∧ shape.ofJson v.canonical = .ok b

theorem takesCanonical_fillAt {shape : Shape β} {once : Json → Prop} (h : OfCanonical shape once)
    (name : String) :
    Json.TakesCanonical (fillAt name shape) fun key v => key = name → once v := by
  intro old new k v
  by_cases hk : k = name
  · subst hk
    simp only [fillAt_self_eq_some_iff, forall_const]
    constructor
    · rintro ⟨hold, b, hb, hnew⟩
      exact ⟨(h.1 hb).1, hold, b, (h.1 hb).2, hnew⟩
    · rintro ⟨honce, hold, b, hb, hnew⟩
      exact ⟨hold, b, h.2 ⟨honce, hb⟩, hnew⟩
  · simp [fillAt_of_ne hk, hk]

theorem takesCanonical_keepOthers (names : List String) :
    Json.TakesCanonical (keepOthers names) fun _ _ => True := by
  intro old new k v
  simp [keepOthers, Json.canonical_canonical]

theorem foldlM_fillAt_iff {shape : Shape β} {once : Json → Prop} (h : OfCanonical shape once)
    {name : String} {fields : Fields} {old new : Option β} :
    fields.foldlM (fillAt name shape) old = some new ↔
      (KeysOnce [name] fields ∧ ∀ field ∈ fields, field.1 = name → once field.2) ∧
        (Json.canonicalFields [] fields).foldlM (fillAt name shape) old = some new := by
  rw [(takesCanonical_fillAt h name).foldlM_canonicalFields_iff (orderless_fillAt name shape),
    and_assoc]

theorem foldlM_keepOthers_iff {names : List String} {fields old new : Fields} :
    fields.foldlM (keepOthers names) old = some new ↔
      (Json.canonicalFields [] fields).foldlM (keepOthers names) old = some new := by
  rw [(takesCanonical_keepOthers names).foldlM_canonicalFields_iff (orderless_keepOthers names)]
  simp [KeysOnce]

end Places

/-! ### Shapes and canonical forms -/

/-- The property holds of every item, if the value is a list. -/
def Json.ForItems (p : Json → Prop) : Json → Prop
  | .array items => ∀ item ∈ items, p item
  | _ => True

/-- The property holds of the fields, if the value is an object. -/
def Json.ForFields (p : Fields → Prop) : Json → Prop
  | .object fields => p fields
  | _ => True

instance Json.decidableForItems {p : Json → Prop} [DecidablePred p] :
    DecidablePred (Json.ForItems p)
  | .array items => inferInstanceAs (Decidable (∀ item ∈ items, p item))
  | .null | .bool _ | .number _ | .string _ | .object _ => isTrue trivial

instance Json.decidableForFields {p : Fields → Prop} [DecidablePred p] :
    DecidablePred (Json.ForFields p)
  | .object fields => inferInstanceAs (Decidable (p fields))
  | .null | .bool _ | .number _ | .string _ | .array _ => isTrue trivial

namespace OfCanonical

variable {α β : Type}

theorem string : OfCanonical Shape.string fun _ => True := by
  intro v b
  cases v <;> simp [Shape.string, Shape.scalar, Json.canonical, Json.unwanted]

theorem map {shape : Shape α} {once : Json → Prop} (h : OfCanonical shape once) (f : α → β) :
    OfCanonical (shape.map f) once := by
  intro v b
  simp only [Shape.map, Json.map_eq_ok]
  constructor
  · rintro ⟨a, ha, hb⟩
    exact ⟨(h.1 ha).1, a, (h.1 ha).2, hb⟩
  · rintro ⟨honce, a, ha, hb⟩
    exact ⟨a, h.2 ⟨honce, ha⟩, hb⟩

theorem nullable {shape : Shape α} {once : Json → Prop} (h : OfCanonical shape once)
    (hnull : once .null) : OfCanonical (Shape.nullable shape) once := by
  intro v b
  by_cases hv : v = .null
  · subst hv
    simp [Shape.nullable, Json.canonical, hnull]
  · have hcanonical : v.canonical ≠ .null := by
      cases v <;> simp_all [Json.canonical]
    rw [Shape.ofJson_nullable_of_ne hv, Shape.ofJson_nullable_of_ne hcanonical]
    have hsome : OfCanonical (shape.map some) once := h.map some
    exact @hsome v b

theorem ofItems_map_canonical_iff {shape : Shape α} {once : Json → Prop}
    (h : OfCanonical shape once) {items : List Json} {as : List α} :
    Shape.ofItems shape.ofJson items = .ok as ↔
      (∀ item ∈ items, once item) ∧
        Shape.ofItems shape.ofJson (items.map Json.canonical) = .ok as := by
  induction items generalizing as with
  | nil => simp
  | cons item items ih =>
    rw [List.map_cons, Shape.ofItems_cons_eq_ok_iff, Shape.ofItems_cons_eq_ok_iff,
      List.forall_mem_cons]
    constructor
    · rintro ⟨a, bs, ha, hbs, rfl⟩
      exact ⟨⟨(h.1 ha).1, (ih.1 hbs).1⟩, a, bs, (h.1 ha).2, (ih.1 hbs).2, rfl⟩
    · rintro ⟨⟨honce, hall⟩, a, bs, ha, hbs, rfl⟩
      exact ⟨a, bs, h.2 ⟨honce, ha⟩, ih.2 ⟨hall, hbs⟩, rfl⟩

theorem list {shape : Shape α} {once : Json → Prop} (h : OfCanonical shape once) :
    OfCanonical (Shape.list shape) (Json.ForItems once) := by
  intro v as
  cases v with
  | array items =>
    simp only [Shape.list, Json.ForItems, Json.canonical, Json.canonicalItems_eq_map]
    exact h.ofItems_map_canonical_iff
  | _ => simp [Shape.list, Json.ForItems, Json.canonical, Json.unwanted]

theorem record {σ : Type} {layout : Layout σ α} {once : Fields → Prop}
    (h : ∀ {fields : Fields} {a : α}, layout.ofObject fields = .ok a ↔
      once fields ∧ layout.ofObject (Json.canonicalFields [] fields) = .ok a) :
    OfCanonical (Shape.record layout) (Json.ForFields once) := by
  intro v a
  cases v with
  | object fields => simpa [Shape.record, Json.ForFields, Json.canonical] using h
  | _ => simp [Shape.record, Json.ForFields, Json.canonical, Json.unwanted]

end OfCanonical

/-! ### Contexts -/

namespace Context

/-- None of the named keys comes twice in the document of a context. -/
def NamedOnce : Json → Prop := Json.ForFields (KeysOnce layout.names)

instance : DecidablePred NamedOnce :=
  inferInstanceAs (DecidablePred (Json.ForFields (KeysOnce layout.names)))

theorem take_eq_some_iff {d d' : Draft} {field : String × Json} :
    layout.take d field = some d' ↔
      fillAt "_type" (Shape.string.map ContextName.mk) d.type field = some d'.type ∧
        fillAt "id" Shape.string d.id field = some d'.id ∧
          keepOthers layout.names d.fields field = some d'.fields := by
  obtain ⟨key, v⟩ := field
  obtain ⟨type, id, fields⟩ := d
  obtain ⟨type', id', fields'⟩ := d'
  -- a named key is for one place, and leaves the others as they are
  by_cases hkey : key ∈ layout.names
  · obtain ⟨slot, hslot, rfl⟩ := List.mem_map.1 hkey
    rw [Layout.take_slot (by decide) hslot, keepOthers_of_mem hkey]
    rcases List.mem_pair.1 hslot with rfl | rfl
    · simp [fillAt_self_eq_some_iff, fillAt_of_ne, Shape.map, Json.map_eq_ok]
      grind
    · simp [fillAt_self_eq_some_iff, fillAt_of_ne, Shape.map, Json.map_eq_ok]
      grind
  · obtain ⟨htype, hid⟩ : key ≠ "_type" ∧ key ≠ "id" := by simpa [Layout.names, layout] using hkey
    rw [Layout.take_other rfl hkey, fillAt_of_ne htype, fillAt_of_ne hid,
      keepOthers_of_not_mem hkey]
    simp [Shape.map, Shape.json, Except.map, Except.toOption]

/-- The places of a draft. -/
def Draft.places : Draft ≃ Option ContextName × Option String × Fields where
  toFun d := (d.type, d.id, d.fields)
  invFun s := ⟨s.1, s.2.1, s.2.2⟩
  left_inv _ := rfl
  right_inv _ := rfl

theorem foldlM_take_iff {d d' : Draft} {fields : Fields} :
    fields.foldlM layout.take d = some d' ↔
      fields.foldlM (fillAt "_type" (Shape.string.map ContextName.mk)) d.type = some d'.type ∧
        fields.foldlM (fillAt "id" Shape.string) d.id = some d'.id ∧
          fields.foldlM (keepOthers layout.names) d.fields = some d'.fields := by
  rw [foldlM_iff_of_places Draft.places
    (together (fillAt "_type" (Shape.string.map ContextName.mk))
      (together (fillAt "id" Shape.string) (keepOthers layout.names)))
    fun d d' field => by
      simp only [together_eq_some_iff, take_eq_some_iff]
      exact (and_iff_right trivial).symm]
  simp only [foldlM_together_iff]
  exact and_iff_right fun _ _ => trivial

theorem ofObject_canonicalFields_iff {fields : Fields} {c : Context} :
    layout.ofObject fields = .ok c ↔
      KeysOnce layout.names fields ∧
        layout.ofObject (Json.canonicalFields [] fields) = .ok c := by
  have hnames : KeysOnce layout.names fields ↔
      KeysOnce ["_type"] fields ∧ KeysOnce ["id"] fields := by
    simp [KeysOnce, Layout.names, layout]
  simp only [Layout.ofObject_eq_ok_iff, foldlM_take_iff]
  constructor
  · rintro ⟨d, ⟨ht, hi, hf⟩, hfinish⟩
    obtain ⟨⟨htype, -⟩, ht⟩ := (foldlM_fillAt_iff (OfCanonical.string.map ContextName.mk)).1 ht
    obtain ⟨⟨hid, -⟩, hi⟩ := (foldlM_fillAt_iff OfCanonical.string).1 hi
    exact ⟨hnames.2 ⟨htype, hid⟩, d, ⟨ht, hi, foldlM_keepOthers_iff.1 hf⟩, hfinish⟩
  · rintro ⟨hkeys, d, ⟨ht, hi, hf⟩, hfinish⟩
    obtain ⟨htype, hid⟩ := hnames.1 hkeys
    refine ⟨d, ⟨?_, ?_, foldlM_keepOthers_iff.2 hf⟩, hfinish⟩
    · exact (foldlM_fillAt_iff (OfCanonical.string.map _)).2 ⟨⟨htype, by simp⟩, ht⟩
    · exact (foldlM_fillAt_iff OfCanonical.string).2 ⟨⟨hid, by simp⟩, hi⟩

theorem ofCanonical_shape : OfCanonical shape NamedOnce :=
  OfCanonical.record ofObject_canonicalFields_iff

theorem faithful_shape : shape.Faithful := by
  refine Shape.Faithful.record (Layout.faithful_of_slots ?_ ?_)
  · simp only [layout, List.forall_mem_cons]
    exact ⟨fun _ => .map .string _, fun _ => .map .string _, by simp⟩
  · rintro keep ⟨⟩ state name
    exact .map .json _

end Context

/-! ### Events -/

namespace Event

/-- None of the named keys comes twice in the document of an event, nor in one of its contexts. -/
def NamedOnce : Json → Prop :=
  Json.ForFields fun fields =>
    KeysOnce layout.names fields ∧
      ∀ field ∈ fields, field.1 = "global_contexts" ∨ field.1 = "location_stack" →
        Json.ForItems Context.NamedOnce field.2

instance : DecidablePred NamedOnce :=
  inferInstanceAs (DecidablePred (Json.ForFields _))

theorem ofCanonical_contextList : OfCanonical contextList (Json.ForItems Context.NamedOnce) :=
  (Context.ofCanonical_shape.list.nullable trivial).map _

theorem take_eq_some_iff {d d' : Draft} {field : String × Json} :
    layout.take d field = some d' ↔
      fillAt "_type" (Shape.string.map EventTypeName.mk) d.type field = some d'.type ∧
        fillAt "global_contexts" contextList d.globalContexts field = some d'.globalContexts ∧
          fillAt "location_stack" contextList d.locationStack field = some d'.locationStack ∧
            keepOthers layout.names d.fields field = some d'.fields := by
  obtain ⟨key, v⟩ := field
  obtain ⟨type, globals, locations, fields⟩ := d
  obtain ⟨type', globals', locations', fields'⟩ := d'
  by_cases hkey : key ∈ layout.names
  · obtain ⟨slot, hslot, rfl⟩ := List.mem_map.1 hkey
    rw [Layout.take_slot (by decide) hslot, keepOthers_of_mem hkey]
    simp only [layout, List.mem_cons, List.not_mem_nil, or_false] at hslot
    rcases hslot with rfl | rfl | rfl
    · simp [fillAt_self_eq_some_iff, fillAt_of_ne, Shape.map, Json.map_eq_ok]
      grind
    · simp [fillAt_self_eq_some_iff, fillAt_of_ne, Shape.map, Json.map_eq_ok]
      grind
    · simp [fillAt_self_eq_some_iff, fillAt_of_ne, Shape.map, Json.map_eq_ok]
      grind
  · obtain ⟨htype, hglobals, hlocations⟩ :
        key ≠ "_type" ∧ key ≠ "global_contexts" ∧ key ≠ "location_stack" := by
      simpa [Layout.names, layout] using hkey
    rw [Layout.take_other rfl hkey, fillAt_of_ne htype, fillAt_of_ne hglobals,
      fillAt_of_ne hlocations, keepOthers_of_not_mem hkey]
    simp [Shape.map, Shape.json, Except.map, Except.toOption]

/-- The places of a draft. -/
def Draft.places :
    Draft ≃ Option EventTypeName × Option (List Context) × Option (List Context) × Fields where
  toFun d := (d.type, d.globalContexts, d.locationStack, d.fields)
  invFun s := ⟨s.1, s.2.1, s.2.2.1, s.2.2.2⟩
  left_inv _ := rfl
  right_inv _ := rfl

theorem foldlM_take_iff {d d' : Draft} {fields : Fields} :
    fields.foldlM layout.take d = some d' ↔
      fields.foldlM (fillAt "_type" (Shape.string.map EventTypeName.mk)) d.type = some d'.type ∧
        fields.foldlM (fillAt "global_contexts" contextList) d.globalContexts =
            some d'.globalContexts ∧
          fields.foldlM (fillAt "location_stack" contextList) d.locationStack =
              some d'.locationStack ∧
            fields.foldlM (keepOthers layout.names) d.fields = some d'.fields := by
  rw [foldlM_iff_of_places Draft.places
    (together (fillAt "_type" (Shape.string.map EventTypeName.mk))
      (together (fillAt "global_contexts" contextList)
        (together (fillAt "location_stack" contextList) (keepOthers layout.names))))
    fun d d' field => by
      simp only [together_eq_some_iff, take_eq_some_iff]
      exact (and_iff_right trivial).symm]
  simp only [foldlM_together_iff]
  exact and_iff_right fun _ _ => trivial

theorem ofObject_canonicalFields_iff {fields : Fields} {e : Event} :
    layout.ofObject fields = .ok e ↔
      (KeysOnce layout.names fields ∧
        ∀ field ∈ fields, field.1 = "global_contexts" ∨ field.1 = "location_stack" →
          Json.ForItems Context.NamedOnce field.2) ∧
        layout.ofObject (Json.canonicalFields [] fields) = .ok e := by
  have hnames : KeysOnce layout.names fields ↔ KeysOnce ["_type"] fields ∧
      KeysOnce ["global_contexts"] fields ∧ KeysOnce ["location_stack"] fields := by
    simp [KeysOnce, Layout.names, layout]
  simp only [Layout.ofObject_eq_ok_iff, foldlM_take_iff]
  constructor
  · rintro ⟨d, ⟨ht, hg, hl, hf⟩, hfinish⟩
    obtain ⟨⟨htype, -⟩, ht⟩ := (foldlM_fillAt_iff (OfCanonical.string.map EventTypeName.mk)).1 ht
    obtain ⟨⟨hglobals, hgs⟩, hg⟩ := (foldlM_fillAt_iff ofCanonical_contextList).1 hg
    obtain ⟨⟨hlocations, hls⟩, hl⟩ := (foldlM_fillAt_iff ofCanonical_contextList).1 hl
    refine ⟨⟨hnames.2 ⟨htype, hglobals, hlocations⟩, fun field hfield hkey => ?_⟩, d,
      ⟨ht, hg, hl, foldlM_keepOthers_iff.1 hf⟩, hfinish⟩
    exact hkey.elim (hgs field hfield) (hls field hfield)
  · rintro ⟨⟨hkeys, hcontexts⟩, d, ⟨ht, hg, hl, hf⟩, hfinish⟩
    obtain ⟨htype, hglobals, hlocations⟩ := hnames.1 hkeys
    refine ⟨d, ⟨?_, ?_, ?_, foldlM_keepOthers_iff.2 hf⟩, hfinish⟩
    · exact (foldlM_fillAt_iff (OfCanonical.string.map _)).2 ⟨⟨htype, by simp⟩, ht⟩
    · exact (foldlM_fillAt_iff ofCanonical_contextList).2
        ⟨⟨hglobals, fun field hfield hkey => hcontexts field hfield (.inl hkey)⟩, hg⟩
    · exact (foldlM_fillAt_iff ofCanonical_contextList).2
        ⟨⟨hlocations, fun field hfield hkey => hcontexts field hfield (.inr hkey)⟩, hl⟩

theorem ofCanonical_shape : OfCanonical shape NamedOnce :=
  OfCanonical.record ofObject_canonicalFields_iff

theorem faithful_contextList : contextList.Faithful :=
  .map (.nullable (.list Context.faithful_shape)) _

theorem faithful_shape : shape.Faithful := by
  refine Shape.Faithful.record (Layout.faithful_of_slots ?_ ?_)
  · simp only [layout, List.forall_mem_cons]
    exact ⟨fun _ => .map .string _, fun _ => .map faithful_contextList _,
      fun _ => .map faithful_contextList _, by simp⟩
  · rintro keep ⟨⟩ state name
    exact .map .json _

/-- The event of a text is that of the document in canonical form, if no named key comes twice. -/
theorem parse_eq_ok_iff {text : String} {e : Event} :
    shape.parse text = .ok e ↔
      ∃ written, (Json.valueReader Json.maxDepth).parse text = .ok written ∧
        NamedOnce written ∧ shape.ofJson written.canonical = .ok e := by
  rw [faithful_shape.parse_eq_ok_iff]
  exact exists_congr fun written => and_congr_right fun _ => @ofCanonical_shape written e

/-- **An event read straight off a text is the event of the value of the text**, and the other way
around if the text repeats no named key of the event or of one of its contexts. -/
theorem parse_agrees (text : String) (index : Nat) (e : Event) :
    (shape.parse text = .ok e →
        ∃ v, Json.parse text = .ok v ∧ Record.toEvent index v = .ok e) ∧
      ∀ v written, Json.parse text = .ok v → Record.toEvent index v = .ok e →
        (Json.valueReader Json.maxDepth).parse text = .ok written → NamedOnce written →
          shape.parse text = .ok e := by
  simp only [Record.toEvent, Json.mapError_eq_ok, parse_eq_ok_iff]
  constructor
  · rintro ⟨written, hwritten, -, he⟩
    exact ⟨written.canonical, Json.map_eq_ok.2 ⟨written, hwritten, rfl⟩, he⟩
  · intro v written hv he hwritten honce
    obtain ⟨written', hwritten', rfl⟩ := Json.map_eq_ok.1 hv
    -- `v` has been read off the same text, as the canonical form of what is written there
    obtain rfl : written = written' := Except.ok.inj (hwritten.symm.trans hwritten')
    exact ⟨written, hwritten, honce, he⟩

/-- A text of an event: a list is `null`, a key without a place comes twice, and the type is not
the first field. -/
def sampleText : String :=
  "\x7b\"x\":1,\"_type\":\"ClickEvent\",\"location_stack\":null,\"x\":\x7b\"b\":2,\"a\":3\x7d," ++
    "\"global_contexts\":[\x7b\"id\":\"home\",\"_type\":\"PathContext\",\"n\":0\x7d]\x7d"

theorem parse_sampleText_agrees :
    ∃ v e written, Json.parse sampleText = .ok v ∧ Record.toEvent 7 v = .ok e ∧
      (Json.valueReader Json.maxDepth).parse sampleText = .ok written ∧ NamedOnce written ∧
        shape.parse sampleText = .ok e := by
  have hsample : ((Json.valueReader Json.maxDepth).parse sampleText).toOption.any
      (fun v => decide (NamedOnce v) && (Record.toEvent 7 v.canonical).isOk) = true := by
    decide +kernel
  cases hwritten : (Json.valueReader Json.maxDepth).parse sampleText with
  | error e => simp [hwritten, Except.toOption] at hsample
  | ok written =>
    obtain ⟨honce, hok⟩ : NamedOnce written ∧ (Record.toEvent 7 written.canonical).isOk = true := by
      simpa [hwritten, Except.toOption] using hsample
    cases he : Record.toEvent 7 written.canonical with
    | error m => rw [he] at hok; cases hok
    | ok e =>
      have hv : Json.parse sampleText = .ok written.canonical :=
        Json.map_eq_ok.2 ⟨written, hwritten, rfl⟩
      exact ⟨_, e, written, hv, he, rfl, honce,
        (parse_agrees sampleText 7 e).2 _ written hv he hwritten honce⟩

end Event

end EventTaxonomy
