import EventTaxonomy.Proofs.EventDecoding
import EventTaxonomy.Proofs.Printing
import Mathlib.Data.List.Forall2

/-!
# Events survive being written and read

An event is written as an object: its named fields first, then the others. `Event.parse_compact_eq`
proves that nothing of it is lost: the text reads back as the event, straight off the text and
through its value.

Two things have to hold of the other fields. They must not use a key that has a place of its own
(`Event.NamesFree`), for a reader would take them for that place. And they must be in key order with
all their values in canonical form (`Event.InOrder`). The second is no restriction on events that
come from a document: reading puts fields in order (`Event.inOrder_of_ofJson`), and so does setting
a field of a context (`Context.inOrder_withField`).
-/

namespace EventTaxonomy

open Json (Shape Layout)

/-! ### Fields in order -/

/-- Fields as an object keeps them: each key once, in ascending order, and every value in canonical
form. -/
def FieldsInOrder (fields : Fields) : Prop :=
  KeysAscend fields ∧ ∀ field ∈ fields, field.2.canonical = field.2

theorem fieldsInOrder_nil : FieldsInOrder [] :=
  ⟨List.Pairwise.nil, by simp⟩

theorem FieldsInOrder.insertKey {fields : Fields} (h : FieldsInOrder fields) (key : String)
    (v : Json) : FieldsInOrder (insertKey key v.canonical fields) := by
  refine ⟨keysAscend_insertKey h.1, fun field hfield => ?_⟩
  rcases mem_insertKey hfield with rfl | hmem
  · exact Json.canonical_canonical v
  · exact h.2 field hmem

theorem fieldsInOrder_canonicalFields (fields : Fields) :
    FieldsInOrder (Json.canonicalFields [] fields) := by
  refine ⟨?_, Json.canonical_of_mem_canonicalFields fields [] (by simp)⟩
  rw [Json.canonicalFields_eq_insertAll]
  exact keysAscend_insertAll List.Pairwise.nil _

theorem FieldsInOrder.canonicalFields_eq {fields : Fields} (h : FieldsInOrder fields) :
    Json.canonicalFields [] fields = fields :=
  Json.canonicalFields_eq_self h.1 h.2

/-! ### Places of a record that is read back -/

section Places

variable {β : Type}

theorem foldlM_fillAt_of_ne {name : String} {shape : Shape β} {fields : Fields}
    (h : ∀ field ∈ fields, field.1 ≠ name) (old : Option β) :
    fields.foldlM (fillAt name shape) old = some old := by
  induction fields with
  | nil => rfl
  | cons field fields ih =>
    obtain ⟨hfield, hrest⟩ := List.forall_mem_cons.1 h
    rw [List.foldlM_cons, fillAt_of_ne hfield]
    exact ih hrest

/-- The place of a key is filled wherever its field stands, if no other field has the key. -/
theorem foldlM_fillAt_mid {name : String} {shape : Shape β} (before : Fields) {after : Fields}
    {v : Json} {b : β} (hbefore : ∀ field ∈ before, field.1 ≠ name)
    (hafter : ∀ field ∈ after, field.1 ≠ name) (hb : shape.ofJson v = .ok b) :
    (before ++ (name, v) :: after).foldlM (fillAt name shape) none = some (some b) := by
  have hfill : fillAt name shape none (name, v) = some (some b) :=
    fillAt_self_eq_some_iff.2 ⟨rfl, b, hb, rfl⟩
  calc (before ++ (name, v) :: after).foldlM (fillAt name shape) none
      = ((name, v) :: after).foldlM (fillAt name shape) none := by
        rw [List.foldlM_append, foldlM_fillAt_of_ne hbefore]
        rfl
    _ = after.foldlM (fillAt name shape) (some b) := by
        rw [List.foldlM_cons, hfill]
        rfl
    _ = some (some b) := foldlM_fillAt_of_ne hafter _

/-- The fields without a place of their own are entered one after the other. -/
theorem foldlM_keepOthers_eq (names : List String) (fields old : Fields) :
    fields.foldlM (keepOthers names) old =
      some (Json.canonicalFields old (fields.filter fun field => field.1 ∉ names)) := by
  induction fields generalizing old with
  | nil => rfl
  | cons field fields ih =>
    obtain ⟨key, v⟩ := field
    by_cases hkey : key ∈ names
    · rw [List.foldlM_cons, keepOthers_of_mem hkey, List.filter_cons_of_neg (by simpa using hkey)]
      exact ih old
    · rw [List.foldlM_cons, keepOthers_of_not_mem hkey,
        List.filter_cons_of_pos (by simpa using hkey)]
      exact ih _

/-- Fields without a place of their own are kept in order, behind fields that have one. -/
theorem foldlM_keepOthers_append {names : List String} (named : Fields) {others : Fields}
    (hnamed : ∀ field ∈ named, field.1 ∈ names) (hothers : ∀ field ∈ others, field.1 ∉ names)
    (old : Fields) :
    (named ++ others).foldlM (keepOthers names) old = some (Json.canonicalFields old others) := by
  have hnone : named.filter (fun field => field.1 ∉ names) = [] :=
    List.filter_eq_nil_iff.2 fun field hfield => by simpa using hnamed field hfield
  have hall : others.filter (fun field => field.1 ∉ names) = others :=
    List.filter_eq_self.2 fun field hfield => by simpa using hothers field hfield
  rw [foldlM_keepOthers_eq, List.filter_append, hnone, hall, List.nil_append]

theorem fieldsInOrder_of_keepOthers {names : List String} {fields new : Fields}
    (h : fields.foldlM (keepOthers names) [] = some new) : FieldsInOrder new := by
  rw [foldlM_keepOthers_eq] at h
  cases h
  exact fieldsInOrder_canonicalFields _

/-- What a place holds in the end was there from the start, or comes from a field. -/
theorem eq_or_ofJson_of_fillAt {name : String} {shape : Shape β} {fields : Fields}
    {old new : Option β} (h : fields.foldlM (fillAt name shape) old = some new) :
    new = old ∨ ∃ v b, (name, v) ∈ fields ∧ shape.ofJson v = .ok b ∧ new = some b := by
  induction fields generalizing old with
  | nil =>
    cases h
    exact .inl rfl
  | cons field fields ih =>
    obtain ⟨key, v⟩ := field
    obtain ⟨mid, hmid, hrest⟩ := Option.bind_eq_some_iff.1 h
    rcases ih hrest with rfl | ⟨w, b, hmem, hread⟩
    · by_cases hkey : key = name
      · subst hkey
        obtain ⟨-, b, hb, rfl⟩ := fillAt_self_eq_some_iff.1 hmid
        exact .inr ⟨v, b, List.mem_cons_self, hb, rfl⟩
      · rw [fillAt_of_ne hkey] at hmid
        cases hmid
        exact .inl rfl
    · exact .inr ⟨w, b, List.mem_cons_of_mem _ hmem, hread⟩

end Places

/-- Items are taken one by one. -/
theorem Json.Shape.ofItems_eq_ok_iff {α : Type} {decode : Json → Except Json.Mismatch α}
    {r : Json → α → Prop} {items : List Json}
    (h : ∀ item ∈ items, ∀ a, decode item = .ok a ↔ r item a) {as : List α} :
    ofItems decode items = .ok as ↔ List.Forall₂ r items as := by
  induction items generalizing as with
  | nil => simp [ofItems, eq_comm]
  | cons item items ih =>
    obtain ⟨hitem, hrest⟩ := List.forall_mem_cons.1 h
    simp only [ofItems_cons_eq_ok_iff, List.forall₂_cons_left_iff, hitem, ih hrest]

theorem Json.Shape.ofItems_forall {α : Type} {decode : Json → Except Json.Mismatch α}
    {p : α → Prop} {vs : List Json} (h : ∀ v ∈ vs, ∀ a, decode v = .ok a → p a) {as : List α}
    (has : ofItems decode vs = .ok as) : ∀ a ∈ as, p a := by
  induction vs generalizing as with
  | nil =>
    cases has
    simp
  | cons v vs ih =>
    obtain ⟨hv, hrest⟩ := List.forall_mem_cons.1 h
    obtain ⟨a, bs, ha, hbs, rfl⟩ := ofItems_cons_eq_ok_iff.1 has
    exact List.forall_mem_cons.2 ⟨hv a ha, ih hrest hbs⟩

/-! ### Contexts -/

namespace Context

/-- The other fields of the context are in order. -/
def InOrder (c : Context) : Prop := FieldsInOrder c.fields

/-- No other field of the context has a key with a place of its own. -/
def NamesFree (c : Context) : Prop := ∀ field ∈ c.fields, field.1 ∉ ["_type", "id"]

instance : DecidablePred NamesFree := fun c =>
  inferInstanceAs (Decidable (∀ field ∈ c.fields, field.1 ∉ ["_type", "id"]))

theorem inOrder_new (type : ContextName) (id : String) : (new type id).InOrder :=
  fieldsInOrder_nil

theorem inOrder_withField {c : Context} (h : c.InOrder) (key : String) (value : Json) :
    (c.withField key value).InOrder :=
  h.insertKey key value

theorem finish_eq_ok_iff {d : Draft} {c : Context} :
    layout.finish d = .ok c ↔ d = ⟨some c.type, some c.id, c.fields⟩ := by
  obtain ⟨type, id, fields⟩ := d
  cases type with
  | none => simp [layout]
  | some type =>
    cases id with
    | none => simp [layout]
    | some id =>
      obtain ⟨type', id', fields'⟩ := c
      simp [layout]

theorem inOrder_of_ofJson {v : Json} {c : Context} (h : shape.ofJson v = .ok c) : c.InOrder := by
  cases v with
  | object fields =>
    obtain ⟨d, hd, hfinish⟩ := Layout.ofObject_eq_ok_iff.1 h
    obtain rfl := finish_eq_ok_iff.1 hfinish
    exact fieldsInOrder_of_keepOthers (foldlM_take_iff.1 hd).2.2
  | _ => cases h

theorem ofJson_toJson {c : Context} (horder : c.InOrder) (hfree : c.NamesFree) :
    shape.ofJson c.toJson = .ok c := by
  have hne : ∀ name ∈ ["_type", "id"], ∀ field ∈ c.fields, field.1 ≠ name :=
    fun name hname field hfield heq => hfree field hfield (heq ▸ hname)
  refine Layout.ofObject_eq_ok_iff.2
    ⟨⟨some c.type, some c.id, c.fields⟩, foldlM_take_iff.2 ⟨?_, ?_, ?_⟩, rfl⟩
  -- the lists hold what stands before the field of the place
  · refine foldlM_fillAt_mid [] (by simp) ?_ rfl
    exact List.forall_mem_cons.2 ⟨by simp, hne "_type" (by simp)⟩
  · exact foldlM_fillAt_mid [_] (by simp) (hne "id" (by simp)) rfl
  · refine (foldlM_keepOthers_append [_, _] ?_ hfree []).trans ?_
    · simp
    · rw [FieldsInOrder.canonicalFields_eq horder]

end Context

/-! ### Events -/

namespace Event

/-- The other fields of the event, and of each of its contexts, are in order. -/
structure InOrder (e : Event) : Prop where
  fields : FieldsInOrder e.fields
  globals : ∀ c ∈ e.globalContexts, c.InOrder
  locations : ∀ c ∈ e.locationStack, c.InOrder

/-- No other field of the event, nor of one of its contexts, has a key with a place of its own. -/
structure NamesFree (e : Event) : Prop where
  fields : ∀ field ∈ e.fields, field.1 ∉ ["_type", "global_contexts", "location_stack"]
  globals : ∀ c ∈ e.globalContexts, c.NamesFree
  locations : ∀ c ∈ e.locationStack, c.NamesFree

theorem finish_eq_ok_iff {d : Draft} {e : Event} :
    layout.finish d = .ok e ↔ d.type = some e.type ∧ d.globalContexts.getD [] = e.globalContexts ∧
      d.locationStack.getD [] = e.locationStack ∧ d.fields = e.fields := by
  obtain ⟨type, globals, locations, fields⟩ := d
  obtain ⟨type', globals', locations', fields'⟩ := e
  cases type <;> simp [layout]

/-- What a list of contexts is read from: `null`, or a list. -/
theorem contextList_ofJson_eq_ok_iff {v : Json} {cs : List Context} :
    contextList.ofJson v = .ok cs ↔ v = .null ∧ cs = [] ∨
      ∃ items, v = .array items ∧ Shape.ofItems Context.shape.ofJson items = .ok cs := by
  constructor
  · intro h
    obtain ⟨read, hread, rfl⟩ := Json.map_eq_ok.1 h
    cases v with
    | null =>
      cases hread
      exact .inl ⟨rfl, rfl⟩
    | array items =>
      obtain ⟨contexts, hcontexts, rfl⟩ := Json.map_eq_ok.1 hread
      exact .inr ⟨items, rfl, hcontexts⟩
    | _ => cases hread
  · rintro (⟨rfl, rfl⟩ | ⟨items, rfl, hitems⟩)
    · rfl
    · exact Json.map_eq_ok.2 ⟨some cs, Json.map_eq_ok.2 ⟨cs, hitems, rfl⟩, rfl⟩

theorem inOrder_of_contextList {v : Json} {cs : List Context}
    (h : contextList.ofJson v = .ok cs) : ∀ c ∈ cs, c.InOrder := by
  rcases contextList_ofJson_eq_ok_iff.1 h with ⟨-, rfl⟩ | ⟨items, -, hitems⟩
  · simp
  · exact Shape.ofItems_forall (fun _ _ _ => Context.inOrder_of_ofJson) hitems

/-- **Every event that comes from a document is in order.** -/
theorem inOrder_of_ofJson {v : Json} {e : Event} (h : shape.ofJson v = .ok e) : e.InOrder := by
  have hlist : ∀ {name : String} {fields : Fields} {new : Option (List Context)},
      (new = none ∨ ∃ v cs, (name, v) ∈ fields ∧ contextList.ofJson v = .ok cs ∧ new = some cs) →
        ∀ c ∈ new.getD [], c.InOrder := by
    rintro _ _ _ (rfl | ⟨v, cs, -, hcs, rfl⟩)
    · simp
    · exact inOrder_of_contextList hcs
  cases v with
  | object fields =>
    obtain ⟨d, hd, hfinish⟩ := Layout.ofObject_eq_ok_iff.1 h
    obtain ⟨-, hglobals, hlocations, hothers⟩ := foldlM_take_iff.1 hd
    obtain ⟨-, hglobalsOf, hlocationsOf, hfieldsOf⟩ := finish_eq_ok_iff.1 hfinish
    exact ⟨hfieldsOf ▸ fieldsInOrder_of_keepOthers hothers,
      hglobalsOf ▸ hlist (eq_or_ofJson_of_fillAt hglobals),
      hlocationsOf ▸ hlist (eq_or_ofJson_of_fillAt hlocations)⟩
  | _ => cases h

theorem contextList_ofJson_toJson {cs : List Context} (horder : ∀ c ∈ cs, c.InOrder)
    (hfree : ∀ c ∈ cs, c.NamesFree) :
    contextList.ofJson (.array (cs.map Context.toJson)) = .ok cs := by
  have hitems : Shape.ofItems Context.shape.ofJson (cs.map Context.toJson) = .ok cs := by
    refine (Shape.ofItems_eq_ok_iff fun _ _ _ => Iff.rfl).2 (List.forall₂_map_left_iff.2 ?_)
    exact List.forall₂_same.2 fun c hc => Context.ofJson_toJson (horder c hc) (hfree c hc)
  exact contextList_ofJson_eq_ok_iff.2 (.inr ⟨_, rfl, hitems⟩)

theorem ofJson_toJson {e : Event} (horder : e.InOrder) (hfree : e.NamesFree) :
    shape.ofJson e.toJson = .ok e := by
  have hne : ∀ name ∈ ["_type", "global_contexts", "location_stack"],
      ∀ field ∈ e.fields, field.1 ≠ name := fun name hname field hfield heq =>
    hfree.fields field hfield (heq ▸ hname)
  have hglobals := contextList_ofJson_toJson horder.globals hfree.globals
  have hlocations := contextList_ofJson_toJson horder.locations hfree.locations
  refine Layout.ofObject_eq_ok_iff.2
    ⟨⟨some e.type, some e.globalContexts, some e.locationStack, e.fields⟩,
      foldlM_take_iff.2 ⟨?_, ?_, ?_, ?_⟩, rfl⟩
  · refine foldlM_fillAt_mid [] (by simp) ?_ rfl
    exact List.forall_mem_cons.2
      ⟨by simp, List.forall_mem_cons.2 ⟨by simp, hne "_type" (by simp)⟩⟩
  · refine foldlM_fillAt_mid [_] (by simp) ?_ hglobals
    exact List.forall_mem_cons.2 ⟨by simp, hne "global_contexts" (by simp)⟩
  · exact foldlM_fillAt_mid [_, _] (by simp) (hne "location_stack" (by simp)) hlocations
  · refine (foldlM_keepOthers_append [_, _, _] ?_ hfree.fields []).trans ?_
    · simp
    · rw [horder.fields.canonicalFields_eq]

/-- **An event survives being written and read**: its compact text reads back as the event, with all
its contexts in order and all fields, both straight off the text and as a record through the value
of the text. -/
theorem parse_compact_eq (e : Event) (index : Nat) (horder : e.InOrder) (hfree : e.NamesFree)
    (hnumbers : e.toJson.allNumbers Number.isWord = true)
    (hdepth : e.toJson.depth ≤ Json.maxDepth) :
    shape.parse e.compact = .ok e ∧
      ∃ v, Json.parse e.compact = .ok v ∧ Record.toEvent index v = .ok e := by
  have hwritten : (Json.valueReader Json.maxDepth).parse e.compact = .ok e.toJson :=
    Json.parse_compact hnumbers hdepth
  have hread : shape.ofJson e.toJson = .ok e := ofJson_toJson horder hfree
  refine ⟨faithful_shape.parse_eq_ok_iff.2 ⟨e.toJson, hwritten, hread⟩, e.toJson.canonical,
    Json.map_eq_ok.2 ⟨e.toJson, hwritten, rfl⟩, ?_⟩
  exact Json.mapError_eq_ok.2 (ofCanonical_shape.1 hread).2

/-- An event with the ends of both word ranges, characters that are written as escapes, values in
brackets and an empty list of locations. -/
def snapshot : Event where
  type := ⟨"PressEvent"⟩
  globalContexts :=
    [(Context.new ⟨"PathContext"⟩ "/a\"b\\c\n\x01é😀").withField "bounds"
        (.array [.nat 18446744073709551615, .number (.int (-9223372036854775808))]),
      .new ⟨"ApplicationContext"⟩ ""]
  locationStack := []
  fields := Json.canonicalFields []
    [("time", .nat 0), ("extra", .object [("a", .array []), ("b", .object [("c", .null)])])]

theorem inOrder_snapshot : snapshot.InOrder where
  fields := fieldsInOrder_canonicalFields _
  globals := by
    simp only [snapshot, List.forall_mem_cons]
    exact ⟨Context.inOrder_withField (Context.inOrder_new _ _) _ _, Context.inOrder_new _ _,
      by simp⟩
  locations := by simp [snapshot]

theorem parse_compact_snapshot :
    snapshot.InOrder ∧ snapshot.NamesFree ∧ snapshot.toJson.allNumbers Number.isWord = true ∧
      snapshot.toJson.depth ≤ Json.maxDepth ∧ shape.parse snapshot.compact = .ok snapshot ∧
        ∃ v, Json.parse snapshot.compact = .ok v ∧ Record.toEvent 3 v = .ok snapshot := by
  have hfree : snapshot.NamesFree :=
    ⟨by decide +kernel, by decide +kernel, by decide +kernel⟩
  have hnumbers : snapshot.toJson.allNumbers Number.isWord = true := by decide +kernel
  have hdepth : snapshot.toJson.depth ≤ Json.maxDepth := by decide +kernel
  exact ⟨inOrder_snapshot, hfree, hnumbers, hdepth,
    parse_compact_eq snapshot 3 inOrder_snapshot hfree hnumbers hdepth⟩

end Event

end EventTaxonomy
