import EventTaxonomy.Proofs.FieldValues
import Mathlib.Data.List.Sort

/-!
# The shape of events

Which values are events, in terms of their keys alone (`Event.Conforms`), and which event such a
value describes (`Event.Describes`): type and contexts stand under their own keys, and all other
fields are kept as they are. Values are in canonical form here, as records are.

`Record.toEvent_exact` proves that a record is made an event exactly if it conforms, and that
nothing gets lost: the event is the one that the record describes, and its own value is the record
again, with empty lists where the record had none (`Event.withLists`).

* Objects in key order are equal if they have the same values under all keys
  (`KeysAscend.eq_of_lookup_eq`), so an object that is written with its named fields first can be
  compared with the one that was read (`canonicalFields_named_eq`).
* A context is read from exactly the objects that describe it (`Context.ofJson_eq_ok_iff`), and is
  written as the same object (`Context.Describes.canonical_toJson`); the same for lists of contexts,
  and for events.
-/

namespace EventTaxonomy

open Json (Shape Layout)

/-! ### Conforming values -/

/-- The value is an object, and its fields have a property. -/
def Json.HasFields (p : Fields → Prop) : Json → Prop
  | .object fields => p fields
  | _ => False

namespace Context

/-- What the fields of an object have to be for a context. -/
structure Conforms (fields : Fields) : Prop where
  type : ∃ s, lookup "_type" fields = some (.string s)
  id : ∃ s, lookup "id" fields = some (.string s)

/-- The fields describe the context. -/
structure Describes (fields : Fields) (c : Context) : Prop where
  type : lookup "_type" fields = some (.string c.type.text)
  id : lookup "id" fields = some (.string c.id)
  others : c.fields = fields.filter fun field => field.1 ∉ ["_type", "id"]

theorem conforms_iff_exists_describes {fields : Fields} :
    Conforms fields ↔ ∃ c, Describes fields c := by
  constructor
  · rintro ⟨⟨type, htype⟩, id, hid⟩
    exact ⟨⟨⟨type⟩, id, _⟩, htype, hid, rfl⟩
  · rintro ⟨c, htype, hid, -⟩
    exact ⟨⟨_, htype⟩, _, hid⟩

end Context

namespace Event

/-- There is no list of contexts, or `null`, or a list of objects that are contexts. -/
def AcceptsList (field : Option Json) : Prop :=
  field = none ∨ field = some .null ∨
    ∃ items, field = some (.array items) ∧ ∀ item ∈ items, item.HasFields Context.Conforms

/-- What the fields of an object have to be for an event. -/
structure Conforms (fields : Fields) : Prop where
  type : ∃ s, lookup "_type" fields = some (.string s)
  globals : AcceptsList (lookup "global_contexts" fields)
  locations : AcceptsList (lookup "location_stack" fields)

/-- The items under a key, one by one, describe the contexts. -/
def DescribesList (field : Option Json) (cs : List Context) : Prop :=
  List.Forall₂ (fun item c => item.HasFields (Context.Describes · c)) (field.elim [] Json.items) cs

/-- The fields describe the event. -/
structure Describes (fields : Fields) (e : Event) : Prop where
  type : lookup "_type" fields = some (.string e.type.text)
  globals : DescribesList (lookup "global_contexts" fields) e.globalContexts
  locations : DescribesList (lookup "location_stack" fields) e.locationStack
  others : e.fields =
    fields.filter fun field => field.1 ∉ ["_type", "global_contexts", "location_stack"]

/-- The fields with an empty list under a key that has no value, or `null`. -/
def withList (key : String) (fields : Fields) : Fields :=
  match lookup key fields with
  | none | some .null => insertKey key (.array []) fields
  | some _ => fields

/-- The fields of an event with both lists there. -/
def withLists (fields : Fields) : Fields :=
  withList "location_stack" (withList "global_contexts" fields)

end Event

/-! ### Fields in key order -/

section Fields

variable {α : Type}

theorem mem_iff_lookup {fields : List (String × α)} (hkeys : (fields.map Prod.fst).Nodup)
    {key : String} {a : α} : (key, a) ∈ fields ↔ lookup key fields = some a :=
  ⟨lookup_of_mem hkeys, mem_of_lookup⟩

/-- Fields in key order are determined by the values under their keys. -/
theorem KeysAscend.eq_of_lookup_eq {xs ys : List (String × α)} (hx : KeysAscend xs)
    (hy : KeysAscend ys) (h : ∀ key, lookup key xs = lookup key ys) : xs = ys := by
  have : Std.Irrefl fun a b : String × α => a.1 < b.1 := ⟨fun a => lt_irrefl a.1⟩
  have : Std.Antisymm fun a b : String × α => a.1 < b.1 :=
    ⟨fun a b hab hba => absurd hab (lt_asymm hba)⟩
  refine List.Pairwise.eq_of_mem_iff hx hy fun ⟨key, a⟩ => ?_
  rw [mem_iff_lookup (nodup_of_keysAscend hx), mem_iff_lookup (nodup_of_keysAscend hy), h]

end Fields

theorem FieldsInOrder.filter {fields : Fields} (h : FieldsInOrder fields)
    (p : String × Json → Bool) : FieldsInOrder (fields.filter p) :=
  ⟨List.Pairwise.filter p h.1, fun field hfield => h.2 field (List.mem_filter.1 hfield).1⟩

theorem Json.fieldsInOrder_of_canonical {fields : Fields}
    (h : (Json.object fields).canonical = .object fields) : FieldsInOrder fields := by
  have hfields : canonicalFields [] fields = fields := Json.object.inj h
  exact hfields ▸ fieldsInOrder_canonicalFields fields

theorem Json.canonical_of_mem_items {v : Json} (h : v.canonical = v) :
    ∀ item ∈ v.items, item.canonical = item := by
  cases v with
  | array items =>
    have hitems : items.map canonical = items := by
      rw [← canonicalItems_eq_map]
      exact Json.array.inj h
    exact List.map_inj_left.1 (hitems.trans (List.map_id items).symm)
  | _ => exact fun _ => nofun

/-- What is kept of fields in order are those without a place of their own, as they are. -/
theorem FieldsInOrder.foldlM_keepOthers {fields : Fields} (h : FieldsInOrder fields)
    (names : List String) :
    fields.foldlM (keepOthers names) [] =
      some (fields.filter fun field => field.1 ∉ names) := by
  rw [foldlM_keepOthers_eq, (h.filter _).canonicalFields_eq]

/-! ### Places of a record -/

section Places

variable {β : Type}

theorem foldlM_fillAt_eq_some_some_iff {name : String} {shape : Shape β} {fields : Fields}
    (hkeys : (fields.map Prod.fst).Nodup) {b : β} :
    fields.foldlM (fillAt name shape) none = some (some b) ↔
      ∃ v, lookup name fields = some v ∧ shape.ofJson v = .ok b := by
  rw [foldlM_fillAt_eq_ofField hkeys]
  cases lookup name fields with
  | none => simp [Shape.ofField]
  | some v => cases h : shape.ofJson v <;> simp [Shape.ofField, Except.toOption, h]

theorem Json.Shape.ofJson_string_eq_ok_iff {v : Json} {s : String} :
    Shape.string.ofJson v = .ok s ↔ v = .string s := by
  cases v <;> simp [Shape.string, Shape.scalar, unwanted]

/-- A string under a key fills the place of the key. -/
theorem foldlM_fillAt_string_iff {name : String} {f : String → β} {g : β → String}
    (hfg : ∀ s b, f s = b ↔ s = g b) {fields : Fields} (hkeys : (fields.map Prod.fst).Nodup)
    {b : β} :
    fields.foldlM (fillAt name (Shape.string.map f)) none = some (some b) ↔
      lookup name fields = some (.string (g b)) := by
  rw [foldlM_fillAt_eq_some_some_iff hkeys]
  simp only [Shape.map, Json.map_eq_ok, Shape.ofJson_string_eq_ok_iff, hfg]
  constructor
  · rintro ⟨_, hv, _, rfl, rfl⟩
    exact hv
  · intro hv
    exact ⟨_, hv, _, rfl, rfl⟩

end Places

/-- Named fields and the other fields of an object make up the fields that have the named values
under the names, and what the object has under all other keys. -/
theorem canonicalFields_named_eq (named : Fields) {fields target : Fields}
    (hfields : FieldsInOrder fields) (hnamed : (named.map Prod.fst).Nodup)
    (htarget : KeysAscend target)
    (hin : ∀ field ∈ named, lookup field.1 target = some field.2.canonical)
    (hout : ∀ key ∉ named.map Prod.fst, lookup key target = lookup key fields) :
    Json.canonicalFields []
      (named ++ fields.filter fun field => field.1 ∉ named.map Prod.fst) = target := by
  -- the other fields have none of the names, so no key comes twice
  have hkeys : ((named ++ fields.filter fun field => field.1 ∉ named.map Prod.fst).map
      Prod.fst).Nodup := by
    rw [List.map_append]
    refine List.nodup_append.2 ⟨hnamed, nodup_of_keysAscend (hfields.filter _).1, ?_⟩
    rintro key hkey _ hother rfl
    obtain ⟨field, hfield, rfl⟩ := List.mem_map.1 hother
    exact absurd hkey (by simpa using (List.mem_filter.1 hfield).2)
  refine (fieldsInOrder_canonicalFields _).1.eq_of_lookup_eq htarget fun key => ?_
  rw [lookup_canonicalFields hkeys, lookup_append, lookup_filter_not_mem]
  by_cases hkey : key ∈ named.map Prod.fst
  · obtain ⟨⟨name, v⟩, hfield, rfl⟩ := List.mem_map.1 hkey
    rw [lookup_of_mem hnamed hfield, hin _ hfield]
    rfl
  · have hnone : lookup key named = none := lookup_of_not_mem fun field hfield heq =>
      hkey (List.mem_map.2 ⟨field, hfield, heq⟩)
    rw [hnone, if_neg hkey, hout key hkey, Option.none_or]
    cases hv : lookup key fields with
    | none => rfl
    | some v => exact congrArg some (hfields.2 _ (mem_of_lookup hv))

/-! ### Contexts -/

namespace Context

theorem ofObject_eq_ok_iff {fields : Fields} (h : FieldsInOrder fields) {c : Context} :
    layout.ofObject fields = .ok c ↔ Describes fields c := by
  have hkeys := nodup_of_keysAscend h.1
  have htype : fields.foldlM (fillAt "_type" (Shape.string.map ContextName.mk)) none =
      some (some c.type) ↔ lookup "_type" fields = some (.string c.type.text) :=
    foldlM_fillAt_string_iff (g := ContextName.text) (fun s b => by cases b; simp) hkeys
  have hid : fields.foldlM (fillAt "id" Shape.string) none = some (some c.id) ↔
      lookup "id" fields = some (.string c.id) := by
    simp [foldlM_fillAt_eq_some_some_iff hkeys, Shape.ofJson_string_eq_ok_iff]
  simp only [Layout.ofObject_eq_ok_iff, finish_eq_ok_iff, exists_eq_right, foldlM_take_iff]
  show _ ∧ _ ∧ fields.foldlM (keepOthers ["_type", "id"]) [] = some c.fields ↔ _
  rw [h.foldlM_keepOthers, Option.some_inj]
  constructor
  · rintro ⟨ht, hi, hf⟩
    exact ⟨htype.1 ht, hid.1 hi, hf.symm⟩
  · rintro ⟨ht, hi, hf⟩
    exact ⟨htype.2 ht, hid.2 hi, hf.symm⟩

theorem ofJson_eq_ok_iff {v : Json} (hv : v.canonical = v) {c : Context} :
    shape.ofJson v = .ok c ↔ v.HasFields (Describes · c) := by
  cases v with
  | object fields => exact ofObject_eq_ok_iff (Json.fieldsInOrder_of_canonical hv)
  | _ => exact iff_of_false nofun fun h => h

theorem hasFields_conforms_iff {v : Json} :
    v.HasFields Conforms ↔ ∃ c, v.HasFields (Describes · c) := by
  cases v with
  | object fields => exact conforms_iff_exists_describes
  | _ => exact iff_of_false (fun h => h) fun ⟨_, h⟩ => h

/-- The context that fields describe has these fields. -/
theorem Describes.canonical_toJson {fields : Fields} (hfields : FieldsInOrder fields) {c : Context}
    (h : Describes fields c) : c.toJson.canonical = .object fields := by
  rw [toJson, h.others]
  refine congrArg Json.object (canonicalFields_named_eq
    [("_type", .string c.type.text), ("id", .string c.id)] hfields (by simp) hfields.1 ?_ ?_)
  · simp [h.type, h.id, Json.canonical]
  · exact fun _ _ => rfl

theorem canonical_toJson_of_hasFields {v : Json} (hv : v.canonical = v) {c : Context}
    (h : v.HasFields (Describes · c)) : c.toJson.canonical = v := by
  cases v with
  | object fields => exact Describes.canonical_toJson (Json.fieldsInOrder_of_canonical hv) h
  | _ => cases h

end Context

/-! ### Lists of contexts -/

namespace Event

theorem contextList_eq_ok_iff {v : Json} (hv : v.canonical = v) {cs : List Context} :
    contextList.ofJson v = .ok cs ↔ AcceptsList (some v) ∧ DescribesList (some v) cs := by
  have hread : Shape.ofItems Context.shape.ofJson v.items = .ok cs ↔ DescribesList (some v) cs :=
    Shape.ofItems_eq_ok_iff fun item hitem _ =>
      Context.ofJson_eq_ok_iff (Json.canonical_of_mem_items hv item hitem)
  rw [contextList_ofJson_eq_ok_iff]
  constructor
  · rintro (⟨rfl, rfl⟩ | ⟨items, rfl, hitems⟩)
    · exact ⟨.inr (.inl rfl), .nil⟩
    · have hdescribes := hread.1 hitems
      refine ⟨.inr (.inr ⟨items, rfl, fun item hitem => ?_⟩), hdescribes⟩
      exact Context.hasFields_conforms_iff.2 (exists_forall₂_iff.1 ⟨cs, hdescribes⟩ item hitem)
  · rintro ⟨hnone | hnull | ⟨items, hitems, -⟩, hdescribes⟩
    · cases hnone
    · cases hnull
      exact .inl ⟨rfl, List.forall₂_nil_left_iff.1 hdescribes⟩
    · cases hitems
      exact .inr ⟨items, rfl, hread.2 hdescribes⟩

/-- What a list of contexts is taken for: nothing at all is an empty list. -/
theorem ofField_contextList_iff {field : Option Json} (hfield : ∀ v ∈ field, v.canonical = v)
    {cs : List Context} :
    (∃ new, contextList.ofField field = some new ∧ new.getD [] = cs) ↔
      AcceptsList field ∧ DescribesList field cs := by
  cases field with
  | none => simp [Shape.ofField, AcceptsList, DescribesList, eq_comm]
  | some v =>
    rw [← contextList_eq_ok_iff (hfield v rfl)]
    cases h : contextList.ofJson v <;> simp [Shape.ofField, Except.toOption, h]

theorem AcceptsList.exists_describes {field : Option Json} (h : AcceptsList field) :
    ∃ cs, DescribesList field cs := by
  rcases h with rfl | rfl | ⟨items, rfl, hitems⟩
  · exact ⟨[], .nil⟩
  · exact ⟨[], .nil⟩
  · refine exists_forall₂_iff.2 fun item hitem => ?_
    exact Context.hasFields_conforms_iff.1 (hitems item hitem)

theorem DescribesList.canonical_toJson {field : Option Json}
    (hfield : ∀ v ∈ field, v.canonical = v) {cs : List Context} (h : DescribesList field cs) :
    (Json.array (cs.map Context.toJson)).canonical = .array (field.elim [] Json.items) := by
  have hitems : ∀ item ∈ field.elim [] Json.items, item.canonical = item := by
    cases field with
    | none => exact fun _ => nofun
    | some v => exact Json.canonical_of_mem_items (hfield v rfl)
  rw [Json.canonical, Json.canonicalItems_eq_map]
  refine congrArg Json.array ?_
  rw [DescribesList] at h
  generalize field.elim [] Json.items = items at h hitems ⊢
  induction h with
  | nil => rfl
  | cons hc _ ih =>
    obtain ⟨hitem, hrest⟩ := List.forall_mem_cons.1 hitems
    rw [List.map_cons, List.map_cons, ih hrest, Context.canonical_toJson_of_hasFields hitem hc]

/-! ### Events -/

theorem ofObject_eq_ok_iff {fields : Fields} (h : FieldsInOrder fields) {e : Event} :
    layout.ofObject fields = .ok e ↔ Conforms fields ∧ Describes fields e := by
  have hkeys := nodup_of_keysAscend h.1
  have hlist : ∀ {name : String} {cs : List Context},
      (∃ new, fields.foldlM (fillAt name contextList) none = some new ∧ new.getD [] = cs) ↔
        AcceptsList (lookup name fields) ∧ DescribesList (lookup name fields) cs := by
    intro name cs
    rw [foldlM_fillAt_eq_ofField hkeys]
    exact ofField_contextList_iff fun v hv => h.2 _ (mem_of_lookup hv)
  have htype : fields.foldlM (fillAt "_type" (Shape.string.map EventTypeName.mk)) none =
      some (some e.type) ↔ lookup "_type" fields = some (.string e.type.text) :=
    foldlM_fillAt_string_iff (g := EventTypeName.text) (fun s b => by cases b; simp) hkeys
  have hothers : fields.foldlM (keepOthers layout.names) [] = some (fields.filter fun field =>
      field.1 ∉ ["_type", "global_contexts", "location_stack"]) := h.foldlM_keepOthers _
  rw [Layout.ofObject_eq_ok_iff]
  constructor
  · rintro ⟨d, hd, hfinish⟩
    obtain ⟨ht, hg, hl, hf⟩ := foldlM_take_iff.1 hd
    obtain ⟨htypeOf, hglobalsOf, hlocationsOf, hfieldsOf⟩ := finish_eq_ok_iff.1 hfinish
    obtain ⟨hacceptsg, hdescribesg⟩ := hlist.1 ⟨_, hg, hglobalsOf⟩
    obtain ⟨hacceptsl, hdescribesl⟩ := hlist.1 ⟨_, hl, hlocationsOf⟩
    have hread := htype.1 (htypeOf ▸ ht)
    refine ⟨⟨⟨_, hread⟩, hacceptsg, hacceptsl⟩, hread, hdescribesg, hdescribesl, ?_⟩
    rw [← hfieldsOf]
    exact (Option.some.inj (hothers.symm.trans hf)).symm
  · rintro ⟨⟨-, hacceptsg, hacceptsl⟩, ht, hdescribesg, hdescribesl, hf⟩
    -- a list that is missing leaves its place empty, so the draft is not determined by the event
    obtain ⟨globals, hg, hglobalsOf⟩ := hlist.2 ⟨hacceptsg, hdescribesg⟩
    obtain ⟨locations, hl, hlocationsOf⟩ := hlist.2 ⟨hacceptsl, hdescribesl⟩
    exact ⟨⟨some e.type, globals, locations, e.fields⟩,
      foldlM_take_iff.2 ⟨htype.2 ht, hg, hl, hf ▸ hothers⟩,
      finish_eq_ok_iff.2 ⟨rfl, hglobalsOf, hlocationsOf, rfl⟩⟩

theorem ofJson_eq_ok_iff {v : Json} (hv : v.canonical = v) {e : Event} :
    shape.ofJson v = .ok e ↔ v.HasFields fun fields => Conforms fields ∧ Describes fields e := by
  cases v with
  | object fields => exact ofObject_eq_ok_iff (Json.fieldsInOrder_of_canonical hv)
  | _ => exact iff_of_false nofun fun h => h

theorem Conforms.exists_describes {fields : Fields} (h : Conforms fields) :
    ∃ e, Describes fields e := by
  obtain ⟨⟨type, htype⟩, hglobals, hlocations⟩ := h
  obtain ⟨globals, hglobals⟩ := hglobals.exists_describes
  obtain ⟨locations, hlocations⟩ := hlocations.exists_describes
  exact ⟨⟨⟨type⟩, globals, locations, _⟩, htype, hglobals, hlocations, rfl⟩

/-! ### The fields of an event -/

section WithList

variable {key name : String} {fields : Fields}

theorem keysAscend_withList (h : KeysAscend fields) : KeysAscend (withList name fields) := by
  rw [withList]
  split
  · exact keysAscend_insertKey h
  · exact keysAscend_insertKey h
  · exact h

theorem lookup_withList_of_ne (h : name ≠ key) :
    lookup key (withList name fields) = lookup key fields := by
  rw [withList]
  split
  · rw [lookup_insertKey, if_neg h]
  · rw [lookup_insertKey, if_neg h]
  · rfl

theorem lookup_withList (h : AcceptsList (lookup name fields)) :
    lookup name (withList name fields) =
      some (.array ((lookup name fields).elim [] Json.items)) := by
  rw [withList]
  rcases h with hnone | hnull | ⟨items, hitems, -⟩
  · rw [hnone]
    exact (lookup_insertKey ..).trans (if_pos rfl)
  · rw [hnull]
    exact (lookup_insertKey ..).trans (if_pos rfl)
  · rw [hitems]
    exact hitems

end WithList

/-- The event that fields describe has these fields, and its lists are there. -/
theorem Describes.canonical_toJson {fields : Fields} (hfields : FieldsInOrder fields)
    (hconforms : Conforms fields) {e : Event} (h : Describes fields e) :
    e.toJson.canonical = .object (withLists fields) := by
  have hcanonical : ∀ {key : String}, ∀ v ∈ lookup key fields, v.canonical = v :=
    fun v hv => hfields.2 _ (mem_of_lookup hv)
  rw [toJson, h.others]
  refine congrArg Json.object (canonicalFields_named_eq
    [("_type", .string e.type.text),
      ("global_contexts", .array (e.globalContexts.map Context.toJson)),
      ("location_stack", .array (e.locationStack.map Context.toJson))]
    hfields (by simp) (keysAscend_withList (keysAscend_withList hfields.1)) ?_ ?_)
  · simp only [List.forall_mem_cons, withLists]
    refine ⟨?_, ?_, ?_, by simp⟩
    · rw [lookup_withList_of_ne (by decide), lookup_withList_of_ne (by decide), h.type,
        Json.canonical]
    · rw [lookup_withList_of_ne (by decide), lookup_withList hconforms.globals,
        h.globals.canonical_toJson hcanonical]
    · -- the list of global contexts may have been put in before
      have hsame : lookup "location_stack" (withList "global_contexts" fields) =
          lookup "location_stack" fields := lookup_withList_of_ne (by decide)
      rw [lookup_withList (hsame.symm ▸ hconforms.locations), hsame,
        h.locations.canonical_toJson hcanonical]
  · intro key hkey
    simp only [List.map_cons, List.map_nil, List.mem_cons, not_or] at hkey
    rw [withLists, lookup_withList_of_ne (Ne.symm hkey.2.2.1),
      lookup_withList_of_ne (Ne.symm hkey.2.1)]

end Event

namespace Record

/-- **A record is made an event exactly if it conforms, and nothing of it is lost.** It conforms if
it is an object with a string for its type, whose lists of contexts are missing, `null`, or lists of
objects with strings for type and id. The event has the type and the contexts of the record, in
order, and the fields that are left; written as a value it is the record again, except that its
lists are there. An error names the record. -/
theorem toEvent_exact {v : Json} (hv : v.canonical = v) (index : Nat) :
    ((∃ e, toEvent index v = .ok e) ↔ v.HasFields Event.Conforms) ∧
      (∀ e, toEvent index v = .ok e → v.HasFields fun fields =>
        Event.Describes fields e ∧ e.toJson.canonical = .object (Event.withLists fields)) ∧
      ∀ err, toEvent index v = .error err → err.index = index := by
  have hread : ∀ e, toEvent index v = .ok e ↔
      v.HasFields fun fields => Event.Conforms fields ∧ Event.Describes fields e := fun e =>
    Json.mapError_eq_ok.trans (Event.ofJson_eq_ok_iff hv)
  refine ⟨?_, fun e he => ?_, fun err herr => ?_⟩
  · simp only [hread]
    cases v with
    | object fields =>
      exact ⟨fun ⟨_, hconforms, _⟩ => hconforms, fun hconforms =>
        hconforms.exists_describes.imp fun _ hdescribes => ⟨hconforms, hdescribes⟩⟩
    | _ => exact iff_of_false (fun ⟨_, h⟩ => h) fun h => h
  · replace he := (hread e).1 he
    cases v with
    | object fields =>
      obtain ⟨hconforms, hdescribes⟩ := he
      exact ⟨hdescribes,
        hdescribes.canonical_toJson (Json.fieldsInOrder_of_canonical hv) hconforms⟩
    | _ => cases he
  · cases hfail : Event.shape.ofJson v with
    | ok e =>
      rw [toEvent, hfail] at herr
      cases herr
    | error mismatch =>
      rw [toEvent, hfail] at herr
      cases herr
      rfl

/-- A record with `null` for one list and a context that has a field of its own. -/
def press : Json :=
  .object [("_type", .string "PressEvent"), ("global_contexts", .null),
    ("location_stack", .array [.object [("_type", .string "RootLocationContext"),
      ("href", .null), ("id", .string "home")]]), ("time", .nat 5)]

/-- The record with a number for the id of its context. -/
def pressUnnamed : Json :=
  .object [("_type", .string "PressEvent"), ("location_stack",
    .array [.object [("_type", .string "RootLocationContext"), ("id", .nat 1)]])]

theorem toEvent_exact_press :
    press.canonical = press ∧ pressUnnamed.canonical = pressUnnamed ∧
      (∃ e, toEvent 3 press = .ok e ∧ e.globalContexts = [] ∧
        e.fields = [("time", .nat 5)] ∧
        e.toJson.canonical = .object [("_type", .string "PressEvent"),
          ("global_contexts", .array []), ("location_stack",
            .array [.object [("_type", .string "RootLocationContext"), ("href", .null),
              ("id", .string "home")]]), ("time", .nat 5)]) ∧
      ∃ err, toEvent 3 pressUnnamed = .error err ∧ err.index = 3 := by
  have hpress : press.canonical = press := by rfl
  have hunnamed : pressUnnamed.canonical = pressUnnamed := by rfl
  have hconforms : press.HasFields Event.Conforms :=
    ⟨⟨_, rfl⟩, .inr (.inl rfl), .inr (.inr ⟨_, rfl, List.forall_mem_singleton.2
      ⟨⟨_, rfl⟩, _, rfl⟩⟩)⟩
  have hrefused : ¬ pressUnnamed.HasFields Event.Conforms := by
    rintro ⟨-, -, hnone | hnull | ⟨items, hitems, hall⟩⟩
    · cases hnone
    · cases hnull
    · cases hitems
      obtain ⟨-, id, hid⟩ := List.forall_mem_singleton.1 hall
      cases hid
  refine ⟨hpress, hunnamed, ?_, ?_⟩
  · obtain ⟨e, he⟩ := (toEvent_exact hpress 3).1.2 hconforms
    obtain ⟨hdescribes, hvalue⟩ := (toEvent_exact hpress 3).2.1 e he
    exact ⟨e, he, List.forall₂_nil_left_iff.1 hdescribes.globals, hdescribes.others, hvalue⟩
  · cases hread : toEvent 3 pressUnnamed with
    | ok e => exact absurd ((toEvent_exact hunnamed 3).1.1 ⟨e, hread⟩) hrefused
    | error err => exact ⟨err, rfl, (toEvent_exact hunnamed 3).2.2 err hread⟩

end Record

end EventTaxonomy
