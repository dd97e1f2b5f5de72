import EventTaxonomy.Json.Shape
import EventTaxonomy.Proofs.Locality
import Mathlib.Data.List.DropRight

/-!
# Reading data through a value

A shape reads its data straight off a text, or takes it from a value. A shape is `Faithful` if the
two agree on what the text says: the data is read off a text just when the value is, as it was
written, and the data is taken from that value.

What a shape is built from carries over to it: a list is faithful if its items are
(`Shape.Faithful.list`), and a record if its fields are (`Shape.Faithful.record`). The objects of a
text come down to one relation, `ReadsFields`, which lists the fields in the order of the text;
`readFields_eq_ok_iff` says what any loop over the fields makes of them.
-/

namespace EventTaxonomy

namespace Json

variable {α β σ : Type}

/-- The reader takes just what comes of the values that `raw` takes. -/
def Reader.Decodes (reader : Reader α) (raw : Reader Json) (decode : Json → Except Mismatch α) :
    Prop :=
  ∀ ⦃s r : List Char⦄ ⦃a : α⦄,
    reader.run s = .ok (a, r) ↔ ∃ v, raw.run s = .ok (v, r) ∧ decode v = .ok a

/-- To read the data off a text is to read the value and to take the data from it. -/
def Shape.Faithful (shape : Shape α) : Prop :=
  ∀ depth, (shape.read depth).Decodes (valueReader depth) shape.ofJson

/-! ### Lists -/

theorem Shape.ofItems_cons_eq_ok_iff {decode : Json → Except Mismatch α} {v : Json}
    {vs : List Json} {as : List α} :
    ofItems decode (v :: vs) = .ok as ↔
      ∃ a bs, decode v = .ok a ∧ ofItems decode vs = .ok bs ∧ as = a :: bs := by
  rw [ofItems]
  cases decode v with
  | error m => simp
  | ok a => cases ofItems decode vs <;> simp [eq_comm]

theorem Reader.Decodes.items {reader : Reader α} {raw : Reader Json}
    {decode : Json → Except Mismatch α} (h : reader.Decodes raw decode) {first : Bool}
    {s r : List Char} {as : List α} :
    reader.items first s = .ok (as, r) ↔
      ∃ vs, raw.items first s = .ok (vs, r) ∧ Shape.ofItems decode vs = .ok as := by
  constructor
  · intro hs
    fun_induction Reader.items reader first s generalizing as r with
    | case1 => cases hs
    | case2 first s t hn =>
      cases hs
      exact ⟨[], items_of_done hn, rfl⟩
    | case3 => cases hs
    | case4 => cases hs
    | case5 first s t hn a u hu bs w hw ih =>
      cases hs
      obtain ⟨v, hv, ha⟩ := h.1 hu
      obtain ⟨vs, hvs, hbs⟩ := ih hw
      exact ⟨v :: vs, items_of_item hn hv hvs, Shape.ofItems_cons_eq_ok_iff.2 ⟨a, bs, ha, hbs, rfl⟩⟩
  · rintro ⟨vs, hs, has⟩
    fun_induction Reader.items raw first s generalizing vs as r with
    | case1 => cases hs
    | case2 first s t hn =>
      cases hs
      cases has
      exact items_of_done hn
    | case3 => cases hs
    | case4 => cases hs
    | case5 first s t hn v u hu ws w hw ih =>
      cases hs
      obtain ⟨a, bs, ha, hbs, rfl⟩ := Shape.ofItems_cons_eq_ok_iff.1 has
      exact items_of_item hn (h.2 ⟨v, hu, ha⟩) (ih ws hw hbs)

/-! ### Fields -/

/-- The text goes on with these fields, their values read by `reader`, and a closing brace;
`first` if there is no field before them. -/
inductive ReadsFields (reader : Reader Json) : Bool → List Char → Fields → List Char → Prop
  | done {first : Bool} {s r : List Char} :
      nextKey first s = .ok (.done r) → ReadsFields reader first s [] r
  | field {first : Bool} {s t u w r : List Char} {name : String} {v : Json} {fields : Fields} :
      nextKey first s = .ok (.key name t) → takeColon t = .ok u → reader.run u = .ok (v, w) →
      ReadsFields reader false w fields r → ReadsFields reader first s ((name, v) :: fields) r

/-- Each entry of a loop reads what `take` makes of a field. -/
def EntriesTake (raw : Reader Json) (entry : σ → String → Except Mismatch (Reader σ))
    (take : σ → String × Json → Option σ) : Prop :=
  ∀ ⦃state state' : σ⦄ ⦃name : String⦄ ⦃u w : List Char⦄,
    (∃ value, entry state name = .ok value ∧ value.run u = .ok (state', w)) ↔
      ∃ v, raw.run u = .ok (v, w) ∧ take state (name, v) = some state'

theorem exists_readsFields_of_readFields {raw : Reader Json}
    {entry : σ → String → Except Mismatch (Reader σ)} {take : σ → String × Json → Option σ}
    (hentry : ∀ ⦃state state' name value u w⦄, entry state name = .ok value →
      value.run u = .ok (state', w) →
        ∃ v, raw.run u = .ok (v, w) ∧ take state (name, v) = some state')
    {first : Bool} {state state' : σ} {s r : List Char}
    (h : readFields entry first state s = .ok (state', r)) :
    ∃ fields, ReadsFields raw first s fields r ∧ fields.foldlM take state = some state' := by
  fun_induction readFields entry first state s with
  | case1 => cases h
  | case2 first state s t hn =>
    cases h
    exact ⟨[], .done hn, rfl⟩
  | case3 => cases h
  | case4 => cases h
  | case5 => cases h
  | case6 first state s name t hn value he u hu state₁ w hw ih =>
    obtain ⟨v, hv, htake⟩ := hentry he hw
    obtain ⟨fields, hfields, hfold⟩ := ih h
    refine ⟨(name, v) :: fields, .field hn hu hv hfields, ?_⟩
    rw [List.foldlM_cons, htake]
    exact hfold

/-- **A loop over the fields of a text takes the fields one at a time.** -/
theorem readFields_eq_ok_iff {raw : Reader Json} {entry : σ → String → Except Mismatch (Reader σ)}
    {take : σ → String × Json → Option σ} (hentry : EntriesTake raw entry take)
    {first : Bool} {state state' : σ} {s r : List Char} :
    readFields entry first state s = .ok (state', r) ↔
      ∃ fields, ReadsFields raw first s fields r ∧ fields.foldlM take state = some state' := by
  constructor
  · exact exists_readsFields_of_readFields fun _ _ _ value _ _ he hw => hentry.1 ⟨value, he, hw⟩
  · rintro ⟨fields, hfields, hfold⟩
    induction hfields generalizing state with
    | done hn =>
      cases hfold
      exact readFields_of_done hn
    | field hn hu hv _ ih =>
      rw [List.foldlM_cons] at hfold
      obtain ⟨state₁, htake, hrest⟩ := Option.bind_eq_some_iff.1 hfold
      obtain ⟨value, he, hw⟩ := hentry.2 ⟨_, hv, htake⟩
      rw [readFields_of_key hn he hu hw]
      exact ih hrest

/-- The next field of an object that is read as it is written, the last one first. -/
def pushField (acc : Fields) (field : String × Json) : Option Fields := some (field :: acc)

theorem foldlM_pushField (acc fields : Fields) :
    fields.foldlM pushField acc = some (fields.reverse ++ acc) := by
  induction fields generalizing acc with
  | nil => rfl
  | cons field fields ih => simp [List.foldlM_cons, pushField, ih]

theorem readFields_raw_eq_ok_iff {reader : Reader Json} {s r : List Char} {acc : Fields} :
    readFields (fun fields name => .ok (reader.map fun value => (name, value) :: fields))
        true [] s = .ok (acc, r) ↔ ReadsFields reader true s acc.reverse r := by
  have hentry : EntriesTake reader
      (fun fields name => .ok (reader.map fun value => (name, value) :: fields)) pushField := by
    intro acc acc' name u w
    simp [Reader.map, map_eq_ok, pushField]
  rw [readFields_eq_ok_iff hentry]
  -- the loop keeps the fields with the last one first
  simp only [foldlM_pushField, List.append_nil, Option.some.injEq]
  constructor
  · rintro ⟨fields, hfields, rfl⟩
    rwa [List.reverse_reverse]
  · intro h
    exact ⟨acc.reverse, h, List.reverse_reverse acc⟩

/-! ### Values by their first character -/

theorem takeScalar_eq_ok {c : Char} {s r : List Char} {v : Json}
    (h : takeScalar (c :: s) = .ok (v, r)) :
    (v = .null ↔ c = 'n') ∧ (∀ items, v ≠ .array items) ∧ ∀ fields, v ≠ .object fields := by
  rw [takeScalar] at h
  split_ifs at h
  all_goals
    obtain ⟨_, -, he⟩ := map_eq_ok.1 h
    cases he
    simp [*]

theorem takeValue_of_ne {inner : Option (Reader Json)} {c : Char} (hb : c ≠ '[') (hc : c ≠ '{')
    (s : List Char) : takeValue inner c s = takeScalar (c :: s) := by
  simp only [takeValue, if_neg hb, if_neg hc]

theorem takeValue_cases {depth : Nat} {c : Char} {s r : List Char} {v : Json}
    (h : takeValue (innerReader depth) c s = .ok (v, r)) :
    (∃ d items, c = '[' ∧ depth = d + 1 ∧ (valueReader d).items true s = .ok (items, r) ∧
        v = .array items) ∨
      (∃ d fields, c = '{' ∧ depth = d + 1 ∧ ReadsFields (valueReader d) true s fields r ∧
        v = .object fields) ∨
      (c ≠ '[' ∧ c ≠ '{' ∧ takeScalar (c :: s) = .ok (v, r)) := by
  by_cases hb : c = '['
  · subst hb
    cases depth with
    | zero => cases h
    | succ d =>
      obtain ⟨⟨items, t⟩, hitems, he⟩ := map_eq_ok.1 h
      cases he
      exact .inl ⟨d, items, rfl, rfl, hitems, rfl⟩
  · by_cases hc : c = '{'
    · subst hc
      cases depth with
      | zero => cases h
      | succ d =>
        obtain ⟨⟨acc, t⟩, hacc, he⟩ := map_eq_ok.1 h
        cases he
        exact .inr (.inl ⟨d, acc.reverse, rfl, rfl, readFields_raw_eq_ok_iff.1 hacc, rfl⟩)
    · rw [takeValue_of_ne hb hc] at h
      exact .inr (.inr ⟨hb, hc, h⟩)

theorem takeValue_eq_array_iff {depth : Nat} {c : Char} {s r : List Char} {items : List Json} :
    takeValue (innerReader depth) c s = .ok (.array items, r) ↔
      c = '[' ∧ ∃ d, depth = d + 1 ∧ (valueReader d).items true s = .ok (items, r) := by
  constructor
  · intro h
    rcases takeValue_cases h with ⟨d, _, hc, hd, hitems, he⟩ | ⟨_, _, _, _, _, he⟩ | ⟨_, _, hv⟩
    · cases he
      exact ⟨hc, d, hd, hitems⟩
    · cases he
    · exact absurd rfl ((takeScalar_eq_ok hv).2.1 items)
  · rintro ⟨rfl, d, rfl, hitems⟩
    exact map_eq_ok.2 ⟨(items, r), hitems, rfl⟩

theorem takeValue_eq_object_iff {depth : Nat} {c : Char} {s r : List Char} {fields : Fields} :
    takeValue (innerReader depth) c s = .ok (.object fields, r) ↔
      c = '{' ∧ ∃ d, depth = d + 1 ∧ ReadsFields (valueReader d) true s fields r := by
  constructor
  · intro h
    rcases takeValue_cases h with ⟨_, _, _, _, _, he⟩ | ⟨d, _, hc, hd, hfields, he⟩ | ⟨_, _, hv⟩
    · cases he
    · cases he
      exact ⟨hc, d, hd, hfields⟩
    · exact absurd rfl ((takeScalar_eq_ok hv).2.2 fields)
  · rintro ⟨rfl, d, rfl, hfields⟩
    rw [← List.reverse_reverse fields] at hfields ⊢
    exact map_eq_ok.2 ⟨(fields.reverse, r), readFields_raw_eq_ok_iff.2 hfields, rfl⟩

theorem ne_null_of_takeValue {depth : Nat} {c : Char} {s r : List Char} {v : Json} (hn : c ≠ 'n')
    (h : takeValue (innerReader depth) c s = .ok (v, r)) : v ≠ .null := by
  rcases takeValue_cases h with ⟨_, _, _, _, _, rfl⟩ | ⟨_, _, _, _, _, rfl⟩ | ⟨_, _, hv⟩
  · simp
  · simp
  · exact fun hnull => hn ((takeScalar_eq_ok hv).1.1 hnull)

theorem skipBlanks_of_skipBlanks_eq {c : Char} {s t : List Char} (h : skipBlanks s = c :: t) :
    skipBlanks (c :: t) = c :: t := by
  rw [← h]
  exact List.dropWhile_idempotent _ _

theorem run_valueReader_cons_eq_ok {depth : Nat} {c : Char} {s r : List Char} {v : Json}
    (hs : skipBlanks (c :: s) = c :: s) :
    (valueReader depth).run (c :: s) = .ok (v, r) ↔
      takeValue (innerReader depth) c s = .ok (v, r) := by
  rw [run_valueReader_eq_ok, hs]
  simp

/-! ### Shapes -/

namespace Shape

/-- It is enough to look at the first character of a value. -/
theorem faithful_of_take {shape : Shape α}
    {take : Nat → Char → List Char → Except Fault (α × List Char)}
    (hread : ∀ depth, ∃ hlen, shape.read depth = startingWith (take depth) hlen)
    (h : ∀ {depth c s r a}, skipBlanks (c :: s) = c :: s → (take depth c s = .ok (a, r) ↔
      ∃ v, takeValue (innerReader depth) c s = .ok (v, r) ∧ shape.ofJson v = .ok a)) :
    shape.Faithful := by
  intro depth s r a
  obtain ⟨hlen, hdepth⟩ := hread depth
  rw [hdepth, run_startingWith_eq_ok hlen]
  simp only [run_valueReader_eq_ok]
  constructor
  · rintro ⟨c, t, hs, ht⟩
    obtain ⟨v, hv, ha⟩ := (h (skipBlanks_of_skipBlanks_eq hs)).1 ht
    exact ⟨v, ⟨c, t, hs, hv⟩, ha⟩
  · rintro ⟨v, ⟨c, t, hs, hv⟩, ha⟩
    exact ⟨c, t, hs, (h (skipBlanks_of_skipBlanks_eq hs)).2 ⟨v, hv, ha⟩⟩

theorem takeChecked_eq_ok_iff {wanted : Wanted} {check : Json → Except Mismatch α} {c : Char}
    {s r : List Char} {a : α} :
    takeChecked wanted check c s = .ok (a, r) ↔
      c ≠ '[' ∧ c ≠ '{' ∧ ∃ v, takeScalar (c :: s) = .ok (v, r) ∧ check v = .ok a := by
  constructor
  · intro h
    rw [takeChecked] at h
    split at h
    · cases h
    · next hbc =>
      obtain ⟨hb, hc⟩ : c ≠ '[' ∧ c ≠ '{' := by simpa using hbc
      split at h
      · cases h
      · next v t ht =>
        split at h
        · cases h
        · next ha =>
          cases h
          exact ⟨hb, hc, v, ht, ha⟩
  · rintro ⟨hb, hc, v, hv, ha⟩
    simp [takeChecked, hb, hc, hv, ha]

theorem ofJson_nullable_of_ne {shape : Shape α} {v : Json} (hv : v ≠ .null) :
    (Shape.nullable shape).ofJson v = (shape.ofJson v).map some := by
  cases v with
  | null => exact absurd rfl hv
  | _ => rfl

theorem takeList_eq_ok_iff {reader : Nat → Reader α} {depth : Nat} {c : Char} {s r : List Char}
    {as : List α} :
    takeList reader depth c s = .ok (as, r) ↔
      c = '[' ∧ ∃ d, depth = d + 1 ∧ (reader d).items true s = .ok (as, r) := by
  unfold takeList
  split_ifs with hb
  · cases depth <;> simp [hb]
  · simp [hb]

theorem takeBracketed_eq_ok_iff {wanted : Wanted}
    {object : Nat → List Char → Except Fault (α × List Char)} {depth : Nat} {c : Char}
    {s r : List Char} {a : α} :
    takeBracketed wanted none object depth c s = .ok (a, r) ↔
      c = '{' ∧ ∃ d, depth = d + 1 ∧ object d s = .ok (a, r) := by
  unfold takeBracketed
  split_ifs with hc
  · cases depth <;> simp [hc]
  · simp [hc]

namespace Faithful

theorem json : Shape.json.Faithful := by
  intro depth s r a
  simp [Shape.json]

theorem map {shape : Shape α} (h : shape.Faithful) (f : α → β) : (shape.map f).Faithful := by
  intro depth s r b
  simp only [Shape.map, Reader.map, map_eq_ok]
  constructor
  · rintro ⟨⟨a, t⟩, ht, he⟩
    cases he
    obtain ⟨v, hv, ha⟩ := (h depth).1 ht
    exact ⟨v, hv, a, ha, rfl⟩
  · rintro ⟨v, hv, a, ha, rfl⟩
    exact ⟨(a, r), (h depth).2 ⟨v, hv, ha⟩, rfl⟩

theorem scalar {wanted : Wanted} {check : Json → Except Mismatch α}
    (harray : ∀ items a, check (.array items) ≠ .ok a)
    (hobject : ∀ fields a, check (.object fields) ≠ .ok a) :
    (Shape.scalar wanted check).Faithful := by
  refine faithful_of_take (fun _ => ⟨length_takeChecked, rfl⟩) fun {depth c s r a} _ => ?_
  rw [takeChecked_eq_ok_iff]
  constructor
  · rintro ⟨hb, hc, v, hv, ha⟩
    exact ⟨v, (takeValue_of_ne hb hc s).trans hv, ha⟩
  · rintro ⟨v, hv, ha⟩
    rcases takeValue_cases hv with
      ⟨_, items, _, _, _, rfl⟩ | ⟨_, fields, _, _, _, rfl⟩ | ⟨hb, hc, hv⟩
    · exact absurd ha (harray items a)
    · exact absurd ha (hobject fields a)
    · exact ⟨hb, hc, v, hv, ha⟩

theorem string : Shape.string.Faithful :=
  scalar (by simp [unwanted]) (by simp [unwanted])

theorem unit : Shape.unit.Faithful :=
  scalar (by simp [unwanted]) (by simp [unwanted])

theorem nullable {shape : Shape α} (h : shape.Faithful) : (Shape.nullable shape).Faithful := by
  refine faithful_of_take (fun _ => ⟨length_takeNullable, rfl⟩) fun {depth c s r a} hs => ?_
  -- `null` is the only value that starts as it does, so the first character decides
  by_cases hn : c = 'n'
  · subst hn
    constructor
    · intro ha
      obtain ⟨t, ht, he⟩ := map_eq_ok.1 ha
      cases he
      exact ⟨.null, map_eq_ok.2 ⟨r, ht, rfl⟩, rfl⟩
    · rintro ⟨v, hv, ha⟩
      obtain ⟨t, ht, he⟩ := map_eq_ok.1 hv
      cases he
      cases ha
      exact map_eq_ok.2 ⟨r, ht, rfl⟩
  · rw [takeNullable, if_neg hn]
    constructor
    · intro ha
      obtain ⟨⟨b, t⟩, hb, he⟩ := map_eq_ok.1 ha
      cases he
      obtain ⟨v, hv, hof⟩ := (h depth).1 hb
      have hv := (run_valueReader_cons_eq_ok hs).1 hv
      refine ⟨v, hv, ?_⟩
      rw [ofJson_nullable_of_ne (ne_null_of_takeValue hn hv)]
      exact map_eq_ok.2 ⟨b, hof, rfl⟩
    · rintro ⟨v, hv, ha⟩
      rw [ofJson_nullable_of_ne (ne_null_of_takeValue hn hv)] at ha
      obtain ⟨b, hof, rfl⟩ := map_eq_ok.1 ha
      have hb := (h depth).2 ⟨v, (run_valueReader_cons_eq_ok hs).2 hv, hof⟩
      exact map_eq_ok.2 ⟨(b, r), hb, rfl⟩

theorem list {shape : Shape α} (h : shape.Faithful) : (Shape.list shape).Faithful := by
  refine faithful_of_take (fun _ => ⟨length_takeList, rfl⟩) fun {depth c s r as} _ => ?_
  rw [takeList_eq_ok_iff]
  constructor
  · rintro ⟨hc, d, hd, has⟩
    obtain ⟨items, hitems, hof⟩ := (h d).items.1 has
    exact ⟨.array items, takeValue_eq_array_iff.2 ⟨hc, d, hd, hitems⟩, hof⟩
  · rintro ⟨v, hv, has⟩
    cases v with
    | array items =>
      obtain ⟨hc, d, hd, hitems⟩ := takeValue_eq_array_iff.1 hv
      exact ⟨hc, d, hd, (h d).items.2 ⟨items, hitems, has⟩⟩
    | _ => cases has

end Faithful

end Shape

/-! ### Records -/

namespace Layout

variable (layout : Layout σ α)

/-- Takes a field into the record, if the record has a place for it. -/
def take (state : σ) (field : String × Json) : Option σ :=
  match layout.entry state field.1 with
  | .error _ => none
  | .ok shape => (shape.ofJson field.2).toOption

variable {layout}

theorem take_eq_some_iff {state state' : σ} {name : String} {v : Json} :
    layout.take state (name, v) = some state' ↔
      ∃ shape, layout.entry state name = .ok shape ∧ shape.ofJson v = .ok state' := by
  rw [take]
  cases layout.entry state name with
  | error m => simp
  | ok shape => cases h : shape.ofJson v <;> simp [Except.toOption, h]

theorem find?_slot {slots : List (Slot σ)} (hnames : (slots.map Slot.name).Nodup) {slot : Slot σ}
    (hslot : slot ∈ slots) : (slots.find? fun other => other.name = slot.name) = some slot := by
  induction slots with
  | nil => cases hslot
  | cons other slots ih =>
    obtain ⟨hhead, hrest⟩ := List.nodup_cons.1 hnames
    rcases List.mem_cons.1 hslot with rfl | hmem
    · simp
    · have hne : other.name ≠ slot.name := fun heq =>
        hhead (List.mem_map.2 ⟨slot, hmem, heq.symm⟩)
      rw [List.find?_cons_of_neg (by simpa using hne)]
      exact ih hrest hmem

theorem take_slot (hnames : layout.names.Nodup) {slot : Slot σ} (hslot : slot ∈ layout.slots)
    {state state' : σ} {v : Json} :
    layout.take state (slot.name, v) = some state' ↔
      slot.filled state = false ∧ (slot.fill state).ofJson v = .ok state' := by
  rw [take_eq_some_iff, entry, find?_slot hnames hslot]
  cases hfilled : slot.filled state <;> simp [hfilled]

theorem find?_of_not_mem {name : String} (h : name ∉ layout.names) :
    (layout.slots.find? fun slot => slot.name = name) = none := by
  refine List.find?_eq_none.2 fun slot hslot hname => h ?_
  exact List.mem_map.2 ⟨slot, hslot, by simpa using hname⟩

theorem take_of_not_mem (hothers : layout.others = none) {state : σ} {field : String × Json}
    (h : field.1 ∉ layout.names) : layout.take state field = none := by
  simp only [take, entry, find?_of_not_mem h, hothers]

theorem take_other {keep : σ → String → Shape σ} (hothers : layout.others = some keep)
    {state : σ} {name : String} (h : name ∉ layout.names) (v : Json) :
    layout.take state (name, v) = ((keep state name).ofJson v).toOption := by
  simp only [take, entry, find?_of_not_mem h, hothers]

theorem ofFields_eq_ok_iff {state state' : σ} {fields : Fields} :
    layout.ofFields state fields = .ok state' ↔ fields.foldlM layout.take state = some state' := by
  induction fields generalizing state with
  | nil => simp [ofFields]
  | cons field fields ih =>
    obtain ⟨name, v⟩ := field
    rw [ofFields, List.foldlM_cons, take]
    cases layout.entry state name with
    | error m => simp
    | ok shape =>
      cases h : shape.ofJson v with
      | error m => simp [Except.toOption, h]
      | ok state₁ => simpa [Except.toOption, h] using ih

theorem ofObject_eq_ok_iff {fields : Fields} {a : α} :
    layout.ofObject fields = .ok a ↔
      ∃ state, fields.foldlM layout.take layout.empty = some state ∧
        layout.finish state = .ok a := by
  simp only [← ofFields_eq_ok_iff, ofObject]
  cases layout.ofFields layout.empty fields <;> simp

/-- The shape of every field is faithful. -/
def Faithful (layout : Layout σ α) : Prop :=
  ∀ ⦃state : σ⦄ ⦃name : String⦄ ⦃shape : Shape σ⦄, layout.entry state name = .ok shape →
    shape.Faithful

theorem entry_eq_ok {state : σ} {name : String} {shape : Shape σ}
    (h : layout.entry state name = .ok shape) :
    (∃ slot ∈ layout.slots, slot.name = name ∧ shape = slot.fill state) ∨
      ∃ keep ∈ layout.others, shape = keep state name := by
  rw [entry] at h
  split at h
  · next slot hslot =>
    split_ifs at h
    cases h
    have hname : slot.name = name := by simpa using List.find?_some hslot
    exact .inl ⟨slot, List.mem_of_find?_eq_some hslot, hname, rfl⟩
  · split at h
    · next keep hkeep =>
      cases h
      exact .inr ⟨keep, hkeep, rfl⟩
    · cases h

theorem faithful_of_slots (hslots : ∀ slot ∈ layout.slots, ∀ state, (slot.fill state).Faithful)
    (hothers : ∀ keep ∈ layout.others, ∀ state name, (keep state name).Faithful) :
    layout.Faithful := by
  intro state name shape h
  rcases entry_eq_ok h with ⟨slot, hslot, -, rfl⟩ | ⟨keep, hkeep, rfl⟩
  · exact hslots slot hslot state
  · exact hothers keep hkeep state name

theorem Faithful.entriesTake (h : layout.Faithful) (depth : Nat) :
    EntriesTake (valueReader depth)
      (fun state name => (layout.entry state name).map fun shape => shape.read depth)
      layout.take := by
  intro state state' name u w
  simp only [take_eq_some_iff, map_eq_ok]
  constructor
  · rintro ⟨_, ⟨shape, hshape, rfl⟩, hrun⟩
    obtain ⟨v, hv, hof⟩ := (h hshape depth).1 hrun
    exact ⟨v, hv, shape, hshape, hof⟩
  · rintro ⟨v, hv, shape, hshape, hof⟩
    exact ⟨shape.read depth, ⟨shape, hshape, rfl⟩, (h hshape depth).2 ⟨v, hv, hof⟩⟩

theorem takeObject_eq_ok {depth : Nat} {s r : List Char} {a : α} :
    layout.takeObject depth s = .ok (a, r) ↔
      ∃ state, readFields (fun state name => (layout.entry state name).map fun shape =>
        shape.read depth) true layout.empty s = .ok (state, r) ∧ layout.finish state = .ok a := by
  rw [takeObject]
  constructor
  · intro h
    split at h
    · cases h
    · next state t ht =>
      split at h
      · cases h
      · next hfinish =>
        cases h
        exact ⟨state, ht, hfinish⟩
  · rintro ⟨state, hstate, hfinish⟩
    simp only [hstate, hfinish]

theorem Faithful.takeObject_eq_ok_iff (h : layout.Faithful) {depth : Nat} {s r : List Char}
    {a : α} :
    layout.takeObject depth s = .ok (a, r) ↔
      ∃ fields, ReadsFields (valueReader depth) true s fields r ∧
        layout.ofObject fields = .ok a := by
  simp only [takeObject_eq_ok, readFields_eq_ok_iff (h.entriesTake depth), ofObject_eq_ok_iff]
  constructor
  · rintro ⟨state, ⟨fields, hfields, hfold⟩, hfinish⟩
    exact ⟨fields, hfields, state, hfold, hfinish⟩
  · rintro ⟨fields, hfields, state, hfold, hfinish⟩
    exact ⟨state, ⟨fields, hfields, hfold⟩, hfinish⟩

end Layout

theorem Shape.Faithful.record {layout : Layout σ α} (h : layout.Faithful) :
    (Shape.record layout).Faithful := by
  refine faithful_of_take
    (fun _ => ⟨length_takeBracketed (by simp) Layout.length_takeObject, rfl⟩)
    fun {depth c s r a} _ => ?_
  rw [takeBracketed_eq_ok_iff]
  constructor
  · rintro ⟨hc, d, hd, ha⟩
    obtain ⟨fields, hfields, hof⟩ := h.takeObject_eq_ok_iff.1 ha
    exact ⟨.object fields, takeValue_eq_object_iff.2 ⟨hc, d, hd, hfields⟩, hof⟩
  · rintro ⟨v, hv, ha⟩
    cases v with
    | object fields =>
      obtain ⟨hc, d, hd, hfields⟩ := takeValue_eq_object_iff.1 hv
      exact ⟨hc, d, hd, h.takeObject_eq_ok_iff.2 ⟨fields, hfields, ha⟩⟩
    | _ => cases ha

/-! ### Whole texts -/

theorem Reader.parse_eq_ok_iff {reader : Reader α} {text : String} {a : α} :
    reader.parse text = .ok a ↔
      ∃ r, reader.run text.toList = .ok (a, r) ∧ expectEnd r = .ok () := by
  rw [Reader.parse, mapError_eq_ok, Reader.whole]
  cases reader.run text.toList with
  | error e => simp
  | ok p =>
    obtain ⟨b, r⟩ := p
    cases h : expectEnd r <;> simp [h]

/-- **A faithful shape reads off a whole text what it takes from the value of the text.** -/
theorem Shape.Faithful.parse_eq_ok_iff {shape : Shape α} (h : shape.Faithful) {text : String}
    {a : α} :
    shape.parse text = .ok a ↔
      ∃ v, (valueReader maxDepth).parse text = .ok v ∧ shape.ofJson v = .ok a := by
  simp only [Shape.parse, Reader.parse_eq_ok_iff]
  constructor
  · rintro ⟨r, hr, hend⟩
    obtain ⟨v, hv, ha⟩ := (h maxDepth).1 hr
    exact ⟨v, ⟨r, hv, hend⟩, ha⟩
  · rintro ⟨v, ⟨r, hv, hend⟩, ha⟩
    exact ⟨r, (h maxDepth).2 ⟨v, hv, ha⟩, hend⟩

end Json

end EventTaxonomy
