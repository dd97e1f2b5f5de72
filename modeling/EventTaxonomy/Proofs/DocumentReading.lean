import EventTaxonomy.Proofs.ReadValues
import EventTaxonomy.RuleDocument

/-!
# Rule documents of texts

Reading a rule document off a text comes down to taking it from the value of the text. The shape of
an entry is faithful (`RuleEntry.faithful_shape`): it is a record of several kinds, and the check of
its fields comes only when all of it is read. The shape of a document is not, for two reasons. It
may be written as a list of its fields, and a platform may be written as an object, where the text
and the value are not read alike.

Away from these, text and value agree. `Shape.AgreesAt` says so for one value, whatever room there
was to read it in, and `RuleDocument.agreesAt_shape` proves it for the objects in which the platform
is no object.

One direction holds always: a document that is read off a text can be taken from the value of the
text. A shape for which this holds is `Backed`, and that of documents is one
(`RuleDocument.backed_shape`).
-/

namespace EventTaxonomy

open Json (Shape Layout)

namespace Json

variable {α β κ σ : Type}

/-! ### Records of several kinds -/

theorem items_cases {reader : Reader α} {first : Bool} {s r : List Char} {as : List α}
    (h : reader.items first s = .ok (as, r)) :
    nextItem first s = .ok (.done r) ∧ as = [] ∨
      ∃ p a t bs, nextItem first s = .ok (.item p) ∧ reader.run p = .ok (a, t) ∧
        reader.items false t = .ok (bs, r) ∧ as = a :: bs := by
  rw [Reader.items] at h
  split at h
  · cases h
  · next t ht =>
    cases h
    exact .inl ⟨ht, rfl⟩
  · next p hp =>
    split at h
    · cases h
    · next a t ht =>
      split at h
      · cases h
      · next bs u hbs =>
        cases h
        exact .inr ⟨p, a, t, bs, hp, ht, hbs, rfl⟩

namespace Shape

theorem takeBracketed_some_eq_ok_iff {wanted : Wanted}
    {list object : Nat → List Char → Except Fault (α × List Char)} {depth : Nat} {c : Char}
    {s r : List Char} {a : α} :
    takeBracketed wanted (some list) object depth c s = .ok (a, r) ↔
      (c = '{' ∧ ∃ d, depth = d + 1 ∧ object d s = .ok (a, r)) ∨
        (c = '[' ∧ ∃ d, depth = d + 1 ∧ list d s = .ok (a, r)) := by
  unfold takeBracketed
  dsimp only
  split_ifs with hc hb
  · cases depth <;> simp [hc]
  · cases depth <;> simp [hb]
  · simp [hc, hb]

theorem takeTaggedList_eq_ok_iff {kind : Shape κ} (h : kind.Faithful) (description tag : String)
    {depth : Nat} {s r : List Char} {x : κ × Json} :
    takeTaggedList tag kind depth s = .ok (x, r) ↔
      ∃ items, (valueReader depth).items true s = .ok (items, r) ∧
        (tagged description tag kind).ofJson (.array items) = .ok x := by
  constructor
  · intro hx
    unfold takeTaggedList at hx
    split at hx
    · cases hx
    · cases hx
    · next p hp =>
      split at hx
      · cases hx
      · next k t hk =>
        obtain ⟨⟨items, u⟩, hitems, he⟩ := map_eq_ok.1 hx
        cases he
        obtain ⟨v, hv, hof⟩ := (h depth).1 hk
        exact ⟨v :: items, items_of_item hp hv hitems, map_eq_ok.2 ⟨k, hof, rfl⟩⟩
  · rintro ⟨items, hitems, hx⟩
    rcases items_cases hitems with ⟨-, rfl⟩ | ⟨p, v, t, vs, hp, hv, hvs, rfl⟩
    · cases hx
    · obtain ⟨k, hof, rfl⟩ := map_eq_ok.1 hx
      have hk := (h depth).2 ⟨v, hv, hof⟩
      simp only [takeTaggedList, hp, hk]
      exact map_eq_ok.2 ⟨(vs, r), hvs, rfl⟩

namespace Faithful

theorem choice (names : List (String × α)) : (Shape.choice names).Faithful :=
  scalar (by simp [unwanted]) (by simp [unwanted])

theorem andThen {shape : Shape α} (h : shape.Faithful) (check : α → Except Mismatch β) :
    (shape.andThen check).Faithful := by
  intro depth s r b
  simp only [Shape.andThen]
  constructor
  · intro hb
    split at hb
    · cases hb
    · next a t ht =>
      split at hb
      · cases hb
      · next hcheck =>
        cases hb
        obtain ⟨v, hv, hof⟩ := (h depth).1 ht
        exact ⟨v, hv, by simpa [hof] using hcheck⟩
  · rintro ⟨v, hv, hb⟩
    split at hb
    · cases hb
    · next a hof =>
      have ha := (h depth).2 ⟨v, hv, hof⟩
      simp only [ha, hb]

theorem tagged {kind : Shape κ} (h : kind.Faithful) (description tag : String) :
    (Shape.tagged description tag kind).Faithful := by
  -- besides the kind, fields are kept as values, and any value is read faithfully
  have hlayout : (taggedLayout description tag kind).Faithful := by
    refine Layout.faithful_of_slots ?_ ?_
    · simp only [taggedLayout, List.forall_mem_cons]
      exact ⟨fun _ => h.map _, by simp⟩
    · rintro keep ⟨⟩ state name
      exact .map .json _
  refine faithful_of_take
    (fun _ => ⟨length_takeBracketed (fun _ h => by cases h; exact length_takeTaggedList)
      Layout.length_takeObject, rfl⟩) fun {depth c s r x} _ => ?_
  rw [takeBracketed_some_eq_ok_iff]
  constructor
  · rintro (⟨hc, d, hd, hx⟩ | ⟨hc, d, hd, hx⟩)
    · obtain ⟨fields, hfields, hof⟩ := hlayout.takeObject_eq_ok_iff.1 hx
      exact ⟨.object fields, takeValue_eq_object_iff.2 ⟨hc, d, hd, hfields⟩, hof⟩
    · obtain ⟨items, hitems, hof⟩ := (takeTaggedList_eq_ok_iff h description tag).1 hx
      exact ⟨.array items, takeValue_eq_array_iff.2 ⟨hc, d, hd, hitems⟩, hof⟩
  · rintro ⟨v, hv, hx⟩
    cases v with
    | object fields =>
      obtain ⟨hc, d, hd, hfields⟩ := takeValue_eq_object_iff.1 hv
      exact .inl ⟨hc, d, hd, hlayout.takeObject_eq_ok_iff.2 ⟨fields, hfields, hx⟩⟩
    | array items =>
      obtain ⟨hc, d, hd, hitems⟩ := takeValue_eq_array_iff.1 hv
      exact .inr ⟨hc, d, hd, (takeTaggedList_eq_ok_iff h description tag).2 ⟨items, hitems, hx⟩⟩
    | _ => cases hx

end Faithful

/-! ### Agreement at a value -/

/-- Where the value stands in a text, the shape reads off the text what it takes from the value, if
there is room for the value. -/
structure AgreesAt (shape : Shape α) (v : Json) : Prop where
  ofJson_of_run : ∀ {room depth : Nat} {s r t : List Char} {a : α},
    (valueReader room).run s = .ok (v, r) → (shape.read depth).run s = .ok (a, t) →
      t = r ∧ shape.ofJson v = .ok a
  run_of_ofJson : ∀ {room depth : Nat} {s r : List Char} {a : α},
    (valueReader room).run s = .ok (v, r) → v.depth ≤ depth → shape.ofJson v = .ok a →
      (shape.read depth).run s = .ok (a, r)

theorem Faithful.agreesAt {shape : Shape α} (h : shape.Faithful) (v : Json) :
    shape.AgreesAt v where
  ofJson_of_run {room depth s r t a} hv ha := by
    obtain ⟨w, hw, hof⟩ := (h depth).1 ha
    obtain ⟨rfl, rfl⟩ := run_unique hv hw
    exact ⟨rfl, hof⟩
  run_of_ofJson {room depth s r a} hv hroom hof :=
    (h depth).2 ⟨v, run_of_depth_le hv hroom, hof⟩

theorem AgreesAt.map {shape : Shape α} {v : Json} (h : shape.AgreesAt v) (f : α → β) :
    (shape.map f).AgreesAt v where
  ofJson_of_run hv hb := by
    obtain ⟨⟨a, t⟩, ha, he⟩ := map_eq_ok.1 hb
    cases he
    obtain ⟨rfl, hof⟩ := h.ofJson_of_run hv ha
    exact ⟨rfl, map_eq_ok.2 ⟨a, hof, rfl⟩⟩
  run_of_ofJson {room depth s r b} hv hroom hof := by
    obtain ⟨a, ha, rfl⟩ := map_eq_ok.1 hof
    exact map_eq_ok.2 ⟨(a, r), h.run_of_ofJson hv hroom ha, rfl⟩

theorem takeScalar_eq_string {c : Char} {s r : List Char} {v : Json}
    (h : takeScalar (c :: s) = .ok (v, r)) : c = '"' ↔ ∃ text, v = .string text := by
  rw [takeScalar] at h
  split_ifs at h
  all_goals
    obtain ⟨_, -, he⟩ := map_eq_ok.1 h
    cases he
    simp [*]

/-- The first character of a value tells whether it is a string or an object. -/
theorem first_of_run {room : Nat} {s r : List Char} {v : Json}
    (h : (valueReader room).run s = .ok (v, r)) :
    ∃ c p, skipBlanks s = c :: p ∧ (valueReader room).run (c :: p) = .ok (v, r) ∧
      (c = '"' ↔ ∃ text, v = .string text) ∧ (c = '{' ↔ ∃ fields, v = .object fields) := by
  obtain ⟨c, p, hs, hv⟩ := run_valueReader_eq_ok.1 h
  refine ⟨c, p, hs, (run_valueReader_cons_eq_ok (skipBlanks_of_skipBlanks_eq hs)).2 hv, ?_⟩
  rcases takeValue_cases hv with
    ⟨_, items, rfl, _, _, rfl⟩ | ⟨_, fields, rfl, _, _, rfl⟩ | ⟨_, hc, hscalar⟩
  · simp
  · simp
  · have hobject := (takeScalar_eq_ok hscalar).2.2
    exact ⟨takeScalar_eq_string hscalar, by simp [hc, hobject]⟩

/-- An alternative that is not written as an object is written as its name. -/
theorem AgreesAt.variant (names : List (String × α)) {v : Json}
    (hobject : ∀ fields, v ≠ .object fields) : (Shape.variant names).AgreesAt v where
  ofJson_of_run {room depth s r t a} hv ha := by
    obtain ⟨c, p, hs, hrun, hquote, hbrace⟩ := first_of_run hv
    obtain ⟨_, _, hs', ha⟩ := (run_startingWith_eq_ok length_takeVariant).1 ha
    cases hs.symm.trans hs'
    -- the reader goes by the first character, and so a name is not taken for an object
    unfold takeVariant at ha
    split_ifs at ha with hc hc'
    · obtain ⟨rfl, hof⟩ := ((Faithful.choice names).agreesAt v).ofJson_of_run hrun ha
      obtain ⟨text, rfl⟩ := hquote.1 hc
      exact ⟨rfl, hof⟩
    · obtain ⟨fields, rfl⟩ := hbrace.1 hc'
      exact absurd rfl (hobject fields)
  run_of_ofJson {room depth s r a} hv hroom hof := by
    obtain ⟨c, p, hs, hrun, hquote, -⟩ := first_of_run hv
    refine (run_startingWith_eq_ok length_takeVariant).2 ⟨c, p, hs, ?_⟩
    cases v with
    | string text =>
      rw [takeVariant.eq_def, if_pos (hquote.2 ⟨text, rfl⟩)]
      exact ((Faithful.choice names).agreesAt _).run_of_ofJson hrun hroom hof
    | object fields => exact absurd rfl (hobject fields)
    | _ => cases hof

end Shape

/-! ### Objects field by field -/

theorem readFields_cases {entry : σ → String → Except Mismatch (Reader σ)} {first : Bool}
    {state state' : σ} {s t r : List Char} {name : String}
    (hn : nextKey first s = .ok (.key name t))
    (h : readFields entry first state s = .ok (state', r)) :
    ∃ value u state₁ w, entry state name = .ok value ∧ takeColon t = .ok u ∧
      value.run u = .ok (state₁, w) ∧ readFields entry false state₁ w = .ok (state', r) := by
  rw [readFields] at h
  split at h
  · cases h
  · next hn' => cases hn.symm.trans hn'
  · next hn' =>
    cases hn.symm.trans hn'
    split at h
    · cases h
    · next value hvalue =>
      split at h
      · cases h
      · next u hu =>
        split at h
        · cases h
        · next state₁ w hw => exact ⟨value, u, state₁, w, hvalue, hu, hw, h⟩

section Fields

variable {layout : Layout σ α} {room depth : Nat} {first : Bool} {s r t : List Char}
  {state state' : σ} {fields : Fields}

/-- What the layout reads at each field agrees with the value of the field. -/
def Layout.AgreesOn (layout : Layout σ α) (fields : Fields) : Prop :=
  ∀ field ∈ fields, ∀ ⦃state shape⦄, layout.entry state field.1 = .ok shape →
    shape.AgreesAt field.2

theorem ReadsFields.foldlM_take_of_readFields
    (h : ReadsFields (valueReader room) first s fields r) (hagrees : layout.AgreesOn fields)
    (hread : readFields (fun state name => (layout.entry state name).map fun shape =>
      shape.read depth) first state s = .ok (state', t)) :
    t = r ∧ fields.foldlM layout.take state = some state' := by
  induction h generalizing state with
  | done hn =>
    rw [readFields_of_done hn] at hread
    cases hread
    exact ⟨rfl, rfl⟩
  | field hn hc hv _ ih =>
    obtain ⟨hfield, hrest⟩ := List.forall_mem_cons.1 hagrees
    obtain ⟨_, u, state₁, w, hentry, hc', hw, hread⟩ := readFields_cases hn hread
    cases hc.symm.trans hc'
    obtain ⟨shape, hshape, rfl⟩ := map_eq_ok.1 hentry
    obtain ⟨rfl, hof⟩ := (hfield hshape).ofJson_of_run hv hw
    obtain ⟨rfl, hfold⟩ := ih hrest hread
    refine ⟨rfl, ?_⟩
    rw [List.foldlM_cons, Layout.take_eq_some_iff.2 ⟨shape, hshape, hof⟩]
    exact hfold

theorem ReadsFields.readFields_of_foldlM_take
    (h : ReadsFields (valueReader room) first s fields r) (hagrees : layout.AgreesOn fields)
    (hroom : ∀ field ∈ fields, field.2.depth ≤ depth)
    (hfold : fields.foldlM layout.take state = some state') :
    readFields (fun state name => (layout.entry state name).map fun shape => shape.read depth)
      first state s = .ok (state', r) := by
  induction h generalizing state with
  | done hn =>
    cases hfold
    exact readFields_of_done hn
  | field hn hc hv _ ih =>
    obtain ⟨hfield, hrest⟩ := List.forall_mem_cons.1 hagrees
    obtain ⟨hroomfield, hroomrest⟩ := List.forall_mem_cons.1 hroom
    rw [List.foldlM_cons] at hfold
    obtain ⟨state₁, htake, hfold⟩ := Option.bind_eq_some_iff.1 hfold
    obtain ⟨shape, hshape, hof⟩ := Layout.take_eq_some_iff.1 htake
    have hrun := (hfield hshape).run_of_ofJson hv hroomfield hof
    rw [readFields_of_key hn (map_eq_ok.2 ⟨shape, hshape, rfl⟩) hc hrun]
    exact ih hrest hroomrest hfold

end Fields

namespace Shape

theorem run_positional_eq_ok_iff {layout : Layout σ α} {depth : Nat} {s r : List Char} {a : α} :
    ((positional layout).read depth).run s = .ok (a, r) ↔
      ∃ c p, skipBlanks s = c :: p ∧
        ((c = '{' ∧ ∃ d, depth = d + 1 ∧ layout.takeObject d p = .ok (a, r)) ∨
          (c = '[' ∧ ∃ d, depth = d + 1 ∧ layout.takeList d p = .ok (a, r))) := by
  have hlen : ∀ {c s r} {a : α}, takeBracketed (.record layout.description) (some layout.takeList)
      layout.takeObject depth c s = .ok (a, r) → r.length ≤ s.length :=
    length_takeBracketed (fun _ h => by cases h; exact Layout.length_takeList)
      Layout.length_takeObject
  refine (run_startingWith_eq_ok hlen).trans ?_
  simp only [takeBracketed_some_eq_ok_iff]

theorem run_positional_object {layout : Layout σ α} {depth : Nat} {s p r : List Char} {a : α}
    (hs : skipBlanks s = '{' :: p) :
    ((positional layout).read depth).run s = .ok (a, r) ↔
      ∃ d, depth = d + 1 ∧ layout.takeObject d p = .ok (a, r) := by
  rw [run_positional_eq_ok_iff, hs]
  simp

/-- A record that is written as an object agrees if its fields do. -/
theorem AgreesAt.positional {layout : Layout σ α} {fields : Fields}
    (hagrees : layout.AgreesOn fields) : (Shape.positional layout).AgreesAt (.object fields) where
  ofJson_of_run {room depth s r t a} hv ha := by
    obtain ⟨c, p, hs, hv⟩ := run_valueReader_eq_ok.1 hv
    obtain ⟨rfl, inner, -, hfields⟩ := takeValue_eq_object_iff.1 hv
    obtain ⟨d, -, ha⟩ := (run_positional_object hs).1 ha
    obtain ⟨state, hread, hfinish⟩ := Layout.takeObject_eq_ok.1 ha
    obtain ⟨rfl, hfold⟩ := hfields.foldlM_take_of_readFields hagrees hread
    exact ⟨rfl, Layout.ofObject_eq_ok_iff.2 ⟨state, hfold, hfinish⟩⟩
  run_of_ofJson {room depth s r a} hv hroom hof := by
    obtain ⟨c, p, hs, hv⟩ := run_valueReader_eq_ok.1 hv
    obtain ⟨rfl, inner, -, hfields⟩ := takeValue_eq_object_iff.1 hv
    obtain ⟨state, hfold, hfinish⟩ := Layout.ofObject_eq_ok_iff.1 hof
    cases depth with
    | zero => cases hroom
    | succ d =>
      have hdepth := depthFields_le_iff.1 (Nat.le_of_succ_le_succ hroom)
      have hread := hfields.readFields_of_foldlM_take hagrees hdepth hfold
      exact (run_positional_object hs).2
        ⟨d, rfl, Layout.takeObject_eq_ok.2 ⟨state, hread, hfinish⟩⟩

/-- What is read off a whole text is taken from its value, and the other way round if the reader has
the room for the value. -/
theorem AgreesAt.parse {shape : Shape α} {v : Json} (h : shape.AgreesAt v) {room : Nat}
    {text : String} (hv : (valueReader room).parse text = .ok v) {a : α} :
    (shape.parse text = .ok a → shape.ofJson v = .ok a) ∧
      (v.depth ≤ maxDepth → shape.ofJson v = .ok a → shape.parse text = .ok a) := by
  obtain ⟨r, hrun, hend⟩ := Reader.parse_eq_ok_iff.1 hv
  constructor
  · intro ha
    obtain ⟨t, ht, -⟩ := Reader.parse_eq_ok_iff.1 ha
    exact (h.ofJson_of_run hrun ht).2
  · intro hroom hof
    exact Reader.parse_eq_ok_iff.2 ⟨r, h.run_of_ofJson hrun hroom hof, hend⟩

end Shape

/-! ### Data that is read is in the value -/

/-- What is read off a text is taken from the value of the text. -/
def Shape.Backed (shape : Shape α) : Prop :=
  ∀ ⦃depth : Nat⦄ ⦃s r : List Char⦄ ⦃a : α⦄, (shape.read depth).run s = .ok (a, r) →
    ∃ v, (valueReader depth).run s = .ok (v, r) ∧ shape.ofJson v = .ok a

theorem nextItem_of_closeList {s r : List Char} (h : closeList s = .ok r) (first : Bool) :
    nextItem first s = .ok (.done r) := by
  unfold closeList at h
  unfold nextItem
  cases hs : skipBlanks s with
  | nil =>
    rw [hs] at h
    cases h
  | cons c t =>
    rw [hs] at h
    dsimp only at h ⊢
    split_ifs at h with hc
    · cases h
      rw [if_pos hc]
    · split at h <;> cases h

namespace Layout

variable {layout : Layout σ α}

theorem finishPositions_eq_ok_iff {state : σ} {count : Nat} {a : α} :
    layout.finishPositions state count = .ok a ↔ layout.finish state = .ok a := by
  unfold finishPositions
  split
  · next h => simp [h]
  · rfl

theorem takeList_eq_ok_iff {depth : Nat} {s r : List Char} {a : α} :
    layout.takeList depth s = .ok (a, r) ↔
      ∃ state count, takePositions depth true layout.empty 0 s layout.slots =
        .ok ((state, count), r) ∧ layout.finish state = .ok a := by
  unfold takeList
  constructor
  · intro h
    split at h
    · cases h
    · next state count t ht =>
      split at h
      · cases h
      · next hfinish =>
        cases h
        exact ⟨state, count, ht, finishPositions_eq_ok_iff.1 hfinish⟩
  · rintro ⟨state, count, hread, hfinish⟩
    simp only [hread, finishPositions_eq_ok_iff.2 hfinish]

theorem ofList_eq_ok_iff {items : List Json} {a : α} :
    layout.ofList items = .ok a ↔
      items.length ≤ layout.slots.length ∧ ∃ state,
        ofPositions layout.empty layout.slots items = .ok state ∧ layout.finish state = .ok a := by
  unfold ofList
  constructor
  · intro h
    split at h
    · cases h
    · next state hstate =>
      split at h
      · cases h
      · next hfinish =>
        split_ifs at h with hlen
        cases h
        exact ⟨Nat.le_of_not_lt hlen, state, hstate, finishPositions_eq_ok_iff.1 hfinish⟩
  · rintro ⟨hlen, state, hstate, hfinish⟩
    simp only [hstate, finishPositions_eq_ok_iff.2 hfinish, if_neg (Nat.not_lt.2 hlen)]

theorem exists_items_of_takePositions {depth : Nat} {slots : List (Slot σ)}
    (hslots : ∀ slot ∈ slots, ∀ state, (slot.fill state).Backed) {first : Bool}
    {state state' : σ} {count count' : Nat} {s r : List Char}
    (h : takePositions depth first state count s slots = .ok ((state', count'), r)) :
    ∃ items, (valueReader depth).items first s = .ok (items, r) ∧
      items.length ≤ slots.length ∧ ofPositions state slots items = .ok state' := by
  induction slots generalizing first state count s with
  | nil =>
    obtain ⟨t, ht, he⟩ := map_eq_ok.1 h
    cases he
    exact ⟨[], items_of_done (nextItem_of_closeList ht first), le_rfl, rfl⟩
  | cons slot slots ih =>
    obtain ⟨hslot, hrest⟩ := List.forall_mem_cons.1 hslots
    rw [takePositions] at h
    split at h
    · cases h
    · next t ht =>
      cases h
      exact ⟨[], items_of_done ht, Nat.zero_le _, rfl⟩
    · next p hp =>
      split at h
      · cases h
      · next state₁ t ht =>
        obtain ⟨v, hv, hof⟩ := hslot state ht
        obtain ⟨items, hitems, hlen, hpositions⟩ := ih hrest h
        refine ⟨v :: items, items_of_item hp hv hitems, Nat.succ_le_succ hlen, ?_⟩
        simpa only [ofPositions, hof] using hpositions

end Layout

namespace Shape

theorem takeCase_eq_ok {names : List (String × α)} {depth : Nat} {s r : List Char} {a : α}
    (h : takeCase names depth s = .ok (a, r)) :
    ∃ t u w, ((choice names).read depth).run s = .ok (a, t) ∧ takeColon t = .ok u ∧
      (unit.read depth).run u = .ok ((), w) ∧ skipBlanks w = '}' :: r := by
  unfold takeCase at h
  split at h
  · cases h
  · next b t ht =>
    split at h
    · cases h
    · next u hu =>
      split at h
      · cases h
      · next w hw =>
        split at h
        · cases h
        · next c v hv =>
          split_ifs at h with hc
          cases h
          exact ⟨t, u, w, ht, hu, hw, hc ▸ hv⟩

/-- A key is read as a string is. -/
theorem nextKey_of_run {depth : Nat} {s p t : List Char} {name : String}
    (hs : skipBlanks s = '"' :: p)
    (h : (valueReader depth).run ('"' :: p) = .ok (.string name, t)) :
    nextKey true s = .ok (.key name t) := by
  have hv := (run_valueReader_cons_eq_ok (skipBlanks_of_skipBlanks_eq hs)).1 h
  rw [takeValue_of_ne (by decide) (by decide)] at hv
  obtain ⟨⟨cs, u⟩, hcs, he⟩ := map_eq_ok.1 hv
  cases he
  rw [nextKey, hs]
  exact map_eq_ok.2 ⟨(cs, t), hcs, rfl⟩

/-- An alternative that is written as an object is the only key of it. -/
theorem readsFields_of_takeOnlyCase {names : List (String × α)} {depth : Nat} {s r : List Char}
    {a : α} (h : takeOnlyCase names depth s = .ok (a, r)) :
    ∃ name, ReadsFields (valueReader depth) true s [(name, .null)] r ∧
      named names name = .ok a := by
  unfold takeOnlyCase at h
  split at h
  · cases h
  · next c p hs =>
    split_ifs at h with hc
    subst hc
    obtain ⟨t, u, w, ht, hu, hw, hend⟩ := takeCase_eq_ok h
    obtain ⟨v, hv, hof⟩ := (Faithful.choice names depth).1 ht
    obtain ⟨payload, hpayload, hunit⟩ := (Faithful.unit depth).1 hw
    cases v with
    | string name =>
      cases payload with
      | null =>
        have hdone : nextKey false w = .ok (.done r) := by rw [nextKey, hend]; rfl
        exact ⟨name, .field (nextKey_of_run hs hv) hu hpayload (.done hdone), hof⟩
      | _ => cases hunit
    | _ => cases hof

namespace Backed

theorem of_faithful {shape : Shape α} (h : shape.Faithful) : shape.Backed :=
  fun depth _ _ _ ha => (h depth).1 ha

theorem map {shape : Shape α} (h : shape.Backed) (f : α → β) : (shape.map f).Backed := by
  intro depth s r b hb
  obtain ⟨⟨a, t⟩, ha, he⟩ := map_eq_ok.1 hb
  cases he
  obtain ⟨v, hv, hof⟩ := h ha
  exact ⟨v, hv, map_eq_ok.2 ⟨a, hof, rfl⟩⟩

theorem variant (names : List (String × α)) : (Shape.variant names).Backed := by
  intro depth s r a ha
  obtain ⟨c, p, hs, ha⟩ := (run_startingWith_eq_ok length_takeVariant).1 ha
  unfold takeVariant at ha
  split_ifs at ha with hc hc'
  · obtain ⟨v, hv, hof⟩ := (Faithful.choice names depth).1 ha
    have hv := (run_valueReader_cons_eq_ok (skipBlanks_of_skipBlanks_eq hs)).1 hv
    refine ⟨v, run_valueReader_eq_ok.2 ⟨c, p, hs, hv⟩, ?_⟩
    cases v with
    | string name => exact hof
    | _ => cases hof
  · cases depth with
    | zero => cases ha
    | succ d =>
      obtain ⟨name, hfields, hname⟩ := readsFields_of_takeOnlyCase ha
      have hv := takeValue_eq_object_iff.2 ⟨hc', d, rfl, hfields⟩
      refine ⟨_, run_valueReader_eq_ok.2 ⟨c, p, hs, hv⟩, ?_⟩
      simp only [Shape.variant, hname]

/-- A record is backed if its fields are, also when it is written as a list. -/
theorem positional {layout : Layout σ α} (hslots : ∀ slot ∈ layout.slots, ∀ state,
    (slot.fill state).Backed) (hothers : layout.others = none) :
    (Shape.positional layout).Backed := by
  intro depth s r a ha
  obtain ⟨c, p, hs, ha⟩ := run_positional_eq_ok_iff.1 ha
  have hbacked : ∃ v, takeValue (innerReader depth) c p = .ok (v, r) ∧
      (Shape.positional layout).ofJson v = .ok a := by
    rcases ha with ⟨hc, d, hd, ha⟩ | ⟨hc, d, hd, ha⟩
    · obtain ⟨state, hread, hfinish⟩ := Layout.takeObject_eq_ok.1 ha
      have hentry : ∀ ⦃state state' name value u w⦄,
          (layout.entry state name).map (fun shape => shape.read d) = .ok value →
          value.run u = .ok (state', w) → ∃ v, (valueReader d).run u = .ok (v, w) ∧
            layout.take state (name, v) = some state' := by
        intro state state' name value u w he hw
        obtain ⟨shape, hshape, rfl⟩ := map_eq_ok.1 he
        rcases Layout.entry_eq_ok hshape with ⟨slot, hslot, -, rfl⟩ | ⟨keep, hkeep, -⟩
        · obtain ⟨v, hv, hof⟩ := hslots slot hslot state hw
          exact ⟨v, hv, Layout.take_eq_some_iff.2 ⟨_, hshape, hof⟩⟩
        · rw [hothers] at hkeep
          cases hkeep
      obtain ⟨fields, hfields, hfold⟩ := exists_readsFields_of_readFields hentry hread
      exact ⟨.object fields, takeValue_eq_object_iff.2 ⟨hc, d, hd, hfields⟩,
        Layout.ofObject_eq_ok_iff.2 ⟨state, hfold, hfinish⟩⟩
    · obtain ⟨state, count, hread, hfinish⟩ := Layout.takeList_eq_ok_iff.1 ha
      obtain ⟨items, hitems, hle, hstate⟩ := Layout.exists_items_of_takePositions hslots hread
      exact ⟨.array items, takeValue_eq_array_iff.2 ⟨hc, d, hd, hitems⟩,
        Layout.ofList_eq_ok_iff.2 ⟨hle, state, hstate, hfinish⟩⟩
  obtain ⟨v, hv, hof⟩ := hbacked
  exact ⟨v, run_valueReader_eq_ok.2 ⟨c, p, hs, hv⟩, hof⟩

/-- What is read off a whole text is taken from its value. -/
theorem parse {shape : Shape α} (h : shape.Backed) {text : String} {a : α}
    (ha : shape.parse text = .ok a) :
    ∃ v, (valueReader maxDepth).parse text = .ok v ∧ shape.ofJson v = .ok a := by
  obtain ⟨r, hrun, hend⟩ := Reader.parse_eq_ok_iff.1 ha
  obtain ⟨v, hv, hof⟩ := h hrun
  exact ⟨v, Reader.parse_eq_ok_iff.2 ⟨r, hv, hend⟩, hof⟩

end Backed

end Shape

end Json

/-! ### Rule documents -/

theorem RuleEntry.faithful_shape : RuleEntry.shape.Faithful :=
  .andThen (.tagged (.choice kinds) _ _) _

/-- **A rule document that is written as an object is that of the value of its text**, unless the
platform is an object. -/
theorem RuleDocument.agreesAt_shape {fields : Fields}
    (hplatform : ∀ field ∈ fields, field.1 = "platform" → ∀ inner, field.2 ≠ .object inner) :
    RuleDocument.shape.AgreesAt (.object fields) := by
  refine .positional fun field hfield state shape hentry => ?_
  rcases Layout.entry_eq_ok hentry with ⟨slot, hslot, hname, rfl⟩ | ⟨keep, hkeep, -⟩
  · simp only [layout, List.mem_cons, List.not_mem_nil, or_false] at hslot
    rcases hslot with rfl | rfl | rfl
    · exact .map (.variant _ (hplatform field hfield hname.symm)) _
    · exact (Shape.Faithful.nullable .string).agreesAt _ |>.map _
    · exact (Shape.Faithful.list RuleEntry.faithful_shape).agreesAt _ |>.map _
  · cases hkeep

/-- A rule document is taken from the value of its text, whatever way it is written. -/
theorem RuleDocument.backed_shape : RuleDocument.shape.Backed := by
  refine .positional ?_ rfl
  intro slot hslot state
  simp only [layout, List.mem_cons, List.not_mem_nil, or_false] at hslot
  rcases hslot with rfl | rfl | rfl
  · exact .map (.variant _) _
  · exact .map (.of_faithful (.nullable .string)) _
  · exact .map (.of_faithful (.list RuleEntry.faithful_shape)) _

end EventTaxonomy
