import EventTaxonomy.Json.Reader

/-!
# Shapes of documents

A `Shape` describes data that a document may hold, and gets at it in two ways: straight from a
text, checking each part as it is met (`Shape.read`), or from a value that is already read
(`Shape.ofJson`). Only the first one knows places; only the second takes an empty object for the
`null` of a `variant`.

A record is described once, by a `Layout`: its fields in order, what becomes of other keys, and
what the fields make together. `Shape.record` is the record written as an object;
`Shape.positional` may also be written as the list of its fields; `Shape.tagged` is a record of
several kinds that names its kind in a field.
-/

namespace EventTaxonomy

namespace Json

/-- Data that a document may hold. -/
structure Shape (α : Type) where
  /-- Reads the data off a text in which so many brackets may be opened. -/
  read : Nat → Reader α
  /-- The data of a value. -/
  ofJson : Json → Except Mismatch α

/-- What a value is found to be. -/
def found : Json → Found
  | .null => .null
  | .bool b => .bool b
  | .number n => .number n
  | .string s => .string s
  | .array _ => .sequence
  | .object _ => .map

/-- The value is not what is wanted. -/
def unwanted {α : Type} (wanted : Wanted) (v : Json) : Except Mismatch α :=
  .error (.invalidType v.found wanted)

/-- The fault of a text that goes on with a value that is not wanted: a value in brackets is
refused at its start, any other after its end. -/
def refusal (wanted : Wanted) (c : Char) (s : List Char) : Fault :=
  if c = '[' then .mismatchAt (.invalidType .sequence wanted) (c :: s)
  else if c = '{' then .mismatchAt (.invalidType .map wanted) (c :: s)
  else
    match takeScalar (c :: s) with
    | .error e => e
    | .ok (v, r) => .mismatchAt (.invalidType v.found wanted) r

namespace Shape

variable {α β : Type}

/-- Any value. -/
def json : Shape Json where
  read := valueReader
  ofJson := .ok

/-- The data under a function. -/
def map (f : α → β) (shape : Shape α) : Shape β where
  read depth := (shape.read depth).map f
  ofJson v := (shape.ofJson v).map f

/-- Reads a whole text. -/
def parse (shape : Shape α) (text : String) : Except ReadError α :=
  (shape.read maxDepth).parse text

/-! ### Scalars -/

/-- Takes a value without brackets, and checks it. -/
def takeChecked (wanted : Wanted) (check : Json → Except Mismatch α) (c : Char) (s : List Char) :
    Except Fault (α × List Char) :=
  if c = '[' || c = '{' then .error (refusal wanted c s)
  else
    match takeScalar (c :: s) with
    | .error e => .error e
    | .ok (v, r) =>
      match check v with
      | .error m => .error (.mismatchAt m r)
      | .ok a => .ok (a, r)

theorem length_takeChecked {wanted : Wanted} {check : Json → Except Mismatch α} {c : Char}
    {s r : List Char} {a : α} (h : takeChecked wanted check c s = .ok (a, r)) :
    r.length ≤ s.length := by
  unfold takeChecked at h
  split at h
  · simp at h
  · split at h
    · simp at h
    · next v t ht =>
      have := length_takeScalar ht
      split at h
      · simp at h
      · cases h
        simp only [List.length_cons] at this
        omega

/-- A value without brackets that passes a check. -/
def scalar (wanted : Wanted) (check : Json → Except Mismatch α) : Shape α where
  read _ := startingWith (takeChecked wanted check) length_takeChecked
  ofJson := check

/-- A string. -/
def string : Shape String :=
  scalar .string fun
    | .string s => .ok s
    | v => unwanted .string v

/-- A truth value. -/
def flag : Shape Bool :=
  scalar .boolean fun
    | .bool b => .ok b
    | v => unwanted .boolean v

/-- A natural number of one word. -/
def size : Shape Nat :=
  scalar .size fun
    | .number (.int (.ofNat n)) => .ok n
    | .number (.int n) => .error (.invalidValue (.number (.int n)) .size)
    | v => unwanted .size v

/-- Nothing. -/
def unit : Shape Unit :=
  scalar .unit fun
    | .null => .ok ()
    | v => unwanted .unit v

/-- One of several names. -/
def named (names : List (String × α)) (name : String) : Except Mismatch α :=
  match lookup name names with
  | some a => .ok a
  | none => .error (.unknownVariant name (names.map Prod.fst))

/-- The name of an alternative. -/
def choice (names : List (String × α)) : Shape α :=
  scalar .alternative fun
    | .string s => named names s
    | v => unwanted .alternative v

/-! ### Absent values and lists -/

/-- Takes `null`, or hands the text on. -/
def takeNullable (reader : Reader α) (c : Char) (s : List Char) :
    Except Fault (Option α × List Char) :=
  if c = 'n' then (takeLiteral ['u', 'l', 'l'] s).map fun r => (none, r)
  else (reader.run (c :: s)).map fun (a, r) => (some a, r)

theorem length_takeNullable {reader : Reader α} {c : Char} {s r : List Char} {a : Option α}
    (h : takeNullable reader c s = .ok (a, r)) : r.length ≤ s.length := by
  unfold takeNullable at h
  split at h
  · obtain ⟨t, ht, he⟩ := map_eq_ok.1 h
    have := length_takeLiteral ht
    cases he
    exact this
  · obtain ⟨⟨b, t⟩, ht, he⟩ := map_eq_ok.1 h
    have := reader.shortens ht
    cases he
    simp only [List.length_cons] at this
    omega

/-- The data, or `null`. -/
def nullable (shape : Shape α) : Shape (Option α) where
  read depth := startingWith (takeNullable (shape.read depth)) length_takeNullable
  ofJson
    | .null => .ok none
    | v => (shape.ofJson v).map some

/-- Takes a list. -/
def takeList (reader : Nat → Reader α) (depth : Nat) (c : Char) (s : List Char) :
    Except Fault (List α × List Char) :=
  if c = '[' then
    match depth with
    | 0 => .error (.next .tooDeep (c :: s))
    | depth + 1 => (reader depth).items true s
  else .error (refusal .sequence c s)

theorem length_takeList {reader : Nat → Reader α} {depth : Nat} {c : Char} {s r : List Char}
    {as : List α} (h : takeList reader depth c s = .ok (as, r)) : r.length ≤ s.length := by
  unfold takeList at h
  split at h
  · split at h
    · simp at h
    · have := Reader.length_items h
      omega
  · simp at h

/-- Each item of a list. -/
def ofItems (item : Json → Except Mismatch α) : List Json → Except Mismatch (List α)
  | [] => .ok []
  | v :: vs =>
    match item v with
    | .error m => .error m
    | .ok a =>
      match ofItems item vs with
      | .error m => .error m
      | .ok as => .ok (a :: as)

/-- A list. -/
def list (shape : Shape α) : Shape (List α) where
  read depth := startingWith (takeList shape.read depth) length_takeList
  ofJson
    | .array items => ofItems shape.ofJson items
    | v => unwanted .sequence v

/-! ### Alternatives -/

/-- Takes the rest of an alternative that is written as an object from its name to `null`. -/
def takeCase (names : List (String × α)) (depth : Nat) (s : List Char) :
    Except Fault (α × List Char) :=
  match ((choice names).read depth).run s with
  | .error e => .error e
  | .ok (a, r) =>
    match takeColon r with
    | .error e => .error e
    | .ok t =>
      match (unit.read depth).run t with
      | .error e => .error e
      | .ok ((), u) =>
        match skipBlanks u with
        | [] => .error (.here .endOfObject [])
        | c :: v => if c = '}' then .ok (a, v) else .error (.here .expectedValue (c :: v))

/-- Takes the rest of an object that is to hold an alternative: it needs a key. -/
def takeOnlyCase (names : List (String × α)) (depth : Nat) (s : List Char) :
    Except Fault (α × List Char) :=
  match skipBlanks s with
  | [] => .error (.here .endOfObject [])
  | c :: r =>
    if c = '"' then takeCase names depth (c :: r)
    else if c = '}' then .error (.next .expectedValue (c :: r))
    else .error (.next .keyNotString (c :: r))

/-- Takes an alternative: its name, or an object from its name to `null`. -/
def takeVariant (names : List (String × α)) (depth : Nat) (c : Char) (s : List Char) :
    Except Fault (α × List Char) :=
  if c = '"' then ((choice names).read depth).run (c :: s)
  else if c = '{' then
    match depth with
    | 0 => .error (.next .tooDeep (c :: s))
    | depth + 1 => takeOnlyCase names depth s
  else .error (.next .expectedValue (c :: s))

theorem length_takeCase {names : List (String × α)} {depth : Nat} {s r : List Char} {a : α}
    (h : takeCase names depth s = .ok (a, r)) : r.length ≤ s.length := by
  unfold takeCase at h
  split at h
  · simp at h
  · next b t ht =>
    have h1 := Reader.shortens _ ht
    split at h
    · simp at h
    · next u hu =>
      have h2 := length_takeColon hu
      split at h
      · simp at h
      · next v hv =>
        have h3 := Reader.shortens _ hv
        have h4 := length_skipBlanks v
        split at h
        · simp at h
        · next c w hw =>
          simp only [hw, List.length_cons] at h4
          split at h
          · cases h
            omega
          · simp at h

theorem length_takeOnlyCase {names : List (String × α)} {depth : Nat} {s r : List Char} {a : α}
    (h : takeOnlyCase names depth s = .ok (a, r)) : r.length ≤ s.length := by
  have hs := length_skipBlanks s
  unfold takeOnlyCase at h
  split at h
  · simp at h
  · next c t ht =>
    rw [ht] at hs
    split at h
    · have := length_takeCase h
      omega
    · split at h <;> simp at h

theorem length_takeVariant {names : List (String × α)} {depth : Nat} {c : Char} {s r : List Char}
    {a : α} (h : takeVariant names depth c s = .ok (a, r)) : r.length ≤ s.length := by
  unfold takeVariant at h
  split at h
  · have := Reader.shortens _ h
    simp only [List.length_cons] at this
    omega
  · split at h
    · split at h
      · simp at h
      · exact length_takeOnlyCase h
    · simp at h

/-- One of several alternatives that carry nothing. From a value, an alternative may also be
written with an empty object for `null`. -/
def variant (names : List (String × α)) : Shape α where
  read depth := startingWith (takeVariant names depth) length_takeVariant
  ofJson
    | .string s => named names s
    | .object [(name, payload)] =>
      match named names name with
      | .error m => .error m
      | .ok a =>
        match payload with
        | .null => .ok a
        | .object [] => .ok a
        | v => unwanted .unit v
    | .object _ => .error (.invalidValue .map .singleKey)
    | v => unwanted .stringOrMap v

end Shape

/-! ### Records -/

/-- A field of a record that is filled in step by step. -/
structure Slot (σ : Type) where
  name : String
  /-- The field has its value. -/
  filled : σ → Bool
  /-- The shape of the value, taken into the record. -/
  fill : σ → Shape σ

/-- A record: its state `σ` while it is filled in, and the data `α` it makes. -/
structure Layout (σ α : Type) where
  /-- The name under which messages know the record. -/
  description : String
  /-- The fields, in order. -/
  slots : List (Slot σ)
  /-- What becomes of other keys; without it they are refused. -/
  others : Option (σ → String → Shape σ)
  /-- The record with no field filled in. -/
  empty : σ
  /-- The data of a record, if no field is missing. -/
  finish : σ → Except Mismatch α

namespace Layout

variable {σ α : Type}

/-- The names of the fields. -/
def names (layout : Layout σ α) : List String := layout.slots.map Slot.name

/-- What a key calls for. -/
def entry (layout : Layout σ α) (state : σ) (name : String) : Except Mismatch (Shape σ) :=
  match layout.slots.find? fun slot => slot.name = name with
  | some slot =>
    if slot.filled state then .error (.duplicateField name) else .ok (slot.fill state)
  | none =>
    match layout.others with
    | some keep => .ok (keep state name)
    | none => .error (.unknownField name layout.names)

/-- Takes the fields of an object into the record. -/
def ofFields (layout : Layout σ α) (state : σ) : Fields → Except Mismatch σ
  | [] => .ok state
  | (name, value) :: fields =>
    match layout.entry state name with
    | .error m => .error m
    | .ok shape =>
      match shape.ofJson value with
      | .error m => .error m
      | .ok state => ofFields layout state fields

/-- The data of an object. -/
def ofObject (layout : Layout σ α) (fields : Fields) : Except Mismatch α :=
  match layout.ofFields layout.empty fields with
  | .error m => .error m
  | .ok state => layout.finish state

/-- Takes an object, the opening brace of which is read. -/
def takeObject (layout : Layout σ α) (depth : Nat) (s : List Char) :
    Except Fault (α × List Char) :=
  match readFields (fun state name => (layout.entry state name).map fun shape => shape.read depth)
      true layout.empty s with
  | .error e => .error e
  | .ok (state, r) =>
    match layout.finish state with
    | .error m => .error (.mismatchAt m r)
    | .ok a => .ok (a, r)

theorem length_takeObject {layout : Layout σ α} {depth : Nat} {s r : List Char} {a : α}
    (h : layout.takeObject depth s = .ok (a, r)) : r.length ≤ s.length := by
  unfold takeObject at h
  split at h
  · simp at h
  · next state t ht =>
    have := length_readFields ht
    split at h
    · simp at h
    · cases h
      omega

/-- Fills in the fields from the items of a list, as far as there are any. -/
def ofPositions (state : σ) : List (Slot σ) → List Json → Except Mismatch σ
  | slot :: slots, item :: items =>
    match (slot.fill state).ofJson item with
    | .error m => .error m
    | .ok state => ofPositions state slots items
  | _, _ => .ok state

/-- The data of a record that was written as a list of `count` items. -/
def finishPositions (layout : Layout σ α) (state : σ) (count : Nat) : Except Mismatch α :=
  match layout.finish state with
  | .error (.missingField _) =>
    .error (.invalidLength count (.positions layout.description layout.slots.length))
  | result => result

/-- The data of a list. -/
def ofList (layout : Layout σ α) (items : List Json) : Except Mismatch α :=
  match ofPositions layout.empty layout.slots items with
  | .error m => .error m
  | .ok state =>
    match layout.finishPositions state items.length with
    | .error m => .error m
    | .ok a =>
      if layout.slots.length < items.length then
        .error (.invalidLength items.length (.elements layout.slots.length))
      else .ok a

/-- Reads the fields off a list, as far as it goes, and then its closing bracket; also the number
of items. -/
def takePositions (depth : Nat) (first : Bool) (state : σ) (count : Nat) (s : List Char) :
    List (Slot σ) → Except Fault ((σ × Nat) × List Char)
  | [] => (closeList s).map fun r => ((state, count), r)
  | slot :: slots =>
    match nextItem first s with
    | .error e => .error e
    | .ok (.done r) => .ok ((state, count), r)
    | .ok (.item r) =>
      match ((slot.fill state).read depth).run r with
      | .error e => .error (e.settle listEnd)
      | .ok (state, t) => takePositions depth false state (count + 1) t slots

theorem length_takePositions {depth : Nat} {first : Bool} {state : σ} {count : Nat}
    {s r : List Char} {slots : List (Slot σ)} {result : σ × Nat}
    (h : takePositions depth first state count s slots = .ok (result, r)) :
    r.length ≤ s.length := by
  induction slots generalizing first state count s with
  | nil =>
    simp only [takePositions] at h
    obtain ⟨t, ht, he⟩ := map_eq_ok.1 h
    have := length_closeList ht
    cases he
    omega
  | cons slot slots ih =>
    simp only [takePositions] at h
    split at h
    · simp at h
    · next t ht =>
      have := length_nextItem_done ht
      cases h
      omega
    · next t ht =>
      have h1 := length_nextItem_item ht
      split at h
      · simp at h
      · next state' u hu =>
        have h2 := Reader.shortens _ hu
        have h3 := ih h
        omega

/-- Takes a list of the fields, the opening bracket of which is read. -/
def takeList (layout : Layout σ α) (depth : Nat) (s : List Char) : Except Fault (α × List Char) :=
  match takePositions depth true layout.empty 0 s layout.slots with
  | .error e => .error e
  | .ok ((state, count), r) =>
    match layout.finishPositions state count with
    | .error m => .error (.mismatchAt m r)
    | .ok a => .ok (a, r)

theorem length_takeList {layout : Layout σ α} {depth : Nat} {s r : List Char} {a : α}
    (h : layout.takeList depth s = .ok (a, r)) : r.length ≤ s.length := by
  unfold takeList at h
  split at h
  · simp at h
  · next state count t ht =>
    have := length_takePositions ht
    split at h
    · simp at h
    · cases h
      omega

end Layout

namespace Shape

variable {α β κ σ : Type}

/-- Takes a value in brackets: a list if lists are wanted, or an object. -/
def takeBracketed (wanted : Wanted)
    (list : Option (Nat → List Char → Except Fault (α × List Char)))
    (object : Nat → List Char → Except Fault (α × List Char)) (depth : Nat) (c : Char)
    (s : List Char) : Except Fault (α × List Char) :=
  if c = '{' then
    match depth with
    | 0 => .error (.next .tooDeep (c :: s))
    | depth + 1 => object depth s
  else
    match list with
    | none => .error (refusal wanted c s)
    | some list =>
      if c = '[' then
        match depth with
        | 0 => .error (.next .tooDeep (c :: s))
        | depth + 1 => list depth s
      else .error (refusal wanted c s)

theorem length_takeBracketed {wanted : Wanted}
    {list : Option (Nat → List Char → Except Fault (α × List Char))}
    {object : Nat → List Char → Except Fault (α × List Char)}
    (hl : ∀ take, list = some take → ∀ {d s r a}, take d s = .ok (a, r) → r.length ≤ s.length)
    (ho : ∀ {d s r a}, object d s = .ok (a, r) → r.length ≤ s.length)
    {depth : Nat} {c : Char} {s r : List Char} {a : α}
    (h : takeBracketed wanted list object depth c s = .ok (a, r)) : r.length ≤ s.length := by
  unfold takeBracketed at h
  split at h
  · split at h
    · simp at h
    · exact ho h
  · split at h
    · simp at h
    · next take =>
      split at h
      · split at h
        · simp at h
        · exact hl take rfl h
      · simp at h

/-- A record written as an object. -/
def record (layout : Layout σ α) : Shape α where
  read depth :=
    startingWith (takeBracketed (.record layout.description) none layout.takeObject depth)
      (length_takeBracketed (by simp) Layout.length_takeObject)
  ofJson
    | .object fields => layout.ofObject fields
    | v => unwanted (.record layout.description) v

/-- A record written as an object, or as the list of its fields. -/
def positional (layout : Layout σ α) : Shape α where
  read depth :=
    startingWith
      (takeBracketed (.record layout.description) (some layout.takeList) layout.takeObject depth)
      (length_takeBracketed (fun _ h => by cases h; exact Layout.length_takeList)
        Layout.length_takeObject)
  ofJson
    | .object fields => layout.ofObject fields
    | .array items => layout.ofList items
    | v => unwanted (.record layout.description) v

/-- The data, checked once it is all there. -/
def andThen (shape : Shape α) (check : α → Except Mismatch β) : Shape β where
  read depth :=
    { run := fun s =>
        match (shape.read depth).run s with
        | .error e => .error e
        | .ok (a, r) =>
          match check a with
          | .error m => .error (.mismatchBefore m r)
          | .ok b => .ok (b, r)
      shortens := by
        intro s r b h
        split at h
        · simp at h
        · next a t ht =>
          have := Reader.shortens _ ht
          split at h
          · simp at h
          · cases h
            exact this }
  ofJson v :=
    match shape.ofJson v with
    | .error m => .error m
    | .ok a => check a

/-! ### Records of several kinds -/

/-- The layout of an object that names its kind in the field `tag`; its other fields are kept, the
last one first. -/
def taggedLayout (description tag : String) (kind : Shape κ) :
    Layout (Option κ × Fields) (κ × Json) where
  description := description
  slots := [⟨tag, fun state => state.1.isSome, fun state => kind.map fun k => (some k, state.2)⟩]
  others := some fun state name => json.map fun value => (state.1, (name, value) :: state.2)
  empty := (none, [])
  finish
    | (none, _) => .error (.missingField tag)
    | (some k, fields) => .ok (k, .object fields.reverse)

/-- Takes a list that starts with the kind, the opening bracket of which is read. -/
def takeTaggedList (tag : String) (kind : Shape κ) (depth : Nat) (s : List Char) :
    Except Fault ((κ × Json) × List Char) :=
  match nextItem true s with
  | .error e => .error e
  | .ok (.done r) => .error (.mismatchAt (.missingField tag) r)
  | .ok (.item r) =>
    match (kind.read depth).run r with
    | .error e => .error (e.settle listEnd)
    | .ok (k, t) => ((valueReader depth).items false t).map fun (items, u) => ((k, .array items), u)

theorem length_takeTaggedList {tag : String} {kind : Shape κ} {depth : Nat} {s r : List Char}
    {a : κ × Json} (h : takeTaggedList tag kind depth s = .ok (a, r)) : r.length ≤ s.length := by
  unfold takeTaggedList at h
  split at h
  · simp at h
  · simp at h
  · next t ht =>
    have h1 := length_nextItem_item ht
    split at h
    · simp at h
    · next k u hu =>
      have h2 := Reader.shortens _ hu
      obtain ⟨⟨items, v⟩, hv, he⟩ := map_eq_ok.1 h
      have h3 := Reader.length_items hv
      cases he
      omega

/-- A record of several kinds: an object that names its kind in the field `tag`, or a list that
starts with the kind. The rest of it comes as a value. -/
def tagged (description tag : String) (kind : Shape κ) : Shape (κ × Json) where
  read depth :=
    startingWith
      (takeBracketed (.record description) (some (takeTaggedList tag kind))
        (taggedLayout description tag kind).takeObject depth)
      (length_takeBracketed (fun _ h => by cases h; exact length_takeTaggedList)
        Layout.length_takeObject)
  ofJson
    | .object fields => (taggedLayout description tag kind).ofObject fields
    | .array [] => .error (.missingField tag)
    | .array (item :: items) => (kind.ofJson item).map fun k => (k, .array items)
    | v => unwanted (.record description) v

end Shape

end Json

end EventTaxonomy
