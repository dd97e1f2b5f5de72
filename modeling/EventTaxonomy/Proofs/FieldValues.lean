import EventTaxonomy.Proofs.EventRoundTrip
import EventTaxonomy.RuleDocument

/-!
# Fields by key and by kind

What a record makes of an object whose keys are distinct can be said without the order of the
fields: each place of the record holds the value under its key (`foldlM_fillAt_eq_ofField`). And
what a shape makes of a value can be said by what kind of value it is: a string, a truth value, a
word, a list of strings, the tag of a platform. The two together say when a field of a record is
good, and what it holds (`foldlM_fillAt_eq_some_iff`, and `foldlM_fillAt_nullable_eq_some_iff` if it
may be `null`).

Values of these kinds are `Small`: they have few brackets, and their numbers are words.

To put the fields of an object in key order is to keep the value under each key, in its canonical
form (`lookup_canonicalFields`).
-/

namespace EventTaxonomy

open Json (Shape Layout Slot)

/-! ### Looking at values -/

namespace Json

/-- The string that a value is. -/
def string? : Json → Option String
  | .string s => some s
  | _ => none

/-- The truth value that a value is. -/
def bool? : Json → Option Bool
  | .bool b => some b
  | _ => none

/-- The natural number of one word that a value is. -/
def word? : Json → Option Nat
  | .number (.int (.ofNat n)) => if n ≤ wordMax then some n else none
  | _ => none

/-- The strings that a value lists. -/
def strings? : Json → Option (List String)
  | .array items => items.mapM string?
  | _ => none

/-- The items of a list. -/
def items : Json → List Json
  | .array items => items
  | _ => []

/-- The value is an object. -/
def isObject : Json → Bool
  | .object _ => true
  | _ => false

end Json

/-- The platform whose tag a value is. -/
def Platform.ofJson? : Json → Option Platform
  | .string s => all.find? fun p => p.tag = s
  | _ => none

/-- There is no value under the key, or one of the wanted kind. -/
def Optionally {α : Type} (look : Json → Option α) (field : Option Json) : Prop :=
  ∀ v ∈ field, (look v).isSome = true

/-- There is no value under the key, or `null`, or one of the wanted kind. -/
def OrNull {α : Type} (look : Json → Option α) (field : Option Json) : Prop :=
  ∀ v ∈ field, v = .null ∨ (look v).isSome = true

instance Json.decidableEqNull : (v : Json) → Decidable (v = .null)
  | .null => isTrue rfl
  | .bool _ | .number _ | .string _ | .array _ | .object _ => isFalse nofun

section Decidability

variable {α : Type} (look : Json → Option α)

instance : DecidablePred (Optionally look) := fun field =>
  match field with
  | none => isTrue nofun
  | some v => decidable_of_iff ((look v).isSome = true) (by simp [Optionally])

instance : DecidablePred (OrNull look) := fun field =>
  match field with
  | none => isTrue nofun
  | some v => decidable_of_iff (v = .null ∨ (look v).isSome = true) (by simp [OrNull])

end Decidability

/-! ### Fields by key -/

section Lookup

variable {α : Type}

theorem mem_of_lookup {key : String} {a : α} {fields : List (String × α)}
    (h : lookup key fields = some a) : (key, a) ∈ fields := by
  induction fields with
  | nil => cases h
  | cons field fields ih =>
    obtain ⟨k, b⟩ := field
    rw [lookup] at h
    split_ifs at h with hk
    · cases h
      rw [hk]
      exact List.mem_cons_self
    · exact List.mem_cons_of_mem _ (ih h)

theorem lookup_of_not_mem {key : String} {fields : List (String × α)}
    (h : ∀ field ∈ fields, field.1 ≠ key) : lookup key fields = none := by
  cases hl : lookup key fields with
  | none => rfl
  | some a => exact absurd rfl (h _ (mem_of_lookup hl))

theorem lookup_of_mem {key : String} {a : α} {fields : List (String × α)}
    (hkeys : (fields.map Prod.fst).Nodup) (h : (key, a) ∈ fields) :
    lookup key fields = some a := by
  induction fields with
  | nil => cases h
  | cons field fields ih =>
    obtain ⟨k, b⟩ := field
    obtain ⟨hhead, hrest⟩ := List.nodup_cons.1 hkeys
    rcases List.mem_cons.1 h with heq | hmem
    · cases heq
      exact if_pos rfl
    · have hne : k ≠ key := by
        rintro rfl
        exact hhead (List.mem_map.2 ⟨_, hmem, rfl⟩)
      rw [lookup, if_neg hne]
      exact ih hrest hmem

theorem lookup_filter_not_mem (names : List String) (key : String)
    (fields : List (String × α)) :
    lookup key (fields.filter fun field => field.1 ∉ names) =
      if key ∈ names then none else lookup key fields := by
  induction fields with
  | nil => simp [lookup]
  | cons field fields ih =>
    obtain ⟨k, a⟩ := field
    by_cases hk : k ∈ names
    · rw [List.filter_cons_of_neg (by simpa using hk), ih, lookup]
      by_cases hkey : k = key
      · simp [← hkey, hk]
      · simp [hkey]
    · rw [List.filter_cons_of_pos (by simpa using hk), lookup, ih, lookup]
      by_cases hkey : k = key
      · simp [← hkey, hk]
      · simp [hkey]

theorem lookup_filter_ne {key other : String} (hne : key ≠ other) (fields : List (String × α)) :
    lookup key (fields.filter fun field => field.1 ≠ other) = lookup key fields := by
  simpa [hne] using lookup_filter_not_mem [other] key fields

/-! ### Fields by key, with the keys in order -/

theorem lookup_insertKey (key name : String) (a : α) (fields : List (String × α)) :
    lookup key (insertKey name a fields) = if name = key then some a else lookup key fields := by
  induction fields with
  | nil => rfl
  | cons field fields ih =>
    obtain ⟨k, b⟩ := field
    rw [insertKey]
    split_ifs with hlt heq hname hname
    all_goals grind [lookup]

theorem lookup_append (key : String) (fields others : List (String × α)) :
    lookup key (fields ++ others) = (lookup key fields).or (lookup key others) := by
  induction fields with
  | nil => rfl
  | cons field fields ih =>
    obtain ⟨k, b⟩ := field
    rw [List.cons_append, lookup, lookup, ih]
    split_ifs <;> rfl

theorem nodup_of_keysAscend {fields : List (String × α)} (h : KeysAscend fields) :
    (fields.map Prod.fst).Nodup :=
  List.pairwise_map.2 (h.imp fun hlt heq => absurd (heq ▸ hlt) (lt_irrefl _))

theorem lookup_canonicalFields_acc {fields : Fields} (hkeys : (fields.map Prod.fst).Nodup)
    (key : String) (acc : Fields) :
    lookup key (Json.canonicalFields acc fields) =
      ((lookup key fields).map Json.canonical).or (lookup key acc) := by
  induction fields generalizing acc with
  | nil => rfl
  | cons field fields ih =>
    obtain ⟨k, v⟩ := field
    obtain ⟨hhead, hrest⟩ := List.nodup_cons.1 hkeys
    rw [Json.canonicalFields, ih hrest, lookup_insertKey, lookup]
    split_ifs with hk
    · -- no later field takes the place of this one
      have hnone : lookup key fields = none := lookup_of_not_mem fun field hfield heq =>
        hhead (List.mem_map.2 ⟨field, hfield, heq.trans hk.symm⟩)
      rw [hnone]
      rfl
    · rfl

/-- The value under a key is the canonical form of what it was before. -/
theorem lookup_canonicalFields {fields : Fields} (hkeys : (fields.map Prod.fst).Nodup)
    (key : String) :
    lookup key (Json.canonicalFields [] fields) = (lookup key fields).map Json.canonical := by
  rw [lookup_canonicalFields_acc hkeys, lookup, Option.or_none]

theorem exists_of_lookup_canonicalFields {fields : Fields} (hkeys : (fields.map Prod.fst).Nodup)
    {key : String} {w : Json} (h : lookup key (Json.canonicalFields [] fields) = some w) :
    ∃ v, lookup key fields = some v ∧ v.canonical = w := by
  rw [lookup_canonicalFields hkeys] at h
  exact Option.map_eq_some_iff.1 h

theorem nodup_canonicalFields (fields : Fields) :
    ((Json.canonicalFields [] fields).map Prod.fst).Nodup :=
  nodup_of_keysAscend (fieldsInOrder_canonicalFields fields).1

/-- Putting the fields in order brings in no key. -/
theorem forall_key_canonicalFields {fields : Fields} {p : String → Prop}
    (h : ∀ field ∈ fields, p field.1) : ∀ field ∈ Json.canonicalFields [] fields, p field.1 := by
  rintro ⟨key, v⟩ hfield
  obtain ⟨w, hw, -⟩ := Json.exists_of_mem_canonicalFields hfield
  exact h (key, w) hw

end Lookup

/-! ### Places of a record whose keys are distinct -/

section Places

variable {α β : Type}

/-- What a shape makes of the value under a key. -/
def Json.Shape.ofField (shape : Shape β) : Option Json → Option (Option β)
  | none => some none
  | some v => (shape.ofJson v).toOption.map some

/-- With distinct keys, a place holds the value under its key. -/
theorem foldlM_fillAt_eq_ofField {name : String} {shape : Shape β} {fields : Fields}
    (hkeys : (fields.map Prod.fst).Nodup) :
    fields.foldlM (fillAt name shape) none = shape.ofField (lookup name fields) := by
  induction fields with
  | nil => rfl
  | cons field fields ih =>
    obtain ⟨key, v⟩ := field
    obtain ⟨hhead, hrest⟩ := List.nodup_cons.1 hkeys
    by_cases hkey : key = name
    · subst hkey
      -- the key does not come again, so the place stays as it is
      have hne : ∀ field ∈ fields, field.1 ≠ key := fun field hfield heq =>
        hhead (List.mem_map.2 ⟨field, hfield, heq⟩)
      rw [List.foldlM_cons, lookup, if_pos rfl, fillAt, if_pos rfl]
      cases hv : (shape.ofJson v).toOption with
      | none => simp [Shape.ofField, hv]
      | some b => simpa [Shape.ofField, hv] using foldlM_fillAt_of_ne hne (some b)
    · rw [List.foldlM_cons, fillAt_of_ne hkey, lookup, if_neg hkey]
      exact ih hrest

variable {look : Json → Option β} {shape : Shape β} {fields : Fields}

theorem foldlM_fillAt_eq_some_iff (name : String) (hkeys : (fields.map Prod.fst).Nodup)
    (h : ∀ v ∈ lookup name fields, (shape.ofJson v).toOption = look v) (new : Option β) :
    fields.foldlM (fillAt name shape) none = some new ↔
      Optionally look (lookup name fields) ∧ new = (lookup name fields).bind look := by
  rw [foldlM_fillAt_eq_ofField hkeys]
  cases hfield : lookup name fields with
  | none => simp [Shape.ofField, Optionally, eq_comm (a := new)]
  | some v =>
    have hv := h v hfield
    cases hlook : look v with
    | none => simp [Shape.ofField, Optionally, hv, hlook]
    | some b => simp [Shape.ofField, Optionally, hv, hlook, eq_comm (a := new)]

theorem foldlM_fillAt_nullable_eq_some_iff (name : String) (hkeys : (fields.map Prod.fst).Nodup)
    (h : ∀ v ∈ lookup name fields, (shape.ofJson v).toOption = look v) (hnull : look .null = none)
    (new : Option (Option β)) :
    fields.foldlM (fillAt name shape.nullable) none = some new ↔
      OrNull look (lookup name fields) ∧ new = (lookup name fields).map look := by
  rw [foldlM_fillAt_eq_ofField hkeys]
  cases hfield : lookup name fields with
  | none => simp [Shape.ofField, OrNull, eq_comm (a := new)]
  | some v =>
    by_cases hv : v = .null
    · subst hv
      simp [Shape.ofField, OrNull, Shape.nullable, Except.toOption, hnull, eq_comm (a := new)]
    · have hmap : (shape.nullable.ofJson v).toOption = (look v).map some := by
        rw [Shape.ofJson_nullable_of_ne hv, ← h v hfield]
        cases shape.ofJson v <;> rfl
      cases hlook : look v with
      | none => simp [Shape.ofField, OrNull, hmap, hlook, hv]
      | some b => simp [Shape.ofField, OrNull, hmap, hlook, eq_comm (a := new)]

end Places

/-! ### What shapes take -/

namespace Json.Shape

theorem toOption_string (v : Json) : (string.ofJson v).toOption = v.string? := by
  cases v <;> rfl

theorem toOption_flag (v : Json) : (flag.ofJson v).toOption = v.bool? := by
  cases v <;> rfl

theorem toOption_size {v : Json} (h : v.allNumbers Number.fits = true) :
    (size.ofJson v).toOption = v.word? := by
  cases v with
  | number n =>
    cases n with
    | int n =>
      cases n with
      | ofNat n =>
        have hn : n ≤ wordMax := by
          simp only [allNumbers, Number.fits, Bool.and_eq_true, decide_eq_true_eq] at h
          exact Int.ofNat_le.1 h.2
        simp [size, scalar, word?, hn, Except.toOption]
      | negSucc n => rfl
    | float x => rfl
  | _ => rfl

theorem toOption_ofItems (items : List Json) :
    (ofItems string.ofJson items).toOption = items.mapM string? := by
  induction items with
  | nil => rfl
  | cons item items ih =>
    rw [List.mapM_cons, ← ih, ← toOption_string, ofItems]
    cases string.ofJson item with
    | error m => rfl
    | ok s => cases ofItems string.ofJson items <;> rfl

theorem toOption_strings (v : Json) : (string.list.ofJson v).toOption = v.strings? := by
  cases v with
  | array items => exact toOption_ofItems items
  | _ => rfl

theorem toOption_platform {v : Json} (h : v.isObject = false) :
    (Platform.shape.ofJson v).toOption = Platform.ofJson? v := by
  cases v with
  | string s =>
    have hlookup : lookup s Platform.tags = Platform.all.find? fun p => p.tag = s := by
      simp only [Platform.tags, Platform.all, List.map, lookup, List.find?]
      split_ifs <;> simp [*]
    simp only [Platform.shape, variant, named, Platform.ofJson?, hlookup]
    cases Platform.all.find? fun p => p.tag = s <;> rfl
  | object fields => cases h
  | _ => rfl

theorem ofJson_andThen_eq_ok_iff {α β : Type} {shape : Shape α} {check : α → Except Mismatch β}
    {v : Json} {b : β} :
    (shape.andThen check).ofJson v = .ok b ↔ ∃ a, shape.ofJson v = .ok a ∧ check a = .ok b := by
  simp only [andThen]
  cases shape.ofJson v <;> simp

end Json.Shape

/-! ### Tagged records -/

namespace Json

variable {κ : Type}

section Tagged

variable {description tag : String} {kind : Shape κ} {k k' : Option κ} {acc acc' : Fields}

theorem take_taggedLayout_iff {field : String × Json} :
    (Shape.taggedLayout description tag kind).take (k, acc) field = some (k', acc') ↔
      fillAt tag kind k field = some k' ∧
        acc' = if field.1 = tag then acc else field :: acc := by
  obtain ⟨key, v⟩ := field
  rw [Layout.take_eq_some_iff]
  by_cases hkey : key = tag
  · subst hkey
    rw [fillAt_self_eq_some_iff, if_pos rfl]
    cases k <;> simp [Layout.entry, Shape.taggedLayout, Shape.map, map_eq_ok]
    grind
  · rw [fillAt_of_ne hkey, if_neg hkey]
    simp [Layout.entry, Shape.taggedLayout, Shape.map, Shape.json, Except.map, Ne.symm hkey,
      eq_comm (a := acc')]

theorem foldlM_take_taggedLayout_iff {fields : Fields} :
    fields.foldlM (Shape.taggedLayout description tag kind).take (k, acc) = some (k', acc') ↔
      fields.foldlM (fillAt tag kind) k = some k' ∧
        acc' = (fields.filter fun field => field.1 ≠ tag).reverse ++ acc := by
  induction fields generalizing k acc with
  | nil => simp [eq_comm (a := acc')]
  | cons field fields ih =>
    simp only [List.foldlM_cons, Option.bind_eq_bind, Option.bind_eq_some_iff, Prod.exists,
      take_taggedLayout_iff, ih]
    by_cases hkey : field.1 = tag <;> simp [hkey, ← and_assoc]

/-- The object of a record of several kinds: the kind, and the other fields in their order. -/
theorem ofObject_taggedLayout_eq_ok_iff {fields : Fields} {kind₀ : κ} {v : Json} :
    (Shape.taggedLayout description tag kind).ofObject fields = .ok (kind₀, v) ↔
      fields.foldlM (fillAt tag kind) none = some (some kind₀) ∧
        v = .object (fields.filter fun field => field.1 ≠ tag) := by
  rw [Layout.ofObject_eq_ok_iff]
  constructor
  · rintro ⟨⟨k, acc⟩, hfold, hfinish⟩
    obtain ⟨hk, rfl⟩ := foldlM_take_taggedLayout_iff.1 hfold
    cases k with
    | none => cases hfinish
    | some k =>
      cases hfinish
      exact ⟨hk, by simp⟩
  · rintro ⟨hk, rfl⟩
    exact ⟨(some kind₀, _), foldlM_take_taggedLayout_iff.2 ⟨hk, rfl⟩, by simp [Shape.taggedLayout]⟩

end Tagged

end Json

/-! ### Small values -/

/-- No more than `n` brackets are open at a time, and the numbers are words. -/
def Json.Small (n : Nat) (v : Json) : Prop := v.depth ≤ n ∧ v.allNumbers Number.isWord = true

namespace Json.Small

theorem array {n : Nat} {items : List Json} (h : ∀ item ∈ items, item.Small n) :
    (Json.array items).Small (n + 1) :=
  ⟨Nat.succ_le_succ (depthItems_le_iff.2 fun item hitem => (h item hitem).1),
    allNumbersItems_iff.2 fun item hitem => (h item hitem).2⟩

theorem object {n : Nat} {fields : Fields} (h : ∀ field ∈ fields, field.2.Small n) :
    (Json.object fields).Small (n + 1) :=
  ⟨Nat.succ_le_succ (depthFields_le_iff.2 fun field hfield => (h field hfield).1),
    allNumbersFields_iff.2 fun field hfield => (h field hfield).2⟩

theorem mono {m n : Nat} {v : Json} (h : v.Small m) (hmn : m ≤ n) : v.Small n :=
  ⟨Nat.le_trans h.1 hmn, h.2⟩

theorem fits {n : Nat} {v : Json} (h : v.Small n) : v.allNumbers Number.fits = true := by
  refine allNumbers_mono (fun number hnumber => ?_) v h.2
  cases number with
  | int n => exact hnumber
  | float x => cases hnumber

theorem of_string? {v : Json} (h : v.string?.isSome = true) : v.Small 0 := by
  cases v with
  | string s => exact ⟨Nat.le_refl 0, rfl⟩
  | _ => cases h

theorem of_bool? {v : Json} (h : v.bool?.isSome = true) : v.Small 0 := by
  cases v with
  | bool b => exact ⟨Nat.le_refl 0, rfl⟩
  | _ => cases h

theorem of_word? {v : Json} (h : v.word?.isSome = true) : v.Small 0 := by
  cases v with
  | number n =>
    cases n with
    | int n =>
      cases n with
      | ofNat n =>
        have hn : n ≤ wordMax := by
          rw [word?] at h
          split_ifs at h with hn
          · exact hn
          · cases h
        refine ⟨Nat.le_refl 0, ?_⟩
        simp only [allNumbers, Number.isWord, Number.fits, Bool.and_eq_true, decide_eq_true_eq,
          Int.ofNat_eq_natCast]
        omega
      | negSucc n => cases h
    | float x => cases h
  | _ => cases h

theorem of_platform? {v : Json} (h : (Platform.ofJson? v).isSome = true) : v.Small 0 := by
  cases v with
  | string s => exact ⟨Nat.le_refl 0, rfl⟩
  | _ => cases h

theorem of_strings? {v : Json} (h : v.strings?.isSome = true) : v.Small 1 := by
  cases v with
  | array items =>
    refine array ?_
    replace h : (items.mapM string?).isSome = true := h
    induction items with
    | nil => simp
    | cons item items ih =>
      rw [List.mapM_cons] at h
      cases hitem : item.string? with
      | none => simp [hitem] at h
      | some s =>
        have hrest : (items.mapM string?).isSome = true := by
          cases hitems : items.mapM string? with
          | none => simp [hitem, hitems] at h
          | some texts => rfl
        exact List.forall_mem_cons.2 ⟨of_string? (by rw [hitem]; rfl), ih hrest⟩
  | _ => cases h

end Json.Small

theorem OrNull.small {α : Type} {look : Json → Option α} {n : Nat} {field : Option Json} {v : Json}
    (h : OrNull look field) (hlook : (look v).isSome = true → v.Small n) (hv : field = some v) :
    v.Small n := by
  rcases h v hv with rfl | hsome
  · exact ⟨Nat.zero_le n, rfl⟩
  · exact hlook hsome

theorem Optionally.orNull {α : Type} {look : Json → Option α} {field : Option Json}
    (h : Optionally look field) : OrNull look field :=
  fun v hv => .inr (h v hv)

/-! ### Lists -/

theorem exists_forall₂_iff {α β : Type} {r : α → β → Prop} {as : List α} :
    (∃ bs, List.Forall₂ r as bs) ↔ ∀ a ∈ as, ∃ b, r a b := by
  induction as with
  | nil => simp
  | cons a as ih =>
    rw [List.forall_mem_cons, ← ih]
    constructor
    · rintro ⟨_, hall⟩
      cases hall with
      | cons hb hbs => exact ⟨⟨_, hb⟩, _, hbs⟩
    · rintro ⟨⟨b, hb⟩, bs, hbs⟩
      exact ⟨b :: bs, .cons hb hbs⟩

end EventTaxonomy
