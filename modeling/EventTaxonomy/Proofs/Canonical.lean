import EventTaxonomy.Json.Basic
import Mathlib.Data.List.Induction
import Mathlib.Data.String.Basic

/-!
# Fields in key order

The canonical form of an object enters its fields, in the order of the document, into a list that
is kept in ascending key order. A list that is in order stays as it is (`insertAll_nil`), and so
does a document in canonical form (`Json.canonical_canonical`).

A record takes the fields of an object one at a time. `Orderless` says when the order does not
matter to it: fields of different keys may be swapped, a second field with one of the `names` is
refused, and any other field gives way to a later one with its key. Such a record makes the same of
the fields in order and of the fields as they were written (`Orderless.foldlM_insertAll`), if no
name comes twice; and it takes no list in which one does (`Orderless.keysOnce_of_foldlM`).
-/

namespace EventTaxonomy

section Fields

variable {α : Type}

/-- Enters fields into a list one after the other. -/
def insertAll (acc fields : List (String × α)) : List (String × α) :=
  fields.foldl (fun acc field => insertKey field.1 field.2 acc) acc

@[simp] theorem insertAll_cons (acc fields : List (String × α)) (field : String × α) :
    insertAll acc (field :: fields) = insertAll (insertKey field.1 field.2 acc) fields := rfl

/-! ### Entering one field -/

theorem mem_insertKey {key : String} {value : α} {fields : List (String × α)}
    {field : String × α} (h : field ∈ insertKey key value fields) :
    field = (key, value) ∨ field ∈ fields := by
  induction fields with
  | nil => simpa [insertKey] using h
  | cons head fields ih =>
    obtain ⟨k, v⟩ := head
    rw [insertKey] at h
    split_ifs at h with hlt heq
    · simpa using h
    · rcases List.mem_cons.1 h with h | h
      · exact .inl h
      · exact .inr (List.mem_cons_of_mem _ h)
    · rcases List.mem_cons.1 h with h | h
      · exact .inr (h ▸ List.mem_cons_self)
      · exact (ih h).imp_right (List.mem_cons_of_mem _)

theorem KeysAscend.lt_of_lt_head {key k : String} {v : α} {fields : List (String × α)}
    (h : KeysAscend ((k, v) :: fields)) (hlt : key < k) :
    ∀ field ∈ (k, v) :: fields, key < field.1 := by
  intro field hfield
  rcases List.mem_cons.1 hfield with rfl | hmem
  · exact hlt
  · exact lt_trans hlt ((List.pairwise_cons.1 h).1 field hmem)

theorem keysAscend_insertKey {key : String} {value : α} {fields : List (String × α)}
    (h : KeysAscend fields) : KeysAscend (insertKey key value fields) := by
  induction fields with
  | nil => exact List.pairwise_singleton _ _
  | cons head fields ih =>
    obtain ⟨k, v⟩ := head
    obtain ⟨hhead, htail⟩ := List.pairwise_cons.1 h
    rw [insertKey]
    split_ifs with hlt heq
    · exact List.pairwise_cons.2 ⟨h.lt_of_lt_head hlt, h⟩
    · subst heq
      exact List.pairwise_cons.2 ⟨hhead, htail⟩
    · refine List.pairwise_cons.2 ⟨?_, ih htail⟩
      intro field hfield
      rcases mem_insertKey hfield with rfl | hmem
      · exact lt_of_le_of_ne (not_lt.1 hlt) (Ne.symm heq)
      · exact hhead field hmem

theorem insertKey_of_gt {key : String} {fields : List (String × α)}
    (h : ∀ field ∈ fields, field.1 < key) (value : α) :
    insertKey key value fields = fields ++ [(key, value)] := by
  induction fields with
  | nil => rfl
  | cons head fields ih =>
    have hhead := h head List.mem_cons_self
    rw [insertKey, if_neg (lt_asymm hhead), if_neg (ne_of_gt hhead),
      ih fun field hfield => h field (List.mem_cons_of_mem _ hfield)]
    rfl

theorem insertKey_insertKey_self (key : String) (v w : α) (fields : List (String × α)) :
    insertKey key w (insertKey key v fields) = insertKey key w fields := by
  induction fields with
  | nil => simp [insertKey]
  | cons head fields ih =>
    obtain ⟨k, x⟩ := head
    by_cases hlt : key < k
    · simp [insertKey, hlt]
    · by_cases heq : key = k
      · simp [insertKey, heq]
      · simp [insertKey, hlt, heq, ih]

theorem insertKey_comm {k l : String} (hne : k ≠ l) (v w : α) (fields : List (String × α)) :
    insertKey l w (insertKey k v fields) = insertKey k v (insertKey l w fields) := by
  wlog hkl : k < l generalizing k l v w
  · exact (this hne.symm w v (lt_of_le_of_ne (not_lt.1 hkl) hne.symm)).symm
  induction fields with
  | nil => simp [insertKey, hkl, hne.symm, lt_asymm hkl]
  | cons head fields ih =>
    obtain ⟨m, x⟩ := head
    have hpass : insertKey l w ((k, v) :: (m, x) :: fields) =
        (k, v) :: insertKey l w ((m, x) :: fields) := by
      rw [insertKey, if_neg (lt_asymm hkl), if_neg hne.symm]
    rcases lt_trichotomy k m with hk | rfl | hk
    · -- the smaller key goes to the front, whatever becomes of the larger one
      rw [insertKey, if_pos hk, hpass, insertKey]
      split_ifs <;> simp [insertKey, hk, hkl]
    · simp [insertKey, hne.symm, lt_asymm hkl]
    · have hl := hk.trans hkl
      simp [insertKey, lt_asymm hk, hk.ne', lt_asymm hl, hl.ne', ih]

/-! ### Entering fields one after the other -/

theorem keysAscend_insertAll {acc : List (String × α)} (h : KeysAscend acc)
    (fields : List (String × α)) : KeysAscend (insertAll acc fields) := by
  induction fields generalizing acc with
  | nil => exact h
  | cons field fields ih => exact ih (keysAscend_insertKey h)

/-- Fields that are already in order are only appended. -/
theorem insertAll_of_keysAscend {acc fields : List (String × α)} (h : KeysAscend (acc ++ fields)) :
    insertAll acc fields = acc ++ fields := by
  induction fields generalizing acc with
  | nil => simp [insertAll]
  | cons field fields ih =>
    have hlast : ∀ f ∈ acc, f.1 < field.1 := fun f hf =>
      (List.pairwise_append.1 h).2.2 f hf field List.mem_cons_self
    rw [insertAll_cons, insertKey_of_gt hlast, ih (by simpa using h)]
    simp

theorem insertAll_concat (acc fields : List (String × α)) (field : String × α) :
    insertAll acc (fields ++ [field]) = insertKey field.1 field.2 (insertAll acc fields) := by
  simp [insertAll, List.foldl_append]

theorem mem_insertAll_nil {fields : List (String × α)} {field : String × α}
    (h : field ∈ insertAll [] fields) : field ∈ fields := by
  induction fields using List.reverseRecOn with
  | nil => exact h
  | append_singleton fields last ih =>
    rw [insertAll_concat] at h
    rcases mem_insertKey h with rfl | hmem
    · exact List.mem_append_right _ List.mem_cons_self
    · exact List.mem_append_left _ (ih hmem)

theorem insertAll_nil {fields : List (String × α)} (h : KeysAscend fields) :
    insertAll [] fields = fields :=
  insertAll_of_keysAscend h

end Fields

/-! ### Taking fields in any order -/

/-- None of the names is a key of two fields. -/
def KeysOnce {α : Type} (names : List String) (fields : List (String × α)) : Prop :=
  ∀ name ∈ names, (fields.map Prod.fst).count name ≤ 1

instance {α : Type} (names : List String) : DecidablePred (KeysOnce (α := α) names) := fun fields =>
  inferInstanceAs (Decidable (∀ name ∈ names, (fields.map Prod.fst).count name ≤ 1))

/-- A way of taking fields into a state to which their order does not matter. -/
structure Orderless {α σ : Type} (names : List String) (take : σ → String × α → Option σ) :
    Prop where
  comm : ∀ (state : σ) {k l : String} (v w : α), k ≠ l →
    (take state (k, v) >>= (take · (l, w))) = (take state (l, w) >>= (take · (k, v)))
  refuse : ∀ {state state' : σ} {k : String} {v : α}, k ∈ names →
    take state (k, v) = some state' → ∀ w, take state' (k, w) = none
  giveWay : ∀ (state : σ) {k : String} (v w : α), k ∉ names →
    (take state (k, v) >>= (take · (k, w))) = take state (k, w)

section Orderless

variable {α σ : Type} {names : List String} {take : σ → String × α → Option σ}

theorem keysOnce_concat_iff {k : String} {v : α} {fields : List (String × α)} :
    KeysOnce names (fields ++ [(k, v)]) ↔
      KeysOnce names fields ∧ (k ∈ names → ∀ field ∈ fields, field.1 ≠ k) := by
  have hcount : (fields.map Prod.fst).count k = 0 ↔ ∀ field ∈ fields, field.1 ≠ k := by
    rw [List.count_eq_zero, List.mem_map]
    grind
  simp only [KeysOnce, List.map_append, List.map_cons, List.map_nil, List.count_append,
    List.count_singleton, beq_iff_eq]
  constructor
  · intro h
    refine ⟨fun name hname => le_trans (Nat.le_add_right _ _) (h name hname), fun hk => ?_⟩
    have := h k hk
    rw [if_pos rfl] at this
    exact hcount.1 (by omega)
  · rintro ⟨hrest, hk⟩ name hname
    split_ifs with heq
    · subst heq
      rw [hcount.2 (hk hname)]
    · exact hrest name hname

namespace Orderless

variable (h : Orderless names take)
include h

theorem foldlM_cons_comm {k : String} {fields : List (String × α)}
    (hk : ∀ field ∈ fields, field.1 ≠ k) (v : α) (state : σ) :
    ((k, v) :: fields).foldlM take state = (fields ++ [(k, v)]).foldlM take state := by
  induction fields generalizing state with
  | nil => rfl
  | cons field fields ih =>
    obtain ⟨l, w⟩ := field
    obtain ⟨hl, hrest⟩ := List.forall_mem_cons.1 hk
    calc ((k, v) :: (l, w) :: fields).foldlM take state
        = (take state (k, v) >>= (take · (l, w))) >>= fields.foldlM take := by
          simp only [List.foldlM_cons, bind_assoc]
      _ = take state (l, w) >>= ((k, v) :: fields).foldlM take := by
          rw [h.comm state v w hl.symm, bind_assoc]
          rfl
      _ = ((l, w) :: fields ++ [(k, v)]).foldlM take state := by
          simp only [ih hrest, List.cons_append, List.foldlM_cons]

/-- A field may be entered in its place, or taken last. -/
theorem foldlM_insertKey {k : String} {acc : List (String × α)} (hacc : KeysAscend acc)
    (hk : k ∈ names → ∀ field ∈ acc, field.1 ≠ k) (v : α) (state : σ) :
    (insertKey k v acc).foldlM take state = (acc ++ [(k, v)]).foldlM take state := by
  induction acc generalizing state with
  | nil => rfl
  | cons head acc ih =>
    obtain ⟨m, x⟩ := head
    obtain ⟨hhead, htail⟩ := List.pairwise_cons.1 hacc
    rw [insertKey]
    split_ifs with hlt heq
    · -- its place is at the front, and no other field has its key
      have hne : ∀ field ∈ (m, x) :: acc, field.1 ≠ k := fun field hfield =>
        (hacc.lt_of_lt_head hlt field hfield).ne'
      exact h.foldlM_cons_comm hne v state
    · -- it takes the place of a field with its key, which would have given way to it anyway
      subst heq
      have hname : k ∉ names := fun hmem => hk hmem _ List.mem_cons_self rfl
      calc ((k, v) :: acc).foldlM take state
          = take state (k, x) >>= ((k, v) :: acc).foldlM take := by
            rw [List.foldlM_cons, ← h.giveWay state x v hname, bind_assoc]
            rfl
        _ = ((k, x) :: acc ++ [(k, v)]).foldlM take state := by
            simp only [h.foldlM_cons_comm (fun field hfield => (hhead field hfield).ne'),
              List.cons_append, List.foldlM_cons]
    · have hrest := ih htail fun hmem field hfield => hk hmem field (List.mem_cons_of_mem _ hfield)
      simp only [List.cons_append, List.foldlM_cons, hrest]

/-- **Fields in key order are taken as they were written**, if no name comes twice. -/
theorem foldlM_insertAll {fields : List (String × α)} (honce : KeysOnce names fields) (state : σ) :
    (insertAll [] fields).foldlM take state = fields.foldlM take state := by
  induction fields using List.reverseRecOn with
  | nil => rfl
  | append_singleton fields field ih =>
    obtain ⟨k, v⟩ := field
    obtain ⟨hrest, hk⟩ := keysOnce_concat_iff.1 honce
    have hnew : k ∈ names → ∀ field ∈ insertAll [] fields, field.1 ≠ k :=
      fun hmem field hfield => hk hmem field (mem_insertAll_nil hfield)
    rw [insertAll_concat, h.foldlM_insertKey (keysAscend_insertAll List.Pairwise.nil fields) hnew,
      List.foldlM_append, List.foldlM_append, ih hrest]

theorem refuse_of_take {state state' : σ} {k : String} (hk : ∀ v, take state (k, v) = none)
    {field : String × α} (ht : take state field = some state') (v : α) :
    take state' (k, v) = none := by
  obtain ⟨l, w⟩ := field
  by_cases hl : l = k
  · subst hl
    simp [hk] at ht
  · have := h.comm state v w (Ne.symm hl)
    simpa [hk, ht] using this.symm

theorem refuse_of_foldlM {state state' : σ} {k : String} (hk : k ∈ names)
    {fields : List (String × α)} (hf : fields.foldlM take state = some state')
    {field : String × α} (hfield : field ∈ fields) (hkey : field.1 = k) (v : α) :
    take state' (k, v) = none := by
  induction fields using List.reverseRecOn generalizing state' v with
  | nil => cases hfield
  | append_singleton fields last ih =>
    rw [List.foldlM_append] at hf
    obtain ⟨state₁, hrest, hlast⟩ := Option.bind_eq_some_iff.1 hf
    have ht : take state₁ last = some state' := by simpa using hlast
    rcases List.mem_append.1 hfield with hmem | hmem
    · exact h.refuse_of_take (ih hrest hmem) ht v
    · obtain rfl := List.mem_singleton.1 hmem
      subst hkey
      exact h.refuse hk ht v

/-- **No name comes twice in a list of fields that is taken.** -/
theorem keysOnce_of_foldlM {state state' : σ} {fields : List (String × α)}
    (hf : fields.foldlM take state = some state') : KeysOnce names fields := by
  induction fields using List.reverseRecOn generalizing state' with
  | nil => simp [KeysOnce]
  | append_singleton fields last ih =>
    obtain ⟨k, v⟩ := last
    rw [List.foldlM_append] at hf
    obtain ⟨state₁, hrest, hlast⟩ := Option.bind_eq_some_iff.1 hf
    refine keysOnce_concat_iff.2 ⟨ih hrest, fun hk field hfield hkey => ?_⟩
    -- a record that has taken the key would not have taken the last field
    simp [h.refuse_of_foldlM hk hrest hfield hkey] at hlast

end Orderless

end Orderless

namespace Json

/-! ### Documents in canonical form -/

/-- The fields with their values in canonical form, in the order of the document. -/
def canonicalValues (fields : Fields) : Fields :=
  fields.map fun field => (field.1, field.2.canonical)

theorem canonicalItems_eq_map (items : List Json) : canonicalItems items = items.map canonical := by
  induction items with
  | nil => rfl
  | cons item items ih => rw [canonicalItems, ih, List.map_cons]

theorem canonicalFields_eq_insertAll (acc fields : Fields) :
    canonicalFields acc fields = insertAll acc (canonicalValues fields) := by
  induction fields generalizing acc with
  | nil => rfl
  | cons field fields ih =>
    obtain ⟨k, v⟩ := field
    rw [canonicalFields, ih]
    rfl

/-- A field of the canonical form is the canonical form of a field. -/
theorem exists_of_mem_canonicalFields {fields : Fields} {name : String} {v : Json}
    (h : (name, v) ∈ canonicalFields [] fields) : ∃ w, (name, w) ∈ fields ∧ w.canonical = v := by
  rw [canonicalFields_eq_insertAll] at h
  obtain ⟨⟨key, w⟩, hmem, he⟩ := List.mem_map.1 (mem_insertAll_nil h)
  cases he
  exact ⟨w, hmem, rfl⟩

theorem keysOnce_canonicalValues_iff {names : List String} {fields : Fields} :
    KeysOnce names (canonicalValues fields) ↔ KeysOnce names fields := by
  simp [KeysOnce, canonicalValues, Function.comp_def]

theorem canonicalValues_eq_self {fields : Fields}
    (h : ∀ field ∈ fields, field.2.canonical = field.2) : canonicalValues fields = fields := by
  refine (List.map_congr_left fun field hfield => ?_).trans (List.map_id fields)
  rw [h field hfield]
  rfl

theorem canonicalFields_eq_self {fields : Fields} (hkeys : KeysAscend fields)
    (h : ∀ field ∈ fields, field.2.canonical = field.2) : canonicalFields [] fields = fields := by
  rw [canonicalFields_eq_insertAll, canonicalValues_eq_self h, insertAll_nil hkeys]

mutual

/-- **A canonical form is its own canonical form.** -/
theorem canonical_canonical : ∀ v : Json, v.canonical.canonical = v.canonical
  | .array items => by
    rw [canonical, canonical, canonicalItems_canonicalItems items]
  | .object fields => by
    have hkeys : KeysAscend (canonicalFields [] fields) := by
      rw [canonicalFields_eq_insertAll]
      exact keysAscend_insertAll List.Pairwise.nil _
    rw [canonical, canonical,
      canonicalFields_eq_self hkeys (canonical_of_mem_canonicalFields fields [] (by simp))]
  | .null => rfl
  | .bool _ => rfl
  | .number _ => rfl
  | .string _ => rfl

theorem canonicalItems_canonicalItems :
    ∀ items : List Json, canonicalItems (canonicalItems items) = canonicalItems items
  | [] => rfl
  | item :: items => by
    rw [canonicalItems, canonicalItems, canonical_canonical item,
      canonicalItems_canonicalItems items]

theorem canonical_of_mem_canonicalFields : ∀ (fields acc : Fields),
    (∀ field ∈ acc, field.2.canonical = field.2) →
      ∀ field ∈ canonicalFields acc fields, field.2.canonical = field.2
  | [], _, h => h
  | (k, v) :: fields, acc, h => by
    rw [canonicalFields]
    refine canonical_of_mem_canonicalFields fields _ fun field hfield => ?_
    rcases mem_insertKey hfield with rfl | hmem
    · exact canonical_canonical v
    · exact h field hmem

end

/-! ### Taking fields in canonical form -/

variable {σ : Type} {names : List String} {take : σ → String × Json → Option σ}

/-- The value of a field is taken as its canonical form is, if it is `once` under its key. -/
def TakesCanonical (take : σ → String × Json → Option σ) (once : String → Json → Prop) : Prop :=
  ∀ ⦃state state' : σ⦄ ⦃k : String⦄ ⦃v : Json⦄, take state (k, v) = some state' ↔
    once k v ∧ take state (k, v.canonical) = some state'

theorem TakesCanonical.foldlM_canonicalValues_iff {once : String → Json → Prop}
    (h : TakesCanonical take once) {fields : Fields} {state state' : σ} :
    fields.foldlM take state = some state' ↔
      (∀ field ∈ fields, once field.1 field.2) ∧
        (canonicalValues fields).foldlM take state = some state' := by
  induction fields generalizing state with
  | nil => simp [canonicalValues]
  | cons field fields ih =>
    obtain ⟨k, v⟩ := field
    have hcons : canonicalValues ((k, v) :: fields) = (k, v.canonical) :: canonicalValues fields :=
      rfl
    rw [hcons, List.foldlM_cons, List.foldlM_cons, List.forall_mem_cons]
    constructor
    · intro hf
      obtain ⟨state₁, ht, hrest⟩ := Option.bind_eq_some_iff.1 hf
      obtain ⟨honce, hcanonical⟩ := h.1 ht
      obtain ⟨hall, hvalues⟩ := ih.1 hrest
      exact ⟨⟨honce, hall⟩, Option.bind_eq_some_iff.2 ⟨state₁, hcanonical, hvalues⟩⟩
    · rintro ⟨⟨honce, hall⟩, hf⟩
      obtain ⟨state₁, hcanonical, hvalues⟩ := Option.bind_eq_some_iff.1 hf
      exact Option.bind_eq_some_iff.2 ⟨state₁, h.2 ⟨honce, hcanonical⟩, ih.2 ⟨hall, hvalues⟩⟩

/-- **An object and its canonical form are taken alike**, if no name comes twice. -/
theorem TakesCanonical.foldlM_canonicalFields_iff {once : String → Json → Prop}
    (h : TakesCanonical take once) (horder : Orderless names take) {fields : Fields}
    {state state' : σ} :
    fields.foldlM take state = some state' ↔
      KeysOnce names fields ∧ (∀ field ∈ fields, once field.1 field.2) ∧
        (canonicalFields [] fields).foldlM take state = some state' := by
  rw [canonicalFields_eq_insertAll]
  constructor
  · intro hf
    have hkeys := horder.keysOnce_of_foldlM hf
    obtain ⟨honce, hvalues⟩ := h.foldlM_canonicalValues_iff.1 hf
    refine ⟨hkeys, honce, ?_⟩
    rwa [horder.foldlM_insertAll (keysOnce_canonicalValues_iff.2 hkeys)]
  · rintro ⟨hkeys, honce, hf⟩
    rw [horder.foldlM_insertAll (keysOnce_canonicalValues_iff.2 hkeys)] at hf
    exact h.foldlM_canonicalValues_iff.2 ⟨honce, hf⟩

end Json

end EventTaxonomy
