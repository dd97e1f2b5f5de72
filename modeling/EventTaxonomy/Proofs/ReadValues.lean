import EventTaxonomy.Proofs.ShapeReading
import Mathlib.Tactic.SplitIfs

/-!
# Values that are read

What can be said of a value from the fact alone that it was read. Its integers fit a 64-bit word
(`allNumbers_fits_of_run`). And the room that the reader had does not matter: a value is read in any
room that it fits in (`run_of_depth_le`), so two readers with different room agree where both of
them read a value (`run_unique`).
-/

namespace EventTaxonomy

/-- The number is a double, or an integer of one 64-bit word, with or without a sign. -/
def Number.fits : Number → Bool
  | .int n => decide (-(Nat.pow 2 63 : Nat) ≤ n) && decide (n ≤ (Json.wordMax : Nat))
  | .float _ => true

namespace Json

/-! ### Measures of values -/

mutual

/-- The number of brackets that are open at a time. -/
def depth : Json → Nat
  | .array items => depthItems items + 1
  | .object fields => depthFields fields + 1
  | .null => 0
  | .bool _ => 0
  | .number _ => 0
  | .string _ => 0

/-- The depth of the deepest item. -/
def depthItems : List Json → Nat
  | [] => 0
  | item :: items => Nat.max (depth item) (depthItems items)

/-- The depth of the deepest value of a field. -/
def depthFields : Fields → Nat
  | [] => 0
  | (_, value) :: fields => Nat.max (depth value) (depthFields fields)

end

mutual

/-- Every number in the value passes the test. -/
def allNumbers (p : Number → Bool) : Json → Bool
  | .array items => allNumbersItems p items
  | .object fields => allNumbersFields p fields
  | .number n => p n
  | .null => true
  | .bool _ => true
  | .string _ => true

/-- Every number in the items passes the test. -/
def allNumbersItems (p : Number → Bool) : List Json → Bool
  | [] => true
  | item :: items => allNumbers p item && allNumbersItems p items

/-- Every number in the fields passes the test. -/
def allNumbersFields (p : Number → Bool) : Fields → Bool
  | [] => true
  | (_, value) :: fields => allNumbers p value && allNumbersFields p fields

end

theorem depthItems_le_iff {items : List Json} {n : Nat} :
    depthItems items ≤ n ↔ ∀ item ∈ items, item.depth ≤ n := by
  induction items with
  | nil => simp [depthItems]
  | cons item items ih =>
    rw [depthItems, List.forall_mem_cons, ← ih]
    exact Nat.max_le

theorem depthFields_le_iff {fields : Fields} {n : Nat} :
    depthFields fields ≤ n ↔ ∀ field ∈ fields, field.2.depth ≤ n := by
  induction fields with
  | nil => simp [depthFields]
  | cons field fields ih =>
    rw [depthFields, List.forall_mem_cons, ← ih]
    exact Nat.max_le

theorem allNumbersItems_iff {p : Number → Bool} {items : List Json} :
    allNumbersItems p items = true ↔ ∀ item ∈ items, item.allNumbers p = true := by
  induction items with
  | nil => simp [allNumbersItems]
  | cons item items ih => rw [allNumbersItems, List.forall_mem_cons, ← ih, Bool.and_eq_true]

theorem allNumbersFields_iff {p : Number → Bool} {fields : Fields} :
    allNumbersFields p fields = true ↔ ∀ field ∈ fields, field.2.allNumbers p = true := by
  induction fields with
  | nil => simp [allNumbersFields]
  | cons field fields ih => rw [allNumbersFields, List.forall_mem_cons, ← ih, Bool.and_eq_true]

mutual

theorem allNumbers_mono {p q : Number → Bool} (h : ∀ n, p n = true → q n = true) :
    ∀ v : Json, v.allNumbers p = true → v.allNumbers q = true
  | .array items, hv => allNumbersItems_mono h items hv
  | .object fields, hv => allNumbersFields_mono h fields hv
  | .number n, hv => h n hv
  | .null, _ | .bool _, _ | .string _, _ => rfl

theorem allNumbersItems_mono {p q : Number → Bool} (h : ∀ n, p n = true → q n = true) :
    ∀ items : List Json, allNumbersItems p items = true → allNumbersItems q items = true
  | [], _ => rfl
  | item :: items, hv => by
    obtain ⟨hitem, hrest⟩ := Bool.and_eq_true_iff.1 hv
    exact Bool.and_eq_true_iff.2
      ⟨allNumbers_mono h item hitem, allNumbersItems_mono h items hrest⟩

theorem allNumbersFields_mono {p q : Number → Bool} (h : ∀ n, p n = true → q n = true) :
    ∀ fields : Fields, allNumbersFields p fields = true → allNumbersFields q fields = true
  | [], _ => rfl
  | (_, value) :: fields, hv => by
    obtain ⟨hvalue, hrest⟩ := Bool.and_eq_true_iff.1 hv
    exact Bool.and_eq_true_iff.2
      ⟨allNumbers_mono h value hvalue, allNumbersFields_mono h fields hrest⟩

end

/-! ### Items and fields one by one -/

section Members

variable {reader reader' : Reader Json} {first : Bool} {s r : List Char}

theorem forall_mem_of_items {p : Json → Prop} (hp : ∀ ⦃q t v⦄, reader.run q = .ok (v, t) → p v)
    {items : List Json} (h : reader.items first s = .ok (items, r)) : ∀ item ∈ items, p item := by
  fun_induction Reader.items reader first s generalizing items r with
  | case1 => cases h
  | case2 =>
    cases h
    simp
  | case3 => cases h
  | case4 => cases h
  | case5 first s t hn v u hv vs w hvs ih =>
    cases h
    exact List.forall_mem_cons.2 ⟨hp hv, ih hvs⟩

theorem ReadsFields.forall_mem {p : Json → Prop} (hp : ∀ ⦃q t v⦄, reader.run q = .ok (v, t) → p v)
    {fields : Fields} (h : ReadsFields reader first s fields r) :
    ∀ field ∈ fields, p field.2 := by
  induction h with
  | done hn => simp
  | field hn hc hv _ ih => exact List.forall_mem_cons.2 ⟨hp hv, ih⟩

/-- A reader that reads each of the items reads the list. -/
theorem items_transfer {items : List Json} (h : reader.items first s = .ok (items, r))
    (ht : ∀ item ∈ items, ∀ ⦃q t⦄, reader.run q = .ok (item, t) → reader'.run q = .ok (item, t)) :
    reader'.items first s = .ok (items, r) := by
  fun_induction Reader.items reader first s generalizing items r with
  | case1 => cases h
  | case2 first s t hn =>
    cases h
    exact items_of_done hn
  | case3 => cases h
  | case4 => cases h
  | case5 first s t hn v u hv vs w hvs ih =>
    cases h
    obtain ⟨hitem, hrest⟩ := List.forall_mem_cons.1 ht
    exact items_of_item hn (hitem hv) (ih hvs hrest)

/-- A reader that reads the value of each of the fields reads the fields. -/
theorem ReadsFields.transfer {fields : Fields} (h : ReadsFields reader first s fields r)
    (ht : ∀ field ∈ fields, ∀ ⦃q t⦄, reader.run q = .ok (field.2, t) →
      reader'.run q = .ok (field.2, t)) :
    ReadsFields reader' first s fields r := by
  induction h with
  | done hn => exact .done hn
  | field hn hc hv _ ih =>
    obtain ⟨hfield, hrest⟩ := List.forall_mem_cons.1 ht
    exact .field hn hc (hfield hv) (ih hrest)

end Members

/-! ### Room -/

/-- **A value is read in any room that it fits in.** -/
theorem run_of_depth_le {room room' : Nat} {s r : List Char} {v : Json}
    (h : (valueReader room).run s = .ok (v, r)) (hroom : v.depth ≤ room') :
    (valueReader room').run s = .ok (v, r) := by
  -- on the room of the first reader: what stands in brackets was read in less of it
  induction room using Nat.strongRecOn generalizing room' s r v with
  | _ room ih =>
    obtain ⟨c, p, hs, hv⟩ := run_valueReader_eq_ok.1 h
    refine run_valueReader_eq_ok.2 ⟨c, p, hs, ?_⟩
    rcases takeValue_cases hv with
      ⟨d, items, rfl, rfl, hitems, rfl⟩ | ⟨d, fields, rfl, rfl, hfields, rfl⟩ | ⟨hb, hc, hscalar⟩
    · cases room' with
      | zero => exact absurd hroom (Nat.not_succ_le_zero _)
      | succ d' =>
        have hdepth := depthItems_le_iff.1 (Nat.le_of_succ_le_succ hroom)
        refine takeValue_eq_array_iff.2 ⟨rfl, d', rfl, items_transfer hitems ?_⟩
        intro item hitem q t hq
        exact ih d (Nat.lt_succ_self d) hq (hdepth item hitem)
    · cases room' with
      | zero => exact absurd hroom (Nat.not_succ_le_zero _)
      | succ d' =>
        have hdepth := depthFields_le_iff.1 (Nat.le_of_succ_le_succ hroom)
        refine takeValue_eq_object_iff.2 ⟨rfl, d', rfl, hfields.transfer ?_⟩
        intro field hfield q t hq
        exact ih d (Nat.lt_succ_self d) hq (hdepth field hfield)
    · rw [takeValue_of_ne hb hc]
      exact hscalar

theorem run_unique {room room' : Nat} {s r r' : List Char} {v v' : Json}
    (h : (valueReader room).run s = .ok (v, r)) (h' : (valueReader room').run s = .ok (v', r')) :
    v = v' ∧ r = r' := by
  have hv : (valueReader (Nat.max v.depth v'.depth)).run s = .ok (v, r) :=
    run_of_depth_le h (Nat.le_max_left _ _)
  have hv' : (valueReader (Nat.max v.depth v'.depth)).run s = .ok (v', r') :=
    run_of_depth_le h' (Nat.le_max_right _ _)
  exact Prod.mk.inj (Except.ok.inj (hv.symm.trans hv'))

/-- A value that was read fits in the room of its reader. -/
theorem depth_le_of_run {room : Nat} {s r : List Char} {v : Json}
    (h : (valueReader room).run s = .ok (v, r)) : v.depth ≤ room := by
  induction room using Nat.strongRecOn generalizing s r v with
  | _ room ih =>
    obtain ⟨c, p, -, hv⟩ := run_valueReader_eq_ok.1 h
    rcases takeValue_cases hv with
      ⟨d, items, -, rfl, hitems, rfl⟩ | ⟨d, fields, -, rfl, hfields, rfl⟩ | ⟨-, -, hscalar⟩
    · refine Nat.succ_le_succ (depthItems_le_iff.2 (forall_mem_of_items ?_ hitems))
      intro q t item hq
      exact ih d (Nat.lt_succ_self d) hq
    · refine Nat.succ_le_succ (depthFields_le_iff.2
        (hfields.forall_mem (p := fun v => v.depth ≤ d) ?_))
      intro q t value hq
      exact ih d (Nat.lt_succ_self d) hq
    · obtain ⟨-, harray, hobject⟩ := takeScalar_eq_ok hscalar
      cases v with
      | array items => exact absurd rfl (harray items)
      | object fields => exact absurd rfl (hobject fields)
      | _ => exact Nat.zero_le room

/-! ### Numbers -/

theorem absorb_le {limit n : Nat} {ds : List Char} (h : n ≤ limit) :
    (absorb limit n ds).1 ≤ limit := by
  induction ds generalizing n with
  | nil => exact h
  | cons d ds ih =>
    rw [absorb]
    split_ifs with hlt
    · exact h
    · exact ih (Nat.not_lt.1 hlt)

theorem fits_wordNumber {negative : Bool} {n : Nat} (h : n ≤ wordMax) :
    (wordNumber negative n).fits = true := by
  unfold wordNumber
  split_ifs with hnegative hrange
  · -- a zero with a sign, or too small a number, is made a double
    rfl
  · simp only [Bool.or_eq_true, decide_eq_true_eq, not_or] at hrange
    simp only [Number.fits, Bool.and_eq_true, decide_eq_true_eq]
    omega
  · simp only [Number.fits, Bool.and_eq_true, decide_eq_true_eq]
    omega

theorem fits_scaledNumber {negative : Bool} {n : Nat} {e : Int} {s r : List Char} {x : Number}
    (h : scaledNumber negative n e s = .ok (x, r)) : x.fits = true := by
  unfold scaledNumber at h
  split at h
  · cases h
    rfl
  · cases h

theorem fits_takeExponentDigits {negative down : Bool} {n : Nat} {e : Int} {s r : List Char}
    {x : Number} (h : takeExponentDigits negative n e down s = .ok (x, r)) : x.fits = true := by
  unfold takeExponentDigits at h
  split at h
  · split at h <;> cases h
  · dsimp only at h
    split at h
    · exact fits_scaledNumber h
    · split_ifs at h
      cases h
      rfl

theorem fits_takeScale {negative : Bool} {n : Nat} {e : Int} {s r : List Char} {x : Number}
    (h : takeScale negative n e s = .ok (x, r)) : x.fits = true := by
  have hexponent : ∀ {p}, takeExponent negative n e p = .ok (x, r) → x.fits = true := by
    intro p hp
    unfold takeExponent at hp
    split at hp <;> exact fits_takeExponentDigits hp
  unfold takeScale at h
  split at h
  · exact hexponent h
  · exact hexponent h
  · exact fits_scaledNumber h

theorem fits_takeFraction {negative : Bool} {n : Nat} {e : Int} {s r : List Char} {x : Number}
    (h : takeFraction negative n e s = .ok (x, r)) : x.fits = true := by
  unfold takeFraction at h
  split at h
  · split at h <;> cases h
  · exact fits_takeScale h

theorem fits_takeNumber {negative : Bool} {s r : List Char} {x : Number}
    (h : takeNumber negative s = .ok (x, r)) : x.fits = true := by
  obtain ⟨d, ds, hd, hzero⟩ := digits_of_takeNumber h
  rw [takeNumber_of_digits hd hzero] at h
  unfold takeAfterDigits at h
  split at h
  · exact fits_takeFraction h
  · exact fits_takeScale h
  · exact fits_takeScale h
  · split_ifs at h
    · cases h
      exact fits_wordNumber (absorb_le (Nat.zero_le _))
    · exact fits_scaledNumber h

theorem allNumbers_fits_of_takeScalar {s r : List Char} {v : Json}
    (h : takeScalar s = .ok (v, r)) : v.allNumbers Number.fits = true := by
  cases s with
  | nil => cases h
  | cons c s =>
    rw [takeScalar] at h
    split_ifs at h
    -- a string and the three words have no number in them
    iterate 4
      · obtain ⟨_, -, he⟩ := map_eq_ok.1 h
        cases he
        rfl
    all_goals
      obtain ⟨⟨n, t⟩, hn, he⟩ := map_eq_ok.1 h
      cases he
      exact fits_takeNumber hn

/-- **The integers of a value that was read fit a word.** -/
theorem allNumbers_fits_of_run {room : Nat} {s r : List Char} {v : Json}
    (h : (valueReader room).run s = .ok (v, r)) : v.allNumbers Number.fits = true := by
  induction room using Nat.strongRecOn generalizing s r v with
  | _ room ih =>
    obtain ⟨c, p, -, hv⟩ := run_valueReader_eq_ok.1 h
    rcases takeValue_cases hv with
      ⟨d, items, -, rfl, hitems, rfl⟩ | ⟨d, fields, -, rfl, hfields, rfl⟩ | ⟨-, -, hscalar⟩
    · refine allNumbersItems_iff.2 (forall_mem_of_items ?_ hitems)
      intro q t item hq
      exact ih d (Nat.lt_succ_self d) hq
    · refine allNumbersFields_iff.2 (hfields.forall_mem (p := fun v => v.allNumbers _ = true) ?_)
      intro q t value hq
      exact ih d (Nat.lt_succ_self d) hq
    · exact allNumbers_fits_of_takeScalar hscalar

end Json

end EventTaxonomy
