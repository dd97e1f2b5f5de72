import EventTaxonomy.Proofs.Verdict
import Mathlib.Data.List.NodupEquivFin
import Mathlib.Data.List.Sort

/-!
# What a rule reports

When a check holds, its rule is silent (`Check.violations_eq_nil_iff`). This module says what a rule
reports otherwise, in terms of the positions of the contexts.

* `Rule.validate_unique`: a rule that asks for unique global contexts reports each identity that
  stands at two positions, once, in the order of the first positions.
* `Rule.validate_location`: a rule about the location stack reports one thing at most. That a
  context is missing comes before there being several, and this before the one being in the wrong
  place.
-/

namespace EventTaxonomy

/-! ### Identities that come more than once -/

theorem one_lt_count_iff {α : Type} [DecidableEq α] {as : List α} {a : α} :
    1 < as.count a ↔ ∃ i j : Nat, i ≠ j ∧ as[i]? = some a ∧ as[j]? = some a := by
  rw [← Nat.succ_le_iff, ← List.duplicate_iff_two_le_count, List.duplicate_iff_exists_distinct_get]
  constructor
  · rintro ⟨i, j, hij, hi, hj⟩
    refine ⟨i, j, Nat.ne_of_lt hij, ?_, ?_⟩
    · rw [hi, List.get_eq_getElem, List.getElem?_eq_getElem]
    · rw [hj, List.get_eq_getElem, List.getElem?_eq_getElem]
  · rintro ⟨i, j, hij, hi, hj⟩
    wlog hlt : i < j generalizing i j
    · exact this j i hij.symm hj hi (by omega)
    obtain ⟨hi, hai⟩ := List.getElem?_eq_some_iff.1 hi
    obtain ⟨hj, haj⟩ := List.getElem?_eq_some_iff.1 hj
    exact ⟨⟨i, hi⟩, ⟨j, hj⟩, hlt, hai.symm, haj.symm⟩

namespace Event

/-- A context with this type and id is at an index of the global contexts. -/
def CarriesAt (e : Event) (pair : ContextName × String) (index : Nat) : Prop :=
  ∃ c, e.globalContexts[index]? = some c ∧ (c.type, c.id) = pair

/-- The index of the first global context with this type and id. -/
def firstCarrier (e : Event) (pair : ContextName × String) : Nat :=
  e.globalContexts.findIdx fun c => (c.type, c.id) = pair

theorem getElem?_identities_iff {e : Event} {pair : ContextName × String} {index : Nat} :
    (e.globalContexts.map Context.identity)[index]? = some pair ↔ e.CarriesAt pair index := by
  rw [List.getElem?_map, Option.map_eq_some_iff]
  rfl

theorem firstIndex_identities (e : Event) (pair : ContextName × String) :
    firstIndex (e.globalContexts.map Context.identity) pair = e.firstCarrier pair :=
  List.findIdx_map _ _ _

end Event

namespace Rule

/-- **A rule that asks for unique global contexts reports the identities that come more than once.**
Each is reported once, in the order of the first contexts that have them, and as a duplicate
identity with the type of the event and the prefix of the rule. An event that the rule is not about
is not reported at all. -/
theorem validate_unique {r : Rule} (hr : r.check = .unique) (e : Event) :
    (r.appliesTo e = false → r.validate e = []) ∧
      (r.appliesTo e = true → ∃ pairs : List (ContextName × String),
        r.validate e = pairs.map (fun pair => ⟨.uniqueGlobalContext, .duplicateIdentity pair.2,
          pair.1, e.type, r.logPrefix⟩) ∧
        pairs.Nodup ∧
        (∀ pair, pair ∈ pairs ↔ ∃ i j, i ≠ j ∧ e.CarriesAt pair i ∧ e.CarriesAt pair j) ∧
        pairs.Pairwise fun a b => e.firstCarrier a < e.firstCarrier b) := by
  refine ⟨fun hnot => ?_, fun happlies => ?_⟩
  · rw [validate, hnot, if_neg Bool.false_ne_true]
  · refine ⟨repeated (e.globalContexts.map Context.identity), ?_, nodup_repeated _,
      fun pair => ?_, ?_⟩
    · have hkind : r.kind = .uniqueGlobalContext := by rw [kind, hr]; rfl
      rw [validate, if_pos happlies, hr, Check.violations, List.map_map]
      refine List.map_congr_left fun pair _ => ?_
      show r.diagnostic e pair.1 (.duplicateIdentity pair.2) = _
      rw [diagnostic_eq, hkind]
    · simp only [mem_repeated, one_lt_count_iff, Event.getElem?_identities_iff]
    · simpa only [Event.firstIndex_identities] using
        pairwise_repeated (e.globalContexts.map Context.identity)

end Rule

/-- Two identities that come more than once, each between contexts of the other; an id under two
types, and a type with two ids. -/
def Event.interleaved : Event where
  type := ⟨"PressEvent"⟩
  globalContexts :=
    [.new ⟨"PathContext"⟩ "a", .new ⟨"HttpContext"⟩ "a", .new ⟨"PathContext"⟩ "b",
      .new ⟨"HttpContext"⟩ "a", .new ⟨"PathContext"⟩ "a", .new ⟨"HttpContext"⟩ "a"]
  locationStack := []
  fields := []

example : (Rule.unique .core).validate .interleaved =
    [⟨.uniqueGlobalContext, .duplicateIdentity "a", ⟨"PathContext"⟩, ⟨"PressEvent"⟩, none⟩,
      ⟨.uniqueGlobalContext, .duplicateIdentity "a", ⟨"HttpContext"⟩, ⟨"PressEvent"⟩, none⟩] := by
  decide

theorem Rule.validate_unique_interleaved :
    (Rule.unique .core).check = .unique ∧ (Rule.unique .core).appliesTo .interleaved = true ∧
      ∃ pairs : List (ContextName × String),
        (Rule.unique .core).validate .interleaved = pairs.map (fun pair =>
          ⟨.uniqueGlobalContext, .duplicateIdentity pair.2, pair.1, ⟨"PressEvent"⟩, none⟩) ∧
        pairs.Nodup ∧ (⟨"PathContext"⟩, "a") ∈ pairs ∧ (⟨"HttpContext"⟩, "a") ∈ pairs := by
  obtain ⟨pairs, hvalidate, hnodup, hmem, -⟩ :=
    (validate_unique (r := Rule.unique .core) rfl .interleaved).2 rfl
  refine ⟨rfl, rfl, pairs, hvalidate, hnodup, ?_, ?_⟩
  · exact (hmem _).2 ⟨0, 4, by decide, ⟨_, rfl, rfl⟩, ⟨_, rfl, rfl⟩⟩
  · exact (hmem _).2 ⟨1, 3, by decide, ⟨_, rfl, rfl⟩, ⟨_, rfl, rfl⟩⟩

/-! ### The place of a location context -/

namespace Check

variable {occurrence : Occurrence}

theorem placement_of_twice (honce : occurrence.isOnce = true) {indices : List Nat}
    (htwice : 2 ≤ indices.length) : placement occurrence indices = some .duplicate := by
  match indices, htwice with
  | i :: j :: more, _ => simp [placement, honce]

theorem placement_singleton (occurrence : Occurrence) (i : Nat) :
    placement occurrence [i] = occurrence.position.bind fun n =>
      if n = i then none else some (.wrongPosition n i) := by
  cases h : occurrence.position <;> simp [placement, h]

theorem placement_of_not_once (honce : occurrence.isOnce = false) {indices : List Nat}
    (hne : indices ≠ []) : placement occurrence indices = none := by
  cases occurrence with
  | atLeastOnce =>
    match indices, hne with
    | i :: more, _ => rfl
  | once => cases honce
  | onceAt n => cases honce

/-- Places are left alone if there are some, not too many, and the only one is not elsewhere. -/
theorem placement_of_fitting {indices : List Nat} (hne : indices ≠ [])
    (hfew : occurrence.isOnce = true → indices.length < 2)
    (hplace : ∀ n i, occurrence.position = some n → indices = [i] → i = n) :
    placement occurrence indices = none := by
  by_cases honce : occurrence.isOnce = true
  · have hlength : indices.length = 1 := by
      have hpos := List.length_pos_iff.2 hne
      have hlt := hfew honce
      omega
    obtain ⟨i, rfl⟩ := List.length_eq_one_iff.1 hlength
    rw [placement_singleton]
    cases hposition : occurrence.position with
    | none => rfl
    | some n => rw [Option.bind_some, if_pos (hplace n i hposition rfl).symm]
  · exact placement_of_not_once (Bool.not_eq_true _ ▸ honce) hne

end Check

namespace Event

/-- The indices of a type are the only increasing list of the positions at which it stands. -/
theorem eq_locationIndices {e : Event} {name : ContextName} {indices : List Nat}
    (hascend : indices.Pairwise (· < ·)) (hmem : ∀ i, i ∈ indices ↔ e.StandsAt name i) :
    indices = e.locationIndices name :=
  hascend.eq_of_mem_iff (e.pairwise_locationIndices name) fun i =>
    (hmem i).trans mem_locationIndices.symm

end Event

namespace Rule

theorem validate_of_location {r : Rule} {name : ContextName} {occurrence : Occurrence}
    (hr : r.check = .location name occurrence) {e : Event} (he : r.appliesTo e = true) :
    r.validate e =
      ((Check.placement occurrence (e.locationIndices name)).map (r.diagnostic e name)).toList := by
  rw [validate, if_pos he, hr, Check.violations, Event.locationIndices]
  cases Check.placement occurrence ((e.locationsOf name).map Prod.fst) <;> rfl

/-- **A rule about the location stack reports one thing at most, in a fixed order.** Let the indices
be those at which its type stands in the stack of an event that the rule is about. If there are
none, the context is missing; if only one is allowed and there are several, they are duplicates; if
an index is asked for and the only one is another, it is the wrong position; otherwise nothing is
reported. Whatever is reported comes with the type of the event and the prefix of the rule. -/
theorem validate_location {r : Rule} {name : ContextName} {occurrence : Occurrence}
    (hr : r.check = .location name occurrence) {e : Event} (he : r.appliesTo e = true)
    {indices : List Nat} (hascend : indices.Pairwise (· < ·))
    (hmem : ∀ i, i ∈ indices ↔ e.StandsAt name i) :
    (indices = [] →
        r.validate e = [⟨.locationContext, .missing, name, e.type, r.logPrefix⟩]) ∧
      (occurrence.isOnce = true → 2 ≤ indices.length →
        r.validate e = [⟨.locationContext, .duplicate, name, e.type, r.logPrefix⟩]) ∧
      (∀ n i, occurrence.position = some n → indices = [i] → i ≠ n →
        r.validate e = [⟨.locationContext, .wrongPosition n i, name, e.type, r.logPrefix⟩]) ∧
      (indices ≠ [] → (occurrence.isOnce = true → indices.length < 2) →
        (∀ n i, occurrence.position = some n → indices = [i] → i = n) → r.validate e = []) ∧
      (r.validate e).length ≤ 1 ∧
      ∀ d ∈ r.validate e, ∀ expected actual, d.violation = .wrongPosition expected actual →
        e.StandsAt name actual ∧ expected ≠ actual := by
  have hwords : r.diagnostic e name =
      fun violation => ⟨.locationContext, violation, name, e.type, r.logPrefix⟩ := by
    funext violation
    rw [diagnostic_eq, kind, hr]
    rfl
  rw [validate_of_location hr he, ← Event.eq_locationIndices hascend hmem, hwords]
  refine ⟨?_, ?_, ?_, ?_, ?_, ?_⟩
  · rintro rfl
    rfl
  · intro honce htwice
    rw [Check.placement_of_twice honce htwice]
    rfl
  · rintro n i hposition rfl hne
    rw [Check.placement_singleton, hposition, Option.bind_some, if_neg hne.symm]
    rfl
  · intro hne hfew hplace
    rw [Check.placement_of_fitting hne hfew hplace]
    rfl
  · cases Check.placement occurrence indices <;> simp
  · intro d hd expected actual hviolation
    obtain ⟨violation, hplacement, rfl⟩ := Option.map_eq_some_iff.1 (Option.mem_toList.1 hd)
    obtain rfl : violation = .wrongPosition expected actual := hviolation
    obtain ⟨-, hactual, hne⟩ := Check.placement_eq_wrongPosition hplacement
    exact ⟨(hmem actual).1 hactual, hne⟩

end Rule

/-- An event with contexts of these types in its location stack. -/
def Event.stacked (types : List String) : Event :=
  ⟨⟨"PressEvent"⟩, [], types.map fun type => .new ⟨type⟩ "x", []⟩

/-- A root that has to be at the top is in the wrong place below another context; of two that are
both below it, all that is reported is that there are two; and one that is not there is missing. -/
theorem Rule.validate_location_below :
    let root : ContextName := ⟨"RootLocationContext"⟩
    let r := ((Rule.location .core root).onceAt 0).withLogPrefix "App"
    let none := Event.stacked ["ContentContext"]
    let one := Event.stacked ["ContentContext", "RootLocationContext"]
    let two := Event.stacked ["ContentContext", "RootLocationContext", "RootLocationContext"]
    r.check = .location root (.onceAt 0) ∧ (∀ e, r.appliesTo e = true) ∧
      (∀ i, i ∈ [] ↔ none.StandsAt root i) ∧ (∀ i, i ∈ [1] ↔ one.StandsAt root i) ∧
      (∀ i, i ∈ [1, 2] ↔ two.StandsAt root i) ∧
      r.validate none = [⟨.locationContext, .missing, root, ⟨"PressEvent"⟩, some "App"⟩] ∧
      r.validate one =
        [⟨.locationContext, .wrongPosition 0 1, root, ⟨"PressEvent"⟩, some "App"⟩] ∧
      r.validate two = [⟨.locationContext, .duplicate, root, ⟨"PressEvent"⟩, some "App"⟩] := by
  intro root r none one two
  have hnone : ∀ i, i ∈ [] ↔ none.StandsAt root i := by
    rw [show [] = none.locationIndices root by decide]
    exact fun i => Event.mem_locationIndices
  have hone : ∀ i, i ∈ [1] ↔ one.StandsAt root i := by
    rw [show [1] = one.locationIndices root by decide]
    exact fun i => Event.mem_locationIndices
  have htwo : ∀ i, i ∈ [1, 2] ↔ two.StandsAt root i := by
    rw [show [1, 2] = two.locationIndices root by decide]
    exact fun i => Event.mem_locationIndices
  have hmissing := (validate_location (r := r) (e := none) rfl rfl .nil hnone).1
  have hwrong := (validate_location (r := r) (e := one) rfl rfl (by decide) hone).2.2.1
  have hduplicate := (validate_location (r := r) (e := two) rfl rfl (by decide) htwo).2.1
  exact ⟨rfl, fun _ => rfl, hnone, hone, htwo, hmissing rfl, hwrong 0 1 rfl rfl (by decide),
    hduplicate rfl (by decide)⟩

end EventTaxonomy
