import EventTaxonomy.Rule.Verdict
import Mathlib.Data.List.Nodup
import Mathlib.Logic.ExistsUnique

/-!
# What a check asks of an event

`Check.violations` scans the contexts of an event and stops at the first thing that is wrong.
`Check.HoldsOn` says what the scan is for, in terms of the positions of the two lists of contexts,
and `Check.violations_eq_nil_iff` proves that a check finds nothing exactly where it holds.

* the pass that looks for repeated elements keeps the counts and the order of what it has seen
  (`Tally.IsOf.add`), so it finds the elements that come more than once (`mem_repeated`), each once
  and by the index at which it first stands (`pairwise_repeated`);
* a list has no element more than once iff `repeated` is empty (`repeated_eq_nil_iff`);
* `Event.locationsOf` lists the positions of a type, each once (`Event.mem_locationIndices`,
  `Event.nodup_locationIndices`);
* `Check.placement` is content with a list of positions iff it is the one that the occurrence asks
  for (`Check.placement_eq_none_iff`);
* a rule words a violation with the type of the event and its own prefix (`Rule.diagnostic_eq`).
-/

namespace EventTaxonomy

/-! ### Repeated elements -/

section Repeated

variable {α : Type} [DecidableEq α]

/-- The index at which an element first stands in a list. -/
def firstIndex (as : List α) (a : α) : Nat := as.findIdx fun b => b = a

theorem firstIndex_lt_length_iff {as : List α} {a : α} :
    firstIndex as a < as.length ↔ a ∈ as := by
  simp [firstIndex, List.findIdx_lt_length]

theorem firstIndex_append_of_mem {as : List α} {a : α} (h : a ∈ as) (bs : List α) :
    firstIndex (as ++ bs) a = firstIndex as a := by
  have hlt := firstIndex_lt_length_iff.2 h
  unfold firstIndex at hlt ⊢
  rw [List.findIdx_append, if_pos hlt]

theorem length_le_firstIndex_append {as : List α} {a : α} (h : a ∉ as) (bs : List α) :
    as.length ≤ firstIndex (as ++ bs) a := by
  have hlt := mt firstIndex_lt_length_iff.1 h
  unfold firstIndex at hlt ⊢
  rw [List.findIdx_append, if_neg hlt]
  exact Nat.le_add_left _ _

namespace Tally

/-- The tally is that of a list: it has counted the elements of the list, and has them in the order
of the indices at which they first stand. -/
structure IsOf (t : Tally α) (as : List α) : Prop where
  count : ∀ a, t.count a = as.count a
  mem : ∀ a, a ∈ t.order ↔ a ∈ as
  order : t.order.Pairwise fun a b => firstIndex as a < firstIndex as b

theorem isOf_empty : (empty : Tally α).IsOf [] := ⟨fun _ => rfl, fun _ => Iff.rfl, .nil⟩

theorem IsOf.add {t : Tally α} {as : List α} (h : t.IsOf as) (a : α) :
    (t.add a).IsOf (as ++ [a]) := by
  have hcount : ∀ b, (t.add a).count b = (as ++ [a]).count b := by
    intro b
    show (if b = a then t.count b + 1 else t.count b) = _
    rw [h.count, List.count_append, List.count_singleton]
    by_cases hb : b = a
    · simp [hb]
    · simp [hb, Ne.symm hb]
  -- an index at which an element stood already is not changed by one more element
  have hold : t.order.Pairwise fun b c => firstIndex (as ++ [a]) b < firstIndex (as ++ [a]) c := by
    refine h.order.imp_of_mem fun {b c} hb hc hlt => ?_
    rwa [firstIndex_append_of_mem ((h.mem b).1 hb), firstIndex_append_of_mem ((h.mem c).1 hc)]
  by_cases hnew : t.count a = 0
  · have ha : a ∉ as := List.count_eq_zero.1 ((h.count a).symm.trans hnew)
    have horder : (t.add a).order = t.order ++ [a] := if_pos hnew
    refine ⟨hcount, fun b => ?_, ?_⟩
    · rw [horder, List.mem_append, List.mem_append, h.mem]
    · rw [horder]
      refine List.pairwise_append.2 ⟨hold, List.pairwise_singleton _ _, fun b hb c hc => ?_⟩
      obtain rfl := List.mem_singleton.1 hc
      have hb := (h.mem b).1 hb
      calc firstIndex (as ++ [c]) b
          = firstIndex as b := firstIndex_append_of_mem hb _
        _ < as.length := firstIndex_lt_length_iff.2 hb
        _ ≤ firstIndex (as ++ [c]) c := length_le_firstIndex_append ha _
  · have ha : a ∈ as := by
      rw [h.count] at hnew
      exact List.count_pos_iff.1 (Nat.pos_of_ne_zero hnew)
    have horder : (t.add a).order = t.order := if_neg hnew
    refine ⟨hcount, fun b => ?_, horder ▸ hold⟩
    rw [horder, h.mem, List.mem_append, List.mem_singleton]
    exact ⟨.inl, fun hb => hb.elim id fun heq => heq ▸ ha⟩

theorem IsOf.foldl {t : Tally α} {as : List α} (h : t.IsOf as) (bs : List α) :
    (bs.foldl Tally.add t).IsOf (as ++ bs) := by
  induction bs generalizing t as with
  | nil => rwa [List.append_nil]
  | cons b bs ih =>
    rw [List.append_cons]
    exact ih (h.add b)

theorem isOf_foldl (as : List α) : (as.foldl add empty).IsOf as := isOf_empty.foldl as

end Tally

theorem mem_repeated {as : List α} {a : α} : a ∈ repeated as ↔ 1 < as.count a := by
  have htally := Tally.isOf_foldl as
  simp only [repeated, Tally.repeated, List.mem_filter, htally.mem, htally.count,
    decide_eq_true_eq]
  constructor
  · exact fun h => h.2
  · intro h
    exact ⟨List.count_pos_iff.1 (by omega), h⟩

theorem pairwise_repeated (as : List α) :
    (repeated as).Pairwise fun a b => firstIndex as a < firstIndex as b :=
  (Tally.isOf_foldl as).order.filter _

theorem nodup_repeated (as : List α) : (repeated as).Nodup :=
  (pairwise_repeated as).imp fun hlt heq => absurd (heq ▸ hlt) (Nat.lt_irrefl _)

theorem repeated_eq_nil_iff {as : List α} : repeated as = [] ↔ as.Nodup := by
  rw [List.eq_nil_iff_forall_not_mem, List.nodup_iff_count_le_one]
  simp only [mem_repeated, Nat.not_lt]

end Repeated

/-! ### Positions in the location stack -/

namespace Event

/-- A context of the type stands at an index of the location stack. -/
def StandsAt (e : Event) (name : ContextName) (index : Nat) : Prop :=
  ∃ c, e.locationStack[index]? = some c ∧ c.type = name

/-- The indices at which a type stands in the location stack. -/
def locationIndices (e : Event) (name : ContextName) : List Nat :=
  (e.locationsOf name).map Prod.fst

theorem mem_indexed {name : ContextName} {start index : Nat} {cs : List Context} {c : Context} :
    (index, c) ∈ indexed name start cs ↔
      ∃ k, index = start + k ∧ cs[k]? = some c ∧ c.type = name := by
  induction cs generalizing start with
  | nil => simp [indexed]
  | cons d cs ih =>
    -- a later position of `d :: cs` is a position of `cs` shifted by one
    have hshift : (index, c) ∈ indexed name (start + 1) cs ↔
        ∃ k, index = start + (k + 1) ∧ (d :: cs)[k + 1]? = some c ∧ c.type = name := by
      rw [ih]
      simp only [List.getElem?_cons_succ, Nat.add_assoc, Nat.add_comm 1]
    have hsplit : (∃ k, index = start + k ∧ (d :: cs)[k]? = some c ∧ c.type = name) ↔
        (index = start ∧ d = c ∧ c.type = name) ∨ (index, c) ∈ indexed name (start + 1) cs := by
      rw [hshift]
      constructor
      · rintro ⟨k, hk, hc, hn⟩
        cases k with
        | zero => exact .inl ⟨hk, by simpa using hc, hn⟩
        | succ k => exact .inr ⟨k, hk, hc, hn⟩
      · rintro (⟨hi, hd, hn⟩ | ⟨k, hk, hc, hn⟩)
        · exact ⟨0, hi, by simpa using hd, hn⟩
        · exact ⟨k + 1, hk, hc, hn⟩
    rw [hsplit, indexed]
    split_ifs with hd
    · rw [List.mem_cons, Prod.mk.injEq]
      constructor
      · rintro (⟨hi, rfl⟩ | h)
        · exact .inl ⟨hi, rfl, hd⟩
        · exact .inr h
      · rintro (⟨hi, rfl, -⟩ | h)
        · exact .inl ⟨hi, rfl⟩
        · exact .inr h
    · constructor
      · exact .inr
      · rintro (⟨-, rfl, hn⟩ | h)
        · exact absurd hn hd
        · exact h

theorem mem_locationIndices {e : Event} {name : ContextName} {index : Nat} :
    index ∈ e.locationIndices name ↔ e.StandsAt name index := by
  simp only [locationIndices, locationsOf, List.mem_map, Prod.exists, exists_and_right,
    exists_eq_right, mem_indexed, Nat.zero_add, StandsAt]
  constructor
  · rintro ⟨c, k, rfl, h⟩
    exact ⟨c, h⟩
  · rintro ⟨c, h⟩
    exact ⟨c, index, rfl, h⟩

theorem pairwise_indexed (name : ContextName) (start : Nat) (cs : List Context) :
    (indexed name start cs).Pairwise fun a b => a.1 < b.1 := by
  induction cs generalizing start with
  | nil => exact .nil
  | cons d cs ih =>
    rw [indexed]
    split_ifs with hd
    · refine .cons ?_ (ih (start + 1))
      rintro ⟨index, c⟩ h
      obtain ⟨k, hk, -⟩ := mem_indexed.1 h
      dsimp only
      omega
    · exact ih (start + 1)

theorem pairwise_locationIndices (e : Event) (name : ContextName) :
    (e.locationIndices name).Pairwise (· < ·) :=
  List.pairwise_map.2 (pairwise_indexed name 0 e.locationStack)

theorem nodup_locationIndices (e : Event) (name : ContextName) :
    (e.locationIndices name).Nodup :=
  (e.pairwise_locationIndices name).imp Nat.ne_of_lt

end Event

/-! ### Checks -/

namespace Occurrence

/-- The set of indices is one that the occurrence allows. -/
def Allows (occurrence : Occurrence) (p : Nat → Prop) : Prop :=
  (∃ i, p i) ∧ (occurrence.isOnce = true → ∃! i, p i) ∧
    ∀ n, occurrence.position = some n → ∀ i, p i → i = n

end Occurrence

namespace Check

/-- What the check asks of an event: a global context of the type; no identity at two positions
of the global contexts; a type in the location stack as often, and where, it is wanted. -/
def HoldsOn : Check → Event → Prop
  | missing name, e => ∃ c ∈ e.globalContexts, c.type = name
  | unique, e => ∀ (i j : Nat) (c d : Context), i ≠ j → e.globalContexts[i]? = some c →
      e.globalContexts[j]? = some d → c.identity ≠ d.identity
  | location name occurrence, e => occurrence.Allows (e.StandsAt name)

theorem existsUnique_mem_iff {is : List Nat} (h : is.Nodup) : (∃! i, i ∈ is) ↔ ∃ i, is = [i] := by
  constructor
  · rintro ⟨i, hi, huniq⟩
    match is, h, hi, huniq with
    | [j], _, _, _ => exact ⟨j, rfl⟩
    | j :: k :: is, h, _, huniq =>
      have hj := huniq j (by simp)
      have hk := huniq k (by simp)
      simp [hj, hk] at h
  · rintro ⟨i, rfl⟩
    exact ⟨i, by simp, by simp⟩

theorem placement_eq_none_iff {occurrence : Occurrence} {is : List Nat} (h : is.Nodup) :
    placement occurrence is = none ↔ occurrence.Allows (· ∈ is) := by
  rw [Occurrence.Allows, existsUnique_mem_iff h]
  match is with
  | [] => simp [placement]
  | i :: more =>
    cases occurrence with
    | atLeastOnce => simp [placement, Occurrence.isOnce, Occurrence.position]
    | once => cases more <;> simp [placement, Occurrence.isOnce, Occurrence.position]
    | onceAt n => cases more <;> simp [placement, Occurrence.isOnce, Occurrence.position, eq_comm]

theorem placement_eq_wrongPosition {occurrence : Occurrence} {indices : List Nat}
    {expected actual : Nat}
    (h : placement occurrence indices = some (.wrongPosition expected actual)) :
    occurrence = .onceAt expected ∧ actual ∈ indices ∧ expected ≠ actual := by
  cases indices with
  | nil => cases h
  | cons index more =>
    unfold placement at h
    cases occurrence with
    | atLeastOnce => cases h
    | once =>
      simp only [Occurrence.position] at h
      split at h <;> cases h
    | onceAt position =>
      simp only [Occurrence.position] at h
      split_ifs at h with hmore hne
      · cases h
      · cases h
        exact ⟨rfl, List.mem_cons_self, hne⟩

theorem nodup_identities_iff {cs : List Context} :
    (cs.map Context.identity).Nodup ↔ ∀ (i j : Nat) (c d : Context), i ≠ j → cs[i]? = some c →
      cs[j]? = some d → c.identity ≠ d.identity := by
  rw [List.nodup_iff_getElem?_ne_getElem?]
  simp only [List.getElem?_map, List.length_map]
  constructor
  · intro h i j c d hij hc hd heq
    obtain ⟨hi, -⟩ := List.getElem?_eq_some_iff.1 hc
    obtain ⟨hj, -⟩ := List.getElem?_eq_some_iff.1 hd
    rcases Nat.lt_or_gt_of_ne hij with hlt | hlt
    · exact h i j hlt hj (by rw [hc, hd, Option.map_some, Option.map_some, heq])
    · exact h j i hlt hi (by rw [hc, hd, Option.map_some, Option.map_some, heq])
  · intro h i j hij hj heq
    have hi : i < cs.length := by omega
    rw [List.getElem?_eq_getElem hi, List.getElem?_eq_getElem hj] at heq
    exact h i j cs[i] cs[j] (Nat.ne_of_lt hij) (List.getElem?_eq_getElem hi)
      (List.getElem?_eq_getElem hj) (by simpa using heq)

/-- **A check finds nothing wrong with an event exactly if it holds on it.** -/
theorem violations_eq_nil_iff (check : Check) (e : Event) :
    check.violations e = [] ↔ check.HoldsOn e := by
  cases check with
  | missing name =>
    simp [violations, HoldsOn, Event.globalsOf, List.filter_eq_nil_iff]
  | unique =>
    rw [violations, HoldsOn, List.map_eq_nil_iff, repeated_eq_nil_iff, nodup_identities_iff]
  | location name occurrence =>
    have hallows : placement occurrence (e.locationIndices name) = none ↔
        occurrence.Allows (· ∈ e.locationIndices name) :=
      placement_eq_none_iff (e.nodup_locationIndices name)
    simp only [Event.mem_locationIndices] at hallows
    rw [violations, HoldsOn, ← hallows, Event.locationIndices]
    cases placement occurrence ((e.locationsOf name).map Prod.fst) <;> simp

end Check

/-! ### Prefixes and diagnostics -/

/-- What is shown of a prefix that is given: one that is empty is not shown. -/
def Shows (shown given : Option String) : Prop :=
  ∀ text, shown = some text ↔ given = some text ∧ text ≠ ""

theorem shows_nonEmpty (given : Option String) : Shows (nonEmpty (given.getD "")) given := by
  intro text
  cases given with
  | none => simp [nonEmpty]
  | some t =>
    by_cases ht : t = ""
    · simp [nonEmpty, ht, eq_comm]
    · rw [Option.getD_some, nonEmpty, if_neg ht]
      constructor
      · rintro ⟨⟩
        exact ⟨rfl, ht⟩
      · exact And.left

theorem Shows.eq_none_iff {shown given : Option String} (h : Shows shown given) :
    shown = none ↔ given = none ∨ given = some "" := by
  cases given with
  | none => simpa [Shows, Option.eq_none_iff_forall_ne_some] using h
  | some t =>
    by_cases ht : t = ""
    · subst ht
      simp only [reduceCtorEq, false_or, iff_true]
      refine Option.eq_none_iff_forall_ne_some.2 fun text htext => ?_
      obtain ⟨⟨⟩, hne⟩ := (h text).1 htext
      exact hne rfl
    · simp [(h t).2 ⟨rfl, ht⟩, ht]

namespace Diagnostic

/-- The prefix of a diagnostic is the one that is given, and never empty. -/
theorem shows_logPrefix_new (rule : RuleKind) (violation : Violation) (name : ContextName)
    (type : EventTypeName) (given : Option String) :
    Shows (new rule violation name type given).logPrefix given := by
  intro text
  simp [new, Option.filter_eq_some_iff]

end Diagnostic

namespace Rule

/-- A diagnostic takes over the prefix of its rule: no rule has an empty one. -/
theorem diagnostic_eq (r : Rule) (e : Event) (name : ContextName) (violation : Violation) :
    r.diagnostic e name violation = ⟨r.kind, violation, name, e.type, r.logPrefix⟩ := by
  have hlog : (r.diagnostic e name violation).logPrefix = r.logPrefix := by
    refine Option.ext fun text => (Diagnostic.shows_logPrefix_new _ _ _ _ _ text).trans ?_
    exact and_iff_left_of_imp fun h hempty => r.logPrefix_ne (hempty ▸ h)
  exact congrArg (Diagnostic.mk r.kind violation name e.type) hlog

/-- Each diagnostic of a rule is that of a violation of its check. -/
theorem exists_violation_of_mem_validate {r : Rule} {e : Event} {d : Diagnostic}
    (h : d ∈ r.validate e) :
    ∃ name violation, (name, violation) ∈ r.check.violations e ∧
      d = ⟨r.kind, violation, name, e.type, r.logPrefix⟩ := by
  unfold validate at h
  split_ifs at h
  · obtain ⟨⟨name, violation⟩, hmem, rfl⟩ := List.mem_map.1 h
    exact ⟨name, violation, hmem, r.diagnostic_eq e name violation⟩
  · cases h

end Rule

end EventTaxonomy
