import EventTaxonomy.Proofs.Findings
import EventTaxonomy.Proofs.IdentityData
import Mathlib.Data.Multiset.Basic

/-!
# Verdicts on events that are changed

What becomes of a report when the contexts of its event are put in another order, or when there are
more of them.

* `RuleSet.validate_reordered`: the order of the global contexts carries no meaning. Of the rules,
  only those that ask for unique contexts list their diagnostics by it, and they list the same ones.
* `Rule.validate_appended`: contexts that are appended change a report in one direction only. A
  global context that makes an identity come a second time adds one diagnostic and leaves the others
  as they are; one that was missing is no longer reported; and duplicates in the location stack do
  not go away.

For unique contexts, both rest on what the pass over the identities finds: `repeated_perm` compares
two runs of it by what they find, and `repeated_concat_of_count_eq_one` goes one step further in a
run.
-/

namespace EventTaxonomy

/-! ### Another order -/

section Repeated

variable {α : Type} [DecidableEq α] {as bs : List α} {a : α}

theorem repeated_perm (h : as.Perm bs) : (repeated as).Perm (repeated bs) := by
  refine (List.perm_ext_iff_of_nodup (nodup_repeated as) (nodup_repeated bs)).2 fun a => ?_
  rw [mem_repeated, mem_repeated, h.count_eq]

end Repeated

/-- The events differ in nothing but the order of their global contexts. -/
structure Event.Reorders (e e' : Event) : Prop where
  type : e.type = e'.type
  globalContexts : e.globalContexts.Perm e'.globalContexts
  locationStack : e.locationStack = e'.locationStack
  fields : e.fields = e'.fields

namespace Check

variable {check : Check} {e e' : Event}

theorem violations_eq_of_reorders (hcheck : check ≠ .unique) (h : e.Reorders e') :
    check.violations e = check.violations e' := by
  cases check with
  | missing name =>
    have hglobals : (e.globalsOf name).isEmpty = (e'.globalsOf name).isEmpty :=
      (h.globalContexts.filter _).isEmpty_eq
    rw [violations, violations, hglobals]
  | unique => exact absurd rfl hcheck
  | location name occurrence =>
    rw [violations, violations, Event.locationsOf, Event.locationsOf, h.locationStack]

theorem violations_perm (h : e.Reorders e') : (check.violations e).Perm (check.violations e') := by
  by_cases hcheck : check = .unique
  · subst hcheck
    exact (repeated_perm (h.globalContexts.map Context.identity)).map _
  · rw [violations_eq_of_reorders hcheck h]

end Check

namespace Rule

variable {r : Rule} {e e' : Event}

theorem kind_eq_unique_iff : r.kind = .uniqueGlobalContext ↔ r.check = .unique := by
  rw [kind]
  cases r.check <;> simp [Check.kind]

theorem validate_perm (hr : r.events.TypeOnly) (h : e.Reorders e') :
    (r.validate e).Perm (r.validate e') := by
  rw [validate, validate, appliesTo, appliesTo, hr h.type, r.diagnostic_congr h.type]
  split_ifs
  · exact (Check.violations_perm h).map _
  · exact .nil

theorem validate_eq_of_reorders (hr : r.events.TypeOnly) (hkind : r.kind ≠ .uniqueGlobalContext)
    (h : e.Reorders e') : r.validate e = r.validate e' := by
  have hcheck : r.check ≠ .unique := mt kind_eq_unique_iff.2 hkind
  rw [validate, validate, appliesTo, appliesTo, hr h.type, r.diagnostic_congr h.type,
    Check.violations_eq_of_reorders hcheck h]

end Rule

/-- **The order of the global contexts carries no meaning.** Under a rule set that was built from a
document, or that of the open taxonomy, the rules that ask for a context in either list report the
same on two events that differ in the order of their global contexts, and the rules that ask for
unique contexts the same up to order. So all diagnostics are the same, and there are as many. -/
theorem RuleSet.validate_reordered {set : RuleSet} (hset : set.IsBuilt) {e e' : Event}
    (h : e.Reorders e') :
    (∀ r ∈ set.rules, r.kind = .missingGlobalContext ∨ r.kind = .locationContext →
        r.validate e = r.validate e') ∧
      (∀ r ∈ set.rules, r.kind = .uniqueGlobalContext →
        (r.validate e).Perm (r.validate e')) ∧
      (set.validate e : Multiset Diagnostic) = set.validate e' ∧
      (set.validate e).length = (set.validate e').length := by
  have hrules := hset.typeOnly
  have hperm : (set.validate e).Perm (set.validate e') :=
    List.Perm.flatMap_left _ fun r hr => Rule.validate_perm (hrules r hr) h
  refine ⟨fun r hr hkind => ?_, fun r hr _ => ?_, Multiset.coe_eq_coe.2 hperm, hperm.length_eq⟩
  · refine Rule.validate_eq_of_reorders (hrules r hr) ?_ h
    rcases hkind with hkind | hkind <;> rw [hkind] <;> decide
  · exact Rule.validate_perm (hrules r hr) h

/-- Two repeated identities change places, and with them the diagnostics of the open taxonomy. -/
theorem RuleSet.validate_reordered_interleaved :
    let e := Event.interleaved
    let e' := { e with globalContexts := e.globalContexts.reverse }
    let set := openTaxonomy .core none
    set.IsBuilt ∧ e.Reorders e' ∧ set.validate e ≠ set.validate e' ∧
      (set.validate e : Multiset Diagnostic) = set.validate e' := by
  intro e e' set
  have hset : set.IsBuilt := .inr ⟨_, _, rfl⟩
  have hreorders : e.Reorders e' := ⟨rfl, (List.reverse_perm _).symm, rfl, rfl⟩
  exact ⟨hset, hreorders, by decide, (validate_reordered hset hreorders).2.2.1⟩

/-! ### One more identity -/

section Repeated

variable {α : Type} [DecidableEq α] {as : List α} {a : α}

theorem count_concat_of_ne {b : α} (hne : a ≠ b) : (as ++ [a]).count b = as.count b := by
  simp [List.count_append, hne]

theorem count_map_eq_countP {β : Type} (f : β → α) (bs : List β) :
    (bs.map f).count a = bs.countP fun b => f b = a := by
  rw [List.count, List.countP_map]
  exact List.countP_congr fun b _ => by simp

theorem Tally.IsOf.nodup_order {t : Tally α} (h : t.IsOf as) : t.order.Nodup :=
  h.order.imp fun hlt heq => absurd (heq ▸ hlt) (Nat.lt_irrefl _)

theorem Tally.IsOf.repeated_eq {t : Tally α} (h : t.IsOf as) :
    t.repeated = t.order.filter fun b => 1 < as.count b := by
  simp only [repeated, h.count]

/-- An element that has come never, or more than once, changes nothing when it comes again. -/
theorem Tally.IsOf.repeated_add_of_count_ne_one {t : Tally α} (h : t.IsOf as)
    (hcount : as.count a ≠ 1) : (t.add a).repeated = t.repeated := by
  have hsame : ∀ b, (1 < (as ++ [a]).count b) = (1 < as.count b) := by
    intro b
    by_cases hb : a = b
    · subst hb
      rw [List.count_append, List.count_singleton_self]
      exact propext (by omega)
    · rw [count_concat_of_ne hb]
  have hrepeated : (t.add a).repeated = (t.add a).order.filter fun b => 1 < as.count b := by
    rw [(h.add a).repeated_eq]
    simp only [hsame]
  rw [hrepeated, h.repeated_eq]
  by_cases hnew : t.count a = 0
  · -- it is the last in order now, but has come only once
    have horder : (t.add a).order = t.order ++ [a] := if_pos hnew
    rw [h.count] at hnew
    simp [horder, hnew]
  · have horder : (t.add a).order = t.order := if_neg hnew
    rw [horder]

/-- An element that comes for the second time is inserted, and nothing else changes. -/
theorem Tally.IsOf.repeated_add_of_count_eq_one {t : Tally α} (h : t.IsOf as)
    (hcount : as.count a = 1) :
    ∃ xs ys, t.repeated = xs ++ ys ∧ (t.add a).repeated = xs ++ a :: ys := by
  have horder : (t.add a).order = t.order := if_neg (by rw [h.count]; omega)
  have hmem : a ∈ t.order := (h.mem a).2 (List.count_pos_iff.1 (by omega))
  obtain ⟨before, after, hsplit⟩ := List.append_of_mem hmem
  have hothers : a ∉ before ++ after := by
    have hnodup := h.nodup_order
    rw [hsplit] at hnodup
    exact (List.nodup_cons.1 (List.nodup_middle.1 hnodup)).1
  have hsame : ∀ bs : List α, a ∉ bs → bs.filter (fun b => 1 < (as ++ [a]).count b) =
      bs.filter fun b => 1 < as.count b := by
    intro bs hbs
    refine List.filter_congr fun b hb => ?_
    have hne : a ≠ b := fun heq => hbs (heq ▸ hb)
    rw [count_concat_of_ne hne]
  refine ⟨before.filter fun b => 1 < as.count b, after.filter fun b => 1 < as.count b, ?_, ?_⟩
  · rw [h.repeated_eq, hsplit, List.filter_append, List.filter_cons]
    simp [hcount]
  · rw [(h.add a).repeated_eq, horder, hsplit, List.filter_append, List.filter_cons,
      hsame before fun hb => hothers (List.mem_append_left _ hb),
      hsame after fun hb => hothers (List.mem_append_right _ hb)]
    simp [hcount]

theorem repeated_concat (as : List α) (a : α) :
    repeated (as ++ [a]) = ((as.foldl Tally.add Tally.empty).add a).repeated := by
  rw [repeated, List.foldl_append]
  rfl

theorem repeated_concat_of_count_ne_one (hcount : as.count a ≠ 1) :
    repeated (as ++ [a]) = repeated as := by
  rw [repeated_concat]
  exact (Tally.isOf_foldl as).repeated_add_of_count_ne_one hcount

theorem repeated_concat_of_count_eq_one (hcount : as.count a = 1) :
    ∃ xs ys, repeated as = xs ++ ys ∧ repeated (as ++ [a]) = xs ++ a :: ys := by
  rw [repeated_concat]
  exact (Tally.isOf_foldl as).repeated_add_of_count_eq_one hcount

end Repeated

/-! ### More positions -/

namespace Check

variable {occurrence : Occurrence} {indices : List Nat}

theorem placement_eq_duplicate_iff : placement occurrence indices = some .duplicate ↔
    occurrence.isOnce = true ∧ 2 ≤ indices.length := by
  constructor
  · intro h
    match indices with
    | [] => cases h
    | [i] =>
      rw [placement_singleton] at h
      cases hposition : occurrence.position <;> simp [hposition] at h
    | i :: j :: more =>
      by_cases honce : occurrence.isOnce = true
      · exact ⟨honce, by simp⟩
      · rw [placement_of_not_once (Bool.not_eq_true _ ▸ honce) (by simp)] at h
        cases h
  · rintro ⟨honce, htwice⟩
    exact placement_of_twice honce htwice

/-- Of several positions none is the wrong one. -/
theorem eq_singleton_of_wrongPosition {n i : Nat}
    (h : placement occurrence indices = some (.wrongPosition n i)) : indices = [i] := by
  obtain ⟨rfl, hmem, -⟩ := placement_eq_wrongPosition h
  by_cases htwice : 2 ≤ indices.length
  · rw [placement_of_twice rfl htwice] at h
    cases h
  · have hpos := List.length_pos_of_mem hmem
    obtain ⟨j, rfl⟩ := List.length_eq_one_iff.1 (show indices.length = 1 by omega)
    rw [List.mem_singleton.1 hmem]

theorem placement_append_of_duplicate (h : placement occurrence indices = some .duplicate)
    (more : List Nat) : placement occurrence (indices ++ more) = some .duplicate := by
  obtain ⟨honce, htwice⟩ := placement_eq_duplicate_iff.1 h
  refine placement_of_twice honce ?_
  rw [List.length_append]
  omega

theorem placement_append_of_wrongPosition {n i : Nat}
    (h : placement occurrence indices = some (.wrongPosition n i)) (more : List Nat) :
    placement occurrence (indices ++ more) = some (.wrongPosition n i) ∨
      placement occurrence (indices ++ more) = some .duplicate := by
  obtain rfl := eq_singleton_of_wrongPosition h
  cases more with
  | nil => exact .inl (by rwa [List.append_nil])
  | cons j more =>
    obtain ⟨rfl, -, -⟩ := placement_eq_wrongPosition h
    exact .inr (placement_of_twice rfl (by simp))

theorem placement_append_of_not_once (honce : occurrence.isOnce = false)
    (h : placement occurrence indices = none) (more : List Nat) :
    placement occurrence (indices ++ more) = none := by
  have hne : indices ≠ [] := by
    rintro rfl
    cases h
  exact placement_of_not_once honce (List.append_ne_nil_of_left_ne_nil hne more)

end Check

/-! ### More contexts -/

namespace Event

/-- How often a type and id come among the global contexts. -/
def carrierCount (e : Event) (pair : ContextName × String) : Nat :=
  e.globalContexts.countP fun c => (c.type, c.id) = pair

theorem foldl_withGlobal (e : Event) (cs : List Context) :
    cs.foldl withGlobal e = { e with globalContexts := e.globalContexts ++ cs } := by
  induction cs generalizing e with
  | nil => rw [List.append_nil]; rfl
  | cons c cs ih =>
    rw [List.foldl_cons, ih, withGlobal, List.append_assoc]
    rfl

theorem foldl_withLocation (e : Event) (cs : List Context) :
    cs.foldl withLocation e = { e with locationStack := e.locationStack ++ cs } := by
  induction cs generalizing e with
  | nil => rw [List.append_nil]; rfl
  | cons c cs ih =>
    rw [List.foldl_cons, ih, withLocation, List.append_assoc]
    rfl

theorem indexed_append (name : ContextName) (start : Nat) (cs ds : List Context) :
    indexed name start (cs ++ ds) =
      indexed name start cs ++ indexed name (start + cs.length) ds := by
  induction cs generalizing start with
  | nil => rfl
  | cons c cs ih =>
    rw [List.cons_append, indexed, indexed, ih, List.length_cons, Nat.add_assoc, Nat.add_comm 1]
    split_ifs <;> rfl

/-- Below a stack, further positions of a type come after those that it has. -/
theorem exists_locationIndices_append (e : Event) (name : ContextName) (cs : List Context) :
    ∃ more, locationIndices { e with locationStack := e.locationStack ++ cs } name =
      e.locationIndices name ++ more := by
  refine ⟨(indexed name (0 + e.locationStack.length) cs).map Prod.fst, ?_⟩
  rw [locationIndices, locationsOf, indexed_append, List.map_append]
  rfl

end Event

namespace Rule

variable {r : Rule} {e : Event}

theorem validate_of_not_appliesTo (he : r.appliesTo e = false) : r.validate e = [] := by
  rw [validate, he, if_neg Bool.false_ne_true]

theorem validate_of_unique (hr : r.check = .unique) (he : r.appliesTo e = true) :
    r.validate e = (repeated (e.globalContexts.map Context.identity)).map fun pair =>
      r.diagnostic e pair.1 (.duplicateIdentity pair.2) := by
  rw [validate, if_pos he, hr, Check.violations, List.map_map]
  rfl

theorem validate_of_missing {name : ContextName} (hr : r.check = .missing name) (e : Event) :
    r.validate e = [] ∨ r.validate e = [r.diagnostic e name .missing] := by
  rw [validate, hr, Check.violations]
  split_ifs
  · exact .inr rfl
  · exact .inl rfl
  · exact .inl rfl

theorem validate_withGlobal_eq (hr : r.events.TypeOnly) (hcheck : r.check = .unique) {c : Context}
    (h : ¬ (r.appliesTo e = true ∧ e.carrierCount c.identity = 1)) :
    r.validate (e.withGlobal c) = r.validate e := by
  have happlies : r.appliesTo (e.withGlobal c) = r.appliesTo e := hr rfl
  by_cases he : r.appliesTo e = true
  · have hrepeated := repeated_concat_of_count_ne_one fun hcount =>
      h ⟨he, (count_map_eq_countP Context.identity e.globalContexts).symm.trans hcount⟩
    rw [validate_of_unique hcheck he, validate_of_unique hcheck (happlies.trans he),
      Event.withGlobal, List.map_append, List.map_singleton, hrepeated]
    rfl
  · rw [Bool.not_eq_true] at he
    rw [validate_of_not_appliesTo he, validate_of_not_appliesTo (happlies.trans he)]

theorem exists_validate_withGlobal (hr : r.events.TypeOnly) (hcheck : r.check = .unique)
    {c : Context} (he : r.appliesTo e = true) (hcount : e.carrierCount c.identity = 1) :
    ∃ before after, r.validate e = before ++ after ∧ r.validate (e.withGlobal c) =
      before ++ r.diagnostic e c.type (.duplicateIdentity c.id) :: after := by
  have happlies : r.appliesTo (e.withGlobal c) = r.appliesTo e := hr rfl
  obtain ⟨xs, ys, hold, hnew⟩ := repeated_concat_of_count_eq_one
    ((count_map_eq_countP Context.identity e.globalContexts).trans hcount)
  rw [validate_of_unique hcheck he, validate_of_unique hcheck (happlies.trans he),
    Event.withGlobal, List.map_append, List.map_singleton, hold, hnew, List.map_append,
    List.map_append, List.map_cons]
  exact ⟨_, _, rfl, rfl⟩

/-- An identity that comes only once is not reported. -/
theorem not_mem_validate_of_count_eq_one (hcheck : r.check = .unique) {c : Context}
    (hcount : e.carrierCount c.identity = 1) :
    r.diagnostic e c.type (.duplicateIdentity c.id) ∉ r.validate e := by
  by_cases he : r.appliesTo e = true
  · rw [validate_of_unique hcheck he, List.mem_map]
    rintro ⟨⟨name, id⟩, hmem, hdiagnostic⟩
    obtain ⟨rfl, rfl⟩ : id = c.id ∧ name = c.type := by
      simpa [diagnostic_eq] using hdiagnostic
    have hlt := mem_repeated.1 hmem
    rw [count_map_eq_countP] at hlt
    exact absurd hcount (Nat.ne_of_gt hlt)
  · rw [validate_of_not_appliesTo (Bool.not_eq_true _ ▸ he)]
    exact List.not_mem_nil

theorem validate_foldl_withGlobal_eq_nil_iff (hr : r.events.TypeOnly) {name : ContextName}
    (hcheck : r.check = .missing name) (cs : List Context) :
    r.validate (cs.foldl Event.withGlobal e) = [] ↔
      r.appliesTo e = false ∨ ∃ c ∈ e.globalContexts ++ cs, c.type = name := by
  have happlies : r.events.accepts { e with globalContexts := e.globalContexts ++ cs } =
      r.appliesTo e := hr rfl
  rw [validate_eq_nil_iff, Event.foldl_withGlobal, happlies, hcheck, Check.HoldsOn]
  cases r.appliesTo e <;> simp

theorem validate_foldl_withGlobal (hr : r.events.TypeOnly) {name : ContextName}
    (hcheck : r.check = .missing name) (cs : List Context) :
    r.validate (cs.foldl Event.withGlobal e) = r.validate e ∨
      r.validate (cs.foldl Event.withGlobal e) = [] := by
  have hdiagnostic : r.diagnostic (cs.foldl Event.withGlobal e) = r.diagnostic e :=
    r.diagnostic_congr (by rw [Event.foldl_withGlobal])
  rcases r.validate_of_missing hcheck (cs.foldl Event.withGlobal e) with hnew | hnew
  · exact .inr hnew
  · -- what is missing in the end was missing before
    have hne : r.validate e ≠ [] := by
      intro hold
      have hnil := (validate_foldl_withGlobal_eq_nil_iff (e := e) hr hcheck []).1 hold
      have hall := (validate_foldl_withGlobal_eq_nil_iff (e := e) hr hcheck cs).2 <|
        hnil.imp_right fun ⟨c, hc, hname⟩ =>
          ⟨c, List.mem_append_left _ (by rwa [List.append_nil] at hc), hname⟩
      rw [hall] at hnew
      cases hnew
    rw [hnew, (r.validate_of_missing hcheck e).resolve_left hne, hdiagnostic]
    exact .inl rfl

section Location

variable {name : ContextName} {occurrence : Occurrence}

theorem placement_of_mem_validate (hcheck : r.check = .location name occurrence) {d : Diagnostic}
    (hd : d ∈ r.validate e) : r.appliesTo e = true ∧
      Check.placement occurrence (e.locationIndices name) = some d.violation ∧
      d = r.diagnostic e name d.violation := by
  by_cases he : r.appliesTo e = true
  · rw [validate_of_location hcheck he, Option.mem_toList, Option.map_eq_some_iff] at hd
    obtain ⟨violation, hplacement, rfl⟩ := hd
    exact ⟨he, hplacement, rfl⟩
  · rw [validate_of_not_appliesTo (Bool.not_eq_true _ ▸ he)] at hd
    cases hd

/-- A location rule looks at the same positions as before, and at more after them. -/
theorem exists_validate_foldl_withLocation (hr : r.events.TypeOnly)
    (hcheck : r.check = .location name occurrence) (he : r.appliesTo e = true)
    (cs : List Context) :
    ∃ more, r.validate (cs.foldl Event.withLocation e) =
      ((Check.placement occurrence (e.locationIndices name ++ more)).map
        (r.diagnostic e name)).toList := by
  obtain ⟨more, hmore⟩ := e.exists_locationIndices_append name cs
  rw [← Event.foldl_withLocation] at hmore
  have htype : (cs.foldl Event.withLocation e).type = e.type := by rw [Event.foldl_withLocation]
  have happlies : r.appliesTo (cs.foldl Event.withLocation e) = r.appliesTo e := hr htype
  refine ⟨more, ?_⟩
  rw [validate_of_location hcheck (happlies.trans he), hmore, r.diagnostic_congr htype]

theorem validate_foldl_withLocation_of_duplicate (hr : r.events.TypeOnly)
    (hcheck : r.check = .location name occurrence) {d : Diagnostic} (hd : d ∈ r.validate e)
    (hviolation : d.violation = .duplicate) (cs : List Context) :
    r.validate (cs.foldl Event.withLocation e) = [d] := by
  obtain ⟨he, hplacement, hdiagnostic⟩ := placement_of_mem_validate hcheck hd
  obtain ⟨more, hmore⟩ := exists_validate_foldl_withLocation hr hcheck he cs
  rw [hviolation] at hplacement
  rw [hmore, Check.placement_append_of_duplicate hplacement, hdiagnostic, hviolation]
  rfl

theorem validate_foldl_withLocation_of_wrongPosition (hr : r.events.TypeOnly)
    (hcheck : r.check = .location name occurrence) {d : Diagnostic} (hd : d ∈ r.validate e)
    {expected actual : Nat} (hviolation : d.violation = .wrongPosition expected actual)
    (cs : List Context) :
    r.validate (cs.foldl Event.withLocation e) = [d] ∨
      r.validate (cs.foldl Event.withLocation e) = [{ d with violation := .duplicate }] := by
  obtain ⟨he, hplacement, hdiagnostic⟩ := placement_of_mem_validate hcheck hd
  obtain ⟨more, hmore⟩ := exists_validate_foldl_withLocation hr hcheck he cs
  rw [hviolation] at hplacement
  rw [hmore, hdiagnostic, hviolation]
  rcases Check.placement_append_of_wrongPosition hplacement more with hgrown | hgrown
  · rw [hgrown]
    exact .inl rfl
  · rw [hgrown]
    exact .inr rfl

theorem validate_foldl_withLocation_of_not_once (hr : r.events.TypeOnly)
    (hcheck : r.check = .location name occurrence) (honce : occurrence.isOnce = false)
    (hnil : r.validate e = []) (cs : List Context) :
    r.validate (cs.foldl Event.withLocation e) = [] := by
  by_cases he : r.appliesTo e = true
  · obtain ⟨more, hmore⟩ := exists_validate_foldl_withLocation hr hcheck he cs
    have hplacement : Check.placement occurrence (e.locationIndices name) = none := by
      rwa [validate_of_location hcheck he, Option.toList_eq_nil_iff, Option.map_eq_none_iff]
        at hnil
    rw [hmore, Check.placement_append_of_not_once honce hplacement]
    rfl
  · have htype : (cs.foldl Event.withLocation e).type = e.type := by rw [Event.foldl_withLocation]
    exact validate_of_not_appliesTo ((hr htype).trans (Bool.not_eq_true _ ▸ he))

end Location

/-- **Appended contexts change a report in one direction only**, if the rule goes by the type of
events.

A rule that asks for unique global contexts reports the same with one more of them, unless the rule
is about the event and the type and id of the context have come exactly once so far: then one new
diagnostic, for these, stands among the others. A rule that asks for a global context reports the
same with more of them, or nothing, and this just if it is not about the event or there is such a
context in the end. A rule about the location stack goes on to report duplicates, may come to report
them in place of a wrong position, and if it allows any number of contexts, goes on to report
nothing. -/
theorem validate_appended (hr : r.events.TypeOnly) (e : Event) :
    (r.check = .unique → ∀ c : Context,
      (¬ (r.appliesTo e = true ∧ e.carrierCount (c.type, c.id) = 1) →
        r.validate (e.withGlobal c) = r.validate e) ∧
      (r.appliesTo e = true → e.carrierCount (c.type, c.id) = 1 →
        r.diagnostic e c.type (.duplicateIdentity c.id) ∉ r.validate e ∧
        ∃ before after, r.validate e = before ++ after ∧ r.validate (e.withGlobal c) =
          before ++ r.diagnostic e c.type (.duplicateIdentity c.id) :: after)) ∧
    (∀ name, r.check = .missing name → ∀ cs : List Context,
      (r.validate (cs.foldl Event.withGlobal e) = r.validate e ∨
        r.validate (cs.foldl Event.withGlobal e) = []) ∧
      (r.validate (cs.foldl Event.withGlobal e) = [] ↔
        r.appliesTo e = false ∨ ∃ c ∈ e.globalContexts ++ cs, c.type = name)) ∧
    ∀ name occurrence, r.check = .location name occurrence → ∀ cs : List Context,
      (∀ d ∈ r.validate e, d.violation = .duplicate →
        r.validate (cs.foldl Event.withLocation e) = [d]) ∧
      (∀ d ∈ r.validate e, ∀ expected actual, d.violation = .wrongPosition expected actual →
        r.validate (cs.foldl Event.withLocation e) = [d] ∨
          r.validate (cs.foldl Event.withLocation e) = [{ d with violation := .duplicate }]) ∧
      (occurrence.isOnce = false → r.validate e = [] →
        r.validate (cs.foldl Event.withLocation e) = []) := by
  refine ⟨fun hcheck c => ⟨fun h => ?_, fun he hcount => ⟨?_, ?_⟩⟩, fun name hcheck cs => ⟨?_, ?_⟩,
    fun name occurrence hcheck cs => ⟨fun d hd hviolation => ?_,
      fun d hd expected actual hviolation => ?_, fun honce hnil => ?_⟩⟩
  · exact validate_withGlobal_eq hr hcheck h
  · exact not_mem_validate_of_count_eq_one hcheck hcount
  · exact exists_validate_withGlobal hr hcheck he hcount
  · exact validate_foldl_withGlobal hr hcheck cs
  · exact validate_foldl_withGlobal_eq_nil_iff hr hcheck cs
  · exact validate_foldl_withLocation_of_duplicate hr hcheck hd hviolation cs
  · exact validate_foldl_withLocation_of_wrongPosition hr hcheck hd hviolation cs
  · exact validate_foldl_withLocation_of_not_once hr hcheck honce hnil cs

/-- Between two identities that come twice, a third one comes for the second time; a missing context
is added; and below a root in the wrong place there is another root. -/
theorem validate_appended_between :
    let e : Event := ⟨⟨"PressEvent"⟩, [.new ⟨"PathContext"⟩ "a", .new ⟨"HttpContext"⟩ "a",
      .new ⟨"PathContext"⟩ "b", .new ⟨"PathContext"⟩ "a", .new ⟨"PathContext"⟩ "b"],
      [.new ⟨"ContentContext"⟩ "x", .new ⟨"RootLocationContext"⟩ "x"], []⟩
    let http := Context.new ⟨"HttpContext"⟩ "a"
    let session := Context.new ⟨"SessionContext"⟩ "s"
    let root := Context.new ⟨"RootLocationContext"⟩ "x"
    let unique := Rule.unique .core
    let missing := Rule.missing .core ⟨"SessionContext"⟩
    let top := (Rule.location .core ⟨"RootLocationContext"⟩).onceAt 0
    EventMatcher.always.TypeOnly ∧ e.carrierCount (http.type, http.id) = 1 ∧
      (∃ before after, unique.validate e = before ++ after ∧ unique.validate (e.withGlobal http) =
        before ++ unique.diagnostic e http.type (.duplicateIdentity http.id) :: after) ∧
      missing.validate ([http, session].foldl Event.withGlobal e) = [] ∧
      (top.validate ([root].foldl Event.withLocation e) = [top.diagnostic e root.type
          (.wrongPosition 0 1)] ∨
        top.validate ([root].foldl Event.withLocation e) = [top.diagnostic e root.type
          .duplicate]) := by
  intro e http session root unique missing top
  have hr : EventMatcher.always.TypeOnly := EventMatcher.typeOnly_always
  have hcount : e.carrierCount (http.type, http.id) = 1 := by decide
  refine ⟨hr, hcount, ?_, ?_, ?_⟩
  · exact (((validate_appended (r := unique) hr e).1 rfl http).2 rfl hcount).2
  · refine ((validate_appended (r := missing) hr e).2.1 _ rfl [http, session]).2.2 (.inr ?_)
    exact ⟨session, by simp, rfl⟩
  · exact ((validate_appended (r := top) hr e).2.2 _ _ rfl [root]).2.1
      (top.diagnostic e root.type (.wrongPosition 0 1)) (by decide) 0 1 rfl

end Rule

end EventTaxonomy
