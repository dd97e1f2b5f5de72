import EventTaxonomy.Proofs.Satisfaction
import Mathlib.Tactic.MkIffOfInductiveProp

/-!
# The meaning of the open taxonomy

`RuleSet.openTaxonomy` is put together by builder calls. What it asks of an event is
`Event.FollowsTaxonomy`: an application context, no identity twice, a root that stands at the top of
the location stack and nowhere else, and, except on `core`, a path. It can also be written as a
document, `RuleDocument.openTaxonomy`.

* one occurrence at an index means that the type stands at this index and at no other
  (`Occurrence.allows_onceAt_iff`); at index zero this is to lead the stack
  (`Event.standsAt_iff_eq_zero_iff`);
* the document is built without error, and the rule set is that of the builder calls
  (`RuleDocument.build_openTaxonomy`);
* `RuleSet.openTaxonomy_meaning` puts the two together.
-/

namespace EventTaxonomy

/-! ### At the top of the stack, and only there -/

theorem Occurrence.allows_onceAt_iff {n : Nat} {p : Nat → Prop} :
    (onceAt n).Allows p ↔ ∀ i, p i ↔ i = n := by
  constructor
  · rintro ⟨⟨i, hi⟩, -, hindex⟩ j
    have honly : ∀ i, p i → i = n := hindex n rfl
    refine ⟨honly j, ?_⟩
    rintro rfl
    exact honly i hi ▸ hi
  · intro h
    have hn : p n := (h n).2 rfl
    refine ⟨⟨n, hn⟩, fun _ => ⟨n, hn, fun i hi => (h i).1 hi⟩, ?_⟩
    rintro _ ⟨⟩ i hi
    exact (h i).1 hi

/-- The first of the contexts is of the type, and no later one is. -/
def ContextName.Leads (name : ContextName) : List Context → Prop
  | [] => False
  | first :: rest => first.type = name ∧ ∀ c ∈ rest, c.type ≠ name

instance (name : ContextName) : DecidablePred name.Leads
  | [] => isFalse id
  | first :: rest => inferInstanceAs (Decidable (first.type = name ∧ ∀ c ∈ rest, c.type ≠ name))

namespace Event

theorem standsAt_iff_eq_zero_iff {e : Event} {name : ContextName} :
    (∀ i, e.StandsAt name i ↔ i = 0) ↔ name.Leads e.locationStack := by
  unfold StandsAt
  cases e.locationStack with
  | nil =>
    constructor
    · intro h
      obtain ⟨c, hc, -⟩ := (h 0).2 rfl
      cases hc
    · intro h
      cases h
  | cons first rest =>
    constructor
    · intro h
      obtain ⟨c, hc, hfirst⟩ := (h 0).2 rfl
      cases hc
      refine ⟨hfirst, fun c hc hname => ?_⟩
      -- a later context of the type would stand at an index other than zero
      obtain ⟨i, hi⟩ := List.mem_iff_getElem?.1 hc
      exact Nat.succ_ne_zero i ((h (i + 1)).1 ⟨c, hi, hname⟩)
    · rintro ⟨hfirst, hrest⟩ i
      constructor
      · rintro ⟨c, hc, hname⟩
        cases i with
        | zero => rfl
        | succ i => exact absurd hname (hrest c (List.mem_of_getElem? hc))
      · rintro rfl
        exact ⟨first, rfl, hfirst⟩

/-- The event is as the open taxonomy wants it on a platform. -/
@[mk_iff]
structure FollowsTaxonomy (e : Event) (platform : Platform) : Prop where
  application : ∃ c ∈ e.globalContexts, c.type = ⟨"ApplicationContext"⟩
  unique : (e.globalContexts.map fun c => (c.type, c.id)).Nodup
  root : (⟨"RootLocationContext"⟩ : ContextName).Leads e.locationStack
  path : platform = .core ∨ ∃ c ∈ e.globalContexts, c.type = ⟨"PathContext"⟩

instance (e : Event) (platform : Platform) : Decidable (e.FollowsTaxonomy platform) :=
  decidable_of_iff _ (e.followsTaxonomy_iff platform).symm

end Event

/-! ### The preset and its document -/

/-- The open taxonomy as a document. -/
def RuleDocument.openTaxonomy (platform : Platform) (logPrefix : Option String) : RuleDocument where
  platform := platform
  logPrefix := logPrefix
  rules :=
    [⟨.missing "ApplicationContext", none, none, none⟩, ⟨.unique, none, none, none⟩,
      ⟨.location "RootLocationContext" true (some 0), none, none, none⟩] ++
    if platform = .core then [] else [⟨.missing "PathContext", none, none, none⟩]

theorem RuleDocument.build_openTaxonomy (platform : Platform) (logPrefix : Option String) :
    (openTaxonomy platform logPrefix).build = .ok (.openTaxonomy platform logPrefix) := by
  cases platform <;> rfl

namespace RuleSet

/-- The rules of the open taxonomy are about all events, so only their checks count. -/
theorem validate_openTaxonomy_eq_nil_iff {platform : Platform} {logPrefix : Option String}
    {e : Event} :
    (openTaxonomy platform logPrefix).validate e = [] ↔
      Check.HoldsOn (.missing ⟨"ApplicationContext"⟩) e ∧ Check.HoldsOn .unique e ∧
        Check.HoldsOn (.location ⟨"RootLocationContext"⟩ (.onceAt 0)) e ∧
        (platform = .core ∨ Check.HoldsOn (.missing ⟨"PathContext"⟩) e) := by
  have hrule : ∀ check,
      ((Rule.new platform check).withLogPrefix (logPrefix.getD "")).validate e = [] ↔
        check.HoldsOn e := by
    intro check
    rw [Rule.validate_eq_nil_iff]
    exact forall_prop_of_true rfl
  have hpath : (∀ r ∈ (if platform = .core then []
        else [(Rule.missing platform ⟨"PathContext"⟩).withLogPrefix (logPrefix.getD "")]),
      r.validate e = []) ↔ platform = .core ∨ Check.HoldsOn (.missing ⟨"PathContext"⟩) e := by
    split_ifs with hcore
    · simp [hcore]
    · simp only [hcore, false_or]
      exact List.forall_mem_singleton.trans (hrule _)
  rw [validate, List.flatMap_eq_nil_iff, openTaxonomy, List.forall_mem_append, hpath,
    List.forall_mem_cons, List.forall_mem_cons, List.forall_mem_singleton, and_assoc, and_assoc]
  exact and_congr (hrule _) (and_congr (hrule _) (and_congr_left' (hrule _)))

/-- **The open taxonomy means what it says, and is that of its document.** It finds nothing wrong
with an event iff the event has an application context, no identity twice, a root at the top of its
location stack and nowhere else, and, except on `core`, a path. The document of the same entries is
built without error, and what it finds wrong with an event is the same. -/
theorem openTaxonomy_meaning (platform : Platform) (logPrefix : Option String) :
    (∀ e, (openTaxonomy platform logPrefix).validate e = [] ↔ e.FollowsTaxonomy platform) ∧
      ∃ set, (RuleDocument.openTaxonomy platform logPrefix).build = .ok set ∧
        ∀ e, set.validate e = (openTaxonomy platform logPrefix).validate e := by
  refine ⟨fun e => ?_, _, RuleDocument.build_openTaxonomy platform logPrefix, fun e => rfl⟩
  have hroot : Check.HoldsOn (.location ⟨"RootLocationContext"⟩ (.onceAt 0)) e ↔
      (⟨"RootLocationContext"⟩ : ContextName).Leads e.locationStack :=
    Occurrence.allows_onceAt_iff.trans Event.standsAt_iff_eq_zero_iff
  rw [validate_openTaxonomy_eq_nil_iff, e.followsTaxonomy_iff, hroot]
  exact and_congr_right' (and_congr_left' Check.nodup_identities_iff.symm)

example :
    let e : Event := ⟨⟨"PressEvent"⟩, [.new ⟨"ApplicationContext"⟩ "app"],
      [.new ⟨"RootLocationContext"⟩ "home", .new ⟨"ContentContext"⟩ "menu"], []⟩
    e.FollowsTaxonomy .core ∧ ¬ e.FollowsTaxonomy .browser := by
  decide

end RuleSet

end EventTaxonomy
