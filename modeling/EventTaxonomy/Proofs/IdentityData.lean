import EventTaxonomy.Proofs.Satisfaction

/-!
# Diagnostics depend on identity data only

Of an event, a rule looks at its type and at one of its two lists of contexts. `Event.SameIn` says
when two events look the same in such a part: the global contexts have the same identities, or the
stacks have the same types, position by position. What a check finds then is the same
(`Check.violations_congr`), whatever else the events carry.

Which events a rule is about is another matter, since a matcher may be any predicate. Those of a
rule that was built from a document go by the type of the event (`EventMatcher.TypeOnly`), and so do
those of the open taxonomy (`RuleSet.IsBuilt.typeOnly`). For such rule sets
`RuleSet.validate_identity` puts everything together: two events with the same identity data have
the same diagnostics, each rule looks at its own part only, and platforms play no role.
-/

namespace EventTaxonomy

theorem map_mapIdx_eq {α β : Type} {f : α → β} {g : Nat → α → α} {as : List α}
    (h : ∀ i a, f (g i a) = f a) : (as.mapIdx g).map f = as.map f := by
  refine List.ext_getElem? fun i => ?_
  simp only [List.getElem?_map, List.getElem?_mapIdx, Option.map_map, Function.comp_def, h]

/-! ### What a check sees -/

namespace Event

/-- The events look the same in a part: their global contexts agree in type and id, or their
location stacks agree in type, in order. -/
def SameIn : Section → Event → Event → Prop
  | .globalContexts, e, e' =>
    e.globalContexts.map Context.identity = e'.globalContexts.map Context.identity
  | .locationStack, e, e' => e.locationStack.map Context.type = e'.locationStack.map Context.type

theorem isEmpty_globalsOf (e : Event) (name : ContextName) :
    (e.globalsOf name).isEmpty =
      ((e.globalContexts.map Context.identity).filter fun pair => pair.1 = name).isEmpty := by
  rw [List.filter_map, List.isEmpty_map]
  rfl

/-- The positions of a type in a stack are those in the list of its types. -/
theorem map_fst_indexed_congr {cs ds : List Context}
    (h : cs.map Context.type = ds.map Context.type) (name : ContextName) (start : Nat) :
    (indexed name start cs).map Prod.fst = (indexed name start ds).map Prod.fst := by
  induction cs generalizing ds start with
  | nil =>
    rw [List.map_nil, eq_comm, List.map_eq_nil_iff] at h
    rw [h]
  | cons c cs ih =>
    cases ds with
    | nil => cases h
    | cons d ds =>
      obtain ⟨hhead, htail⟩ := List.cons.inj h
      rw [indexed, indexed, hhead]
      split_ifs
      · rw [List.map_cons, List.map_cons, ih htail]
      · exact ih htail (start + 1)

end Event

/-- **A check finds the same wrong with events that look the same in its part.** -/
theorem Check.violations_congr {check : Check} {e e' : Event}
    (h : Event.SameIn check.kind.part e e') : check.violations e = check.violations e' := by
  cases check with
  | missing name =>
    have hglobals : e.globalContexts.map Context.identity =
        e'.globalContexts.map Context.identity := h
    simp only [violations, Event.isEmpty_globalsOf, hglobals]
  | unique =>
    have hglobals : e.globalContexts.map Context.identity =
        e'.globalContexts.map Context.identity := h
    rw [violations, violations, hglobals]
  | location name occurrence =>
    have hpositions : (e.locationsOf name).map Prod.fst = (e'.locationsOf name).map Prod.fst :=
      Event.map_fst_indexed_congr h name 0
    rw [violations, violations, hpositions]

/-! ### Rules and rule sets -/

/-- The matcher goes by the type of an event alone. -/
def EventMatcher.TypeOnly (matcher : EventMatcher) : Prop :=
  ∀ ⦃e e' : Event⦄, e.type = e'.type → matcher.accepts e = matcher.accepts e'

theorem EventMatcher.typeOnly_always : always.TypeOnly := fun _ _ _ => rfl

theorem EventMatcher.typeOnly_of_allowList {matcher : EventMatcher} {types : List EventTypeName}
    (h : matcher.allowList = some types) : matcher.TypeOnly := by
  intro e e' htype
  rw [Bool.eq_iff_iff, accepts_iff_of_allowList h, accepts_iff_of_allowList h, htype]

theorem RuleEntry.typeOnly_matcher (entry : RuleEntry) : entry.matcher.TypeOnly := by
  unfold matcher
  cases entry.eventTypes with
  | none => exact EventMatcher.typeOnly_always
  | some types => exact EventMatcher.typeOnly_of_allowList rfl

theorem Rule.diagnostic_congr (r : Rule) {e e' : Event} (htype : e.type = e'.type) :
    r.diagnostic e = r.diagnostic e' := by
  funext name violation
  rw [diagnostic, diagnostic, htype]

theorem Rule.validate_congr {r : Rule} (hr : r.events.TypeOnly) {e e' : Event}
    (htype : e.type = e'.type) (h : Event.SameIn r.kind.part e e') :
    r.validate e = r.validate e' := by
  rw [validate, validate, appliesTo, appliesTo, hr htype, Check.violations_congr h,
    r.diagnostic_congr htype]

theorem Rule.validate_platform (r : Rule) (platform : Platform) (e : Event) :
    ({ r with platform := platform } : Rule).validate e = r.validate e := rfl

namespace RuleSet

/-- The rule set of some document, or that of the open taxonomy. -/
def IsBuilt (set : RuleSet) : Prop :=
  (∃ doc : RuleDocument, doc.build = .ok set) ∨
    ∃ platform logPrefix, set = openTaxonomy platform logPrefix

theorem events_openTaxonomy {platform : Platform} {logPrefix : Option String} :
    ∀ r ∈ (openTaxonomy platform logPrefix).rules, r.events = .always := by
  intro r hr
  rcases List.mem_append.1 hr with hr | hr
  · simp only [List.mem_cons, List.not_mem_nil, or_false] at hr
    rcases hr with rfl | rfl | rfl <;> rfl
  · split_ifs at hr
    · cases hr
    · rw [List.mem_singleton.1 hr]
      rfl

theorem IsBuilt.typeOnly {set : RuleSet} (h : set.IsBuilt) :
    ∀ r ∈ set.rules, r.events.TypeOnly := by
  intro r hr
  rcases h with ⟨doc, hdoc⟩ | ⟨platform, logPrefix, rfl⟩
  · obtain ⟨entry, -, hentry⟩ := RuleDocument.exists_entry_of_mem hdoc hr
    obtain ⟨rfl, -⟩ := RuleEntry.build_eq_ok hentry
    exact entry.typeOnly_matcher
  · rw [events_openTaxonomy r hr]
    exact EventMatcher.typeOnly_always

theorem validate_congr {set : RuleSet} {e e' : Event}
    (h : ∀ r ∈ set.rules, r.validate e = r.validate e') : set.validate e = set.validate e' :=
  List.flatMap_congr h

/-- The set with other platforms for its rules, chosen by position. -/
def withPlatforms (set : RuleSet) (platforms : Nat → Platform) : RuleSet :=
  ⟨set.rules.mapIdx fun i r => { r with platform := platforms i }⟩

theorem validate_withPlatforms (set : RuleSet) (platforms : Nat → Platform) (e : Event) :
    (set.withPlatforms platforms).validate e = set.validate e := by
  unfold validate withPlatforms
  rw [List.flatMap_def, List.flatMap_def, map_mapIdx_eq fun _ r => r.validate_platform _ e]

end RuleSet

/-! ### Events that differ in other data -/

/-- Data of an event that is no identity data: its other fields, and by position those of its
contexts and the ids of its location contexts. -/
structure OtherData where
  fields : Fields
  globalFields : Nat → Fields
  locationIds : Nat → String
  locationFields : Nat → Fields

/-- The event with other data in place of its own. -/
def Event.withOtherData (e : Event) (other : OtherData) : Event where
  type := e.type
  globalContexts := e.globalContexts.mapIdx fun i c => { c with fields := other.globalFields i }
  locationStack := e.locationStack.mapIdx fun i c =>
    { c with id := other.locationIds i, fields := other.locationFields i }
  fields := other.fields

theorem Event.sameIn_withOtherData (e : Event) (other : OtherData) (part : Section) :
    SameIn part (e.withOtherData other) e := by
  cases part with
  | globalContexts => exact map_mapIdx_eq fun _ _ => rfl
  | locationStack => exact map_mapIdx_eq fun _ _ => rfl

/-- **Diagnostics depend on identity data only.** Under a rule set that was built from a document,
or that of the open taxonomy, two events with the same type, the same identities of global contexts
and the same types of location contexts, in order, have the same diagnostics. A rule about global
contexts does not look at the location stack, nor one about the location stack at the global
contexts. Other fields and the ids of location contexts do not matter, and neither do the platforms
of the rules. -/
theorem RuleSet.validate_identity {set : RuleSet} (hset : set.IsBuilt) :
    (∀ e e' : Event, e.type = e'.type →
      e.globalContexts.map Context.identity = e'.globalContexts.map Context.identity →
      e.locationStack.map Context.type = e'.locationStack.map Context.type →
        set.validate e = set.validate e') ∧
    (∀ r ∈ set.rules, r.kind = .missingGlobalContext ∨ r.kind = .uniqueGlobalContext →
      ∀ (e : Event) (stack : List Context),
        r.validate { e with locationStack := stack } = r.validate e) ∧
    (∀ r ∈ set.rules, r.kind = .locationContext → ∀ (e : Event) (globals : List Context),
        r.validate { e with globalContexts := globals } = r.validate e) ∧
    (∀ (e : Event) (other : OtherData), set.validate (e.withOtherData other) = set.validate e) ∧
    ∀ (platforms : Nat → Platform) (e : Event),
      (set.withPlatforms platforms).validate e = set.validate e := by
  have hrules := hset.typeOnly
  refine ⟨fun e e' htype hglobals hlocations => ?_, fun r hr hkind e stack => ?_,
    fun r hr hkind e globals => ?_, fun e other => ?_, set.validate_withPlatforms⟩
  · refine validate_congr fun r hr => Rule.validate_congr (hrules r hr) htype ?_
    cases r.kind.part with
    | globalContexts => exact hglobals
    | locationStack => exact hlocations
  · refine Rule.validate_congr (hrules r hr) rfl ?_
    rcases hkind with hkind | hkind <;> rw [hkind] <;> rfl
  · refine Rule.validate_congr (hrules r hr) rfl ?_
    rw [hkind]
    rfl
  · exact validate_congr fun r hr =>
      Rule.validate_congr (hrules r hr) rfl (e.sameIn_withOtherData other _)

/-- A sample event and one that shares with it no more than its identity data have the same
diagnostics under the sample document, of which there are some. -/
theorem RuleSet.validate_identity_sample : ∃ set : RuleSet, set.IsBuilt ∧
    set.validate (.sample "PressEvent" ["ContentContext", "RootLocationContext"]) ≠ [] ∧
    set.validate (.sample "PressEvent" ["ContentContext", "RootLocationContext"]) =
      set.validate ⟨⟨"PressEvent"⟩, [⟨⟨"PathContext"⟩, "/", [("n", .nat 0)]⟩],
        [⟨⟨"ContentContext"⟩, "a", []⟩, ⟨⟨"RootLocationContext"⟩, "", [("n", .null)]⟩],
        [("time", .nat 1)]⟩ := by
  have hbuilt : ∃ set, RuleDocument.sample.build = .ok set ∧
      set.validate (.sample "PressEvent" ["ContentContext", "RootLocationContext"]) ≠ [] :=
    ⟨_, rfl, by decide⟩
  obtain ⟨set, hset, hne⟩ := hbuilt
  exact ⟨set, .inl ⟨_, hset⟩, hne, (validate_identity (.inl ⟨_, hset⟩)).1 _ _ rfl rfl rfl⟩

end EventTaxonomy
