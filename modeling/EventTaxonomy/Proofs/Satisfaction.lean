import EventTaxonomy.RuleDocument
import EventTaxonomy.Proofs.Verdict

/-!
# A clean report means that the document is satisfied

A rule document says what it asks of events in three kinds of entries. `EntryCheck.SatisfiedBy` is
that meaning, read off the document alone: it mentions no rule, no occurrence and no diagnostic.

Between the document and a report stand two stages. Building turns an entry into a rule, and
`RuleEntry.build_eq_ok` says which one; the rule then scans the event, and
`Check.violations_eq_nil_iff` says when it finds nothing. Put together, the report of an event is
empty iff every entry that is about the event is satisfied
(`RuleDocument.validate_build_eq_nil_iff`).
-/

namespace EventTaxonomy

/-! ### The meaning of a document -/

/-- The entry is about the event: it lists no event types, or lists that of the event. -/
def RuleEntry.Concerns (entry : RuleEntry) (e : Event) : Prop :=
  ∀ types, entry.eventTypes = some types → e.type.text ∈ types

/-- What an entry asks of an event that it is about. -/
def EntryCheck.SatisfiedBy : EntryCheck → Event → Prop
  | .missing contextName, e => ∃ c ∈ e.globalContexts, c.type = ⟨contextName⟩
  | .unique, e => ∀ (i j : Nat) (c d : Context), i ≠ j → e.globalContexts[i]? = some c →
      e.globalContexts[j]? = some d → (c.type, c.id) ≠ (d.type, d.id)
  | .location contextName once position, e =>
    (∃ i, e.StandsAt ⟨contextName⟩ i) ∧ (once = true → ∃! i, e.StandsAt ⟨contextName⟩ i) ∧
      ∀ n, position = some n → ∀ i, e.StandsAt ⟨contextName⟩ i → i = n

/-! ### What building makes of an entry -/

/-- A traversal that succeeds has succeeded at every element. -/
theorem forall₂_of_mapM_eq_ok {ε α β : Type} {f : α → Except ε β} {as : List α} {bs : List β}
    (h : as.mapM f = .ok bs) : List.Forall₂ (fun a b => f a = .ok b) as bs := by
  induction as generalizing bs with
  | nil =>
    cases h
    exact .nil
  | cons a as ih =>
    rw [List.mapM_cons] at h
    cases ha : f a with
    | error e => rw [ha] at h; cases h
    | ok b =>
      cases has : as.mapM f with
      | error e => rw [ha, has] at h; cases h
      | ok bs' =>
        rw [ha, has] at h
        cases h
        exact .cons ha (ih has)

theorem NameFamily.parse_eq_ok {family : NameFamily} {text name : String}
    (h : family.parse text = .ok name) : name = text := by
  unfold parse at h
  split_ifs at h
  cases h
  rfl

theorem ContextName.parse_eq_ok {text : String} {name : ContextName} (h : parse text = .ok name) :
    name = ⟨text⟩ := by
  obtain ⟨s, hs, rfl⟩ := Json.map_eq_ok.1 h
  rw [NameFamily.parse_eq_ok hs]

theorem EventTypeName.parse_eq_ok {text : String} {name : EventTypeName}
    (h : parse text = .ok name) : name = ⟨text⟩ := by
  obtain ⟨s, hs, rfl⟩ := Json.map_eq_ok.1 h
  rw [NameFamily.parse_eq_ok hs]

theorem EventTypeName.mapM_parse_eq_ok {types : List String} {names : List EventTypeName}
    (h : types.mapM parse = .ok names) : names = types.map EventTypeName.mk := by
  have hall := forall₂_of_mapM_eq_ok h
  clear h
  induction hall with
  | nil => rfl
  | cons hname _ ih => rw [List.map_cons, parse_eq_ok hname, ih]

/-- The occurrence that two settings of an entry ask for. -/
def Occurrence.ofFlags : Bool → Option Nat → Occurrence
  | false, _ => .atLeastOnce
  | true, none => .once
  | true, some n => .onceAt n

namespace EntryCheck

/-- The check of a rule that is built from an entry. -/
def toCheck : EntryCheck → Check
  | missing contextName => .missing ⟨contextName⟩
  | unique => .unique
  | location contextName once position => .location ⟨contextName⟩ (.ofFlags once position)

/-- An index is asked for only together with a single occurrence. -/
def Consistent : EntryCheck → Prop
  | location _ once position => position.isSome = true → once = true
  | _ => True

end EntryCheck

namespace RuleEntry

/-- The matcher of a rule that is built from an entry. -/
def matcher (entry : RuleEntry) : EventMatcher :=
  match entry.eventTypes with
  | none => .always
  | some types => .oneOf (types.map EventTypeName.mk)

theorem buildEvents_eq_ok {entry : RuleEntry} {events : EventMatcher}
    (h : buildEvents entry.eventTypes = .ok events) : events = entry.matcher := by
  unfold buildEvents at h
  unfold matcher
  cases ht : entry.eventTypes with
  | none =>
    rw [ht] at h
    cases h
    rfl
  | some types =>
    simp only [ht] at h
    split at h
    · next names hnames =>
      cases h
      rw [EventTypeName.mapM_parse_eq_ok hnames]
    · cases h

theorem buildCheck_eq_ok {platform : Platform} {check : EntryCheck} {rule : Rule}
    (h : buildCheck platform check = .ok rule) :
    rule = Rule.new platform check.toCheck ∧ check.Consistent := by
  cases check with
  | missing contextName =>
    simp only [buildCheck] at h
    split at h
    · next name hname =>
      cases h
      rw [ContextName.parse_eq_ok hname]
      exact ⟨rfl, trivial⟩
    · cases h
  | unique =>
    cases h
    exact ⟨rfl, trivial⟩
  | location contextName once position =>
    simp only [buildCheck] at h
    split at h
    · next name hname =>
      rw [ContextName.parse_eq_ok hname] at h
      cases once <;> cases position <;> cases h
      all_goals exact ⟨rfl, by simp [EntryCheck.Consistent]⟩
    · cases h

/-- **The rule of an entry**: the entry's own settings, the given platform and prefix where it has
none, and its matcher and check. -/
theorem build_eq_ok {entry : RuleEntry} {platform : Platform} {logPrefix : Option String}
    {rule : Rule} (h : entry.build platform logPrefix = .ok rule) :
    rule = ⟨entry.platform.getD platform, entry.matcher,
      nonEmpty ((entry.logPrefix.or logPrefix).getD ""), entry.check.toCheck, nonEmpty_ne _⟩ ∧
      entry.check.Consistent := by
  unfold build at h
  split at h
  · cases h
  · next events hevents =>
    split at h
    · cases h
    · next base hbase =>
      cases h
      obtain ⟨rfl, hconsistent⟩ := buildCheck_eq_ok hbase
      rw [buildEvents_eq_ok hevents]
      exact ⟨rfl, hconsistent⟩

theorem accepts_matcher_iff {entry : RuleEntry} {e : Event} :
    entry.matcher.accepts e = true ↔ entry.Concerns e := by
  unfold matcher Concerns
  cases entry.eventTypes with
  | none => simp [EventMatcher.accepts, EventMatcher.always]
  | some types =>
    dsimp only
    rw [EventMatcher.accepts_iff_of_allowList rfl]
    simp only [List.mem_map, Option.some.injEq, forall_eq']
    constructor
    · rintro ⟨text, ht, he⟩
      rw [← he]
      exact ht
    · intro h
      exact ⟨e.type.text, h, rfl⟩

end RuleEntry

theorem EntryCheck.holdsOn_toCheck_iff {check : EntryCheck} (hc : check.Consistent) (e : Event) :
    check.toCheck.HoldsOn e ↔ check.SatisfiedBy e := by
  cases check with
  | missing contextName => rfl
  | unique => rfl
  | location contextName once position =>
    cases once with
    | true => cases position <;> rfl
    | false =>
      cases position with
      | none => rfl
      | some n => exact absurd (hc rfl) Bool.false_ne_true

/-! ### Reports -/

theorem Rule.validate_eq_nil_iff {r : Rule} {e : Event} :
    r.validate e = [] ↔ (r.events.accepts e = true → r.check.HoldsOn e) := by
  rw [validate, appliesTo]
  split_ifs with h
  · simp only [List.map_eq_nil_iff, Check.violations_eq_nil_iff, h, forall_const]
  · simp [h]

theorem RuleEntry.validate_eq_nil_iff {entry : RuleEntry} {platform : Platform}
    {logPrefix : Option String} {rule : Rule} (h : entry.build platform logPrefix = .ok rule)
    (e : Event) :
    rule.validate e = [] ↔ (entry.Concerns e → entry.check.SatisfiedBy e) := by
  obtain ⟨rfl, hconsistent⟩ := build_eq_ok h
  rw [Rule.validate_eq_nil_iff, accepts_matcher_iff,
    EntryCheck.holdsOn_toCheck_iff hconsistent]

theorem RuleDocument.forall₂_of_build_eq_ok {doc : RuleDocument} {set : RuleSet}
    (h : doc.build = .ok set) :
    List.Forall₂ (fun (entry : RuleEntry) rule => entry.build doc.platform doc.logPrefix = .ok rule)
      doc.rules set.rules := by
  obtain ⟨rules, hrules, rfl⟩ := Json.map_eq_ok.1 h
  exact forall₂_of_mapM_eq_ok hrules

theorem RuleDocument.exists_entry_of_mem {doc : RuleDocument} {set : RuleSet}
    (h : doc.build = .ok set) {r : Rule} (hr : r ∈ set.rules) :
    ∃ entry ∈ doc.rules, entry.build doc.platform doc.logPrefix = .ok r := by
  have hall := forall₂_of_build_eq_ok h
  generalize doc.rules = entries at hall ⊢
  generalize set.rules = rules at hall hr
  induction hall with
  | nil => cases hr
  | @cons entry rule entries rules hrule _ ih =>
    rcases List.mem_cons.1 hr with rfl | hr
    · exact ⟨entry, List.mem_cons_self, hrule⟩
    · obtain ⟨entry', hmem, hbuild⟩ := ih hr
      exact ⟨entry', List.mem_cons_of_mem _ hmem, hbuild⟩

/-- **A clean report means that the event satisfies the rule document, and only then**: the rule
set of a document finds nothing wrong with an event iff every entry that is about the event is
satisfied by it. -/
theorem RuleDocument.validate_build_eq_nil_iff {doc : RuleDocument} {set : RuleSet}
    (h : doc.build = .ok set) (e : Event) :
    set.validate e = [] ↔
      ∀ entry ∈ doc.rules, entry.Concerns e → entry.check.SatisfiedBy e := by
  rw [RuleSet.validate, List.flatMap_eq_nil_iff]
  have hall := forall₂_of_build_eq_ok h
  generalize doc.rules = entries at hall ⊢
  generalize set.rules = rules at hall ⊢
  induction hall with
  | nil => simp
  | cons hrule _ ih =>
    rw [List.forall_mem_cons, List.forall_mem_cons]
    exact and_congr (RuleEntry.validate_eq_nil_iff hrule e) ih

/-- A document with an entry of each kind. -/
def RuleDocument.sample : RuleDocument where
  platform := .browser
  logPrefix := none
  rules :=
    [⟨.missing "PathContext", some ["PressEvent"], none, none⟩, ⟨.unique, none, none, none⟩,
      ⟨.location "RootLocationContext" true (some 0), none, none, some "App"⟩]

/-- An event with one global context and a location stack of the given types. -/
def Event.sample (type : String) (stack : List String) : Event :=
  ⟨⟨type⟩, [.new ⟨"PathContext"⟩ "/"], stack.map fun name => .new ⟨name⟩ "x", []⟩

/-- A root at the top of the stack satisfies the sample document; below another context, it does
not, although the event is then still one with a path and without duplicates. -/
theorem RuleDocument.sample_satisfied_iff : ∃ set, RuleDocument.sample.build = .ok set ∧
    (∀ entry ∈ RuleDocument.sample.rules,
      entry.Concerns (.sample "PressEvent" ["RootLocationContext", "ContentContext"]) →
      entry.check.SatisfiedBy (.sample "PressEvent" ["RootLocationContext", "ContentContext"])) ∧
    ¬ ∀ entry ∈ RuleDocument.sample.rules,
      entry.Concerns (.sample "PressEvent" ["ContentContext", "RootLocationContext"]) →
      entry.check.SatisfiedBy (.sample "PressEvent" ["ContentContext", "RootLocationContext"]) := by
  refine ⟨_, rfl, ?_, ?_⟩
  · exact (validate_build_eq_nil_iff rfl _).1 (by decide)
  · rw [← validate_build_eq_nil_iff rfl]
    decide

end EventTaxonomy
