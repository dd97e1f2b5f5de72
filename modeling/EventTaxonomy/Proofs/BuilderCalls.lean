import EventTaxonomy.Proofs.Verdict
import Mathlib.Data.List.Basic

/-!
# Builder calls

A rule is made for a platform and a subject, and then goes through any sequence of builder calls.
`BuilderCall kind` has the calls that rules of a kind know, so that only location rules are asked
for occurrences. Each call is about one setting and leaves the others alone, and of several calls
about one setting the last counts.

* `Rule.changedBy_call` says what one call does to all settings, and `Rule.exists_callAll_eq_ok`
  what any number of them do;
* a call that asks for an index without a single occurrence ends the sequence
  (`Rule.callAll_eq_error`);
* a matcher decides by the types that it shows (`EventMatcher.accepts_iff_of_allowList`);
* `Rule.callAll_settings` puts this together for rules that have just been made.
-/

namespace EventTaxonomy

/-! ### What was set last -/

/-- The last value that is found along a list. -/
def lastOf {α β : Type} (f : α → Option β) (as : List α) : Option β := (as.filterMap f).getLast?

theorem lastOf_cons {α β : Type} (f : α → Option β) (a : α) (as : List α) :
    lastOf f (a :: as) = (lastOf f as).or (f a) := by
  unfold lastOf
  cases hfa : f a with
  | none => rw [List.filterMap_cons_none hfa, Option.or_none]
  | some b =>
    rw [List.filterMap_cons_some hfa, List.getLast?_cons]
    cases (as.filterMap f).getLast? <;> rfl

/-! ### Subjects and calls -/

/-- What a new rule of a kind is about. -/
inductive Subject : RuleKind → Type where
  | missing (name : ContextName) : Subject .missingGlobalContext
  | unique : Subject .uniqueGlobalContext
  | location (name : ContextName) : Subject .locationContext

/-- A builder call that rules of a kind know. -/
inductive BuilderCall : RuleKind → Type where
  | withLogPrefix {kind : RuleKind} (text : String) : BuilderCall kind
  | withEvents {kind : RuleKind} (events : EventMatcher) : BuilderCall kind
  | once : BuilderCall .locationContext
  | onceAt (position : Nat) : BuilderCall .locationContext
  | withFlags (once : Bool) (position : Option Nat) : BuilderCall .locationContext

variable {kind : RuleKind}

namespace Subject

/-- The one type of contexts that the rule is about. -/
def contextName : Subject kind → Option ContextName
  | missing name => some name
  | unique => none
  | location name => some name

/-- The new rule. -/
def rule (platform : Platform) : Subject kind → Rule
  | missing name => .missing platform name
  | unique => .unique platform
  | location name => .location platform name

theorem kind_rule (platform : Platform) (subject : Subject kind) :
    (subject.rule platform).kind = kind := by
  cases subject <;> rfl

theorem contextName_rule (platform : Platform) (subject : Subject kind) :
    (subject.rule platform).contextName = subject.contextName := by
  cases subject <;> rfl

theorem events_rule (platform : Platform) (subject : Subject kind) :
    (subject.rule platform).events = .always := by
  cases subject <;> rfl

end Subject

namespace BuilderCall

/-- The prefix that the call sets. -/
def logPrefix? : BuilderCall kind → Option String
  | withLogPrefix text => some text
  | _ => none

/-- The matcher that the call sets. -/
def events? : BuilderCall kind → Option EventMatcher
  | withEvents events => some events
  | _ => none

/-- The index that the call asks for. -/
def position? : BuilderCall kind → Option Nat
  | onceAt n => some n
  | withFlags true position => position
  | _ => none

/-- The call asks for only one occurrence. -/
def asksOnce : BuilderCall kind → Bool
  | once => true
  | onceAt _ => true
  | withFlags only _ => only
  | _ => false

/-- The call asks for an index, but not for only one occurrence. -/
def contradicts : BuilderCall kind → Bool
  | withFlags false (some _) => true
  | _ => false

end BuilderCall

namespace Occurrence

theorem position_toOnce (o : Occurrence) : o.toOnce.position = o.position := by
  cases o <;> rfl

theorem isOnce_toOnce (o : Occurrence) : o.toOnce.isOnce = true := by
  cases o <;> rfl

theorem isOnce_of_position {o : Occurrence} {n : Nat} (h : o.position = some n) :
    o.isOnce = true := by
  cases o with
  | onceAt m => rfl
  | _ => cases h

end Occurrence

namespace Rule

/-- Only one occurrence of the location context is allowed. -/
def isOnce (r : Rule) : Bool := r.check.occurrence.any Occurrence.isOnce

/-- The index at which the location context has to stand. -/
def position (r : Rule) : Option Nat := r.check.occurrence.bind Occurrence.position

/-- Carries out a call. -/
def call (r : Rule) : BuilderCall kind → Except BuildError Rule
  | .withLogPrefix text => .ok (r.withLogPrefix text)
  | .withEvents events => .ok (r.withEvents events)
  | .once => .ok r.once
  | .onceAt n => .ok (r.onceAt n)
  | .withFlags once position => r.withFlags once position

/-- Carries out calls one after the other, up to one that fails. -/
def callAll (r : Rule) (calls : List (BuilderCall kind)) : Except BuildError Rule :=
  calls.foldlM call r

/-! ### What calls change -/

/-- The second rule is the first one after the calls: each setting is the last that was given, and
without one, that of the first rule. -/
structure ChangedBy (calls : List (BuilderCall kind)) (r r' : Rule) : Prop where
  platform : r'.platform = r.platform
  kind : r'.kind = r.kind
  contextName : r'.contextName = r.contextName
  logPrefix : r'.logPrefix = ((lastOf BuilderCall.logPrefix? calls).map nonEmpty).getD r.logPrefix
  events : r'.events = (lastOf BuilderCall.events? calls).getD r.events
  position : r'.position = (lastOf BuilderCall.position? calls).or r.position
  isOnce : r'.isOnce = (calls.any BuilderCall.asksOnce || r.isOnce)

theorem changedBy_nil (r : Rule) : ChangedBy ([] : List (BuilderCall kind)) r r :=
  ⟨rfl, rfl, rfl, rfl, rfl, rfl, rfl⟩

theorem ChangedBy.cons {c : BuilderCall kind} {calls : List (BuilderCall kind)} {r₁ r₂ r₃ : Rule}
    (hfirst : ChangedBy [c] r₁ r₂) (hrest : ChangedBy calls r₂ r₃) :
    ChangedBy (c :: calls) r₁ r₃ where
  platform := hrest.platform.trans hfirst.platform
  kind := hrest.kind.trans hfirst.kind
  contextName := hrest.contextName.trans hfirst.contextName
  logPrefix := by
    rw [hrest.logPrefix, hfirst.logPrefix, lastOf_cons, lastOf_cons]
    cases lastOf BuilderCall.logPrefix? calls <;> rfl
  events := by
    rw [hrest.events, hfirst.events, lastOf_cons, lastOf_cons]
    cases lastOf BuilderCall.events? calls <;> rfl
  position := by
    rw [hrest.position, hfirst.position, lastOf_cons, lastOf_cons]
    cases lastOf BuilderCall.position? calls <;> rfl
  isOnce := by
    rw [hrest.isOnce, hfirst.isOnce]
    simp [Bool.or_left_comm, Bool.or_assoc]

theorem exists_location_of_kind {r : Rule} (h : r.kind = .locationContext) :
    ∃ name occurrence, r.check = .location name occurrence := by
  unfold Rule.kind at h
  cases hcheck : r.check with
  | missing name => rw [hcheck] at h; cases h
  | unique => rw [hcheck] at h; cases h
  | location name occurrence => exact ⟨name, occurrence, rfl⟩

/-- A call that is about the occurrence alone changes no other setting. -/
theorem changedBy_withOccurrence {r : Rule} {name : ContextName} {occurrence : Occurrence}
    (hcheck : r.check = .location name occurrence) (f : Occurrence → Occurrence)
    {c : BuilderCall kind} (hlog : c.logPrefix? = none) (hevents : c.events? = none)
    (hposition : (f occurrence).position = c.position?.or occurrence.position)
    (honce : (f occurrence).isOnce = (c.asksOnce || occurrence.isOnce)) :
    ChangedBy [c] r { r with check := r.check.withOccurrence f } := by
  constructor
  case platform => rfl
  case kind => simp [Rule.kind, hcheck, Check.withOccurrence, Check.kind]
  case contextName => simp [Rule.contextName, hcheck, Check.withOccurrence, Check.contextName]
  case logPrefix => simp [lastOf, hlog]
  case events => simp [lastOf, hevents]
  case position =>
    rw [lastOf_cons]
    simpa [Rule.position, hcheck, Check.withOccurrence, Check.occurrence, lastOf] using hposition
  case isOnce =>
    simpa [Rule.isOnce, hcheck, Check.withOccurrence, Check.occurrence] using honce

/-- **What one call does**: it changes the setting that it is about, and no other. -/
theorem changedBy_call {r r' : Rule} {c : BuilderCall kind} (hkind : r.kind = kind)
    (h : r.call c = .ok r') : ChangedBy [c] r r' := by
  cases c with
  | withLogPrefix text =>
    cases h
    exact ⟨rfl, rfl, rfl, rfl, rfl, rfl, rfl⟩
  | withEvents events =>
    cases h
    exact ⟨rfl, rfl, rfl, rfl, rfl, rfl, rfl⟩
  | once =>
    obtain ⟨name, occurrence, hcheck⟩ := exists_location_of_kind hkind
    cases h
    exact changedBy_withOccurrence hcheck .toOnce rfl rfl occurrence.position_toOnce
      occurrence.isOnce_toOnce
  | onceAt n =>
    obtain ⟨name, occurrence, hcheck⟩ := exists_location_of_kind hkind
    cases h
    exact changedBy_withOccurrence hcheck (fun _ => .onceAt n) rfl rfl rfl rfl
  | withFlags only position =>
    obtain ⟨name, occurrence, hcheck⟩ := exists_location_of_kind hkind
    cases only with
    | true =>
      cases position with
      | none =>
        cases h
        exact changedBy_withOccurrence hcheck .toOnce rfl rfl occurrence.position_toOnce
          occurrence.isOnce_toOnce
      | some n =>
        cases h
        exact changedBy_withOccurrence hcheck (fun _ => .onceAt n) rfl rfl rfl rfl
    | false =>
      cases position with
      | none =>
        simp only [call, withFlags, Except.ok.injEq] at h
        subst h
        exact ⟨rfl, rfl, rfl, rfl, rfl, rfl, rfl⟩
      | some n => simp [call, withFlags, hcheck] at h

theorem exists_call_eq_ok {c : BuilderCall kind} (h : c.contradicts = false) (r : Rule) :
    ∃ r', r.call c = .ok r' := by
  cases c with
  | withFlags only position =>
    cases only with
    | true => cases position <;> exact ⟨_, rfl⟩
    | false =>
      cases position with
      | none => exact ⟨r, rfl⟩
      | some n => cases h
  | _ => exact ⟨_, rfl⟩

theorem call_eq_error {r : Rule} {c : BuilderCall kind} (hkind : r.kind = kind)
    (h : c.contradicts = true) :
    ∃ name, r.contextName = some name ∧ r.call c = .error (.positionWithoutOnce name) := by
  cases c with
  | withFlags only position =>
    obtain ⟨name, occurrence, hcheck⟩ := exists_location_of_kind hkind
    cases only with
    | true => cases h
    | false =>
      cases position with
      | none => cases h
      | some n =>
        refine ⟨name, ?_, ?_⟩
        · simp [Rule.contextName, hcheck, Check.contextName]
        · simp [call, withFlags, hcheck]
  | _ => cases h

/-! ### Sequences of calls -/

theorem callAll_cons (r : Rule) (c : BuilderCall kind) (calls : List (BuilderCall kind)) :
    r.callAll (c :: calls) = r.call c >>= fun r' => r'.callAll calls :=
  List.foldlM_cons

/-- **What a sequence of calls does**, if none of them contradicts itself: each setting is the last
that was given. -/
theorem exists_callAll_eq_ok {r : Rule} {calls : List (BuilderCall kind)} (hkind : r.kind = kind)
    (h : ∀ c ∈ calls, c.contradicts = false) :
    ∃ r', r.callAll calls = .ok r' ∧ ChangedBy calls r r' := by
  induction calls generalizing r with
  | nil => exact ⟨r, rfl, changedBy_nil r⟩
  | cons c calls ih =>
    obtain ⟨hc, hcalls⟩ := List.forall_mem_cons.1 h
    obtain ⟨r₁, hr₁⟩ := exists_call_eq_ok hc r
    have hfirst := changedBy_call hkind hr₁
    obtain ⟨r₂, hr₂, hrest⟩ := ih (hfirst.kind.trans hkind) hcalls
    refine ⟨r₂, ?_, hfirst.cons hrest⟩
    rw [callAll_cons, hr₁]
    exact hr₂

/-- A call that contradicts itself ends the sequence, whatever comes before and after it. -/
theorem callAll_eq_error {r : Rule} {calls : List (BuilderCall kind)} (hkind : r.kind = kind)
    (h : ∃ c ∈ calls, c.contradicts = true) :
    ∃ name, r.contextName = some name ∧ r.callAll calls = .error (.positionWithoutOnce name) := by
  induction calls generalizing r with
  | nil => simp at h
  | cons c calls ih =>
    by_cases hc : c.contradicts = true
    · obtain ⟨name, hname, hcall⟩ := call_eq_error hkind hc
      refine ⟨name, hname, ?_⟩
      rw [callAll_cons, hcall]
      rfl
    · obtain ⟨r₁, hr₁⟩ := exists_call_eq_ok (Bool.not_eq_true _ ▸ hc) r
      have hfirst := changedBy_call hkind hr₁
      have hlater : ∃ c ∈ calls, c.contradicts = true := by
        simpa [hc] using h
      obtain ⟨name, hname, hcalls⟩ := ih (hfirst.kind.trans hkind) hlater
      refine ⟨name, hfirst.contextName.symm.trans hname, ?_⟩
      rw [callAll_cons, hr₁]
      exact hcalls

/-! ### New rules -/

/-- The rule has the settings that calls give to a new rule. -/
structure SetBy (r : Rule) (platform : Platform) (subject : Subject kind)
    (calls : List (BuilderCall kind)) : Prop where
  platform : r.platform = platform
  kind : r.kind = kind
  contextName : r.contextName = subject.contextName
  /-- The last prefix, unless it is empty. -/
  logPrefix : Shows r.logPrefix (lastOf BuilderCall.logPrefix? calls)
  events : r.events = (lastOf BuilderCall.events? calls).getD .always
  /-- Without a matcher, the rule is about every event and shows no types. -/
  always : lastOf BuilderCall.events? calls = none →
    r.events.allowList = none ∧ ∀ e, r.appliesTo e = true
  satisfying : ∀ p, lastOf BuilderCall.events? calls = some (.satisfying p) →
    r.events.allowList = none ∧ ∀ e, r.appliesTo e = p e
  oneOf : ∀ types, lastOf BuilderCall.events? calls = some (.oneOf types) →
    r.events.allowList = some types ∧ ∀ e, r.appliesTo e = true ↔ e.type ∈ types
  /-- Whatever matcher was set, types that are shown decide. -/
  appliesTo : ∀ types, r.events.allowList = some types →
    ∀ e, r.appliesTo e = true ↔ e.type ∈ types
  position : r.position = lastOf BuilderCall.position? calls
  isOnce : r.isOnce = true ↔ ∃ c ∈ calls, c.asksOnce = true
  isOnce_of_position : ∀ n, r.position = some n → r.isOnce = true

theorem isOnce_of_position {r : Rule} {n : Nat} (h : r.position = some n) : r.isOnce = true := by
  obtain ⟨occurrence, hoccurrence, hn⟩ := Option.bind_eq_some_iff.1 h
  rw [isOnce, hoccurrence]
  exact Occurrence.isOnce_of_position hn

theorem appliesTo_of_events {r : Rule} {matcher : EventMatcher} (h : r.events = matcher) :
    r.events.allowList = matcher.eventTypes ∧ ∀ e, r.appliesTo e = matcher.predicate e := by
  subst h
  exact ⟨rfl, fun _ => rfl⟩

theorem ChangedBy.setBy {platform : Platform} {subject : Subject kind}
    {calls : List (BuilderCall kind)} {r : Rule}
    (h : ChangedBy calls (subject.rule platform) r) : r.SetBy platform subject calls := by
  have hevents : r.events = (lastOf BuilderCall.events? calls).getD .always := by
    rw [h.events, subject.events_rule]
  constructor
  case platform =>
    rw [h.platform]
    cases subject <;> rfl
  case kind => exact h.kind.trans (subject.kind_rule platform)
  case contextName => exact h.contextName.trans (subject.contextName_rule platform)
  case logPrefix =>
    have hnew : (subject.rule platform).logPrefix = none := by cases subject <;> rfl
    rw [h.logPrefix, hnew]
    cases lastOf BuilderCall.logPrefix? calls with
    | none => simp [Shows]
    | some text => exact shows_nonEmpty (some text)
  case events => exact hevents
  case always =>
    intro hnone
    rw [hnone] at hevents
    exact appliesTo_of_events hevents
  case satisfying =>
    intro p hp
    rw [hp] at hevents
    exact appliesTo_of_events hevents
  case oneOf =>
    intro types htypes
    rw [htypes] at hevents
    have hlist : r.events.allowList = some types := (appliesTo_of_events hevents).1
    exact ⟨hlist, EventMatcher.accepts_iff_of_allowList hlist⟩
  case appliesTo => exact fun _ hlist => EventMatcher.accepts_iff_of_allowList hlist
  case position =>
    have hnew : (subject.rule platform).position = none := by cases subject <;> rfl
    rw [h.position, hnew, Option.or_none]
  case isOnce =>
    have hnew : (subject.rule platform).isOnce = false := by cases subject <;> rfl
    rw [h.isOnce, hnew, Bool.or_false, List.any_eq_true]
  case isOnce_of_position => exact fun _ hn => isOnce_of_position hn

/-- **Builder calls act independently, and the last one counts.** A sequence of calls to a new rule
fails iff one of them asks for an index without asking for a single occurrence, and this is then the
error. Otherwise platform, kind and context are those of the new rule, and prefix, matcher and index
are those that were set last. An empty prefix is none, and without a matcher the rule is about every
event. Only one occurrence is allowed iff some call has asked for that. -/
theorem callAll_settings (platform : Platform) (subject : Subject kind)
    (calls : List (BuilderCall kind)) :
    ((∃ e, (subject.rule platform).callAll calls = .error e) ↔
        ∃ c ∈ calls, c.contradicts = true) ∧
      (∀ e, (subject.rule platform).callAll calls = .error e →
        ∃ name, subject.contextName = some name ∧ e = .positionWithoutOnce name) ∧
      ((∀ c ∈ calls, c.contradicts = false) →
        ∃ r, (subject.rule platform).callAll calls = .ok r ∧ r.SetBy platform subject calls) := by
  have hkind := subject.kind_rule platform
  by_cases h : ∃ c ∈ calls, c.contradicts = true
  · obtain ⟨name, hcontext, herror⟩ := callAll_eq_error hkind h
    refine ⟨iff_of_true ⟨_, herror⟩ h, fun e he => ?_, fun hnone => ?_⟩
    · rw [herror] at he
      cases he
      exact ⟨name, (subject.contextName_rule platform).symm.trans hcontext, rfl⟩
    · obtain ⟨c, hc, htrue⟩ := h
      exact absurd ((hnone c hc).symm.trans htrue) Bool.false_ne_true
  · have hnone : ∀ c ∈ calls, c.contradicts = false := by simpa using h
    obtain ⟨r, hr, hchanged⟩ := exists_callAll_eq_ok hkind hnone
    refine ⟨iff_of_false ?_ h, fun e he => ?_, fun _ => ⟨r, hr, hchanged.setBy⟩⟩
    · rintro ⟨e, he⟩
      rw [hr] at he
      cases he
    · rw [hr] at he
      cases he

/-- Calls that set an index, a list of types and several prefixes, and others after them that could
undo it. -/
def mixedCalls : List (BuilderCall .locationContext) :=
  [.onceAt 2, .withLogPrefix "Web", .withEvents (.oneOf [⟨"PressEvent"⟩]), .withFlags false none,
    .once, .withLogPrefix "", .withLogPrefix "App", .withFlags true none]

/-- The index outlives the calls after it, and the last prefix counts. An empty one is none, and a
rule that was given no matcher is about every event. One call that contradicts itself spoils
all. -/
theorem callAll_settings_mixed :
    let new := (Subject.location ⟨"ContentContext"⟩).rule .browser
    (∃ r, new.callAll mixedCalls = .ok r ∧ r.platform = .browser ∧ r.position = some 2 ∧
        r.isOnce = true ∧ r.logPrefix = some "App" ∧
        r.events.allowList = some [⟨"PressEvent"⟩] ∧
        ∀ e, r.appliesTo e = true ↔ e.type ∈ [⟨"PressEvent"⟩]) ∧
      (∃ r, new.callAll [BuilderCall.withLogPrefix "App", .once, .withLogPrefix ""] = .ok r ∧
        r.logPrefix = none ∧ r.events.allowList = none ∧ ∀ e, r.appliesTo e = true) ∧
      new.callAll (mixedCalls ++ [.withFlags false (some 0), .onceAt 1]) =
        .error (.positionWithoutOnce ⟨"ContentContext"⟩) := by
  intro new
  refine ⟨?_, ?_, ?_⟩
  · obtain ⟨r, hr, hset⟩ :=
      (callAll_settings .browser (.location ⟨"ContentContext"⟩) mixedCalls).2.2 (by decide)
    obtain ⟨hlist, happlies⟩ := hset.oneOf [⟨"PressEvent"⟩] rfl
    exact ⟨r, hr, hset.platform, hset.position, hset.isOnce_of_position 2 hset.position,
      (hset.logPrefix "App").2 ⟨rfl, by decide⟩, hlist, happlies⟩
  · obtain ⟨r, hr, hset⟩ := (callAll_settings .browser (.location ⟨"ContentContext"⟩)
      [.withLogPrefix "App", .once, .withLogPrefix ""]).2.2 (by decide)
    exact ⟨r, hr, hset.logPrefix.eq_none_iff.2 (.inr rfl), hset.always rfl⟩
  · obtain ⟨hfails, herror, -⟩ := callAll_settings .browser (.location ⟨"ContentContext"⟩)
      (mixedCalls ++ [.withFlags false (some 0), .onceAt 1])
    obtain ⟨e, he⟩ := hfails.2 ⟨.withFlags false (some 0), by simp, rfl⟩
    obtain ⟨name, ⟨⟩, rfl⟩ := herror e he
    exact he

end Rule

end EventTaxonomy
