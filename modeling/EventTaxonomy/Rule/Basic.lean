import EventTaxonomy.Event
import EventTaxonomy.Platform
import EventTaxonomy.Text.Quoted

/-!
# Rules

A `Rule` asks something of an event (`Check`): that a global context is there, that no two global
contexts share their identity, or that a location context stands in the location stack. It carries
a platform as a tag, a matcher that says which events it is about, and a prefix for its messages.
A matcher shows the types that it goes by, and a prefix is not empty; both are part of the types.

Rules are put together by builder calls: `withEvents`, `withLogPrefix`, and for location rules
`once`, `onceAt` and `withFlags`.
-/

namespace EventTaxonomy

/-! ### Which events -/

/-- The events that a rule is about: a predicate that decides, and the types of these events where
they were listed. The list is a copy, kept to be shown. -/
structure EventMatcher where
  predicate : Event → Bool
  eventTypes : Option (List EventTypeName)
  /-- What is shown is what the predicate goes by. -/
  agrees : ∀ types ∈ eventTypes, ∀ e, predicate e = types.contains e.type

namespace EventMatcher

theorem agrees_none (p : Event → Bool) :
    ∀ types ∈ (none : Option (List EventTypeName)), ∀ e, p e = types.contains e.type := by
  intro types h
  cases h

theorem agrees_some (types : List EventTypeName) :
    ∀ types' ∈ some types, ∀ e : Event, types.contains e.type = types'.contains e.type := by
  intro types' h e
  cases h
  rfl

/-- All events. -/
def always : EventMatcher := ⟨fun _ => true, none, agrees_none _⟩

/-- Events that satisfy a predicate. -/
def satisfying (p : Event → Bool) : EventMatcher := ⟨p, none, agrees_none p⟩

/-- Events of the listed types. -/
def oneOf (types : List EventTypeName) : EventMatcher :=
  ⟨fun e => types.contains e.type, some types, agrees_some types⟩

instance : Inhabited EventMatcher := ⟨always⟩

/-- The matcher takes the event. -/
def accepts (matcher : EventMatcher) (e : Event) : Bool := matcher.predicate e

/-- The types of the events, if they were listed. -/
def allowList (matcher : EventMatcher) : Option (List EventTypeName) := matcher.eventTypes

@[simp] theorem allowList_oneOf (types : List EventTypeName) :
    (oneOf types).allowList = some types := rfl

/-- The predicate of a matcher and the types that it shows agree. -/
theorem accepts_iff_of_allowList {matcher : EventMatcher} {types : List EventTypeName}
    (h : matcher.allowList = some types) (e : Event) :
    matcher.accepts e = true ↔ e.type ∈ types := by
  rw [accepts, matcher.agrees types h, List.contains_iff_mem]

/-- The matcher in words. -/
def describe (matcher : EventMatcher) : String :=
  match matcher.eventTypes with
  | none => "EventMatches(<fn>)"
  | some types =>
    "EventMatches([" ++
      ", ".intercalate (types.map fun type => "EventTypeName(" ++ Text.quoted type.text ++ ")") ++
      "])"

end EventMatcher

/-! ### What is asked -/

/-- How often, and where, a context has to stand in the location stack. -/
inductive Occurrence where
  | atLeastOnce
  | once
  /-- Once, at this index. -/
  | onceAt (position : Nat)
  deriving DecidableEq, Repr, Inhabited

namespace Occurrence

/-- Only one occurrence is allowed. -/
def isOnce : Occurrence → Bool
  | atLeastOnce => false
  | once => true
  | onceAt _ => true

/-- The index that is asked for. -/
def position : Occurrence → Option Nat
  | onceAt n => some n
  | _ => none

/-- Allows only one occurrence; an index that is asked for stays. -/
def toOnce : Occurrence → Occurrence
  | onceAt n => onceAt n
  | _ => once

end Occurrence

/-- What a rule asks of an event. -/
inductive Check where
  /-- A global context of the type is there. -/
  | missing (name : ContextName)
  /-- No two global contexts have the same type and id. -/
  | unique
  /-- A context of the type stands in the location stack. -/
  | location (name : ContextName) (occurrence : Occurrence)
  deriving DecidableEq, Repr, Inhabited

/-- The families of rules. -/
inductive RuleKind where
  | missingGlobalContext
  | uniqueGlobalContext
  | locationContext
  deriving DecidableEq, Repr, Inhabited

namespace RuleKind

/-- The families, in order. -/
def all : List RuleKind := [missingGlobalContext, uniqueGlobalContext, locationContext]

/-- The name of the family in documents. -/
def tag : RuleKind → String
  | missingGlobalContext => "missing_global_context"
  | uniqueGlobalContext => "unique_global_context"
  | locationContext => "location_context"

/-- The name of the family in log lines. -/
def label : RuleKind → String
  | missingGlobalContext => "MissingGlobalContext"
  | uniqueGlobalContext => "UniqueGlobalContext"
  | locationContext => "LocationContext"

end RuleKind

/-- A rule. -/
@[ext]
structure Rule where
  platform : Platform
  events : EventMatcher
  logPrefix : Option String
  check : Check
  /-- A prefix is never empty. -/
  logPrefix_ne : logPrefix ≠ some ""

/-- A rule that cannot be built. -/
inductive BuildError where
  /-- An index is asked for, but not that there is only one occurrence. -/
  | positionWithoutOnce (name : ContextName)
  | invalidName (e : NameError)
  deriving DecidableEq, Repr

namespace BuildError

/-- The wording. -/
def message : BuildError → String
  | positionWithoutOnce name =>
    "location rule for " ++ name.text ++ ": `position` requires `once: true`"
  | invalidName e => "invalid name: " ++ e.message

end BuildError

namespace Check

/-- The family of the check. -/
def kind : Check → RuleKind
  | missing _ => .missingGlobalContext
  | unique => .uniqueGlobalContext
  | location _ _ => .locationContext

/-- The one type of contexts that the check is about. -/
def contextName : Check → Option ContextName
  | missing name => some name
  | unique => none
  | location name _ => some name

/-- How often a location context has to occur. -/
def occurrence : Check → Option Occurrence
  | location _ occurrence => some occurrence
  | _ => none

/-- Changes how often a location context has to occur. -/
def withOccurrence (f : Occurrence → Occurrence) : Check → Check
  | location name occurrence => location name (f occurrence)
  | check => check

end Check

/-- A prefix, if it is not empty. -/
def nonEmpty (text : String) : Option String := if text = "" then none else some text

theorem nonEmpty_ne (text : String) : nonEmpty text ≠ some "" := by
  unfold nonEmpty
  split
  · simp
  · next h => simpa using h

namespace Rule

/-- A rule about all events, without a prefix. -/
def new (platform : Platform) (check : Check) : Rule :=
  ⟨platform, .always, none, check, (Option.some_ne_none "").symm⟩

instance : Inhabited Rule := ⟨new default default⟩

/-- A rule that asks for a global context. -/
def missing (platform : Platform) (name : ContextName) : Rule := new platform (.missing name)

/-- A rule that asks for global contexts to be unique. -/
def unique (platform : Platform) : Rule := new platform .unique

/-- A rule that asks for a location context. -/
def location (platform : Platform) (name : ContextName) : Rule :=
  new platform (.location name .atLeastOnce)

/-- The family of the rule. -/
def kind (r : Rule) : RuleKind := r.check.kind

/-- The one type of contexts that the rule is about. -/
def contextName (r : Rule) : Option ContextName := r.check.contextName

/-! ### Builder calls -/

/-- Restricts the rule to the events of a matcher. -/
def withEvents (r : Rule) (events : EventMatcher) : Rule := { r with events }

/-- Sets the prefix; an empty one is none. -/
def withLogPrefix (r : Rule) (text : String) : Rule :=
  { r with logPrefix := nonEmpty text, logPrefix_ne := nonEmpty_ne text }

/-- Allows only one occurrence of the location context. -/
def once (r : Rule) : Rule := { r with check := r.check.withOccurrence .toOnce }

/-- Asks for one occurrence of the location context, at an index. -/
def onceAt (r : Rule) (position : Nat) : Rule :=
  { r with check := r.check.withOccurrence fun _ => .onceAt position }

/-- Sets how often the location context has to occur, from two settings. An index needs `once`. -/
def withFlags (r : Rule) (once : Bool) (position : Option Nat) : Except BuildError Rule :=
  match once, position, r.check with
  | true, some n, _ => .ok (r.onceAt n)
  | true, none, _ => .ok r.once
  | false, some _, .location name _ => .error (.positionWithoutOnce name)
  | false, _, _ => .ok r

end Rule

end EventTaxonomy
