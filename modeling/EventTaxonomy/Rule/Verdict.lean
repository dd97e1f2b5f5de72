import EventTaxonomy.Rule.Diagnostic

/-!
# Verdicts

What a rule finds wrong with an event. `Check.violations` decides the question; `Rule.validate` asks
it only of events that the rule is about, and words the answer.
-/

namespace EventTaxonomy

/-- What a pass over a list has seen so far. -/
structure Tally (α : Type) where
  /-- How often an element has come. -/
  count : α → Nat
  /-- The elements, in the order in which they first came. -/
  order : List α

namespace Tally

variable {α : Type} [DecidableEq α]

/-- Nothing has come yet. -/
def empty : Tally α := ⟨fun _ => 0, []⟩

/-- One more element comes. -/
def add (t : Tally α) (a : α) : Tally α where
  count b := if b = a then t.count b + 1 else t.count b
  order := if t.count a = 0 then t.order ++ [a] else t.order

/-- The elements that have come more than once. -/
def repeated (t : Tally α) : List α := t.order.filter fun a => 1 < t.count a

end Tally

/-- The elements that a list has more than once, in the order in which they first come. -/
def repeated {α : Type} [DecidableEq α] (as : List α) : List α :=
  (as.foldl Tally.add Tally.empty).repeated

namespace Check

/-- What is wrong with the places at which a location context stands. -/
def placement (occurrence : Occurrence) : List Nat → Option Violation
  | [] => some .missing
  | index :: more =>
    if occurrence.isOnce && !more.isEmpty then some .duplicate
    else
      match occurrence.position with
      | none => none
      | some expected =>
        if expected = index then none else some (.wrongPosition expected index)

/-- The violations of a check by an event, with the type of the contexts concerned. -/
def violations (check : Check) (e : Event) : List (ContextName × Violation) :=
  match check with
  | .missing name => if (e.globalsOf name).isEmpty then [(name, .missing)] else []
  | .unique =>
    (repeated (e.globalContexts.map Context.identity)).map fun (name, id) =>
      (name, .duplicateIdentity id)
  | .location name occurrence =>
    match placement occurrence ((e.locationsOf name).map Prod.fst) with
    | some violation => [(name, violation)]
    | none => []

end Check

namespace Rule

/-- The rule is about the event. -/
def appliesTo (r : Rule) (e : Event) : Bool := r.events.accepts e

/-- The diagnostic of a violation. -/
def diagnostic (r : Rule) (e : Event) (name : ContextName) (violation : Violation) : Diagnostic :=
  .new r.kind violation name e.type r.logPrefix

/-- The diagnostics of an event. -/
def validate (r : Rule) (e : Event) : List Diagnostic :=
  if r.appliesTo e then
    (r.check.violations e).map fun (name, violation) => r.diagnostic e name violation
  else []

end Rule

end EventTaxonomy
