import EventTaxonomy.Report.Console
import EventTaxonomy.RuleSet

/-!
# Recording

A `Transcript` in use. Rule sets and single rules report events to it, messages are handed to it as
they are, and it may be cleared. `Transcript.step` is one such operation and `Transcript.run` a
sequence of them; a report answers with the number of its diagnostics.
-/

namespace EventTaxonomy

namespace Transcript

/-- Drops all messages. -/
def clear (_ : Transcript) : Transcript := empty

/-- Reports diagnostics, and counts them. -/
def reportCounted (t : Transcript) (ds : List Diagnostic) : Transcript × Nat :=
  (t.reportAll ds, ds.length)

/-- A rule set reports what it finds wrong with an event. -/
def reportSet (t : Transcript) (set : RuleSet) (e : Event) : Transcript × Nat :=
  t.reportCounted (set.validate e)

/-- A single rule reports what it finds wrong with an event. -/
def reportRule (t : Transcript) (r : Rule) (e : Event) : Transcript × Nat :=
  t.reportCounted (r.validate e)

/-- What is done with a transcript. -/
inductive Operation where
  | reportSet (set : RuleSet) (e : Event)
  | reportRule (r : Rule) (e : Event)
  /-- A message is handed on. -/
  | group (message : String) (style : Style)
  | clear
  deriving Inhabited

/-- Carries out an operation; a report has an answer. -/
def step (t : Transcript) : Operation → Transcript × Option Nat
  | .reportSet set e =>
    let (t, count) := t.reportSet set e
    (t, some count)
  | .reportRule r e =>
    let (t, count) := t.reportRule r e
    (t, some count)
  | .group message style => (t.group message style, none)
  | .clear => (t.clear, none)

/-- Carries out operations one after the other; their answers come in the same order. -/
def run (t : Transcript) : List Operation → Transcript × List (Option Nat)
  | [] => (t, [])
  | op :: ops =>
    let (t, answer) := t.step op
    let (t, answers) := t.run ops
    (t, answer :: answers)

end Transcript

end EventTaxonomy
