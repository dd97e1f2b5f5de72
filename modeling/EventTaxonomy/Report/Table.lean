import EventTaxonomy.RuleSet
import EventTaxonomy.Text.Column

/-!
# Tables

Rules as a listing, in a table or as a value, and the summary of a run.
-/

namespace EventTaxonomy

namespace Rule

/-- The rule as a value in canonical form. -/
def toJson (r : Rule) : Json :=
  let types : Json := .ofOption
    (fun types => .array (types.map fun (type : EventTypeName) => .string type.text))
    r.events.allowList
  let placement (f : Occurrence → Fields) : Fields :=
    match r.check.occurrence with
    | none => []
    | some occurrence => f occurrence
  .object (
    [("context_name", .ofOption (fun (name : ContextName) => .string name.text) r.contextName),
      ("event_types", types),
      ("kind", .string r.kind.tag),
      ("log_prefix", .ofOption Json.string r.logPrefix)] ++
    placement (fun occurrence => [("once", .bool occurrence.isOnce)]) ++
    [("platform", r.platform.toJson)] ++
    placement (fun occurrence => [("position", .ofOption Json.nat occurrence.position)]))

/-- What the rule asks beyond its context, in words. -/
def constraints (r : Rule) : List String :=
  let placement := match r.check.occurrence with
    | none => []
    | some occurrence =>
      (if occurrence.isOnce then ["once"] else []) ++
        match occurrence.position with
        | some position => ["position=" ++ toString position]
        | none => []
  let events := match r.events.allowList with
    | some types => ["events=" ++ ",".intercalate (types.map EventTypeName.text)]
    | none => []
  placement ++ events

end Rule

namespace Table

/-- A row of the table of rules. -/
def ruleColumns (kind platform context constraints : String) : String :=
  Text.padRight 24 kind ++ " " ++ Text.padRight 14 platform ++ " " ++ Text.padRight 24 context ++
    " " ++ constraints

/-- The row of a rule. -/
def ruleRow (r : Rule) : String :=
  ruleColumns r.kind.tag r.platform.tag
    (match r.contextName with
      | some name => name.text
      | none => "*")
    (" ".intercalate r.constraints)

/-- A line of dashes. -/
def dashes (n : Nat) : String := String.ofList (List.replicate n '-')

/-- The table of rules. -/
def rules (set : RuleSet) : String :=
  ruleColumns "KIND" "PLATFORM" "CONTEXT" "CONSTRAINTS" ++ "\n" ++ dashes 90 ++ "\n" ++
    String.join (set.rules.map fun r => ruleRow r ++ "\n")

/-- The result of one record: its type and its number of diagnostics, if it is an event. -/
structure Row where
  index : Nat
  result : Option (EventTypeName × Nat)
  deriving DecidableEq, Repr, Inhabited

namespace Row

/-- The number of diagnostics; a record that is no event counts nothing. -/
def count (row : Row) : Nat :=
  match row.result with
  | some (_, count) => count
  | none => 0

end Row

/-- A row of the summary. -/
def summaryColumns (index type count : String) : String :=
  Text.padRight 8 index ++ " " ++ Text.padRight 24 type ++ " " ++ count

/-- The row of a record. -/
def summaryRow (row : Row) : String :=
  match row.result with
  | some (type, count) => summaryColumns (toString row.index) type.text (toString count)
  | none => summaryColumns (toString row.index) "?" "invalid"

/-- The summary of a run. -/
def summary (rows : List Row) : String :=
  summaryColumns "EVENT" "TYPE" "DIAGNOSTICS" ++ "\n" ++ dashes 50 ++ "\n" ++
    String.join (rows.map fun row => summaryRow row ++ "\n") ++
    toString rows.length ++ " events, " ++
    toString (rows.foldr (fun row n => row.count + n) 0) ++ " diagnostics\n"

end Table

end EventTaxonomy
