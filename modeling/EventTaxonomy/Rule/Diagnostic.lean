import EventTaxonomy.Rule.Basic

/-!
# Diagnostics

What a rule has to say about an event: the violation, and everything needed to word it. The text
of a diagnostic has two lines, a header with the message and a pointer to the documentation of the
context.
-/

namespace EventTaxonomy

/-- The part of an event, and of the documentation, to which a context belongs. -/
inductive Section where
  | globalContexts
  | locationStack
  deriving DecidableEq, Repr, Inhabited

namespace Section

/-- The section in the address of the documentation. -/
def path : Section → String
  | globalContexts => "global-contexts"
  | locationStack => "location-contexts"

/-- The section in messages. -/
def label : Section → String
  | globalContexts => "Global Contexts"
  | locationStack => "Location Stack"

/-- The address of the documentation of a context. -/
def docsUrl (part : Section) (name : ContextName) : String :=
  "https://objectiv.io/docs/taxonomy/reference/" ++ part.path ++ "/" ++ name.text

end Section

/-- What is wrong with an event. -/
inductive Violation where
  /-- There is no context of the type. -/
  | missing
  /-- Several global contexts have one type and one id. -/
  | duplicateIdentity (id : String)
  /-- Several location contexts have the type. -/
  | duplicate
  /-- The location context stands at the wrong index. -/
  | wrongPosition (expected actual : Nat)
  deriving DecidableEq, Repr, Inhabited

/-- A violation of a rule by an event. -/
structure Diagnostic where
  rule : RuleKind
  violation : Violation
  contextName : ContextName
  eventType : EventTypeName
  logPrefix : Option String
  deriving DecidableEq, Repr, Inhabited

namespace RuleKind

/-- The part of an event that the rules of a family look at. -/
def part : RuleKind → Section
  | missingGlobalContext => .globalContexts
  | uniqueGlobalContext => .globalContexts
  | locationContext => .locationStack

end RuleKind

namespace Violation

/-- The name of the violation in documents. -/
def tag : Violation → String
  | missing => "missing"
  | duplicateIdentity _ => "duplicate_identity"
  | duplicate => "duplicate"
  | wrongPosition _ _ => "wrong_position"

/-- The violation in words. -/
def message (violation : Violation) (part : Section) (name : ContextName) (event : EventTypeName) :
    String :=
  match violation with
  | missing => name.text ++ " is missing from " ++ part.label ++ " of " ++ event.text ++ "."
  | duplicateIdentity id =>
    "Only one " ++ name.text ++ "(id: " ++ id ++ ") should be present in " ++ part.label ++
      " of " ++ event.text ++ "."
  | duplicate =>
    "Only one " ++ name.text ++ " should be present in " ++ part.label ++ " of " ++
      event.text ++ "."
  | wrongPosition _ _ =>
    name.text ++ " is in the wrong position of the " ++ part.label ++ " of " ++ event.text ++ "."

/-- The violation as a value. -/
def toJson (violation : Violation) : Json :=
  let kind := ("kind", Json.string violation.tag)
  match violation with
  | missing => .object [kind]
  | duplicateIdentity id => .object [("id", .string id), kind]
  | duplicate => .object [kind]
  | wrongPosition expected actual =>
    .object [("actual", .nat actual), ("expected", .nat expected), kind]

end Violation

namespace Diagnostic

/-- The diagnostic of a violation; an empty prefix is none. -/
def new (rule : RuleKind) (violation : Violation) (contextName : ContextName)
    (eventType : EventTypeName) (logPrefix : Option String) : Diagnostic :=
  ⟨rule, violation, contextName, eventType, logPrefix.filter (· ≠ "")⟩

/-- The message, without tag and documentation. -/
def message (d : Diagnostic) : String :=
  d.violation.message d.rule.part d.contextName d.eventType

/-- The address of the documentation of the context. -/
def docsUrl (d : Diagnostic) : String := d.rule.part.docsUrl d.contextName

/-- The tag in front of the message. -/
def tag (d : Diagnostic) : String :=
  match d.logPrefix with
  | some text => "｢objectiv:" ++ text ++ "｣"
  | none => "｢objectiv｣"

/-- The header: the tag and the message. -/
def header (d : Diagnostic) : String := d.tag ++ " Error: " ++ d.message

/-- The two-line text. -/
def text (d : Diagnostic) : String :=
  d.header ++ "\nTaxonomy documentation: " ++ d.docsUrl ++ "."

/-- The diagnostic of the event at an index, as a value in canonical form. -/
def toJson (eventIndex : Nat) (d : Diagnostic) : Json :=
  .object (
    [("context_name", .string d.contextName.text),
      ("docs_url", .string d.docsUrl),
      ("event_index", .nat eventIndex),
      ("event_type", .string d.eventType.text)] ++
    (match d.logPrefix with
      | some text => [("log_prefix", .string text)]
      | none => []) ++
    [("message", .string d.message),
      ("rule", .string d.rule.tag),
      ("text", .string d.text),
      ("violation", d.violation.toJson)])

end Diagnostic

end EventTaxonomy
