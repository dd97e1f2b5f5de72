import EventTaxonomy.RuleSet

/-!
# Rule documents

A rule set as a document: a platform and a prefix for all of its rules, and an entry for each rule.
An entry names its kind and may override platform and prefix. `RuleDocument.shape` reads a document,
`RuleDocument.toJson` writes it, and `RuleDocument.build` makes the rule set, which is when names
and settings are checked.
-/

namespace EventTaxonomy

open Json (Shape Layout Slot Mismatch ReadError)

/-- What an entry of a rule document asks for. -/
inductive EntryCheck where
  | missing (contextName : String)
  | unique
  | location (contextName : String) (once : Bool) (position : Option Nat)
  deriving DecidableEq, Repr, Inhabited

/-- An entry of a rule document. -/
structure RuleEntry where
  check : EntryCheck
  eventTypes : Option (List String)
  platform : Option Platform
  logPrefix : Option String
  deriving DecidableEq, Repr, Inhabited

/-- A rule document. -/
structure RuleDocument where
  platform : Platform
  logPrefix : Option String
  rules : List RuleEntry
  deriving DecidableEq, Repr, Inhabited

/-! ### Building -/

namespace RuleEntry

/-- The matcher of an entry. -/
def buildEvents : Option (List String) → Except BuildError EventMatcher
  | none => .ok .always
  | some types =>
    match types.mapM EventTypeName.parse with
    | .ok names => .ok (.oneOf names)
    | .error e => .error (.invalidName e)

/-- The rule of an entry before its matcher and prefix are set. -/
def buildCheck (platform : Platform) : EntryCheck → Except BuildError Rule
  | .missing contextName =>
    match ContextName.parse contextName with
    | .ok name => .ok (Rule.missing platform name)
    | .error e => .error (.invalidName e)
  | .unique => .ok (Rule.unique platform)
  | .location contextName once position =>
    match ContextName.parse contextName with
    | .ok name => (Rule.location platform name).withFlags once position
    | .error e => .error (.invalidName e)

/-- The rule of an entry; platform and prefix fall back to those given. -/
def build (entry : RuleEntry) (platform : Platform) (logPrefix : Option String) :
    Except BuildError Rule :=
  match buildEvents entry.eventTypes with
  | .error e => .error e
  | .ok events =>
    match buildCheck (entry.platform.getD platform) entry.check with
    | .error e => .error e
    | .ok rule =>
      .ok ((rule.withEvents events).withLogPrefix ((entry.logPrefix.or logPrefix).getD ""))

end RuleEntry

namespace RuleDocument

/-- The rule set of a document, or the error of its first entry that has one. -/
def build (doc : RuleDocument) : Except BuildError RuleSet :=
  (doc.rules.mapM fun (entry : RuleEntry) => entry.build doc.platform doc.logPrefix).map RuleSet.mk

/-- The document with a prefix for all rules, unless it has one. -/
def withFallbackPrefix (doc : RuleDocument) (logPrefix : Option String) : RuleDocument :=
  { doc with logPrefix := doc.logPrefix.or logPrefix }

end RuleDocument

/-! ### Writing -/

/-- A field that is left out if there is no value. -/
def optionalField {α : Type} (name : String) (f : α → Json) : Option α → Fields
  | none => []
  | some a => [(name, f a)]

/-- Strings as a value. -/
def stringArray (texts : List String) : Json := .array (texts.map Json.string)

namespace EntryCheck

/-- The kind of the rule. -/
def kind : EntryCheck → RuleKind
  | missing _ => .missingGlobalContext
  | unique => .uniqueGlobalContext
  | location _ _ _ => .locationContext

/-- The fields of the entry that belong to its kind. -/
def fields : EntryCheck → Fields
  | missing contextName => [("context_name", .string contextName)]
  | unique => []
  | location contextName once position =>
    ("context_name", .string contextName) :: ("once", .bool once) ::
      optionalField "position" Json.nat position

end EntryCheck

/-- An entry as a document. -/
def RuleEntry.toJson (entry : RuleEntry) : Json :=
  .object (("kind", .string entry.check.kind.tag) :: (entry.check.fields ++
    optionalField "event_types" stringArray entry.eventTypes ++
    optionalField "platform" Platform.toJson entry.platform ++
    optionalField "log_prefix" Json.string entry.logPrefix))

/-- A rule document as a document. -/
def RuleDocument.toJson (doc : RuleDocument) : Json :=
  .object (("platform", doc.platform.toJson) ::
    (optionalField "log_prefix" Json.string doc.logPrefix ++
      [("rules", .array (doc.rules.map RuleEntry.toJson))]))

/-! ### Reading -/

namespace RuleEntry

/-- An entry whose fields are being read. -/
structure Draft where
  contextName : Option String := none
  once : Option Bool := none
  position : Option (Option Nat) := none
  eventTypes : Option (Option (List String)) := none
  platform : Option (Option Platform) := none
  logPrefix : Option (Option String) := none

namespace Draft

/-- The field `context_name`. -/
def contextNameSlot : Slot Draft :=
  ⟨"context_name", fun d => d.contextName.isSome,
    fun d => Shape.string.map fun v => { d with contextName := some v }⟩

/-- The field `once`. -/
def onceSlot : Slot Draft :=
  ⟨"once", fun d => d.once.isSome, fun d => Shape.flag.map fun v => { d with once := some v }⟩

/-- The field `position`. -/
def positionSlot : Slot Draft :=
  ⟨"position", fun d => d.position.isSome,
    fun d => Shape.size.nullable.map fun v => { d with position := some v }⟩

/-- The field `event_types`. -/
def eventTypesSlot : Slot Draft :=
  ⟨"event_types", fun d => d.eventTypes.isSome,
    fun d => Shape.string.list.nullable.map fun v => { d with eventTypes := some v }⟩

/-- The field `platform`. -/
def platformSlot : Slot Draft :=
  ⟨"platform", fun d => d.platform.isSome,
    fun d => Platform.shape.nullable.map fun v => { d with platform := some v }⟩

/-- The field `log_prefix`. -/
def logPrefixSlot : Slot Draft :=
  ⟨"log_prefix", fun d => d.logPrefix.isSome,
    fun d => Shape.string.nullable.map fun v => { d with logPrefix := some v }⟩

/-- The entry, once what it asks for is known. -/
def entry (d : Draft) (check : EntryCheck) : RuleEntry :=
  ⟨check, d.eventTypes.join, d.platform.join, d.logPrefix.join⟩

end Draft

/-- The fields that an entry of a kind may have. -/
def slots : RuleKind → List (Slot Draft)
  | .missingGlobalContext =>
    [Draft.contextNameSlot, Draft.eventTypesSlot, Draft.platformSlot, Draft.logPrefixSlot]
  | .uniqueGlobalContext => [Draft.eventTypesSlot, Draft.platformSlot, Draft.logPrefixSlot]
  | .locationContext =>
    [Draft.contextNameSlot, Draft.onceSlot, Draft.positionSlot, Draft.eventTypesSlot,
      Draft.platformSlot, Draft.logPrefixSlot]

/-- The entry that the fields make together. -/
def finish (kind : RuleKind) (d : Draft) : Except Mismatch RuleEntry :=
  match kind, d.contextName with
  | .missingGlobalContext, some name => .ok (d.entry (.missing name))
  | .uniqueGlobalContext, _ => .ok (d.entry .unique)
  | .locationContext, some name =>
    .ok (d.entry (.location name (d.once.getD false) d.position.join))
  | _, none => .error (.missingField "context_name")

/-- The fields of an entry after its kind. -/
def layout (kind : RuleKind) : Layout Draft RuleEntry where
  description := "struct variant RuleConfig::" ++ kind.label
  slots := slots kind
  others := none
  empty := {}
  finish := finish kind

/-- The kinds by name. -/
def kinds : List (String × RuleKind) := RuleKind.all.map fun kind => (kind.tag, kind)

/-- An entry in a document. Its fields are looked at only when all of it is read. -/
def shape : Shape RuleEntry :=
  (Shape.tagged "internally tagged enum RuleConfig" "kind" (Shape.choice kinds)).andThen
    fun (kind, payload) => (Shape.positional (layout kind)).ofJson payload

end RuleEntry

namespace RuleDocument

/-- A document whose fields are being read. -/
structure Draft where
  platform : Option Platform := none
  logPrefix : Option (Option String) := none
  rules : Option (List RuleEntry) := none

/-- The fields of a document. -/
def layout : Layout Draft RuleDocument where
  description := "struct RuleSetConfig"
  slots :=
    [⟨"platform", fun d => d.platform.isSome,
        fun d => Platform.shape.map fun v => { d with platform := some v }⟩,
      ⟨"log_prefix", fun d => d.logPrefix.isSome,
        fun d => Shape.string.nullable.map fun v => { d with logPrefix := some v }⟩,
      ⟨"rules", fun d => d.rules.isSome,
        fun d => RuleEntry.shape.list.map fun v => { d with rules := some v }⟩]
  others := none
  empty := {}
  finish d := .ok ⟨d.platform.getD .core, d.logPrefix.join, d.rules.getD []⟩

/-- A rule document in a document. -/
def shape : Shape RuleDocument := .positional layout

/-- Reads a rule document. -/
def parse (text : String) : Except ReadError RuleDocument := shape.parse text

end RuleDocument

end EventTaxonomy
