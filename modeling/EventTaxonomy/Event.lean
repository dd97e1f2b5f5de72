import EventTaxonomy.Json.Printer
import EventTaxonomy.Json.Shape
import EventTaxonomy.Name

/-!
# Contexts and events

An `Event` is a snapshot of what a tracker saw: a type, global contexts in no particular order, the
location stack from the root down, and any other fields. A `Context` has a type and an id, which
together are its identity, and other fields that take no part in it.

`Context.shape` and `Event.shape` read them from documents; `Context.toJson` and `Event.toJson`
write them.
-/

namespace EventTaxonomy

open Json (Shape Layout Slot Mismatch)

/-- A context of an event. -/
structure Context where
  type : ContextName
  id : String
  /-- Other fields, in key order. -/
  fields : Fields
  deriving Inhabited

/-- A snapshot of an event. -/
structure Event where
  type : EventTypeName
  globalContexts : List Context
  /-- The contexts in which the event happened, the root first. -/
  locationStack : List Context
  /-- Other fields, in key order. -/
  fields : Fields
  deriving Inhabited

namespace Context

/-- A context without other fields. -/
def new (type : ContextName) (id : String) : Context := ⟨type, id, []⟩

/-- Sets a field. -/
def withField (c : Context) (key : String) (value : Json) : Context :=
  { c with fields := insertKey key value.canonical c.fields }

/-- The identity of the context. -/
def identity (c : Context) : ContextName × String := (c.type, c.id)

/-- Two contexts agree in type, id and all fields. -/
def equal (c d : Context) : Bool :=
  c.type == d.type && c.id == d.id && Json.equalFields c.fields d.fields

/-- The context as a document: its named fields, then the others. -/
def toJson (c : Context) : Json :=
  .object (("_type", .string c.type.text) :: ("id", .string c.id) :: c.fields)

/-- A context whose fields are being read. -/
structure Draft where
  type : Option ContextName
  id : Option String
  fields : Fields

/-- A context in a document: an object with a type and an id. -/
def layout : Layout Draft Context where
  description := "struct Context"
  slots :=
    [⟨"_type", fun d => d.type.isSome,
        fun d => Shape.string.map fun s => { d with type := some ⟨s⟩ }⟩,
      ⟨"id", fun d => d.id.isSome, fun d => Shape.string.map fun s => { d with id := some s }⟩]
  others := some fun d key =>
    Shape.json.map fun v => { d with fields := insertKey key v.canonical d.fields }
  empty := ⟨none, none, []⟩
  finish
    | ⟨none, _, _⟩ => .error (.missingField "_type")
    | ⟨some _, none, _⟩ => .error (.missingField "id")
    | ⟨some type, some id, fields⟩ => .ok ⟨type, id, fields⟩

/-- A context in a document. -/
def shape : Shape Context := .record layout

end Context

namespace Event

/-- An event without contexts. -/
def new (type : EventTypeName) : Event := ⟨type, [], [], []⟩

/-- Appends a global context. -/
def withGlobal (e : Event) (c : Context) : Event :=
  { e with globalContexts := e.globalContexts ++ [c] }

/-- Appends a context at the bottom of the location stack. -/
def withLocation (e : Event) (c : Context) : Event :=
  { e with locationStack := e.locationStack ++ [c] }

/-- The global contexts of a type. -/
def globalsOf (e : Event) (name : ContextName) : List Context :=
  e.globalContexts.filter fun c => c.type = name

/-- The contexts of a type in a stack that starts at index `start`, with their indices. -/
def indexed (name : ContextName) (start : Nat) : List Context → List (Nat × Context)
  | [] => []
  | c :: cs =>
    if c.type = name then (start, c) :: indexed name (start + 1) cs
    else indexed name (start + 1) cs

/-- The contexts of a type in the location stack, with their indices. -/
def locationsOf (e : Event) (name : ContextName) : List (Nat × Context) :=
  indexed name 0 e.locationStack

/-- The event as a document: its named fields, then the others. -/
def toJson (e : Event) : Json :=
  .object (("_type", .string e.type.text) ::
    ("global_contexts", .array (e.globalContexts.map Context.toJson)) ::
    ("location_stack", .array (e.locationStack.map Context.toJson)) :: e.fields)

/-- An event whose fields are being read. -/
structure Draft where
  type : Option EventTypeName
  globalContexts : Option (List Context)
  locationStack : Option (List Context)
  fields : Fields

/-- A list of contexts; `null` is an empty list. -/
def contextList : Shape (List Context) := (Shape.nullable (.list Context.shape)).map (·.getD [])

/-- An event in a document: an object with a type; a list of contexts that is missing is
empty. -/
def layout : Layout Draft Event where
  description := "struct Event"
  slots :=
    [⟨"_type", fun d => d.type.isSome,
        fun d => Shape.string.map fun s => { d with type := some ⟨s⟩ }⟩,
      ⟨"global_contexts", fun d => d.globalContexts.isSome,
        fun d => contextList.map fun cs => { d with globalContexts := some cs }⟩,
      ⟨"location_stack", fun d => d.locationStack.isSome,
        fun d => contextList.map fun cs => { d with locationStack := some cs }⟩]
  others := some fun d key =>
    Shape.json.map fun v => { d with fields := insertKey key v.canonical d.fields }
  empty := ⟨none, none, none, []⟩
  finish
    | ⟨none, _, _, _⟩ => .error (.missingField "_type")
    | ⟨some type, globals, locations, fields⟩ =>
      .ok ⟨type, globals.getD [], locations.getD [], fields⟩

/-- An event in a document. -/
def shape : Shape Event := .record layout

/-- The compact text of the event. -/
def compact (e : Event) : String := e.toJson.compact

end Event

end EventTaxonomy
