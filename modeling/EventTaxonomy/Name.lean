/-!
# Names of contexts and events

Contexts and events are told apart by name. A well-formed name starts with a capital letter, goes
on with letters and digits, and ends in the word of its family: `PathContext`, `PressEvent`.
Letters and digits are those of ASCII.

A document may carry any text as a name; `ContextName.parse` and `EventTypeName.parse` are the way
to a name that is known to be well formed.
-/

namespace EventTaxonomy

/-- The name of a type of contexts. -/
structure ContextName where
  text : String
  deriving DecidableEq, Repr, Inhabited

/-- The name of a type of events. -/
structure EventTypeName where
  text : String
  deriving DecidableEq, Repr, Inhabited

/-- The two families of names. -/
inductive NameFamily where
  | context
  | event
  deriving DecidableEq, Repr

namespace NameFamily

/-- The word in which the names of a family end. -/
def ending : NameFamily → String
  | context => "Context"
  | event => "Event"

/-- The family as messages call it. -/
def label : NameFamily → String
  | context => "ContextName"
  | event => "EventTypeName"

end NameFamily

/-- A text that is not a name of the family. -/
structure NameError where
  family : NameFamily
  value : String
  deriving DecidableEq, Repr

namespace NameError

/-- The wording. -/
def message (e : NameError) : String := e.family.label ++ " ('" ++ e.value ++ "') is not allowed"

end NameError

/-- A capital letter of ASCII. -/
def isCapital (c : Char) : Bool := 'A' ≤ c && c ≤ 'Z'

/-- A letter or digit of ASCII. -/
def isNameChar (c : Char) : Bool := isCapital c || ('a' ≤ c && c ≤ 'z') || ('0' ≤ c && c ≤ '9')

namespace NameFamily

/-- The text is a well-formed name of the family. -/
def accepts (family : NameFamily) (text : String) : Bool :=
  match text.toList with
  | [] => false
  | c :: rest => isCapital c && rest.all isNameChar && family.ending.toList.isSuffixOf rest

/-- The text, if it is a well-formed name of the family. -/
def parse (family : NameFamily) (text : String) : Except NameError String :=
  if family.accepts text then .ok text else .error ⟨family, text⟩

end NameFamily

/-- A well-formed context name. -/
def ContextName.parse (text : String) : Except NameError ContextName :=
  (NameFamily.context.parse text).map ContextName.mk

/-- A well-formed event name. -/
def EventTypeName.parse (text : String) : Except NameError EventTypeName :=
  (NameFamily.event.parse text).map EventTypeName.mk

/-! ### Order -/

/-- Puts a name into a list in ascending order, unless it is there. -/
def ContextName.insertSorted (name : ContextName) : List ContextName → List ContextName
  | [] => [name]
  | n :: names =>
    if name.text < n.text then name :: n :: names
    else if name = n then n :: names
    else n :: name.insertSorted names

/-- The names in ascending order, each once. -/
def ContextName.sorted (names : List ContextName) : List ContextName :=
  names.foldl (fun sorted name => name.insertSorted sorted) []

/-! ### The names of the open taxonomy -/

namespace ContextName

/-- Names of the global contexts. -/
def globals : List ContextName :=
  ["ApplicationContext", "CookieIdContext", "HttpContext", "IdentityContext", "InputValueContext",
    "LocaleContext", "MarketingContext", "PathContext", "SessionContext"].map ContextName.mk

/-- Names of the location contexts. -/
def locations : List ContextName :=
  ["ContentContext", "ExpandableContext", "InputContext", "LinkContext", "MediaPlayerContext",
    "NavigationContext", "OverlayContext", "PressableContext", "RootLocationContext"].map
    ContextName.mk

end ContextName

end EventTaxonomy
