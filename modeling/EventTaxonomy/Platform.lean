import EventTaxonomy.Json.Shape

/-!
# Tracker platforms

The platforms that a tracker runs on. Rules carry a platform as a tag; `core` stands for all of
them.
-/

namespace EventTaxonomy

open Json (Shape)

/-- The platform of a tracker. -/
inductive Platform where
  | core
  | browser
  | react
  | reactNative
  | angular
  deriving DecidableEq, Repr, Inhabited

/-- A text that is not the tag of a platform. -/
structure PlatformError where
  value : String
  deriving DecidableEq, Repr

namespace PlatformError

/-- The wording. -/
def message (e : PlatformError) : String := "unknown tracker platform '" ++ e.value ++ "'"

end PlatformError

namespace Platform

/-- All platforms, in order. -/
def all : List Platform := [core, browser, react, reactNative, angular]

/-- The tag of the platform. -/
def tag : Platform → String
  | core => "core"
  | browser => "browser"
  | react => "react"
  | reactNative => "react-native"
  | angular => "angular"

/-- The platforms by tag. -/
def tags : List (String × Platform) := all.map fun p => (p.tag, p)

/-- The platform with a tag. -/
def ofTag (text : String) : Except PlatformError Platform :=
  match lookup text tags with
  | some p => .ok p
  | none => .error ⟨text⟩

/-- A platform in a document. -/
def shape : Shape Platform := .variant tags

/-- The platform as a value. -/
def toJson (p : Platform) : Json := .string p.tag

/-- The place in the list of all platforms. -/
def index : Platform → Nat
  | core => 0
  | browser => 1
  | react => 2
  | reactNative => 3
  | angular => 4

end Platform

end EventTaxonomy
