import EventTaxonomy.Rule.Verdict

/-!
# Rule sets

Rules that are checked together, in order. `RuleSet.openTaxonomy` is the set that comes with the
taxonomy.
-/

namespace EventTaxonomy

/-- Rules in the order in which they are checked. -/
structure RuleSet where
  rules : List Rule
  deriving Inhabited

namespace RuleSet

/-- The set without rules. -/
def empty : RuleSet := ⟨[]⟩

/-- Appends a rule. -/
def push (set : RuleSet) (r : Rule) : RuleSet := ⟨set.rules ++ [r]⟩

/-- The number of rules. -/
def size (set : RuleSet) : Nat := set.rules.length

/-- The rules of a platform, and those of all platforms. -/
def forPlatform (set : RuleSet) (platform : Platform) : RuleSet :=
  ⟨set.rules.filter fun r => r.platform = platform || r.platform = .core⟩

/-- The rules of a platform, if one is given. -/
def forPlatform? (set : RuleSet) : Option Platform → RuleSet
  | none => set
  | some platform => set.forPlatform platform

/-- The diagnostics of an event, rule by rule. -/
def validate (set : RuleSet) (e : Event) : List Diagnostic :=
  set.rules.flatMap fun r => r.validate e

/-- The rules of the open taxonomy: every event has an application context, global contexts are
unique, the location stack starts with its only root, and, except on `core`, every event has a
path. -/
def openTaxonomy (platform : Platform) (logPrefix : Option String) : RuleSet :=
  let text := logPrefix.getD ""
  let base : List Rule :=
    [(Rule.missing platform ⟨"ApplicationContext"⟩).withLogPrefix text,
      (Rule.unique platform).withLogPrefix text,
      ((Rule.location platform ⟨"RootLocationContext"⟩).onceAt 0).withLogPrefix text]
  let path : List Rule :=
    if platform = .core then []
    else [(Rule.missing platform ⟨"PathContext"⟩).withLogPrefix text]
  ⟨base ++ path⟩

end RuleSet

end EventTaxonomy
