import EventTaxonomy.Rule.Diagnostic

/-!
# Console output and transcripts

Messages are handed on as groups with a style. The console shows the header line of a group in the
colour of its style (`Console.render`); a `Transcript` keeps all groups for later.
-/

namespace EventTaxonomy

/-- The style of a message. -/
inductive Style where
  | error
  deriving DecidableEq, Repr, Inhabited

namespace Style

/-- The style for consoles that take style sheets. -/
def css : Style → String
  | error => "color:red"

/-- The style for terminals. -/
def ansi : Style → String
  | error => "\x1b[31m"

end Style

namespace Console

/-- Splits a message at its first line break. -/
def splitHeader : List Char → List Char × Option (List Char)
  | [] => ([], none)
  | c :: s =>
    if c = '\n' then ([], some s)
    else
      let (header, rest) := splitHeader s
      (c :: header, rest)

/-- A message as the console shows it: with colour, the header line stands in the colour of the
style. -/
def render (color : Bool) (style : Style) (message : String) : String :=
  if color then
    match splitHeader message.toList with
    | (header, some rest) =>
      style.ansi ++ String.ofList header ++ "\x1b[0m\n" ++ String.ofList rest ++ "\n"
    | (header, none) => style.ansi ++ String.ofList header ++ "\x1b[0m\n"
  else message ++ "\n"

end Console

/-- Messages that were handed on, in order. -/
structure Transcript where
  calls : List (String × Style)
  deriving DecidableEq, Repr, Inhabited

namespace Transcript

/-- The transcript without messages. -/
def empty : Transcript := ⟨[]⟩

/-- Adds a message. -/
def group (t : Transcript) (message : String) (style : Style) : Transcript :=
  ⟨t.calls ++ [(message, style)]⟩

/-- Adds the text of a diagnostic. -/
def report (t : Transcript) (d : Diagnostic) : Transcript := t.group d.text .error

/-- Adds the texts of diagnostics, one after the other. -/
def reportAll (t : Transcript) (ds : List Diagnostic) : Transcript := ds.foldl report t

/-- The messages. -/
def messages (t : Transcript) : List String := t.calls.map Prod.fst

/-- The number of messages. -/
def size (t : Transcript) : Nat := t.calls.length

end Transcript

end EventTaxonomy
