import EventTaxonomy.Json.Decimal

/-!
# JSON text

`Json.compact` writes a document on one line without blanks; `Json.pretty` indents by two spaces
a level. Both write the fields of an object in the order in which it has them.
-/

namespace EventTaxonomy

namespace Json

/-- A character between quotes. -/
def charText (c : Char) : List Char :=
  if c = '"' then ['\\', '"']
  else if c = '\\' then ['\\', '\\']
  else if c = '\n' then ['\\', 'n']
  else if c = '\r' then ['\\', 'r']
  else if c = '\t' then ['\\', 't']
  else if c = '\x08' then ['\\', 'b']
  else if c = '\x0c' then ['\\', 'f']
  else if c.toNat < 0x20 then
    ['\\', 'u', '0', '0', Nat.digitChar (c.toNat / 16), Nat.digitChar (c.toNat % 16)]
  else [c]

/-- A string in quotes. -/
def stringText (s : String) : List Char := '"' :: (s.toList.flatMap charText ++ ['"'])

mutual

/-- The characters of the compact text. -/
def chars : Json → List Char
  | .null => ['n', 'u', 'l', 'l']
  | .bool true => ['t', 'r', 'u', 'e']
  | .bool false => ['f', 'a', 'l', 's', 'e']
  | .number n => n.text
  | .string s => stringText s
  | .array [] => ['[', ']']
  | .array (item :: items) => '[' :: (chars item ++ itemChars items)
  | .object [] => ['{', '}']
  | .object ((key, value) :: fields) =>
    '{' :: (stringText key ++ ':' :: (chars value ++ fieldChars fields))

/-- The items after the first and the closing bracket. -/
def itemChars : List Json → List Char
  | [] => [']']
  | item :: items => ',' :: (chars item ++ itemChars items)

/-- The fields after the first and the closing brace. -/
def fieldChars : Fields → List Char
  | [] => ['}']
  | (key, value) :: fields => ',' :: (stringText key ++ ':' :: (chars value ++ fieldChars fields))

end

/-- The document on one line. -/
def compact (v : Json) : String := String.ofList v.chars

/-- The start of a line at a level of nesting. -/
def newline (level : Nat) : List Char := '\n' :: List.replicate (2 * level) ' '

mutual

/-- The characters of the indented text, the first line of which is already indented. -/
def prettyChars (level : Nat) : Json → List Char
  | .array [] => ['[', ']']
  | .array (item :: items) =>
    '[' :: (newline (level + 1) ++ prettyChars (level + 1) item ++ prettyItems level items)
  | .object [] => ['{', '}']
  | .object ((key, value) :: fields) =>
    '{' :: (newline (level + 1) ++ stringText key ++ ':' :: ' ' :: prettyChars (level + 1) value ++
      prettyFields level fields)
  | .null => chars .null
  | .bool b => chars (.bool b)
  | .number n => n.text
  | .string s => stringText s

/-- The items after the first and the closing bracket. -/
def prettyItems (level : Nat) : List Json → List Char
  | [] => newline level ++ [']']
  | item :: items =>
    ',' :: (newline (level + 1) ++ prettyChars (level + 1) item ++ prettyItems level items)

/-- The fields after the first and the closing brace. -/
def prettyFields (level : Nat) : Fields → List Char
  | [] => newline level ++ ['}']
  | (key, value) :: fields =>
    ',' :: (newline (level + 1) ++ stringText key ++ ':' :: ' ' ::
      prettyChars (level + 1) value ++ prettyFields level fields)

end

/-- The document over several lines. -/
def pretty (v : Json) : String := String.ofList (v.prettyChars 0)

end Json

end EventTaxonomy
