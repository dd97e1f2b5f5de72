/-!
# Control sequences

Text for a terminal holds control sequences, which change how it looks and start with the escape
character. `plain` is the text for an output that is no terminal: control sequences are taken out,
and so are control characters other than white space.

What a sequence consists of depends on its first characters; `Mode` is what is being read, and
`Mode.next` how a character changes that. White space is shown even inside most sequences. It
interrupts them: the text after it is shown too, up to the next character that is not, with which
the sequence goes on.
-/

namespace EventTaxonomy

namespace Text

/-- What is being read. -/
inductive Mode where
  /-- Text that is shown. -/
  | text
  /-- The character after the escape character. -/
  | escape
  /-- An escape sequence of several characters. -/
  | escapeIntermediate
  /-- A control sequence, by its parts. -/
  | controlEntry
  | controlParameters
  | controlIntermediate
  | controlIgnored
  /-- A device control string, by its parts. -/
  | deviceEntry
  | deviceParameters
  | deviceIntermediate
  | deviceIgnored
  | deviceData
  /-- A string for an application. -/
  | application
  /-- A command to the operating system. -/
  | command
  deriving DecidableEq, Repr, Inhabited

namespace Mode

/-- What is read after a character of ASCII that is no control. -/
def afterPrintable (mode : Mode) (n : Nat) : Mode :=
  match mode with
  | text => text
  | escape =>
    if n < 0x30 then escapeIntermediate
    else if n = 0x5b then controlEntry
    else if n = 0x5d then command
    else if n = 0x50 then deviceEntry
    else if n = 0x58 || n = 0x5e || n = 0x5f then application
    else text
  | escapeIntermediate => if n < 0x30 then escapeIntermediate else text
  | controlEntry =>
    if n < 0x30 then controlIntermediate else if n < 0x40 then controlParameters else text
  | controlParameters =>
    if n < 0x30 then controlIntermediate
    else if n < 0x3c then controlParameters
    else if n < 0x40 then controlIgnored
    else text
  | controlIntermediate =>
    if n < 0x30 then controlIntermediate else if n < 0x40 then controlIgnored else text
  | controlIgnored => if n < 0x40 then controlIgnored else text
  | deviceEntry =>
    if n < 0x30 then deviceIntermediate else if n < 0x40 then deviceParameters else deviceData
  | deviceParameters =>
    if n < 0x30 then deviceIntermediate
    else if n < 0x3c then deviceParameters
    else if n < 0x40 then deviceIgnored
    else deviceData
  | deviceIntermediate =>
    if n < 0x30 then deviceIntermediate else if n < 0x40 then deviceIgnored else deviceData
  | mode => mode

/-- Strings end with the byte `0x9c`, also where it is part of a longer character. -/
def afterWide (mode : Mode) (c : Char) : Mode :=
  match mode with
  | deviceIgnored | deviceData | application =>
    if (String.utf8EncodeChar c).contains 0x9c then text else mode
  | mode => mode

/-- What is read after a character. -/
def next (mode : Mode) (c : Char) : Mode :=
  let n := c.toNat
  if n = 0x1b then escape
  else if n = 0x18 || n = 0x1a then text
  else if n = 0x07 && mode = command then text
  else if n < 0x20 || n = 0x7f then mode
  else if n < 0x80 then mode.afterPrintable n
  else mode.afterWide c

/-- White space is shown although a sequence is being read. -/
def showsSpace : Mode → Bool
  | text | escape | escapeIntermediate => true
  | controlEntry | controlParameters | controlIntermediate | controlIgnored => true
  | _ => false

/-- The character is shown. -/
def shows (mode : Mode) (c : Char) : Bool :=
  if c = '\t' || c = '\n' || c = '\x0c' || c = '\r' then mode.showsSpace
  else mode = text && 0x20 ≤ c.toNat && c.toNat ≠ 0x7f

end Mode

/-- The characters of a text that are shown; `running` if the one before it was. -/
def plainFrom (mode : Mode) (running : Bool) : List Char → List Char
  | [] => []
  | c :: s =>
    if (if running then Mode.text else mode).shows c then
      c :: plainFrom (if c.toNat < 0x80 then mode else .text) true s
    else plainFrom (mode.next c) false s

/-- The text without control sequences. -/
def plain (s : String) : String := String.ofList (plainFrom .text false s.toList)

/-- A text between the sequences that turn a rendition on and off. -/
def rendered (rendition s : String) : String := "\x1b[" ++ rendition ++ "m" ++ s ++ "\x1b[0m"

end Text

end EventTaxonomy
