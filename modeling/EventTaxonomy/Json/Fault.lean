import EventTaxonomy.Json.Decimal
import EventTaxonomy.Text.Quoted

/-!
# What can be wrong with a document

A text may fail to be JSON (`Malformed`), or be JSON of the wrong shape (`Mismatch`). A reader that
meets either, or has a reason of its own, stops with a `Fault`, which says how much of the text was
left unread; `ReadError` is the fault with its line and column, and `ReadError.message` its wording.
-/

namespace EventTaxonomy

namespace Json

/-- Ways in which a text fails to be JSON. -/
inductive Malformed where
  /-- The text ends where a value is due. -/
  | endOfValue
  /-- The text ends inside a list. -/
  | endOfList
  /-- The text ends inside an object. -/
  | endOfObject
  /-- The text ends inside a string. -/
  | endOfString
  /-- No value starts here. -/
  | expectedValue
  /-- A letter that does not belong to `true`, `false` or `null`. -/
  | expectedLiteral
  /-- A number with a digit missing, or with a zero in front. -/
  | invalidNumber
  /-- A number beyond the largest double. -/
  | numberOutOfRange
  /-- A key without its colon. -/
  | expectedColon
  /-- An item without a comma or a bracket after it. -/
  | expectedListEnd
  /-- A field without a comma or a brace after it. -/
  | expectedObjectEnd
  /-- A closing bracket right after a comma. -/
  | trailingComma
  /-- A key that is no string. -/
  | keyNotString
  /-- More text after the end of the document. -/
  | trailingCharacters
  /-- A control character inside a string. -/
  | controlCharacter
  /-- A backslash with the wrong characters after it. -/
  | invalidEscape
  /-- The first half of a surrogate pair without a second escape. -/
  | unfinishedPair
  /-- Half of a surrogate pair. -/
  | loneSurrogate
  /-- Brackets nested too deep. -/
  | tooDeep
  deriving DecidableEq, Repr

/-- What stands in a document where something else is wanted. -/
inductive Found where
  | null
  | bool (b : Bool)
  | number (n : Number)
  | string (s : String)
  | sequence
  | map

/-- What is wanted of a part of a document. -/
inductive Wanted where
  | string
  | boolean
  | size
  | sequence
  | unit
  /-- The name of one of several alternatives. -/
  | alternative
  /-- An alternative: its name, or a map from its name. -/
  | stringOrMap
  | singleKey
  /-- A record, by its description. -/
  | record (description : String)
  /-- A record written as a list. -/
  | positions (description : String) (count : Nat)
  /-- A list of a fixed length. -/
  | elements (count : Nat)
  deriving DecidableEq, Repr

/-- Ways in which a document has the wrong shape. -/
inductive Mismatch where
  | invalidType (found : Found) (wanted : Wanted)
  | invalidValue (found : Found) (wanted : Wanted)
  | invalidLength (length : Nat) (wanted : Wanted)
  | missingField (name : String)
  | duplicateField (name : String)
  | unknownField (name : String) (known : List String)
  | unknownVariant (name : String) (known : List String)

/-- The reason for which a reading stops. -/
inductive Cause where
  | malformed (m : Malformed)
  | mismatch (m : Mismatch)
  /-- A reason that has nothing to do with the document, in words. -/
  | custom (text : String)

/-- Where a reading stops: at a byte, counted from the end of the text; or still to be settled
by what surrounds the part that is being read, `rest` being the text after it. -/
inductive Place where
  | settled (left : Nat)
  | pending (rest : List Char)

/-- A reading that stops. -/
structure Fault where
  cause : Cause
  place : Place

/-! ### Wording -/

namespace Malformed

/-- The wording. -/
def message : Malformed → String
  | endOfValue => "EOF while parsing a value"
  | endOfList => "EOF while parsing a list"
  | endOfObject => "EOF while parsing an object"
  | endOfString => "EOF while parsing a string"
  | expectedValue => "expected value"
  | expectedLiteral => "expected ident"
  | invalidNumber => "invalid number"
  | numberOutOfRange => "number out of range"
  | expectedColon => "expected `:`"
  | expectedListEnd => "expected `,` or `]`"
  | expectedObjectEnd => "expected `,` or `\x7d`"
  | trailingComma => "trailing comma"
  | keyNotString => "key must be a string"
  | trailingCharacters => "trailing characters"
  | controlCharacter => "control character (\\u0000-\\u001F) found while parsing a string"
  | invalidEscape => "invalid escape"
  | unfinishedPair => "unexpected end of hex escape"
  | loneSurrogate => "lone leading surrogate in hex escape"
  | tooDeep => "recursion limit exceeded"

end Malformed

namespace Found

/-- The name of what was found. -/
def text : Found → String
  | null => "null"
  | bool true => "boolean `true`"
  | bool false => "boolean `false`"
  | number (.int n) => "integer `" ++ String.ofList (Number.intText n) ++ "`"
  | number (.float x) => "floating point `" ++ String.ofList (Number.floatText x) ++ "`"
  | string s => "string " ++ Text.quoted s
  | sequence => "sequence"
  | map => "map"

end Found

namespace Wanted

/-- The name of what is wanted. -/
def text : Wanted → String
  | string => "a string"
  | boolean => "a boolean"
  | size => "usize"
  | sequence => "a sequence"
  | unit => "unit"
  | alternative => "variant identifier"
  | stringOrMap => "string or map"
  | singleKey => "map with a single key"
  | record description => description
  | positions description count => s!"{description} with {count} elements"
  | elements count => s!"{count} elements in sequence"

end Wanted

/-- The names that would have been right. -/
def oneOf : List String → String
  | [] => "there are no names"
  | [a] => "expected `" ++ a ++ "`"
  | [a, b] => "expected `" ++ a ++ "` or `" ++ b ++ "`"
  | names => "expected one of " ++ ", ".intercalate (names.map fun name => "`" ++ name ++ "`")

namespace Mismatch

/-- The wording. -/
def message : Mismatch → String
  | invalidType found wanted => "invalid type: " ++ found.text ++ ", expected " ++ wanted.text
  | invalidValue found wanted => "invalid value: " ++ found.text ++ ", expected " ++ wanted.text
  | invalidLength length wanted => s!"invalid length {length}, expected " ++ wanted.text
  | missingField name => "missing field `" ++ name ++ "`"
  | duplicateField name => "duplicate field `" ++ name ++ "`"
  | unknownField name known => "unknown field `" ++ name ++ "`, " ++ oneOf known
  | unknownVariant name known => "unknown variant `" ++ name ++ "`, " ++ oneOf known

end Mismatch

namespace Cause

/-- The wording. -/
def message : Cause → String
  | malformed m => m.message
  | mismatch m => m.message
  | custom text => text

end Cause

/-! ### Places -/

/-- Bytes of the text. -/
def byteCount (s : List Char) : Nat := s.foldr (fun c n => c.utf8Size + n) 0

namespace Fault

/-- The text goes wrong at the first unread byte. -/
def here (m : Malformed) (s : List Char) : Fault := ⟨.malformed m, .settled (byteCount s)⟩

/-- The text goes wrong with the first unread byte, or ends. -/
def next (m : Malformed) (s : List Char) : Fault := ⟨.malformed m, .settled (byteCount s - 1)⟩

/-- The part that ends before `rest` has the wrong shape. -/
def mismatchAt (m : Mismatch) (rest : List Char) : Fault :=
  ⟨.mismatch m, .settled (byteCount rest)⟩

/-- A wrong shape whose place is left to what surrounds it. -/
def mismatchBefore (m : Mismatch) (rest : List Char) : Fault := ⟨.mismatch m, .pending rest⟩

/-- Settles the place of the fault: `stop` gives the text left once the surrounding part has
looked for its end. -/
def settle (stop : List Char → List Char) : Fault → Fault
  | ⟨cause, .pending rest⟩ => ⟨cause, .settled (byteCount (stop rest))⟩
  | f => f

end Fault

/-- A line, from one on, and a column in bytes. -/
structure Position where
  line : Nat
  column : Nat
  deriving DecidableEq, Repr

namespace Position

/-- The position after the first `offset` bytes. -/
def advance (p : Position) (offset : Nat) : List Char → Position
  | [] => p
  | c :: s =>
    if offset < c.utf8Size then ⟨p.line, p.column + offset⟩
    else if c = '\n' then advance ⟨p.line + 1, 0⟩ (offset - c.utf8Size) s
    else advance ⟨p.line, p.column + c.utf8Size⟩ (offset - c.utf8Size) s

/-- The position at which `left` bytes of the text are unread. -/
def before (text : List Char) (left : Nat) : Position :=
  advance ⟨1, 0⟩ (byteCount text - left) text

end Position

/-- A document that cannot be read. -/
structure ReadError where
  cause : Cause
  position : Option Position

namespace Fault

/-- The fault with its position in the text, if it has one. -/
def locate (text : List Char) (f : Fault) : ReadError :=
  match f.place with
  | .settled left => ⟨f.cause, some (Position.before text left)⟩
  | .pending _ => ⟨f.cause, none⟩

end Fault

namespace ReadError

/-- The wording, with the position at its end. -/
def message (e : ReadError) : String :=
  match e.position with
  | none => e.cause.message
  | some p => e.cause.message ++ s!" at line {p.line} column {p.column}"

end ReadError

end Json

end EventTaxonomy
