import EventTaxonomy.Event
import EventTaxonomy.Text.Space

/-!
# Records

Events come as a text that holds records: the items of one array, or any number of values one
after the other. `Record.parseAll` splits such a text into at most so many records and looks at
nothing past the last of them; `Record.toEvent` makes an event of one.
-/

namespace EventTaxonomy

open Json (Reader Fault ReadError Mismatch)

/-- A record that is not an event. -/
structure RecordError where
  /-- The place among the records. -/
  index : Nat
  mismatch : Mismatch

namespace RecordError

/-- The wording. -/
def message (e : RecordError) : String :=
  s!"record {e.index} is not an event: " ++ e.mismatch.message

end RecordError

namespace Record

/-- The text is to be read as one array. -/
def isArrayText (text : List Char) : Bool :=
  match text.dropWhile Text.isSpace with
  | [] => false
  | c :: _ => c = '['

/-! ### The items of an array -/

/-- Where reading an array into a buffer has come to: the records in the buffer, which are kept also
if the reading fails, and the text after the array or the fault. -/
structure Buffered where
  records : Array Json
  outcome : Except Fault (List Char)

/-- The fault with which the rest of an array is given up. -/
def limitReached (s : List Char) : Fault := ⟨.custom "record limit reached", .pending s⟩

/-- Reads items of an array into a buffer, up to the closing bracket. Once there is no room for
another record, the rest is given up. -/
def fillItems (reader : Reader Json) (limit : Option Nat) (records : Array Json) (first : Bool)
    (s : List Char) : Buffered :=
  if limit.all (records.size < ·) then
    match _hn : Json.nextItem first s with
    | .error e => ⟨records, .error e⟩
    | .ok (.done r) => ⟨records, .ok r⟩
    | .ok (.item r) =>
      match _hr : reader.run r with
      | .error e => ⟨records, .error e⟩
      | .ok (v, t) => fillItems reader limit (records.push v) false t
  else ⟨records, .error (limitReached s)⟩
termination_by s.length
decreasing_by
  have := Json.length_nextItem_item _hn
  have := reader.shortens _hr
  omega

/-- Reads an array into an empty buffer. A fault without a place gets that of the end of the
array. -/
def fillArray (limit : Option Nat) (s : List Char) : Buffered :=
  match Json.skipBlanks s with
  | [] => ⟨#[], .error (.here .endOfValue [])⟩
  | c :: r =>
    if c = '[' then
      let filled := fillItems (Json.valueReader (Json.maxDepth - 1)) limit #[] true r
      ⟨filled.records, filled.outcome.mapError (Fault.settle Json.listEnd)⟩
    else ⟨#[], .error (Json.refusal (.record "an array of events") c r)⟩

/-- The records of a reading into a buffer. One that comes to the end of the array wants the text to
end there too. After one that fails, a full buffer is taken as the sign that the limit was reached,
whatever the fault. -/
def Buffered.finish (limit : Option Nat) (filled : Buffered) : Except Fault (List Json) :=
  match filled.outcome with
  | .ok t => (Json.expectEnd t).map fun _ => filled.records.toList
  | .error e =>
    if limit = some filled.records.size then .ok filled.records.toList else .error e

/-- Reads at most `limit` items of the array that makes up a text. -/
def takeArray (limit : Option Nat) (s : List Char) : Except Fault (List Json) :=
  (fillArray limit s).finish limit

/-! ### Values one after the other -/

/-- The character may follow a number or a literal. -/
def endsValue (c : Char) : Bool :=
  Json.isBlank c || c = '"' || c = '[' || c = ']' || c = '{' || c = '}' || c = ',' || c = ':'

/-- After a value that does not show its own end there has to be a character that shows it. -/
def checkBoundary (first : Char) (rest : List Char) : Except Fault Unit :=
  if first = '[' || first = '"' || first = '{' then .ok ()
  else
    match rest with
    | [] => .ok ()
    | c :: _ => if endsValue c then .ok () else .error (.next .trailingCharacters rest)

/-- Reads values until there are `limit` of them, or up to the end of the text. -/
def takeValues (reader : Reader Json) (limit : Option Nat) (s : List Char) :
    Except Fault (List Json) :=
  if limit = some 0 then .ok []
  else
    match _hs : Json.skipBlanks s with
    | [] => .ok []
    | c :: r =>
      match _hr : reader.run (c :: r) with
      | .error e => .error e
      | .ok (v, t) =>
        match checkBoundary c t with
        | .error e => .error e
        | .ok () => (takeValues reader (limit.map (· - 1)) t).map (v :: ·)
termination_by s.length
decreasing_by
  have h1 := Json.length_skipBlanks s
  have h2 := reader.shortens _hr
  simp only [_hs] at h1
  omega

/-! ### Texts -/

/-- The first `limit` records of a text, in canonical form. -/
def parseAll (text : String) (limit : Option Nat) : Except ReadError (List Json) :=
  let chars := text.toList
  let records :=
    if isArrayText chars then takeArray limit chars
    else takeValues (Json.valueReader Json.maxDepth) limit chars
  (records.mapError (Fault.locate chars)).map (·.map Json.canonical)

/-- The event of a record. -/
def toEvent (index : Nat) (record : Json) : Except RecordError Event :=
  (Event.shape.ofJson record).mapError (RecordError.mk index)

end Record

end EventTaxonomy
