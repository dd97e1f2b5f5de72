import EventTaxonomy.Report.Console
import EventTaxonomy.RuleSet
import EventTaxonomy.Text.Alphanumeric
import EventTaxonomy.Text.Space
import EventTaxonomy.Text.Word

/-!
# Log lines

A `LogRecord` is written on one line: level, target, message and fields. A `LogFilter` keeps the
records that are wanted, by level and by target. The records that the library itself writes are
`LogRecord.diagnostic`, `LogRecord.group`, `LogRecord.validated`, `LogRecord.preset` and
`LogRecord.loaded`.
-/

namespace EventTaxonomy

/-- The level of a log record. -/
inductive LogLevel where
  | error
  | warn
  | info
  | debug
  | trace
  deriving DecidableEq, Repr, Inhabited

namespace LogLevel

/-- The level as a number; a more detailed level has a larger one. -/
def rank : LogLevel → Nat
  | error => 1
  | warn => 2
  | info => 3
  | debug => 4
  | trace => 5

/-- The level on a line, in five columns. -/
def label : LogLevel → String
  | error => "ERROR"
  | warn => " WARN"
  | info => " INFO"
  | debug => "DEBUG"
  | trace => "TRACE"

end LogLevel

/-- A record of the log. -/
structure LogRecord where
  level : LogLevel
  target : String
  message : String
  /-- Names and texts of the fields. -/
  fields : List (String × String)
  deriving DecidableEq, Repr, Inhabited

namespace LogRecord

/-- A character of a message; controls that a terminal would act on are spelled out. -/
def messageChar (c : Char) : List Char :=
  let n := c.toNat
  if n = 0x1b || n = 0x07 || n = 0x08 || n = 0x0c || n = 0x7f then
    ['\\', 'x', Nat.digitChar (n / 16), Nat.digitChar (n % 16)]
  else if 0x80 ≤ n && n ≤ 0x9f then '\\' :: 'u' :: '{' :: (Nat.toDigits 16 n ++ ['}'])
  else [c]

/-- The line of a record. -/
def line (r : LogRecord) : String :=
  r.level.label ++ " " ++ r.target ++ ": " ++
    String.ofList (r.message.toList.flatMap messageChar) ++
    String.join (r.fields.map fun (name, text) => " " ++ name ++ "=" ++ text) ++ "\n"

/-! ### Records -/

/-- A message that is handed on as a group. -/
def group (message : String) (style : Style) : LogRecord :=
  ⟨.warn, "objectiv_validation::reporter", message, [("style", Text.quoted style.css)]⟩

/-- A diagnostic. -/
def diagnostic (d : Diagnostic) : LogRecord :=
  ⟨.warn, "objectiv_validation::reporter", d.header,
    [("rule", d.rule.label), ("context", d.contextName.text), ("event_type", d.eventType.text),
      ("docs", d.docsUrl)]⟩

/-- An event that was validated. -/
def validated (set : RuleSet) (e : Event) : LogRecord :=
  ⟨.debug, "objectiv_validation::ruleset", "validated event",
    [("event_type", e.type.text), ("rules", toString set.size),
      ("diagnostics", toString (set.validate e).length)]⟩

/-- The rules of the open taxonomy are used. -/
def preset (platform : Platform) : LogRecord :=
  ⟨.debug, "objectiv_validate::commands", "using open taxonomy preset",
    [("platform", platform.tag)]⟩

/-- Rules were loaded from a file. -/
def loaded (path : String) (set : RuleSet) : LogRecord :=
  ⟨.debug, "objectiv_validate::commands", "loaded rule set",
    [("path", Text.quoted path), ("rules", toString set.size)]⟩

/-- The records of an event that is validated and reported to the log. -/
def reported (set : RuleSet) (e : Event) : List LogRecord :=
  validated set e :: (set.validate e).map diagnostic

end LogRecord

/-! ### Filters -/

/-- A part of a filter: the most detailed level that is kept of the records that it is about; none
of them without a level. It is about records whose target starts with a text, and which have a
field, if it names one. -/
structure LogDirective where
  target : String
  field : Option String
  /-- It is about records in a span only. No record is in one. -/
  inSpan : Bool
  level : Option LogLevel
  deriving DecidableEq, Repr, Inhabited

/-- A filter of log records. -/
structure LogFilter where
  directives : List LogDirective
  deriving DecidableEq, Repr, Inhabited

namespace LogDirective

/-- A directive about all records. -/
def ofLevel (level : Option LogLevel) : LogDirective := ⟨"", none, false, level⟩

/-- A level by its name or number; the outer option is for a text that is no level. -/
def level? (s : List Char) : Option (Option LogLevel) :=
  match Text.readWord s with
  | .ok 0 => some none
  | .ok 1 => some (some .error)
  | .ok 2 => some (some .warn)
  | .ok 3 => some (some .info)
  | .ok 4 => some (some .debug)
  | .ok 5 => some (some .trace)
  | _ =>
    match String.ofList (s.map Char.toLower) with
    | "off" => some none
    | "error" => some (some .error)
    | "warn" => some (some .warn)
    | "info" => some (some .info)
    | "debug" => some (some .debug)
    | "trace" => some (some .trace)
    | _ => none

/-- The level in a directive from an index on; everything is kept if nothing is written. -/
def levelFrom (whole : List Char) (start : Nat) : Option (Option LogLevel) :=
  match whole.drop start with
  | [] => some (some .trace)
  | s => level? s

/-- The text of a directive from one index to another. -/
def cut (whole : List Char) (start stop : Nat) : String :=
  String.ofList ((whole.drop start).take (stop - start))

/-- Ends a directive, of which `s` is left at the index `i`, with its level. -/
def takeLevel (whole : List Char) (target : String) (field : Option String) (inSpan : Bool)
    (i : Nat) : List Char → Option LogDirective
  | [] => some ⟨target, field, inSpan, some .trace⟩
  | '=' :: _ => (levelFrom whole (i + 1)).map fun level => ⟨target, field, inSpan, level⟩
  | _ => none

/-- Takes what stands in brackets, after the opening one: the name of a span, and a field in braces.
A field that is to have a value is one of a span. -/
def takeScope (whole : List Char) (target : String) (i : Nat) (s : List Char) :
    Option LogDirective :=
  let name := s.takeWhile fun c => c ≠ ']' && c ≠ '{'
  let j := i + name.length
  match s.dropWhile fun c => c ≠ ']' && c ≠ '{' with
  | ']' :: r => takeLevel whole target none true (j + 1) r
  | '{' :: r =>
    let field := r.takeWhile fun c => c ≠ '}'
    let k := j + 1 + field.length
    match r.dropWhile fun c => c ≠ '}' with
    | '}' :: ']' :: t =>
      if field.isEmpty then none
      else
        let text := cut whole (j + 1) k
        takeLevel whole target (some text) (!name.isEmpty || text.toList.contains '=') (k + 2) t
    | _ => none
  | _ => none

/-- The character may start a directive. -/
def isStart (c : Char) : Bool := c = '-' || c = ':' || c = '_' || Text.isAlphanumeric c

/-- The text without white space at both ends. -/
def trim (s : List Char) : List Char :=
  ((s.dropWhile Text.isSpace).reverse.dropWhile Text.isSpace).reverse

/-- A directive: a level for all targets, or a target, what stands in brackets, and a level, where
each may be missing. The parts are told apart in the text without the white space around it, and
cut from the text with it; so white space is never right before a part that matters. -/
def parse (whole : List Char) : Option LogDirective :=
  match trim whole with
  | [] => none
  | '[' :: s => takeScope whole "" 1 s
  | c :: s =>
    if isStart c then
      let target := (c :: s).takeWhile fun c => c ≠ '=' && c ≠ '['
      let i := target.length
      match (c :: s).dropWhile fun c => c ≠ '=' && c ≠ '[' with
      | '[' :: r => takeScope whole (cut whole 0 i) (i + 1) r
      | [] =>
        match level? whole with
        | some level => some (ofLevel level)
        | none => some ⟨String.ofList whole, none, false, some .trace⟩
      | r => takeLevel whole (cut whole 0 i) none false i r
    else none

/-- The directive is about the record. -/
def fits (d : LogDirective) (r : LogRecord) : Bool :=
  !d.inSpan && d.target.toList.isPrefixOf r.target.toList &&
    match d.field with
    | none => true
    | some name => name = "message" || (r.fields.map Prod.fst).contains name

/-- Of two directives about one record the second decides: its target is longer, or equally long
and its field comes later; a directive that names a field comes after one that does not. -/
def yields (a b : LogDirective) : Bool :=
  if a.target.length = b.target.length then
    match a.field, b.field with
    | none, _ => true
    | some _, none => false
    | some f, some g => decide (f ≤ g)
  else a.target.length < b.target.length

end LogDirective

namespace LogFilter

/-- The filter that keeps a level for all targets. -/
def atLevel (level : LogLevel) : LogFilter := ⟨[.ofLevel (some level)]⟩

/-- Splits a text at commas. -/
def splitCommas : List Char → List (List Char)
  | [] => [[]]
  | c :: s =>
    if c = ',' then [] :: splitCommas s
    else
      match splitCommas s with
      | [] => [[c]]
      | part :: parts => (c :: part) :: parts

/-- The filter that a text describes: directives between commas. A text with none of them keeps
errors, and a text with a wrong one warnings. -/
def parse (text : String) : LogFilter :=
  match (splitCommas text.toList).filter fun part => !part.isEmpty with
  | [] => atLevel .error
  | parts =>
    match parts.mapM LogDirective.parse with
    | some directives => ⟨directives⟩
    | none => atLevel .warn

/-- The filter of a setting that may be missing. -/
def ofSetting : Option String → LogFilter
  | none => atLevel .warn
  | some text => parse text

/-- The directive that decides about a record: the first one unless a later one of those that fit
is stronger. -/
def decisive (best : Option LogDirective) (d : LogDirective) : Option LogDirective :=
  match best with
  | none => some d
  | some b => if b.yields d then some d else some b

/-- The filter keeps the record. -/
def keeps (filter : LogFilter) (r : LogRecord) : Bool :=
  match (filter.directives.filter fun d => d.fits r).foldl decisive none with
  | none => false
  | some d =>
    match d.level with
    | none => false
    | some level => r.level.rank ≤ level.rank

/-- The lines of the records that are kept. -/
def lines (filter : LogFilter) (records : List LogRecord) : String :=
  String.join ((records.filter filter.keeps).map LogRecord.line)

end LogFilter

end EventTaxonomy
