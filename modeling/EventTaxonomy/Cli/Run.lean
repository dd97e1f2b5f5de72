import EventTaxonomy.Cli.Files
import EventTaxonomy.Cli.Invocation
import EventTaxonomy.Record
import EventTaxonomy.Report.Log
import EventTaxonomy.Report.Table
import EventTaxonomy.RuleDocument

/-!
# Running a command

A command as a function: from an invocation, and what it can read, to an exit code and the texts on
both outputs. `validateRecords` is the heart of it: the reports of all records. The outputs are
views of these reports: `RecordReport.jsonLines` for programs, `RecordReport.row` for the summary.
-/

namespace EventTaxonomy

open Json (ReadError)

namespace Cli

/-- What a command can read. -/
structure Environment where
  /-- The text of a file. -/
  read : String → Except ReadFailure String
  stdin : Except ReadFailure String
  /-- The setting of the log filter. -/
  logSetting : Option String

/-- What a command leaves behind. -/
structure Outcome where
  code : Nat
  stdout : String
  stderr : String
  deriving DecidableEq, Repr, Inhabited

/-- Why a command fails. -/
inductive CommandError where
  /-- The file with the rules cannot be read. -/
  | unreadableRules (path : String) (e : ReadFailure)
  /-- The file with the rules is no rule document. -/
  | malformedRules (path : String) (e : ReadError)
  /-- The rules cannot be built. -/
  | invalidRules (path : String) (e : BuildError)
  /-- The events cannot be read. -/
  | unreadableEvents (name : String) (e : ReadFailure)
  /-- The events are no records. -/
  | malformedEvents (e : ReadError)

namespace CommandError

/-- The wording. -/
def message : CommandError → String
  | unreadableRules path e => "Failed to load rules from " ++ path ++ ": I/O error: " ++ e.message
  | malformedRules path e =>
    "Failed to load rules from " ++ path ++ ": JSON parse error: " ++ e.message
  | invalidRules path e => "Invalid rules in " ++ path ++ ": " ++ e.message
  | unreadableEvents name e => "failed to read " ++ name ++ ": " ++ e.message
  | malformedEvents e => "invalid JSON: " ++ e.message

end CommandError

/-! ### Rules -/

/-- The rules of a document: `platform` selects some of them, and `logPrefix` is for rules of
documents that have none. -/
def rulesOfDocument (doc : RuleDocument) (platform : Option Platform) (logPrefix : Option String) :
    Except BuildError RuleSet :=
  ((doc.withFallbackPrefix logPrefix).build).map fun set => set.forPlatform? platform

/-- The rule document at a path. -/
def readDocument (env : Environment) (path : String) : Except CommandError RuleDocument :=
  match env.read path with
  | .error e => .error (.unreadableRules path e)
  | .ok text =>
    match RuleDocument.parse text with
    | .error e => .error (.malformedRules path e)
    | .ok doc => .ok doc

/-- The rules of a source. -/
def loadRules (env : Environment) (source : RuleSource) : Except CommandError RuleSet :=
  match source.path with
  | none => .ok (.openTaxonomy (source.platform.getD .core) source.logPrefix)
  | some path =>
    match readDocument env path with
    | .error e => .error e
    | .ok doc =>
      match rulesOfDocument doc source.platform source.logPrefix with
      | .error e => .error (.invalidRules path e)
      | .ok set => .ok set

/-- The log records of loading rules. -/
def loadRecords (env : Environment) (source : RuleSource) : List LogRecord :=
  match source.path with
  | none => [.preset (source.platform.getD .core)]
  | some path =>
    match loadRules env { source with platform := none } with
    | .error _ => []
    | .ok set => [.loaded path set]

/-! ### Records -/

/-- What is found out about a record. -/
structure RecordReport where
  index : Nat
  result : Except RecordError (Event × List Diagnostic)

/-- The report of a record. -/
def reportRecord (set : RuleSet) (index : Nat) (record : Json) : RecordReport :=
  ⟨index, (Record.toEvent index record).map fun e => (e, set.validate e)⟩

/-- The reports of records, the first of which is at index `start`. -/
def reportRecords (set : RuleSet) (start : Nat) : List Json → List RecordReport
  | [] => []
  | record :: records => reportRecord set start record :: reportRecords set (start + 1) records

namespace RecordReport

/-- The record is an event without diagnostics. -/
def isClean (r : RecordReport) : Bool :=
  match r.result with
  | .ok (_, ds) => ds.isEmpty
  | .error _ => false

/-- The report as values: each diagnostic, or the error. -/
def values (r : RecordReport) : List Json :=
  match r.result with
  | .ok (_, ds) => ds.map (Diagnostic.toJson r.index)
  | .error e => [.object [("error", .string e.message), ("event_index", .nat r.index)]]

/-- The report as lines of values. -/
def jsonLines (r : RecordReport) : List String := r.values.map fun v => v.compact ++ "\n"

/-- The report as a row of the summary. -/
def row (r : RecordReport) : Table.Row :=
  match r.result with
  | .ok (e, ds) => ⟨r.index, some (e.type, ds.length)⟩
  | .error _ => ⟨r.index, none⟩

/-- The report as text for a reader. -/
def messages (filter : LogFilter) (logDiagnostics : Bool) (r : RecordReport) : String :=
  match r.result with
  | .error e => "Error: " ++ e.message ++ "\n"
  | .ok (_, ds) =>
    if logDiagnostics then filter.lines (ds.map LogRecord.diagnostic)
    else String.join (ds.map fun d => Console.render false .error d.text)

end RecordReport

/-! ### Commands -/

/-- The text of the events. -/
def readEvents (env : Environment) : Option String → Except CommandError String
  | some path =>
    match env.read path with
    | .ok text => .ok text
    | .error e => .error (.unreadableEvents path e)
  | none =>
    match env.stdin with
    | .ok text => .ok text
    | .error e => .error (.unreadableEvents "stdin" e)

/-- The reports of the records that `validate` is asked to look at. -/
def validateRecords (env : Environment) (options : ValidateOptions) :
    Except CommandError (RuleSet × List RecordReport) :=
  match loadRules env options.source with
  | .error e => .error e
  | .ok set =>
    match readEvents env options.events with
    | .error e => .error e
    | .ok text =>
      match Record.parseAll text options.maxEvents with
      | .error e => .error (.malformedEvents e)
      | .ok records => .ok (set, reportRecords set 0 records)

/-- The log line of validating a record, if it is an event. -/
def validatedLine (filter : LogFilter) (set : RuleSet) (r : RecordReport) : String :=
  match r.result with
  | .ok (e, _) => filter.lines [.validated set e]
  | .error _ => ""

/-- A command that fails. -/
def failure (log : String) (e : CommandError) : Outcome :=
  ⟨1, "", log ++ "Error: " ++ e.message ++ "\n"⟩

/-- The command `validate`. -/
def validate (env : Environment) (options : ValidateOptions) : Outcome :=
  let filter := LogFilter.ofSetting env.logSetting
  let log := filter.lines (loadRecords env options.source)
  match validateRecords env options with
  | .error e => failure log e
  | .ok (set, reports) =>
    let shown (r : RecordReport) : String :=
      validatedLine filter set r ++
        (if options.json then "" else r.messages filter options.logDiagnostics)
    { code := if options.strict && !reports.all RecordReport.isClean then 1 else 0
      stdout :=
        if options.json then String.join (reports.flatMap RecordReport.jsonLines)
        else Table.summary (reports.map RecordReport.row)
      stderr := log ++ String.join (reports.map shown) }

/-- The command `rules`. -/
def rules (env : Environment) (source : RuleSource) (json : Bool) : Outcome :=
  let filter := LogFilter.ofSetting env.logSetting
  let log := filter.lines (loadRecords env source)
  match loadRules env source with
  | .error e => failure log e
  | .ok set =>
    { code := 0
      stdout :=
        if json then (Json.array (set.rules.map Rule.toJson)).pretty ++ "\n" else Table.rules set
      stderr := log }

/-- The characters up to the first line break, which may be written with a carriage return. -/
def lineChars : List Char → List Char
  | [] => []
  | '\n' :: _ => []
  | '\r' :: '\n' :: _ => []
  | c :: s => c :: lineChars s

/-- The first line of a text. -/
def firstLine (text : String) : String := String.ofList (lineChars text.toList)

/-- Runs what a command line asks for. A command line that is wrong is answered in one line. -/
def Invocation.run (env : Environment) : Invocation → Outcome
  | .validate options => Cli.validate env options
  | .rules source json => Cli.rules env source json
  | .help page => ⟨0, page.text, ""⟩
  | .nothing => ⟨2, "", HelpPage.title⟩
  | .wrong e => ⟨2, "", firstLine e.message⟩

/-- Runs a command line. -/
def run (env : Environment) (arguments : List String) : Outcome :=
  (Invocation.ofArguments arguments).run env

end Cli

end EventTaxonomy
