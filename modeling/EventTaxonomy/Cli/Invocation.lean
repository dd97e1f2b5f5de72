import EventTaxonomy.Cli.Arguments
import EventTaxonomy.Platform
import EventTaxonomy.Text.Word

/-!
# Command lines

The two commands, `validate` and `rules`, with their options, and the texts that help shows.
-/

namespace EventTaxonomy

namespace Cli

/-- Where rules come from, and which of them are used. -/
structure RuleSource where
  /-- The file with the rules; without it, those of the open taxonomy are used. -/
  path : Option String
  platform : Option Platform
  logPrefix : Option String
  deriving DecidableEq, Repr, Inhabited

/-- Settings of the command `validate`. -/
structure ValidateOptions where
  /-- The file with the events; without it, they come from standard input. -/
  events : Option String
  source : RuleSource
  json : Bool
  strict : Bool
  maxEvents : Option Nat
  logDiagnostics : Bool
  deriving DecidableEq, Repr, Inhabited

/-- A page of help. -/
inductive HelpPage where
  | overview
  | validate
  | rules
  | help
  deriving DecidableEq, Repr, Inhabited

/-- What a command line asks for. -/
inductive Invocation where
  | validate (options : ValidateOptions)
  | rules (source : RuleSource) (json : Bool)
  | help (page : HelpPage)
  /-- No arguments at all. -/
  | nothing
  | wrong (e : UsageError)
  deriving DecidableEq, Repr, Inhabited

/-! ### Values -/

/-- What is wrong with a number. -/
def wordProblem (text : String) : Option String :=
  match Text.readWord text.toList with
  | .ok _ => none
  | .error e => some e.message

/-- What is wrong with a platform. -/
def platformProblem (text : String) : Option String :=
  match Platform.ofTag text with
  | .ok _ => none
  | .error e => some e.message

/-- The option for the file with the rules. -/
def rulesOpt : Opt := .text "rules" "RULES"

/-- The option for the platform. -/
def platformOpt : Opt := ⟨"platform", some "PLATFORM", platformProblem⟩

/-- Options of the command `validate`. -/
def validateGrammar : Grammar where
  options :=
    [rulesOpt, platformOpt, .text "log-prefix" "LOG_PREFIX", .switch "json", .switch "strict",
      ⟨"max-events", some "MAX_EVENTS", wordProblem⟩, .switch "no-color",
      .switch "log-diagnostics"]
  positionals := 1

/-- Options of the command `rules`. -/
def rulesGrammar : Grammar where
  options := [rulesOpt, platformOpt, .switch "json"]
  positionals := 0

namespace Given

/-- The source of the rules. -/
def source (g : Given) : RuleSource where
  path := g.value? "rules"
  platform := (g.value? "platform").bind fun text => (Platform.ofTag text).toOption
  logPrefix := g.value? "log-prefix"

/-- The settings of the command `validate`. -/
def validateOptions (g : Given) : ValidateOptions where
  events := g.positionals.head?
  source := g.source
  json := g.isOn "json"
  strict := g.isOn "strict"
  maxEvents := (g.value? "max-events").bind fun text => (Text.readWord text.toList).toOption
  logDiagnostics := g.isOn "log-diagnostics"

end Given

/-! ### Commands -/

namespace Invocation

/-- The invocation of a command that takes arguments. -/
def ofParse (page : HelpPage) (f : Given → Invocation) : Except Stop Given → Invocation
  | .ok given => f given
  | .error .help => .help page
  | .error (.usage e) => .wrong e

/-- The invocation of a command by its name. -/
def ofCommand (name : String) (texts : List String) : Option Invocation :=
  if name = "validate" then
    some (ofParse .validate (fun g => .validate g.validateOptions) (validateGrammar.parse texts))
  else if name = "rules" then
    some (ofParse .rules (fun g => .rules g.source (g.isOn "json")) (rulesGrammar.parse texts))
  else none

/-- The invocation that asks for a page of help by the names of commands. -/
def ofHelp : List String → Invocation
  | [] => .help .overview
  | name :: names =>
    let page? : Option HelpPage :=
      if name = "validate" then some .validate
      else if name = "rules" then some .rules
      else if name = "help" then some .help
      else none
    match page?, names with
    | none, _ => .wrong (.unknownCommand name)
    | some page, [] => .help page
    | some _, extra :: _ => .wrong (.unknownCommand extra)

/-- The invocation of a list that starts with `--`. -/
def ofEscaped : List String → Invocation
  | [] => .nothing
  | name :: _ =>
    if name = "validate" || name = "rules" || name = "help" then .wrong (.unexpectedArgument name)
    else .wrong (.unknownCommand name)

/-- The invocation of a list of arguments. -/
def ofArguments : List String → Invocation
  | [] => .nothing
  | text :: texts =>
    match Argument.ofString text with
    | .escape => ofEscaped texts
    | .long name value =>
      if name = "help" then
        match value with
        | none => .help .overview
        | some value => .wrong (.unexpectedValue value "--help")
      else .wrong (.unexpectedArgument ("--" ++ name))
    | .short c =>
      if c = 'h' then .help .overview
      else .wrong (.unexpectedArgument (String.ofList ['-', c]))
    | .plain name =>
      if name = "help" then ofHelp texts
      else (ofCommand name texts).getD (.wrong (.unknownCommand name))

end Invocation

/-! ### Help -/

namespace HelpPage

/-- The first line of the overview. -/
def title : String := "Objectiv taxonomy validation CLI"

/-- The text of a page. -/
def text : HelpPage → String
  | overview =>
    title ++ "\n" ++
    "\n" ++
    "Usage: objectiv-validate <COMMAND>\n" ++
    "\n" ++
    "Commands:\n" ++
    "  validate  Validate events (JSON array, JSON lines, or concatenated JSON)\n" ++
    "  rules     Show the effective rule set\n" ++
    "  help      Print this message or the help of the given subcommand(s)\n" ++
    "\n" ++
    "Options:\n" ++
    "  -h, --help  Print help\n"
  | validate =>
    "Validate events (JSON array, JSON lines, or concatenated JSON)\n" ++
    "\n" ++
    "Usage: objectiv-validate validate [OPTIONS] [EVENTS]\n" ++
    "\n" ++
    "Arguments:\n" ++
    "  [EVENTS]  Events file (or stdin if not provided)\n" ++
    "\n" ++
    "Options:\n" ++
    "      --rules <RULES>            Rule set JSON file (default: open taxonomy preset)\n" ++
    "      --platform <PLATFORM>      Platform used for the preset and for filtering rules\n" ++
    "      --log-prefix <LOG_PREFIX>  Prefix for diagnostic headers\n" ++
    "      --json                     Output diagnostics as JSON lines\n" ++
    "      --strict                   Exit with error code if any event has diagnostics or " ++
      "fails to parse\n" ++
    "      --max-events <MAX_EVENTS>  Stop after reading N events (default: unlimited)\n" ++
    "      --no-color                 Disable coloured diagnostics\n" ++
    "      --log-diagnostics          Emit diagnostics as structured `tracing` warnings " ++
      "instead of console groups\n" ++
    "  -h, --help                     Print help\n"
  | rules =>
    "Show the effective rule set\n" ++
    "\n" ++
    "Usage: objectiv-validate rules [OPTIONS]\n" ++
    "\n" ++
    "Options:\n" ++
    "      --rules <RULES>        Rule set JSON file (default: open taxonomy preset)\n" ++
    "      --platform <PLATFORM>  Platform used for the preset and for filtering rules\n" ++
    "      --json                 Output as JSON\n" ++
    "  -h, --help                 Print help\n"
  | help =>
    "Print this message or the help of the given subcommand(s)\n" ++
    "\n" ++
    "Usage: objectiv-validate help [COMMAND]...\n" ++
    "\n" ++
    "Arguments:\n" ++
    "  [COMMAND]...  Print help for the subcommand(s)\n"

end HelpPage

end Cli

end EventTaxonomy
