import EventTaxonomy.Text.ControlSequence

/-!
# Arguments of a command

The options and arguments that follow the name of a command. An option is written `--name`, and its
value as the next argument or after an equals sign; `--` ends the options. The value of an option
that was written as the next argument is looked at only when the argument after it is, so that an
argument nobody knows is reported first.
-/

namespace EventTaxonomy

namespace Cli

/-- An option of a command. -/
structure Opt where
  name : String
  /-- The name of its value; an option without one is a switch. -/
  valueName : Option String
  /-- What is wrong with a value, if anything. -/
  problem : String → Option String

namespace Opt

/-- A switch. -/
def switch (name : String) : Opt := ⟨name, none, fun _ => none⟩

/-- An option with any text as its value. -/
def text (name valueName : String) : Opt := ⟨name, some valueName, fun _ => none⟩

/-- The option as messages show it. -/
def display (opt : Opt) : String :=
  match opt.valueName with
  | none => "--" ++ opt.name
  | some valueName => "--" ++ opt.name ++ " <" ++ valueName ++ ">"

end Opt

/-- What is wrong with a command line. -/
inductive UsageError where
  | unknownCommand (name : String)
  | unexpectedArgument (text : String)
  | unexpectedValue (value : String) (option : String)
  | repeatedOption (option : String)
  | missingValue (option : String)
  | invalidValue (value : String) (option : String) (problem : String)
  deriving DecidableEq, Repr

namespace UsageError

/-- A part of the command line that is wrong, in yellow. -/
def wrong (text : String) : String := Text.rendered "33" text

/-- A part of the command line as it is written, in bold. -/
def literal (text : String) : String := Text.rendered "1" text

/-- What is wrong, as a terminal shows it. -/
def styled : UsageError → String
  | unknownCommand name => "unrecognized subcommand '" ++ wrong name ++ "'"
  | unexpectedArgument text => "unexpected argument '" ++ wrong text ++ "' found"
  | unexpectedValue value option =>
    "unexpected value '" ++ wrong value ++ "' for '" ++ literal option ++
      "' found; no more were expected"
  | repeatedOption option =>
    "the argument '" ++ wrong option ++ "' cannot be used multiple times"
  | missingValue option =>
    "a value is required for '" ++ wrong option ++ "' but none was supplied"
  | invalidValue value option problem =>
    "invalid value '" ++ wrong value ++ "' for '" ++ literal option ++ "': " ++ problem

/-- The wording, for an output that is no terminal. What is quoted from the command line loses its
control sequences too. -/
def message (e : UsageError) : String :=
  Text.plain (Text.rendered "1;31" "error:" ++ " " ++ e.styled ++
    "\n\nFor more information, try '" ++ literal "--help" ++ "'.\n")

end UsageError

/-- Why a command line does not lead to a command. -/
inductive Stop where
  /-- Help is asked for. -/
  | help
  | usage (e : UsageError)
  deriving DecidableEq, Repr

/-- Options and arguments of a command. -/
structure Grammar where
  options : List Opt
  /-- How many arguments there may be beside the options. -/
  positionals : Nat

/-- What was given to a command. -/
structure Given where
  /-- Switches that are on. -/
  switches : List String
  /-- Values of options. -/
  values : List (String × String)
  /-- Arguments beside the options. -/
  positionals : List String

/-- An argument list that is being read. -/
structure Progress where
  given : Given
  /-- An option that is still to be settled, with its value if that is read. -/
  pending : Option (Opt × Option String)

namespace Given

/-- Nothing is given. -/
def nothing : Given := ⟨[], [], []⟩

/-- A value of an option. -/
def value? (g : Given) (name : String) : Option String := g.values.lookup name

/-- A switch is on. -/
def isOn (g : Given) (name : String) : Bool := g.switches.contains name

/-- Gives an option its value. -/
def addValue (g : Given) (opt : Opt) (value : String) : Except UsageError Given :=
  if (g.value? opt.name).isSome then .error (.repeatedOption opt.display)
  else
    match opt.problem value with
    | some problem => .error (.invalidValue value opt.display problem)
    | none => .ok { g with values := g.values ++ [(opt.name, value)] }

/-- Turns a switch on. -/
def addSwitch (g : Given) (opt : Opt) : Except UsageError Given :=
  if g.isOn opt.name then .error (.repeatedOption opt.display)
  else .ok { g with switches := g.switches ++ [opt.name] }

end Given

namespace Progress

/-- Settles the option that is still open. -/
def settle (p : Progress) : Except UsageError Given :=
  match p.pending with
  | none => .ok p.given
  | some (opt, none) => .error (.missingValue opt.display)
  | some (opt, some value) => p.given.addValue opt value

/-- An option waits for its value. -/
def awaits (p : Progress) : Option Opt :=
  match p.pending with
  | some (opt, none) => some opt
  | _ => none

end Progress

/-- Splits a text at its first equals sign. -/
def splitEquals : List Char → List Char × Option (List Char)
  | [] => ([], none)
  | c :: s =>
    if c = '=' then ([], some s)
    else
      let (name, value) := splitEquals s
      (c :: name, value)

/-- The kinds of arguments. -/
inductive Argument where
  /-- `--`. -/
  | escape
  /-- An option by its name, with a value after an equals sign. -/
  | long (name : String) (value : Option String)
  /-- Letters after one dash. -/
  | short (first : Char)
  /-- Anything else. -/
  | plain (text : String)
  deriving DecidableEq, Repr

/-- The kind of an argument. -/
def Argument.ofString (text : String) : Argument :=
  match text.toList with
  | ['-', '-'] => .escape
  | '-' :: '-' :: s =>
    let (name, value) := splitEquals s
    .long (String.ofList name) (value.map String.ofList)
  | '-' :: c :: _ => .short c
  | _ => .plain text

namespace Grammar

/-- Settles what is open, for a step that goes on. -/
def proceed (p : Progress) (next : Given → Except UsageError Given) : Except Stop Progress :=
  match p.settle with
  | .error e => .error (.usage e)
  | .ok given =>
    match next given with
    | .error e => .error (.usage e)
    | .ok given => .ok ⟨given, none⟩

/-- Settles what is open, and then shows help. -/
def askHelp (p : Progress) : Except Stop Progress :=
  match p.settle with
  | .error e => .error (.usage e)
  | .ok _ => .error .help

/-- Takes an option by its name. -/
def long (g : Grammar) (p : Progress) (name : String) (value : Option String) :
    Except Stop Progress :=
  if name = "help" then
    match value with
    | none => askHelp p
    | some value => .error (.usage (.unexpectedValue value "--help"))
  else
    match g.options.find? fun opt => opt.name = name with
    | none => .error (.usage (.unexpectedArgument ("--" ++ name)))
    | some opt =>
      match opt.valueName, value with
      | none, none => proceed p fun given => given.addSwitch opt
      | none, some value => .error (.usage (.unexpectedValue value opt.display))
      | some _, some value => proceed p fun given => given.addValue opt value
      | some _, none =>
        match p.settle with
        | .error e => .error (.usage e)
        | .ok given => .ok ⟨given, some (opt, none)⟩

/-- Takes an argument beside the options. -/
def positional (g : Grammar) (p : Progress) (text : String) : Except Stop Progress :=
  if p.given.positionals.length < g.positionals then
    proceed p fun given => .ok { given with positionals := given.positionals ++ [text] }
  else .error (.usage (.unexpectedArgument text))

/-- Takes an argument before `--`, which is `text`. -/
def step (g : Grammar) (p : Progress) (text : String) : Except Stop Progress :=
  match Argument.ofString text with
  | .long name value => g.long p name value
  | .short c =>
    if c = 'h' then askHelp p
    else .error (.usage (.unexpectedArgument (String.ofList ['-', c])))
  | _ =>
    match p.awaits with
    | some opt => .ok { p with pending := some (opt, some text) }
    | none => g.positional p text

/-- Takes the arguments after `--`. -/
def afterEscape (g : Grammar) (p : Progress) : List String → Except Stop Progress
  | [] => .ok p
  | text :: texts =>
    match g.positional p text with
    | .error e => .error e
    | .ok p => afterEscape g p texts

/-- Takes all arguments. -/
def run (g : Grammar) (p : Progress) : List String → Except Stop Progress
  | [] => .ok p
  | text :: texts =>
    if text = "--" then g.afterEscape p texts
    else
      match g.step p text with
      | .error e => .error e
      | .ok p => run g p texts

/-- What is given by a list of arguments. -/
def parse (g : Grammar) (texts : List String) : Except Stop Given :=
  match g.run ⟨.nothing, none⟩ texts with
  | .error e => .error e
  | .ok p =>
    match p.settle with
    | .error e => .error (.usage e)
    | .ok given => .ok given

end Grammar

end Cli

end EventTaxonomy
