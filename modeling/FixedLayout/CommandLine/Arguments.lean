import FixedLayout.Text.Affix

/-! The arguments of the command: options with values, before or after the name of a subcommand
that has options of its own. -/

namespace FixedLayout.CommandLine

inductive Request where
  /-- Write the declarations of a library. -/
  | export (config metadata output revision : Option String)
  /-- Write the default configuration. -/
  | generate (output : String)
  /-- Check a configuration, and a library against it. -/
  | check (config : String) (metadata : Option String)
  /-- Show a text and do nothing else. -/
  | display (text : String)
  /-- The arguments make no sense. -/
  | misuse
deriving Repr, DecidableEq

/-- An option with one value. -/
structure OptionSpec where
  long : String
  short : Option Char := none
  /-- The value names a file and cannot be empty. -/
  isPath : Bool := true
deriving Repr, DecidableEq

def configOption : OptionSpec := { long := "config", short := some 'c' }

def metadataOption : OptionSpec := { long := "metadata", short := some 'm' }

def outputOption : OptionSpec := { long := "output", short := some 'o' }

def revisionOption : OptionSpec := { long := "revision", isPath := false }

def logOption : OptionSpec := { long := "log-level", isPath := false }

def versionText : String := "structgen-export 0.1.0\n"

def mainHelp : String :=
  "Generate fixed-layout Rust declarations from type metadata\n\n"
    ++ "Usage: structgen-export [OPTIONS] [COMMAND]\n\n"
    ++ "Commands:\n"
    ++ "  gen-config  Generate the default configuration file\n"
    ++ "  validate    Validate a configuration file\n"
    ++ "  help        Print this message or the help of the given subcommand(s)\n\n"
    ++ "Options:\n"
    ++ "  -c, --config <CONFIG>        Configuration file path\n"
    ++ "  -m, --metadata <METADATA>    Metadata JSON file\n"
    ++ "  -o, --output <OUTPUT>        Output file (stdout when omitted)\n"
    ++ "      --revision <REVISION>    Revision recorded in the output header "
    ++ "(overrides the config)\n"
    ++ "      --log-level <LOG_LEVEL>  Log level (trace, debug, info, warn, error) "
    ++ "[default: info]\n"
    ++ "  -h, --help                   Print help\n"
    ++ "  -V, --version                Print version\n"

def generateHelp : String :=
  "Generate the default configuration file\n\n"
    ++ "Usage: structgen-export gen-config [OPTIONS]\n\n"
    ++ "Options:\n"
    ++ "  -o, --output <OUTPUT>  Output file path [default: structgen.toml]\n"
    ++ "  -h, --help             Print help\n"

def checkHelp : String :=
  "Validate a configuration file\n\n"
    ++ "Usage: structgen-export validate [OPTIONS] --config <CONFIG>\n\n"
    ++ "Options:\n"
    ++ "  -c, --config <CONFIG>      Configuration file path\n"
    ++ "  -m, --metadata <METADATA>  Also build the registry from this metadata file\n"
    ++ "  -h, --help                 Print help\n"

def helpHelp : String :=
  "Print this message or the help of the given subcommand(s)\n\n"
    ++ "Usage: structgen-export help [COMMAND]...\n\n"
    ++ "Arguments:\n"
    ++ "  [COMMAND]...  Print help for the subcommand(s)\n"

/-- What a command understands. -/
structure Grammar where
  options : List OptionSpec
  help : String
  /-- The answer to a question for the version, where there is one. -/
  version : Option String := none
  subcommands : List String := []

def mainGrammar : Grammar where
  options := [configOption, metadataOption, outputOption, revisionOption, logOption]
  help := mainHelp
  version := some versionText
  subcommands := ["gen-config", "validate", "help"]

def generateGrammar : Grammar where
  options := [outputOption]
  help := generateHelp

def checkGrammar : Grammar where
  options := [configOption, metadataOption]
  help := checkHelp

abbrev Values := List (String × String)

/-- What a run over the arguments of one command ends with. -/
inductive Scan where
  | values (found : Values)
  /-- The name of a subcommand with its arguments, and whether the values before it are valid. -/
  | subcommand (valid : Bool) (name : String) (rest : List String)
  | stop (request : Request)

/-- The values with one more, unless the option has one already or cannot have this one. -/
def addValue? (found : Values) (option : OptionSpec) (value : String) : Option Values :=
  if (found.lookup option.long).isSome || (option.isPath && value.isEmpty) then none
  else some (found ++ [(option.long, value)])

/-- An option that takes its value from the next argument, and that value when it is there. -/
structure Awaited where
  option : OptionSpec
  value : Option String := none
deriving Repr, DecidableEq

/-- The values with that of an option that awaited one. -/
def settle? (found : Values) : Option Awaited → Option Values
  | none => some found
  | some ⟨_, none⟩ => none
  | some ⟨option, some value⟩ => addValue? found option value

inductive Cluster where
  | help
  | version
  /-- An option with its value attached. -/
  | value (option : OptionSpec) (value : String)
  /-- An option whose value is the next argument. -/
  | pending (option : OptionSpec)
  | unknown

/-- The short options of an argument, up to the first that decides it. -/
def readCluster (g : Grammar) : List Char → Cluster
  | [] => .unknown
  | c :: cs =>
    if c == 'h' then .help
    else if c == 'V' && g.version.isSome then .version
    else match g.options.find? (·.short == some c) with
      | none => .unknown
      | some option =>
        match cs with
        | [] => .pending option
        | '=' :: value => .value option (String.ofList value)
        | value => .value option (String.ofList value)

def readLong (g : Grammar) (cs : List Char) : Cluster :=
  let name := String.ofList (cs.takeWhile (· != '='))
  match cs.dropWhile (· != '=') with
  | [] =>
    if name = "help" then .help
    else if name = "version" ∧ g.version.isSome then .version
    else match g.options.find? (·.long == name) with
      | some option => .pending option
      | none => .unknown
  | _ :: value =>
    match g.options.find? (·.long == name) with
    | some option => .value option (String.ofList value)
    | none => .unknown

/-- The argument can be the value of the option before it. -/
def isPlain (arg : String) : Bool :=
  match arg.toList with
  | '-' :: _ :: _ => false
  | _ => true

/-- Runs over the arguments of a command. A value that is an argument of its own is checked only
when another option or the end follows, so the name of a subcommand may come first. -/
def scan (g : Grammar) (found : Values) (last : Option Awaited) : List String → Scan
  | [] =>
    match settle? found last with
    | some found => .values found
    | none => .stop .misuse
  | arg :: args =>
    match last with
    | some ⟨option, none⟩ =>
      if isPlain arg then scan g found (some ⟨option, some arg⟩) args else .stop .misuse
    | last =>
      let settled := settle? found last
      if g.subcommands.contains arg then .subcommand settled.isSome arg args
      else match settled with
        | none => .stop .misuse
        | some found =>
          if arg = "--" then if args.isEmpty then .values found else .stop .misuse
          else
            let cluster := match arg.toList with
              | '-' :: '-' :: cs => readLong g cs
              | '-' :: cs => readCluster g cs
              | _ => .unknown
            match cluster with
            | .help => .stop (.display g.help)
            | .version => .stop (.display (g.version.getD ""))
            | .value option value =>
              match addValue? found option value with
              | some found => scan g found none args
              | none => .stop .misuse
            | .pending option => scan g found (some ⟨option, none⟩) args
            | .unknown => .stop .misuse

def helpRequest : List String → Request
  | [] => .display mainHelp
  | ["gen-config"] => .display generateHelp
  | ["validate"] => .display checkHelp
  | ["help"] => .display helpHelp
  | _ => .misuse

def subcommandRequest (name : String) (args : List String) : Request :=
  if name = "help" then helpRequest args
  else if name = "gen-config" then
    match scan generateGrammar [] none args with
    | .values found => .generate ((found.lookup "output").getD "structgen.toml")
    | .stop request => request
    | .subcommand .. => .misuse
  else
    match scan checkGrammar [] none args with
    | .values found =>
      match found.lookup "config" with
      | some config => .check config (found.lookup "metadata")
      | none => .misuse
    | .stop request => request
    | .subcommand .. => .misuse

/-- The request that the arguments make. A subcommand may show its help before the values in front
of it are found to be invalid. -/
def Request.ofArguments (args : List String) : Request :=
  match scan mainGrammar [] none args with
  | .values found =>
    .export (found.lookup "config") (found.lookup "metadata") (found.lookup "output")
      (found.lookup "revision")
  | .subcommand valid name rest =>
    match subcommandRequest name rest with
    | .display text => .display text
    | request => if valid then request else .misuse
  | .stop request => request

end FixedLayout.CommandLine
