import FixedLayout.CommandLine.Arguments
import FixedLayout.Config.Document
import FixedLayout.Export
import FixedLayout.Metadata.Document

/-! What the command answers to a request: texts for its two streams, an exit code, and a file to
write. -/

namespace FixedLayout.CommandLine

inductive FileFault where
  | notFound
  | denied
  | isDirectory
  | notDirectory
  | nameTooLong
  | notText
  | unknown (message : String)
deriving Repr, DecidableEq

def FileFault.message : FileFault → String
  | notFound => "No such file or directory (os error 2)"
  | denied => "Permission denied (os error 13)"
  | isDirectory => "Is a directory (os error 21)"
  | notDirectory => "Not a directory (os error 20)"
  | nameTooLong => "File name too long (os error 36)"
  | notText => "stream did not contain valid UTF-8"
  | unknown message => message

/-- The texts of files by their names. -/
abbrev Files := String → Except FileFault String

/-- The end of a run. -/
structure Report where
  code : Nat := 0
  out : String := ""
  err : String := ""
deriving Repr, DecidableEq

/-- What is left to do. -/
inductive Outcome where
  | done (report : Report)
  /-- A file to write, and the report for each way that this may end. -/
  | write (path text : String) (next : Except FileFault Unit → Report)

/-- A text with a line end after each line. -/
def lines (ls : List String) : String := String.join (ls.map (· ++ "\n"))

/-- A cause with its place in the chain, where it has one. All its lines stand below each other. -/
def indented (first other cause : String) : String :=
  first ++ ("\n" ++ other).intercalate ((Text.splitAt '\n' cause.toList).map String.ofList)

/-- The causes of a failure, numbered from `i` on. -/
def numbered (i : Nat) : List String → List String
  | [] => []
  | cause :: causes =>
    let number := toString i
    let margin := String.ofList (List.replicate (5 - number.length) ' ')
    indented (margin ++ number ++ ": ") "       " cause :: numbered (i + 1) causes

/-- A failure with its chain of causes, the outermost first. -/
def failure (out context : String) (causes : List String) : Report where
  code := 1
  out := out
  err := lines (("Error: " ++ context) ::
    match causes with
    | [] => []
    | [cause] => ["", "Caused by:", indented "    " "    " cause]
    | causes => "" :: "Caused by:" :: numbered 0 causes)

/-- Why there is no configuration. -/
inductive ConfigTrouble where
  | file (fault : FileFault)
  | document (fault : Config.DocumentFault)

def ConfigTrouble.causes : ConfigTrouble → List String
  | file fault => ["I/O error: " ++ fault.message, fault.message]
  | document .malformed => ["TOML parse error: malformed document", "malformed document"]
  | document (.invalid fault) => [fault.message]

def loadConfig (files : Files) (path : String) : Except ConfigTrouble Config :=
  match files path with
  | .error fault => .error (.file fault)
  | .ok text =>
    match Config.ofDocument text with
    | .error fault => .error (.document fault)
    | .ok config => .ok config

/-- The library in a file, or the causes of a failure. -/
def loadLibrary (files : Files) (path : String) : Except (List String) Library :=
  match files path with
  | .error fault => .error ["I/O error: " ++ fault.message, fault.message]
  | .ok text =>
    match Library.ofDocument text with
    | some library => .ok library
    | none => .error ["Metadata parse error: malformed document", "malformed document"]

def diagnosticLines (diagnostics : List Diagnostic) : List String :=
  diagnostics.map fun d => "  - " ++ d.message

def summary (e : Export) : String :=
  lines (["",
    "Export summary",
    "--------------",
    "Registered declarations: " ++ toString e.registered,
    "Emitted declarations:    " ++ toString e.emitted,
    "Copy-tainted:            " ++ toString e.taint.size,
    "Taint passes:            [" ++ ", ".intercalate (e.passes.map toString) ++ "]",
    "Diagnostics:             " ++ toString e.diagnostics.length]
    ++ diagnosticLines e.diagnostics)

/-- Writes to a file and reports success or a failure. -/
def writing (path text : String) (success : Report) : Outcome :=
  .write path text fun result =>
    match result with
    | .ok () => success
    | .error fault => failure "" ("Failed to write " ++ path) [fault.message]

def exportWith (files : Files) (config : Config) (metadata output : Option String) : Outcome :=
  match metadata with
  | none => .done (failure "" "--metadata is required when no subcommand is given" [])
  | some path =>
    match loadLibrary files path with
    | .error causes => .done (failure "" ("Failed to load metadata " ++ path) causes)
    | .ok library =>
      match Export.build library config with
      | .error e => .done (failure "" "Export failed" [e.message])
      | .ok e =>
        let text := e.text config
        match output with
        | some path => writing path text { err := "Wrote " ++ path ++ "\n" ++ summary e }
        | none => .done { out := text, err := summary e }

/-- The answer to a request for an export. A revision that is asked for wins over the configured
one. -/
def answerExport (files : Files) (config metadata output revision : Option String) : Outcome :=
  let override := fun c : Config => { c with revision := revision.or c.revision }
  match config with
  | none => exportWith files (override {}) metadata output
  | some path =>
    match loadConfig files path with
    | .error trouble => .done (failure "" ("Failed to load config " ++ path) trouble.causes)
    | .ok config => exportWith files (override config) metadata output

/-- The text of a configuration file with the defaults. -/
def defaultConfigText : String :=
  "# Struct layout export configuration\n# Generated by structgen-export gen-config\n\n"
    ++ ({} : Config).toDocument ++ "\n"

def configLines (config : Config) : List String :=
  ["Configuration valid!", "", "Namespaces: " ++ toString config.namespaces.length]
    ++ config.namespaces.map (fun rule =>
      "  " ++ rule.source ++ " -> crate::" ++ "::".intercalate rule.target ++ " "
        ++ if rule.exported then "" else "(external)")
    ++ ["Field exclusions: " ++ toString config.exclusions.length,
      "Derive suppressions: " ++ toString config.noDerive.length,
      "External types: " ++ toString config.externals.length]

def answerCheck (files : Files) (config : String) (metadata : Option String) : Report :=
  match loadConfig files config with
  | .error trouble =>
    { code := 1, err := lines ["Configuration invalid: " ++ trouble.causes.headD ""] }
  | .ok config =>
    let out := lines (configLines config)
    match metadata with
    | none => { out }
    | some path =>
      match loadLibrary files path with
      | .error causes => failure out ("Failed to load metadata " ++ path) causes
      | .ok library =>
        match Export.build library config with
        | .error e => failure out "Registry build failed" [e.message]
        | .ok e =>
          { out := out ++ lines (["",
              "Metadata: " ++ toString library.size ++ " types, " ++ toString e.registered
                ++ " declarations",
              "Diagnostics: " ++ toString e.diagnostics.length]
              ++ diagnosticLines e.diagnostics) }

/-- The files that the answer to a request may depend on. -/
def Request.inputs : Request → List String
  | .export config metadata _ _ => config.toList ++ metadata.toList
  | .check config metadata => config :: metadata.toList
  | .generate _ | .display _ | .misuse => []

def Request.answer (files : Files) : Request → Outcome
  | .export config metadata output revision =>
    answerExport files config metadata output revision
  | .generate output =>
    writing output defaultConfigText
      { out := "Generated configuration file: " ++ output ++ "\n" }
  | .check config metadata => .done (answerCheck files config metadata)
  | .display text => .done { out := text }
  | .misuse => .done { code := 2, err := "error: unexpected arguments\n" }

end FixedLayout.CommandLine
