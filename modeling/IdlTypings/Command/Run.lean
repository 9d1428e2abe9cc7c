import IdlTypings.Command.FileTree
import IdlTypings.Idl.Load
import IdlTypings.Report
import IdlTypings.Settings.Settings
import IdlTypings.Ts.Printer
import IdlTypings.Warnings

/-!
# Running a command

A run reads the configuration and then all inputs before it writes anything. What is not supported
never makes a run fail.
-/

namespace IdlTypings.Command

open Idl (LoadError Root)
open Settings (Config ConfigError)

inductive RunError where
  | configFile (path : String) (error : FileError)
  | config (path : String) (error : ConfigError)
  | inputFile (path : String) (error : FileError)
  | input (path : String) (error : LoadError)
  | stdinText
  | stdin (error : LoadError)
  | output (path : String) (error : FileError)
  | report (base : String) (error : FileError)
  deriving Inhabited

/-- What failed, followed by its causes. -/
def RunError.chain : RunError → List String
  | .configFile path error => ["failed to read " ++ path ++ ": " ++ error.message, error.message]
  | .config path error =>
      ["invalid configuration in " ++ path ++ ": " ++ error.message, error.message]
  | .inputFile path error =>
      ["failed to load " ++ path, "failed to read " ++ path ++ ": " ++ error.message,
        error.message]
  | .input path error => ["failed to load " ++ path, error.message] ++ error.cause?.toList
  | .stdinText => ["failed to read stdin", FileError.notText.message]
  | .stdin error => ["invalid definitions on stdin", error.message] ++ error.cause?.toList
  | .output path error => ["failed to write " ++ path, error.message]
  | .report base error => ["failed to write report for " ++ base, error.message]

def causeText (cause : String) : String :=
  "  caused by: " ++ cause ++ "\n"

def RunError.text (error : RunError) : String :=
  match error.chain with
  | [] => ""
  | failure :: causes => "error: " ++ failure ++ "\n" ++ String.join (causes.map causeText)

def defaultConfigFile : String := "webidl2ts.toml"

/-- The name that a report goes by if the output has none. -/
def defaultReportBase : String := "webidl2ts"

def loadConfigFile (t : FileTree) (path : String) : Except RunError Config :=
  match t.readText path with
  | .error error => .error (.configFile path error)
  | .ok text =>
      match Config.parse text with
      | .ok config => .ok config
      | .error error => .error (.config path error)

/-- A configuration file that is not named need not exist. -/
def loadConfig (t : FileTree) : Option String → Except RunError Config
  | some path => loadConfigFile t path
  | none =>
      if t.has defaultConfigFile then loadConfigFile t defaultConfigFile
      else .ok .default

/-- Whether an input is the standard input. -/
def isStdin (path : String) : Bool :=
  match Route.pieces path with
  | first :: rest => first = "-" && rest.all fun piece => piece = "" || piece = "."
  | [] => false

def loadStdin (content : ByteArray) : Except RunError (List Root) :=
  match String.fromUTF8? content with
  | none => .error .stdinText
  | some text =>
      match Idl.loadText text with
      | .ok roots => .ok roots
      | .error error => .error (.stdin error)

def loadFile (t : FileTree) (path : String) : Except RunError (List Root) :=
  match t.readText path with
  | .error error => .error (.inputFile path error)
  | .ok text =>
      match Idl.loadText text with
      | .ok roots => .ok roots
      | .error error => .error (.input path error)

/-- The definitions of all inputs in order. The standard input can be read once and is empty after
that. -/
def loadInputs (t : FileTree) : ByteArray → List String → Except RunError (List Root)
  | _, [] => .ok []
  | stdin, path :: rest =>
      if isStdin path then do
        let roots ← loadStdin stdin
        let others ← loadInputs t .empty rest
        return roots ++ others
      else do
        let roots ← loadFile t path
        let others ← loadInputs t stdin rest
        return roots ++ others

/-- What a run shows and leaves behind. -/
structure Outcome where
  exit : Nat
  stdout : String
  stderr : String
  files : FileTree
  deriving Inhabited

/-- The text of the declaration file. -/
def outputText (settings : Settings) (converted : Converted) : String :=
  Ts.print settings.print
    (match settings.mode with
      | .ambient => converted.declarations
      | .runtime => Binder.wrapModule settings.moduleName converted.declarations)

/-- The text goes to a file if one is named. -/
def writeOutput (t : FileTree) (text : String) : Option String → Except RunError FileTree
  | none => .ok t
  | some path => (t.writeText path text).mapError (.output path)

def writeReport (t : FileTree) (base : String) (converted : Converted) :
    Except RunError FileTree :=
  (t.writeText (Report.path base) (Report.render converted)).mapError (.report base)

/-- Writes what was converted. What is written before a failure stays. -/
def deliver (t : FileTree) (arguments : Arguments) (settings : Settings)
    (converted : Converted) : Outcome :=
  let text := outputText settings converted
  let warnings := Warnings.render Warnings.plain arguments.debug converted.diagnostics
  let stdout := if arguments.out.isSome then "" else text
  match writeOutput t text arguments.out with
  | .error error => ⟨1, stdout, warnings ++ error.text, t⟩
  | .ok t =>
      if settings.report then
        match writeReport t (arguments.out.getD defaultReportBase) converted with
        | .error error => ⟨1, stdout, warnings ++ error.text, t⟩
        | .ok t => ⟨0, stdout, warnings, t⟩
      else ⟨0, stdout, warnings, t⟩

/-- Everything that is read, before anything is written. -/
def prepare (t : FileTree) (stdin : ByteArray) (arguments : Arguments) :
    Except RunError (Settings × List Root) := do
  let config ← loadConfig t arguments.config
  let roots ← loadInputs t stdin arguments.inputs
  return (.resolve arguments config, roots)

def runArguments (t : FileTree) (stdin : ByteArray) (arguments : Arguments) : Outcome :=
  match prepare t stdin arguments with
  | .error error => ⟨1, "", error.text, t⟩
  | .ok (settings, roots) => deliver t arguments settings (convert settings.mode roots)

def run (t : FileTree) (stdin : ByteArray) (arguments : List String) : Outcome :=
  match Request.parse arguments with
  | .run arguments => runArguments t stdin arguments
  | .version => ⟨0, versionText, "", t⟩
  | .help => ⟨0, helpText, "", t⟩
  | .misuse => ⟨2, "", usageText, t⟩

end IdlTypings.Command
