/-!
# Command lines

Arguments are read from left to right. Flags and options may be given once; the first argument that
is wrong, or asks for the version or for help, decides.
-/

namespace IdlTypings.Command

structure Arguments where
  inputs : List String
  out : Option String
  moduleName : Option String
  config : Option String
  emscripten : Bool
  report : Bool
  noHeader : Bool
  debug : Bool
  deriving DecidableEq, Repr, Inhabited

def Arguments.empty : Arguments := ⟨[], none, none, none, false, false, false, false⟩

inductive Request where
  | run (arguments : Arguments)
  | version
  | help
  | misuse
  deriving DecidableEq, Repr, Inhabited

inductive Flag where
  | emscripten
  | report
  | noHeader
  | debug
  deriving DecidableEq, Repr

/-- Options take a value. -/
inductive OptionName where
  | out
  | moduleName
  | config
  deriving DecidableEq, Repr

inductive Switch where
  | flag (flag : Flag)
  | option (name : OptionName)
  | version
  | help
  deriving DecidableEq, Repr

def longSwitches : List (String × Switch) :=
  [("out", .option .out), ("emscripten", .flag .emscripten), ("module", .option .moduleName),
    ("config", .option .config), ("report", .flag .report), ("no-header", .flag .noHeader),
    ("debug", .flag .debug), ("help", .help), ("version", .version)]

def shortSwitches : List (Char × Switch) :=
  [('o', .option .out), ('e', .flag .emscripten), ('m', .option .moduleName),
    ('c', .option .config), ('d', .flag .debug), ('h', .help), ('V', .version)]

def once (given : Bool) (next : Arguments) : Option Arguments :=
  if given then none else some next

def Arguments.raise (a : Arguments) : Flag → Option Arguments
  | .emscripten => once a.emscripten { a with emscripten := true }
  | .report => once a.report { a with report := true }
  | .noHeader => once a.noHeader { a with noHeader := true }
  | .debug => once a.debug { a with debug := true }

/-- A file name may not be empty, the name of a module may. -/
def Arguments.assign (a : Arguments) (value : String) : OptionName → Option Arguments
  | .out => once (a.out.isSome || value.isEmpty) { a with out := some value }
  | .moduleName => once a.moduleName.isSome { a with moduleName := some value }
  | .config => once (a.config.isSome || value.isEmpty) { a with config := some value }

def Arguments.addInput (a : Arguments) (value : String) : Option Arguments :=
  once value.isEmpty { a with inputs := a.inputs ++ [value] }

def addInputs (a : Arguments) : List String → Option Arguments
  | [] => some a
  | value :: rest => do
      addInputs (← a.addInput value) rest

/-- What comes of one argument. -/
inductive Step where
  | done (request : Request)
  | next (arguments : Arguments)
  /-- The next argument is the value of an option. -/
  | wait (arguments : Arguments) (name : OptionName)

def Step.ofOption : Option Arguments → Step
  | some a => .next a
  | none => .done .misuse

/-- The letters after a single dash. Those after the letter of an option are its value, with or
without an equals sign before it. -/
def shortStep (a : Arguments) : List Char → Step
  | [] => .next a
  | c :: rest =>
      match shortSwitches.lookup c with
      | some (.flag flag) =>
          match a.raise flag with
          | some a => shortStep a rest
          | none => .done .misuse
      | some (.option name) =>
          match rest with
          | [] => .wait a name
          | '=' :: value => .ofOption (a.assign (String.ofList value) name)
          | value => .ofOption (a.assign (String.ofList value) name)
      | some .version => .done .version
      | some .help => .done .help
      | none => .done .misuse

/-- The text after two dashes: a name, perhaps with a value behind an equals sign. Only options
take one. -/
def longStep (a : Arguments) (text : List Char) : Step :=
  let value := (text.dropWhile (· ≠ '=')).tail?
  match longSwitches.lookup (String.ofList (text.takeWhile (· ≠ '='))), value with
  | some (.flag flag), none => .ofOption (a.raise flag)
  | some (.option name), none => .wait a name
  | some (.option name), some value => .ofOption (a.assign (String.ofList value) name)
  | some .version, none => .done .version
  | some .help, none => .done .help
  | _, _ => .done .misuse

/-- A single dash is no switch: it is an input or a value. -/
def step (a : Arguments) (argument : String) : Step :=
  match argument.toList with
  | '-' :: '-' :: text => longStep a text
  | ['-'] => .ofOption (a.addInput argument)
  | '-' :: letters => shortStep a letters
  | _ => .ofOption (a.addInput argument)

/-- Whether the argument can be the value of an option before it. -/
def isValue (argument : String) : Bool :=
  match argument.toList with
  | ['-'] => true
  | '-' :: _ => false
  | _ => true

def finish : Option Arguments → Request
  | some a => if a.inputs.isEmpty then .misuse else .run a
  | none => .misuse

/-- After two dashes all arguments are inputs. -/
def readArguments (a : Arguments) : List String → Request
  | [] => finish (some a)
  | "--" :: rest => finish (addInputs a rest)
  | argument :: rest =>
      match step a argument with
      | .done request => request
      | .next a => readArguments a rest
      | .wait a name =>
          match rest with
          | [] => .misuse
          | value :: rest =>
              if isValue value then
                match a.assign value name with
                | some a => readArguments a rest
                | none => .misuse
              else .misuse

def Request.parse (arguments : List String) : Request :=
  readArguments .empty arguments

def versionText : String := "webidl2ts 0.1.0\n"

def usageText : String := "Usage: webidl2ts [OPTIONS] <INPUT>...\n"

def helpLines : List String :=
  ["Generate TypeScript declarations from WebIDL",
    "",
    "Usage: webidl2ts [OPTIONS] <INPUT>...",
    "",
    "Arguments:",
    "  <INPUT>...  JSON definition files produced by a WebIDL parser (`-` reads stdin)",
    "",
    "Options:",
    "  -o, --out <FILE>     Output file (stdout if omitted)",
    "  -e, --emscripten     Emit class skeletons for emscripten's WebIDL binder",
    "  -m, --module <NAME>  Namespace wrapping emscripten bindings",
    "  -c, --config <FILE>  Configuration file (default: ./webidl2ts.toml when present)",
    "      --report         Also write a markdown report next to the output",
    "      --no-header      Omit the generated-file comment",
    "  -d, --debug          Enable verbose debug logging and full diagnostic dumps",
    "  -h, --help           Print help",
    "  -V, --version        Print version"]

def helpText : String :=
  String.join (helpLines.map fun line => line ++ "\n")

end IdlTypings.Command
