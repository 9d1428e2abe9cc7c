import IdlTypings.Decimal.Layout
import IdlTypings.Text.Quoted
import IdlTypings.Toml.Document

/-!
# Configuration files

A configuration is a TOML document with the tables `convert` and `output`. Keys are read in the
order of the document, unknown ones are refused, and the first bad one is the error. A table may
also be written as an array of its values.
-/

namespace IdlTypings.Settings

open Toml (Value)

structure OutputConfig where
  moduleName : Option String
  indentSize : Option Nat
  useTabs : Option Bool
  header : Option Bool
  report : Option Bool
  deriving DecidableEq, Repr, Inhabited

structure Config where
  emscripten : Bool
  output : OutputConfig
  deriving DecidableEq, Repr, Inhabited

/-- What a value was expected to be. -/
inductive Shape where
  | boolean
  | string
  | size
  | outputTable
  | convertTable
  deriving DecidableEq, Repr

def Shape.description : Shape → String
  | .boolean => "a boolean"
  | .string => "a string"
  | .size => "usize"
  | .outputTable => "struct OutputConfig"
  | .convertTable => "struct ConvertOptions"

/-- The keys of a table. -/
inductive Section where
  | top
  | convert
  | output
  deriving DecidableEq, Repr

def Section.keys : Section → List String
  | .top => ["convert", "output"]
  | .convert => ["emscripten"]
  | .output => ["module", "indent_size", "use_tabs", "header", "report"]

inductive ConfigError where
  | syntaxError
  | unknownField (name : String) (expected : Section)
  | invalidType (found : Value) (expected : Shape)
  | negativeSize (found : Int)
  | tooShort (count : Nat)
  deriving Inhabited

def ticked (text : String) : String := "`" ++ text ++ "`"

/-- The names that are allowed: one, two with `or` between them, or a list. -/
def alternatives : List String → String
  | [] => "no fields"
  | [a] => ticked a
  | [a, b] => ticked a ++ " or " ++ ticked b
  | names => "one of " ++ ", ".intercalate (names.map ticked)

def foundText : Value → String
  | .string s => "string " ++ Text.quoted s
  | .integer n => "integer " ++ ticked (toString n)
  | .float x => "floating point " ++ ticked ((Decimal.Double.ofFloat x).text .positional)
  | .boolean true => "boolean `true`"
  | .boolean false => "boolean `false`"
  | .datetime _ => "map"
  | .array _ => "sequence"
  | .table _ => "map"

def ConfigError.message : ConfigError → String
  | .syntaxError => "TOML parse error"
  | .unknownField name expected =>
      "unknown field " ++ ticked name ++ ", expected " ++ alternatives expected.keys
  | .invalidType found expected =>
      "invalid type: " ++ foundText found ++ ", expected " ++ expected.description
  | .negativeSize found =>
      "invalid value: integer " ++ ticked (toString found) ++ ", expected usize"
  | .tooShort count =>
      "invalid length " ++ toString count ++ ", expected struct OutputConfig with 5 elements"

abbrev Decoding := Except ConfigError

def boolean : Value → Decoding Bool
  | .boolean b => .ok b
  | found => .error (.invalidType found .boolean)

def string : Value → Decoding String
  | .string s => .ok s
  | found => .error (.invalidType found .string)

def size : Value → Decoding Nat
  | .integer n => if n < 0 then .error (.negativeSize n) else .ok n.toNat
  | found => .error (.invalidType found .size)

/-- The key that a date is decoded under. -/
def datetimeKey : String := "$__toml_private_datetime"

/-- The options of the conversion: whether to write classes for a binder. -/
def convertEntries : List (String × Value) → Bool → Decoding Bool
  | [], emscripten => .ok emscripten
  | (key, value) :: rest, _ =>
      if key = "emscripten" then do
        convertEntries rest (← boolean value)
      else .error (.unknownField key .convert)

def convertTable : Value → Decoding Bool
  | .table entries => convertEntries entries false
  | .array [] => .ok false
  | .array (first :: _) => boolean first
  | .datetime _ => .error (.unknownField datetimeKey .convert)
  | found => .error (.invalidType found .convertTable)

def OutputConfig.set (o : OutputConfig) (key : String) (value : Value) :
    Decoding OutputConfig := do
  if key = "module" then return { o with moduleName := ← string value }
  else if key = "indent_size" then return { o with indentSize := ← size value }
  else if key = "use_tabs" then return { o with useTabs := ← boolean value }
  else if key = "header" then return { o with header := ← boolean value }
  else if key = "report" then return { o with report := ← boolean value }
  else throw (.unknownField key .output)

def OutputConfig.empty : OutputConfig := ⟨none, none, none, none, none⟩

def outputEntries : List (String × Value) → OutputConfig → Decoding OutputConfig
  | [], output => .ok output
  | (key, value) :: rest, output => do
      outputEntries rest (← output.set key value)

/-- The values of the keys in their order. Values behind the last key do not count. -/
def outputItems (count : Nat) : List String → List Value → OutputConfig → Decoding OutputConfig
  | [], _, output => .ok output
  | _ :: _, [], _ => .error (.tooShort count)
  | key :: keys, value :: values, output => do
      outputItems (count + 1) keys values (← output.set key value)

def outputTable : Value → Decoding OutputConfig
  | .table entries => outputEntries entries .empty
  | .array values => outputItems 0 Section.output.keys values .empty
  | .datetime _ => .error (.unknownField datetimeKey .output)
  | found => .error (.invalidType found .outputTable)

def Config.default : Config := ⟨false, .empty⟩

def Config.set (c : Config) (key : String) (value : Value) : Decoding Config := do
  if key = "convert" then return { c with emscripten := ← convertTable value }
  else if key = "output" then return { c with output := ← outputTable value }
  else throw (.unknownField key .top)

def configEntries : List (String × Value) → Config → Decoding Config
  | [], config => .ok config
  | (key, value) :: rest, config => do
      configEntries rest (← config.set key value)

def Config.parse (text : String) : Decoding Config :=
  match Toml.parse text with
  | some entries => configEntries entries .default
  | none => .error .syntaxError

end IdlTypings.Settings
