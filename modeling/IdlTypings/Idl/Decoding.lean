import IdlTypings.Json.Numeral
import IdlTypings.Json.Value
import IdlTypings.Text.Quoted

/-!
# Typed data in JSON

Reading typed data out of JSON values.

A record is written as an object or, inside a node, as an array of its fields. The fields of an
object are read in ascending order of their keys and the first bad one is the error; a missing
field is an error only if no field is bad.
-/

namespace IdlTypings.Idl

open Json (Value)

/-- What a value was expected to be. -/
inductive Shape where
  | string
  | boolean
  | sequence
  | argument
  | extAttr
  | rightHandSide
  deriving DecidableEq, Repr

def Shape.description : Shape → String
  | .string => "a string"
  | .boolean => "a boolean"
  | .sequence => "a sequence"
  | .argument => "struct RawArgument"
  | .extAttr => "struct RawExtAttr"
  | .rightHandSide => "struct RawRhs"

inductive DecodeError where
  | invalidType (found : Value) (expected : Shape)
  | missingField (name : String)
  | tooShort (count : Nat) (expected : Shape) (wanted : Nat)
  | tooLong (count : Nat)
  | noEnumValue
  deriving Inhabited

def foundText : Value → String
  | .null => "null"
  | .bool true => "boolean `true`"
  | .bool false => "boolean `false`"
  | .number (.integer n) => "integer `" ++ toString n ++ "`"
  | .number (.double x) => "floating point `" ++ (Json.Number.double x).text ++ "`"
  | .string s => "string " ++ Text.quoted s
  | .array _ => "sequence"
  | .object _ => "map"

def DecodeError.message : DecodeError → String
  | .invalidType found expected =>
      "invalid type: " ++ foundText found ++ ", expected " ++ expected.description
  | .missingField name => "missing field `" ++ name ++ "`"
  | .tooShort count expected wanted =>
      "invalid length " ++ toString count ++ ", expected " ++ expected.description ++ " with " ++
        toString wanted ++ if wanted = 1 then " element" else " elements"
  | .tooLong count =>
      "invalid length " ++ toString count ++ ", expected fewer elements in array"
  | .noEnumValue => "data did not match any variant of untagged enum RawEnumValue"

abbrev Decoding := Except DecodeError

abbrev Decoder (α : Type) := Value → Decoding α

namespace Decoder

def any : Decoder Value := .ok

def string : Decoder String
  | .string s => .ok s
  | found => .error (.invalidType found .string)

def boolean : Decoder Bool
  | .bool b => .ok b
  | found => .error (.invalidType found .boolean)

def sequence : Decoder (List Value)
  | .array items => .ok items
  | found => .error (.invalidType found .sequence)

/-- Every item is read, the first bad one is the error. -/
def all {α : Type} (item : Decoder α) : List Value → Decoding (List α)
  | [] => .ok []
  | value :: rest => do
      let first ← item value
      let others ← all item rest
      return first :: others

def list {α : Type} (item : Decoder α) : Decoder (List α) := fun value => do
  all item (← sequence value)

def nullable {α : Type} (item : Decoder α) : Decoder (Option α)
  | .null => .ok none
  | value => some <$> item value

/-- A field or item that may be absent. -/
def optional {α : Type} (item : Decoder α) : Option Value → Decoding (Option α)
  | none => .ok none
  | some value => some <$> item value

end Decoder

/-- A field of an object, if it is there. -/
def field? {α : Type} (fields : List (String × Value)) (key : String) (item : Decoder α) :
    Decoding (Option α) :=
  Decoder.optional item (fields.lookup key)

def require {α : Type} (key : String) : Option α → Decoding α
  | some value => .ok value
  | none => .error (.missingField key)

/-- The field of a record written as an array of `width` fields that has to be there. -/
def requireItem {α : Type} (shape : Shape) (width : Nat) (items : List Value) (index : Nat)
    (item : Decoder α) : Decoding α :=
  match items[index]? with
  | some value => item value
  | none => .error (.tooShort index shape width)

/-- The field of a record written as an array that may be left out at its end. -/
def item? {α : Type} (items : List Value) (index : Nat) (item : Decoder α) :
    Decoding (Option α) :=
  Decoder.optional item items[index]?

/-- A record written as an array has at most `width` fields. -/
def requireWidth (width : Nat) (items : List Value) : Decoding Unit :=
  if items.length ≤ width then .ok () else .error (.tooLong items.length)

end IdlTypings.Idl
