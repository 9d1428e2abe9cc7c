import IdlTypings.Idl.Decoding
import IdlTypings.Json.SyntaxError

/-!
# Load errors

Why a text or value does not hold definitions.
-/

namespace IdlTypings.Idl

open Json (Value)

inductive LoadError where
  | syntaxError (error : Json.SyntaxError)
  | notArray (found : Value)
  | malformed (tag : String) (error : DecodeError)
  deriving Inhabited

def kindText : Value → String
  | .null => "null"
  | .bool _ => "a boolean"
  | .number _ => "a number"
  | .string _ => "a string"
  | .array _ => "an array"
  | .object _ => "an object"

def LoadError.message : LoadError → String
  | .syntaxError error => "invalid JSON: " ++ error.message
  | .notArray found => "expected a JSON array of definitions, found " ++ kindText found
  | .malformed tag error => "malformed `" ++ tag ++ "`: " ++ error.message

/-- The message of what lies behind the error, if anything does. -/
def LoadError.cause? : LoadError → Option String
  | .syntaxError error => some error.message
  | .notArray _ => none
  | .malformed _ error => some error.message

end IdlTypings.Idl
