import IdlTypings.Conversion.TypeExpr

/-!
# Parameters

The parameters of operations, constructors and callbacks. A variadic argument becomes a rest
parameter, which is an array and never optional.
-/

namespace IdlTypings.Conversion

/-- Words that cannot name a parameter in strict code. -/
def reservedWords : List String :=
  ["break", "case", "catch", "class", "const", "continue", "debugger", "default", "delete", "do",
    "else", "enum", "export", "extends", "false", "finally", "for", "function", "if", "implements",
    "import", "in", "instanceof", "interface", "let", "new", "null", "package", "private",
    "protected", "public", "return", "static", "super", "switch", "this", "throw", "true", "try",
    "typeof", "var", "void", "while", "with", "yield"]

/-- No reserved word ends in an underscore. -/
def paramName (name : String) : String :=
  if name ∈ reservedWords then name ++ "_" else name

end IdlTypings.Conversion

namespace IdlTypings.Idl

open Conversion

def Argument.toParam (owner : Option String) (a : Argument) : Noted Ts.Param := do
  let type ← a.type.toTs owner
  return {
    name := paramName a.name
    type := if a.variadic then .array type else type
    optional := a.optional && !a.variadic
    rest := a.variadic }

end IdlTypings.Idl

namespace IdlTypings.Conversion

def params (owner : Option String) (arguments : List Idl.Argument) : Noted (List Ts.Param) :=
  Noted.each (Idl.Argument.toParam owner) arguments

end IdlTypings.Conversion
