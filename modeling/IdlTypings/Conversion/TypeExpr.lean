import IdlTypings.Conversion.BuiltinName
import IdlTypings.Diagnostic
import IdlTypings.Idl.Definition
import IdlTypings.Ts.TypeExpr

/-!
# Types

The TypeScript type of an interface definition's type. A nullable type becomes a union with `null`,
except for `void`; whether a union is nullable does not count. A type that is not supported becomes
`unknown` and is noted.
-/

namespace IdlTypings.Conversion

def NameClass.type (resolved : String) : NameClass → Ts.TypeExpr
  | .numeric => .number
  | .textual => .string
  | .void => .void
  | .reference => .name resolved

def orNullIf (nullable : Bool) (resolved : String) (type : Ts.TypeExpr) : Ts.TypeExpr :=
  if nullable ∧ NameClass.of resolved ≠ .void then type.orNull else type

end IdlTypings.Conversion

namespace IdlTypings.Idl

open Conversion

mutual

def TypeExpr.toTs (owner : Option String) : TypeExpr → Noted Ts.TypeExpr
  | .named name nullable =>
      pure (orNullIf nullable (resolve name) ((NameClass.of (resolve name)).type (resolve name)))
  | .generic head args nullable => do
      let args ← TypeExpr.listToTs owner args
      return orNullIf nullable (resolve head) (.reference (resolve head) args)
  | .union members _ => do
      let members ← TypeExpr.listToTs owner members
      return .union members
  | .unsupported raw => Noted.skip .unknown (.unsupported .type owner raw)
termination_by structural type => type

def TypeExpr.listToTs (owner : Option String) : List TypeExpr → Noted (List Ts.TypeExpr)
  | [] => pure []
  | type :: rest => do
      let first ← type.toTs owner
      let others ← TypeExpr.listToTs owner rest
      return first :: others
termination_by structural types => types

end

end IdlTypings.Idl
