/-!
# TypeScript types

The type expressions that a declaration file needs.
-/

namespace IdlTypings.Ts

inductive Keyword where
  | number
  | string
  | void
  | null
  | any
  | unknown
  deriving DecidableEq, Repr

mutual

inductive TypeExpr where
  | keyword (keyword : Keyword)
  | reference (name : String) (args : List TypeExpr)
  | union (members : List TypeExpr)
  | stringLiteral (value : String)
  | tuple (elements : List TypeExpr)
  | function (params : List Param) (returns : TypeExpr)
  | typeQuery (name : String)

/-- `...name?: type` -/
structure Param where
  name : String
  type : TypeExpr
  optional : Bool
  rest : Bool

end

instance : Inhabited TypeExpr := ⟨.keyword .unknown⟩

instance : Inhabited Param := ⟨⟨"", default, false, false⟩⟩

namespace TypeExpr

def number : TypeExpr := .keyword .number

def string : TypeExpr := .keyword .string

def void : TypeExpr := .keyword .void

def null : TypeExpr := .keyword .null

def any : TypeExpr := .keyword .any

def unknown : TypeExpr := .keyword .unknown

/-- A name without type arguments. -/
def name (name : String) : TypeExpr := .reference name []

def array (element : TypeExpr) : TypeExpr := .reference "Array" [element]

def orNull (type : TypeExpr) : TypeExpr := .union [type, null]

def isFunction : TypeExpr → Bool
  | .function _ _ => true
  | _ => false

end TypeExpr

/-- A parameter that has to be given. -/
def Param.required (name : String) (type : TypeExpr) : Param := ⟨name, type, false, false⟩

end IdlTypings.Ts
