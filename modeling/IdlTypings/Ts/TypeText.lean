import IdlTypings.Json.Escape
import IdlTypings.Ts.TypeExpr

/-!
# The text of a type

Members of a union are separated by bars, and a function type among them stands in parentheses. A
union without members is `never`.
-/

namespace IdlTypings.Ts

def Keyword.text : Keyword → String
  | .number => "number"
  | .string => "string"
  | .void => "void"
  | .null => "null"
  | .any => "any"
  | .unknown => "unknown"

def commaSeparated (texts : List String) : String :=
  ", ".intercalate texts

mutual

def TypeExpr.text : TypeExpr → String
  | .keyword keyword => keyword.text
  | .reference name args =>
      if args.isEmpty then name else name ++ "<" ++ commaSeparated (TypeExpr.texts args) ++ ">"
  | .union members =>
      if members.isEmpty then "never" else " | ".intercalate (TypeExpr.memberTexts members)
  | .stringLiteral value => Json.quote value
  | .tuple elements => "[" ++ commaSeparated (TypeExpr.texts elements) ++ "]"
  | .function params returns =>
      "(" ++ commaSeparated (Param.texts params) ++ ") => " ++ returns.text
  | .typeQuery name => "typeof " ++ name
termination_by structural type => type

def TypeExpr.texts : List TypeExpr → List String
  | [] => []
  | type :: rest => type.text :: TypeExpr.texts rest
termination_by structural types => types

/-- The members of a union. -/
def TypeExpr.memberTexts : List TypeExpr → List String
  | [] => []
  | member :: rest =>
      (if member.isFunction then "(" ++ member.text ++ ")" else member.text) ::
        TypeExpr.memberTexts rest
termination_by structural members => members

def Param.text : Param → String
  | ⟨name, type, optional, rest⟩ =>
      (if rest then "..." else "") ++ name ++ (if optional then "?" else "") ++ ": " ++ type.text
termination_by structural param => param

def Param.texts : List Param → List String
  | [] => []
  | param :: rest => param.text :: Param.texts rest
termination_by structural params => params

end

/-- What stands between the parentheses of a parameter list. -/
def paramsText (params : List Param) : String :=
  commaSeparated (Param.texts params)

def typesText (types : List TypeExpr) : String :=
  commaSeparated (TypeExpr.texts types)

end IdlTypings.Ts
