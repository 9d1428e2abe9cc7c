import IdlTypings.Idl.Load

/-!
# Canonical nodes

One way to write each definition as a parser would: every node an object with its tag and all of its
fields. What was kept as it was found is written as it was found.
-/

namespace IdlTypings.Idl

open Json (Value)

def descriptor (head : String) (nullable isUnion : Bool) (inner : Value) : Value :=
  .ofFields [("generic", .string head), ("nullable", .bool nullable), ("union", .bool isUnion),
    ("idlType", inner)]

mutual

def TypeExpr.toValue : TypeExpr → Value
  | .named name nullable => descriptor "" nullable false (.string name)
  | .generic head args nullable => descriptor head nullable false (.array (typesToValues args))
  | .union members nullable => descriptor "" nullable true (.array (typesToValues members))
  | .unsupported raw => raw
termination_by structural type => type

def typesToValues : List TypeExpr → List Value
  | [] => []
  | type :: rest => type.toValue :: typesToValues rest
termination_by structural types => types

end

def Argument.toValue (a : Argument) : Value :=
  .ofFields [("name", .string a.name), ("idlType", a.type.toValue), ("optional", .bool a.optional),
    ("variadic", .bool a.variadic)]

def argumentsField (arguments : List Argument) : String × Value :=
  ("arguments", .array (arguments.map Argument.toValue))

/-- No special word is written as the empty one. -/
def specialField (special : Option Special) : String × Value :=
  ("special", .string ((special.map Special.keyword).getD ""))

def Member.toNode : Member → Value
  | .attr a =>
      .ofFields [("type", .string "attribute"), ("name", .string a.name),
        ("idlType", a.type.toValue), ("readonly", .bool a.readonly), specialField a.special]
  | .operation op =>
      .ofFields [("type", .string "operation"), ("name", .string op.name),
        ("idlType", op.returns.toValue), argumentsField op.arguments, specialField op.special]
  | .construct arguments => .ofFields [("type", .string "constructor"), argumentsField arguments]
  | .field name type required =>
      .ofFields [("type", .string "field"), ("name", .string name), ("idlType", type.toValue),
        ("required", .bool required)]
  | .constant name type =>
      .ofFields [("type", .string "const"), ("name", .string name), ("idlType", type.toValue)]
  | .iterable types async =>
      .ofFields [("type", .string "iterable"), ("idlType", .array (types.map TypeExpr.toValue)),
        ("async", .bool async)]
  | .setlike element readonly =>
      .ofFields [("type", .string "setlike"), ("idlType", .array [element.toValue]),
        ("readonly", .bool readonly)]
  | .maplike key value readonly =>
      .ofFields [("type", .string "maplike"), ("idlType", .array [key.toValue, value.toValue]),
        ("readonly", .bool readonly)]
  | .unsupported _ raw => raw

def attrToValue (entry : AttrEntry) : Value :=
  .ofFields [("name", .string entry.1),
    ("rhs", .ofFields [("value", .array (entry.2.map Value.string))])]

def inheritanceToValue : Option String → Value
  | some parent => .string parent
  | none => .null

def definitionTag : DefinitionKind → String
  | .interface => "interface"
  | .mixin => "interface mixin"
  | .callbackInterface => "callback interface"
  | .dictionary => "dictionary"
  | .namespaceObject => "namespace"

def Root.toNode : Root → Value
  | .definition kind d =>
      .ofFields [("type", .string (definitionTag kind)), ("name", .string d.name),
        ("inheritance", inheritanceToValue d.inheritance),
        ("members", .array (d.members.map Member.toNode)),
        ("extAttrs", .array (d.extAttrs.entries.map attrToValue))]
  | .includes target mixin =>
      .ofFields [("type", .string "includes"), ("target", .string target),
        ("includes", .string mixin)]
  | .enumeration name values =>
      .ofFields [("type", .string "enum"), ("name", .string name),
        ("values", .array (values.map Value.string))]
  | .callback name returns arguments =>
      .ofFields [("type", .string "callback"), ("name", .string name),
        ("idlType", returns.toValue), argumentsField arguments]
  | .typedef name type =>
      .ofFields [("type", .string "typedef"), ("name", .string name), ("idlType", type.toValue)]
  | .unsupported _ raw => raw

end IdlTypings.Idl
