import IdlTypings.Idl.ExtAttrs
import IdlTypings.Idl.TypeExpr

/-!
# Interface definitions

Interface definitions: the members of interfaces and their kin, and what stands at the top level.
Members and definitions of an unknown kind are kept as they were found.
-/

namespace IdlTypings.Idl

open Json (Value)

/-- `optional DOMString label`, `Node... nodes` -/
structure Argument where
  name : String
  type : TypeExpr
  optional : Bool
  variadic : Bool
  deriving BEq, Inhabited

inductive Special where
  | getter
  | setter
  | deleter
  | static
  | stringifier
  | inherit
  deriving DecidableEq, Repr

def Special.keyword : Special → String
  | .getter => "getter"
  | .setter => "setter"
  | .deleter => "deleter"
  | .static => "static"
  | .stringifier => "stringifier"
  | .inherit => "inherit"

def Special.all : List Special :=
  [.getter, .setter, .deleter, .static, .stringifier, .inherit]

def Special.ofKeyword? (keyword : String) : Option Special :=
  Special.all.find? (·.keyword == keyword)

/-- `readonly attribute DOMString name` -/
structure Attribute where
  name : String
  type : TypeExpr
  readonly : Bool
  special : Option Special
  deriving BEq, Inhabited

/-- `static Node find(DOMString name)`. A special operation may have an empty name. -/
structure Operation where
  name : String
  arguments : List Argument
  returns : TypeExpr
  special : Option Special
  deriving BEq, Inhabited

def Operation.isStatic (op : Operation) : Bool :=
  op.special = some .static

/-- The type of the argument of an indexed getter: a getter with one argument, an
`unsigned long`. -/
def Operation.indexType? (op : Operation) : Option TypeExpr :=
  match op.special, op.arguments with
  | some .getter, [index] => if index.type.isNamed "unsigned long" then some index.type else none
  | _, _ => none

def Operation.isIndexedGetter (op : Operation) : Bool :=
  op.indexType?.isSome

inductive Member where
  | attr (attr : Attribute)
  | operation (op : Operation)
  | construct (arguments : List Argument)
  | field (name : String) (type : TypeExpr) (required : Bool)
  | constant (name : String) (type : TypeExpr)
  | iterable (types : List TypeExpr) (async : Bool)
  | setlike (element : TypeExpr) (readonly : Bool)
  | maplike (key value : TypeExpr) (readonly : Bool)
  | unsupported (kind : String) (raw : Value)
  deriving BEq, Inhabited

/-- What interfaces, mixins, callback interfaces, dictionaries and namespaces have in common. -/
structure Definition where
  name : String
  inheritance : Option String
  members : List Member
  extAttrs : ExtAttrs
  deriving BEq, Inhabited

inductive DefinitionKind where
  | interface
  | mixin
  | callbackInterface
  | dictionary
  | namespaceObject
  deriving DecidableEq, Repr

inductive Root where
  | definition (kind : DefinitionKind) (body : Definition)
  | includes (target mixin : String)
  | enumeration (name : String) (values : List String)
  | callback (name : String) (returns : TypeExpr) (arguments : List Argument)
  | typedef (name : String) (type : TypeExpr)
  | unsupported (kind : String) (raw : Value)
  deriving BEq, Inhabited

/-- An includes statement goes by the name of its target. -/
def Root.name? : Root → Option String
  | .definition _ body => some body.name
  | .includes target _ => some target
  | .enumeration name _ => some name
  | .callback name _ _ => some name
  | .typedef name _ => some name
  | .unsupported _ _ => none

end IdlTypings.Idl
