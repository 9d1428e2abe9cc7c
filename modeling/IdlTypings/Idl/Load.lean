import IdlTypings.Idl.Definition
import IdlTypings.Idl.Descriptor
import IdlTypings.Idl.LoadError
import IdlTypings.Json.Reader

/-!
# Loading definitions

Definitions from the JSON that a parser writes: an array of nodes, each an object with a tag. A node
with an unknown tag is kept as it is, one with a known tag has to have the fields of that tag.
-/

namespace IdlTypings.Idl

open Json (Value)

/-- The tag of a node, empty if it has none. -/
def tagOf (node : Value) : String :=
  match node.field? "type" with
  | some (.string tag) => tag
  | _ => ""

/-- The fields of a node. -/
def fieldsOf : Value → List (String × Value)
  | .object fields => fields
  | _ => []

inductive MemberTag where
  | attribute
  | operation
  | construct
  | field
  | constant
  | iterable
  | setlike
  | maplike
  deriving DecidableEq, Repr

def MemberTag.text : MemberTag → String
  | .attribute => "attribute"
  | .operation => "operation"
  | .construct => "constructor"
  | .field => "field"
  | .constant => "const"
  | .iterable => "iterable"
  | .setlike => "setlike"
  | .maplike => "maplike"

def MemberTag.all : List MemberTag :=
  [.attribute, .operation, .construct, .field, .constant, .iterable, .setlike, .maplike]

def MemberTag.ofText? (text : String) : Option MemberTag :=
  MemberTag.all.find? (·.text == text)

inductive RootTag where
  | eof
  | definition (kind : DefinitionKind)
  | includes
  | enumeration
  | callback
  | typedef
  deriving DecidableEq, Repr

def RootTag.text : RootTag → String
  | .eof => "eof"
  | .definition .interface => "interface"
  | .definition .mixin => "interface mixin"
  | .definition .callbackInterface => "callback interface"
  | .definition .dictionary => "dictionary"
  | .definition .namespaceObject => "namespace"
  | .includes => "includes"
  | .enumeration => "enum"
  | .callback => "callback"
  | .typedef => "typedef"

def RootTag.all : List RootTag :=
  [.eof, .definition .interface, .definition .mixin, .definition .callbackInterface,
    .definition .dictionary, .definition .namespaceObject, .includes, .enumeration, .callback,
    .typedef]

def RootTag.ofText? (text : String) : Option RootTag :=
  RootTag.all.find? (·.text == text)

def Argument.ofFields (fields : List (String × Value)) : Decoding Argument := do
  let type ← field? fields "idlType" Decoder.any
  let name ← field? fields "name" Decoder.string
  let optional ← field? fields "optional" Decoder.boolean
  let variadic ← field? fields "variadic" Decoder.boolean
  let name ← require "name" name
  let type ← require "idlType" type
  return ⟨name, .ofValue type, optional.getD false, variadic.getD false⟩

def Argument.ofItems (items : List Value) : Decoding Argument := do
  let name ← requireItem .argument 4 items 0 Decoder.string
  let type ← requireItem .argument 4 items 1 Decoder.any
  let optional ← item? items 2 Decoder.boolean
  let variadic ← item? items 3 Decoder.boolean
  requireWidth 4 items
  return ⟨name, .ofValue type, optional.getD false, variadic.getD false⟩

def Argument.ofValue : Decoder Argument
  | .object fields => Argument.ofFields fields
  | .array items => Argument.ofItems items
  | found => .error (.invalidType found .argument)

/-- The value on the right-hand side of an extended attribute. -/
def rightHandSide : Decoder Value
  | .object fields => return (fields.lookup "value").getD .null
  | .array items => do
      requireWidth 1 items
      return items.head?.getD .null
  | found => .error (.invalidType found .rightHandSide)

/-- An identifier, or a list of identifiers and of objects that hold one. What else a list holds is
skipped. -/
def identifiers : Value → List String
  | .string s => [s]
  | .array items =>
      items.filterMap fun item =>
        match item with
        | .string s => some s
        | item => (item.field? "value").bind Value.asString?
  | _ => []

def identifiersOf (side : Option (Option Value)) : List String :=
  (side.join.map identifiers).getD []

def attrEntryOfFields (fields : List (String × Value)) : Decoding AttrEntry := do
  let name ← field? fields "name" Decoder.string
  let side ← field? fields "rhs" (Decoder.nullable rightHandSide)
  let name ← require "name" name
  return (name, identifiersOf side)

def attrEntryOfItems (items : List Value) : Decoding AttrEntry := do
  let name ← requireItem .extAttr 2 items 0 Decoder.string
  let side ← item? items 1 (Decoder.nullable rightHandSide)
  requireWidth 2 items
  return (name, identifiersOf side)

def attrEntry : Decoder AttrEntry
  | .object fields => attrEntryOfFields fields
  | .array items => attrEntryOfItems items
  | found => .error (.invalidType found .extAttr)

def Attribute.ofFields (fields : List (String × Value)) : Decoding Attribute := do
  let type ← field? fields "idlType" Decoder.any
  let name ← field? fields "name" Decoder.string
  let readonly ← field? fields "readonly" Decoder.boolean
  let special ← field? fields "special" (Decoder.nullable Decoder.string)
  let name ← require "name" name
  let type ← require "idlType" type
  return ⟨name, .ofValue type, readonly.getD false, special.join.bind Special.ofKeyword?⟩

/-- An operation without a type returns nothing, a stringifier a string. -/
def returnType (special : Option Special) : Value → TypeExpr
  | .null => .named (if special = some .stringifier then "DOMString" else "void") false
  | type => .ofValue type

def Operation.ofFields (fields : List (String × Value)) : Decoding Operation := do
  let arguments ← field? fields "arguments" (Decoder.list Argument.ofValue)
  let type ← field? fields "idlType" Decoder.any
  let name ← field? fields "name" (Decoder.nullable Decoder.string)
  let special ← field? fields "special" (Decoder.nullable Decoder.string)
  let special := special.join.bind Special.ofKeyword?
  return ⟨name.join.getD "", arguments.getD [], returnType special (type.getD .null), special⟩

def constructOfFields (fields : List (String × Value)) : Decoding Member := do
  let arguments ← field? fields "arguments" (Decoder.list Argument.ofValue)
  return .construct (arguments.getD [])

def fieldOfFields (fields : List (String × Value)) : Decoding Member := do
  let type ← field? fields "idlType" Decoder.any
  let name ← field? fields "name" Decoder.string
  let required ← field? fields "required" Decoder.boolean
  let name ← require "name" name
  let type ← require "idlType" type
  return .field name (.ofValue type) (required.getD false)

def constantOfFields (fields : List (String × Value)) : Decoding Member := do
  let type ← field? fields "idlType" Decoder.any
  let name ← field? fields "name" Decoder.string
  let name ← require "name" name
  let type ← require "idlType" type
  return .constant name (.ofValue type)

/-- What an iterable, a set or a map is declared with. -/
structure Collection where
  types : List Value
  readonly : Bool
  async : Bool

def Collection.ofFields (fields : List (String × Value)) : Decoding Collection := do
  let async ← field? fields "async" Decoder.boolean
  let types ← field? fields "idlType" Decoder.sequence
  let readonly ← field? fields "readonly" Decoder.boolean
  let types ← require "idlType" types
  return ⟨types, readonly.getD false, async.getD false⟩

/-- A collection with the wrong number of types is not supported. -/
def Collection.iterable (node : Value) (c : Collection) : Member :=
  match c.types with
  | [value] => .iterable [.ofValue value] c.async
  | [key, value] => .iterable [.ofValue key, .ofValue value] c.async
  | _ => .unsupported (tagOf node) node

def Collection.setlike (node : Value) (c : Collection) : Member :=
  match c.types with
  | [element] => .setlike (.ofValue element) c.readonly
  | _ => .unsupported (tagOf node) node

def Collection.maplike (node : Value) (c : Collection) : Member :=
  match c.types with
  | [key, value] => .maplike (.ofValue key) (.ofValue value) c.readonly
  | _ => .unsupported (tagOf node) node

def MemberTag.member (node : Value) : MemberTag → Decoding Member
  | .attribute => .attr <$> Attribute.ofFields (fieldsOf node)
  | .operation => .operation <$> Operation.ofFields (fieldsOf node)
  | .construct => constructOfFields (fieldsOf node)
  | .field => fieldOfFields (fieldsOf node)
  | .constant => constantOfFields (fieldsOf node)
  | .iterable => Collection.iterable node <$> Collection.ofFields (fieldsOf node)
  | .setlike => Collection.setlike node <$> Collection.ofFields (fieldsOf node)
  | .maplike => Collection.maplike node <$> Collection.ofFields (fieldsOf node)

/-- A bad field is an error of the node with this tag. -/
def inNode {α : Type} (node : Value) : Decoding α → Except LoadError α
  | .ok result => .ok result
  | .error error => .error (.malformed (tagOf node) error)

def Member.ofNode (node : Value) : Except LoadError Member :=
  match MemberTag.ofText? (tagOf node) with
  | some tag => inNode node (tag.member node)
  | none => .ok (.unsupported (tagOf node) node)

def membersOf : List Value → Except LoadError (List Member)
  | [] => .ok []
  | node :: rest => do
      let member ← Member.ofNode node
      let members ← membersOf rest
      return member :: members

/-- The fields of a definition, its members still to be read. -/
structure DefinitionFields where
  name : String
  inheritance : Option String
  members : List Value
  extAttrs : List AttrEntry

def DefinitionFields.ofFields (fields : List (String × Value)) : Decoding DefinitionFields := do
  let extAttrs ← field? fields "extAttrs" (Decoder.list attrEntry)
  let inheritance ← field? fields "inheritance" (Decoder.nullable Decoder.string)
  let members ← field? fields "members" Decoder.sequence
  let name ← field? fields "name" Decoder.string
  let name ← require "name" name
  return ⟨name, inheritance.join, members.getD [], extAttrs.getD []⟩

/-- The definition's own fields come before its members. -/
def Definition.ofNode (node : Value) : Except LoadError Definition := do
  let fields ← inNode node (DefinitionFields.ofFields (fieldsOf node))
  let members ← membersOf fields.members
  return ⟨fields.name, fields.inheritance, members, .ofList fields.extAttrs⟩

def includesOfFields (fields : List (String × Value)) : Decoding Root := do
  let mixin ← field? fields "includes" Decoder.string
  let target ← field? fields "target" Decoder.string
  let target ← require "target" target
  let mixin ← require "includes" mixin
  return .includes target mixin

/-- A value of an enumeration: a string or an object that holds one. -/
def enumValue : Decoder String
  | .string s => .ok s
  | .object fields =>
      match fields.lookup "value" with
      | some (.string s) => .ok s
      | _ => .error .noEnumValue
  | _ => .error .noEnumValue

def enumerationOfFields (fields : List (String × Value)) : Decoding Root := do
  let name ← field? fields "name" Decoder.string
  let values ← field? fields "values" (Decoder.list enumValue)
  let name ← require "name" name
  let values ← require "values" values
  return .enumeration name values

def callbackOfFields (fields : List (String × Value)) : Decoding Root := do
  let arguments ← field? fields "arguments" (Decoder.list Argument.ofValue)
  let type ← field? fields "idlType" Decoder.any
  let name ← field? fields "name" Decoder.string
  let name ← require "name" name
  let type ← require "idlType" type
  return .callback name (.ofValue type) (arguments.getD [])

def typedefOfFields (fields : List (String × Value)) : Decoding Root := do
  let type ← field? fields "idlType" Decoder.any
  let name ← field? fields "name" Decoder.string
  let name ← require "name" name
  let type ← require "idlType" type
  return .typedef name (.ofValue type)

/-- Nothing comes of a node that marks the end. -/
def RootTag.root? (node : Value) : RootTag → Except LoadError (Option Root)
  | .eof => .ok none
  | .definition kind => (some ∘ .definition kind) <$> Definition.ofNode node
  | .includes => some <$> inNode node (includesOfFields (fieldsOf node))
  | .enumeration => some <$> inNode node (enumerationOfFields (fieldsOf node))
  | .callback => some <$> inNode node (callbackOfFields (fieldsOf node))
  | .typedef => some <$> inNode node (typedefOfFields (fieldsOf node))

def Root.ofNode? (node : Value) : Except LoadError (Option Root) :=
  match RootTag.ofText? (tagOf node) with
  | some tag => tag.root? node
  | none => .ok (some (.unsupported (tagOf node) node))

def rootsOf : List Value → Except LoadError (List Root)
  | [] => .ok []
  | node :: rest => do
      let root ← Root.ofNode? node
      let roots ← rootsOf rest
      return root.toList ++ roots

def load : Value → Except LoadError (List Root)
  | .array nodes => rootsOf nodes
  | found => .error (.notArray found)

def loadText (text : String) : Except LoadError (List Root) :=
  match Json.parse Json.depthLimit text with
  | .ok value => load value
  | .error error => .error (.syntaxError error)

end IdlTypings.Idl
