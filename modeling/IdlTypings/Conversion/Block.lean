import IdlTypings.Conversion.Params
import IdlTypings.Ts.Declaration

/-!
# Members

What a single member contributes to its definition: TypeScript members and inherited base types. It
depends on the other members only through a `Context`.
-/

namespace IdlTypings.Conversion

/-- Ambient declarations only describe types, runtime ones describe classes whose attributes are
also reached by accessor methods. -/
inductive Mode where
  | ambient
  | runtime
  deriving DecidableEq, Repr

/-- What a member has to know of the definition around it: its name, whether indices can be
assigned to, and the type of the index if there is an indexed getter. -/
structure Context where
  owner : String
  writable : Bool
  indexType? : Option Idl.TypeExpr

structure Block where
  members : List Ts.Member
  bases : List Ts.TypeExpr

def Block.ofMembers (members : List Ts.Member) : Block := ⟨members, []⟩

def Block.ofBase (base : Ts.TypeExpr) : Block := ⟨[], [base]⟩

def Block.append (a b : Block) : Block := ⟨a.members ++ b.members, a.bases ++ b.bases⟩

def Block.concat (blocks : List Block) : Block :=
  ⟨blocks.flatMap Block.members, blocks.flatMap Block.bases⟩

def method (name : String) (params : List Ts.Param) (returns : Ts.TypeExpr) (static : Bool) :
    Ts.Member :=
  .method ⟨.identifier name, params, returns, static⟩

/-- The methods that read and write an attribute, which exist for readonly attributes too. -/
def accessors (name : String) (type : Ts.TypeExpr) (static : Bool) : List Ts.Member :=
  [method ("get_" ++ name) [] type static,
    method ("set_" ++ name) [.required "value" type] .void static]

def attributeBlock (mode : Mode) (ctx : Context) (a : Idl.Attribute) : Noted Block := do
  let type ← a.type.toTs ctx.owner
  let static := a.special = some .static
  let property := .property ⟨.identifier a.name, type, false, a.readonly, static⟩
  return .ofMembers
    (match mode with
      | .ambient => [property]
      | .runtime => accessors a.name type static ++ [property])

def constructBlock (mode : Mode) (ctx : Context) (arguments : List Idl.Argument) :
    Noted Block := do
  let params ← params ctx.owner arguments
  return .ofMembers
    (match mode with
      | .ambient => [.constructSignature params (.name ctx.owner)]
      | .runtime => [.classConstructor params])

/-- An operation without a name: a getter is an index signature, a stringifier is `toString`, and
nothing comes of the others. -/
def anonymousBlock (ctx : Context) (op : Idl.Operation) : Noted Block :=
  match op.special, op.arguments with
  | some .getter, [key] => do
      let keyType ← key.type.toTs ctx.owner
      let valueType ← op.returns.toTs ctx.owner
      return .ofMembers [.index ⟨paramName key.name, keyType, valueType, !ctx.writable⟩]
  | some .stringifier, [] => pure (.ofMembers [method "toString" [] .string false])
  | _, _ => pure (.ofMembers [])

def methodBlock (ctx : Context) (op : Idl.Operation) : Noted Block := do
  let params ← params ctx.owner op.arguments
  let returns ← op.returns.toTs ctx.owner
  return .ofMembers [method op.name params returns op.isStatic]

/-- An operation that has the name of its definition is a constructor. -/
def operationBlock (mode : Mode) (ctx : Context) (op : Idl.Operation) : Noted Block :=
  if op.name = ctx.owner then constructBlock mode ctx op.arguments
  else if op.name = "" then anonymousBlock ctx op
  else methodBlock ctx op

def propertyBlock (ctx : Context) (name : String) (type : Idl.TypeExpr)
    (optional readonly : Bool) : Noted Block := do
  let type ← type.toTs ctx.owner
  return .ofMembers [.property ⟨.identifier name, type, optional, readonly, false⟩]

/-- What the methods of an iterable speak of: the items of its iterator, its keys and values, and
the collection that is passed to callbacks. -/
structure Iteration where
  async : Bool
  item : Ts.TypeExpr
  key : Ts.TypeExpr
  value : Ts.TypeExpr
  parent : Ts.TypeExpr

def Iteration.entry (i : Iteration) : Ts.TypeExpr := .tuple [i.key, i.value]

def Iteration.iterator (i : Iteration) (item : Ts.TypeExpr) : Ts.TypeExpr :=
  .reference (if i.async then "AsyncIterableIterator" else "IterableIterator") [item]

def Iteration.symbol (i : Iteration) : String :=
  if i.async then "Symbol.asyncIterator" else "Symbol.iterator"

def Iteration.callback (i : Iteration) : Ts.TypeExpr :=
  .function [.required "value" i.value, .required "key" i.key, .required "parent" i.parent] .void

def Iteration.members (i : Iteration) : List Ts.Member :=
  [.method ⟨.computed i.symbol, [], i.iterator i.item, false⟩,
    method "entries" [] (i.iterator i.entry) false,
    method "keys" [] (i.iterator i.key) false,
    method "values" [] (i.iterator i.value) false,
    method "forEach"
      [.required "callbackfn" i.callback,
        { name := "thisArg", type := .any, optional := true, rest := false }]
      .void false]

/-- Pairs are iterated as entries, values by the keys of the indexed getter. Values without one
give no members. -/
def iterableBlock (ctx : Context) (types : List Idl.TypeExpr) (async : Bool) : Noted Block :=
  match types, ctx.indexType? with
  | [key, value], _ => do
      let key ← key.toTs ctx.owner
      let value ← value.toTs ctx.owner
      return .ofMembers
        (Iteration.members ⟨async, .tuple [key, value], key, value, .name ctx.owner⟩)
  | [value], some key => do
      let key ← key.toTs ctx.owner
      let value ← value.toTs ctx.owner
      return .ofMembers (Iteration.members ⟨async, value, key, value, .array value⟩)
  | _, _ => pure (.ofMembers [])

def setBlock (ctx : Context) (element : Idl.TypeExpr) (readonly : Bool) : Noted Block := do
  let element ← element.toTs ctx.owner
  return .ofBase (.reference (if readonly then "ReadonlySet" else "Set") [element])

def mapBlock (ctx : Context) (key value : Idl.TypeExpr) (readonly : Bool) : Noted Block := do
  let key ← key.toTs ctx.owner
  let value ← value.toTs ctx.owner
  return .ofBase (.reference (if readonly then "ReadonlyMap" else "Map") [key, value])

def memberBlock (mode : Mode) (ctx : Context) : Idl.Member → Noted Block
  | .attr a => attributeBlock mode ctx a
  | .operation op => operationBlock mode ctx op
  | .construct arguments => constructBlock mode ctx arguments
  | .field name type required => propertyBlock ctx name type (!required) false
  | .constant name type => propertyBlock ctx name type false true
  | .iterable types async => iterableBlock ctx types async
  | .setlike element readonly => setBlock ctx element readonly
  | .maplike key value readonly => mapBlock ctx key value readonly
  | .unsupported _ raw => Noted.skip (.ofMembers []) (.unsupported .member ctx.owner raw)

def isIndexSetter : Idl.Member → Bool
  | .operation op => op.name = "" ∧ op.special = some .setter
  | _ => false

def memberIndexType? : Idl.Member → Option Idl.TypeExpr
  | .operation op => op.indexType?
  | _ => none

def Context.of (d : Idl.Definition) : Context where
  owner := d.name
  writable := d.members.any isIndexSetter
  indexType? := d.members.findSome? memberIndexType?

end IdlTypings.Conversion
