import IdlTypings.Conversion.Block

/-!
# Definitions

The declarations that a list of definitions becomes. Each definition is converted by itself; what is
not supported is left out and noted.
-/

namespace IdlTypings.Conversion

/-- The declarations of one definition, the main one first. -/
structure Item where
  source : String
  declarations : List Ts.Declaration

/-- A single base without members of its own is an alias of that base. -/
def shape (mode : Mode) (name : String) (bases : List Ts.TypeExpr) (members : List Ts.Member) :
    Ts.Declaration :=
  match bases, members, mode with
  | [base], [], _ => .aliasDecl name base
  | _, _, .ambient => .interfaceDecl name bases members
  | _, _, .runtime => .classDecl name bases members

/-- The global variable of a definition that the window exposes. -/
def windowGlobals (d : Idl.Definition) : List Ts.Declaration :=
  if d.extAttrs.isExposedOn "Window" then [.variableDecl d.name (.name d.name) false] else []

def definitionBlock (mode : Mode) (d : Idl.Definition) : Noted Block :=
  Block.concat <$> Noted.each (memberBlock mode (Context.of d)) d.members

def definitionDeclarations (mode : Mode) (d : Idl.Definition) : Noted (List Ts.Declaration) := do
  let block ← definitionBlock mode d
  let bases := d.inheritance.toList.map Ts.TypeExpr.name ++ block.bases
  return shape mode d.name bases block.members :: windowGlobals d

/-- An interface that merges with the target. -/
def mixinInterface (target mixin : String) : Ts.Declaration :=
  .interfaceDecl target [.name mixin] []

def callbackAlias (name : String) (returns : Idl.TypeExpr) (arguments : List Idl.Argument) :
    Noted Ts.Declaration := do
  let params ← params (some name) arguments
  let returns ← returns.toTs (some name)
  return .aliasDecl name (.function params returns)

def typedefAlias (name : String) (type : Idl.TypeExpr) : Noted Ts.Declaration := do
  let type ← type.toTs (some name)
  return .aliasDecl name type

def item? (mode : Mode) : Idl.Root → Noted (Option Item)
  | .definition _ d => do
      let declarations ← definitionDeclarations mode d
      return some ⟨d.name, declarations⟩
  | .includes target mixin => pure (some ⟨target, [mixinInterface target mixin]⟩)
  | .enumeration name values =>
      pure (some ⟨name, [.aliasDecl name (.union (values.map .stringLiteral))]⟩)
  | .callback name returns arguments => do
      let declaration ← callbackAlias name returns arguments
      return some ⟨name, [declaration]⟩
  | .typedef name type => do
      let declaration ← typedefAlias name type
      return some ⟨name, [declaration]⟩
  | .unsupported _ raw => Noted.skip none (.unsupported .definition none raw)

end IdlTypings.Conversion

namespace IdlTypings

open Conversion

structure Converted where
  items : List Item
  diagnostics : List Diagnostic

def Converted.declarations (c : Converted) : List Ts.Declaration :=
  c.items.flatMap Item.declarations

def convert (mode : Mode) (roots : List Idl.Root) : Converted :=
  let items := Noted.each (item? mode) roots
  ⟨items.result.filterMap id, items.notes⟩

end IdlTypings
