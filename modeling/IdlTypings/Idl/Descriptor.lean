import IdlTypings.Idl.Decoding
import IdlTypings.Idl.TypeExpr

/-!
# Type descriptors

Types as a parser describes them: the head of a generic, whether the type is nullable or a union,
and a name or a list of types.
-/

namespace IdlTypings.Idl

open Json (Value)

structure Descriptor where
  head : String
  nullable : Bool
  isUnion : Bool
  inner : Value
  deriving Inhabited

def Descriptor.ofFields (fields : List (String × Value)) : Decoding Descriptor := do
  let head ← field? fields "generic" Decoder.string
  let inner ← field? fields "idlType" Decoder.any
  let nullable ← field? fields "nullable" Decoder.boolean
  let isUnion ← field? fields "union" Decoder.boolean
  let inner ← require "idlType" inner
  return ⟨head.getD "", nullable.getD false, isUnion.getD false, inner⟩

def Descriptor.ofItems (head nullable isUnion inner : Value) : Decoding Descriptor := do
  let head ← Decoder.string head
  let nullable ← Decoder.boolean nullable
  let isUnion ← Decoder.boolean isUnion
  return ⟨head, nullable, isUnion, inner⟩

/-- The type of a descriptor whose inner list holds the types `parts`. -/
def Descriptor.type? (d : Descriptor) (parts : List TypeExpr) : Option TypeExpr :=
  match d.inner, d.isUnion, d.head.isEmpty with
  | .array _, true, _ => some (.union parts d.nullable)
  | .array _, false, false => some (.generic d.head parts d.nullable)
  | .string name, false, true => some (.named name d.nullable)
  | _, _, _ => none

/-- Falls back on the raw value where it describes no type. -/
def TypeExpr.ofDescriptor (raw : Value) (descriptor : Decoding Descriptor)
    (parts : List TypeExpr) : TypeExpr :=
  match descriptor with
  | .ok d => (d.type? parts).getD (.unsupported raw)
  | .error _ => .unsupported raw

mutual

def TypeExpr.ofValue : Value → TypeExpr
  | .object fields =>
      .ofDescriptor (.object fields) (Descriptor.ofFields fields) (typesInFields fields)
  | .array [head, nullable, isUnion, inner] =>
      .ofDescriptor (.array [head, nullable, isUnion, inner])
        (Descriptor.ofItems head nullable isUnion inner) (typesIn inner)
  | raw => .unsupported raw
termination_by structural value => value

/-- The types of the list under the key `idlType`. -/
def typesInFields : List (String × Value) → List TypeExpr
  | [] => []
  | (key, value) :: rest => if key = "idlType" then typesIn value else typesInFields rest
termination_by structural fields => fields

def typesIn : Value → List TypeExpr
  | .array items => typesOfItems items
  | _ => []
termination_by structural value => value

def typesOfItems : List Value → List TypeExpr
  | [] => []
  | item :: rest => TypeExpr.ofValue item :: typesOfItems rest
termination_by structural items => items

end

end IdlTypings.Idl
