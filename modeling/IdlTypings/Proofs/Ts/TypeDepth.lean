import IdlTypings.Ts.TypeExpr

/-!
# How deep types are

The depth of a type, counted in nodes. Among the parts of a function are the types of its parameters
and the type that it returns.
-/

namespace IdlTypings.Ts

mutual

/-- How many nodes there are on the longest path from the root of a type to a leaf. -/
def TypeExpr.depth : TypeExpr → Nat
  | .keyword _ => 1
  | .reference _ args => typesDepth args + 1
  | .union members => typesDepth members + 1
  | .stringLiteral _ => 1
  | .tuple elements => typesDepth elements + 1
  | .function params returns => max (paramsDepth params) returns.depth + 1
  | .typeQuery _ => 1
termination_by structural type => type

def typesDepth : List TypeExpr → Nat
  | [] => 0
  | type :: rest => max type.depth (typesDepth rest)
termination_by structural types => types

def Param.depth : Param → Nat
  | ⟨_, type, _, _⟩ => type.depth
termination_by structural param => param

def paramsDepth : List Param → Nat
  | [] => 0
  | param :: rest => max param.depth (paramsDepth rest)
termination_by structural params => params

end

theorem TypeExpr.depth_pos (type : TypeExpr) : 0 < type.depth := by
  cases type <;> exact Nat.succ_pos _

theorem Param.depth_eq (param : Param) : param.depth = param.type.depth := by
  cases param
  rfl

theorem depth_le_typesDepth {type : TypeExpr} {types : List TypeExpr} (h : type ∈ types) :
    type.depth ≤ typesDepth types := by
  induction types with
  | nil => cases h
  | cons first rest ih =>
      rw [typesDepth]
      obtain rfl | hrest := List.mem_cons.mp h
      · exact Nat.le_max_left _ _
      · exact Nat.le_trans (ih hrest) (Nat.le_max_right _ _)

theorem depth_le_paramsDepth {param : Param} {params : List Param} (h : param ∈ params) :
    param.type.depth ≤ paramsDepth params := by
  induction params with
  | nil => cases h
  | cons first rest ih =>
      rw [paramsDepth, Param.depth_eq]
      obtain rfl | hrest := List.mem_cons.mp h
      · exact Nat.le_max_left _ _
      · exact Nat.le_trans (ih hrest) (Nat.le_max_right _ _)

theorem TypeExpr.depth_orNull (type : TypeExpr) : type.orNull.depth = type.depth + 1 := by
  have hpos := type.depth_pos
  change max type.depth (max 1 0) + 1 = type.depth + 1
  omega

end IdlTypings.Ts
