import IdlTypings.Json.Value

/-!
# Types of interface definitions

Types as an interface definition writes them: `DOMString?`, `sequence<long>`, `(A or B)`.
-/

namespace IdlTypings.Idl

open Json (Value)

/-- A description that is none of the three known forms is kept as it was found. -/
inductive TypeExpr where
  | named (name : String) (nullable : Bool)
  | generic (head : String) (args : List TypeExpr) (nullable : Bool)
  | union (members : List TypeExpr) (nullable : Bool)
  | unsupported (raw : Value)
  deriving Inhabited

mutual

def TypeExpr.beq : TypeExpr → TypeExpr → Bool
  | .named m p, .named n q => m == n && p == q
  | .generic m as p, .generic n bs q => m == n && TypeExpr.beqList as bs && p == q
  | .union as p, .union bs q => TypeExpr.beqList as bs && p == q
  | .unsupported a, .unsupported b => a == b
  | _, _ => false
termination_by structural type => type

def TypeExpr.beqList : List TypeExpr → List TypeExpr → Bool
  | [], [] => true
  | a :: as, b :: bs => a.beq b && TypeExpr.beqList as bs
  | _, _ => false
termination_by structural types => types

end

instance : BEq TypeExpr := ⟨TypeExpr.beq⟩

/-- Whether this is the named type `name`, nullable or not. -/
def TypeExpr.isNamed (name : String) : TypeExpr → Bool
  | .named n _ => n == name
  | _ => false

end IdlTypings.Idl
