import IdlTypings.Conversion.TypeExpr

/-!
# Null in converted types

A nullable node of a type becomes a union of two members, the second of which is `null`, and nothing
else brings `null` into a converted type. So the unions with `null` can be taken away again without
touching the unions of the program, and there are as many of them as there are flags that count. The
flags of unions and of names for `void` do not count.
-/

namespace IdlTypings.Ts

mutual

/-- Every union of a type and `null` is replaced by the type, at every depth. -/
def TypeExpr.dropNull : TypeExpr → TypeExpr
  | .keyword keyword => .keyword keyword
  | .reference name args => .reference name (TypeExpr.dropNulls args)
  | .union [type, .keyword .null] => type.dropNull
  | .union members => .union (TypeExpr.dropNulls members)
  | .stringLiteral value => .stringLiteral value
  | .tuple elements => .tuple (TypeExpr.dropNulls elements)
  | .function params returns => .function (Param.dropNulls params) returns.dropNull
  | .typeQuery name => .typeQuery name
termination_by structural type => type

def TypeExpr.dropNulls : List TypeExpr → List TypeExpr
  | [] => []
  | type :: rest => type.dropNull :: TypeExpr.dropNulls rest
termination_by structural types => types

def Param.dropNull : Param → Param
  | ⟨name, type, optional, rest⟩ => ⟨name, type.dropNull, optional, rest⟩
termination_by structural param => param

def Param.dropNulls : List Param → List Param
  | [] => []
  | param :: rest => param.dropNull :: Param.dropNulls rest
termination_by structural params => params

end

mutual

/-- How often the keyword `null` stands in a type. -/
def TypeExpr.nullCount : TypeExpr → Nat
  | .keyword keyword => if keyword = .null then 1 else 0
  | .reference _ args => TypeExpr.nullCounts args
  | .union members => TypeExpr.nullCounts members
  | .stringLiteral _ => 0
  | .tuple elements => TypeExpr.nullCounts elements
  | .function params returns => Param.nullCounts params + returns.nullCount
  | .typeQuery _ => 0
termination_by structural type => type

def TypeExpr.nullCounts : List TypeExpr → Nat
  | [] => 0
  | type :: rest => type.nullCount + TypeExpr.nullCounts rest
termination_by structural types => types

def Param.nullCount : Param → Nat
  | ⟨_, type, _, _⟩ => type.nullCount
termination_by structural param => param

def Param.nullCounts : List Param → Nat
  | [] => 0
  | param :: rest => param.nullCount + Param.nullCounts rest
termination_by structural params => params

end

theorem TypeExpr.dropNull_orNull (type : TypeExpr) : type.orNull.dropNull = type.dropNull := rfl

/-- A union whose last member is not the keyword stays a union. -/
theorem TypeExpr.dropNull_union {members : List TypeExpr} (h : TypeExpr.null ∉ members) :
    (TypeExpr.union members).dropNull = .union (TypeExpr.dropNulls members) := by
  rw [dropNull]
  rintro type rfl
  exact h (List.mem_cons_of_mem type (List.mem_singleton_self null))

theorem TypeExpr.nullCount_orNull (type : TypeExpr) :
    type.orNull.nullCount = type.nullCount + 1 := rfl

end IdlTypings.Ts

namespace IdlTypings.Idl

open Conversion

mutual

/-- No node is nullable any more. -/
def TypeExpr.clearNullable : TypeExpr → TypeExpr
  | .named name _ => .named name false
  | .generic head args _ => .generic head (TypeExpr.clearNullables args) false
  | .union members _ => .union (TypeExpr.clearNullables members) false
  | .unsupported raw => .unsupported raw
termination_by structural type => type

def TypeExpr.clearNullables : List TypeExpr → List TypeExpr
  | [] => []
  | type :: rest => type.clearNullable :: TypeExpr.clearNullables rest
termination_by structural types => types

end

/-- What the flag of a node with this name counts for. -/
def nullsOf (name : String) (nullable : Bool) : Nat :=
  if nullable = true ∧ resolve name ≠ "void" then 1 else 0

mutual

/-- The nullable nodes that have a name, other than a name for `void`. -/
def TypeExpr.nullableCount : TypeExpr → Nat
  | .named name nullable => nullsOf name nullable
  | .generic head args nullable => nullsOf head nullable + TypeExpr.nullableCounts args
  | .union members _ => TypeExpr.nullableCounts members
  | .unsupported _ => 0
termination_by structural type => type

def TypeExpr.nullableCounts : List TypeExpr → Nat
  | [] => 0
  | type :: rest => type.nullableCount + TypeExpr.nullableCounts rest
termination_by structural types => types

end

mutual

/-- Types that differ in nothing but flags that do not count, those of unions and those of names for
`void`. -/
inductive DifferIdly : TypeExpr → TypeExpr → Prop where
  | named {name : String} {nullable other : Bool} :
      nullable = other ∨ resolve name = "void" →
      DifferIdly (.named name nullable) (.named name other)
  | generic {head : String} {args others : List TypeExpr} {nullable other : Bool} :
      nullable = other ∨ resolve head = "void" → DifferIdlyEach args others →
      DifferIdly (.generic head args nullable) (.generic head others other)
  | union {members others : List TypeExpr} (nullable other : Bool) :
      DifferIdlyEach members others →
      DifferIdly (.union members nullable) (.union others other)
  | unsupported (raw : Json.Value) : DifferIdly (.unsupported raw) (.unsupported raw)

inductive DifferIdlyEach : List TypeExpr → List TypeExpr → Prop where
  | nil : DifferIdlyEach [] []
  | cons {type other : TypeExpr} {types others : List TypeExpr} :
      DifferIdly type other → DifferIdlyEach types others →
      DifferIdlyEach (type :: types) (other :: others)

end

end IdlTypings.Idl

namespace IdlTypings.Conversion

open Idl (nullsOf)

theorem nameClass_eq_void_iff {resolved : String} :
    NameClass.of resolved = .void ↔ resolved = "void" := by
  constructor
  · intro h
    simp only [NameClass.of] at h
    split at h
    · cases h
    · split at h
      · cases h
      · split at h
        · rename_i hvoid
          exact hvoid
        · cases h
  · rintro rfl
    rfl

theorem dropNull_orNullIf (nullable : Bool) (resolved : String) (type : Ts.TypeExpr) :
    (orNullIf nullable resolved type).dropNull = type.dropNull := by
  unfold orNullIf
  split <;> rfl

theorem nullCount_orNullIf (nullable : Bool) (name : String) (type : Ts.TypeExpr) :
    (orNullIf nullable (resolve name) type).nullCount = nullsOf name nullable + type.nullCount := by
  simp only [orNullIf, nullsOf, ne_eq, nameClass_eq_void_iff]
  split
  · rw [Ts.TypeExpr.nullCount_orNull, Nat.add_comm]
  · rw [Nat.zero_add]

theorem orNullIf_false (resolved : String) (type : Ts.TypeExpr) :
    orNullIf false resolved type = type := by
  rw [orNullIf, if_neg]
  exact fun h => Bool.false_ne_true h.1

theorem orNullIf_eq_of_idle {name : String} {nullable other : Bool}
    (h : nullable = other ∨ resolve name = "void") (type : Ts.TypeExpr) :
    orNullIf nullable (resolve name) type = orNullIf other (resolve name) type := by
  rcases h with rfl | hvoid
  · rfl
  · have hidle : NameClass.of (resolve name) = .void := nameClass_eq_void_iff.mpr hvoid
    simp [orNullIf, hidle]

theorem dropNull_nameClass (nameClass : NameClass) (resolved : String) :
    (nameClass.type resolved).dropNull = nameClass.type resolved := by
  cases nameClass <;> rfl

theorem nullCount_nameClass (nameClass : NameClass) (resolved : String) :
    (nameClass.type resolved).nullCount = 0 := by
  cases nameClass <;> rfl

theorem orNullIf_ne_null {nullable : Bool} {resolved : String} {type : Ts.TypeExpr}
    (h : type ≠ .null) : orNullIf nullable resolved type ≠ .null := by
  unfold orNullIf
  split
  · exact nofun
  · exact h

theorem nameClass_ne_null (nameClass : NameClass) (resolved : String) :
    nameClass.type resolved ≠ .null := by
  cases nameClass <;> exact nofun

end IdlTypings.Conversion

namespace IdlTypings.Idl

open Conversion

/-- The keyword `null` is not the conversion of any type. -/
theorem TypeExpr.result_toTs_ne_null (owner : Option String) (type : TypeExpr) :
    (type.toTs owner).result ≠ .null := by
  cases type with
  | named name nullable => exact orNullIf_ne_null (nameClass_ne_null _ _)
  | generic head args nullable => exact orNullIf_ne_null nofun
  | union members nullable => exact nofun
  | unsupported raw => exact nofun

theorem TypeExpr.result_listToTs (owner : Option String) (types : List TypeExpr) :
    (TypeExpr.listToTs owner types).result = types.map fun type => (type.toTs owner).result := by
  induction types with
  | nil => rfl
  | cons type rest ih => simp [TypeExpr.listToTs, ih]

theorem TypeExpr.null_notMem_listToTs (owner : Option String) (types : List TypeExpr) :
    Ts.TypeExpr.null ∉ (TypeExpr.listToTs owner types).result := by
  rw [TypeExpr.result_listToTs]
  intro hmem
  obtain ⟨type, -, hnull⟩ := List.mem_map.mp hmem
  exact type.result_toTs_ne_null owner hnull

mutual

theorem TypeExpr.dropNull_toTs (owner : Option String) : ∀ type : TypeExpr,
    (type.toTs owner).result.dropNull = (type.clearNullable.toTs owner).result
  | .named name nullable => by
      simp only [TypeExpr.toTs, TypeExpr.clearNullable, Noted.result_pure, dropNull_orNullIf,
        orNullIf_false, dropNull_nameClass]
  | .generic head args nullable => by
      simp only [TypeExpr.toTs, TypeExpr.clearNullable, Noted.result_bind, Noted.result_pure,
        dropNull_orNullIf, orNullIf_false, Ts.TypeExpr.dropNull, dropNulls_listToTs owner args]
  | .union members nullable => by
      simp only [TypeExpr.toTs, TypeExpr.clearNullable, Noted.result_bind, Noted.result_pure]
      rw [Ts.TypeExpr.dropNull_union (TypeExpr.null_notMem_listToTs owner members),
        dropNulls_listToTs owner members]
  | .unsupported raw => rfl
termination_by structural type => type

theorem TypeExpr.dropNulls_listToTs (owner : Option String) : ∀ types : List TypeExpr,
    Ts.TypeExpr.dropNulls (TypeExpr.listToTs owner types).result =
      (TypeExpr.listToTs owner (TypeExpr.clearNullables types)).result
  | [] => rfl
  | type :: rest => by
      simp only [TypeExpr.listToTs, TypeExpr.clearNullables, Noted.result_bind, Noted.result_pure,
        Ts.TypeExpr.dropNulls, dropNull_toTs owner type, dropNulls_listToTs owner rest]
termination_by structural types => types

end

mutual

theorem TypeExpr.nullCount_toTs (owner : Option String) : ∀ type : TypeExpr,
    (type.toTs owner).result.nullCount = type.nullableCount
  | .named name nullable => by
      simp only [TypeExpr.toTs, TypeExpr.nullableCount, Noted.result_pure, nullCount_orNullIf,
        nullCount_nameClass, Nat.add_zero]
  | .generic head args nullable => by
      simp only [TypeExpr.toTs, TypeExpr.nullableCount, Noted.result_bind, Noted.result_pure,
        nullCount_orNullIf, Ts.TypeExpr.nullCount, nullCounts_listToTs owner args]
  | .union members nullable => by
      simp only [TypeExpr.toTs, TypeExpr.nullableCount, Noted.result_bind, Noted.result_pure,
        Ts.TypeExpr.nullCount, nullCounts_listToTs owner members]
  | .unsupported raw => rfl
termination_by structural type => type

theorem TypeExpr.nullCounts_listToTs (owner : Option String) : ∀ types : List TypeExpr,
    Ts.TypeExpr.nullCounts (TypeExpr.listToTs owner types).result = TypeExpr.nullableCounts types
  | [] => rfl
  | type :: rest => by
      simp only [TypeExpr.listToTs, TypeExpr.nullableCounts, Noted.result_bind, Noted.result_pure,
        Ts.TypeExpr.nullCounts, nullCount_toTs owner type, nullCounts_listToTs owner rest]
termination_by structural types => types

end

mutual

theorem DifferIdly.toTs_eq (owner : Option String) : ∀ {type other : TypeExpr},
    DifferIdly type other → other.toTs owner = type.toTs owner
  | _, _, .named h => by
      simp only [TypeExpr.toTs, orNullIf_eq_of_idle h]
  | _, _, .generic h hargs => by
      simp only [TypeExpr.toTs, orNullIf_eq_of_idle h, hargs.listToTs_eq owner]
  | _, _, .union _ _ hmembers => by
      simp only [TypeExpr.toTs, hmembers.listToTs_eq owner]
  | _, _, .unsupported _ => rfl

theorem DifferIdlyEach.listToTs_eq (owner : Option String) : ∀ {types others : List TypeExpr},
    DifferIdlyEach types others → TypeExpr.listToTs owner others = TypeExpr.listToTs owner types
  | _, _, .nil => rfl
  | _, _, .cons h hrest => by
      simp only [TypeExpr.listToTs, h.toTs_eq owner, hrest.listToTs_eq owner]

end

/-- **Nullability.** Taking the unions with `null` out of a converted type gives the conversion of the
type without nullable nodes. The keyword stands in it once for each nullable node that has a name
other than `void`, and the other flags can be changed at will. A union keeps its members, in
order. -/
theorem TypeExpr.toTs_nullability (owner : Option String) (type : TypeExpr) :
    (type.toTs owner).result.dropNull = (type.clearNullable.toTs owner).result ∧
      (type.toTs owner).result.nullCount = type.nullableCount ∧
      (∀ other, DifferIdly type other → other.toTs owner = type.toTs owner) ∧
      (∀ members nullable, type = .union members nullable →
        (type.toTs owner).result = .union (members.map fun member => (member.toTs owner).result)) := by
  refine ⟨type.dropNull_toTs owner, type.nullCount_toTs owner, ?_, ?_⟩
  · intro other h
    exact h.toTs_eq owner
  · rintro members nullable rfl
    rw [← TypeExpr.result_listToTs]
    rfl

/-- `(sequence<Node?>? or undefined?)?` -/
def nodesOrNothing : TypeExpr :=
  .union [.generic "sequence" [.named "Node" true] true, .named "undefined" true] true

theorem toTs_nodesOrNothing :
    DifferIdly nodesOrNothing
        (.union [.generic "sequence" [.named "Node" true] true, .named "undefined" false] false) ∧
      TypeExpr.toTs none
          (.union [.generic "sequence" [.named "Node" true] true, .named "undefined" false] false) =
        nodesOrNothing.toTs none ∧
      (nodesOrNothing.toTs none).result =
        .union [.orNull (.array (.orNull (.name "Node"))), .void] ∧
      (nodesOrNothing.toTs none).result.nullCount = 2 := by
  have hidle : DifferIdly nodesOrNothing
      (.union [.generic "sequence" [.named "Node" true] true, .named "undefined" false] false) := by
    have hnode : DifferIdly (.named "Node" true) (.named "Node" true) := .named (.inl rfl)
    have hnodes : DifferIdly (.generic "sequence" [.named "Node" true] true)
        (.generic "sequence" [.named "Node" true] true) :=
      .generic (.inl rfl) (.cons hnode .nil)
    exact .union _ _ (.cons hnodes (.cons (.named (.inr rfl)) .nil))
  obtain ⟨-, hcount, hflags, hunion⟩ := nodesOrNothing.toTs_nullability none
  exact ⟨hidle, hflags _ hidle, hunion _ _ rfl, hcount⟩

end IdlTypings.Idl
