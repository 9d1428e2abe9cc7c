import IdlTypings.Idl.Load

/-!
# The schema of definitions

What a JSON value has to look like to hold definitions, said without reading it: the fields of each
kind of node, their shapes, and which of them may be left out. Any value may stand where a type is
expected, and a node of an unknown kind may have any fields.
-/

namespace IdlTypings.Idl

open Json (Value)

/-! ### Shapes -/

def Anything (_ : Value) : Prop := True

def IsString (value : Value) : Prop := ∃ s, value = .string s

def IsBoolean (value : Value) : Prop := ∃ b, value = .bool b

def OrNull (shape : Value → Prop) (value : Value) : Prop := value = .null ∨ shape value

def ListOf (shape : Value → Prop) (value : Value) : Prop :=
  ∃ items, value = .array items ∧ ∀ item ∈ items, shape item

/-! ### Records -/

structure FieldRule where
  key : String
  shape : Value → Prop
  required : Bool

/-- The field has to be there. -/
def must (key : String) (shape : Value → Prop) : FieldRule := ⟨key, shape, true⟩

/-- The field may be absent. -/
def may (key : String) (shape : Value → Prop) : FieldRule := ⟨key, shape, false⟩

section Rules

variable (key : String) (shape : Value → Prop)

@[simp]
theorem shape_must : (must key shape).shape = shape := rfl

@[simp]
theorem shape_may : (may key shape).shape = shape := rfl

@[simp]
theorem required_must : (must key shape).required = true := rfl

@[simp]
theorem required_may : (may key shape).required = false := rfl

end Rules

def FieldRule.Holds (rule : FieldRule) (fields : List (String × Value)) : Prop :=
  match fields.lookup rule.key with
  | some value => rule.shape value
  | none => rule.required = false

/-- Other fields may be there as well. -/
def Obeys (fields : List (String × Value)) (rules : List FieldRule) : Prop :=
  ∀ rule ∈ rules, rule.Holds fields

section Holds

variable {key : String} {shape : Value → Prop} {fields : List (String × Value)}

theorem holds_must_of_some {value : Value} (h : fields.lookup key = some value) :
    (must key shape).Holds fields ↔ shape value := by
  simp [FieldRule.Holds, must, h]

theorem holds_must_of_none (h : fields.lookup key = none) : ¬(must key shape).Holds fields := by
  simp [FieldRule.Holds, must, h]

theorem holds_may_of_some {value : Value} (h : fields.lookup key = some value) :
    (may key shape).Holds fields ↔ shape value := by
  simp [FieldRule.Holds, may, h]

theorem holds_may_of_none (h : fields.lookup key = none) : (may key shape).Holds fields := by
  simp [FieldRule.Holds, may, h]

theorem obeys_nil : Obeys fields [] := nofun

theorem obeys_cons {rule : FieldRule} {rules : List FieldRule} :
    Obeys fields (rule :: rules) ↔ rule.Holds fields ∧ Obeys fields rules := List.forall_mem_cons

end Holds

/-- The fields stand one after the other, those that may be absent can be left out at the end. -/
def ObeysInOrder : List Value → List FieldRule → Prop
  | [], rules => ∀ rule ∈ rules, rule.required = false
  | _ :: _, [] => False
  | value :: values, rule :: rules => rule.shape value ∧ ObeysInOrder values rules

theorem obeysInOrder_cons {value : Value} {values : List Value} {rule : FieldRule}
    {rules : List FieldRule} :
    ObeysInOrder (value :: values) (rule :: rules) ↔
      rule.shape value ∧ ObeysInOrder values rules := Iff.rfl

/-- Inside a node a record is an object or a list of its fields. -/
def IsRecord (rules : List FieldRule) : Value → Prop
  | .object fields => Obeys fields rules
  | .array items => ObeysInOrder items rules
  | _ => False

def IsArgument : Value → Prop :=
  IsRecord
    [must "name" IsString, must "idlType" Anything, may "optional" IsBoolean,
      may "variadic" IsBoolean]

def IsRightHandSide : Value → Prop := IsRecord [may "value" Anything]

def IsExtAttr : Value → Prop :=
  IsRecord [must "name" IsString, may "rhs" (OrNull IsRightHandSide)]

/-- Unlike other records a value of an enumeration is no list. -/
def IsEnumValue : Value → Prop
  | .string _ => True
  | .object fields => (must "value" IsString).Holds fields
  | _ => False

/-! ### Nodes -/

/-- An object with a known tag has the fields of that tag. Whatever else there is will be kept as
it is. -/
def IsTagged {Tag : Type} (text : Tag → String) (rules : Tag → List FieldRule) (node : Value) :
    Prop :=
  ∀ (fields : List (String × Value)) (tag : Tag),
    node = .object fields → fields.lookup "type" = some (.string (text tag)) →
      Obeys fields (rules tag)

def MemberTag.rules : MemberTag → List FieldRule
  | .attribute =>
      [must "idlType" Anything, must "name" IsString, may "readonly" IsBoolean,
        may "special" (OrNull IsString)]
  | .operation =>
      [may "arguments" (ListOf IsArgument), may "idlType" Anything, may "name" (OrNull IsString),
        may "special" (OrNull IsString)]
  | .construct => [may "arguments" (ListOf IsArgument)]
  | .field => [must "idlType" Anything, must "name" IsString, may "required" IsBoolean]
  | .constant => [must "idlType" Anything, must "name" IsString]
  | .iterable | .setlike | .maplike =>
      [may "async" IsBoolean, must "idlType" (ListOf Anything), may "readonly" IsBoolean]

def IsMember : Value → Prop := IsTagged MemberTag.text MemberTag.rules

def RootTag.rules : RootTag → List FieldRule
  | .eof => []
  | .definition _ =>
      [may "extAttrs" (ListOf IsExtAttr), may "inheritance" (OrNull IsString),
        may "members" (ListOf IsMember), must "name" IsString]
  | .includes => [must "includes" IsString, must "target" IsString]
  | .enumeration => [must "name" IsString, must "values" (ListOf IsEnumValue)]
  | .callback =>
      [may "arguments" (ListOf IsArgument), must "idlType" Anything, must "name" IsString]
  | .typedef => [must "idlType" Anything, must "name" IsString]

def IsRoot : Value → Prop := IsTagged RootTag.text RootTag.rules

end IdlTypings.Idl
