/-!
# JSON values

JSON values. The fields of an object stand in ascending order of their keys, each key once:
`insertField` keeps that order and lets the last value of a key win.
-/

namespace IdlTypings.Json

/-- Integers and doubles are different numbers, even where they are equal in size. -/
inductive Number where
  | integer (value : Int)
  | double (value : Float)
  deriving BEq, Inhabited

inductive Value where
  | null
  | bool (value : Bool)
  | number (value : Number)
  | string (value : String)
  | array (items : List Value)
  | object (fields : List (String × Value))
  deriving Inhabited

mutual

def Value.beq : Value → Value → Bool
  | .null, .null => true
  | .bool a, .bool b => a == b
  | .number a, .number b => a == b
  | .string a, .string b => a == b
  | .array as, .array bs => Value.beqItems as bs
  | .object as, .object bs => Value.beqFields as bs
  | _, _ => false
termination_by structural value => value

def Value.beqItems : List Value → List Value → Bool
  | [], [] => true
  | a :: as, b :: bs => a.beq b && Value.beqItems as bs
  | _, _ => false
termination_by structural items => items

def Value.beqFields : List (String × Value) → List (String × Value) → Bool
  | [], [] => true
  | (j, a) :: as, (k, b) :: bs => j == k && a.beq b && Value.beqFields as bs
  | _, _ => false
termination_by structural fields => fields

end

instance : BEq Value := ⟨Value.beq⟩

/-- Keys are compared character by character, which is also the order of their UTF-8 bytes. -/
def insertField (key : String) (value : Value) : List (String × Value) → List (String × Value)
  | [] => [(key, value)]
  | (k, v) :: rest =>
      if key < k then (key, value) :: (k, v) :: rest
      else if key = k then (key, value) :: rest
      else (k, v) :: insertField key value rest

/-- The fields given in writing order, as an object holds them. -/
def Value.ofFields (fields : List (String × Value)) : Value :=
  .object (fields.foldl (fun object (key, value) => insertField key value object) [])

/-- The field of an object. No other value has fields. -/
def Value.field? (key : String) : Value → Option Value
  | .object fields => fields.lookup key
  | _ => none

def Value.asString? : Value → Option String
  | .string s => some s
  | _ => none

end IdlTypings.Json
