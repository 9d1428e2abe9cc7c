import IdlTypings.Json.Escape
import IdlTypings.Json.Numeral

/-!
# Indented JSON

JSON text on many lines: one item or field a line, two blanks of indentation for each container
around it, and empty containers without a line of their own.
-/

namespace IdlTypings.Json

def lineBreak (depth : Nat) : String :=
  String.ofList ('\n' :: List.replicate (2 * depth) ' ')

mutual

def Value.pretty (depth : Nat) : Value → String
  | .null => "null"
  | .bool true => "true"
  | .bool false => "false"
  | .number n => n.text
  | .string s => quote s
  | .array [] => "[]"
  | .array (item :: items) =>
      "[" ++ lineBreak (depth + 1) ++ item.pretty (depth + 1) ++
        Value.prettyItems (depth + 1) items ++ lineBreak depth ++ "]"
  | .object [] => "\x7b\x7d"
  | .object ((key, value) :: fields) =>
      "\x7b" ++ lineBreak (depth + 1) ++ quote key ++ ": " ++ value.pretty (depth + 1) ++
        Value.prettyFields (depth + 1) fields ++ lineBreak depth ++ "\x7d"
termination_by structural value => value

/-- The items after the first one. -/
def Value.prettyItems (depth : Nat) : List Value → String
  | [] => ""
  | item :: items =>
      "," ++ lineBreak depth ++ item.pretty depth ++ Value.prettyItems depth items
termination_by structural items => items

/-- The fields after the first one. -/
def Value.prettyFields (depth : Nat) : List (String × Value) → String
  | [] => ""
  | (key, value) :: fields =>
      "," ++ lineBreak depth ++ quote key ++ ": " ++ value.pretty depth ++
        Value.prettyFields depth fields
termination_by structural fields => fields

end

def Value.dump (v : Value) : String := v.pretty 0

end IdlTypings.Json
