import IdlTypings.Toml.Item
import IdlTypings.Toml.Numeral

/-!
# Values of TOML

Arrays and inline tables are nested to a limited depth.
-/

namespace IdlTypings.Toml

def word (letters : List Char) (value : Value) (text : List Char) : Option (Value × List Char) :=
  if letters.isPrefixOf text then some (value, text.drop letters.length) else none

/-- The items of an array up to its bracket; a comma may follow the last one. There are at most
`fuel` of them. -/
def arrayItems (readItem : Scan Value) : Nat → Scan (List Value)
  | 0, _ => none
  | fuel + 1, text => do
      let text ← skipTrivia false text
      match text with
      | ']' :: rest => some ([], rest)
      | _ => do
          let (item, rest) ← readItem text
          let rest ← skipTrivia false rest
          match rest with
          | ']' :: rest => some ([item], rest)
          | ',' :: rest => do
              let (items, rest) ← arrayItems readItem fuel rest
              return (item :: items, rest)
          | _ => none

/-- A key with its value. -/
def keyValue (readItem : Scan Value) (text : List Char) :
    Option ((List String × Value) × List Char) := do
  let (parts, rest) ← key text
  let rest ← expectChar '=' rest
  let (value, rest) ← readItem (skipBlank rest)
  return ((parts, value), rest)

/-- The entries of an inline table up to its brace, none of them followed by a comma alone. There
are at most `fuel` of them. -/
def inlineEntries (readItem : Scan Value) (entries : Entries) :
    Nat → List Char → Option (Entries × List Char)
  | 0, _ => none
  | fuel + 1, text => do
      let ((parts, value), rest) ← keyValue readItem text
      let entries ← Entries.add parts value entries
      match skipBlank rest with
      | '\x7d' :: rest => some (entries, rest)
      | ',' :: rest => inlineEntries readItem entries fuel rest
      | _ => none

def inlineTable (readItem : Scan Value) (text : List Char) : Option (Value × List Char) :=
  match skipBlank text with
  | '\x7d' :: rest => some (.table [], rest)
  | _ => do
      let (entries, rest) ← inlineEntries readItem [] (text.length + 1) text
      return (.table (freezeEntries entries), rest)

/-- A value with at most `depth` containers around any part of it. -/
def value : Nat → Scan Value
  | depth, text =>
      match text with
      | '"' :: _ => (stringValue text).map (Prod.map .string id)
      | '\'' :: _ => (stringValue text).map (Prod.map .string id)
      | 't' :: _ => word ['t', 'r', 'u', 'e'] (.boolean true) text
      | 'f' :: _ => word ['f', 'a', 'l', 's', 'e'] (.boolean false) text
      | '[' :: rest =>
          match depth with
          | 0 => none
          | depth + 1 => do
              let (items, rest) ← arrayItems (value depth) (rest.length + 1) rest
              return (.array items, rest)
      | '\x7b' :: rest =>
          match depth with
          | 0 => none
          | depth + 1 => inlineTable (value depth) rest
      | _ => numeral text

def depthLimit : Nat := 79

end IdlTypings.Toml
