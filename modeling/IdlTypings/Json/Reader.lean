import IdlTypings.Json.Numeral
import IdlTypings.Json.SyntaxError

/-!
# Reading JSON

Reading JSON text. Each reader takes the unread characters and answers with a value and the
characters after it. Containers may be nested up to a given depth.
-/

namespace IdlTypings.Json

abbrev Reading := Except Failure

abbrev ValueReader := List Char → Reading (Value × List Char)

/-- The fault shows at the first byte of `unread`, or at the end of the text. -/
def faultAt {α : Type} (fault : Fault) (unread : List Char) : Reading α :=
  .error ⟨fault, byteLength unread - 1⟩

/-- The fault shows at the byte before `unread`. -/
def faultBefore {α : Type} (fault : Fault) (unread : List Char) : Reading α :=
  .error ⟨fault, byteLength unread⟩

def isBlank (c : Char) : Bool :=
  c = ' ' || c = '\t' || c = '\n' || c = '\r'

def skipBlank (text : List Char) : List Char :=
  text.dropWhile isBlank

/-- The rest of a word whose first letter was read. -/
def readWord : List Char → List Char → Reading (List Char)
  | [], text => .ok text
  | _ :: _, [] => faultAt .endInValue []
  | letter :: word, c :: rest =>
      if c = letter then readWord word rest else faultAt .expectedIdent (c :: rest)

def hexValue? (c : Char) : Option Nat :=
  if '0' ≤ c ∧ c ≤ '9' then some (c.toNat - '0'.toNat)
  else if 'a' ≤ c ∧ c ≤ 'f' then some (c.toNat - 'a'.toNat + 10)
  else if 'A' ≤ c ∧ c ≤ 'F' then some (c.toNat - 'A'.toNat + 10)
  else none

def hexFour? (a b c d : Char) : Option Nat := do
  let a ← hexValue? a
  let b ← hexValue? b
  let c ← hexValue? c
  let d ← hexValue? d
  return ((a * 16 + b) * 16 + c) * 16 + d

/-- Four bytes are taken before any of them is looked at. -/
def readHexFour (text : List Char) : Reading (Nat × List Char) :=
  if byteLength text < 4 then .error ⟨.endInString, 0⟩
  else
    match text with
    | a :: b :: c :: d :: rest =>
        match hexFour? a b c d with
        | some n => .ok (n, rest)
        | none => .error ⟨.invalidEscape, byteLength text - 4⟩
    | _ => .error ⟨.invalidEscape, byteLength text - 4⟩

def isHighSurrogate (n : Nat) : Bool := 0xd800 ≤ n && n ≤ 0xdbff

def isLowSurrogate (n : Nat) : Bool := 0xdc00 ≤ n && n ≤ 0xdfff

def surrogatePair (high low : Nat) : Char :=
  Char.ofNat ((high - 0xd800) * 0x400 + (low - 0xdc00) + 0x10000)

/-- The second half of a surrogate pair, whose first half was read. -/
def readLowSurrogate (high : Nat) : List Char → Reading Char
  | [] => faultAt .endInString []
  | '\\' :: [] => faultAt .endInString []
  | '\\' :: 'u' :: rest => do
      let (low, after) ← readHexFour rest
      if isLowSurrogate low then return surrogatePair high low
      else faultBefore .loneSurrogate after
  | '\\' :: rest => faultAt .unpairedEscape rest
  | text => faultAt .unpairedEscape text

/-- The character that an escape stands for, and how many characters after the backslash belong
to the escape. -/
def readEscape : List Char → Reading (Char × Nat)
  | [] => faultAt .endInString []
  | '"' :: _ => .ok ('"', 1)
  | '\\' :: _ => .ok ('\\', 1)
  | '/' :: _ => .ok ('/', 1)
  | 'b' :: _ => .ok ('\x08', 1)
  | 'f' :: _ => .ok ('\x0c', 1)
  | 'n' :: _ => .ok ('\n', 1)
  | 'r' :: _ => .ok ('\r', 1)
  | 't' :: _ => .ok ('\t', 1)
  | 'u' :: rest => do
      let (n, after) ← readHexFour rest
      if isLowSurrogate n then faultBefore .loneSurrogate after
      else if isHighSurrogate n then return (← readLowSurrogate n after, 11)
      else return (Char.ofNat n, 5)
  | text => faultAt .invalidEscape text

/-- The characters of a string up to its closing mark. The first `skip` characters belong to an
escape that was read already. -/
def readString : Nat → List Char → Reading (List Char × List Char)
  | _, [] => faultAt .endInString []
  | skip + 1, _ :: rest => readString skip rest
  | 0, c :: rest =>
      if c = '"' then .ok ([], rest)
      else if c = '\\' then
        match readEscape rest with
        | .error e => .error e
        | .ok (escaped, length) =>
            match readString length rest with
            | .error e => .error e
            | .ok (chars, after) => .ok (escaped :: chars, after)
      else if c < ' ' then faultAt .controlCharacter (c :: rest)
      else
        match readString 0 rest with
        | .error e => .error e
        | .ok (chars, after) => .ok (c :: chars, after)

/-- The text goes on with something that no numeral has there. -/
def invalidNumeral {α : Type} : List Char → Reading α
  | [] => faultAt .endInValue []
  | text => faultAt .invalidNumber text

def readDouble (negative : Bool) (n : Scaled) (rest : List Char) : Reading (Number × List Char) :=
  match n.double? with
  | some x => .ok (signedDouble negative x, rest)
  | none => faultBefore .numberOutOfRange rest

/-- The value of the digits of an exponent. If it outgrows a signed word of 32 bits, what follows
the digit that makes it do so. -/
def readMagnitude : Nat → List Char → Except (List Char) (Nat × List Char)
  | magnitude, [] => .ok (magnitude, [])
  | magnitude, c :: rest =>
      if c.isDigit then
        let next := 10 * magnitude + digitValue c
        if next < UInt32.size / 2 then readMagnitude next rest else .error rest
      else .ok (magnitude, c :: rest)

def exponentSign : List Char → Bool × List Char
  | '-' :: rest => (true, rest)
  | '+' :: rest => (false, rest)
  | text => (false, text)

/-- An exponent that is too large makes the number too large or zero. -/
def readExponent (negative : Bool) (n : Scaled) (text : List Char) : Reading (Number × List Char) :=
  let (down, digits) := exponentSign text
  if (digits.takeWhile Char.isDigit).isEmpty then invalidNumeral digits
  else
    match readMagnitude 0 digits with
    | .ok (magnitude, rest) =>
        let shift : Int := if down then -magnitude else magnitude
        readDouble negative { n with exponent := n.exponent + shift } rest
    | .error rest =>
        if n.significand = 0 || down then
          .ok (signedDouble negative 0.0, rest.dropWhile Char.isDigit)
        else faultBefore .numberOutOfRange rest

def readFraction (negative : Bool) (n : Scaled) (text : List Char) : Reading (Number × List Char) :=
  let digits := text.takeWhile Char.isDigit
  if digits.isEmpty then invalidNumeral text
  else
    match text.dropWhile Char.isDigit with
    | 'e' :: rest => readExponent negative (n.withFraction digits) rest
    | 'E' :: rest => readExponent negative (n.withFraction digits) rest
    | rest => readDouble negative (n.withFraction digits) rest

/-- What follows the digits before the point. -/
def readAfterWhole (negative : Bool) (n : Scaled) : List Char → Reading (Number × List Char)
  | '.' :: rest => readFraction negative n rest
  | 'e' :: rest => readExponent negative n rest
  | 'E' :: rest => readExponent negative n rest
  | rest =>
      if n.exponent = 0 then .ok (.ofMagnitude negative n.significand, rest)
      else readDouble negative n rest

/-- A numeral without its sign. A zero at its start is followed by no further digit. -/
def readNumber (negative : Bool) (text : List Char) : Reading (Number × List Char) :=
  match text with
  | '0' :: rest =>
      if (rest.takeWhile Char.isDigit).isEmpty then readAfterWhole negative ⟨0, 0⟩ rest
      else faultAt .invalidNumber rest
  | _ =>
      let digits := text.takeWhile Char.isDigit
      if digits.isEmpty then invalidNumeral text
      else readAfterWhole negative (.ofWhole digits) (text.dropWhile Char.isDigit)

/-- The items after the first one. There are at most `fuel` of them. -/
def readItems (readItem : ValueReader) :
    Nat → List Char → Reading (List Value × List Char)
  | 0, text => faultAt .endInList text
  | fuel + 1, text =>
      match skipBlank text with
      | [] => faultAt .endInList []
      | ']' :: rest => .ok ([], rest)
      | ',' :: rest =>
          match skipBlank rest with
          | [] => faultAt .endInValue []
          | ']' :: after => faultAt .trailingComma (']' :: after)
          | start => do
              let (item, rest) ← readItem start
              let (items, rest) ← readItems readItem fuel rest
              return (item :: items, rest)
      | found => faultAt .expectedCommaOrBracket found

/-- The items of an array whose bracket was read. -/
def readArray (readItem : ValueReader) (text : List Char) :
    Reading (List Value × List Char) :=
  match skipBlank text with
  | [] => faultAt .endInList []
  | ']' :: rest => .ok ([], rest)
  | start => do
      let (item, rest) ← readItem start
      let (items, rest) ← readItems readItem (rest.length + 1) rest
      return (item :: items, rest)

/-- A field whose opening quotation mark was read. -/
def readField (readItem : ValueReader) (text : List Char) :
    Reading ((String × Value) × List Char) := do
  let (key, rest) ← readString 0 text
  match skipBlank rest with
  | [] => faultAt .endInObject []
  | ':' :: rest =>
      let (value, rest) ← readItem rest
      return ((String.ofList key, value), rest)
  | found => faultAt .expectedColon found

/-- The fields after the first one. There are at most `fuel` of them. -/
def readFields (readItem : ValueReader) :
    Nat → List Char → Reading (List (String × Value) × List Char)
  | 0, text => faultAt .endInObject text
  | fuel + 1, text =>
      match skipBlank text with
      | [] => faultAt .endInObject []
      | '\x7d' :: rest => .ok ([], rest)
      | ',' :: rest =>
          match skipBlank rest with
          | [] => faultAt .endInValue []
          | '"' :: start => do
              let (field, rest) ← readField readItem start
              let (fields, rest) ← readFields readItem fuel rest
              return (field :: fields, rest)
          | '\x7d' :: after => faultAt .trailingComma ('\x7d' :: after)
          | found => faultAt .keyNotString found
      | found => faultAt .expectedCommaOrBrace found

/-- The fields of an object whose brace was read, in the order of the text. -/
def readObject (readItem : ValueReader) (text : List Char) :
    Reading (List (String × Value) × List Char) :=
  match skipBlank text with
  | [] => faultAt .endInObject []
  | '\x7d' :: rest => .ok ([], rest)
  | '"' :: start => do
      let (field, rest) ← readField readItem start
      let (fields, rest) ← readFields readItem (rest.length + 1) rest
      return (field :: fields, rest)
  | found => faultAt .keyNotString found

/-- The value at the start of the text, blanks before it skipped, with at most `depth` containers
around any part of it. -/
def readValue : Nat → ValueReader
  | depth, text =>
      match skipBlank text with
      | [] => faultAt .endInValue []
      | 'n' :: rest => return (.null, ← readWord ['u', 'l', 'l'] rest)
      | 't' :: rest => return (.bool true, ← readWord ['r', 'u', 'e'] rest)
      | 'f' :: rest => return (.bool false, ← readWord ['a', 'l', 's', 'e'] rest)
      | '-' :: rest => do
          let (number, rest) ← readNumber true rest
          return (.number number, rest)
      | '"' :: rest => do
          let (chars, rest) ← readString 0 rest
          return (.string (String.ofList chars), rest)
      | '[' :: rest =>
          match depth with
          | 0 => faultAt .tooDeep ('[' :: rest)
          | depth + 1 => do
              let (items, rest) ← readArray (readValue depth) rest
              return (.array items, rest)
      | '\x7b' :: rest =>
          match depth with
          | 0 => faultAt .tooDeep ('\x7b' :: rest)
          | depth + 1 => do
              let (fields, rest) ← readObject (readValue depth) rest
              return (.ofFields fields, rest)
      | c :: rest =>
          if c.isDigit then do
            let (number, rest) ← readNumber false (c :: rest)
            return (.number number, rest)
          else faultAt .expectedValue (c :: rest)

def readDocument (depth : Nat) (text : List Char) : Reading Value := do
  let (value, rest) ← readValue depth text
  match skipBlank rest with
  | [] => return value
  | found => faultAt .trailingCharacters found

/-- Reads a text that holds one value and blanks. -/
def parse (depth : Nat) (text : String) : Except SyntaxError Value :=
  match readDocument depth text.toList with
  | .ok value => .ok value
  | .error failure => .error (failure.locate text.toList)

/-- Containers are nested at most this deep in a text of definitions. -/
def depthLimit : Nat := 127

end IdlTypings.Json
