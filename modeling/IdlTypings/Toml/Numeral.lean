import IdlTypings.Toml.Text
import IdlTypings.Toml.Value

/-!
# Numbers, dates and times of TOML
-/

namespace IdlTypings.Toml

open Json (digitValue hexValue?)

/-- Digits with single underscores between them, which are dropped. -/
def digitsTail (isDigit : Char → Bool) : Scan (List Char)
  | [] => some ([], [])
  | ['_'] => none
  | '_' :: c :: rest =>
      if isDigit c then prepend c (digitsTail isDigit rest) else none
  | c :: rest =>
      if isDigit c then prepend c (digitsTail isDigit rest) else some ([], c :: rest)

def digits (isDigit : Char → Bool) : Scan (List Char)
  | [] => none
  | c :: rest => if isDigit c then prepend c (digitsTail isDigit rest) else none

def natOf (base : Nat) (digits : List Char) : Nat :=
  digits.foldl (fun n c => base * n + (hexValue? c).getD 0) 0

/-- Integers are signed words of 64 bits. -/
def word? (n : Int) : Option Int :=
  if Int64.minValue.toInt ≤ n ∧ n ≤ Int64.maxValue.toInt then some n else none

def isOctal (c : Char) : Bool := '0' ≤ c && c ≤ '7'

def isBinary (c : Char) : Bool := c = '0' || c = '1'

def isHex (c : Char) : Bool := (hexValue? c).isSome

def radixInteger (base : Nat) (isDigit : Char → Bool) (text : List Char) :
    Option (Value × List Char) := do
  let (digits, rest) ← digits isDigit text
  let n ← word? (natOf base digits)
  return (.integer n, rest)

/-- A sign, if there is one, and whether it is a minus. -/
def sign : List Char → Bool × List Char
  | '-' :: rest => (true, rest)
  | '+' :: rest => (false, rest)
  | text => (false, text)

/-- The digits of a decimal integer. A zero at its start is its only digit. -/
def wholeDigits : Scan (List Char)
  | '0' :: rest => some (['0'], rest)
  | text => digits Char.isDigit text

def fractionDigits : Scan (List Char)
  | '.' :: rest => digits Char.isDigit rest
  | _ => none

def exponentValue (text : List Char) : Option (Int × List Char) := do
  let (down, text) := sign text
  let (digits, rest) ← digits Char.isDigit text
  let n : Int := natOf 10 digits
  return (if down then -n else n, rest)

/-- The exponent, if there is one. -/
def optionalExponent : List Char → Option (Option Int × List Char)
  | 'e' :: rest => (exponentValue rest).map (Prod.map some id)
  | 'E' :: rest => (exponentValue rest).map (Prod.map some id)
  | text => some (none, text)

/-- The double nearest to `digits · 10^exponent`. Far outside the range of doubles it is zero or
infinite. -/
def nearestDouble (digits : List Char) (exponent : Int) : Float :=
  let mantissa := natOf 10 digits
  let leading := exponent + digits.length
  if mantissa = 0 ∨ leading < -400 then 0.0
  else if exponent < 0 then Float.ofScientific mantissa true exponent.natAbs
  else if 400 < exponent then 1.0 / 0.0
  else Float.ofScientific mantissa false exponent.natAbs

/-- Only a number below the range of doubles may become infinite. -/
def float? (negative : Bool) (digits : List Char) (exponent : Int) : Option Value :=
  let magnitude := nearestDouble digits exponent
  if negative then some (.float (-magnitude))
  else if magnitude.isInf then none
  else some (.float magnitude)

/-- A decimal integer, or a float if it goes on with a fraction or an exponent. -/
def decimal (negative : Bool) (text : List Char) : Option (Value × List Char) := do
  let (whole, rest) ← wholeDigits text
  let (fraction, rest) ←
    match rest with
    | '.' :: _ => (fractionDigits rest).map (Prod.map some id)
    | _ => some (none, rest)
  let (exponent, rest) ← optionalExponent rest
  if fraction.isNone ∧ exponent.isNone then
    let n : Int := natOf 10 whole
    let n ← word? (if negative then -n else n)
    return (.integer n, rest)
  else
    let fraction := fraction.getD []
    let value ← float? negative (whole ++ fraction) (exponent.getD 0 - fraction.length)
    return (value, rest)

/-- A number that is no date: in another base, infinite, undefined or decimal. -/
def number : Scan Value
  | '0' :: 'x' :: rest => radixInteger 16 isHex rest
  | '0' :: 'o' :: rest => radixInteger 8 isOctal rest
  | '0' :: 'b' :: rest => radixInteger 2 isBinary rest
  | text =>
      match sign text with
      | (negative, 'i' :: 'n' :: 'f' :: rest) =>
          some (.float (if negative then -1.0 / 0.0 else 1.0 / 0.0), rest)
      | (_, 'n' :: 'a' :: 'n' :: rest) => some (.float (0.0 / 0.0), rest)
      | (negative, rest) => decimal negative rest

def twoDigits : Scan Nat
  | a :: b :: rest =>
      if a.isDigit && b.isDigit then some (10 * digitValue a + digitValue b, rest) else none
  | _ => none

/-- Two digits within bounds. -/
def twoDigitsWithin (least greatest : Nat) (text : List Char) : Option (Nat × List Char) := do
  let (n, rest) ← twoDigits text
  if least ≤ n ∧ n ≤ greatest then some (n, rest) else none

def expectChar (c : Char) : List Char → Option (List Char)
  | [] => none
  | first :: rest => if first = c then some rest else none

def daysInMonth (year month : Nat) : Nat :=
  if month = 2 then
    if year % 4 = 0 ∧ (year % 100 ≠ 0 ∨ year % 400 = 0) then 29 else 28
  else if month ∈ [4, 6, 9, 11] then 30
  else 31

/-- What follows a date `yyyy-mm-dd`. -/
def afterDate (text : List Char) : Option (List Char) := do
  let (century, rest) ← twoDigits text
  let (year, rest) ← twoDigits rest
  let rest ← expectChar '-' rest
  let (month, rest) ← twoDigitsWithin 1 12 rest
  let rest ← expectChar '-' rest
  let (_, rest) ← twoDigitsWithin 1 (daysInMonth (100 * century + year) month) rest
  return rest

/-- What follows the part of a second, if there is one. -/
def afterSecondPart : List Char → Option (List Char)
  | '.' :: c :: rest => if c.isDigit then some (rest.dropWhile Char.isDigit) else none
  | '.' :: _ => none
  | text => some text

/-- What follows a time `hh:mm:ss`. -/
def afterTime (text : List Char) : Option (List Char) := do
  let (_, rest) ← twoDigitsWithin 0 23 text
  let rest ← expectChar ':' rest
  let (_, rest) ← twoDigitsWithin 0 59 rest
  let rest ← expectChar ':' rest
  let (_, rest) ← twoDigitsWithin 0 60 rest
  afterSecondPart rest

/-- What follows the offset `hh:mm` of a time zone. -/
def afterOffsetDigits (text : List Char) : Option (List Char) := do
  let (_, rest) ← twoDigitsWithin 0 23 text
  let rest ← expectChar ':' rest
  let (_, rest) ← twoDigitsWithin 0 59 rest
  return rest

/-- What follows a time zone, if there is one. -/
def afterOffset (text : List Char) : Option (List Char) :=
  match text with
  | 'Z' :: rest => some rest
  | 'z' :: rest => some rest
  | '+' :: rest => afterOffsetDigits rest
  | '-' :: rest => afterOffsetDigits rest
  | _ => some text

def isTimeMark (c : Char) : Bool :=
  c = 'T' || c = 't' || c = ' '

/-- What follows a date with or without a time, or a time. -/
def afterDatetime (text : List Char) : Option (List Char) :=
  match afterDate text with
  | some rest =>
      match rest with
      | [] => some rest
      | mark :: time =>
          match if isTimeMark mark then afterTime time else none with
          | some rest => afterOffset rest
          | none => some rest
  | none => afterTime text

/-- A date, a time or a number. -/
def numeral (text : List Char) : Option (Value × List Char) :=
  match afterDatetime text with
  | some rest =>
      some (.datetime (String.ofList (text.take (text.length - rest.length))), rest)
  | none => number text

end IdlTypings.Toml
