import IdlTypings.Decimal.Layout
import IdlTypings.Json.Value

/-!
# Numerals

The value of a numeral and the text of a number.

A numeral without fraction and exponent is an integer if it fits a signed or an unsigned word of 64
bits. Every other numeral is a double, found in two roundings: its leading digits as far as they
fit 64 bits are rounded to a double, which is then multiplied or divided by the double nearest to a
power of ten.
-/

namespace IdlTypings.Json

def wordLimit : Nat := UInt64.size

def digitValue (c : Char) : Nat := c.toNat - '0'.toNat

/-- `significand · 10^exponent`. -/
structure Scaled where
  significand : Nat
  exponent : Int
  deriving DecidableEq, Repr

/-- A digit before the point. Once a digit has been dropped, so are the others of the whole part,
and each of them raises the exponent. -/
def Scaled.wholeDigit (n : Scaled) (c : Char) : Scaled :=
  let next := 10 * n.significand + digitValue c
  if n.exponent = 0 ∧ next < wordLimit then { n with significand := next }
  else { n with exponent := n.exponent + 1 }

def Scaled.ofWhole (digits : List Char) : Scaled :=
  digits.foldl Scaled.wholeDigit ⟨0, 0⟩

/-- The digits after the point, as far as they fit. -/
def Scaled.withFraction (n : Scaled) : List Char → Scaled
  | [] => n
  | c :: rest =>
      let next := 10 * n.significand + digitValue c
      if next < wordLimit then
        Scaled.withFraction ⟨next, n.exponent - 1⟩ rest
      else n

def powerOfTen (n : Nat) : Float := Float.ofScientific 1 false n

/-- `x · 10^exponent` in steps of at most 308 places, or nothing if that is no finite double. -/
def scale? (x : Float) (exponent : Int) : Option Float :=
  if exponent.natAbs ≤ 308 then
    if 0 ≤ exponent then
      let y := x * powerOfTen exponent.natAbs
      if y.isInf then none else some y
    else some (x / powerOfTen exponent.natAbs)
  else if x == 0.0 then some x
  else if 0 ≤ exponent then none
  else scale? (x / powerOfTen 308) (exponent + 308)
termination_by exponent.natAbs
decreasing_by omega

def Scaled.double? (n : Scaled) : Option Float :=
  scale? (Float.ofNat n.significand) n.exponent

def signedDouble (negative : Bool) (magnitude : Float) : Number :=
  .double (if negative then -magnitude else magnitude)

/-- The integer with this sign and magnitude. There is no integer `-0`, and the least one is
`-2^63`. -/
def Number.ofMagnitude (negative : Bool) (magnitude : Nat) : Number :=
  if !negative then .integer magnitude
  else if magnitude = 0 ∨ wordLimit / 2 < magnitude then signedDouble true (Float.ofNat magnitude)
  else .integer (-magnitude)

/-- Doubles are positional from `0.00001` to just below `1e+16`. -/
def doubleLayout : Decimal.Layout := .positionalWithin (-5) 16

def Number.text : Number → String
  | .integer n => toString n
  | .double x => (Decimal.Double.ofFloat x).text doubleLayout

end IdlTypings.Json
