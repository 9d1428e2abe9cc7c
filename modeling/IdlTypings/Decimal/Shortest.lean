/-!
# Shortest decimals

The shortest decimal that reads back as a given binary number.

A positive binary number `m · 2^q` owns an interval of reals that round to it. Among the decimal
grids `10^k` the coarsest one with a point inside that interval is taken, on it the point nearest
to the number, and of two equally near points the even one. Everything is exact arithmetic in
`Nat`.
-/

namespace IdlTypings.Decimal

/-- The positive decimal `digits · 10^exponent`. -/
structure Scientific where
  digits : Nat
  exponent : Int
  deriving DecidableEq, Repr

/-- A positive number `value / scale` with the ends `low / scale` and `high / scale` of the
interval of reals that round to it. The ends belong to it if `closed`. -/
structure Rounding where
  low : Nat
  value : Nat
  high : Nat
  scale : Nat
  closed : Bool
  deriving DecidableEq, Repr

/-- The interval of the number `mantissa · 2^exponent`. A number that is the `smallest` of its
binade has a neighbour below at half the distance. -/
def Rounding.ofBinary (mantissa : Nat) (exponent : Int) (smallest : Bool) : Rounding :=
  let unit := Nat.pow 2 (exponent - 2).toNat
  { low := (4 * mantissa - if smallest then 1 else 2) * unit
    value := 4 * mantissa * unit
    high := (4 * mantissa + 2) * unit
    scale := Nat.pow 2 (2 - exponent).toNat
    closed := mantissa % 2 = 0 }

/-- The same numbers measured in units of `10^exponent`. -/
def Rounding.rescale (r : Rounding) (exponent : Int) : Rounding :=
  let factor := Nat.pow 10 (-exponent).toNat
  { r with
    low := r.low * factor
    value := r.value * factor
    high := r.high * factor
    scale := r.scale * Nat.pow 10 exponent.toNat }

/-- Whether the integer `n` reads back as the number. -/
def Rounding.holds (r : Rounding) (n : Nat) : Bool :=
  if r.closed then
    decide (r.low ≤ n * r.scale ∧ n * r.scale ≤ r.high)
  else
    decide (r.low < n * r.scale ∧ n * r.scale < r.high)

/-- The integer nearest to the number, the even one of two. -/
def Rounding.nearest (r : Rounding) : Nat :=
  let below := r.value / r.scale
  let rest := 2 * (r.value % r.scale)
  if rest < r.scale then below
  else if rest = r.scale then below + below % 2
  else below + 1

/-- An integer that reads back as the number: the nearest one if it does, else its other
neighbour. -/
def Rounding.point? (r : Rounding) : Option Nat :=
  let below := r.value / r.scale
  [r.nearest, below, below + 1].find? r.holds

/-- The first grid with a point that reads back, going down from `10^exponent`. -/
def Rounding.descend (r : Rounding) : Nat → Int → Scientific
  | 0, exponent => ⟨(r.rescale exponent).nearest, exponent⟩
  | steps + 1, exponent =>
      match (r.rescale exponent).point? with
      | some digits => ⟨digits, exponent⟩
      | none => r.descend steps (exponent - 1)

/-- No double reaches `10^309`, and every double has a decimal of at most 17 digits, the last of
them at `10^(-324)` or above. -/
def Rounding.shortest (r : Rounding) : Scientific :=
  r.descend 633 309

/-- The parts of a double. A finite nonzero one is held by its magnitude. -/
inductive Double where
  | zero (negative : Bool)
  | finite (negative : Bool) (magnitude : Rounding)
  | infinite (negative : Bool)
  | nan

/-- The parts of a double, read off its 64 bits: one of sign, eleven of exponent and 52 of
fraction. -/
def Double.ofFloat (x : Float) : Double :=
  let bits : Nat := x.toBits.toNat
  let negative : Bool := bits / Nat.pow 2 63 = 1
  let exponent : Nat := bits / Nat.pow 2 52 % Nat.pow 2 11
  let fraction : Nat := bits % Nat.pow 2 52
  if exponent = Nat.pow 2 11 - 1 then
    if fraction = 0 then .infinite negative else .nan
  else if exponent = 0 then
    if fraction = 0 then .zero negative
    else .finite negative (.ofBinary fraction (-1074) false)
  else
    .finite negative
      (.ofBinary (fraction + Nat.pow 2 52) (exponent - 1075) (fraction = 0 ∧ 1 < exponent))

end IdlTypings.Decimal
