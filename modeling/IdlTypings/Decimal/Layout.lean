import IdlTypings.Decimal.Shortest

/-!
# Text of doubles

How a double is written: its shortest digits, positional or with an exponent.
-/

namespace IdlTypings.Decimal

/-- Which numbers are written positionally: those whose first digit stands at a power of ten from
`least` up to but not including `limit`, or all of them. -/
inductive Layout where
  | positionalWithin (least limit : Int)
  | positional

def Layout.isPositional : Layout → Int → Bool
  | .positionalWithin least limit, leading => least ≤ leading && leading < limit
  | .positional, _ => true

/-- Digits with a point, which always has a digit on both sides. `leading` is the power of ten of
the first digit. -/
def positionalText (digits : List Char) (leading : Int) : List Char :=
  if leading < 0 then
    ['0', '.'] ++ List.replicate (-leading - 1).toNat '0' ++ digits
  else
    let whole := leading.toNat + 1
    let fraction := digits.drop whole
    digits.take whole ++ List.replicate (whole - digits.length) '0' ++ ['.'] ++
      if fraction.isEmpty then ['0'] else fraction

/-- One digit, the others after a point, and a signed exponent. -/
def exponentText (digits : List Char) (leading : Int) : List Char :=
  let fraction := digits.drop 1
  digits.take 1 ++ (if fraction.isEmpty then [] else '.' :: fraction) ++ ['e'] ++
    [if leading < 0 then '-' else '+'] ++ Nat.toDigits 10 leading.natAbs

def Scientific.text (layout : Layout) (d : Scientific) : List Char :=
  let digits := Nat.toDigits 10 d.digits
  let leading := d.exponent + digits.length - 1
  if layout.isPositional leading then positionalText digits leading
  else exponentText digits leading

def signed (negative : Bool) (text : List Char) : String :=
  String.ofList (if negative then '-' :: text else text)

def Double.text (layout : Layout) : Double → String
  | .zero negative => signed negative ['0', '.', '0']
  | .finite negative magnitude => signed negative (magnitude.shortest.text layout)
  | .infinite negative => signed negative ['i', 'n', 'f']
  | .nan => "NaN"

end IdlTypings.Decimal
