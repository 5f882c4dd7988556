/-! Doubles from decimal digits and a power of ten. -/

namespace Schematron.Decimal

def isDigit (char : Char) : Bool := '0' ≤ char && char ≤ '9'

def digitsValue (digits : List Char) : Nat :=
  digits.foldl (fun value digit => value * 10 + (digit.toNat - 48)) 0

def infinity : Float := 1.0 / 0.0

-- Powers of ten beyond which every double is zero or infinite.
def farExponent : Int := 400

def ofScientific (digits : List Char) (exponent : Int) : Float :=
  let significant := digits.dropWhile (· == '0')
  let magnitude := exponent + significant.length
  if significant.isEmpty || magnitude < -farExponent then 0.0
  else if farExponent < magnitude then infinity
  else Float.ofScientific (digitsValue significant) (decide (exponent < 0)) exponent.natAbs

def exponentValue (written : List Char) : Int :=
  match written with
  | '-' :: digits => -(digitsValue digits : Int)
  | '+' :: digits => digitsValue digits
  | digits => digitsValue digits

end Schematron.Decimal
