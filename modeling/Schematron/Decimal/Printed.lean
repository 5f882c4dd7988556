import Schematron.Decimal.Shortest

/-! Written forms of doubles: the shortest form that reads back, and the forms with a fixed number
of digits. -/

namespace Schematron.Decimal

def zeros (count : Nat) : List Char := List.replicate count '0'

def digitsOf (value : Nat) : List Char := Nat.toDigits 10 value

def padLeft (width : Nat) (digits : List Char) : List Char :=
  zeros (width - digits.length) ++ digits

structure Style where
  lowestPoint : Int
  highestPoint : Int
  exponentWidth : Nat
  infinity : String
  notANumber : String

def Style.readable : Style := ⟨-3, 16, 2, "inf", "nan"⟩

def exponentText (width : Nat) (exponent : Int) : List Char :=
  (if exponent < 0 then '-' else '+') :: padLeft width (digitsOf exponent.natAbs)

def positional (digits : List Char) (point : Int) : List Char :=
  if point ≤ 0 then '0' :: '.' :: (zeros (-point).toNat ++ digits)
  else if digits.length ≤ point.toNat then
    digits ++ zeros (point.toNat - digits.length) ++ ['.', '0']
  else digits.take point.toNat ++ '.' :: digits.drop point.toNat

def scientificForm (style : Style) (digits : List Char) (point : Int) : List Char :=
  let mantissa := match digits with
    | [] => ['0']
    | [digit] => [digit]
    | digit :: rest => digit :: '.' :: rest
  mantissa ++ 'e' :: exponentText style.exponentWidth (point - 1)

def dropTrailingZeros (digits : List Char) : List Char :=
  (digits.reverse.dropWhile (· == '0')).reverse

def Style.magnitude (style : Style) (value : Binary) : List Char :=
  if value.isZero then ['0', '.', '0']
  else
    let found := shortest value
    let written := digitsOf found.digits
    let point := (written.length : Int) + found.exponent
    let digits := dropTrailingZeros written
    if style.lowestPoint ≤ point && point ≤ style.highestPoint then positional digits point
    else scientificForm style digits point

def Style.print (style : Style) (value : Float) : String :=
  match read value with
  | .notANumber => style.notANumber
  | .infinite negative => if negative then "-" ++ style.infinity else style.infinity
  | .finite value =>
      String.ofList ((if value.negative then ['-'] else []) ++ style.magnitude value)

def fixedForm (ratio : Nat × Nat) (places : Nat) : List Char :=
  let digits := padLeft (places + 1) (digitsOf (scaled ratio places))
  let whole := digits.take (digits.length - places)
  if places = 0 then whole else whole ++ '.' :: digits.drop (digits.length - places)

def exponentForm (ratio : Nat × Nat) (places : Nat) : List Char × Int :=
  let point := pointPosition ratio
  let digits := digitsOf (scaled ratio (places + 1 - point))
  let point := if digits.length = places + 2 then point + 1 else point
  let digits := digits.take (places + 1)
  let mantissa := match digits with
    | [] => ['0']
    | digit :: rest => if rest.isEmpty then [digit] else digit :: '.' :: rest
  (mantissa, point - 1)

def trimFraction (digits : List Char) : List Char :=
  if digits.contains '.' then
    let kept := (digits.reverse.dropWhile (· == '0')).reverse
    if kept.getLast? == some '.' then kept.dropLast else kept
  else digits

end Schematron.Decimal
