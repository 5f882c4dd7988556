import Schematron.Decimal.Printed
import Schematron.Xml.Char

/-! Numbers of the path language: how they are read, written and rounded. -/

namespace Schematron.XPath.Number

open Schematron.Decimal

def isDigit (char : Char) : Bool := '0' ≤ char && char ≤ '9'

def digit (char : Char) : Float := Float.ofNat (char.toNat - 48)

def notANumber : Float := 0.0 / 0.0

def accumulate (value : Float) (digits : List Char) : Float :=
  digits.foldl (fun value char => value * 10.0 + digit char) value

def fraction (digits : List Char) : Float :=
  -- The digits of a fraction as a value below one; twenty of them count after leading zeros.
  let zeros := (digits.takeWhile (· == '0')).length
  let counted := (digits.drop zeros).take 20
  accumulate 0.0 counted / Float.pow 10.0 (Float.ofNat (zeros + counted.length))

def exponentPart (rest : List Char) : Float × List Char :=
  match rest with
  | mark :: tail =>
      if mark == 'e' || mark == 'E' then
        let (negative, tail) := match tail with
          | '-' :: tail => (true, tail)
          | '+' :: tail => (false, tail)
          | _ => (false, tail)
        let digits := tail.takeWhile isDigit
        let size := digits.foldl (fun size char =>
          if size < 1000000 then size * 10 + (char.toNat - 48) else size) 0
        let power := Float.ofNat size
        (if negative then -power else power, tail.drop digits.length)
      else (0.0, rest)
  | [] => (0.0, [])

def unsigned? (rest : List Char) : Option (Float × List Char) :=
  let whole := rest.takeWhile isDigit
  let value := accumulate 0.0 whole
  let rest := rest.drop whole.length
  let scaled (value : Float) (rest : List Char) : Float × List Char :=
    let (power, rest) := exponentPart rest
    (value * Float.pow 10.0 power, rest)
  match rest with
  | '.' :: tail =>
      let places := tail.takeWhile isDigit
      if whole.isEmpty && places.isEmpty then none
      else some (scaled (value + fraction places) (tail.drop places.length))
  | _ => some (scaled value rest)

def ofString (source : String) : Float :=
  let rest := source.toList.dropWhile Xml.isBlank
  let (negative, unsigned) := match rest with
    | '-' :: tail => (true, tail)
    | _ => (false, rest)
  let begins := match rest with
    | char :: _ => isDigit char || char == '.' || char == '-'
    | [] => false
  if !begins then notANumber
  else match unsigned? unsigned with
    | none => notANumber
    | some (value, rest) =>
        if (rest.dropWhile Xml.isBlank).isEmpty then (if negative then -value else value)
        else notANumber

def exponentSuffix (exponent : Int) : List Char :=
  'e' :: exponentText 2 exponent

def writeMagnitude (value : Binary) : List Char :=
  let ratio := value.ratio
  let isLarge := 1000000000 * ratio.2 < ratio.1
  let isSmall := ratio.1 * 100000 < ratio.2
  if isLarge || isSmall then
    let (mantissa, exponent) := exponentForm ratio 14
    trimFraction mantissa ++ exponentSuffix exponent
  else
    let leading := pointPosition ratio - 1
    -- The place of the leading digit, rounded toward zero.
    let place := if leading < 0 then leading + 1 else leading
    let places := if 0 < place then 14 - place else 15 - place
    trimFraction (fixedForm ratio places.toNat)

def write (value : Float) : String :=
  match read value with
  | .notANumber => "NaN"
  | .infinite negative => if negative then "-Infinity" else "Infinity"
  | .finite number =>
      if number.isZero then "0"
      else
        let (numerator, denominator) := number.ratio
        let isSmallInteger := numerator % denominator == 0 &&
          decide (numerator / denominator < 2147483647)
        let digits := if isSmallInteger then digitsOf (numerator / denominator)
          else writeMagnitude number
        String.ofList (if number.negative then '-' :: digits else digits)

def round (value : Float) : Float :=
  -- The nearest integer; a half goes up.
  if -0.5 ≤ value && value < 0.5 then value * 0.0
  else
    let floor := value.floor
    if 0.5 ≤ value - floor then floor + 1.0 else floor

def largest : Nat := 2147483647

def roundedUp (value : Float) : Float :=
  let floor := value.floor
  if 0.5 ≤ value - floor then floor + 1.0 else floor

def window (start : Float) (length : Option Float) : Nat × Nat :=
  let first :=
    if !(start < Float.ofNat largest) then largest
    else if 1.0 ≤ start then (roundedUp start).toUInt64.toNat
    else 1
  let stop := match length with
    | none => largest
    | some length =>
        let stop := roundedUp start + roundedUp length
        if !(1.0 ≤ stop) then 1
        else if stop < Float.ofNat largest then stop.toUInt64.toNat
        else largest
  (first, stop)

end Schematron.XPath.Number
