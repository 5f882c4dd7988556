/-! Doubles taken apart into exact integers, and exact decimal rounding of them. -/

namespace Schematron.Decimal

/-- The finite double `(-1)^negative * significand * 2^exponent`. -/
structure Binary where
  negative : Bool
  significand : Nat
  exponent : Int
deriving DecidableEq, Repr

inductive Reading
  | finite (value : Binary)
  | infinite (negative : Bool)
  | notANumber
deriving DecidableEq, Repr

def read (value : Float) : Reading :=
  let bits := value.toBits.toNat
  let negative := decide (Nat.pow 2 63 ≤ bits)
  let field : Nat := bits / Nat.pow 2 52 % Nat.pow 2 11
  let fraction : Nat := bits % Nat.pow 2 52
  if field = 2047 then if fraction = 0 then .infinite negative else .notANumber
  else if field = 0 then .finite ⟨negative, fraction, -1074⟩
  else .finite ⟨negative, fraction + Nat.pow 2 52, (field : Int) - 1075⟩

namespace Binary

def isZero (value : Binary) : Bool := value.significand == 0

def ratio (value : Binary) : Nat × Nat :=
  if value.exponent < 0 then (value.significand, Nat.pow 2 (-value.exponent).toNat)
  else (value.significand * Nat.pow 2 value.exponent.toNat, 1)

end Binary

def roundHalfEven (numerator denominator : Nat) : Nat :=
  let quotient := numerator / denominator
  let remainder := numerator % denominator
  if 2 * remainder < denominator then quotient
  else if denominator < 2 * remainder then quotient + 1
  else if quotient % 2 = 0 then quotient else quotient + 1

def scaled (ratio : Nat × Nat) (places : Int) : Nat :=
  if places < 0 then roundHalfEven ratio.1 (ratio.2 * Nat.pow 10 (-places).toNat)
  else roundHalfEven (ratio.1 * Nat.pow 10 places.toNat) ratio.2

def integerDigits (ratio : Nat × Nat) : Nat :=
  let whole := ratio.1 / ratio.2
  if whole = 0 then 0 else (Nat.toDigits 10 whole).length

def leadingZeros (ratio : Nat × Nat) : Nat :=
  go 400 0 ratio.1
where
  go : Nat → Nat → Nat → Nat
    | 0, count, _ => count
    | fuel + 1, count, numerator =>
        if ratio.2 ≤ numerator * 10 then count else go fuel (count + 1) (numerator * 10)

def pointPosition (ratio : Nat × Nat) : Int :=
  let whole := integerDigits ratio
  if whole = 0 then -(leadingZeros ratio : Int) else whole

def truncatedRemainder (left right : Float) : Float :=
  match read left, read right with
  | .finite dividend, .finite divisor =>
      if divisor.isZero then 0.0 / 0.0
      else
        let low := min dividend.exponent divisor.exponent
        let rest := dividend.significand * Nat.pow 2 (dividend.exponent - low).toNat %
          (divisor.significand * Nat.pow 2 (divisor.exponent - low).toNat)
        let magnitude := (Float.ofNat rest).scaleB low
        if dividend.negative then -magnitude else magnitude
  | .finite _, .infinite _ => left
  | _, _ => 0.0 / 0.0

end Schematron.Decimal
