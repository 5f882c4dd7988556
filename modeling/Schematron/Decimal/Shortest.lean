import Schematron.Decimal.Binary

/-! The shortest decimal that reads back as a given double. -/

namespace Schematron.Decimal

structure Scientific where
  digits : Nat
  exponent : Int
deriving DecidableEq, Repr

/-- The reals that round to a double, as bounds over a common denominator; the bounds belong to it
when `closed`. -/
structure Interval where
  low : Nat
  high : Nat
  denominator : Nat
  closed : Bool

namespace Binary

def interval (value : Binary) : Interval :=
  let power := value.significand == Nat.pow 2 52 && decide (-1074 < value.exponent)
  let low := 4 * value.significand - (if power then 1 else 2)
  let high := 4 * value.significand + 2
  let shift := value.exponent - 2
  let closed := value.significand % 2 == 0
  if shift < 0 then ⟨low, high, Nat.pow 2 (-shift).toNat, closed⟩
  else ⟨low * Nat.pow 2 shift.toNat, high * Nat.pow 2 shift.toNat, 1, closed⟩

end Binary

namespace Interval

def contains (interval : Interval) (value : Scientific) : Bool :=
  let scale := Nat.pow 10 value.exponent.natAbs
  let (value, factor) :=
    if value.exponent < 0 then (value.digits * interval.denominator, scale)
    else (value.digits * scale * interval.denominator, 1)
  let low := interval.low * factor
  let high := interval.high * factor
  if interval.closed then low ≤ value && value ≤ high else low < value && value < high

end Interval

def onGrid? (value : Binary) (count : Nat) : Option Scientific :=
  let ratio := value.ratio
  let exponent := pointPosition ratio - count
  let (numerator, denominator) :=
    if exponent < 0 then (ratio.1 * Nat.pow 10 (-exponent).toNat, ratio.2)
    else (ratio.1, ratio.2 * Nat.pow 10 exponent.toNat)
  let below : Scientific := ⟨numerator / denominator, exponent⟩
  let above : Scientific := ⟨numerator / denominator + 1, exponent⟩
  let nearest : Scientific := ⟨roundHalfEven numerator denominator, exponent⟩
  let interval := value.interval
  if interval.contains nearest then some nearest
  else if interval.contains below then some below
  else if interval.contains above then some above
  else none

def shortest (value : Binary) : Scientific :=
  ((List.range 18).findSome? fun count => if count = 0 then none else onGrid? value count).getD
    ⟨value.significand, 0⟩

end Schematron.Decimal
