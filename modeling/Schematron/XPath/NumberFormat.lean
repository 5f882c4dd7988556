import Schematron.XPath.Number

/-! Numbers written by a picture such as `#,##0.00`. -/

namespace Schematron.XPath

structure NumberFormat where
  decimalPoint : Char
  grouping : Char
  infinity : String
  minus : Char
  notANumber : String
  percent : Char
  permille : Char
  zero : Char
  digit : Char
  separator : Char
deriving Inhabited

namespace NumberFormat

def standard : NumberFormat := ⟨'.', ',', "Infinity", '-', "NaN", '%', '\u2030', '0', '#', ';'⟩

structure Layout where
  optionalWhole : Nat
  whole : Nat
  places : Nat
  optionalPlaces : Nat
  group : Option Nat
  multiplier : Nat
  hasMultiplier : Bool
  hasPoint : Bool

namespace Layout

def empty : Layout := ⟨0, 0, 0, 0, none, 1, false, false⟩

def fallback : Layout := ⟨0, 1, 1, 4, none, 1, false, true⟩

end Layout

def isSpecial (format : NumberFormat) (char : Char) : Bool :=
  char == format.zero || char == format.digit || char == format.decimalPoint ||
  char == format.grouping || char == format.separator

def affix (format : NumberFormat) :
    Layout → List Char → List Char → Option (Layout × List Char × List Char)
  | layout, found, [] => some (layout, found.reverse, [])
  | layout, found, '\'' :: char :: rest => affix format layout (char :: found) rest
  | _, _, ['\''] => none
  | layout, found, char :: rest =>
      if isSpecial format char then some (layout, found.reverse, char :: rest)
      else if char == format.percent || char == format.permille then
        if layout.hasMultiplier then none
        else
          let factor := if char == format.percent then 100 else 1000
          let layout := { layout with multiplier := factor, hasMultiplier := true }
          affix format layout (char :: found) rest
      else affix format layout (char :: found) rest

def wholePart (format : NumberFormat) : Layout → List Char → Option (Layout × List Char)
  | layout, [] => some (layout, [])
  | layout, char :: rest =>
      if char == format.digit then
        if 0 < layout.whole then none
        else wholePart format { layout with optionalWhole := layout.optionalWhole + 1,
                                            group := layout.group.map (· + 1) } rest
      else if char == format.zero then
        wholePart format { layout with whole := layout.whole + 1,
                                       group := layout.group.map (· + 1) } rest
      else if char == format.grouping then wholePart format { layout with group := some 0 } rest
      else some (layout, char :: rest)

def placesPart (format : NumberFormat) : Layout → List Char → Option (Layout × List Char)
  | layout, [] => some (layout, [])
  | layout, char :: rest =>
      if char == format.zero then
        if 0 < layout.optionalPlaces then none
        else placesPart format { layout with places := layout.places + 1 } rest
      else if char == format.digit then
        placesPart format { layout with optionalPlaces := layout.optionalPlaces + 1 } rest
      else if char == format.grouping then placesPart format layout rest
      else some (layout, char :: rest)

structure Picture where
  layout : Layout
  lead : List Char
  tail : List Char
  rest : List Char

def picture (format : NumberFormat) (chars : List Char) : Option Picture := do
  let (layout, lead, rest) ← affix format .empty [] chars
  let (layout, rest) ← wholePart format layout rest
  let (layout, rest) := match rest with
    | char :: after => if char == format.decimalPoint then ({ layout with hasPoint := true }, after)
        else (layout, rest)
    | [] => (layout, rest)
  let (layout, rest) ← if layout.hasPoint then placesPart format layout rest
    else some (layout, rest)
  let (layout, tail, rest) ← affix format layout [] rest
  match rest with
  | [] => some ⟨layout, lead, tail, []⟩
  | char :: after => if char == format.separator then some ⟨layout, lead, tail, after⟩ else none

def negativeAffixes (format : NumberFormat) (positive : Picture) :
    Option (List Char × List Char) := do
  let (_, lead, rest) ← affix format .empty [] positive.rest
  let rest := rest.dropWhile (isSpecial format)
  let (_, tail, _) ← affix format .empty [] rest
  if lead == positive.lead && tail == positive.tail then none else some (lead, tail)

def remainder (value modulus : Float) : Float := Decimal.truncatedRemainder value modulus

def writeWhole (format : NumberFormat) (group : Nat) (width : Nat) :
    Nat → Nat → Float → List Char → List Char
  | 0, _, _, written => written
  | fuel + 1, count, value, written =>
      if width ≤ count && value.abs < 1.0 then written
      else
        let written :=
          if 0 < count && 0 < group && count % group == 0 then format.grouping :: written
          else written
        let digit := (remainder value 10.0).toUInt64.toNat
        writeWhole format group width fuel (count + 1) (value / 10.0)
          (Char.ofNat (format.zero.toNat + digit) :: written)

def shorten : Nat → Float → Nat × Float
  | 0, value => (0, value)
  | count + 1, value =>
      if 1.0 ≤ remainder value 10.0 then (count + 1, value) else shorten count (value / 10.0)

def digits (format : NumberFormat) (layout : Layout) (magnitude : Float) : List Char :=
  let scale := Float.pow 10.0 (Float.ofNat (layout.places + layout.optionalPlaces))
  let value := (scale * (magnitude * Float.ofNat layout.multiplier) + 0.5).floor / scale
  let whole := writeWhole format (layout.group.getD 0) layout.whole 500 0 value.floor []
  let hasOnlyOptionalPlaces :=
    layout.whole + layout.optionalWhole + layout.places == 0 && 0 < layout.optionalPlaces
  let layout :=
    if hasOnlyOptionalPlaces then
      { layout with places := 1, optionalPlaces := layout.optionalPlaces - 1 }
    else layout
  let whole :=
    if value.floor == 0.0 && layout.whole + layout.places == 0 then whole ++ [format.zero]
    else whole
  if layout.places + layout.optionalPlaces == 0 then
    if layout.hasPoint then whole ++ [format.decimalPoint] else whole
  else
    let rest := value - value.floor
    if rest == 0.0 && layout.places == 0 then whole
    else
      let (optional, scaled) := shorten layout.optionalPlaces (scale * rest + 0.5).floor
      let places := writeWhole format 0 (layout.places + optional) 500 0 scaled.floor []
      whole ++ format.decimalPoint :: places

def write (format : NumberFormat) (source : String) (value : Float) : String :=
  match Decimal.read value with
  | .notANumber => format.notANumber
  | .infinite negative =>
      (if negative then String.singleton format.minus else "") ++ format.infinity
  | .finite _ =>
      let isNegative := value < 0.0
      let sign := if isNegative then [format.minus] else []
      let written := match picture format source.toList with
        | none => sign ++ digits format .fallback value.abs
        | some found =>
            let body := digits format found.layout value.abs
            if !isNegative then found.lead ++ body ++ found.tail
            else match negativeAffixes format found with
              | some (lead, tail) => lead ++ body ++ tail
              | none => sign ++ found.lead ++ body ++ found.tail
      String.ofList written

end NumberFormat

end Schematron.XPath
