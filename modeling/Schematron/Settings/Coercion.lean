import Schematron.Json.Reader
import Schematron.Text.Blank

/-! Reading single settings from JSON values, and the faults that such values may have. -/

namespace Schematron.Settings

inductive FaultKind
  | stringType
  | stringUnicode
  | integerType
  | integerParsing
  | integerSize
  | integerFromFraction
  | finiteNumber
  | floatType
  | floatParsing
  | booleanType
  | booleanParsing
  | listType
  | objectType
  | sectionType
  | choice
  | unknownKey
  -- A value of the right type that is refused.
  | refused (reason : String)
deriving DecidableEq, Repr

namespace FaultKind

def name : FaultKind → String
  | stringType => "string_type"
  | stringUnicode => "string_unicode"
  | integerType => "int_type"
  | integerParsing => "int_parsing"
  | integerSize => "int_parsing_size"
  | integerFromFraction => "int_from_float"
  | finiteNumber => "finite_number"
  | floatType => "float_type"
  | floatParsing => "float_parsing"
  | booleanType => "bool_type"
  | booleanParsing => "bool_parsing"
  | listType => "list_type"
  | objectType => "dict_type"
  | sectionType => "model_type"
  | choice => "enum"
  | unknownKey => "extra_forbidden"
  | refused _ => "value_error"

def note : FaultKind → Option String
  | refused reason => some ("Value error, " ++ reason)
  | _ => none

end FaultKind

structure FieldFault where
  place : List Text
  kind : FaultKind
deriving DecidableEq

abbrev Checked (α : Type) := Except (List FieldFault) α

namespace Checked

def fault {α : Type} (kind : FaultKind) : Checked α := .error [⟨[], kind⟩]

def and {α β : Type} (first : Checked α) (second : Checked β) : Checked (α × β) :=
  match first, second with
  | .ok left, .ok right => .ok (left, right)
  | .error left, .ok _ => .error left
  | .ok _, .error right => .error right
  | .error left, .error right => .error (left ++ right)

def all {α : Type} : List (Checked α) → Checked (List α)
  | [] => .ok []
  | first :: rest => (first.and (all rest)).map fun pair => pair.1 :: pair.2

def below {α : Type} (key : Text) (checked : Checked α) : Checked α :=
  checked.mapError fun faults => faults.map fun fault => { fault with place := key :: fault.place }

end Checked

def isPadding (char : Char) : Bool :=
  -- White space around numbers: that of Unicode, without the ASCII separators.
  Text.isSpaceChar char && !(28 ≤ char.toNat && char.toNat ≤ 31)

def withoutPadding (source : String) : List Char := Text.trimBy isPadding source.toList

def plainDigits? (body : List Char) : Option (List Char) :=
  let groups := Text.splitAt '_' body
  if groups.all fun group => !group.isEmpty && group.all Decimal.isDigit then some groups.flatten
  else none

def withoutZeroFraction (body : List Char) : List Char :=
  let whole := body.takeWhile (· != '.')
  match body.drop whole.length with
  | '.' :: fraction =>
      if !fraction.isEmpty && fraction.all (· == '0') then whole else body
  | _ => body

def integerOfText? (source : String) : Option Int :=
  let (isNegative, body) := match withoutPadding source with
    | '-' :: body => (true, body)
    | '+' :: body => (false, body)
    | body => (false, body)
  (plainDigits? (withoutZeroFraction body)).map fun digits =>
    let value : Int := Decimal.digitsValue digits
    if isNegative then -value else value

def integerLimit : Float := 9223372036854775808.0

def isWhole (value : Float) : Bool := value.floor == value

def wholeValue (value : Float) : Int :=
  if value < 0.0 then -((-value).toUInt64.toNat : Int) else (value.toUInt64.toNat : Int)

def integer : Json → Checked Int
  | .integer value => .ok value
  | .boolean value => .ok (if value then 1 else 0)
  | .real value =>
      if value.isNaN || value.isInf then .fault .finiteNumber
      else if !isWhole value then .fault .integerFromFraction
      else if -integerLimit < value && value < integerLimit then .ok (wholeValue value)
      else .fault .integerSize
  | .text value =>
      match value.toString? with
      | none => .fault .stringUnicode
      | some source =>
          match integerOfText? source with
          | some found =>
              if Json.integerLimit < (withoutPadding source).length then .fault .integerSize
              else .ok found
          | none => .fault .integerParsing
  | _ => .fault .integerType

def unsignedFloat? (body : List Char) : Option Float :=
  let word := Text.lowerAscii (String.ofList body)
  if word == "inf" || word == "infinity" then some Decimal.infinity
  else if word == "nan" then some (0.0 / 0.0)
  else
    let whole := body.takeWhile Decimal.isDigit
    let rest := body.drop whole.length
    let (fraction, rest) := match rest with
      | '.' :: more =>
          let found := more.takeWhile Decimal.isDigit
          (found, more.drop found.length)
      | _ => ([], rest)
    let (exponent, rest) := Json.exponentPart rest
    if (whole.isEmpty && fraction.isEmpty) || !rest.isEmpty then none
    else some (Decimal.ofScientific (whole ++ fraction)
      (Decimal.exponentValue exponent - fraction.length))

def withoutUnderscores? (body : List Char) : Option (List Char) :=
  let groups := Text.splitAt '_' body
  if groups.all (!·.isEmpty) then some groups.flatten else none

def floatOfText? (source : String) : Option Float := do
  let body ← withoutUnderscores? (withoutPadding source)
  match body with
  | '-' :: body => (unsignedFloat? body).map (-·)
  | '+' :: body => unsignedFloat? body
  | body => unsignedFloat? body

def floatOfInteger (value : Int) : Float :=
  let magnitude := Decimal.ofScientific (Nat.toDigits 10 value.natAbs) 0
  if value < 0 then -magnitude else magnitude

def float : Json → Checked Float
  | .real value => .ok value
  | .integer value =>
      -- An integer beyond all doubles is refused, a text that is as large is not.
      let found := floatOfInteger value
      if found.isInf then .fault .floatType else .ok found
  | .boolean value => .ok (if value then 1.0 else 0.0)
  | .text value =>
      match value.toString? with
      | none => .fault .stringUnicode
      | some source =>
          match floatOfText? source with
          | some found => .ok found
          | none => .fault .floatParsing
  | _ => .fault .floatType

def falseWords : List String := ["0", "off", "f", "false", "n", "no"]

def trueWords : List String := ["1", "on", "t", "true", "y", "yes"]

def booleanOfInteger (value : Int) : Checked Bool :=
  if value == 0 then .ok false else if value == 1 then .ok true else .fault .booleanParsing

def boolean : Json → Checked Bool
  | .boolean value => .ok value
  | .integer value =>
      if value.natAbs < Nat.pow 2 63 then booleanOfInteger value else .fault .booleanType
  | .real value =>
      match integer (.real value) with
      | .ok whole => booleanOfInteger whole
      | .error _ => .fault .booleanType
  | .text value =>
      match value.toString? with
      | none => .fault .stringUnicode
      | some source =>
          let word := Text.lowerAscii source
          if falseWords.contains word then .ok false
          else if trueWords.contains word then .ok true
          else .fault .booleanParsing
  | _ => .fault .booleanType

def string : Json → Checked String
  | .text value =>
      match value.toString? with
      | some source => .ok source
      | none => .fault .stringUnicode
  | _ => .fault .stringType

def optionalString : Json → Checked (Option String)
  | .null => .ok none
  | value => (string value).map some

def strings : Json → Checked (List String)
  | .list items =>
      .all (items.zipIdx.map fun (item, index) =>
        (string item).below (.ofString (toString index)))
  | _ => .fault .listType

end Schematron.Settings
