import Schematron.Decimal.Printed
import Schematron.Json.Value
import Schematron.Text.Quoted

/-! JSON text: ASCII only, with the items of lists and objects on lines of their own. -/

namespace Schematron.Json

def escapedUnit (unit : Nat) : String := "\\u" ++ Text.hexDigits 4 unit

def escapedPoint (point : CodePoint) : String :=
  let value := point.value
  if value == 34 then "\\\""
  else if value == 92 then "\\\\"
  else if value == 10 then "\\n"
  else if value == 13 then "\\r"
  else if value == 9 then "\\t"
  else if value == 12 then "\\f"
  else if value == 8 then "\\b"
  else if 32 ≤ value && value ≤ 126 then String.singleton (Char.ofNat value)
  else if value < 0x10000 then escapedUnit value
  else
    let offset := value - 0x10000
    escapedUnit (0xD800 + offset / 1024) ++ escapedUnit (0xDC00 + offset % 1024)

def quotedText (text : Text) : String := "\"" ++ String.join (text.map escapedPoint) ++ "\""

def margin (depth : Nat) : String := "\n" ++ String.ofList (List.replicate (2 * depth) ' ')

def enclosed (depth : Nat) (opening closing : String) (parts : List String) : String :=
  if parts.isEmpty then opening ++ closing
  else
    let inside := margin (depth + 1)
    opening ++ inside ++ ("," ++ inside).intercalate parts ++ margin depth ++ closing

def writeReal (value : Float) : String :=
  if value.isNaN then "NaN"
  else if value.isInf then (if value > 0.0 then "Infinity" else "-Infinity")
  else Decimal.Style.readable.print value

mutual

def write (depth : Nat) : Json → String
  | null => "null"
  | boolean true => "true"
  | boolean false => "false"
  | integer value => toString value
  | real value => writeReal value
  | text value => quotedText value
  | list items => enclosed depth "[" "]" (writeItems (depth + 1) items)
  | object members => enclosed depth "\x7b" "\x7d" (writeMembers (depth + 1) members)

def writeItems (depth : Nat) : List Json → List String
  | [] => []
  | item :: rest => write depth item :: writeItems depth rest

def writeMembers (depth : Nat) : List (Text × Json) → List String
  | [] => []
  | (name, value) :: rest =>
      (quotedText name ++ ": " ++ write depth value) :: writeMembers depth rest

end

def written (value : Json) : String := write 0 value

end Schematron.Json
