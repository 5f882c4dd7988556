import Schematron.Text.CodePoint

/-! Strings in quotes, for messages: what does not print is written as an escape. -/

namespace Schematron.Text

def isUnprintable (value : Nat) : Bool :=
  value < 32 || (127 ≤ value && value ≤ 160) || value == 173 || value == 0x1680 ||
  (0x2000 ≤ value && value ≤ 0x200F) || (0x2028 ≤ value && value ≤ 0x202F) ||
  (0x205F ≤ value && value ≤ 0x206F) || value == 0x3000 || (0xD800 ≤ value && value ≤ 0xF8FF) ||
  value == 0xFEFF || (0xFFF0 ≤ value && value ≤ 0xFFFB) || value == 0xFFFE || value == 0xFFFF

def hexDigits (width value : Nat) : String :=
  let digits := Nat.toDigits 16 value
  String.ofList (List.replicate (width - digits.length) '0' ++ digits)

def escaped (quote char : Char) : String :=
  if char == quote || char == '\\' then "\\" ++ char.toString
  else match char with
    | '\n' => "\\n"
    | '\r' => "\\r"
    | '\t' => "\\t"
    | _ =>
        let value := char.toNat
        if !isUnprintable value then char.toString
        else if value < 256 then "\\x" ++ hexDigits 2 value
        else if value < 0x10000 then "\\u" ++ hexDigits 4 value
        else "\\U" ++ hexDigits 8 value

def quoted (source : String) : String :=
  let chars := source.toList
  let quote := if chars.contains '\'' && !chars.contains '"' then '"' else '\''
  quote.toString ++ String.join (chars.map (escaped quote)) ++ quote.toString

end Schematron.Text
