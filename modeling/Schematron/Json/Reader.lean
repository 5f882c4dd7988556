import Schematron.Decimal.Scientific
import Schematron.Json.Value
import Schematron.Location.Uri

/-! Reading JSON, with the place and the nature of the first fault. -/

namespace Schematron.Json

inductive ReadError
  | malformed (problem : String) (line column position : Nat)
  | longInteger (digits : Nat)
  | deepNesting (what : String)
deriving DecidableEq, Repr

namespace ReadError

def message : ReadError → String
  | malformed problem line column position =>
      problem ++ ": line " ++ toString line ++ " column " ++ toString column ++ " (char " ++
        toString position ++ ")"
  | longInteger digits =>
      "Exceeds the limit (4300 digits) for integer string conversion: value has " ++
        toString digits ++ " digits; use sys.set_int_max_str_digits() to increase the limit"
  | deepNesting what =>
      "maximum recursion depth exceeded while decoding a JSON " ++ what ++
        " from a unicode string"

end ReadError

inductive Fault
  | at (problem : String) (rest : List Char)
  | longInteger (digits : Nat)
  | deepNesting (what : String)

def isBlank (char : Char) : Bool :=
  char == ' ' || char == '\t' || char == '\n' || char == '\r'

def skipBlanks (rest : List Char) : List Char := rest.dropWhile isBlank

def integerLimit : Nat := 4300

def hexQuad? (rest : List Char) : Option (Nat × List Char) :=
  match rest with
  | a :: b :: c :: d :: rest => do
      let value ← [a, b, c, d].foldlM (fun value digit => do
        some (value * 16 + (← Uri.hexValue? digit))) 0
      some (value, rest)
  | _ => none

def isHigh (value : Nat) : Bool := 0xD800 ≤ value && value < 0xDC00

def isLow (value : Nat) : Bool := 0xDC00 ≤ value && value < 0xE000

def unicodeEscape (escape rest : List Char) : Except Fault (CodePoint × List Char) :=
  -- Another character has to follow the four digits, if only the closing quote.
  match if rest.length ≤ 4 then none else hexQuad? rest with
  | none => .error (.at "Invalid \\uXXXX escape" escape)
  | some (high, rest) =>
      match rest with
      | '\\' :: 'u' :: more =>
          if isHigh high && 4 < more.length then
            match hexQuad? more with
            | none => .error (.at "Invalid \\uXXXX escape" ('u' :: more))
            | some (low, others) =>
                if isLow low then
                  .ok (.ofNat (0x10000 + (high - 0xD800) * 1024 + (low - 0xDC00)), others)
                else .ok (.ofNat high, rest)
          else .ok (.ofNat high, rest)
      | _ => .ok (.ofNat high, rest)

def plainEscape? : Char → Option Char
  | '"' => some '"'
  | '\\' => some '\\'
  | '/' => some '/'
  | 'b' => some '\x08'
  | 'f' => some '\x0c'
  | 'n' => some '\n'
  | 'r' => some '\r'
  | 't' => some '\t'
  | _ => none

def stringTail (start : List Char) : Nat → Text → List Char → Except Fault (Text × List Char)
  | 0, _, _ => .error (.at "Unterminated string starting at" start)
  | _, _, [] => .error (.at "Unterminated string starting at" start)
  | fuel + 1, found, char :: rest =>
      if char == '"' then .ok (found.reverse, rest)
      else if char.toNat < 32 then .error (.at "Invalid control character at" (char :: rest))
      else if char != '\\' then stringTail start fuel (.ofChar char :: found) rest
      else match rest with
        | [] => .error (.at "Unterminated string starting at" start)
        | 'u' :: more => do
            let (point, rest) ← unicodeEscape rest more
            stringTail start fuel (point :: found) rest
        | letter :: more =>
            match plainEscape? letter with
            | some plain => stringTail start fuel (.ofChar plain :: found) more
            | none => .error (.at "Invalid \\escape" (char :: rest))

def readString (start : List Char) : Except Fault (Text × List Char) :=
  stringTail start start.length [] (start.drop 1)

def exponentPart (rest : List Char) : List Char × List Char :=
  match rest with
  | letter :: more =>
      if letter == 'e' || letter == 'E' then
        let (sign, digits) := match more with
          | '+' :: more => (['+'], more)
          | '-' :: more => (['-'], more)
          | _ => ([], more)
        let found := digits.takeWhile Decimal.isDigit
        if found.isEmpty then ([], rest) else (sign ++ found, digits.drop found.length)
      else ([], rest)
  | [] => ([], rest)

def fractionPart (rest : List Char) : List Char × List Char :=
  match rest with
  | '.' :: more =>
      let found := more.takeWhile Decimal.isDigit
      if found.isEmpty then ([], rest) else (found, more.drop found.length)
  | _ => ([], rest)

def wholePart (rest : List Char) : List Char :=
  match rest with
  | '0' :: _ => ['0']
  | _ => rest.takeWhile Decimal.isDigit

def readNumber (start : List Char) : Except Fault (Json × List Char) := do
  let (isNegative, rest) := match start with
    | '-' :: rest => (true, rest)
    | _ => (false, start)
  let whole := wholePart rest
  if whole.isEmpty then throw (.at "Expecting value" start)
  let (fraction, rest) := fractionPart (rest.drop whole.length)
  let (exponent, rest) := exponentPart rest
  if fraction.isEmpty && exponent.isEmpty then
    if integerLimit < whole.length then throw (.longInteger whole.length)
    let value : Int := Decimal.digitsValue whole
    return (.integer (if isNegative then -value else value), rest)
  let value := Decimal.ofScientific (whole ++ fraction)
    (Decimal.exponentValue exponent - fraction.length)
  return (.real (if isNegative then -value else value), rest)

def literals : List (String × Json) :=
  [("null", .null), ("true", .boolean true), ("false", .boolean false),
   ("NaN", .real (0.0 / 0.0)), ("Infinity", .real Decimal.infinity),
   ("-Infinity", .real (-Decimal.infinity))]

def literal? (rest : List Char) : Option (Json × List Char) :=
  (literals.find? fun pair => pair.1.toList.isPrefixOf rest).map fun pair =>
    (pair.2, rest.drop pair.1.length)

def depthLimit : Nat := 9000

mutual
def readValue (depth : Nat) : Nat → List Char → Except Fault (Json × List Char)
  | 0, rest => .error (.at "Expecting value" rest)
  | fuel + 1, rest =>
      match rest with
      | '"' :: _ => do
          let (value, rest) ← readString rest
          return (.text value, rest)
      | '[' :: more =>
          if depthLimit ≤ depth then .error (.deepNesting "array")
          else match skipBlanks more with
            | ']' :: rest => .ok (.list [], rest)
            | items => do
                let (found, rest) ← readItems (depth + 1) fuel items
                return (.list found, rest)
      | '\x7b' :: more =>
          if depthLimit ≤ depth then .error (.deepNesting "object")
          else match skipBlanks more with
            | '\x7d' :: rest => .ok (.object [], rest)
            | members => do
                let (found, rest) ← readMembers (depth + 1) fuel [] members
                return (.object found, rest)
      | _ =>
          match literal? rest with
          | some found => .ok found
          | none => readNumber rest

def readItems (depth : Nat) : Nat → List Char → Except Fault (List Json × List Char)
  | 0, rest => .error (.at "Expecting value" rest)
  | fuel + 1, rest => do
      let (first, rest) ← readValue depth fuel rest
      match skipBlanks rest with
      | ']' :: rest => return ([first], rest)
      | ',' :: rest => do
          let (others, rest) ← readItems depth fuel (skipBlanks rest)
          return (first :: others, rest)
      | rest => throw (.at "Expecting ',' delimiter" rest)

def readMembers (depth : Nat) :
    Nat → List (Text × Json) → List Char → Except Fault (List (Text × Json) × List Char)
  | 0, _, rest => .error (.at "Expecting value" rest)
  | fuel + 1, found, rest =>
      match rest with
      | '"' :: _ => do
          let (name, rest) ← readString rest
          match skipBlanks rest with
          | ':' :: rest => do
              let (value, rest) ← readValue depth fuel (skipBlanks rest)
              let found := put found name value
              match skipBlanks rest with
              | '\x7d' :: rest => return (found, rest)
              | ',' :: rest => readMembers depth fuel found (skipBlanks rest)
              | rest => throw (.at "Expecting ',' delimiter" rest)
          | rest => throw (.at "Expecting ':' delimiter" rest)
      | _ => .error (.at "Expecting property name enclosed in double quotes" rest)
end

def lineColumn (before : List Char) : Nat × Nat :=
  (before.count '\n' + 1, (before.reverse.takeWhile (· != '\n')).length + 1)

def Fault.locate (whole : List Char) : Fault → ReadError
  | .longInteger digits => .longInteger digits
  | .deepNesting what => .deepNesting what
  | .at problem rest =>
      let position := whole.length - rest.length
      let (line, column) := lineColumn (whole.take position)
      .malformed problem line column position

def read (source : String) : Except ReadError Json :=
  let whole := source.toList
  let outcome : Except Fault Json :=
    match whole with
    | '\ufeff' :: _ => .error (.at "Unexpected UTF-8 BOM (decode using utf-8-sig)" whole)
    | _ => do
        let (value, rest) ← readValue 0 (2 * whole.length + 2) (skipBlanks whole)
        match skipBlanks rest with
        | [] => return value
        | rest => throw (.at "Extra data" rest)
  outcome.mapError (Fault.locate whole)

end Schematron.Json
