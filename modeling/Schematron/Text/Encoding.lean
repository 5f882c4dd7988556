import Schematron.Text.CodePoint
import Schematron.Text.Split

/-! Bytes as text: UTF-8 with the place and the reason of a fault, UTF-16, and the two encodings
of single bytes that documents declare. -/

namespace Schematron.Text

structure Utf8Fault where
  position : Nat
  count : Nat
  byte : UInt8
  reason : String

namespace Utf8Fault

def hexPair (byte : UInt8) : String :=
  let digits := Nat.toDigits 16 byte.toNat
  String.ofList (List.replicate (2 - digits.length) '0' ++ digits)

def message (fault : Utf8Fault) : String :=
  if fault.count ≤ 1 then
    "'utf-8' codec can't decode byte 0x" ++ hexPair fault.byte ++ " in position " ++
      toString fault.position ++ ": " ++ fault.reason
  else
    "'utf-8' codec can't decode bytes in position " ++ toString fault.position ++ "-" ++
      toString (fault.position + fault.count - 1) ++ ": " ++ fault.reason

end Utf8Fault

def isTrail (byte : UInt8) : Bool := 0x80 ≤ byte && byte ≤ 0xBF

def leadShape? (byte : UInt8) : Option (Nat × UInt8 × UInt8) :=
  if 0xC2 ≤ byte && byte ≤ 0xDF then some (1, 0x80, 0xBF)
  else if byte == 0xE0 then some (2, 0xA0, 0xBF)
  else if byte == 0xED then some (2, 0x80, 0x9F)
  else if 0xE1 ≤ byte && byte ≤ 0xEF then some (2, 0x80, 0xBF)
  else if byte == 0xF0 then some (3, 0x90, 0xBF)
  else if 0xF1 ≤ byte && byte ≤ 0xF3 then some (3, 0x80, 0xBF)
  else if byte == 0xF4 then some (3, 0x80, 0x8F)
  else none

def trailRun (count : Nat) (low high : UInt8) (rest : List UInt8) : List UInt8 :=
  match count, rest with
  | count + 1, byte :: more =>
      if low ≤ byte && byte ≤ high then byte :: (more.take count).takeWhile isTrail else []
  | _, _ => []

def leadBits (count : Nat) (byte : UInt8) : Nat :=
  match count with
  | 1 => byte.toNat % 32
  | 2 => byte.toNat % 16
  | _ => byte.toNat % 8

def utf8From : Nat → Nat → List UInt8 → Except Utf8Fault (List Char)
  | 0, _, _ => .ok []
  | _, _, [] => .ok []
  | fuel + 1, position, byte :: rest =>
      if byte < 0x80 then do
        return Char.ofNat byte.toNat :: (← utf8From fuel (position + 1) rest)
      else match leadShape? byte with
        | none => .error ⟨position, 1, byte, "invalid start byte"⟩
        | some (count, low, high) =>
            let trail := trailRun count low high rest
            if trail.length == count then do
              let value := trail.foldl (fun value byte => value * 64 + byte.toNat % 64)
                (leadBits count byte)
              return Char.ofNat value :: (← utf8From fuel (position + 1 + count) (rest.drop count))
            else if trail.length == rest.length then
              .error ⟨position, trail.length + 1, byte, "unexpected end of data"⟩
            else .error ⟨position, trail.length + 1, byte, "invalid continuation byte"⟩

def ofUtf8 (bytes : List UInt8) : Except Utf8Fault (List Char) :=
  utf8From bytes.length 0 bytes

def toUtf8 (chars : List Char) : List UInt8 := chars.flatMap String.utf8EncodeChar

def toUtf8? (text : Text) : Option (List UInt8) := text.toChars?.map toUtf8

def units (isLittle : Bool) : List UInt8 → Option (List Nat)
  | [] => some []
  | [_] => none
  | first :: second :: rest => do
      let rest ← units isLittle rest
      let (high, low) := if isLittle then (second, first) else (first, second)
      some ((high.toNat * 256 + low.toNat) :: rest)

def ofUnits : List Nat → Option (List Char)
  | [] => some []
  | unit :: rest =>
      if 0xD800 ≤ unit && unit < 0xDC00 then
        match rest with
        | second :: rest =>
            if 0xDC00 ≤ second && second < 0xE000 then do
              let rest ← ofUnits rest
              some (Char.ofNat (0x10000 + (unit - 0xD800) * 1024 + (second - 0xDC00)) :: rest)
            else none
        | [] => none
      else if 0xDC00 ≤ unit && unit < 0xE000 then none
      else do
        let rest ← ofUnits rest
        some (Char.ofNat unit :: rest)

def unifyLines : List Char → List Char
  | '\r' :: '\n' :: rest => '\n' :: unifyLines rest
  | '\r' :: rest => '\n' :: unifyLines rest
  | char :: rest => char :: unifyLines rest
  | [] => []

def declaredEncoding? (bytes : List UInt8) : Option String := do
  let chars := bytes.map fun byte => Char.ofNat byte.toNat
  let (before, rest) ← breakOn? "<?xml".toList (chars.take 5)
  if !before.isEmpty || !rest.isEmpty then none
  let inside := (chars.drop 5).takeWhile (· != '>')
  let (_, rest) ← breakOn? "encoding".toList inside
  let rest := rest.dropWhile fun char => char == ' ' || char == '=' || char == '\t' || char == '\n'
  match rest with
  | quote :: rest =>
      if quote == '"' || quote == '\'' then
        some (String.ofList (rest.takeWhile (· != quote)))
      else none
  | [] => none

def ofEncoding (name : String) (bytes : List UInt8) : Option (List Char) :=
  match lowerAscii name with
  | "utf-8" | "utf8" => (ofUtf8 bytes).toOption
  | "iso-8859-1" | "latin1" | "iso-latin-1" =>
      some (bytes.map fun byte => Char.ofNat byte.toNat)
  | "us-ascii" | "ascii" =>
      if bytes.all (· < 0x80) then some (bytes.map fun byte => Char.ofNat byte.toNat) else none
  | _ => none

/-- The text of a document in the encoding that is given. Without one it is told by a byte order
mark, or else by what the document declares. -/
def ofDocumentBytes (given : Option String) (bytes : List UInt8) : Option (List Char) :=
  match given with
  | some name => ofEncoding name bytes
  | none =>
      match bytes with
      | 0xFF :: 0xFE :: _ => (units true bytes).bind ofUnits
      | 0xFE :: 0xFF :: _ => (units false bytes).bind ofUnits
      | 0xEF :: 0xBB :: 0xBF :: _ => ofEncoding "utf-8" bytes
      | 0x3C :: 0x00 :: 0x3F :: 0x00 :: _ => (units true bytes).bind ofUnits
      | 0x00 :: 0x3C :: 0x00 :: 0x3F :: _ => (units false bytes).bind ofUnits
      | _ => ofEncoding ((declaredEncoding? bytes).getD "utf-8") bytes

end Schematron.Text
