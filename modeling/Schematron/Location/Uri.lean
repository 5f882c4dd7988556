import Schematron.Text.Split

/-! URI references: which texts are references at all, percent encoding, and resolution against a
base. -/

namespace Schematron.Uri

def isLetter (char : Char) : Bool := ('a' ≤ char && char ≤ 'z') || ('A' ≤ char && char ≤ 'Z')

def isDigit (char : Char) : Bool := '0' ≤ char && char ≤ '9'

def hexValue? (char : Char) : Option Nat :=
  if isDigit char then some (char.toNat - 48)
  else if 'a' ≤ char && char ≤ 'f' then some (char.toNat - 87)
  else if 'A' ≤ char && char ≤ 'F' then some (char.toNat - 55)
  else none

def isUnreserved (char : Char) : Bool :=
  isLetter char || isDigit char || char == '-' || char == '.' || char == '_' || char == '~'

def isSubDelimiter (char : Char) : Bool := "!$&'()*+,;=".toList.contains char

def skipRun (accept : Char → Bool) : List Char → List Char
  | '%' :: high :: low :: rest =>
      if (hexValue? high).isSome && (hexValue? low).isSome then skipRun accept rest
      else '%' :: high :: low :: rest
  | char :: rest => if char != '%' && accept char then skipRun accept rest else char :: rest
  | [] => []

def isPathChar (char : Char) : Bool :=
  isUnreserved char || isSubDelimiter char || char == ':' || char == '@'

def skipSegment (rest : List Char) : List Char := skipRun isPathChar rest

def skipSegments : Nat → List Char → List Char
  | 0, rest => rest
  | fuel + 1, '/' :: rest => skipSegments fuel (skipSegment rest)
  | _, rest => rest

def skipPath (rest : List Char) : List Char := skipSegments rest.length rest

def skipHost? (rest : List Char) : Option (List Char) :=
  match rest with
  | '[' :: inside =>
      match inside.dropWhile (· != ']') with
      | _ :: rest => some rest
      | [] => none
  | _ => some (skipRun (fun char => isUnreserved char || isSubDelimiter char) rest)

def skipAuthority? (rest : List Char) : Option (List Char) := do
  let user := skipRun (fun char => isUnreserved char || isSubDelimiter char || char == ':') rest
  let rest := match user with
    | '@' :: after => after
    | _ => rest
  let rest ← skipHost? rest
  match rest with
  | ':' :: rest =>
      let after := rest.dropWhile isDigit
      if after.length < rest.length then some after else none
  | _ => some rest

def skipHierarchy? (noColon : Bool) (rest : List Char) : Option (List Char) :=
  match rest with
  | '/' :: '/' :: rest => (skipAuthority? rest).map skipPath
  | '/' :: rest => some (skipPath (skipSegment rest))
  | _ =>
      let first := if noColon then skipRun (fun char => isPathChar char && char != ':') rest
        else skipSegment rest
      if first.length < rest.length then some (skipPath first) else some rest

def isTail (rest : List Char) : Bool :=
  let query := match rest with
    | '?' :: rest => skipRun (fun char => isPathChar char || char == '/' || char == '?') rest
    | _ => rest
  match query with
  | '#' :: rest =>
      (skipRun (fun char => isPathChar char || "/?[]".toList.contains char) rest).isEmpty
  | rest => rest.isEmpty

def scheme? (chars : List Char) : Option (List Char × List Char) :=
  match chars with
  | first :: _ =>
      if isLetter first then
        let name := chars.takeWhile fun char =>
          isLetter char || isDigit char || char == '+' || char == '-' || char == '.'
        match chars.drop name.length with
        | ':' :: rest => some (name, rest)
        | _ => none
      else none
  | [] => none

def accepts (noColon : Bool) (rest : List Char) : Bool :=
  match skipHierarchy? noColon rest with
  | some rest => isTail rest
  | none => false

def isReference (source : String) : Bool :=
  let chars := source.toList
  let absolute := match scheme? chars with
    | some (_, rest) => accepts false rest
    | none => false
  absolute || accepts true chars

def hexDigit (value : Nat) : Char := Char.ofNat (if value < 10 then 48 + value else 55 + value)

def encode (keep : Char → Bool) (source : String) : String :=
  String.ofList (source.toList.flatMap fun char =>
    if isUnreserved char || keep char then [char]
    else (String.singleton char).toUTF8.toList.flatMap fun byte =>
      ['%', hexDigit (byte.toNat / 16), hexDigit (byte.toNat % 16)])

def ofPath (path : String) : String := "file://" ++ encode (· == '/') path

def decodeBytes : List Char → List UInt8
  | '%' :: high :: low :: rest =>
      match hexValue? high, hexValue? low with
      | some high, some low => UInt8.ofNat (high * 16 + low) :: decodeBytes rest
      | _, _ => 37 :: decodeBytes (high :: low :: rest)
  | char :: rest => (String.singleton char).toUTF8.toList ++ decodeBytes rest
  | [] => []

def decode (source : String) : String :=
  -- Percent triplets become bytes again; a text that then is no UTF-8 stays as it was.
  (String.fromUTF8? (ByteArray.mk (decodeBytes source.toList).toArray)).getD source

def hasScheme (source : String) : Bool := Text.contains source.toList "://".toList

def directory (path : String) : String :=
  String.ofList ((path.toList.reverse.dropWhile (· != '/')).reverse)

def removeDots (segments : List String) : List String :=
  go [] segments
where
  go (kept : List String) : List String → List String
    | [] => kept.reverse
    | ["."] => ("" :: kept).reverse
    | [".."] => ("" :: kept.drop 1).reverse
    | "." :: rest => go kept rest
    | ".." :: rest => go (kept.drop 1) rest
    | segment :: rest => go (segment :: kept) rest

def resolve (reference base : String) : String :=
  if reference.isEmpty then base
  else if hasScheme reference || reference.startsWith "/" && !hasScheme base then reference
  else if !hasScheme base then directory base ++ reference
  else
    let root := "file://"
    let path := if reference.startsWith "/" then reference
      else directory (String.ofList (base.toList.drop root.length)) ++ reference
    match Text.splitString '/' path with
    | "" :: segments => root ++ "/" ++ "/".intercalate (removeDots segments)
    | segments => root ++ "/".intercalate (removeDots segments)

def toPath? (source : String) : Option String :=
  if source.startsWith "file://" then
    some (decode (String.ofList (source.toList.drop 7)))
  else if source.startsWith "file:/" then
    some (decode (String.ofList (source.toList.drop 5)))
  else if hasScheme source then none
  else some (decode source)

end Schematron.Uri
