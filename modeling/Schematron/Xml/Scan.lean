import Schematron.Xml.Letter
import Schematron.Xml.Node
import Schematron.Text.Split

/-! The smallest pieces of markup, each read from the front of the remaining characters. -/

namespace Schematron.Xml

/-- What two readers of the same language may judge differently. -/
structure Dialect where
  isNameStart : Char → Bool
  isNameChar : Char → Bool
  -- Declared names may hold colons anywhere; otherwise one may stand between two parts.
  anyColons : Bool
  nameLimit : Option Nat
  depthLimit : Option Nat
  numberedVersions : Bool
  declaresEntities : Bool
  -- Declarations that follow a parameter entity reference still count.
  readsPastParameters : Bool
  -- A reference to an unknown entity may stay in content when declarations may be missing.
  keepsUnknownReferences : Bool
  -- Values that a document type gives by default become attributes.
  addsDefaults : Bool
  namespaceName : String → Bool

abbrev Scan (α : Type) := List Char → Option (α × List Char)

def skipBlanks (rest : List Char) : List Char := rest.dropWhile isBlank

def requireBlank (rest : List Char) : Option (List Char) :=
  match rest with
  | char :: tail => if isBlank char then some (skipBlanks tail) else none
  | [] => none

def expect (wanted : String) (rest : List Char) : Option (List Char) :=
  let wanted := wanted.toList
  if wanted.isPrefixOf rest then some (rest.drop wanted.length) else none

def upTo (wanted : String) (rest : List Char) : Option (List Char × List Char) :=
  Text.breakOn? wanted.toList rest

def utf8Length (chars : List Char) : Nat := chars.foldl (fun total char => total + char.utf8Size) 0

namespace Dialect

def withinLimit (dialect : Dialect) (chars : List Char) : Bool :=
  match dialect.nameLimit with
  | none => true
  | some limit => decide (utf8Length chars ≤ limit)

def isTooDeep (dialect : Dialect) (depth : Nat) : Bool :=
  match dialect.depthLimit with
  | none => false
  | some limit => decide (limit < depth)

def plainName (dialect : Dialect) : Scan String
  | [] => none
  | char :: rest =>
      if dialect.isNameStart char then
        let tail := rest.takeWhile dialect.isNameChar
        if dialect.withinLimit (char :: tail) then
          some (String.ofList (char :: tail), rest.drop tail.length)
        else none
      else none

def allowsColons (dialect : Dialect) (chars : List Char) : Bool :=
  dialect.anyColons ||
    match Text.splitAt ':' chars with
    | [_] => true
    | [first, second] => !first.isEmpty && !second.isEmpty
    | _ => false

def name (dialect : Dialect) : Scan String
  | [] => none
  | char :: rest =>
      if dialect.isNameStart char || char == ':' then
        let tail := rest.takeWhile fun next => dialect.isNameChar next || next == ':'
        if dialect.withinLimit (char :: tail) && dialect.allowsColons (char :: tail) then
          some (String.ofList (char :: tail), rest.drop tail.length)
        else none
      else none

def notationName (dialect : Dialect) (rest : List Char) : Option (String × List Char) :=
  if dialect.anyColons then dialect.name rest else dialect.plainName rest

def token (dialect : Dialect) (rest : List Char) : Option (String × List Char) :=
  let chars := rest.takeWhile fun next => dialect.isNameChar next || next == ':'
  if chars.isEmpty then none else some (String.ofList chars, rest.drop chars.length)

def qualifiedName (dialect : Dialect) (rest : List Char) :
    Option ((Option String × String) × List Char) := do
  let (first, rest) ← dialect.plainName rest
  match rest with
  | ':' :: rest =>
      let (second, rest) ← dialect.plainName rest
      if rest.head? == some ':' then none else some ((some first, second), rest)
  | _ => some ((none, first), rest)

end Dialect

def quoted (rest : List Char) : Option (List Char × List Char) :=
  match rest with
  | quote :: rest =>
      if quote == '"' || quote == '\'' then
        let content := rest.takeWhile (· != quote)
        match rest.drop content.length with
        | _ :: rest => some (content, rest)
        | [] => none
      else none
  | [] => none

def digitValue? (char : Char) : Option Nat :=
  if isAsciiDigit char then some (char.toNat - 48)
  else if 'a' ≤ char && char ≤ 'f' then some (char.toNat - 87)
  else if 'A' ≤ char && char ≤ 'F' then some (char.toNat - 55)
  else none

def numeral (base : Nat) (digits : List Char) : Option Nat :=
  if digits.isEmpty then none
  else digits.foldl (fun total digit => do
    let total ← total
    let value ← digitValue? digit
    if value < base then some (min (total * base + value) 0x110000) else none) (some 0)

def characterReference (digits : List Char) : Option Char := do
  let value ← match digits with
    | 'x' :: digits => numeral 16 digits
    | digits => numeral 10 digits
  if value < 0x110000 && !(0xD800 ≤ value && value < 0xE000) then
    let char := Char.ofNat value
    if isChar char then some char else none
  else none

inductive Reference
  | character (char : Char)
  | entity (name : String)

def predefined? (name : String) : Option Char :=
  match name with
  | "lt" => some '<'
  | "gt" => some '>'
  | "amp" => some '&'
  | "quot" => some '"'
  | "apos" => some '\''
  | _ => none

def Dialect.reference (dialect : Dialect) (rest : List Char) : Option (Reference × List Char) :=
  match rest with
  | '#' :: rest => do
      let (digits, rest) ← upTo ";" rest
      let char ← characterReference digits
      some (.character char, rest)
  | rest => do
      let (name, rest) ← dialect.plainName rest
      match rest with
      | ';' :: rest => some (.entity name, rest)
      | _ => none

def normalizeLines : List Char → List Char
  | '\r' :: '\n' :: rest => '\n' :: normalizeLines rest
  | '\r' :: rest => '\n' :: normalizeLines rest
  | char :: rest => char :: normalizeLines rest
  | [] => []

end Schematron.Xml
