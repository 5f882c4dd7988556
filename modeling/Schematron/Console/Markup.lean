import Schematron.Console.Style

/-! Markup in printed text: tags in square brackets set a style, and are not printed themselves. A
backslash before a tag prints it. -/

namespace Schematron.Console

inductive Piece
  | plain (chars : List Char)
  | literal (chars : List Char)
  | tag (name : String) (parameter : Option String)

inductive MarkupFault
  | unmatched (tag : String)
  | nothingOpen
  | noAction (parameter : String)
deriving DecidableEq, Repr

namespace Markup

def startsTag (char : Char) : Bool :=
  ('a' ≤ char && char ≤ 'z') || char == '#' || char == '/' || char == '@'

def tagBody? (chars : List Char) : Option (List Char × List Char) :=
  if (chars.head?.map startsTag).getD false then
    let body := chars.takeWhile fun char => char != ']' && char != '['
    match chars.drop body.length with
    | ']' :: rest => some (body, rest)
    | _ => none
  else none

def tagOf (body : List Char) : Piece :=
  let name := body.takeWhile (· != '=')
  let parameter := match body.drop name.length with
    | '=' :: value => some (String.ofList value)
    | _ => none
  .tag (String.ofList name) parameter

/-- A tag at the start, behind its backslashes: each two of them print one, and an odd one keeps the
tag from being one. -/
def tagAt? (chars : List Char) : Option (List Piece × List Char) :=
  let slashes := (chars.takeWhile (· == '\\')).length
  match chars.drop slashes with
  | '[' :: inside =>
      match tagBody? inside with
      | some (body, rest) =>
          let kept := Piece.literal (List.replicate (slashes / 2) '\\')
          let shown := if slashes % 2 == 1 then .literal ('[' :: body ++ [']']) else tagOf body
          some ([kept, shown], rest)
      | none => none
  | _ => none

def push (char : Char) : List Piece → List Piece
  | .plain chars :: rest => .plain (char :: chars) :: rest
  | rest => .plain [char] :: rest

def piecesWithin : Nat → List Char → List Piece
  | 0, _ => []
  | _ + 1, [] => []
  | rounds + 1, char :: rest =>
      match tagAt? (char :: rest) with
      | some (pieces, after) => pieces ++ piecesWithin rounds after
      | none => push char (piecesWithin rounds rest)

def pieces (chars : List Char) : List Piece := piecesWithin chars.length chars

structure OpenTag where
  name : String
  parameter : Option String

def close? (name : String) : List OpenTag → Option (OpenTag × List OpenTag)
  | [] => none
  | tag :: rest =>
      if tag.name == name then some (tag, rest)
      else (close? name rest).map fun (found, others) => (found, tag :: others)

def isWordChar (char : Char) : Bool :=
  char.isAlphanum || char == '_' || char == '.' || 127 < char.toNat

def isAction (parameter : String) : Bool :=
  let rest := (Text.trimString parameter).toList.dropWhile isWordChar
  rest.isEmpty || (rest.head? == some '(' && rest.getLast? == some ')')

def checkClosed (tag : OpenTag) : Except MarkupFault Unit :=
  match tag.name.startsWith "@", tag.parameter with
  | true, some parameter =>
      if parameter.isEmpty || isAction parameter then .ok () else .error (.noAction parameter)
  | _, _ => .ok ()

def unescape : List Char → List Char
  | '\\' :: '[' :: rest => '[' :: unescape rest
  | char :: rest => char :: unescape rest
  | [] => []

def closeTag (name : String) (stack : List OpenTag) : Except MarkupFault (List OpenTag) := do
  let wanted := Text.trimString (String.ofList (name.toList.drop 1))
  if wanted.isEmpty then
    match stack with
    | [] => .error .nothingOpen
    | tag :: rest => do
        checkClosed tag
        return rest
  else
    match close? (Style.canonical wanted) stack with
    | none => .error (.unmatched name)
    | some (tag, rest) => do
        checkClosed tag
        return rest

def printed : List Piece → List OpenTag → Except MarkupFault (List Char)
  | [], _ => .ok []
  | .plain chars :: rest, stack => do return unescape chars ++ (← printed rest stack)
  | .literal chars :: rest, stack => do return chars ++ (← printed rest stack)
  | .tag name parameter :: rest, stack =>
      if name.startsWith "/" then do printed rest (← closeTag name stack)
      else printed rest (⟨Style.canonical name, parameter⟩ :: stack)

-- Bell, backspace, vertical tab, form feed and carriage return are never printed.
def isControl (char : Char) : Bool := [7, 8, 11, 12, 13].contains char.toNat

def plainText (source : String) : Except MarkupFault String :=
  (printed (pieces source.toList) []).map fun chars =>
    String.ofList (chars.filter (!isControl ·))

end Markup

end Schematron.Console
