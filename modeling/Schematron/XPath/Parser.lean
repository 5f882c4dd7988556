import Schematron.XPath.Expr
import Schematron.XPath.Number

/-! Reading expressions. Each function reads the longest expression of its rank from the front of
the text; what stands behind decides who goes on. -/

namespace Schematron.XPath

def skip (rest : List Char) : List Char := rest.dropWhile Xml.isBlank

def plainName (rest : List Char) : Option (String × List Char) :=
  match rest with
  | char :: tail =>
      if Xml.isNameStart char then
        let more := tail.takeWhile Xml.isNameChar
        some (String.ofList (char :: more), tail.drop more.length)
      else none
  | [] => none

def writtenName (rest : List Char) : Option (WrittenName × List Char) := do
  let (first, rest) ← plainName rest
  match rest with
  | ':' :: rest =>
      let (second, rest) ← plainName rest
      some (⟨some first, second⟩, rest)
  | _ => some (⟨none, first⟩, rest)

def quotedText (rest : List Char) : Option (String × List Char) :=
  match rest with
  | quote :: rest =>
      if quote == '"' || quote == '\'' then
        let content := rest.takeWhile (· != quote)
        match rest.drop content.length with
        | _ :: rest => some (String.ofList content, rest)
        | [] => none
      else none
  | [] => none

def descendantsStep (input : Expr) : Expr := .step input .descendantOrSelf .anyNode []

/-- Whether a path begins here, rather than a call, a literal, a variable or a group. None where
no expression begins. -/
def beginsPath? (rest : List Char) : Option Bool :=
  match rest with
  | [] => none
  | char :: tail =>
      if char == '$' || char == '(' || char == '\'' || char == '"' || Number.isDigit char then
        some false
      else if char == '.' then some (!(tail.head?.any Number.isDigit))
      else if char == '*' || char == '/' || char == '@' then some true
      else
        let isPart (char : Char) : Bool := Xml.isNameChar char || char == ':'
        if !(Xml.isNameStart char || char == ':') then none
        else
          let name := String.ofList (char :: tail.takeWhile isPart)
          let after := skip (tail.dropWhile isPart)
          if (name.splitOn "::").length > 1 then some true
          else if after.head? == some '(' then some (NodeTest.ofType? name).isSome
          else some true

def nodeTest (first : Option String) (rest : List Char) : Option (NodeTest × List Char) := do
  let rest := skip rest
  if first.isNone && rest.head? == some '*' then some (.anyName none, rest.drop 1)
  else
    let (name, rest) ← match first with
      | some name => some (name, rest)
      | none => plainName rest
    let after := skip rest
    match after with
    | '(' :: inner =>
        let test ← NodeTest.ofType? name
        let inner := skip inner
        match test, inner with
        | _, ')' :: rest => some (test, rest)
        | .instruction _, _ =>
            let (target, inner) ← quotedText inner
            match skip inner with
            | ')' :: rest => some (.instruction (some target), rest)
            | _ => none
        | _, _ => none
    | _ =>
        match rest with
        | ':' :: '*' :: rest => some (.anyName (some name), rest)
        | ':' :: rest =>
            let (second, rest) ← plainName rest
            some (.named ⟨some name, second⟩, rest)
        | _ => some (.named ⟨none, name⟩, after)

def axisAndTest (rest : List Char) : Option ((Axis × NodeTest) × List Char) :=
  let withTest (axis : Axis) (first : Option String) (rest : List Char) :
      Option ((Axis × NodeTest) × List Char) :=
    (nodeTest first rest).map fun (test, rest) => ((axis, test), rest)
  match rest with
  | '*' :: _ => withTest .child none rest
  | '@' :: rest => withTest .attributes none rest
  | _ =>
      match plainName rest with
      | none => withTest .child none rest
      | some (name, after) =>
          match Axis.ofName? name, skip after with
          | some axis, ':' :: ':' :: rest => withTest axis none rest
          | some _, rest => withTest .child (some name) rest
          | none, _ => withTest .child (some name) after

def continuesRootPath (rest : List Char) : Bool :=
  match rest with
  | char :: _ => Xml.isAsciiLetter char || char == '_' || char == '.' || char == '@' || char == '*'
  | [] => false

mutual
def expression (depth : Nat) : Nat → List Char → Option (Expr × List Char)
  | 0, _ => none
  | fuel + 1, rest => do
      if 500 ≤ depth then none
      let (left, rest) ← conjunctionOf (depth + 1) fuel rest
      disjunctionTail (depth + 1) fuel left (skip rest)

def disjunctionTail (depth : Nat) : Nat → Expr → List Char → Option (Expr × List Char)
  | 0, _, _ => none
  | fuel + 1, left, rest =>
      match rest with
      | 'o' :: 'r' :: rest => do
          let (right, rest) ← conjunctionOf depth fuel (skip rest)
          disjunctionTail depth fuel (.disjunction left right) (skip rest)
      | _ => some (left, rest)

def conjunctionOf (depth : Nat) : Nat → List Char → Option (Expr × List Char)
  | 0, _ => none
  | fuel + 1, rest => do
      let (left, rest) ← equalityOf depth fuel rest
      conjunctionTail depth fuel left (skip rest)

def conjunctionTail (depth : Nat) : Nat → Expr → List Char → Option (Expr × List Char)
  | 0, _, _ => none
  | fuel + 1, left, rest =>
      match rest with
      | 'a' :: 'n' :: 'd' :: rest => do
          let (right, rest) ← equalityOf depth fuel (skip rest)
          conjunctionTail depth fuel (.conjunction left right) (skip rest)
      | _ => some (left, rest)

def equalityOf (depth : Nat) : Nat → List Char → Option (Expr × List Char)
  | 0, _ => none
  | fuel + 1, rest => do
      let (left, rest) ← orderOf depth fuel rest
      equalityTail depth fuel left (skip rest)

def equalityTail (depth : Nat) : Nat → Expr → List Char → Option (Expr × List Char)
  | 0, _, _ => none
  | fuel + 1, left, rest =>
      match rest with
      | '=' :: rest => do
          let (right, rest) ← orderOf depth fuel (skip rest)
          equalityTail depth fuel (.equality false left right) (skip rest)
      | '!' :: '=' :: rest => do
          let (right, rest) ← orderOf depth fuel (skip rest)
          equalityTail depth fuel (.equality true left right) (skip rest)
      | _ => some (left, rest)

def orderOf (depth : Nat) : Nat → List Char → Option (Expr × List Char)
  | 0, _ => none
  | fuel + 1, rest => do
      let (left, rest) ← sumOf depth fuel rest
      orderTail depth fuel left (skip rest)

def orderTail (depth : Nat) : Nat → Expr → List Char → Option (Expr × List Char)
  | 0, _, _ => none
  | fuel + 1, left, rest =>
      let continueWith (ordering : Ordering) (rest : List Char) : Option (Expr × List Char) := do
        let (right, rest) ← sumOf depth fuel (skip rest)
        orderTail depth fuel (.order ordering left right) (skip rest)
      match rest with
      | '<' :: '=' :: rest => continueWith .lessOrEqual rest
      | '<' :: rest => continueWith .less rest
      | '>' :: '=' :: rest => continueWith .greaterOrEqual rest
      | '>' :: rest => continueWith .greater rest
      | _ => some (left, rest)

def sumOf (depth : Nat) : Nat → List Char → Option (Expr × List Char)
  | 0, _ => none
  | fuel + 1, rest => do
      let (left, rest) ← productOf depth fuel rest
      sumTail depth fuel left (skip rest)

def sumTail (depth : Nat) : Nat → Expr → List Char → Option (Expr × List Char)
  | 0, _, _ => none
  | fuel + 1, left, rest =>
      let continueWith (operation : Arithmetic) (rest : List Char) : Option (Expr × List Char) := do
        let (right, rest) ← productOf depth fuel (skip rest)
        sumTail depth fuel (.arithmetic operation left right) (skip rest)
      match rest with
      | '+' :: rest => continueWith .plus rest
      | '-' :: rest => continueWith .minus rest
      | _ => some (left, rest)

def productOf (depth : Nat) : Nat → List Char → Option (Expr × List Char)
  | 0, _ => none
  | fuel + 1, rest => do
      let (left, rest) ← signedOf depth fuel false false (skip rest)
      productTail depth fuel left (skip rest)

def productTail (depth : Nat) : Nat → Expr → List Char → Option (Expr × List Char)
  | 0, _, _ => none
  | fuel + 1, left, rest =>
      let continueWith (operation : Arithmetic) (rest : List Char) : Option (Expr × List Char) := do
        let (right, rest) ← signedOf depth fuel false false (skip rest)
        productTail depth fuel (.arithmetic operation left right) (skip rest)
      match rest with
      | '*' :: rest => continueWith .times rest
      | 'd' :: 'i' :: 'v' :: rest => continueWith .divided rest
      | 'm' :: 'o' :: 'd' :: rest => continueWith .remainder rest
      | _ => some (left, rest)

def signedOf (depth : Nat) : Nat → Bool → Bool → List Char → Option (Expr × List Char)
  -- Signs, then a union; two signs still make a number.
  | 0, _, _, _ => none
  | fuel + 1, isSigned, isNegative, rest =>
      match rest with
      | '-' :: rest => signedOf depth fuel true (!isNegative) (skip rest)
      | _ => do
          let (left, rest) ← pathOf depth fuel rest
          let (operand, rest) ← unionTail depth fuel left (skip rest)
          let signed := if !isSigned then operand
            else if isNegative then .negation operand else .asNumber operand
          some (signed, rest)

def unionTail (depth : Nat) : Nat → Expr → List Char → Option (Expr × List Char)
  | 0, _, _ => none
  | fuel + 1, left, rest =>
      match rest with
      | '|' :: rest => do
          let (right, rest) ← pathOf depth fuel (skip rest)
          unionTail depth fuel (.union left right) (skip rest)
      | _ => some (left, rest)

def pathOf (depth : Nat) : Nat → List Char → Option (Expr × List Char)
  | 0, _ => none
  | fuel + 1, rest => do
      let rest := skip rest
      if ← beginsPath? rest then
        match rest with
        | '/' :: _ => rootPath depth fuel .root rest
        | _ => relativePath depth fuel .here rest
      else
        let (primary, rest) ← primaryOf depth fuel rest
        let (base, rest) ← filterTail depth fuel primary (skip rest)
        match rest with
        | '/' :: '/' :: rest => relativePath depth fuel (descendantsStep base) (skip rest)
        | '/' :: _ => relativePath depth fuel base rest
        | _ => some (base, rest)

def filterTail (depth : Nat) : Nat → Expr → List Char → Option (Expr × List Char)
  | 0, _, _ => none
  | fuel + 1, base, rest =>
      match rest with
      | '[' :: _ => do
          let (predicate, rest) ← predicateOf depth fuel rest
          filterTail depth fuel (.filter base predicate) (skip rest)
      | _ => some (base, rest)

def primaryOf (depth : Nat) : Nat → List Char → Option (Expr × List Char)
  | 0, _ => none
  | fuel + 1, rest =>
      match rest with
      | '$' :: rest => do
          let (name, rest) ← writtenName rest
          some (.valueOf name, skip rest)
      | '(' :: rest => do
          let (inner, rest) ← expression depth fuel (skip rest)
          match rest with
          | ')' :: rest => some (inner, skip rest)
          | _ => none
      | '"' :: _ | '\'' :: _ => (quotedText rest).map fun (value, rest) => (.literal value, rest)
      | char :: _ =>
          if char == '.' || Number.isDigit char then
            (Number.unsigned? rest).map fun (value, rest) => (.number value, rest)
          else do
            let (name, rest) ← writtenName rest
            match skip rest with
            | '(' :: rest =>
                match skip rest with
                | ')' :: rest => some (.call name [], skip rest)
                | rest =>
                    let (arguments, rest) ← argumentsOf depth fuel rest
                    some (.call name arguments, skip rest)
            | _ => none
      | [] => none

def argumentsOf (depth : Nat) : Nat → List Char → Option (List Expr × List Char)
  | 0, _ => none
  | _, [] => some ([], [])
  | fuel + 1, rest => do
      let (first, rest) ← expression depth fuel rest
      match rest with
      | ')' :: rest => some ([first], rest)
      | ',' :: rest =>
          let (others, rest) ← argumentsOf depth fuel (skip rest)
          some (first :: others, rest)
      | _ => none

def predicateOf (depth : Nat) : Nat → List Char → Option (Expr × List Char)
  | 0, _ => none
  | fuel + 1, rest =>
      match skip rest with
      | '[' :: rest => do
          let (predicate, rest) ← expression depth fuel (skip rest)
          match rest with
          | ']' :: rest => some (predicate, skip rest)
          | _ => none
      | _ => none

def rootPath (depth : Nat) : Nat → Expr → List Char → Option (Expr × List Char)
  -- A path from the root: slashes may repeat as long as nothing else follows them.
  | 0, _, _ => none
  | fuel + 1, input, rest =>
      match rest with
      | '/' :: '/' :: rest => do
          let (path, rest) ← relativePath depth fuel (descendantsStep input) (skip rest)
          rootPath depth fuel path rest
      | '/' :: rest =>
          let rest := skip rest
          if continuesRootPath rest then do
            let (path, rest) ← relativePath depth fuel input rest
            rootPath depth fuel path rest
          else rootPath depth fuel input rest
      | _ => some (input, rest)

def relativePath (depth : Nat) : Nat → Expr → List Char → Option (Expr × List Char)
  | 0, _, _ => none
  | fuel + 1, input, rest => do
      let (input, rest) := match skip rest with
        | '/' :: '/' :: rest => (descendantsStep input, skip rest)
        | '/' :: rest => (input, skip rest)
        | rest => (input, rest)
      let (path, rest) ← stepOf depth fuel input rest
      stepTail depth fuel path (skip rest)

def stepTail (depth : Nat) : Nat → Expr → List Char → Option (Expr × List Char)
  | 0, _, _ => none
  | fuel + 1, input, rest =>
      match rest with
      | '/' :: '/' :: rest => do
          let (path, rest) ← stepOf depth fuel (descendantsStep input) (skip rest)
          stepTail depth fuel path (skip rest)
      | '/' :: rest => do
          let (path, rest) ← stepOf depth fuel input (skip rest)
          stepTail depth fuel path (skip rest)
      | _ => some (input, rest)

def stepOf (depth : Nat) : Nat → Expr → List Char → Option (Expr × List Char)
  | 0, _, _ => none
  | fuel + 1, input, rest =>
      match skip rest with
      | '.' :: '.' :: rest => some (.step input .parent .anyNode [], skip rest)
      | '.' :: rest => some (input, skip rest)
      | rest => do
          let ((axis, test), rest) ← axisAndTest rest
          let (predicates, rest) ← predicatesOf depth fuel (skip rest)
          some (.step input axis test predicates, rest)

def predicatesOf (depth : Nat) : Nat → List Char → Option (List Expr × List Char)
  | 0, _ => none
  | fuel + 1, rest =>
      match rest with
      | '[' :: _ => do
          let (first, rest) ← predicateOf depth fuel rest
          let (others, rest) ← predicatesOf depth fuel rest
          some (first :: others, rest)
      | _ => some ([], rest)
end

def Expr.parse? (source : String) : Option Expr :=
  let chars := source.toList
  match expression 0 (16 * chars.length + 64) chars with
  | some (parsed, []) => some parsed
  | _ => none

end Schematron.XPath
