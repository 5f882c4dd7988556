import Schematron.Text.Blank
import Schematron.XPath.Expr
import Schematron.XPath.Number
import Schematron.XPath.Tree

/-! Values of expressions, what turns one kind into another, and how values compare. -/

namespace Schematron.XPath

inductive Value
  | nodes (found : List NodeRef)
  | text (value : String)
  | number (value : Float)
  | truth (value : Bool)
  | fragment (tree : Nat)
deriving Inhabited

namespace Value

def asNodes? : Value → Option (List NodeRef)
  | nodes found => some found
  | fragment tree => some [.plain tree 0]
  | _ => none

def firstText (forest : Forest) : List NodeRef → String
  | [] => ""
  | node :: _ => Forest.stringValue forest node

def toText (forest : Forest) : Value → String
  | nodes found => firstText forest found
  | text value => value
  | number value => Number.write value
  | truth value => if value then "true" else "false"
  | fragment tree => Forest.stringValue forest (.plain tree 0)

def toNumber (forest : Forest) : Value → Float
  | number value => value
  | truth value => if value then 1.0 else 0.0
  | value => Number.ofString (value.toText forest)

def toTruth : Value → Bool
  | nodes found => !found.isEmpty
  | text value => !value.isEmpty
  | number value => !(value == 0.0) && value == value
  | truth value => value
  | fragment _ => true

def selects (position : Nat) : Value → Bool
  | number value => value == Float.ofNat position
  | value => value.toTruth

def isNumber : Value → Bool
  | number _ => true
  | _ => false

def isTruth : Value → Bool
  | truth _ => true
  | _ => false

def plainlyEqual (forest : Forest) (left right : Value) : Bool :=
  if left.isTruth || right.isTruth then left.toTruth == right.toTruth
  else if left.isNumber || right.isNumber then left.toNumber forest == right.toNumber forest
  else left.toText forest == right.toText forest

def setEquals (forest : Forest) (isNegated : Bool) (found : List NodeRef) (other : Value) : Bool :=
  match other with
  | truth value => (!found.isEmpty == value) != isNegated
  | number value => found.any fun node =>
      (Number.ofString (Forest.stringValue forest node) == value) != isNegated
  | _ => found.any fun node => (Forest.stringValue forest node == other.toText forest) != isNegated

def equals (forest : Forest) (isNegated : Bool) (left right : Value) : Bool :=
  match left.asNodes?, right.asNodes? with
  | some left, some right =>
      let texts := right.map (Forest.stringValue forest)
      left.any fun node =>
        let text := Forest.stringValue forest node
        texts.any fun other => (text == other) != isNegated
  | some found, none => setEquals forest isNegated found right
  | none, some found => setEquals forest isNegated found left
  | none, none => plainlyEqual forest left right != isNegated

def ordered (ordering : Ordering) (left right : Float) : Bool :=
  match ordering with
  | .less => left < right
  | .lessOrEqual => left ≤ right
  | .greater => right < left
  | .greaterOrEqual => right ≤ left

def inOrder (forest : Forest) (ordering : Ordering) (left right : Value) : Bool :=
  let numbers (found : List NodeRef) : List Float :=
    found.map fun node => Number.ofString (Forest.stringValue forest node)
  let asTruth (value : Value) : Float := if value.toTruth then 1.0 else 0.0
  match left.asNodes?, right.asNodes? with
  | some left, some right =>
      (numbers left).any fun first =>
        (numbers right).any fun second => ordered ordering first second
  | some found, none =>
      if right.isTruth then ordered ordering (asTruth left) (right.toNumber forest)
      else (numbers found).any fun first => ordered ordering first (right.toNumber forest)
  | none, some found =>
      if left.isTruth then ordered ordering (left.toNumber forest) (asTruth right)
      else (numbers found).any fun second => ordered ordering (left.toNumber forest) second
  | none, none => ordered ordering (left.toNumber forest) (right.toNumber forest)

def calculate (operation : Arithmetic) (left right : Float) : Float :=
  match operation with
  | .plus => left + right
  | .minus => left - right
  | .times => left * right
  | .divided => left / right
  | .remainder => Decimal.truncatedRemainder left right

end Value

def inDocumentOrder (found : List NodeRef) : List NodeRef :=
  dropRepeats (found.mergeSort fun left right => !right.before left)
where
  dropRepeats : List NodeRef → List NodeRef
    | first :: second :: rest =>
        if first == second then dropRepeats (second :: rest)
        else first :: dropRepeats (second :: rest)
    | rest => rest

end Schematron.XPath
