/-! Expressions of the path language. -/

namespace Schematron.XPath

inductive Axis
  | ancestor
  | ancestorOrSelf
  | attributes
  | child
  | descendant
  | descendantOrSelf
  | following
  | followingSibling
  | namespaces
  | parent
  | preceding
  | precedingSibling
  | self
deriving DecidableEq, Repr, Inhabited

namespace Axis

def ofName? (name : String) : Option Axis :=
  match name with
  | "ancestor" => some ancestor
  | "ancestor-or-self" => some ancestorOrSelf
  | "attribute" => some attributes
  | "child" => some child
  | "descendant" => some descendant
  | "descendant-or-self" => some descendantOrSelf
  | "following" => some following
  | "following-sibling" => some followingSibling
  | "namespace" => some namespaces
  | "parent" => some parent
  | "preceding" => some preceding
  | "preceding-sibling" => some precedingSibling
  | "self" => some self
  | _ => none

end Axis

structure WrittenName where
  pre : Option String
  localPart : String
deriving DecidableEq, Repr, Inhabited

inductive NodeTest
  | anyNode
  | text
  | comment
  | instruction (target : Option String)
  | anyName (pre : Option String)
  | named (name : WrittenName)
deriving DecidableEq, Repr, Inhabited

namespace NodeTest

def ofType? (name : String) : Option NodeTest :=
  match name with
  | "node" => some anyNode
  | "text" => some text
  | "comment" => some comment
  | "processing-instruction" => some (instruction none)
  | _ => none

end NodeTest

inductive Ordering
  | less
  | lessOrEqual
  | greater
  | greaterOrEqual
deriving DecidableEq, Repr, Inhabited

inductive Arithmetic
  | plus
  | minus
  | times
  | divided
  | remainder
deriving DecidableEq, Repr, Inhabited

inductive Expr
  | disjunction (left right : Expr)
  | conjunction (left right : Expr)
  | equality (isNegated : Bool) (left right : Expr)
  | order (ordering : Ordering) (left right : Expr)
  | arithmetic (operation : Arithmetic) (left right : Expr)
  | negation (operand : Expr)
  | asNumber (operand : Expr)
  | union (left right : Expr)
  | literal (value : String)
  | number (value : Float)
  | valueOf (name : WrittenName)
  | call (name : WrittenName) (arguments : List Expr)
  | root
  | here
  | step (input : Expr) (axis : Axis) (test : NodeTest) (predicates : List Expr)
  | filter (input predicate : Expr)
deriving Inhabited

end Schematron.XPath
