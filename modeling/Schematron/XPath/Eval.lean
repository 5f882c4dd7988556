import Schematron.XPath.Function

/-! Evaluation of expressions. -/

namespace Schematron.XPath

open Schematron.Xml (Binding)

inductive ResolvedTest
  | anyNode
  | text
  | comment
  | instruction (target : Option String)
  | anyName (uri : Option String)
  | named (uri localPart : String)

def NodeTest.resolve (scope : List Binding) : NodeTest → Eval ResolvedTest
  | .anyNode => pure .anyNode
  | .text => pure .text
  | .comment => pure .comment
  | .instruction target => pure (.instruction target)
  | .anyName none => pure (.anyName none)
  | .anyName (some pre) => do return .anyName (some (← resolvePrefix scope pre))
  | .named ⟨none, localPart⟩ => pure (.named "" localPart)
  | .named ⟨some pre, localPart⟩ => do return .named (← resolvePrefix scope pre) localPart

namespace Axis

def nodes (axis : Axis) (forest : Forest) (node : NodeRef) : List NodeRef :=
  match axis with
  | ancestor => Forest.ancestors forest node
  | ancestorOrSelf => node :: Forest.ancestors forest node
  | attributes => Forest.attributes forest node
  | child => Forest.children forest node
  | descendant => Forest.descendants forest node
  | descendantOrSelf => node :: Forest.descendants forest node
  | following => Forest.following forest node
  | followingSibling => Forest.followingSiblings forest node
  | namespaces => Forest.namespaces forest node
  | parent => (Forest.parent? forest node).toList
  | preceding => Forest.preceding forest node
  | precedingSibling => Forest.precedingSiblings forest node
  | self => [node]

def isPrincipal (axis : Axis) (forest : Forest) (node : NodeRef) : Bool :=
  match axis with
  | attributes => Forest.isAttribution forest node
  | namespaces => node.space.isSome
  | _ => Forest.isElement forest node

end Axis

def ResolvedTest.accepts (test : ResolvedTest) (axis : Axis) (forest : Forest) (node : NodeRef) :
    Bool :=
  let kind := (Forest.item forest node).kind
  match test with
  | .anyNode => node.space.isSome || kind != .reference
  | .text => node.space.isNone && kind == .text
  | .comment => node.space.isNone && kind == .comment
  | .instruction target =>
      node.space.isNone && kind == .instruction &&
        (target.map fun target => (nodeName forest node).localPart == target).getD true
  | .anyName uri =>
      axis.isPrincipal forest node &&
        (uri.map fun uri => (nodeName forest node).uri == uri).getD true
  | .named uri localPart =>
      axis.isPrincipal forest node && (nodeName forest node).isIn uri localPart

def lookupVariable (library : Library) (context : Context) (name : WrittenName) : Eval Value := do
  let name ← expandName context.scope name
  match context.locals.lookup name with
  | some value => pure value
  | none => library.valueOf name

mutual
def evaluate (library : Library) (context : Context) : Expr → Eval Value
  | .disjunction left right => do
      if (← evaluate library context left).toTruth then return .truth true
      return .truth (← evaluate library context right).toTruth
  | .conjunction left right => do
      if !(← evaluate library context left).toTruth then return .truth false
      return .truth (← evaluate library context right).toTruth
  | .equality isNegated left right => do
      let left ← evaluate library context left
      let right ← evaluate library context right
      return .truth (Value.equals (← get).forest isNegated left right)
  | .order ordering left right => do
      let left ← evaluate library context left
      let right ← evaluate library context right
      return .truth (Value.inOrder (← get).forest ordering left right)
  | .arithmetic operation left right => do
      let left ← evaluate library context left
      let right ← evaluate library context right
      let forest := (← get).forest
      return .number (Value.calculate operation (left.toNumber forest) (right.toNumber forest))
  | .negation operand => do
      let operand ← evaluate library context operand
      return .number (-(operand.toNumber (← get).forest))
  | .asNumber operand => do
      let operand ← evaluate library context operand
      return .number (operand.toNumber (← get).forest)
  | .union left right => do
      match ← evaluate library context left with
      | .nodes left =>
          match ← evaluate library context right with
          | .nodes right => return .nodes (inDocumentOrder (left ++ right))
          | _ => fail .wrongType
      | _ => fail .wrongType
  | .literal value => pure (.text value)
  | .number value => pure (.number value)
  | .valueOf name => lookupVariable library context name
  | .call name arguments => do
      let arguments ← evaluateAll library context arguments
      callFunction library context name arguments
  | .root => pure (.nodes [Forest.root context.node])
  | .here => pure (.nodes [context.node])
  | .step input axis test predicates => do
      match ← evaluate library context input with
      | .nodes found =>
          let test ← test.resolve context.scope
          let forest := (← get).forest
          let reached ← found.mapM fun node =>
            selectAll library context predicates
              ((axis.nodes forest node).filter (test.accepts axis forest))
          return .nodes (inDocumentOrder reached.flatten)
      | _ => fail .wrongType
  | .filter input predicate => do
      match ← evaluate library context input with
      | .nodes found => return .nodes (← select library context predicate found.length 1 found)
      | _ => fail .wrongType

def evaluateAll (library : Library) (context : Context) : List Expr → Eval (List Value)
  | [] => pure []
  | first :: rest => do
      let value ← evaluate library context first
      return value :: (← evaluateAll library context rest)

def selectAll (library : Library) (context : Context) :
    List Expr → List NodeRef → Eval (List NodeRef)
  | [], found => pure found
  | predicate :: rest, found => do
      let kept ← select library context predicate found.length 1 found
      selectAll library context rest kept

def select (library : Library) (context : Context) (predicate : Expr) (size : Nat) :
    Nat → List NodeRef → Eval (List NodeRef)
  | _, [] => pure []
  | position, node :: rest => do
      let value ← evaluate library { context with node, position, size } predicate
      let kept ← select library context predicate size (position + 1) rest
      return if value.selects position then node :: kept else kept
end

end Schematron.XPath
