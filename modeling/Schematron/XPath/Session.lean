import Schematron.XPath.NumberFormat
import Schematron.XPath.Value

/-! What evaluation has at hand: the trees read and made so far, the messages written, and the
surroundings of one expression. -/

namespace Schematron.XPath

open Schematron.Xml (Binding)

inductive Fault
  | unknownFunction (name : String)
  | unknownVariable (name : String)
  | unknownPrefix (name : String)
  | wrongType
  | wrongArity (name : String)
  | unreadableDocument (uri : String)
  | circular (name : String)
  | repeatedVariable (name : String)
  | unknownTemplate (name : String)
  | unknownFormat (name : String)
  | unreadableExpression (source : String)
  | unknownInstruction (name : String)
  | notANodeSet
  | endlessRecursion
  | terminated
deriving DecidableEq, Repr

namespace Fault

def message : Fault → String
  | unknownFunction name => "unregistered function " ++ name
  | unknownVariable name => "undefined variable " ++ name
  | unknownPrefix name => "undefined namespace prefix " ++ name
  | wrongType => "invalid type"
  | wrongArity name => "invalid number of arguments of " ++ name
  | unreadableDocument uri => "cannot load document " ++ uri
  | circular name => "variable " ++ name ++ " depends on itself"
  | repeatedVariable name => "redefinition of variable " ++ name
  | unknownTemplate name => "no template named " ++ name
  | unknownFormat name => "no decimal format named " ++ name
  | unreadableExpression source => "invalid expression " ++ source
  | unknownInstruction name => "unknown instruction " ++ name
  | notANodeSet => "expression does not evaluate to a node set"
  | endlessRecursion => "too many nested templates"
  | terminated => "transformation terminated by a message"

end Fault

structure Session where
  forest : Forest
  loaded : List (String × Nat)
  globals : List (String × Value)
  pending : List String
  messages : List String

abbrev Eval := ExceptT Fault (StateM Session)

def fail {α : Type} (fault : Fault) : Eval α := throw fault

structure Library where
  valueOf : String → Eval Value
  keyed : NodeRef → String → String → Eval (List NodeRef)
  document : String → Option Tree
  stylesheetAddress : String
  formats : List (String × NumberFormat)
  knowsElement : String → Bool

structure Context where
  node : NodeRef
  position : Nat
  size : Nat
  current : NodeRef
  scope : List Binding
  locals : List (String × Value)

end Schematron.XPath
