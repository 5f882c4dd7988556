import Schematron.XPath.Pattern

/-! Stylesheets: the instructions of a transformation, their expressions already read. -/

namespace Schematron.Transform

open Schematron.Xml (Binding Name)
open Schematron.XPath (Expr Pattern NumberFormat)

structure Query where
  expr : Expr
  scope : List Binding
deriving Inhabited

inductive TemplatePart
  | text (content : String)
  | query (expr : Expr)
deriving Inhabited

structure ValueTemplate where
  parts : List TemplatePart
  scope : List Binding
deriving Inhabited

structure SortKey where
  select : Query
  isNumeric : Bool
  isDescending : Bool

inductive Instruction
  | text (content : String)
  | literal (name : Name) (declared : List Binding) (attributes : List (Name × ValueTemplate))
      (content : List Instruction)
  | element (name : ValueTemplate) (space : Option ValueTemplate) (content : List Instruction)
  | attribution (name : ValueTemplate) (space : Option ValueTemplate) (content : List Instruction)
  | comment (content : List Instruction)
  | processing (target : ValueTemplate) (content : List Instruction)
  | valueOf (select : Query)
  | copyOf (select : Query)
  | copy (content : List Instruction)
  | number (value : Option Query)
  | applyTemplates (select : Option Query) (mode : String) (sorts : List SortKey)
      (arguments : List (String × Option Query × List Instruction))
  | callTemplate (name : String) (arguments : List (String × Option Query × List Instruction))
  | forEach (select : Query) (sorts : List SortKey) (content : List Instruction)
  | choose (branches : List (Query × List Instruction)) (otherwise : List Instruction)
  | declare (isParameter : Bool) (name : String) (select : Option Query)
      (content : List Instruction)
  | message (isFinal : Bool) (content : List Instruction)
  | unknown (name : String)
deriving Inhabited

structure Template where
  pattern : Option Pattern
  name : Option String
  mode : String
  priority : Option Float
  body : List Instruction

structure Rule where
  pattern : Pattern
  mode : String
  priority : Float
  body : List Instruction

structure Global where
  name : String
  isParameter : Bool
  select : Option Query
  content : List Instruction

structure Key where
  name : String
  pattern : Pattern
  use : Query

structure Stylesheet where
  rules : List Rule
  named : List (String × List Instruction)
  globals : List Global
  keys : List Key
  formats : List (String × NumberFormat)
  tree : XPath.Tree

inductive LoadFault
  | notAStylesheet
  | misplacedText
  | unexpectedElement (name : String)
  | missingAttribute (element localPart : String)
  | unreadableExpression (source : String)
  | unreadableQuery (element localPart source : String)
  | unreadablePattern (source : String)
  | unreadableTemplate (source : String)
  | badName (name : String)
deriving DecidableEq, Repr

namespace LoadFault

def message : LoadFault → String
  | notAStylesheet => "document is not a stylesheet"
  | misplacedText => "misplaced text at top level"
  | unexpectedElement name => "unexpected element " ++ name
  | missingAttribute element localPart => element ++ ": missing attribute " ++ localPart
  | unreadableExpression source => "could not compile expression " ++ source
  | unreadableQuery element localPart source =>
      "xsl:" ++ element ++ " : could not compile " ++ localPart ++ " expression '" ++ source ++ "'"
  | unreadablePattern source => "failed to compile pattern " ++ source
  | unreadableTemplate source => "unmatched brace in " ++ source
  | badName name => "invalid name " ++ name

def notes (fault : LoadFault) : List String :=
  match fault with
  | unreadableQuery element _ _ =>
      ["Invalid expression", "compilation error, element '" ++ element ++ "'", fault.message]
  | _ => [fault.message]

end LoadFault

end Schematron.Transform
