import Schematron.Schema.Vocabulary
import Schematron.Stage
import Schematron.Svrl
import Schematron.XPath.Function

/-! The parts of a generated stylesheet that word a message and tell where it applies. -/

namespace Schematron.Schema

open Schematron.Xml

def attributesOf (pairs : List (String × String)) : List Attribute :=
  pairs.map fun pair => ⟨.bare pair.1, pair.2⟩

def instruction (localPart : String) (attributes : List (String × String))
    (content : List Node) : Node :=
  .element ⟨some "axsl", localPart, XPath.transformSpace⟩ [] (attributesOf attributes) content

def record (localPart : String) (attributes : List (String × String)) (content : List Node) :
    Node :=
  .element ⟨some "svrl", localPart, Svrl.space⟩ [⟨"svrl", Svrl.space⟩] (attributesOf attributes)
    content

def divider : Node := instruction "text" [] []

def apart (content : List Node) : List Node := divider :: content ++ [divider]

def literalAttribute (pair : String × Option String) : List Node :=
  match pair.2 with
  | none | some "" => []
  | some value => [instruction "attribute" [("name", pair.1)] [.text value]]

def sayIfFilled (name : Name) (children : List Node) : Staged Unit := do
  if children.any Node.isElement then
    Staged.say ("Warning: " ++ name.qualified ++ " must not contain any child elements")

def plainTexts (children : List Node) : List Node :=
  let content := Node.contentValue children
  if content.isEmpty then [] else [.text content]

def phrase : Node → Staged (List Node)
  | .element name _ attributes children => do
      if !isOwn name then
        Staged.say ("Warning: unrecognized element " ++ name.qualified)
        return []
      match name.localPart with
      | "emph" | "dir" | "span" => return apart (plainTexts children)
      | "name" => do
          sayIfFilled name children
          let named := match value? attributes "path" with
            | some path => "name(" ++ path ++ ")"
            | none => "name(.)"
          return apart [instruction "value-of" [("select", named)] []]
      | "value-of" => do
          let select := value? attributes "select"
          if select.isNone then Staged.say "Markup Error: no select attribute in <value-of>"
          sayIfFilled name children
          return apart [instruction "value-of" [("select", select.getD ".")] []]
      | _ => return []
  | .text content => return [.text content]
  | _ => return []

def mergeTexts : List Node → List Node
  | .text first :: rest =>
      match mergeTexts rest with
      | .text second :: others => .text (first ++ second) :: others
      | others => .text first :: others
  | node :: rest => node :: mergeTexts rest
  | [] => []

def wording (children : List Node) : Staged (List Node) := do
  return mergeTexts (← children.mapM phrase).flatten

def locationMode : String := "location"

def ordinal (naming : String) : List Node :=
  let same := "[" ++ naming ++ "(.)=" ++ naming ++ "(current())]"
  [instruction "variable"
    [("name", "ordinal"), ("select", "1+count(preceding-sibling::*" ++ same ++ ")")] [],
   instruction "if" [("test", "$ordinal>1 or following-sibling::*" ++ same)]
    [.text "[", instruction "value-of" [("select", "$ordinal")] [], .text "]"]]

def qualifiedStep (axis : String) : List Node :=
  [.text (axis ++ "*[local-name()='"), instruction "value-of" [("select", "local-name()")] [],
   .text "' and namespace-uri()='", instruction "value-of" [("select", "namespace-uri()")] [],
   .text "']"]

def namespaceChoice (bare qualified : List Node) : Node :=
  instruction "choose" []
    [instruction "when" [("test", "namespace-uri()=''")] bare, instruction "otherwise" [] qualified]

def locationTemplates : List Node :=
  let nameText := instruction "value-of" [("select", "name()")] []
  [instruction "template" [("match", "*"), ("mode", locationMode)]
    [instruction "apply-templates" [("select", "parent::*"), ("mode", locationMode)] [],
     instruction "text" [] [.text "/"],
     namespaceChoice (nameText :: ordinal "name") (qualifiedStep "" ++ ordinal "local-name")],
   instruction "template" [("match", "@*"), ("mode", locationMode)]
    [instruction "text" [] [.text "/"],
     namespaceChoice [.text "@", nameText] (qualifiedStep "@")]]

end Schematron.Schema
