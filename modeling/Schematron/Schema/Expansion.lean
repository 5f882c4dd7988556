import Schematron.Schema.Vocabulary
import Schematron.Stage
import Schematron.Text.Split

/-! The second stage: patterns that use an abstract pattern become copies of it, with their
parameters in place. -/

namespace Schematron.Schema

open Schematron.Xml

abbrev Parameters := List (String × String)

def Parameters.substitute (parameters : Parameters) (source : String) : String :=
  parameters.foldl (fun text pair => Text.replaceString ("$" ++ pair.1) pair.2 text) source

def isParameterized (name : Name) : Bool :=
  ["test", "context", "select", "path"].any (name.isIn "" ·)

mutual
def instantiateNode (parameters : Parameters) : Node → List Node
  | .element name declared attributes children =>
      [.element name declared
        (attributes.map fun found =>
          if isParameterized found.name then
            { found with value := parameters.substitute found.value }
          else found)
        (instantiateNodes parameters children)]
  | .text content => [.text (parameters.substitute content)]
  | _ => []

def instantiateNodes (parameters : Parameters) : List Node → List Node
  | [] => []
  | node :: rest => instantiateNode parameters node ++ instantiateNodes parameters rest
end

def parameterOf (attributes : List Attribute) : String × String :=
  ((value? attributes "name").getD "", (value? attributes "value").getD "")

def parametersOf (patterns : List Node) (id : Option String) : Parameters :=
  match id with
  | none => []
  | some id =>
      let callers := patterns.filter fun pattern => pattern.attribute? "id" == some id
      let lists := callers.map fun pattern =>
        (pattern.children.filter (·.isNamed space "param")).map (parameterOf ·.attributes)
      (lists.find? (!·.isEmpty)).getD []

def instances (patterns : List Node) (attributes : List Attribute) (abstractId : String) :
    List Node :=
  let id := value? attributes "id"
  let parameters := parametersOf patterns id
  (patterns.filter fun pattern => pattern.attribute? "id" == some abstractId).flatMap fun pattern =>
    match pattern with
    | .element name declared _ children =>
        [.element name declared (id.toList.map fun id => ⟨.bare "id", id⟩)
          (instantiateNodes parameters children)]
    | _ => []

mutual
def expandNode (patterns : List Node) : Node → List Node
  | .element name declared attributes children =>
      if name.isIn space "pattern" && isAbstract attributes then []
      else match if name.isIn space "pattern" then value? attributes "is-a" else none with
        | some abstractId => instances patterns attributes abstractId
        | none => [.element name declared attributes (expandNodes patterns children)]
  | .text content => [.text content]
  | _ => []

def expandNodes (patterns : List Node) : List Node → List Node
  | [] => []
  | node :: rest => expandNode patterns node ++ expandNodes patterns rest
end

mutual
def schemasBelow : Node → List Node
  | .element name declared attributes children =>
      if name.isIn space "schema" then [.element name declared attributes children]
      else schemasAmong children
  | _ => []

def schemasAmong : List Node → List Node
  | [] => []
  | node :: rest => schemasBelow node ++ schemasAmong rest
end

def expandAll (document : Xml.Document) : StageRun :=
  let patterns := elementsAmong (·.isNamed space "pattern") document.nodes
  StageRun.ofNodes (expandNodes patterns (schemasAmong document.nodes)) []

end Schematron.Schema
