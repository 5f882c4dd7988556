import Schematron.Xml.Node

/-! The names of the rule language. -/

namespace Schematron.Schema

open Schematron.Xml

def space : String := "http://purl.oclc.org/dsdl/schematron"

def isOwn (name : Name) : Bool := name.uri == space

def value? (attributes : List Attribute) (localPart : String) : Option String :=
  (attributes.find? (·.name.isIn "" localPart)).map (·.value)

def identifiers (attributes : List Attribute) : List String :=
  (attributes.filter fun found =>
    found.name.isIn "" "id" || found.name.isIn xmlNamespace "id").map (·.value)

def isAbstract (attributes : List Attribute) : Bool := value? attributes "abstract" == some "true"

mutual
def elementsBelow (accepts : Node → Bool) : Node → List Node
  | .element name declared attributes children =>
      let node := Node.element name declared attributes children
      let deeper := elementsAmong accepts children
      if accepts node then node :: deeper else deeper
  | _ => []

def elementsAmong (accepts : Node → Bool) : List Node → List Node
  | [] => []
  | node :: rest => elementsBelow accepts node ++ elementsAmong accepts rest
end

end Schematron.Schema
