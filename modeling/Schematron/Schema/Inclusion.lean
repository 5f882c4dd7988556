import Schematron.Location.Uri
import Schematron.Schema.Vocabulary
import Schematron.Stage

/-! The first stage: a schema is put together from the documents that it includes. -/

namespace Schematron.Schema

open Schematron.Xml

structure Place where
  address : String
  document : Xml.Document

def splitFragment (reference : String) : String × String :=
  let chars := reference.toList
  (String.ofList (chars.takeWhile (· != '#')), String.ofList ((chars.dropWhile (· != '#')).drop 1))

def schemaMessage : String :=
  "Schema error: Use include to include\n\t\t\t\t\t\t\t\t\tfragments, not a whole schema"

def isSchemaElement : Node → Bool
  | .element name .. => isOwn name
  | _ => false

def isIdentifiedBy (fragment : String) (node : Node) : Bool :=
  isSchemaElement node && (identifiers node.attributes).contains fragment

def target (read : String → Option Xml.Document) (place : Place) (reference : String) :
    Staged (Place × List Node) := do
  let (address, fragment) := splitFragment reference
  if address.isEmpty && fragment.isEmpty then
    Staged.say "Error: Impossible URL in Schematron include"
    return (place, [])
  let found ←
    if address.isEmpty then pure place
    else
      let address := Uri.resolve address place.address
      match if Uri.isReference reference then read address else none with
      | some document => pure ⟨address, document⟩
      | none => throw ("cannot load document " ++ address)
  if !fragment.isEmpty then
    return (found, elementsAmong (isIdentifiedBy fragment) found.document.nodes)
  match found.document.nodes.filter isSchemaElement with
  | [root] =>
      if root.isNamed space "schema" then
        Staged.say schemaMessage
        return (found, [])
      return (found, [root])
  | _ => return (found, [])

mutual
/-- Copies nodes; `included` gives what stands in place of a reference, and says whether the
children of the named elements are meant instead of themselves. -/
def assembleNode (included : Bool → String → Staged (List Node)) : Node → Staged (List Node)
  | .element name declared attributes children => do
      let reference := value? attributes "href"
      if name.isIn space "include" then included false (reference.getD "")
      else if name.isIn space "extends" && reference.isSome then
        included true (reference.getD "")
      else
        return [.element name declared attributes (← assembleNodes included children)]
  | .reference .. => return []
  | node => return [node]

def assembleNodes (included : Bool → String → Staged (List Node)) :
    List Node → Staged (List Node)
  | [] => return []
  | node :: rest => do
      return (← assembleNode included node) ++ (← assembleNodes included rest)
end

def assemble (read : String → Option Xml.Document) : Nat → Place → List Node → Staged (List Node)
  | 0, _, _ => throw "inclusions nest too deeply"
  | depth + 1, place, nodes =>
      assembleNodes (fun childrenOnly reference => do
        let (found, elements) ← target read place reference
        let wanted := if childrenOnly then
            (elements.flatMap Node.children).filter Node.isElement
          else elements
        assemble read depth found wanted) nodes

def inclusionDepth : Nat := 500

def includeAll (read : String → Option Xml.Document) (address : String)
    (document : Xml.Document) : StageRun :=
  (assemble read inclusionDepth ⟨address, document⟩ document.nodes).toRun

end Schematron.Schema
